import Mathlib.Data.List.Induction
import Mathlib.Tactic.Ring

/-! Positional numerals in any base from two on: digit values, most significant
first, without leading zeros. -/
namespace Sippycup.Numeral

variable {base : Nat}

/-- Digits of `n`; the first argument bounds their number. -/
@[grind =] def digits (base : Nat) : Nat → Nat → List Nat
  | 0, _ => []
  | bound + 1, n => if n < base then [n] else digits base bound (n / base) ++ [n % base]

def render (base n : Nat) : List Nat := digits base (n + 1) n

def read (base : Nat) (ds : List Nat) : Nat := ds.foldl (fun acc d => acc * base + d) 0

@[simp] theorem read_nil : read base [] = 0 := rfl

@[simp] theorem read_singleton (d : Nat) : read base [d] = d := by
  simp [read]

theorem read_concat (ds : List Nat) (d : Nat) : read base (ds ++ [d]) = read base ds * base + d := by
  simp [read, List.foldl_append]

theorem read_append (ds es : List Nat) :
    read base (ds ++ es) = read base ds * base ^ es.length + read base es := by
  induction es using List.reverseRecOn with
  | nil => simp
  | append_singleton es e ih =>
    rw [← List.append_assoc, read_concat, ih, read_concat, List.length_append, List.length_singleton,
      pow_succ]
    ring

theorem div_lt_of_bound {bound n : Nat} (two : 2 ≤ base) (big : ¬ n < base) (enough : n < bound + 1) :
    n / base < bound := by
  have smaller : n / base < n := Nat.div_lt_self (by omega) two
  omega

theorem read_digits {bound n : Nat} (two : 2 ≤ base) (enough : n < bound) :
    read base (digits base bound n) = n := by
  induction bound generalizing n with
  | zero => omega
  | succ bound ih =>
    rw [digits]
    split
    · exact read_singleton n
    · rename_i big
      rw [read_concat, ih (div_lt_of_bound two big enough), Nat.mul_comm]
      exact Nat.div_add_mod n base

theorem digits_lt {bound n : Nat} (two : 2 ≤ base) : ∀ d ∈ digits base bound n, d < base := by
  induction bound generalizing n with
  | zero => simp [digits]
  | succ bound ih =>
    intro d member
    rw [digits] at member
    split at member
    · rwa [List.mem_singleton.mp member]
    · rcases List.mem_append.mp member with earlier | last
      · exact ih d earlier
      · rw [List.mem_singleton.mp last]
        exact Nat.mod_lt n (by omega)

theorem digits_ne_nil {bound n : Nat} (enough : n < bound) : digits base bound n ≠ [] := by
  cases bound with
  | zero => omega
  | succ bound =>
    rw [digits]
    split <;> simp

theorem digits_length {bound n width : Nat} (positive : 0 < width)
    (small : n < base ^ width) : (digits base bound n).length ≤ width := by
  induction bound generalizing n width with
  | zero => simp [digits]
  | succ bound ih =>
    rw [digits]
    split
    · rw [List.length_singleton]
      omega
    · rename_i big
      obtain ⟨width, rfl⟩ := Nat.exists_eq_succ_of_ne_zero positive.ne'
      have wide : 0 < width := by
        rcases Nat.eq_zero_or_pos width with rfl | wide
        · simp only [Nat.succ_eq_add_one, Nat.zero_add, pow_one] at small
          exact absurd small big
        · exact wide
      have quotient : n / base < base ^ width :=
        Nat.div_lt_of_lt_mul (by rwa [Nat.succ_eq_add_one, pow_succ, Nat.mul_comm] at small)
      have shorter := ih wide quotient
      rw [List.length_append, List.length_singleton]
      omega

/-- Only zero starts with the digit zero. -/
theorem digits_head {bound n : Nat} {rest : List Nat} (two : 2 ≤ base) (enough : n < bound)
    (leading : digits base bound n = 0 :: rest) : n = 0 ∧ rest = [] := by
  induction bound generalizing n rest with
  | zero => omega
  | succ bound ih =>
    rw [digits] at leading
    split at leading
    · obtain ⟨zero, nil⟩ := List.cons.inj leading
      exact ⟨zero, nil.symm⟩
    · rename_i big
      have shorter := div_lt_of_bound two big enough
      have some_digit : digits base bound (n / base) ≠ [] := digits_ne_nil shorter
      obtain ⟨d, ds, split⟩ := List.exists_cons_of_ne_nil some_digit
      rw [split, List.cons_append] at leading
      obtain ⟨zero, _⟩ := List.cons.inj leading
      subst zero
      have quotient := (ih shorter split).1
      rcases Nat.div_eq_zero_iff.mp quotient with zero | small
      · omega
      · exact absurd small big

/-- The bound on the number of digits plays no part once it is large enough. -/
theorem digits_bound {b c n : Nat} (two : 2 ≤ base) (left : n < b) (right : n < c) :
    digits base b n = digits base c n := by
  induction b generalizing c n with
  | zero => omega
  | succ b ih =>
    obtain ⟨c, rfl⟩ := Nat.exists_eq_succ_of_ne_zero (Nat.ne_zero_of_lt right)
    rw [digits, digits]
    split
    · rfl
    · rename_i big
      rw [ih (div_lt_of_bound two big left) (div_lt_of_bound two big right)]

theorem render_concat {n d : Nat} (two : 2 ≤ base) (positive : 0 < n) (digit : d < base) :
    render base (n * base + d) = render base n ++ [d] := by
  have big : ¬ n * base + d < base := by
    have : base ≤ n * base := Nat.le_mul_of_pos_left base positive
    omega
  have quotient : (n * base + d) / base = n := by
    rw [Nat.mul_comm, Nat.mul_add_div (by omega), Nat.div_eq_of_lt digit, Nat.add_zero]
  have remainder : (n * base + d) % base = d := by
    rw [Nat.mul_comm, Nat.mul_add_mod, Nat.mod_eq_of_lt digit]
  have larger : n < n * base + d := by
    have : n * 2 ≤ n * base := Nat.mul_le_mul_left n two
    omega
  rw [render, digits, if_neg big, quotient, remainder, render,
    digits_bound two larger (Nat.lt_succ_self n)]

theorem read_render (two : 2 ≤ base) (n : Nat) : read base (render base n) = n :=
  read_digits two (Nat.lt_succ_self n)

theorem render_lt (two : 2 ≤ base) {n : Nat} : ∀ d ∈ render base n, d < base := digits_lt two

theorem render_ne_nil {n : Nat} : render base n ≠ [] := digits_ne_nil (Nat.lt_succ_self n)

theorem render_length {n width : Nat} (positive : 0 < width)
    (small : n < base ^ width) : (render base n).length ≤ width := digits_length positive small

theorem render_head (two : 2 ≤ base) {n : Nat} {rest : List Nat} (leading : render base n = 0 :: rest) :
    n = 0 ∧ rest = [] := digits_head two (Nat.lt_succ_self n) leading

/-- The blocks of `width` digits of a number, most significant first. -/
@[grind =] def blocks (base : Nat) : Nat → Nat → List Nat
  | 0, _ => []
  | count + 1, n => blocks base count (n / base) ++ [n % base]

@[simp] theorem length_blocks (count n : Nat) : (blocks base count n).length = count := by
  induction count generalizing n with
  | zero => rfl
  | succ count ih => simp [blocks, ih]

theorem blocks_lt (two : 2 ≤ base) {count n : Nat} : ∀ d ∈ blocks base count n, d < base := by
  induction count generalizing n with
  | zero => simp [blocks]
  | succ count ih =>
    intro d member
    rcases List.mem_append.mp member with earlier | last
    · exact ih d earlier
    · rw [List.mem_singleton.mp last]
      exact Nat.mod_lt n (by omega)

theorem read_blocks {count n : Nat} (small : n < base ^ count) : read base (blocks base count n) = n := by
  induction count generalizing n with
  | zero =>
    rw [pow_zero] at small
    simp [blocks]
    omega
  | succ count ih =>
    have quotient : n / base < base ^ count :=
      Nat.div_lt_of_lt_mul (by rwa [pow_succ, Nat.mul_comm] at small)
    rw [blocks, read_concat, ih quotient, Nat.mul_comm]
    exact Nat.div_add_mod n base

end Sippycup.Numeral
