import Mathlib.Data.Nat.Cast.Field
import Mathlib.Tactic.Positivity
import Sippycup.Python.Decimal

/-! What the text of a float reads back as, and how a decimal that such a text
gives is rendered again. -/
namespace Sippycup.Python
open Sippycup.Ip

theorem readNumeral_append (base : Nat) (xs ys : Codes) :
    readNumeral base (xs ++ ys) = readNumeral base xs * base ^ ys.length + readNumeral base ys := by
  rw [readNumeral, List.map_append, Numeral.read_append, List.length_map]
  rfl

theorem readNumeral_zeros (base n : Nat) : readNumeral base (zeroDigits n) = 0 := by
  induction n with
  | zero => rfl
  | succ n ih =>
    have split : zeroDigits (n + 1) = [zeroDigit] ++ zeroDigits n := rfl
    have first : readNumeral base [zeroDigit] = 0 := Numeral.read_singleton 0
    rw [split, readNumeral_append, ih, first, Nat.zero_mul]

theorem readNumeral_ten (n : Nat) : readNumeral 10 (renderNumeral 10 n) = n :=
  readNumeral_render (by decide) (by decide)

theorem renderNumeral_shift {n k : Nat} (positive : 0 < n) :
    renderNumeral 10 (n * 10 ^ k) = renderNumeral 10 n ++ zeroDigits k := by
  induction k with
  | zero => simp [zeroDigits]
  | succ k ih =>
    have some_ : 0 < n * 10 ^ k := Nat.mul_pos positive (Nat.pow_pos (by decide))
    have step := Numeral.render_concat (d := 0) (by decide : 2 ≤ 10) some_ (by decide)
    have last : zeroDigits (k + 1) = zeroDigits k ++ [zeroDigit] := List.replicate_succ'
    rw [Nat.pow_succ, ← Nat.mul_assoc, renderNumeral, ← Nat.add_zero (n * 10 ^ k * 10), step,
      List.map_append, ← renderNumeral, ih, List.append_assoc, last]
    rfl

theorem renderNumeral_none (n : Nat) : renderNumeral 10 n ≠ [] := renderNumeral_ne_nil

theorem length_renderNumeral_pos (n : Nat) : 0 < (renderNumeral 10 n).length :=
  List.length_pos_of_ne_nil renderNumeral_ne_nil

theorem zeroDigits_decimal {n : Nat} : ∀ c ∈ zeroDigits n, isDigit c = true := by
  intro c member
  rw [List.eq_of_mem_replicate member]
  decide

/-- Digits are neither signs nor points nor exponent marks. -/
theorem digit_plain {c : Nat} (digit : isDigit c = true) :
    c ≠ minus ∧ c ≠ plus ∧ c ≠ dot ∧ c ≠ exponentMark := by
  simp only [isDigit, decide_eq_true_eq] at digit
  simp only [minus, plus, dot, exponentMark]
  omega

def AllDigits (codes : Codes) : Prop := ∀ c ∈ codes, isDigit c = true

theorem allDigits_append {xs ys : Codes} (left : AllDigits xs) (right : AllDigits ys) :
    AllDigits (xs ++ ys) := by
  intro c member
  exact (List.mem_append.mp member).elim (left c) (right c)

theorem allDigits_numeral (n : Nat) : AllDigits (renderNumeral 10 n) := renderNumeral_decimal

theorem allDigits_take {xs : Codes} (digits : AllDigits xs) (n : Nat) : AllDigits (xs.take n) :=
  fun c member => digits c (List.mem_of_mem_take member)

theorem allDigits_drop {xs : Codes} (digits : AllDigits xs) (n : Nat) : AllDigits (xs.drop n) :=
  fun c member => digits c (List.mem_of_mem_drop member)

/-- Splitting at the first code that stops a run of others. -/
theorem takeWhile_stop {p : Nat → Bool} {xs ys : Codes} {stop : Nat} (run : ∀ c ∈ xs, p c = true)
    (stops : p stop = false) : (xs ++ stop :: ys).takeWhile p = xs := by
  rw [List.takeWhile_append_of_pos run, List.takeWhile_cons_of_neg (by simp [stops]), List.append_nil]

theorem dropWhile_stop {p : Nat → Bool} {xs ys : Codes} {stop : Nat} (run : ∀ c ∈ xs, p c = true)
    (stops : p stop = false) : (xs ++ stop :: ys).dropWhile p = stop :: ys := by
  rw [List.dropWhile_append_of_pos run, List.dropWhile_cons_of_neg (by simp [stops])]

theorem takeWhile_run {p : Nat → Bool} {xs : Codes} (run : ∀ c ∈ xs, p c = true) :
    xs.takeWhile p = xs := List.takeWhile_eq_self_iff.mpr run

theorem dropWhile_run {p : Nat → Bool} {xs : Codes} (run : ∀ c ∈ xs, p c = true) :
    xs.dropWhile p = [] := List.dropWhile_eq_nil_iff.mpr run

/-- The digits of a number around its point, and its exponent. -/
structure Parts where
  whole : Codes
  fraction : Codes
  exponent : Codes
  wholeDigits : AllDigits whole
  fractionDigits : AllDigits fraction

namespace Parts

def mantissa (p : Parts) : Codes :=
  if p.fraction.isEmpty then p.whole else p.whole ++ dot :: p.fraction

def codes (p : Parts) : Codes :=
  if p.exponent.isEmpty then p.mantissa else p.mantissa ++ exponentMark :: p.exponent

theorem mantissa_plain (p : Parts) : ∀ c ∈ p.mantissa, c ≠ exponentMark ∧ c ≠ minus := by
  intro c member
  rw [mantissa] at member
  split at member
  · exact ⟨(digit_plain (p.wholeDigits c member)).2.2.2, (digit_plain (p.wholeDigits c member)).1⟩
  · rcases List.mem_append.mp member with whole | rest
    · exact ⟨(digit_plain (p.wholeDigits c whole)).2.2.2, (digit_plain (p.wholeDigits c whole)).1⟩
    · rcases List.mem_cons.mp rest with rfl | fraction
      · decide
      · exact ⟨(digit_plain (p.fractionDigits c fraction)).2.2.2,
          (digit_plain (p.fractionDigits c fraction)).1⟩

theorem whole_plain (p : Parts) : ∀ c ∈ p.whole, decide (c ≠ dot) = true := by
  intro c member
  exact decide_eq_true (digit_plain (p.wholeDigits c member)).2.2.1

theorem split_mantissa (p : Parts) :
    p.mantissa.takeWhile (· ≠ dot) = p.whole ∧
      (p.mantissa.dropWhile (· ≠ dot)).drop 1 = p.fraction := by
  rw [mantissa]
  split
  · rename_i none
    rw [takeWhile_run p.whole_plain, dropWhile_run p.whole_plain]
    exact ⟨rfl, (List.isEmpty_iff.mp none).symm⟩
  · rw [takeWhile_stop p.whole_plain (by decide), dropWhile_stop p.whole_plain (by decide)]
    exact ⟨rfl, rfl⟩

theorem split_codes (p : Parts) :
    p.codes.takeWhile (· ≠ exponentMark) = p.mantissa ∧
      (p.codes.dropWhile (· ≠ exponentMark)).drop 1 = p.exponent := by
  have plain : ∀ c ∈ p.mantissa, decide (c ≠ exponentMark) = true :=
    fun c member => decide_eq_true (p.mantissa_plain c member).1
  rw [codes]
  split
  · rename_i none
    rw [takeWhile_run plain, dropWhile_run plain]
    exact ⟨rfl, (List.isEmpty_iff.mp none).symm⟩
  · rw [takeWhile_stop plain (by decide), dropWhile_stop plain (by decide)]
    exact ⟨rfl, rfl⟩

theorem codes_head (p : Parts) (some_ : p.whole ≠ []) : p.codes.head? ≠ some minus := by
  obtain ⟨first, rest, split⟩ := List.exists_cons_of_ne_nil some_
  have digit := (digit_plain (p.wholeDigits first (by rw [split]; exact List.mem_cons_self))).1
  have head : p.codes.head? = some first := by
    rw [codes, mantissa, split]
    split <;> split <;> rfl
  rw [head]
  exact fun same => digit (Option.some.inj same)

/-- Reading a signed number gives back its sign, its digits and its exponent. -/
theorem ofText_codes (p : Parts) (some_ : p.whole ≠ []) (negative : Bool) :
    Decimal.ofText (signCodes negative ++ p.codes) =
      { negative, coefficient := readNumeral 10 (p.whole ++ p.fraction)
        exponent := Decimal.readSigned p.exponent - p.fraction.length } := by
  obtain ⟨whole, fraction⟩ := p.split_mantissa
  obtain ⟨mantissa, exponent⟩ := p.split_codes
  have head := p.codes_head some_
  cases negative with
  | true =>
    simp only [Decimal.ofText, signCodes, if_true, List.singleton_append, List.head?_cons,
      List.drop_succ_cons, List.drop_zero, mantissa, exponent, whole, fraction, decide_true]
  | false =>
    simp only [Decimal.ofText, signCodes, Bool.false_eq_true, if_false, List.nil_append, head,
      mantissa, exponent, whole, fraction, decide_false]

end Parts

namespace Shortest

theorem numeral_length (x : Shortest) : 0 < x.numeral.length := length_renderNumeral_pos x.digits

/-- The layout of a float, in its parts. -/
def parts (x : Shortest) : Parts :=
  if -4 ≤ x.adjusted ∧ x.adjusted < 16 then
    if 0 ≤ x.exponent then
      { whole := x.numeral ++ zeroDigits x.exponent.toNat, fraction := [zeroDigit], exponent := []
        wholeDigits := allDigits_append (allDigits_numeral x.digits) zeroDigits_decimal
        fractionDigits := zeroDigits_decimal (n := 1) }
    else if 0 ≤ x.adjusted then
      { whole := x.numeral.take (x.adjusted.toNat + 1)
        fraction := x.numeral.drop (x.adjusted.toNat + 1), exponent := []
        wholeDigits := allDigits_take (allDigits_numeral x.digits) _
        fractionDigits := allDigits_drop (allDigits_numeral x.digits) _ }
    else
      { whole := [zeroDigit], fraction := zeroDigits ((-x.adjusted).toNat - 1) ++ x.numeral
        exponent := []
        wholeDigits := zeroDigits_decimal (n := 1)
        fractionDigits := allDigits_append zeroDigits_decimal (allDigits_numeral x.digits) }
  else
    { whole := x.numeral.take 1, fraction := x.numeral.drop 1
      exponent := (if x.adjusted < 0 then minus else plus) ::
        (zeroDigits (2 - (renderNumeral 10 x.adjusted.natAbs).length) ++
          renderNumeral 10 x.adjusted.natAbs)
      wholeDigits := allDigits_take (allDigits_numeral x.digits) _
      fractionDigits := allDigits_drop (allDigits_numeral x.digits) _ }

theorem layout_eq (x : Shortest) : x.layout = x.parts.codes := by
  have length := x.numeral_length
  rw [layout, parts]
  dsimp only
  split
  · split
    · simp [Parts.codes, Parts.mantissa]
    · split
      · rename_i fixed negative whole
        have inside : x.adjusted.toNat + 1 < x.numeral.length := by
          rw [adjusted] at whole ⊢
          omega
        have some_ : (x.numeral.drop (x.adjusted.toNat + 1)).isEmpty = false := by
          rw [List.isEmpty_eq_false_iff, ne_eq, List.drop_eq_nil_iff]
          omega
        simp [Parts.codes, Parts.mantissa, some_]
      · have some_ : (zeroDigits ((-x.adjusted).toNat - 1) ++ x.numeral).isEmpty = false := by
          rw [List.isEmpty_eq_false_iff]
          exact List.append_ne_nil_of_right_ne_nil _ (List.ne_nil_of_length_pos length)
        simp [Parts.codes, Parts.mantissa, some_]
  · simp only [Parts.codes, Parts.mantissa, List.isEmpty_cons, Bool.false_eq_true, if_false, pointed]
    by_cases single : x.numeral.length ≤ 1
    · have none : x.numeral.drop 1 = [] := List.drop_eq_nil_of_le single
      have all : x.numeral.take 1 = x.numeral := List.take_of_length_le single
      simp [single, none, all]
    · have some_ : (x.numeral.drop 1).isEmpty = false := by
        rw [List.isEmpty_eq_false_iff, ne_eq, List.drop_eq_nil_iff]
        exact single
      simp only [single, some_, Bool.false_eq_true, if_false, List.append_assoc, List.cons_append,
        List.nil_append]

theorem parts_whole (x : Shortest) : x.parts.whole ≠ [] := by
  have some_ : x.numeral ≠ [] := List.ne_nil_of_length_pos x.numeral_length
  rw [parts]
  split
  · split
    · exact List.append_ne_nil_of_left_ne_nil some_ _
    · split
      · simpa using some_
      · simp
  · simpa using some_

/-- The text of a float in fixed notation with no fraction of its own ends in a zero. -/
def Padded (x : Shortest) : Prop := (-4 ≤ x.adjusted ∧ x.adjusted < 16) ∧ 0 ≤ x.exponent

instance (x : Shortest) : Decidable x.Padded := inferInstanceAs (Decidable (_ ∧ _))

theorem readSigned_exponent (e : Int) (n : Nat) :
    Decimal.readSigned ((if e < 0 then minus else plus) ::
      (zeroDigits n ++ renderNumeral 10 e.natAbs)) = e := by
  have value : readNumeral 10 (zeroDigits n ++ renderNumeral 10 e.natAbs) = e.natAbs := by
    rw [readNumeral_append, readNumeral_zeros, readNumeral_ten, Nat.zero_mul, Nat.zero_add]
  by_cases negative : e < 0
  · simp only [Decimal.readSigned, negative, if_true, List.head?_cons, List.drop_succ_cons,
      List.drop_zero, value]
    omega
  · have other : ¬ plus = minus := by decide
    simp only [Decimal.readSigned, negative, if_false, List.head?_cons, Option.some.injEq, other,
      if_true, List.drop_succ_cons, List.drop_zero, value]
    omega

/-- `Decimal(repr(x))` -/
theorem ofText_repr (x : Shortest) : Decimal.ofText x.repr =
    if x.Padded then ⟨x.negative, x.digits * 10 ^ (x.exponent.toNat + 1), -1⟩
    else ⟨x.negative, x.digits, x.exponent⟩ := by
  have length := x.numeral_length
  have value : readNumeral 10 x.numeral = x.digits := readNumeral_ten x.digits
  rw [repr, layout_eq, Parts.ofText_codes _ x.parts_whole]
  rw [parts]
  by_cases fixed : -4 ≤ x.adjusted ∧ x.adjusted < 16
  · by_cases whole : 0 ≤ x.exponent
    · rw [if_pos fixed, if_pos whole, if_pos (show x.Padded from ⟨fixed, whole⟩)]
      rw [Decimal.mk.injEq]
      refine ⟨rfl, ?_, rfl⟩
      have zeros : zeroDigits x.exponent.toNat ++ [zeroDigit] = zeroDigits (x.exponent.toNat + 1) :=
        List.replicate_succ'.symm
      rw [List.append_assoc, zeros, readNumeral_append, readNumeral_zeros, value, Nat.add_zero,
        zeroDigits, List.length_replicate]
    · rw [if_pos fixed, if_neg whole, if_neg (fun padded : x.Padded => whole padded.2)]
      by_cases inside : 0 ≤ x.adjusted
      · rw [if_pos inside]
        dsimp only
        rw [List.take_append_drop, value, Decimal.mk.injEq]
        refine ⟨rfl, rfl, ?_⟩
        have empty : Decimal.readSigned [] = 0 := rfl
        rw [empty, List.length_drop, adjusted]
        rw [adjusted] at inside
        omega
      · rw [if_neg inside]
        dsimp only
        have zeros : [zeroDigit] ++ (zeroDigits ((-x.adjusted).toNat - 1) ++ x.numeral) =
            zeroDigits ((-x.adjusted).toNat - 1 + 1) ++ x.numeral := rfl
        rw [zeros, readNumeral_append, readNumeral_zeros, value, Nat.zero_mul, Nat.zero_add,
          Decimal.mk.injEq]
        refine ⟨rfl, rfl, ?_⟩
        have empty : Decimal.readSigned [] = 0 := rfl
        rw [empty, List.length_append, zeroDigits, List.length_replicate, adjusted]
        rw [adjusted] at inside
        omega
  · rw [if_neg fixed, if_neg (fun padded : x.Padded => fixed padded.1)]
    dsimp only
    rw [List.take_append_drop, value, readSigned_exponent, Decimal.mk.injEq]
    refine ⟨rfl, rfl, ?_⟩
    rw [List.length_drop, adjusted]
    omega

end Shortest

namespace Decimal

def IsNegativeZero (d : Decimal) : Prop := d.negative = true ∧ d.coefficient = 0

instance (d : Decimal) : Decidable d.IsNegativeZero := inferInstanceAs (Decidable (_ ∧ _))

/-- The decimals that `Decimal(str(number))` gives: of an integer, of a float whose text ends in a
zero after the point, and of any other float. -/
inductive OfNumber : Decimal → Prop
  | int (n : Int) : OfNumber (ofInt n)
  | padded (negative : Bool) (n : Nat) : OfNumber ⟨negative, n * 10, -1⟩
  | whole (negative : Bool) (n e : Nat) (positive : 0 < n) : OfNumber ⟨negative, n, e⟩
  | fraction (negative : Bool) (n e : Nat) (normal : n % 10 ≠ 0) : OfNumber ⟨negative, n, -(e + 1)⟩

theorem ofNumber_repr (x : Shortest) : OfNumber (ofText x.repr) := by
  rw [Shortest.ofText_repr]
  obtain ⟨negative, digits, exponent, normal⟩ := x
  split
  · rw [Nat.pow_succ, ← Nat.mul_assoc]
    exact .padded negative _
  · rename_i plain
    have some_ : 0 < digits := by
      rcases normal with normal | ⟨rfl, rfl⟩
      · exact Nat.pos_of_ne_zero fun zero => normal (by rw [zero])
      · exact absurd (by cases negative <;> decide) plain
    rcases Int.lt_or_le exponent 0 with below | above
    · have shifted : exponent = -((-exponent - 1).toNat + 1 : Int) := by omega
      dsimp only
      rw [shifted]
      refine .fraction negative digits _ ?_
      rcases normal with normal | ⟨_, rfl⟩
      · exact normal
      · exact absurd below (by decide)
    · obtain ⟨e, rfl⟩ := Int.eq_ofNat_of_zero_le above
      exact .whole negative digits e some_

theorem not_dvd_of_mod {n e : Nat} (normal : n % 10 ≠ 0) : n % 10 ^ (e + 1) ≠ 0 := by
  intro zero
  have ten : 10 ∣ n := Dvd.dvd.trans (Dvd.intro_left (10 ^ e) rfl) (Nat.dvd_of_mod_eq_zero zero)
  exact normal (Nat.mod_eq_zero_of_dvd ten)

theorem ofInt_integral (n : Int) : (ofInt n).isIntegral = true := rfl

theorem toInt_ofInt (n : Int) : (ofInt n).toInt = n := by
  have whole : (ofInt n).whole = n.natAbs := by simp [Decimal.whole, ofInt]
  rw [toInt, whole]
  by_cases negative : n < 0
  · simp only [ofInt, negative, decide_true, if_true]
    omega
  · simp only [ofInt, negative, decide_false, Bool.false_eq_true, if_false]
    omega

/-- A float read back from a document is the one that was written. -/
theorem ofText_repr_ofDecimal {x : Shortest} (fractional : (ofText x.repr).isIntegral = false) :
    Shortest.ofDecimal (ofText x.repr) = x := by
  rw [Shortest.ofText_repr] at fractional ⊢
  split
  · rename_i padded
    rw [if_pos padded] at fractional
    simp [isIntegral, Nat.pow_succ, ← Nat.mul_assoc] at fractional
  · rename_i plain
    rw [if_neg plain] at fractional
    obtain ⟨negative, digits, exponent, normal⟩ := x
    have nonzero : digits % 10 ≠ 0 := by
      rcases normal with normal | ⟨rfl, rfl⟩
      · exact normal
      · simp [isIntegral] at fractional
    obtain ⟨n, rfl⟩ := Nat.exists_eq_succ_of_ne_zero
      (fun zero : digits = 0 => nonzero (by rw [zero]))
    simp [Shortest.ofDecimal, trimZeros, nonzero]

theorem magnitude_whole {d : Decimal} (integral : d.isIntegral = true) : d.magnitude = d.whole := by
  rw [magnitude, whole]
  split
  · push_cast
    rfl
  · rename_i below
    have divides : 10 ^ (-d.exponent).toNat ∣ d.coefficient := by
      simp only [isIntegral, below, decide_false, Bool.false_or, decide_eq_true_eq] at integral
      exact Nat.dvd_of_mod_eq_zero integral
    rw [Nat.cast_div divides (by positivity)]
    push_cast
    rfl

theorem value_toInt {d : Decimal} (integral : d.isIntegral = true) : d.value = d.toInt := by
  rw [value, toInt, magnitude_whole integral]
  split <;> simp

theorem value_settled (d : Decimal) : d.settled.value = d.value := by
  rw [settled]
  split
  · rename_i integral
    rw [value_toInt (ofInt_integral _), toInt_ofInt, value_toInt integral]
  · rfl

theorem dot_not_mem {codes : Codes} (digits : AllDigits codes) : dot ∉ codes := by
  intro member
  exact (digit_plain (digits dot member)).2.2.1 rfl

theorem dot_not_mem_sign (negative : Bool) : dot ∉ signCodes negative := by
  cases negative <;> decide

/-- A number with nothing but a zero after its point loses both. -/
theorem renderNumber_padded (negative : Bool) (n : Nat) :
    renderNumber ⟨negative, n * 10, -1⟩ = signCodes negative ++ renderNumeral 10 n := by
  have formatted : formatF ⟨negative, n * 10, -1⟩ =
      signCodes negative ++ renderNumeral 10 n ++ [dot, zeroDigit] := by
    rcases Nat.eq_zero_or_pos n with rfl | positive
    · cases negative <;> decide
    · have digits : renderNumeral 10 (n * 10) = renderNumeral 10 n ++ [zeroDigit] :=
        renderNumeral_shift (k := 1) positive
      have length := length_renderNumeral_pos n
      simp only [formatF, digits, List.length_append, List.length_singleton]
      have left : (-1 + ((renderNumeral 10 n).length + 1 : Nat) : Int) =
          (renderNumeral 10 n).length := by omega
      have notBelow : ¬ ((renderNumeral 10 n).length : Int) < 0 := by omega
      have notAbove : ¬ (((renderNumeral 10 n).length + 1 : Nat) : Int) <
          (renderNumeral 10 n).length := by omega
      have notZero : ¬ ((renderNumeral 10 n).length : Int) = 0 := by omega
      rw [left, if_neg notBelow, if_neg notAbove, if_neg notZero]
      simp
  have member : dot ∈ signCodes negative ++ renderNumeral 10 n ++ [dot, zeroDigit] := by simp
  have last : ∀ c ∈ renderNumeral 10 n, decide (c = dot) = false := fun c inside =>
    decide_eq_false (digit_plain (allDigits_numeral n c inside)).2.2.1
  obtain ⟨front, final, split⟩ := List.eq_nil_or_concat (renderNumeral 10 n) |>.resolve_left
    (renderNumeral_none n)
  rw [renderNumber, formatted, if_pos member]
  have trailing : signCodes negative ++ renderNumeral 10 n ++ [dot, zeroDigit] =
      (signCodes negative ++ renderNumeral 10 n ++ [dot]) ++ [zeroDigit] := by simp
  rw [trailing, List.rdropWhile_concat_pos _ _ _ (by decide),
    List.rdropWhile_concat_neg _ _ _ (by decide), List.rdropWhile_concat_pos _ _ _ (by decide), split]
  rw [List.concat_eq_append, ← List.append_assoc, List.rdropWhile_concat_neg]
  rw [last final (by rw [split]; simp)]
  decide

theorem renderNumber_whole (negative : Bool) {n e : Nat} (positive : 0 < n ∨ e = 0) :
    renderNumber ⟨negative, n, e⟩ = signCodes negative ++ renderNumeral 10 (n * 10 ^ e) := by
  have formatted : formatF ⟨negative, n, e⟩ =
      signCodes negative ++ renderNumeral 10 (n * 10 ^ e) := by
    have length := length_renderNumeral_pos n
    simp only [formatF]
    have notBelow : ¬ ((e : Int) + (renderNumeral 10 n).length) < 0 := by omega
    rw [if_neg notBelow]
    rcases Nat.eq_zero_or_pos e with rfl | shifted
    · have notAbove : ¬ ((renderNumeral 10 n).length : Int) <
          ((0 : Nat) : Int) + (renderNumeral 10 n).length := by omega
      have notZero : ¬ ((0 : Nat) : Int) + (renderNumeral 10 n).length = 0 := by omega
      rw [if_neg notAbove, if_neg notZero]
      simp
    · have above : ((renderNumeral 10 n).length : Int) < (e : Int) + (renderNumeral 10 n).length := by
        omega
      have zeros : ((e : Int) + (renderNumeral 10 n).length).toNat - (renderNumeral 10 n).length = e := by
        omega
      rw [if_pos above, zeros, renderNumeral_shift (positive.resolve_right shifted.ne')]
      simp
  have plain : dot ∉ signCodes negative ++ renderNumeral 10 (n * 10 ^ e) := by
    intro member
    rcases List.mem_append.mp member with sign | digits
    · exact dot_not_mem_sign negative sign
    · exact dot_not_mem (allDigits_numeral _) digits
  rw [renderNumber, formatted]
  exact if_neg plain

theorem renderNumber_ofInt (n : Nat) : renderNumber (ofInt n) = renderNumeral 10 n := by
  have shape : ofInt n = ⟨false, n, (0 : Nat)⟩ := by simp [ofInt]
  rw [shape, renderNumber_whole false (.inr rfl), Nat.pow_zero, Nat.mul_one]
  rfl

theorem integral_padded (negative : Bool) (n : Nat) :
    isIntegral ⟨negative, n * 10, -1⟩ = true := by
  simp [isIntegral]

theorem toInt_padded (negative : Bool) (n : Nat) :
    toInt ⟨negative, n * 10, -1⟩ = if negative then -(n : Int) else n := by
  simp [toInt, whole]

/-- Writing a number to a document and reading it back changes its text only if it is a negative
zero. -/
theorem renderNumber_settled {d : Decimal} (number : OfNumber d) (positive : 0 ≤ d.value) :
    renderNumber d.settled = renderNumber d ↔ ¬ d.IsNegativeZero := by
  cases number with
  | int n =>
    rw [settled, if_pos (ofInt_integral n), toInt_ofInt]
    simp only [true_iff]
    rintro ⟨negative, zero⟩
    simp only [ofInt, decide_eq_true_eq] at negative zero
    omega
  | padded negative n =>
    rw [settled, if_pos (integral_padded negative n), toInt_padded, renderNumber_padded]
    rw [value_toInt (integral_padded negative n), toInt_padded] at positive
    cases negative with
    | false =>
      rw [if_neg (by decide), renderNumber_ofInt]
      simp [IsNegativeZero, signCodes]
    | true =>
      have zero : n = 0 := by
        rw [if_pos rfl] at positive
        have : (0 : Int) ≤ -(n : Int) := by exact_mod_cast positive
        omega
      subst zero
      decide
  | whole negative n e some_ =>
    have integral : isIntegral ⟨negative, n, e⟩ = true := by simp [isIntegral]
    have plain : negative = false := by
      rw [value_toInt integral] at positive
      cases negative with
      | false => rfl
      | true =>
        have : (0 : Int) < ((n * 10 ^ e : Nat) : Int) := by positivity
        simp only [toInt, whole, if_true, Int.natCast_nonneg, Int.toNat_natCast] at positive
        have : (0 : Int) ≤ -((n * 10 ^ e : Nat) : Int) := by exact_mod_cast positive
        omega
    subst plain
    have value : toInt ⟨false, n, e⟩ = ((n * 10 ^ e : Nat) : Int) := by simp [toInt, whole]
    rw [settled, if_pos integral, value, renderNumber_ofInt, renderNumber_whole false (.inl some_)]
    simp [IsNegativeZero, signCodes]
  | fraction negative n e normal =>
    have fractional : isIntegral ⟨negative, n, -(e + 1)⟩ = false := by
      have power := not_dvd_of_mod (e := e) normal
      have size : (-(-((e : Int) + 1))).toNat = e + 1 := by omega
      have below : ¬ (0 : Int) ≤ -((e : Int) + 1) := by omega
      simp only [isIntegral, below, size, power, decide_false, Bool.or_self]
    rw [settled, if_neg (Bool.eq_false_iff.mp fractional)]
    simp only [true_iff]
    rintro ⟨_, zero⟩
    exact normal (by simp_all)

end Decimal
namespace Shortest

theorem shift_le {a b k m : Nat} (order : k ≤ m) (normal : a % 10 ≠ 0 ∨ a = 0 ∧ k = 0)
    (other : b % 10 ≠ 0 ∨ b = 0 ∧ m = 0) (same : a * 10 ^ k = b * 10 ^ m) : a = b ∧ k = m := by
  obtain ⟨d, rfl⟩ := Nat.exists_eq_add_of_le order
  have power : 0 < 10 ^ k := Nat.pow_pos (by decide)
  have shifted : a = b * 10 ^ d := by
    rw [Nat.pow_add, Nat.mul_comm (10 ^ k), ← Nat.mul_assoc] at same
    exact Nat.eq_of_mul_eq_mul_right power same
  rcases Nat.eq_zero_or_pos d with rfl | positive
  · exact ⟨by simpa using shifted, rfl⟩
  · have ten : a % 10 = 0 := by
      apply Nat.mod_eq_zero_of_dvd
      rw [shifted]
      exact (dvd_pow_self 10 positive.ne').mul_left b
    obtain ⟨rfl, rfl⟩ := normal.resolve_left (fun nonzero => nonzero ten)
    have zero : b = 0 := by
      rcases Nat.mul_eq_zero.mp shifted.symm with zero | impossible
      · exact zero
      · exact absurd impossible (Nat.pow_pos (by decide)).ne'
    rcases other with other | ⟨_, none⟩
    · exact absurd (by rw [zero]) other
    · omega

theorem shift_injective {a b k m : Nat} (normal : a % 10 ≠ 0 ∨ a = 0 ∧ k = 0)
    (other : b % 10 ≠ 0 ∨ b = 0 ∧ m = 0) (same : a * 10 ^ k = b * 10 ^ m) : a = b ∧ k = m := by
  rcases Nat.le_total k m with order | order
  · exact shift_le order normal other same
  · obtain ⟨digits, power⟩ := shift_le order other normal same.symm
    exact ⟨digits.symm, power.symm⟩

theorem padded_zero {x : Shortest} (zero : x.digits = 0) : x.Padded := by
  obtain ⟨negative, digits, exponent, normal⟩ := x
  obtain rfl : digits = 0 := zero
  obtain ⟨-, rfl⟩ := normal.resolve_left (by decide)
  have first : adjusted ⟨negative, 0, 0, normal⟩ = 0 := rfl
  rw [Padded, first]
  exact ⟨by decide, le_rfl⟩

/-- The text of a float determines it. -/
theorem repr_injective {x y : Shortest} (same : x.repr = y.repr) : x = y := by
  have read := congrArg Decimal.ofText same
  rw [ofText_repr, ofText_repr] at read
  obtain ⟨s, a, k, normal⟩ := x
  obtain ⟨t, b, m, other⟩ := y
  by_cases left : (mk s a k normal).Padded <;> by_cases right : (mk t b m other).Padded
  · rw [if_pos left, if_pos right, Decimal.mk.injEq] at read
    obtain ⟨rfl, digits, -⟩ := read
    obtain ⟨k, rfl⟩ := Int.eq_ofNat_of_zero_le left.2
    obtain ⟨m, rfl⟩ := Int.eq_ofNat_of_zero_le right.2
    have equal : a * 10 ^ k = b * 10 ^ m := by
      simp only [Int.toNat_natCast, Nat.pow_succ, ← Nat.mul_assoc] at digits
      exact Nat.eq_of_mul_eq_mul_right (by decide) digits
    obtain ⟨rfl, rfl⟩ := shift_injective (normal.imp id fun ⟨zero, e⟩ => ⟨zero, by omega⟩)
      (other.imp id fun ⟨zero, e⟩ => ⟨zero, by omega⟩) equal
    rfl
  · rw [if_pos left, if_neg right, Decimal.mk.injEq] at read
    obtain ⟨rfl, rfl, rfl⟩ := read
    rcases other with other | ⟨zero, _⟩
    · exact absurd (by simp [Nat.pow_succ, ← Nat.mul_assoc]) other
    · exact absurd (padded_zero zero) right
  · rw [if_neg left, if_pos right, Decimal.mk.injEq] at read
    obtain ⟨-, digits, -⟩ := read
    rcases normal with normal | ⟨zero, _⟩
    · dsimp only at digits
      exact absurd (by rw [digits, Nat.pow_succ, ← Nat.mul_assoc, Nat.mul_mod_left]) normal
    · exact absurd (padded_zero zero) left
  · rw [if_neg left, if_neg right, Decimal.mk.injEq] at read
    obtain ⟨rfl, rfl, rfl⟩ := read
    rfl

end Shortest
end Sippycup.Python
