import Mathlib.Tactic.Positivity
import Mathlib.Data.Nat.Log
import Sippycup.Python.Number
import Mathlib.Algebra.Order.Field.Power

/-! How far binary64 arithmetic on naturals can be trusted: exact below
`2 ^ 53`, and never back below it from above. -/
namespace Sippycup.Python

def exactLimit : Nat := 2 ^ 53

theorem binaryExponent_nat {n : Nat} (positive : 0 < n) : binaryExponent n 1 = n.log2 := by
  have one : Nat.log2 1 = 0 := by decide
  have lower := Nat.not_lt.2 (Nat.log2_self_le positive.ne')
  simp [binaryExponent, one, lower]

theorem roundHalfEven_one (n : Nat) : roundHalfEven n 1 = n := by
  simp [roundHalfEven, Nat.mod_one]

theorem div_le_roundHalfEven (n d : Nat) : n / d ≤ roundHalfEven n d := by
  unfold roundHalfEven
  dsimp only
  split
  · exact le_rfl
  · split
    · exact Nat.le_succ _
    · split
      · exact le_rfl
      · exact Nat.le_succ _

theorem roundDouble_small {n : Nat} (small : n < exactLimit) :
    roundDouble n = .finite n := by
  rcases Nat.eq_zero_or_pos n with rfl | positive
  · rfl
  · have bits : n.log2 < 53 := (Nat.log2_lt positive.ne').mpr small
    unfold roundDouble
    simp only [Rat.num_natCast, Rat.den_natCast, Int.natAbs_natCast, positive.ne', if_false,
      binaryExponent_nat positive]
    obtain ⟨k, unit⟩ : ∃ k : Nat, max ((n.log2 : Int) - 52) (-1074) = -(k : Int) :=
      ⟨(-(max ((n.log2 : Int) - 52) (-1074))).toNat, by omega⟩
    rw [unit]
    have bound : ¬ (2 : Rat) ^ 1024 ≤ n := by
      have below : (n : Rat) < 2 ^ 53 := by exact_mod_cast small
      have range : (2 : Rat) ^ 53 ≤ 2 ^ 1024 := pow_le_pow_right₀ (by norm_num) (by norm_num)
      exact not_le.mpr (lt_of_lt_of_le below range)
    have sign : ¬ (n : Rat) < 0 := by simp
    rcases Nat.eq_zero_or_pos k with rfl | shifted
    · simp [roundHalfEven_one, bound, sign]
    · have exact : ((n * 2 ^ k : Nat) : Rat) / 2 ^ k = n := by
        rw [Nat.cast_mul, Nat.cast_pow, Nat.cast_ofNat]
        exact mul_div_cancel_right₀ _ (by positivity)
      rw [Nat.cast_mul, Nat.cast_pow, Nat.cast_ofNat] at exact
      simp [shifted.ne', roundHalfEven_one, exact, bound, sign]

/-- `d` holds the natural `n`: exactly, or both are at or past the limit. -/
def Double.Holds (d : Double) (n : Nat) : Prop :=
  d = .finite n ∨
    exactLimit ≤ n ∧ (d = .infinite false ∨ ∃ m : Nat, exactLimit ≤ m ∧ d = .finite m)

/-- Rounding a natural gives a natural, and keeps it at or above the limit. -/
theorem roundDouble_holds (n : Nat) : (roundDouble n).Holds n := by
  rcases Nat.lt_or_ge n exactLimit with small | large
  · exact .inl (roundDouble_small small)
  refine .inr ⟨large, ?_⟩
  have positive : 0 < n := lt_of_lt_of_le (by decide) large
  have bits : 53 ≤ n.log2 := (Nat.le_log2 positive.ne').mpr large
  unfold roundDouble
  simp only [Rat.num_natCast, Rat.den_natCast, Int.natAbs_natCast, positive.ne', if_false,
    binaryExponent_nat positive]
  obtain ⟨k, unit⟩ : ∃ k : Nat, n.log2 = k + 52 := ⟨n.log2 - 52, by omega⟩
  have exponent : max ((n.log2 : Int) - 52) (-1074) = (k : Int) := by omega
  have sign : ¬ (n : Rat) < 0 := by simp
  rw [exponent]
  simp only [Int.natCast_nonneg, if_true, Int.toNat_natCast, Nat.one_mul, sign, decide_false,
    if_false]
  split
  · exact .inl rfl
  · refine .inr ⟨roundHalfEven n (2 ^ k) * 2 ^ k, ?_, by push_cast; rfl⟩
    have whole : 2 ^ 52 ≤ n / 2 ^ k := by
      rw [Nat.le_div_iff_mul_le (by positivity), ← pow_add, Nat.add_comm, ← unit]
      exact Nat.log2_self_le positive.ne'
    have shifted : 2 ≤ 2 ^ k := by
      calc 2 = 2 ^ 1 := rfl
        _ ≤ 2 ^ k := Nat.pow_le_pow_right (by decide) (by omega)
    calc exactLimit = 2 ^ 52 * 2 := rfl
      _ ≤ roundHalfEven n (2 ^ k) * 2 ^ k :=
        Nat.mul_le_mul (whole.trans (div_le_roundHalfEven n _)) shifted

theorem Double.Holds.add {d e : Double} {m n : Nat} (left : d.Holds m) (right : e.Holds n) :
    (d.add e).Holds (m + n) := by
  have sum (p q : Nat) : (Double.add (.finite p) (.finite q)).Holds (p + q) := by
    have exact := roundDouble_holds (p + q)
    rwa [Nat.cast_add] at exact
  -- once one side is past the limit, so is the sum
  have beyond {p q : Nat} (large : exactLimit ≤ m + n) (also : exactLimit ≤ p + q) :
      (Double.add (.finite p) (.finite q)).Holds (m + n) := by
    rcases sum p q with exact | ⟨_, rest⟩
    · exact .inr ⟨large, .inr ⟨p + q, also, exact⟩⟩
    · exact .inr ⟨large, rest⟩
  rcases left with rfl | ⟨largeM, rfl | ⟨p, largeP, rfl⟩⟩ <;>
    rcases right with rfl | ⟨largeN, rfl | ⟨q, largeQ, rfl⟩⟩
  · exact sum m n
  · exact .inr ⟨by omega, .inl rfl⟩
  · exact beyond (by omega) (by omega)
  · exact .inr ⟨by omega, .inl rfl⟩
  · exact .inr ⟨by omega, .inl rfl⟩
  · exact .inr ⟨by omega, .inl rfl⟩
  · exact beyond (by omega) (by omega)
  · exact .inr ⟨by omega, .inl rfl⟩
  · exact beyond (by omega) (by omega)

namespace Number

theorem lt_exact {a b : Number} {x y : Rat} (left : a.exact = some (.inl x))
    (right : b.exact = some (.inl y)) : a.lt b = decide (x < y) := by
  cases a <;> cases b <;> simp_all [lt, exact]
  all_goals
    obtain rfl := left
    obtain rfl := right
    simp

theorem eq_exact {a b : Number} {x y : Rat} (left : a.exact = some (.inl x))
    (right : b.exact = some (.inl y)) : a.eq b = decide (x = y) := by
  cases a <;> cases b <;> simp_all [eq, exact]
  all_goals
    obtain rfl := left
    obtain rfl := right
    simp

@[simp] theorem exact_int (n : Nat) : (Number.int n).exact = some (.inl (n : Rat)) := by
  simp [exact]

/-- `a` counts `n`: it is the integer `n`, or a float that holds it. -/
def Counts (floats : Bool) (a : Number) (n : Nat) : Prop :=
  a = .int n ∨ floats = true ∧ ∃ d : Double, a = .float d ∧ d.Holds n

variable {floats : Bool} {a b c : Number} {m n : Nat}

theorem counts_int (n : Nat) : (Number.int n).Counts floats n := .inl rfl

theorem Counts.exact_of_small (counts : a.Counts floats n) (small : floats = true → n < exactLimit) :
    a.exact = some (.inl (n : Rat)) := by
  rcases counts with rfl | ⟨used, d, rfl, rfl | ⟨large, _⟩⟩
  · exact exact_int n
  · rfl
  · exact absurd (small used) (Nat.not_lt.2 large)

/-- `a == n` -/
def Is (a : Number) (n : Nat) : Prop := (Number.int n).eq a = true

theorem Counts.is (counts : a.Counts floats n) (small : floats = true → n < exactLimit) :
    a.Is n := by
  simp [Is, eq_exact (exact_int n) (counts.exact_of_small small)]

theorem Counts.not_lt {bound : Nat} (counts : a.Counts floats n) (within : n ≤ bound)
    (small : floats = true → n < exactLimit) : (Number.int bound).lt a = false := by
  rw [lt_exact (exact_int bound) (counts.exact_of_small small)]
  simpa using within

/-- A bound below the limit is compared correctly. -/
theorem Counts.lt_iff (counts : a.Counts floats n) {bound : Nat}
    (small : floats = true → bound < exactLimit) :
    (Number.int bound).lt a = decide (bound < n) := by
  rcases counts with rfl | ⟨used, d, rfl, rfl | ⟨large, rfl | ⟨m, also, rfl⟩⟩⟩
  · simp
  · simp [lt_exact (exact_int bound) (b := .float (.finite n)) rfl]
  · have below := small used
    have bigger : bound < n := by omega
    simp [lt, exact, bigger]
  · have below := small used
    have bigger : bound < n := by omega
    have bigger' : bound < m := by omega
    simp [lt_exact (exact_int bound) (b := .float (.finite m)) rfl, bigger, bigger']

theorem Counts.toDouble (counts : a.Counts floats n) {d : Double} (converted : a.toDouble? = some d) :
    d.Holds n := by
  rcases counts with rfl | ⟨_, e, rfl, holds⟩
  · have rounded := roundDouble_holds n
    simp only [toDouble?, Int.cast_natCast] at converted
    split at converted
    · cases converted
    · cases converted
      exact rounded
  · cases converted
    exact holds

theorem Counts.add (left : a.Counts floats m) (right : b.Counts floats n)
    (sum : a.add? b = some c) : c.Counts floats (m + n) := by
  have mixed (used : floats = true)
      (sum : (do return Number.float (Double.add (← a.toDouble?) (← b.toDouble?))) = some c) :
      c.Counts floats (m + n) := by
    cases first : a.toDouble? with
    | none => simp [first] at sum
    | some d =>
      cases second : b.toDouble? with
      | none => simp [first, second] at sum
      | some e =>
        simp only [first, second, bind, Option.bind, pure, Option.some.injEq] at sum
        exact .inr ⟨used, _, sum.symm, (left.toDouble first).add (right.toDouble second)⟩
  rcases left with rfl | ⟨used, d, rfl, _⟩
  · rcases right with rfl | ⟨used, e, rfl, _⟩
    · cases sum
      exact .inl (by push_cast; rfl)
    · exact mixed used sum
  · exact mixed used sum

theorem toDouble?_small (counts : a.Counts floats n) (small : n < exactLimit) :
    a.toDouble? = some (.finite n) := by
  rcases counts with rfl | ⟨_, d, rfl, rfl | ⟨large, _⟩⟩
  · simp [toDouble?, roundDouble_small small]
  · rfl
  · omega

/-- Sums that stay below the limit do not raise. -/
theorem Counts.add_some (left : a.Counts floats m) (right : b.Counts floats n)
    (small : floats = true → m + n < exactLimit) : ∃ c, a.add? b = some c := by
  have mixed (used : floats = true) :
      ∃ c, (do return Number.float (Double.add (← a.toDouble?) (← b.toDouble?))) = some c := by
    have sum := small used
    rw [toDouble?_small left (by omega), toDouble?_small right (by omega)]
    exact ⟨_, rfl⟩
  rcases left with rfl | ⟨used, d, rfl, _⟩
  · rcases right with rfl | ⟨used, e, rfl, _⟩
    · exact ⟨_, rfl⟩
    · exact mixed used
  · exact mixed used

end Number
end Sippycup.Python

/-! How little rounding to binary64 can take away: a positive rational that is not
subnormal keeps all but a `2 ^ -53` part of itself. -/
namespace Sippycup.Python

/-- The nearest integer is at most half a unit below. -/
theorem roundHalfEven_ge {d : Nat} (n : Nat) (positive : 0 < d) : 2 * n ≤ (2 * roundHalfEven n d + 1) * d := by
  have split := Nat.div_add_mod n d
  have small := Nat.mod_lt n positive
  unfold roundHalfEven
  dsimp only
  generalize n / d = f at split ⊢
  generalize n % d = r at split small ⊢
  subst split
  split
  · nlinarith
  · split
    · nlinarith
    · split <;> nlinarith

theorem binaryExponent_le {n d : Nat} (numerator : 0 < n) (denominator : 0 < d) :
    (2 : Rat) ^ binaryExponent n d ≤ n / d := by
  have over_ : (0 : Rat) < d := by exact_mod_cast denominator
  have low : 2 ^ n.log2 ≤ n := Nat.log2_self_le numerator.ne'
  have high : d < 2 ^ (d.log2 + 1) := Nat.lt_log2_self
  have two : (2 : Rat) ≠ 0 := two_ne_zero
  -- the guess is at most one too large
  have guess : (2 : Rat) ^ ((n.log2 : Int) - d.log2 - 1) ≤ n / d := by
    rw [le_div_iff₀ over_]
    have bits : (d : Rat) ≤ 2 ^ (d.log2 + 1) := by exact_mod_cast high.le
    have powers : (2 : Rat) ^ ((n.log2 : Int) - d.log2 - 1) * 2 ^ (d.log2 + 1) = 2 ^ n.log2 := by
      rw [← zpow_natCast, ← zpow_natCast, ← zpow_add₀ two]
      congr 1
      push_cast
      ring
    have least : ((2 ^ n.log2 : Nat) : Rat) ≤ n := by exact_mod_cast low
    push_cast at least
    calc (2 : Rat) ^ ((n.log2 : Int) - d.log2 - 1) * d
        ≤ 2 ^ ((n.log2 : Int) - d.log2 - 1) * 2 ^ (d.log2 + 1) :=
          mul_le_mul_of_nonneg_left bits (zpow_pos two_pos _).le
      _ ≤ n := by rw [powers]; exact least
  unfold binaryExponent
  dsimp only
  generalize (n.log2 : Int) - d.log2 = g at guess ⊢
  by_cases sign : 0 ≤ g
  · simp only [if_pos sign]
    split
    · exact guess
    rename_i below
    obtain ⟨k, rfl⟩ := Int.eq_ofNat_of_zero_le sign
    have exact_ : ((d * 2 ^ k : Nat) : Rat) ≤ n := by exact_mod_cast not_lt.1 below
    push_cast at exact_
    rw [zpow_natCast, le_div_iff₀ over_]
    linarith
  · simp only [if_neg sign]
    split
    · exact guess
    rename_i below
    obtain ⟨k, same⟩ := Int.eq_ofNat_of_zero_le (show 0 ≤ -g by omega)
    rw [same, Int.toNat_natCast] at below
    have exact_ : (d : Rat) ≤ ((n * 2 ^ k : Nat) : Rat) := by exact_mod_cast not_lt.1 below
    push_cast at exact_
    rw [show g = -(k : Int) by omega, zpow_neg, zpow_natCast, le_div_iff₀ over_,
      inv_mul_le_iff₀ (by positivity)]
    linarith

/-- A number of units, rounded, is at most half a unit below. -/
theorem units_ge {q unit : Rat} {units : Nat} (near : 2 * q ≤ (2 * units + 1) * unit)
    (fine : unit ≤ q / 2 ^ 52) : q * (1 - 1 / 2 ^ 53) ≤ units * unit := by
  have half : q / 2 ^ 53 = q / 2 ^ 52 / 2 := by ring
  have kept : q * (1 - 1 / 2 ^ 53) = q - q / 2 ^ 53 := by ring
  rw [kept, half]
  linarith

theorem roundDouble_ge {q : Rat} (normal : (2 : Rat) ^ (-1022 : Int) ≤ q) :
    roundDouble q = .infinite false ∨ ∃ m, roundDouble q = .finite m ∧ q * (1 - 1 / 2 ^ 53) ≤ m := by
  have positive : 0 < q := (zpow_pos two_pos _).trans_le normal
  have signed : 0 < q.num := Rat.num_pos.mpr positive
  have numerator : 0 < q.num.natAbs := Int.natAbs_pos.mpr signed.ne'
  have ratio : (q.num.natAbs : Rat) / q.den = q := by
    have whole : ((q.num.natAbs : Int) : Rat) = q.num := by
      rw [Int.natAbs_of_nonneg signed.le]
    rw [Int.cast_natCast] at whole
    rw [whole, Rat.num_div_den]
  have denominator : (0 : Rat) < q.den := by exact_mod_cast q.den_pos
  have numeral : (q.num.natAbs : Rat) = q * q.den := (div_eq_iff denominator.ne').mp ratio
  have exponent := binaryExponent_le numerator q.den_pos
  rw [ratio] at exponent
  unfold roundDouble
  rw [if_neg numerator.ne']
  simp only [if_neg (not_lt.2 positive.le), decide_eq_false (not_lt.2 positive.le)]
  have fine : (2 : Rat) ^ max (binaryExponent q.num.natAbs q.den - 52) (-1074) ≤ q / 2 ^ 52 := by
    rw [le_div_iff₀ (by positivity), ← zpow_natCast, ← zpow_add₀ two_ne_zero]
    rcases max_choice (binaryExponent q.num.natAbs q.den - 52) (-1074) with same | same
    · rw [same, Nat.cast_ofNat, sub_add_cancel]
      exact exponent
    · rw [same]
      exact normal
  generalize max (binaryExponent q.num.natAbs q.den - 52) (-1074) = unit at fine ⊢
  by_cases sign : 0 ≤ unit
  · simp only [if_pos sign]
    obtain ⟨k, rfl⟩ := Int.eq_ofNat_of_zero_le sign
    rw [zpow_natCast] at fine
    split
    · exact .inl rfl
    refine .inr ⟨_, rfl, units_ge ?_ fine⟩
    have near := roundHalfEven_ge q.num.natAbs (Nat.mul_pos q.den_pos (Nat.two_pow_pos k))
    have near_ : (2 : Rat) * q.num.natAbs ≤
        (2 * roundHalfEven q.num.natAbs (q.den * 2 ^ k) + 1) * (q.den * 2 ^ k) := by exact_mod_cast near
    rw [numeral] at near_
    refine le_of_mul_le_mul_right ?_ denominator
    calc 2 * q * q.den = 2 * (q * q.den) := by ring
      _ ≤ _ := near_
      _ = _ := by rw [Int.toNat_natCast]; ring
  · simp only [if_neg sign]
    obtain ⟨k, same⟩ := Int.eq_ofNat_of_zero_le (show 0 ≤ -unit by omega)
    have negative : unit = -(k : Int) := by omega
    rw [negative, zpow_neg, zpow_natCast] at fine
    rw [same, Int.toNat_natCast, div_eq_mul_inv]
    split
    · exact .inl rfl
    refine .inr ⟨_, rfl, units_ge ?_ fine⟩
    have near := roundHalfEven_ge (q.num.natAbs * 2 ^ k) q.den_pos
    have near_ : (2 : Rat) * (q.num.natAbs * 2 ^ k) ≤
        (2 * roundHalfEven (q.num.natAbs * 2 ^ k) q.den + 1) * q.den := by exact_mod_cast near
    rw [numeral] at near_
    have scale : (0 : Rat) < 2 ^ k := by positivity
    rw [← div_eq_mul_inv, le_div_iff₀ scale]
    refine le_of_mul_le_mul_right ?_ denominator
    calc 2 * q * 2 ^ k * q.den = 2 * (q * q.den * 2 ^ k) := by ring
      _ ≤ _ := near_

/-- Rounded seconds are past a limit of whole seconds when the milliseconds are. -/
theorem seconds_exceed {limit milliseconds : Nat} (moderate : limit ≤ 2 ^ 40)
    (past : 1000 * limit < milliseconds) :
    (Number.int limit).lt (.float (roundDouble ((milliseconds : Rat) / 1000))) = true := by
  have apart : (limit : Rat) + 1 / 1000 ≤ milliseconds / 1000 := by
    have whole : (1000 * limit + 1 : Nat) ≤ milliseconds := past
    have cast : ((1000 * limit + 1 : Nat) : Rat) ≤ milliseconds := by exact_mod_cast whole
    push_cast at cast
    linarith
  have small : (limit : Rat) ≤ ((2 ^ 40 : Nat) : Rat) := by exact_mod_cast moderate
  have least : (0 : Rat) ≤ limit := Nat.cast_nonneg limit
  have normal : (2 : Rat) ^ (-1022 : Int) ≤ milliseconds / 1000 := by
    have tiny : (2 : Rat) ^ (-1022 : Int) ≤ 1 / 1000 := by
      have ten : (1000 : Rat) ≤ 2 ^ 1022 :=
        (show (1000 : Rat) ≤ 2 ^ 10 by norm_num).trans (pow_le_pow_right₀ one_le_two (by norm_num))
      rw [zpow_neg, ← one_div]
      exact one_div_le_one_div_of_le (by norm_num) ten
    linarith
  rcases roundDouble_ge normal with infinite | ⟨m, finite, kept⟩
  · rw [infinite]
    rfl
  · rw [finite]
    have margin : ((limit : Rat) + 1 / 1000) * (1 - 1 / 2 ^ 53) ≤ milliseconds / 1000 * (1 - 1 / 2 ^ 53) :=
      mul_le_mul_of_nonneg_right apart (by norm_num)
    have more : (limit : Rat) < ((limit : Rat) + 1 / 1000) * (1 - 1 / 2 ^ 53) := by
      have expanded : ((limit : Rat) + 1 / 1000) * (1 - 1 / 2 ^ 53) =
          limit + (1 / 1000 - (limit + 1 / 1000) / 2 ^ 53) := by ring
      rw [expanded]
      have lost : ((limit : Rat) + 1 / 1000) / 2 ^ 53 < 1 / 1000 := by
        rw [div_lt_iff₀ (by positivity)]
        push_cast at small
        linarith
      linarith
    rw [Number.lt_exact (Number.exact_int limit) rfl]
    exact decide_eq_true (more.trans_le (margin.trans kept))

end Sippycup.Python
