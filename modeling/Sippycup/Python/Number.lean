import Mathlib.Data.Rat.Floor
import Sippycup.Python.Text

/-! Python numbers. An `int` is exact. A `float` is a binary64 value, held by
its exact rational value; every operation that involves one rounds to nearest,
ties to even. Comparison of an `int` with a `float` is exact, as in Python.
The sign of a zero is not kept: no comparison or sum depends on it. -/
namespace Sippycup.Python

inductive Double where
  | finite (value : Rat)
  | infinite (negative : Bool)
  | nan
  deriving DecidableEq, Inhabited

/-- Nearest integer to `n / d`, ties to even. -/
def roundHalfEven (n d : Nat) : Nat :=
  let floor := n / d
  let twice := 2 * (n % d)
  if twice < d then floor
  else if d < twice then floor + 1
  else if floor % 2 = 0 then floor else floor + 1

/-- Exponent `e` with `2 ^ e ≤ n / d < 2 ^ (e + 1)`. -/
def binaryExponent (n d : Nat) : Int :=
  let guess : Int := (n.log2 : Int) - d.log2
  let below := if 0 ≤ guess then n < d * 2 ^ guess.toNat else n * 2 ^ (-guess).toNat < d
  if below then guess - 1 else guess

/-- The binary64 value nearest to a rational: 53 significant bits, a least
exponent of -1074, and infinity past the largest finite value. -/
def roundDouble (q : Rat) : Double :=
  let n := q.num.natAbs
  if n = 0 then .finite 0 else
  let unit := max (binaryExponent n q.den - 52) (-1074)
  let units := if 0 ≤ unit then roundHalfEven n (q.den * 2 ^ unit.toNat)
    else roundHalfEven (n * 2 ^ (-unit).toNat) q.den
  let magnitude : Rat := if 0 ≤ unit then units * 2 ^ unit.toNat else units / 2 ^ (-unit).toNat
  if (2 : Rat) ^ 1024 ≤ magnitude then .infinite (decide (q < 0))
  else .finite (if q < 0 then -magnitude else magnitude)

def Double.neg : Double → Double
  | .finite a => .finite (-a)
  | .infinite s => .infinite (!s)
  | .nan => .nan

def Double.add : Double → Double → Double
  | .finite a, .finite b => roundDouble (a + b)
  | .nan, _ | _, .nan => .nan
  | .infinite s, .infinite t => if s = t then .infinite s else .nan
  | .infinite s, .finite _ | .finite _, .infinite s => .infinite s

inductive Number where
  | int (value : Int)
  | float (value : Double)
  deriving DecidableEq, Inhabited

namespace Number

/-- Conversion for mixed arithmetic; `none` is Python's `OverflowError`. -/
def toDouble? : Number → Option Double
  | .int n => match roundDouble n with
    | .infinite _ => none
    | d => some d
  | .float d => some d

/-- Extended value used by exact comparison; `none` is not-a-number. -/
def exact : Number → Option (Rat ⊕ Bool)
  | .int n => some (.inl n)
  | .float (.finite q) => some (.inl q)
  | .float (.infinite s) => some (.inr s)
  | .float .nan => none

def eq (a b : Number) : Bool :=
  match a, b with
  | .int m, .int n => decide (m = n)
  | a, b => match a.exact, b.exact with
    | some x, some y => decide (x = y)
    | _, _ => false

def lt (a b : Number) : Bool :=
  match a, b with
  | .int m, .int n => decide (m < n)
  | a, b => match a.exact, b.exact with
    | some (.inl x), some (.inl y) => decide (x < y)
    | some (.inl _), some (.inr s) => !s
    | some (.inr s), some (.inl _) => s
    | some (.inr s), some (.inr t) => s && !t
    | _, _ => false

def le (a b : Number) : Bool := a.lt b || a.eq b

def add? : Number → Number → Option Number
  | .int m, .int n => some (.int (m + n))
  | a, b => do return .float (Double.add (← a.toDouble?) (← b.toDouble?))

def sub? : Number → Number → Option Number
  | .int m, .int n => some (.int (m - n))
  | a, b => do return .float (Double.add (← a.toDouble?) (← b.toDouble?).neg)

@[simp] theorem eq_int (m n : Int) : (int m).eq (int n) = decide (m = n) := by
  rfl

@[simp] theorem lt_int (m n : Int) : (int m).lt (int n) = decide (m < n) := rfl

@[simp] theorem le_int (m n : Int) : (int m).le (int n) = decide (m ≤ n) := by
  rw [le, lt_int, eq_int, ← Bool.decide_or]
  exact decide_eq_decide.mpr Int.le_iff_lt_or_eq.symm

@[simp] theorem add?_int (m n : Int) : (int m).add? (int n) = some (.int (m + n)) := rfl

@[simp] theorem sub?_int (m n : Int) : (int m).sub? (int n) = some (.int (m - n)) := rfl

/-- A float equal to an integer holds exactly that integer. -/
theorem eq_int_float (m : Int) (d : Double) : (int m).eq (.float d) = true ↔ d = .finite m := by
  cases d with
  | finite q =>
    simp only [eq, exact, decide_eq_true_eq, Sum.inl.injEq, Double.finite.injEq]
    exact eq_comm
  | infinite s => simp only [eq, exact, decide_eq_true_eq, reduceCtorEq]
  | nan => simp only [eq, exact, Bool.false_eq_true, reduceCtorEq]

end Number

end Sippycup.Python
