import Sippycup.Ip.RoundTrip
import Mathlib.Data.Int.Log

/-! Floats as text and as exact decimals. A float is held by the decimal that
its `repr` shows, which reads back as the same float: every rule that judges or
renders one goes through that text. The sign of a zero is kept. -/
namespace Sippycup.Python
open Sippycup.Ip

def minus : Nat := 45
def plus : Nat := 43
def exponentMark : Nat := 101

def zeroDigits (n : Nat) : Codes := List.replicate n zeroDigit

/-- A finite float, as `digits * 10 ^ exponent` with no trailing zero. -/
structure Shortest where
  negative : Bool
  digits : Nat
  exponent : Int
  normal : digits % 10 ≠ 0 ∨ digits = 0 ∧ exponent = 0
  deriving DecidableEq

inductive PyFloat where
  | finite (x : Shortest)
  | infinite (negative : Bool)
  | nan
  deriving DecidableEq

def signCodes (negative : Bool) : Codes := if negative then [minus] else []

/-- One digit before the point; no point when it is the only one. -/
def pointed (ds : Codes) : Codes :=
  if ds.length ≤ 1 then ds else ds.take 1 ++ dot :: ds.drop 1

namespace Shortest

def numeral (x : Shortest) : Codes := renderNumeral 10 x.digits

/-- Exponent of the first digit. -/
def adjusted (x : Shortest) : Int := x.exponent + x.numeral.length - 1

/-- Fixed notation for exponents from -4 to 15, otherwise scientific notation
with at least two digits in its exponent. -/
def layout (x : Shortest) : Codes :=
  let ds := x.numeral
  if -4 ≤ x.adjusted ∧ x.adjusted < 16 then
    if 0 ≤ x.exponent then ds ++ zeroDigits x.exponent.toNat ++ [dot, zeroDigit]
    else if 0 ≤ x.adjusted then
      ds.take (x.adjusted.toNat + 1) ++ dot :: ds.drop (x.adjusted.toNat + 1)
    else [zeroDigit, dot] ++ zeroDigits ((-x.adjusted).toNat - 1) ++ ds
  else
    let size := renderNumeral 10 x.adjusted.natAbs
    pointed ds ++ [exponentMark, if x.adjusted < 0 then minus else plus] ++
      zeroDigits (2 - size.length) ++ size

/-- `repr(x)` -/
def repr (x : Shortest) : Codes := signCodes x.negative ++ x.layout

end Shortest

/-- `decimal.Decimal` of a finite number. -/
structure Decimal where
  negative : Bool
  coefficient : Nat
  exponent : Int
  deriving DecidableEq, Inhabited

namespace Decimal

def readSigned (codes : Codes) : Int :=
  if codes.head? = some minus then -(readNumeral 10 (codes.drop 1) : Int)
  else if codes.head? = some plus then readNumeral 10 (codes.drop 1)
  else readNumeral 10 codes

/-- `Decimal(text)` of the text of a finite number: a sign, digits with at most
one point among them, and an exponent. -/
def ofText (codes : Codes) : Decimal :=
  let unsigned := if codes.head? = some minus then codes.drop 1 else codes
  let mantissa := unsigned.takeWhile (· ≠ exponentMark)
  let whole := mantissa.takeWhile (· ≠ dot)
  let fraction := (mantissa.dropWhile (· ≠ dot)).drop 1
  { negative := codes.head? = some minus
    coefficient := readNumeral 10 (whole ++ fraction)
    exponent := readSigned ((unsigned.dropWhile (· ≠ exponentMark)).drop 1) - fraction.length }

def magnitude (d : Decimal) : Rat :=
  if 0 ≤ d.exponent then d.coefficient * 10 ^ d.exponent.toNat
  else d.coefficient / 10 ^ (-d.exponent).toNat

def value (d : Decimal) : Rat := if d.negative then -d.magnitude else d.magnitude

/-- `format(d, "f")` -/
def formatF (d : Decimal) : Codes :=
  let ds := renderNumeral 10 d.coefficient
  let left := d.exponent + ds.length
  let (whole, fraction) :=
    if left < 0 then ([zeroDigit], zeroDigits (-left).toNat ++ ds)
    else if (ds.length : Int) < left then (ds ++ zeroDigits (left.toNat - ds.length), [])
    else (if left = 0 then [zeroDigit] else ds.take left.toNat, ds.drop left.toNat)
  signCodes d.negative ++ whole ++ (if fraction.isEmpty then [] else dot :: fraction)

/-- Fixed notation without trailing zeros after the point. -/
def renderNumber (d : Decimal) : Codes :=
  let rendered := d.formatF
  if dot ∈ rendered then (rendered.rdropWhile (· = zeroDigit)).rdropWhile (· = dot) else rendered

/-- `d == d.to_integral_value()` -/
def isIntegral (d : Decimal) : Bool :=
  decide (0 ≤ d.exponent) || decide (d.coefficient % 10 ^ (-d.exponent).toNat = 0)

def whole (d : Decimal) : Nat :=
  if 0 ≤ d.exponent then d.coefficient * 10 ^ d.exponent.toNat
  else d.coefficient / 10 ^ (-d.exponent).toNat

/-- `int(d)` -/
def toInt (d : Decimal) : Int := if d.negative then -d.whole else d.whole

/-- `Decimal(str(n))` -/
def ofInt (n : Int) : Decimal := ⟨decide (n < 0), n.natAbs, 0⟩

end Decimal

/-- The decimal that a JSON document holds for `d`. -/
def Decimal.settled (d : Decimal) : Decimal := if d.isIntegral then ofInt d.toInt else d

/-- Moves trailing zeros into the exponent; the first argument bounds their number. -/
@[grind =] def trimZeros : Nat → Nat → Int → Nat × Int
  | 0, n, e => (n, e)
  | bound + 1, n, e => if n % 10 = 0 then trimZeros bound (n / 10) (e + 1) else (n, e)

theorem trimZeros_normal {bound n : Nat} {e : Int} (positive : 0 < n) (enough : n ≤ bound) :
    (trimZeros bound n e).1 % 10 ≠ 0 := by
  induction bound generalizing n e with
  | zero => omega
  | succ bound ih =>
    rw [trimZeros]
    split
    · apply ih <;> omega
    · assumption

/-- `float(d)` of a decimal that some float shows. -/
def Shortest.ofDecimal (d : Decimal) : Shortest :=
  if zero : d.coefficient = 0 then ⟨d.negative, 0, 0, .inr ⟨rfl, rfl⟩⟩
  else
    { negative := d.negative
      digits := (trimZeros d.coefficient d.coefficient d.exponent).1
      exponent := (trimZeros d.coefficient d.coefficient d.exponent).2
      normal := .inl (trimZeros_normal (Nat.pos_of_ne_zero zero) le_rfl) }

example : (Text.mk (Decimal.ofText (Shortest.mk false 1 (-7) (by decide)).repr).formatF) =
    "0.0000001" := by decide +kernel

end Sippycup.Python

/-! `decimal`: construction from text, which is exact, and the default context,
which keeps 28 digits and exponents up to 999999. -/
namespace Sippycup.Python
open Sippycup.Ip

namespace Decimal

/-- Text as the constructor reads it: no space around it, no underscores, digits of any
script, which the first argument knows beyond ASCII. Zero stands for what is invalid. -/
def asciiCodes (digit : Nat → Option Nat) (text : Text) : Codes :=
  (text.strip.codes.filter (· ≠ 95)).map fun code =>
    if code < 128 then code else match digit code with | some d => zeroDigit + d | none => 0

def splitSign (codes : Codes) : Bool × Codes :=
  match codes with
  | code :: rest => if code = minus then (true, rest) else if code = plus then (false, rest) else (false, codes)
  | [] => (false, [])

/-- The exponent that ends a number. -/
def readExponent (codes : Codes) : Option Int :=
  match codes with
  | [] => some 0
  | mark :: rest =>
    let (negative, digits) := splitSign rest
    if (mark = 101 ∨ mark = 69) ∧ digits ≠ [] ∧ digits.all isDigit then
      some (if negative then -(readNumeral 10 digits : Int) else readNumeral 10 digits)
    else none

def maxExponent : Int := 999999999999999999
def minExponent : Int := -1999999999999999997

/-- Numbers that no context can hold exactly are refused. -/
def representable (d : Decimal) : Bool :=
  let adjusted := if d.coefficient = 0 then d.exponent
    else d.exponent + (renderNumeral 10 d.coefficient).length - 1
  decide (minExponent ≤ d.exponent ∧ adjusted ≤ maxExponent)

/-- `Decimal(text)`, when that is a finite number. -/
def parse (digit : Nat → Option Nat) (text : Text) : Option Decimal :=
  let (negative, codes) := splitSign (asciiCodes digit text)
  let whole := codes.takeWhile isDigit
  let rest := codes.dropWhile isDigit
  let fraction := if rest.head? = some dot then (rest.drop 1).takeWhile isDigit else []
  let tail := if rest.head? = some dot then (rest.drop 1).dropWhile isDigit else rest
  if whole ++ fraction = [] then none
  else match readExponent tail with
    | none => none
    | some exponent =>
      let d : Decimal := ⟨negative, readNumeral 10 (whole ++ fraction), exponent - fraction.length⟩
      if d.representable then some d else none

/-- A result rounded to the default context; `none` is its overflow, which is trapped. -/
def rounded (x : Rat) : Option Rat :=
  if x = 0 then some 0 else
    let unit := max (Int.log 10 |x| - 27) (-1000026)
    let scaled : Rat := |x| / 10 ^ unit
    let magnitude : Rat := roundHalfEven scaled.num.natAbs scaled.den * 10 ^ unit
    if 10 ^ 1000000 ≤ magnitude then none else some (if x < 0 then -magnitude else magnitude)

example : (parse (fun _ => none) " -1_2.50e+3").map value = some (-12500) := by decide +kernel

end Decimal

end Sippycup.Python
