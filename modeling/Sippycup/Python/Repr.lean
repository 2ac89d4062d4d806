import Mathlib.Data.Nat.Log
import Sippycup.Python.Value

/-! `repr` and `str` of values, for messages and rendered text. A float is
rendered by the fewest significant digits that read back as the same float. -/
namespace Sippycup.Python

namespace Double

/-- Exponent `e` with `10 ^ e ≤ n / d < 10 ^ (e + 1)`. -/
def decimalExponent (n d : Nat) : Int :=
  let guess : Int := (Nat.log 10 n : Int) - Nat.log 10 d
  let below := if 0 ≤ guess then n < d * 10 ^ guess.toNat else n * 10 ^ (-guess).toNat < d
  if below then guess - 1 else guess

/-- `n / d` in units of `10 ^ unit`, to the nearest integer. -/
def scaled (n d : Nat) (unit : Int) : Nat :=
  if 0 ≤ unit then roundHalfEven n (d * 10 ^ unit.toNat) else roundHalfEven (n * 10 ^ (-unit).toNat) d

def ofScaled (units : Nat) (unit : Int) : Rat :=
  if 0 ≤ unit then units * 10 ^ unit.toNat else units / 10 ^ (-unit).toNat

/-- Significant digits and decimal exponent of the shortest decimal that rounds
to the positive rational `n / d`, trying at most `tries` more lengths. -/
@[grind =] def shortest (n d : Nat) (exponent : Int) : Nat → Nat → Nat × Int
  | 0, digits => (scaled n d (exponent - digits), exponent - digits)
  | tries + 1, digits =>
    let unit := exponent - digits
    let units := scaled n d unit
    if roundDouble (ofScaled units unit) = .finite (n / d : Rat) then (units, unit)
    else shortest n d exponent tries (digits + 1)

def zeros (n : Nat) : String := String.ofList (List.replicate n '0')

def stripZeros (digits : List Char) : List Char := (digits.reverse.dropWhile (· = '0')).reverse

/-- Fixed notation for exponents from -4 to 15, otherwise scientific notation. -/
def layout (digits : List Char) (exponent : Int) : String :=
  let whole := String.ofList digits
  if 0 ≤ exponent ∧ exponent < 16 then
    let k := exponent.toNat + 1
    if digits.length ≤ k then whole ++ zeros (k - digits.length) ++ ".0"
    else String.ofList (digits.take k) ++ "." ++ String.ofList (digits.drop k)
  else if -4 ≤ exponent ∧ exponent < 0 then "0." ++ zeros ((-exponent).toNat - 1) ++ whole
  else
    let mantissa := if digits.length ≤ 1 then whole
      else String.ofList (digits.take 1) ++ "." ++ String.ofList (digits.drop 1)
    let size := toString exponent.natAbs
    mantissa ++ "e" ++ (if exponent < 0 then "-" else "+") ++ zeros (2 - size.length) ++ size

def repr : Double → String
  | .nan => "nan"
  | .infinite s => if s then "-inf" else "inf"
  | .finite q =>
    if q = 0 then "0.0" else
    let n := q.num.natAbs
    let (units, unit) := shortest n q.den (decimalExponent n q.den) 16 0
    let all := (toString units).toList
    let text := layout (stripZeros all) (unit + all.length - 1)
    if q < 0 then "-" ++ text else text

end Double

namespace Value

mutual
/-- `repr(value)` -/
@[grind =] def repr : Value → String
  | .none => "None"
  | .bool b => if b then "True" else "False"
  | .int n => toString n
  | .float x => x.repr
  | .str t => t.repr
  | .list items => "[" ++ ", ".intercalate (reprItems items) ++ "]"
  | .dict entries => "\x7b" ++ ", ".intercalate (reprEntries entries) ++ "\x7d"
  | .other _ content => content.render

@[grind =] def reprItems : List Value → List String
  | [] => []
  | v :: rest => repr v :: reprItems rest

@[grind =] def reprEntries : List (Value × Value) → List String
  | [] => []
  | (k, v) :: rest => (repr k ++ ": " ++ repr v) :: reprEntries rest
end

/-- `str(value)` -/
def str' : Value → Text
  | .str t => t
  | v => v.repr

end Value
end Sippycup.Python

/-! `json.dumps(value, allow_nan=False, separators=(",", ":"))`: ASCII text, or
the message of the exception it raises. -/
namespace Sippycup.Python.Json

def ascii (s : String) : List Nat := (Text.ofString s).codes

/-- Decimal digits an integer may have in conversions to and from text. -/
def maxStrDigits : Nat := 4300

def escapeUnit (unit : Nat) : List Nat := ascii "\\u" ++ Text.hexPadded 4 unit

def escape (code : Nat) : List Nat :=
  if code = 34 then ascii "\\\""
  else if code = 92 then ascii "\\\\"
  else if code = 10 then ascii "\\n"
  else if code = 13 then ascii "\\r"
  else if code = 9 then ascii "\\t"
  else if code = 12 then ascii "\\f"
  else if code = 8 then ascii "\\b"
  else if 32 ≤ code ∧ code ≤ 126 then [code]
  else if code < 0x10000 then escapeUnit code
  else
    escapeUnit (0xD800 + (code - 0x10000) / 0x400) ++ escapeUnit (0xDC00 + (code - 0x10000) % 0x400)

def encodeText (t : Text) : List Nat := [34] ++ t.codes.flatMap escape ++ [34]

def encodeInt (n : Int) : Except String (List Nat) :=
  if 10 ^ maxStrDigits ≤ n.natAbs then
    .error s!"Exceeds the limit ({maxStrDigits} digits) for integer string conversion"
  else .ok (ascii (toString n))

def encodeFloat (x : Double) : Except String (List Nat) :=
  match x with
  | .finite _ => .ok (ascii x.repr)
  | _ => .error s!"Out of range float values are not JSON compliant: {x.repr}"

def encodeBool (b : Bool) : List Nat := ascii (if b then "true" else "false")

def encodeKey (key : Value) : Except String (List Nat) :=
  match key with
  | .str t => .ok (encodeText t)
  | .none => .ok (ascii "\"null\"")
  | .bool b => .ok ([34] ++ encodeBool b ++ [34])
  | .int n => do return [34] ++ (← encodeInt n) ++ [34]
  | .float x => do return [34] ++ (← encodeFloat x) ++ [34]
  | _ => .error "keys must be str, int, float, bool or None"

def comma : List Nat := [44]

mutual
@[grind =] def encode : Value → Except String (List Nat)
  | .none => .ok (ascii "null")
  | .bool b => .ok (encodeBool b)
  | .int n => encodeInt n
  | .float x => encodeFloat x
  | .str t => .ok (encodeText t)
  | .list items => do return [91] ++ comma.intercalate (← encodeItems items) ++ [93]
  | .dict entries => do return [123] ++ comma.intercalate (← encodeEntries entries) ++ [125]
  | .other _ _ => .error "Object is not JSON serializable"

@[grind =] def encodeItems : List Value → Except String (List (List Nat))
  | [] => .ok []
  | item :: rest => do
    let first ← encode item
    let others ← encodeItems rest
    return first :: others

@[grind =] def encodeEntries : List (Value × Value) → Except String (List (List Nat))
  | [] => .ok []
  | (key, value) :: rest => do
    let name ← encodeKey key
    let content ← encode value
    let others ← encodeEntries rest
    return (name ++ [58] ++ content) :: others
end

end Sippycup.Python.Json
