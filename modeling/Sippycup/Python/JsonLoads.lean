import Sippycup.Python.RawJson

/-! `json.loads(text)`: the scanner of the standard library, on what is left of the
text. Its own error is `JSONDecodeError`, by its message without the position; an
integer of too many digits is a `ValueError`. Nesting is bounded by the text only. -/
namespace Sippycup.Python
open Sippycup.Ip

/-- The float nearest to a decimal, with its sign. -/
def PyFloat.ofRat (negative : Bool) (magnitude : Rat) : PyFloat :=
  match roundDouble magnitude with
  | .finite value =>
    let n := value.num.natAbs
    if n = 0 then .finite (Shortest.ofDecimal ⟨negative, 0, 0⟩)
    else
      let (units, unit) := Double.shortest n value.den (Double.decimalExponent n value.den) 16 0
      .finite (Shortest.ofDecimal ⟨negative, units, unit⟩)
  | _ => .infinite negative

namespace Json

abbrev Scan := Except (Raised String)

def decodeError {α : Type} (message : String) : Scan α := .error (.own message)

def isBlank (code : Nat) : Bool := [32, 9, 10, 13].contains code

def skip (codes : Codes) : Codes := codes.dropWhile isBlank

def scanHex : Codes → Scan (Nat × Codes)
  | a :: b :: c :: d :: rest =>
    if [a, b, c, d].all isHexDigit then .ok (JsonText.hexValue [a, b, c, d], rest)
    else decodeError "Invalid \\uXXXX escape"
  | _ => decodeError "Invalid \\uXXXX escape"

def simpleEscape? (code : Nat) : Option Nat :=
  [(34, 34), (92, 92), (47, 47), (98, 8), (102, 12), (110, 10), (114, 13), (116, 9)].lookup code

/-- An escaped high surrogate takes the low one that is escaped right after it. -/
def joinLow (unit : Nat) (rest : Codes) : Scan (Nat × Codes) :=
  match rest with
  | 92 :: 117 :: more =>
    if isHigh unit then do
      let (low, after) ← scanHex more
      return if isLow low then (joinPair unit low, after) else (unit, rest)
    else .ok (unit, rest)
  | _ => .ok (unit, rest)

def scanEscape : Codes → Scan (Nat × Codes)
  | [] => decodeError "Unterminated string starting at"
  | code :: rest =>
    if code = 117 then do
      let (unit, rest) ← scanHex rest
      joinLow unit rest
    else
      match simpleEscape? code with
      | some plain => .ok (plain, rest)
      | none => decodeError "Invalid \\escape: "

/-- The rest of a string, of at most `bound` characters. -/
@[grind =] def scanBody : Nat → Codes → Scan (Codes × Codes)
  | 0, _ | _ + 1, [] => decodeError "Unterminated string starting at"
  | bound + 1, code :: rest =>
    if code = 34 then .ok ([], rest)
    else if code = 92 then do
      let (plain, rest) ← scanEscape rest
      let (body, rest) ← scanBody bound rest
      return (plain :: body, rest)
    else if code < 32 then decodeError "Invalid control character at"
    else do
      let (body, rest) ← scanBody bound rest
      return (code :: body, rest)

/-- A string after its opening quote. -/
def scanString (codes : Codes) : Scan (Text × Codes) := do
  let (body, rest) ← scanBody codes.length codes
  return (⟨body⟩, rest)

def digitsOf (codes : Codes) : Codes × Codes := (codes.takeWhile isDigit, codes.dropWhile isDigit)

/-- `(\.\d+)?` -/
def scanFraction : Codes → Codes × Codes
  | 46 :: rest =>
    let (digits, after) := digitsOf rest
    if digits.isEmpty then ([], 46 :: rest) else (digits, after)
  | codes => ([], codes)

/-- `[eE][-+]?\d+`, if the text starts with it. -/
def exponentOf (codes : Codes) : Option (Int × Codes) :=
  match codes with
  | mark :: rest =>
    if mark = 101 ∨ mark = 69 then
      let (negative, unsigned) := match rest with
        | 45 :: more => (true, more)
        | 43 :: more => (false, more)
        | _ => (false, rest)
      let (digits, after) := digitsOf unsigned
      if digits.isEmpty then none
      else
        let value : Int := readNumeral 10 digits
        some (if negative then -value else value, after)
    else none
  | [] => none

def powerOfTen (exponent : Int) : Rat :=
  if 0 ≤ exponent then 10 ^ exponent.toNat else 1 / 10 ^ (-exponent).toNat

def floatOf (negative : Bool) (whole fraction : Codes) (exponent : Int) : PyFloat :=
  .ofRat negative (readNumeral 10 (whole ++ fraction) * powerOfTen (exponent - fraction.length))

def intOf (negative : Bool) (whole : Codes) : Scan JsonValue :=
  if maxStrDigits < whole.length then .error (.builtin .valueError)
  else
    let value : Int := readNumeral 10 whole
    .ok (.int (if negative then -value else value))

/-- The whole part of a number: one zero, or digits that do not start with it. -/
def scanWhole (codes : Codes) : Codes × Codes :=
  match codes with
  | 48 :: rest => ([48], rest)
  | _ => digitsOf codes

def scanUnsigned (negative : Bool) (codes : Codes) : Scan (JsonValue × Codes) := do
  let (whole, rest) := scanWhole codes
  if whole.isEmpty then decodeError "Expecting value"
  else
    let (fraction, rest) := scanFraction rest
    match exponentOf rest with
    | some (exponent, rest) => return (.float (floatOf negative whole fraction exponent), rest)
    | none =>
      if fraction.isEmpty then return (← intOf negative whole, rest)
      else return (.float (floatOf negative whole fraction 0), rest)

def scanNumber : Codes → Scan (JsonValue × Codes)
  | 45 :: rest => scanUnsigned true rest
  | codes => scanUnsigned false codes

def words : List (Codes × JsonValue) :=
  [(ascii "null", .null), (ascii "true", .bool true), (ascii "false", .bool false),
    (ascii "NaN", .float .nan), (ascii "Infinity", .float (.infinite false)),
    (ascii "-Infinity", .float (.infinite true))]

def scanScalar (codes : Codes) : Scan (JsonValue × Codes) :=
  match words.find? fun word => word.1.isPrefixOf codes with
  | some (word, value) => .ok (value, codes.drop word.length)
  | none => scanNumber codes

mutual
@[grind =] def scanValue : Nat → Codes → Scan (JsonValue × Codes)
  | 0, _ => decodeError "Expecting value"
  | bound + 1, codes =>
    match codes with
    | 34 :: rest => do
      let (t, rest) ← scanString rest
      return (.str t, rest)
    | 91 :: rest => do
      let (items, rest) ← scanItems bound (skip rest)
      return (.list items, rest)
    | 123 :: rest => do
      let (entries, rest) ← scanEntries bound (skip rest)
      return (.dict (JsonDict.lastOf entries), rest)
    | codes => scanScalar codes

/-- A list after its opening bracket. -/
@[grind =] def scanItems : Nat → Codes → Scan (List JsonValue × Codes)
  | 0, _ => decodeError "Expecting value"
  | bound + 1, codes =>
    match codes with
    | 93 :: rest => .ok ([], rest)
    | codes => scanElements bound codes

@[grind =] def scanElements : Nat → Codes → Scan (List JsonValue × Codes)
  | 0, _ => decodeError "Expecting value"
  | bound + 1, codes => do
    let (item, rest) ← scanValue bound codes
    match skip rest with
    | 93 :: rest => return ([item], rest)
    | 44 :: rest => do
      let (others, rest) ← scanElements bound (skip rest)
      return (item :: others, rest)
    | _ => decodeError "Expecting ',' delimiter"

/-- A dict after its opening brace. -/
@[grind =] def scanEntries : Nat → Codes → Scan (JsonDict × Codes)
  | 0, _ => decodeError "Expecting property name enclosed in double quotes"
  | bound + 1, codes =>
    match codes with
    | 125 :: rest => .ok ([], rest)
    | codes => scanMembers bound codes

@[grind =] def scanMembers : Nat → Codes → Scan (JsonDict × Codes)
  | 0, _ => decodeError "Expecting property name enclosed in double quotes"
  | bound + 1, codes =>
    match codes with
    | 34 :: rest => do
      let (key, rest) ← scanString rest
      match skip rest with
      | 58 :: rest => do
        let (value, rest) ← scanValue bound (skip rest)
        match skip rest with
        | 125 :: rest => return ([(key, value)], rest)
        | 44 :: rest => do
          let (others, rest) ← scanMembers bound (skip rest)
          return ((key, value) :: others, rest)
        | _ => decodeError "Expecting ',' delimiter"
      | _ => decodeError "Expecting ':' delimiter"
    | _ => decodeError "Expecting property name enclosed in double quotes"
end

/-- `JSONDecoder.decode`: one document and blanks. -/
def decode (codes : Codes) : Scan JsonValue := do
  let text := skip codes
  let (value, rest) ← scanValue (2 * text.length + 1) text
  if (skip rest).isEmpty then return value else decodeError "Extra data"

/-- `json.loads(text)` -/
def loads (t : Text) : Scan JsonValue :=
  if t.codes.head? = some 0xFEFF then decodeError "Unexpected UTF-8 BOM (decode using utf-8-sig)"
  else decode t.codes

end Json

example : (Json.loads " [1, -2.50e1, \"\\u0041\\n\", \x7b\"a\": null, \"a\": true\x7d] ").toOption.map
    JsonValue.canonical = some (Json.ascii "[1,-25.0,\"A\\n\",\x7b\"a\":true\x7d]") := by decide +kernel

end Sippycup.Python

/-! `json.loads(data)` on bytes: the encoding is told from the first bytes, and
encoded surrogates pass. What is read has each key of a dict once. -/
namespace Sippycup.Python
open Sippycup.Ip

namespace Json

inductive Encoding where
  | utf8 | utf8Sig | utf16 | utf16Be | utf16Le | utf32 | utf32Be | utf32Le
  deriving DecidableEq

def startsWith (data : List Nat) (marks : List (List Nat)) : Bool := marks.any fun mark => mark.isPrefixOf data

/-- `json.detect_encoding` -/
def detectEncoding (data : List Nat) : Encoding :=
  if startsWith data [[0, 0, 0xFE, 0xFF], [0xFF, 0xFE, 0, 0]] then .utf32
  else if startsWith data [[0xFE, 0xFF], [0xFF, 0xFE]] then .utf16
  else if startsWith data [[0xEF, 0xBB, 0xBF]] then .utf8Sig
  else
    match data with
    | a :: b :: c :: d :: _ =>
      if a = 0 then (if b = 0 then .utf32Be else .utf16Be)
      else if b = 0 then (if c = 0 ∧ d = 0 then .utf32Le else .utf16Le)
      else .utf8
    | [a, b] => if a = 0 then .utf16Be else if b = 0 then .utf16Le else .utf8
    | _ => .utf8

/-- A code point of UTF-8 where surrogates pass. -/
def decodeOne (bytes : List Nat) : Option (Nat × List Nat) :=
  match Utf8.decodeOne bytes with
  | some step => some step
  | none =>
    match bytes with
    | 0xED :: b :: c :: rest =>
      if 0xA0 ≤ b ∧ b < 0xC0 ∧ Utf8.continues c then some (0xD000 + (b - 0x80) * 0x40 + (c - 0x80), rest)
      else none
    | _ => none

@[grind =] def decodeUtf8 : Nat → List Nat → Option Codes
  | _, [] => some []
  | 0, _ :: _ => none
  | bound + 1, byte :: bytes => do
    let (code, rest) ← decodeOne (byte :: bytes)
    return code :: (← decodeUtf8 bound rest)

@[grind =] def units (big : Bool) : List Nat → Option Codes
  | [] => some []
  | a :: b :: rest => do
    let others ← units big rest
    return (if big then a * 0x100 + b else b * 0x100 + a) :: others
  | _ => none

@[grind =] def decodeUtf32 (big : Bool) : List Nat → Option Codes
  | [] => some []
  | a :: b :: c :: d :: rest => do
    let code := if big then ((a * 0x100 + b) * 0x100 + c) * 0x100 + d
      else ((d * 0x100 + c) * 0x100 + b) * 0x100 + a
    if code < 0x110000 then return code :: (← decodeUtf32 big rest) else none
  | _ => none

def decodeUtf16 (big : Bool) (data : List Nat) : Option Codes := (units big data).map rejoin

/-- `data.decode(detect_encoding(data), "surrogatepass")` -/
def decodeBytes (data : List Nat) : Option Codes :=
  match detectEncoding data with
  | .utf8 => decodeUtf8 data.length data
  | .utf8Sig => decodeUtf8 data.length (data.drop 3)
  | .utf16 => decodeUtf16 (data.head? == some 0xFE) (data.drop 2)
  | .utf16Be => decodeUtf16 true data
  | .utf16Le => decodeUtf16 false data
  | .utf32 => decodeUtf32 (data.head? == some 0) (data.drop 4)
  | .utf32Be => decodeUtf32 true data
  | .utf32Le => decodeUtf32 false data

/-- `json.loads(data)`; `UnicodeDecodeError` is a `ValueError`. -/
def loadsBytes (data : List Nat) : Scan JsonValue :=
  match decodeBytes data with
  | some codes => decode codes
  | none => .error (.builtin .valueError)

end Json

namespace JsonDict

theorem keys_lastOf_nodup (entries : JsonDict) : (lastOf entries).keys.Nodup := by
  induction entries with
  | nil => exact List.nodup_nil
  | cons x rest ih =>
    rw [lastOf]
    split
    · exact ih
    · rename_i absent
      refine List.nodup_cons.mpr ⟨fun member => absent ?_, ih⟩
      exact contains_iff.mpr (keys_lastOf member)

theorem mem_lastOf {entries : JsonDict} {x : Text × JsonValue} (member : x ∈ lastOf entries) : x ∈ entries := by
  induction entries with
  | nil => exact member
  | cons y rest ih =>
    rw [lastOf] at member
    split at member
    · exact List.mem_cons_of_mem _ (ih member)
    · exact List.mem_cons.mpr ((List.mem_cons.mp member).imp id ih)

end JsonDict

namespace Json
open JsonValue

theorem scanUnsigned_proper {negative : Bool} {codes rest : Codes} {v : JsonValue}
    (ok : scanUnsigned negative codes = .ok (v, rest)) : v.Proper := by
  unfold scanUnsigned at ok
  dsimp only at ok
  split at ok
  · cases ok
  split at ok
  · cases ok
    exact trivial
  · split at ok
    · obtain ⟨number, read, ok⟩ := bind_ok.mp ok
      cases ok
      unfold intOf at read
      split at read
      · cases read
      · cases read
        exact trivial
    · cases ok
      exact trivial

theorem scanScalar_proper {codes rest : Codes} {v : JsonValue} (ok : scanScalar codes = .ok (v, rest)) :
    v.Proper := by
  unfold scanScalar at ok
  split at ok
  · rename_i found
    cases ok
    have listed := List.mem_of_find?_eq_some found
    simp only [words, List.mem_cons, Prod.mk.injEq, List.not_mem_nil, or_false] at listed
    rcases listed with ⟨-, rfl⟩ | ⟨-, rfl⟩ | ⟨-, rfl⟩ | ⟨-, rfl⟩ | ⟨-, rfl⟩ | ⟨-, rfl⟩ <;> exact trivial
  · unfold scanNumber at ok
    split at ok <;> exact scanUnsigned_proper ok

/-- What is scanned within a bound is proper. -/
theorem scan_proper (bound : Nat) :
    (∀ codes v rest, scanValue bound codes = .ok (v, rest) → v.Proper) ∧
    (∀ codes items rest, scanItems bound codes = .ok (items, rest) → ∀ item ∈ items, item.Proper) ∧
    (∀ codes items rest, scanElements bound codes = .ok (items, rest) → ∀ item ∈ items, item.Proper) ∧
    (∀ codes entries rest, scanEntries bound codes = .ok (entries, rest) →
      ∀ entry ∈ entries, entry.2.Proper) ∧
    ∀ codes entries rest, scanMembers bound codes = .ok (entries, rest) →
      ∀ entry ∈ entries, entry.2.Proper := by
  induction bound with
  | zero => exact ⟨nofun, nofun, nofun, nofun, nofun⟩
  | succ bound ih =>
    obtain ⟨values, items, elements, entries, members⟩ := ih
    refine ⟨fun codes v rest ok => ?_, fun codes found rest ok => ?_, fun codes found rest ok => ?_,
      fun codes found rest ok => ?_, fun codes found rest ok => ?_⟩
    · unfold scanValue at ok
      split at ok
      · obtain ⟨⟨t, after⟩, -, ok⟩ := bind_ok.mp ok
        cases ok
        exact trivial
      · obtain ⟨⟨list, after⟩, scanned, ok⟩ := bind_ok.mp ok
        cases ok
        exact proper_list.mpr (items _ _ _ scanned)
      · obtain ⟨⟨dict, after⟩, scanned, ok⟩ := bind_ok.mp ok
        cases ok
        exact proper_dict.2 ⟨JsonDict.keys_lastOf_nodup dict, fun entry member =>
          entries _ _ _ scanned entry (JsonDict.mem_lastOf member)⟩
      · exact scanScalar_proper ok
    · unfold scanItems at ok
      split at ok
      · cases ok
        exact nofun
      · exact elements _ _ _ ok
    · unfold scanElements at ok
      obtain ⟨⟨item, after⟩, first, ok⟩ := bind_ok.mp ok
      dsimp only at ok
      split at ok
      · cases ok
        exact List.forall_mem_singleton.mpr (values _ _ _ first)
      · obtain ⟨⟨others, last⟩, later, ok⟩ := bind_ok.mp ok
        cases ok
        exact List.forall_mem_cons.mpr ⟨values _ _ _ first, elements _ _ _ later⟩
      · cases ok
    · unfold scanEntries at ok
      split at ok
      · cases ok
        exact nofun
      · exact members _ _ _ ok
    · unfold scanMembers at ok
      split at ok
      · obtain ⟨⟨key, after⟩, -, ok⟩ := bind_ok.mp ok
        dsimp only at ok
        split at ok
        · obtain ⟨⟨value, last⟩, first, ok⟩ := bind_ok.mp ok
          dsimp only at ok
          split at ok
          · cases ok
            exact List.forall_mem_singleton.mpr (values _ _ _ first)
          · obtain ⟨⟨others, last⟩, later, ok⟩ := bind_ok.mp ok
            cases ok
            exact List.forall_mem_cons.mpr ⟨values _ _ _ first, members _ _ _ later⟩
          · cases ok
        · cases ok
      · cases ok

theorem decode_proper {codes : Codes} {v : JsonValue} (ok : decode codes = .ok v) : v.Proper := by
  obtain ⟨⟨value, rest⟩, scanned, ok⟩ := bind_ok.mp ok
  dsimp only at ok
  split at ok
  · cases ok
    exact (scan_proper _).1 _ _ _ scanned
  · cases ok

theorem loadsBytes_proper {data : List Nat} {v : JsonValue} (ok : loadsBytes data = .ok v) : v.Proper := by
  unfold loadsBytes at ok
  split at ok
  · exact decode_proper ok
  · cases ok

end Json
end Sippycup.Python
