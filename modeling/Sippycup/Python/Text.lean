import Mathlib.Data.List.DropRight
import Mathlib.Data.List.Sort
import Mathlib.Data.String.Basic

/-! Python `str` values as lists of code points. Lone surrogates are code
points like any other: a decoder can produce them and an encoder refuses them,
so Lean's `String`, which cannot hold one, serves for literals and messages only. -/
namespace Sippycup.Python

@[ext] structure Text where
  codes : List Nat
  deriving DecidableEq, Inhabited

namespace Text

def ofString (s : String) : Text := ⟨s.toList.map Char.toNat⟩

instance : Coe String Text := ⟨ofString⟩

instance : Append Text := ⟨fun a b => ⟨a.codes ++ b.codes⟩⟩

@[simp] theorem codes_append (a b : Text) : (a ++ b).codes = a.codes ++ b.codes := rfl

@[simp] theorem ofString_inj {a b : String} : ofString a = ofString b ↔ a = b := by
  constructor
  · intro same
    have codes := congrArg Text.codes same
    have chars : a.toList = b.toList :=
      List.map_injective_iff.mpr (fun _ _ h => Char.toNat_inj.mp h) codes
    exact String.toList_inj.mp chars
  · rintro rfl
    rfl

/-- `separator.join(texts)` -/
def join (separator : Text) (texts : List Text) : Text :=
  ⟨separator.codes.intercalate (texts.map Text.codes)⟩

def length (t : Text) : Nat := t.codes.length

/-- Lexicographic order by code point, as `<` on `str`. -/
def le (a b : Text) : Bool := decide (a.codes ≤ b.codes)

def lt (a b : Text) : Bool := decide (a.codes < b.codes)

/-- Rendering for messages; a surrogate has no Lean character. -/
def render (t : Text) : String :=
  String.ofList (t.codes.map fun c => if c.isValidChar then Char.ofNat c else '\uFFFD')

/-- White space as `str.strip` and `str.isspace` know it. -/
def isSpace (code : Nat) : Bool :=
  decide ((9 ≤ code ∧ code ≤ 13) ∨ (28 ≤ code ∧ code ≤ 32) ∨ (0x2000 ≤ code ∧ code ≤ 0x200A)) ||
    [0x85, 0xA0, 0x1680, 0x2028, 0x2029, 0x202F, 0x205F, 0x3000].contains code

def strip (t : Text) : Text := ⟨(t.codes.dropWhile isSpace).rdropWhile isSpace⟩

def isSurrogate (code : Nat) : Bool := decide (0xD800 ≤ code ∧ code ≤ 0xDFFF)

def hexDigit (n : Nat) : Nat := if n < 10 then 48 + n else 87 + n

@[grind =] def hexPadded : Nat → Nat → List Nat
  | 0, _ => []
  | width + 1, n => hexPadded width (n / 16) ++ [hexDigit (n % 16)]

def reprCode (quote code : Nat) : List Nat :=
  if code = quote ∨ code = 92 then [92, code]
  else if code = 10 then [92, 110]
  else if code = 13 then [92, 114]
  else if code = 9 then [92, 116]
  else if code < 32 ∨ (127 ≤ code ∧ code ≤ 160) ∨ code = 173 then [92, 120] ++ hexPadded 2 code
  else if isSurrogate code then [92, 117] ++ hexPadded 4 code
  else [code]

/-- `repr` of a `str`; unassigned code points are shown as themselves. -/
def repr (t : Text) : String :=
  let quote := if 39 ∈ t.codes ∧ 34 ∉ t.codes then 34 else 39
  render ⟨[quote] ++ t.codes.flatMap (reprCode quote) ++ [quote]⟩

end Text
end Sippycup.Python

/-! `str.lower` and `str.rstrip`. Lower case follows tables of the interpreter
that cover all of Unicode; what is relied on here is that lowered text stays as
it is, as does each of its prefixes. -/
namespace Sippycup.Python

structure Casing where
  lower : Text → Text
  lower_lower : ∀ t, lower (lower t) = lower t
  lower_prefix : ∀ s t, lower (s ++ t) = s ++ t → lower s = s

/-- `t.rstrip(".")` -/
def Text.rstripDots (t : Text) : Text := ⟨t.codes.rdropWhile (· = 46)⟩

def lowerCode (code : Nat) : Nat := if 65 ≤ code ∧ code ≤ 90 then code + 32 else code

theorem lowerCode_idem (code : Nat) : lowerCode (lowerCode code) = lowerCode code := by
  unfold lowerCode
  split
  · exact if_neg (by omega)
  · rfl

/-- Lower case of ASCII text. -/
def Casing.ascii : Casing where
  lower t := ⟨t.codes.map lowerCode⟩
  lower_lower t := by
    rw [Text.mk.injEq, List.map_map]
    exact List.map_congr_left fun code _ => lowerCode_idem code
  lower_prefix s t lowered := by
    have codes : s.codes.map lowerCode ++ t.codes.map lowerCode = s.codes ++ t.codes := by
      rw [← List.map_append]
      exact congrArg Text.codes lowered
    exact Text.ext (List.append_inj_left codes (by simp))

end Sippycup.Python
