import Sippycup.Machine.Substitution
import Sippycup.Python.Utf8

/-! Redaction of secrets in what a command printed and in command lines: each secret in turn is replaced
by a marker, in the text that the secrets before it have left. -/
namespace Sippycup.Runtime.Redaction
open Sippycup.Python Sippycup.Ip Sippycup.Machine.Substitution

def marker : Codes := (Text.ofString "<redacted>").codes

/-- `text.replace(secret, "<redacted>")` for a secret that is not empty; after an occurrence as many codes
are skipped as the secret has. -/
def replace (secret : Codes) : Nat → Codes → Codes
  | _, [] => []
  | skip + 1, _ :: rest => replace secret skip rest
  | 0, code :: rest =>
    if secret.isPrefixOf (code :: rest) then marker ++ replace secret (secret.length - 1) rest
    else code :: replace secret 0 rest

def replaceAll (secrets : List Codes) (text : Codes) : Codes :=
  secrets.foldl (fun text secret => replace secret 0 text) text

section output

/-- How many bytes one replacement character stands for: the part of a sequence that is well formed. -/
def badLength : List Nat → Nat
  | lead :: rest =>
    let low := if lead = 0xE0 then 0xA0 else if lead = 0xF0 then 0x90 else 0x80
    let high := if lead = 0xED then 0xA0 else if lead = 0xF4 then 0x90 else 0xC0
    let second := match rest with
      | byte :: _ => decide (low ≤ byte ∧ byte < high)
      | [] => false
    let third := match rest with
      | _ :: byte :: _ => Utf8.continues byte
      | _ => false
    if decide (0xE0 ≤ lead ∧ lead < 0xF5) && second then
      if decide (0xF0 ≤ lead) && third then 3 else 2
    else 1
  | [] => 1

/-- `raw.decode("utf-8", errors="replace")`, of so many bytes at most -/
def decodeUpTo : Nat → List Nat → Codes
  | 0, _ => []
  | bound + 1, raw =>
    if raw.isEmpty then []
    else
      match Utf8.decodeOne raw with
      | some (code, rest) => code :: decodeUpTo bound rest
      | none => 0xFFFD :: decodeUpTo bound (raw.drop (badLength raw))

def decodeReplacing (raw : List Nat) : Codes := decodeUpTo raw.length raw

/-- A letter of a pattern under `(?i)`; four codes are an i. -/
def sameLetter (letter code : Nat) : Bool :=
  decide (code = letter ∨ 65 ≤ code ∧ code ≤ 90 ∧ code + 32 = letter ∨ letter = 105 ∧ (code = 0x130 ∨ code = 0x131))

def afterWord : Codes → Codes → Option Codes
  | [], text => some text
  | letter :: word, code :: text => if sameLetter letter code then afterWord word text else none
  | _ :: _, [] => none

/-- What follows `\s*(?:proxy-)?authorization\s*:` at the start of the text. -/
def afterHeader (text : Codes) : Option Codes :=
  let start := text.dropWhile Text.isSpace
  let word := (afterWord (Text.ofString "proxy-").codes start).getD start
  match (afterWord (Text.ofString "authorization").codes word).map (List.dropWhile Text.isSpace) with
  | some (58 :: rest) => some rest
  | _ => none

/-- The substitution for `(?im)^(\s*(?:proxy-)?authorization\s*:)\s*.*$`, from a line start or not. -/
def authorizeUpTo : Nat → Bool → Codes → Codes
  | 0, _, _ => []
  | _ + 1, _, [] => []
  | bound + 1, lineStart, code :: rest =>
    match if lineStart then afterHeader (code :: rest) else none with
    | some value =>
      let header := (code :: rest).take ((code :: rest).length - value.length)
      let after := (value.dropWhile Text.isSpace).dropWhile fun code => code ≠ 10
      header ++ 32 :: marker ++ authorizeUpTo bound false after
    | none => code :: authorizeUpTo bound (decide (code = 10)) rest

def authorize (text : Codes) : Codes := authorizeUpTo text.length true text

/-- `_redact_output` -/
def redactOutput (raw : List Nat) (secrets : List Codes) : Codes := authorize (replaceAll secrets (decodeReplacing raw))

end output

/-- `_redact` -/
def redact (command secrets : List Codes) : List Codes := command.map (replaceAll secrets)

section property

/-- The codes of a text with their places. -/
def placed (text : Codes) : List (Nat × Option Nat) := text.zipIdx.map fun code => (code.1, some code.2)

def placedMarker : List (Nat × Option Nat) := marker.map fun code => (code, none)

/-- The same replacements, on codes that know their places in the text. -/
def traced (secrets : List Codes) (text : Codes) : List (Nat × Option Nat) :=
  secrets.foldl (fun items secret => sweep Prod.fst [secret] placedMarker 0 items) (placed text)

/-- No code of an occurrence of a secret is left, the order of the secrets does not matter, and texts that
differ only inside occurrences are made the same. -/
structure Hides (secrets : List Codes) (text : Codes) : Prop where
  replaced : ∀ code place, (code, some place) ∈ traced secrets text → ¬ Covered id secrets text place
  order : ∀ other : List Codes, other.Perm secrets → replaceAll other text = replaceAll secrets text
  blind : ∀ other, SameOutside id secrets text other → replaceAll secrets text = replaceAll secrets other

/-- A secret that has nothing to do with the marker. -/
def Unmarked (secret : Codes) : Prop := Foreign id marker secret

end property

section tracing
variable {secrets : List Codes} {text : Codes}

theorem replace_eq_sweep (secret : Codes) (skip : Nat) (text : Codes) :
    replace secret skip text = sweep id [secret] marker skip text := by
  induction text generalizing skip with
  | nil => cases skip <;> rfl
  | cons code rest ih =>
    cases skip with
    | succ skip => exact ih skip
    | zero =>
      rw [replace, sweep, List.find?_cons]
      by_cases here : secret <+: code :: rest
      · have starts : decide (Starts id secret (code :: rest)) = true :=
          decide_eq_true (by rwa [Starts, List.map_id])
        rw [if_pos (List.isPrefixOf_iff_prefix.mpr here), starts]
        exact congrArg (marker ++ ·) (ih _)
      · have missing : decide (Starts id secret (code :: rest)) = false :=
          decide_eq_false (by rwa [Starts, List.map_id])
        rw [if_neg (fun held => here (List.isPrefixOf_iff_prefix.mp held)), missing]
        exact congrArg (code :: ·) (ih 0)

theorem replaceAll_eq (secrets : List Codes) (text : Codes) :
    replaceAll secrets text = secrets.foldl (fun items secret => sweep id [secret] marker 0 items) text := by
  simp only [replaceAll, replace_eq_sweep]

theorem placed_codes (text : Codes) : (placed text).map Prod.fst = text := by
  rw [placed, List.map_map]
  exact List.zipIdx_map_fst 0 text

theorem placedMarker_codes : placedMarker.map Prod.fst = marker := by
  rw [placedMarker, List.map_map]
  exact List.map_id _

end tracing
end Sippycup.Runtime.Redaction
