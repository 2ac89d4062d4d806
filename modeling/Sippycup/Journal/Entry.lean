import Sippycup.Python.PosixPath
import Sippycup.Python.RawJson
import Sippycup.Python.Sha256

/-! Journal entries and their verification: each line is one document, checked
field by field, and names the digest of the entry before it. -/
namespace Sippycup.Journal
open Sippycup.Python Sippycup.Ip

structure JournalError where
  message : String
  deriving DecidableEq

abbrev Result := Except (Raised JournalError)

def fail {α : Type} (message : String) : Result α := .error (.own ⟨message⟩)

def entryVersion : String := "sippycup.dev/journal-entry/v1"
def maxJournalBytes : Nat := 32 * 1024 * 1024
def maxEntryBytes : Nat := 1024 * 1024
def maxEntries : Nat := 100000
def maxSummaryChars : Nat := 500
def maxDetailChars : Nat := 64 * 1024
def maxReferences : Nat := 128
def maxTags : Nat := 32

inductive Kind where
  | authorization | hypothesis | action | observation | finding | decision | followUp | note
  deriving DecidableEq

def Kind.name : Kind → String
  | .authorization => "authorization"
  | .hypothesis => "hypothesis"
  | .action => "action"
  | .observation => "observation"
  | .finding => "finding"
  | .decision => "decision"
  | .followUp => "follow-up"
  | .note => "note"

def kinds : List Kind :=
  [.authorization, .hypothesis, .action, .observation, .finding, .decision, .followUp, .note]

def kindNamed? (t : Text) : Option Kind := kinds.find? fun kind => decide (Text.ofString kind.name = t)

def entryKeys : List String :=
  ["apiVersion", "sequence", "recordedAt", "kind", "summary", "detail", "evidence", "tags",
    "previousSha256", "entrySha256"]

/-- The fields of an entry's document; its sequence number may be any equal number. -/
structure Entry where
  sequence : JsonValue
  recordedAt : Text
  kind : Kind
  summary : Text
  detail : Text
  evidence : List Text
  tags : List Text
  previousSha256 : Option Text
  entrySha256 : Text

def validateText (name : String) (value : JsonValue) (maximum : Nat) (empty : Bool) : Result Text :=
  match value with
  | .str t =>
    if !empty ∧ t.strip.codes.isEmpty then fail s!"{name} must not be empty"
    else if 0 ∈ t.codes then fail s!"{name} must not contain NUL"
    else if maximum < t.length then fail s!"{name} exceeds {maximum} characters"
    else .ok t
  | _ => fail s!"{name} must be text"

def isNormalized (t : Text) : Bool :=
  decide (t.codes.head? ≠ some slash ∧ 92 ∉ t.codes ∧ t.codes = asPosix t.codes ∧
    [dot, dot] ∉ pathParts t.codes)

def safeReference (value : Text) : Result Text := do
  let _ ← validateText "evidence reference" (.str value) 1024 false
  if isNormalized value then return value
  else fail "evidence references must be normalized relative paths without dot segments"

def isTagStart (code : Nat) : Bool := isLower code || isDigit code

def isTagCode (code : Nat) : Bool := isTagStart code || [46, 95, 45].contains code

/-- `[a-z0-9][a-z0-9._-]{0,62}` -/
def isTag (t : Text) : Bool :=
  match t.codes with
  | [] => false
  | first :: rest => isTagStart first && rest.all isTagCode && decide (rest.length ≤ 62)

def itemLt (a b : JsonValue) : Bool :=
  match a.number?, b.number? with
  | some m, some n => m.lt n
  | _, _ => false

def ascending : List JsonValue → Bool
  | a :: b :: rest => itemLt a b && ascending (b :: rest)
  | _ => true

def isNull : JsonValue → Bool
  | .null => true
  | _ => false

/-- Whether `sorted` can compare the items, none of them text. -/
def comparable (items : List JsonValue) : Bool :=
  items.all (fun item => item.number?.isSome) || items.all fun item => isNull item

/-- A list that equals its sorted set, of texts. -/
def sortedTexts (items : List JsonValue) (unsorted untyped : String) : Result (List Text) :=
  if items.any fun item => !item.hashable then .error (.builtin .typeError)
  else
    match items.mapM JsonValue.text? with
    | some texts => if texts = sortTexts texts.dedup then .ok texts else fail unsorted
    | none =>
      if comparable items then fail (if ascending items then untyped else unsorted)
      else .error (.builtin .typeError)

def boundedList (value : JsonValue) (maximum : Nat) (message : String) : Result (List JsonValue) :=
  match value with
  | .list items => if maximum < items.length then fail message else .ok items
  | _ => fail message

def checkReferences : List Text → Result Unit
  | [] => .ok ()
  | reference :: rest => do
    let _ ← safeReference reference
    checkReferences rest

def canonical (value : JsonDict) : Result (List Nat) :=
  match Utf8.encode? (JsonValue.dict value).canonicalRaw with
  | some bytes => .ok bytes
  | none => .error (.builtin .unicodeEncodeError)

/-- The entry without its digest. -/
def material (entry : JsonDict) : JsonDict := entry.filter fun x => x.1 ≠ Text.ofString "entrySha256"

def entryDigest (entry : JsonDict) : Result Text := do
  return sha256Hex (← canonical (material entry))

def readPrevious (value : JsonValue) (previous : Option Text) : Bool :=
  match previous with
  | none => isNull value
  | some digest => value.isText digest

def readKind (value : JsonValue) (expected : Nat) : Result Kind :=
  match value with
  | .str t =>
    match kindNamed? t with
    | some kind => .ok kind
    | none => fail s!"journal entry {expected} has an invalid kind"
  | _ => fail s!"journal entry {expected} has an invalid kind"

def readDigest (value : JsonValue) (expected : Nat) : Result Text :=
  match value with
  | .str t => if sha256Ok t then .ok t else fail s!"journal entry {expected} has an invalid digest"
  | _ => fail s!"journal entry {expected} has an invalid digest"

def validateFields (d : JsonDict) (expected : Nat) (previous : Option Text) : Result Entry := do
  if !keysAre d entryKeys then fail s!"journal entry {expected} has invalid fields"
  else if !(d.find "apiVersion").isText entryVersion then
    fail s!"journal entry {expected} has an unsupported version"
  else if !(d.find "sequence").eq (.int expected) then fail s!"journal sequence must be {expected}"
  else
    let recordedAt ← validateText "recordedAt" (d.find "recordedAt") 64 false
    let kind ← readKind (d.find "kind") expected
    let summary ← validateText "summary" (d.find "summary") maxSummaryChars false
    let detail ← validateText "detail" (d.find "detail") maxDetailChars true
    let references ← boundedList (d.find "evidence") maxReferences
      s!"journal entry {expected} evidence must be sorted and unique"
    let evidence ← sortedTexts references
      s!"journal entry {expected} evidence must be sorted and unique" "evidence references must be text"
    checkReferences evidence
    let identifiers ← boundedList (d.find "tags") maxTags
      s!"journal entry {expected} tags must be sorted safe identifiers"
    let tags ← sortedTexts identifiers
      s!"journal entry {expected} tags must be sorted safe identifiers"
      s!"journal entry {expected} tags must be sorted safe identifiers"
    if !tags.all isTag then fail s!"journal entry {expected} tags must be sorted safe identifiers"
    else if !readPrevious (d.find "previousSha256") previous then
      fail s!"journal entry {expected} breaks the hash chain"
    else
      let digest ← readDigest (d.find "entrySha256") expected
      if digest = (← entryDigest d) then
        return { sequence := d.find "sequence", recordedAt, kind, summary, detail, evidence, tags
                 previousSha256 := previous, entrySha256 := digest }
      else fail s!"journal entry {expected} digest does not match"

def validateEntry (value : JsonValue) (expected : Nat) (previous : Option Text) : Result Entry :=
  match value with
  | .dict d => validateFields d expected previous
  | _ => fail s!"journal entry {expected} has invalid fields"

/-- `json.loads`; its own error is `JSONDecodeError`. -/
abbrev Loads := Text → Except (Raised String) JsonValue

def loadLine (loads : Loads) (number : Nat) (line : Text) : Result JsonValue :=
  match loads line with
  | .ok value => .ok value
  | .error (.own message) => fail (s!"journal line {number} is invalid JSON: " ++ message)
  | .error (.builtin kind) => .error (.builtin kind)

def encodedSize (line : Text) : Result Nat :=
  match Utf8.encode? line.codes with
  | some bytes => .ok bytes.length
  | none => .error (.builtin .unicodeEncodeError)

def newline : Nat := 10

/-- What verification has read so far; the digest of the last entry is the final one. -/
structure Verification where
  entries : List Entry
  finalSha256 : Option Text

def Verification.empty : Verification := ⟨[], none⟩

def verifyLine (loads : Loads) (total : Nat) (read : Verification) (line : Text) :
    Result (Nat × Verification) := do
  let number := read.entries.length + 1
  let size ← encodedSize line
  if maxJournalBytes < total + size then fail "journal exceeds the 32 MiB verification limit"
  else if maxEntryBytes < size then fail s!"journal line {number} exceeds the 1 MiB limit"
  else if line.codes.getLast? ≠ some newline then fail s!"journal line {number} is incomplete"
  else if line.strip.codes.isEmpty then fail s!"journal line {number} is empty"
  else if maxEntries ≤ read.entries.length then fail "journal exceeds the 100,000 entry limit"
  else
    let value ← loadLine loads number line
    let entry ← validateEntry value number read.finalSha256
    return (total + size, ⟨read.entries ++ [entry], some entry.entrySha256⟩)

/-- The lines of a stream, from what was read before them. -/
def verifyLines (loads : Loads) : Nat → Verification → List Text → Result (Nat × Verification)
  | total, read, [] => .ok (total, read)
  | total, read, line :: rest => do
    let (total, read) ← verifyLine loads total read line
    verifyLines loads total read rest

def verifyStream (loads : Loads) (lines : List Text) : Result Verification := do
  let (_, read) ← verifyLines loads 0 .empty lines
  return read

end Sippycup.Journal
