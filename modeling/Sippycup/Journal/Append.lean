import Sippycup.Journal.TamperEvidence
import Sippycup.Python.JsonReads

/-! Appending to a journal: the arguments are checked, the journal is verified, and
one line is written at its end. The operating system may refuse, or write only the
beginning of the line. -/
namespace Sippycup.Journal
open Sippycup.Python Sippycup.Ip

def engagementVersion : String := "sippycup.dev/engagement/v1"
def journalName : String := "journal.jsonl"

def metadataKeys : List String :=
  ["apiVersion", "kind", "title", "owner", "createdAt", "confidentiality", "journal"]

def validateMetadataFields (d : JsonDict) : Result Unit := do
  if !keysAre d metadataKeys then fail "engagement metadata has invalid fields"
  else if !(d.find "apiVersion").isText engagementVersion then
    fail "unsupported engagement metadata version"
  else if !(d.find "kind").isText "AssessmentEngagement" then fail "invalid engagement metadata kind"
  else
    let _ ← validateText "title" (d.find "title") 200 false
    let _ ← validateText "owner" (d.find "owner") 200 false
    let _ ← validateText "createdAt" (d.find "createdAt") 64 false
    if !(d.find "confidentiality").isText "private" then fail "engagement confidentiality must be private"
    else if !(d.find "journal").isText journalName then fail "engagement journal path is invalid"
    else return ()

def validateMetadata (value : JsonValue) : Result Unit :=
  match value with
  | .dict d => validateMetadataFields d
  | _ => fail "engagement metadata has invalid fields"

/-- A file read as text; `UnicodeDecodeError` is a `ValueError`. -/
def readText (bytes : List Nat) : Result Codes :=
  match TextFile.read? bytes with
  | some codes => .ok codes
  | none => .error (.builtin .valueError)

/-- The bytes of `engagement.json` and of the journal. -/
structure Engagement where
  metadata : List Nat
  journal : List Nat

def loadMetadata (e : Engagement) : Result Unit := do
  let codes ← readText e.metadata
  match Json.loads ⟨codes⟩ with
  | .ok value => validateMetadata value
  | .error (.own message) => fail ("cannot read engagement metadata: " ++ message)
  | .error (.builtin kind) => .error (.builtin kind)

def readJournal (journal : List Nat) : Result Verification := do
  let codes ← readText journal
  verifyStream Json.loads ((TextFile.lines codes).map Text.mk)

/-- `verify`, of files that can be opened. -/
def verify (e : Engagement) : Result Verification := do
  loadMetadata e
  readJournal e.journal

/-- `datetime.now(timezone.utc)` -/
structure Instant where
  year : Fin 10000
  month : Fin 13
  day : Fin 32
  hour : Fin 24
  minute : Fin 60
  second : Fin 60
  microsecond : Fin 1000000

/-- A number in so many decimal digits. -/
def padded : Nat → Nat → Codes
  | 0, _ => []
  | width + 1, n => padded width (n / 10) ++ [48 + n % 10]

/-- `isoformat(timespec="microseconds")` with `Z` for the zone. -/
def utcNow (now : Instant) : Text :=
  ⟨padded 4 now.year ++ [45] ++ padded 2 now.month ++ [45] ++ padded 2 now.day ++ [84] ++
    padded 2 now.hour ++ [58] ++ padded 2 now.minute ++ [58] ++ padded 2 now.second ++ [46] ++
    padded 6 now.microsecond ++ [90]⟩

structure Arguments where
  kind : Text
  summary : Text
  detail : Text
  evidence : List Text
  tags : List Text
  recordedAt : Option Text

/-- `t.rstrip()` -/
def rstrip (t : Text) : Text := ⟨t.codes.rdropWhile Text.isSpace⟩

def readArgumentKind (t : Text) : Result Kind :=
  match kindNamed? t with
  | some kind => .ok kind
  | none => fail ("kind must be one of: " ++ ", ".intercalate (kinds.map Kind.name))

/-- What `append` makes of its arguments before it opens the journal. -/
structure Draft where
  kind : Kind
  summary : Text
  detail : Text
  evidence : List Text
  tags : List Text

def draft (a : Arguments) : Result Draft := do
  let kind ← readArgumentKind a.kind
  let summary ← validateText "summary" (.str a.summary.strip) maxSummaryChars false
  let detail ← validateText "detail" (.str (rstrip a.detail)) maxDetailChars true
  let references ← a.evidence.mapM safeReference
  let evidence := sortTexts references.dedup
  if maxReferences < evidence.length then
    fail s!"at most {maxReferences} evidence references are allowed"
  else
    let tags := sortTexts a.tags.dedup
    if maxTags < tags.length ∨ !tags.all isTag then
      fail s!"at most {maxTags} lowercase identifier tags are allowed"
    else return { kind, summary, detail, evidence, tags }

/-- `recorded_at or _utc_now()` -/
def recorded (recordedAt : Option Text) (now : Instant) : Text :=
  match recordedAt with
  | some t => if t.codes.isEmpty then utcNow now else t
  | none => utcNow now

/-- The entry's dict before its digest is known. -/
def unsigned (entry : Entry) : JsonDict :=
  [("apiVersion", .str entryVersion), ("sequence", entry.sequence), ("recordedAt", .str entry.recordedAt),
    ("kind", .str entry.kind.name), ("summary", .str entry.summary), ("detail", .str entry.detail),
    ("evidence", .list (entry.evidence.map .str)), ("tags", .list (entry.tags.map .str)),
    ("previousSha256", textOrNull entry.previousSha256)]

def document (entry : Entry) : JsonDict := unsigned entry ++ [JsonDict.entry "entrySha256" (.str entry.entrySha256)]

def compose (d : Draft) (recordedAt : Text) (read : Verification) : Result Entry := do
  let entry : Entry := {
    sequence := .int (read.entries.length + 1), recordedAt, kind := d.kind, summary := d.summary
    detail := d.detail, evidence := d.evidence, tags := d.tags
    previousSha256 := read.finalSha256, entrySha256 := "" }
  let digest ← entryDigest (unsigned entry)
  return { entry with entrySha256 := digest }

/-- What becomes of the write: an error, or so many bytes written and then synced or not. -/
inductive Written where
  | refused (reason : String)
  | wrote (count : Nat) (unsynced : Option String)

/-- One call of `append`, with the answers of the operating system. -/
structure Call where
  arguments : Arguments
  now : Instant
  directory : Result Unit
  opened : Result Unit
  written : Written

/-- Everything up to the write: the entry and its line. -/
def prepare (before : Engagement) (call : Call) : Result (Entry × List Nat) := do
  call.directory
  loadMetadata before
  let d ← draft call.arguments
  call.opened
  let read ← readJournal before.journal
  let entry ← compose d (recorded call.arguments.recordedAt call.now) read
  let encoded := (← canonical (document entry)) ++ [newline]
  if maxEntryBytes < encoded.length then fail "encoded journal entry exceeds the 1 MiB limit"
  else if maxJournalBytes < before.journal.length + encoded.length then
    fail "journal would exceed the 32 MiB limit"
  else return (entry, encoded)

def append (before : Engagement) (call : Call) : Result Entry × Engagement :=
  match prepare before call with
  | .error e => (.error e, before)
  | .ok (entry, encoded) =>
    match call.written with
    | .refused reason => (fail ("cannot append journal entry: " ++ reason), before)
    | .wrote count unsynced =>
      let after := { before with journal := before.journal ++ encoded.take count }
      match unsynced with
      | none => (.ok entry, after)
      | some reason => (fail ("cannot append journal entry: " ++ reason), after)

end Sippycup.Journal
