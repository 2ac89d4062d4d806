import Sippycup.Python.JsonEq

/-! The semantic identity of a behavior pack: placeholders numbered by first use
within their kind, ephemeral ports and clock origins removed, evidence stripped.
Field names are compared with ASCII words, so lower case of ASCII is enough. -/
namespace Sippycup.Learn
open Sippycup.Python

structure CanonicalizationError where
  code : String
  message : String
  deriving DecidableEq

abbrev Result := Except (Raised CanonicalizationError)

def fail {α : Type} (code message : String) : Result α := .error (.own ⟨code, message⟩)

def require (holds : Bool) (code message : String) : Result Unit :=
  if holds then .ok () else fail code message

def placeholderTypes : List Text :=
  ["address", "branch", "call-id", "contact", "cseq", "length", "media-address", "media-port", "port",
    "rtp-sequence", "rtp-timestamp", "ssrc", "tag"]

/-- Names of each kind, in the order of their first use. -/
abbrev Names := Text → List Text

def Names.add (names : Names) (kind raw : Text) : Names :=
  if raw ∈ names kind then names else Function.update names kind (names kind ++ [raw])

/-- `f"{kind}-{number}"`, counted from 1; a name not seen yet gets the next number. -/
def Names.label (names : Names) (kind raw : Text) : Text :=
  kind ++ ("-" : Text) ++ ⟨intCodes ((names kind).idxOf raw + 1)⟩

def endsWithPort (field : Text) : Bool :=
  (Text.ofString "port").codes.isSuffixOf (Casing.ascii.lower field).codes

def ephemeralPort (field : Text) (value : JsonValue) : Bool :=
  match value with
  | .int n => endsWithPort field && decide (1023 < n)
  | _ => false

/-- `set(value) == {"type", "name"}` -/
def placeholderShape (entries : JsonDict) : Bool :=
  entries.contains "type" && entries.contains "name" &&
    entries.keys.all fun key => key = "type" || key = "name"

/-- Kind and name of a typed placeholder. -/
def placeholder? (entries : JsonDict) : Result (Option (Text × Text)) :=
  if placeholderShape entries then do
    if ← (entries.find "type").inSet placeholderTypes then
      match entries.find "type", entries.find "name" with
      | .str kind, .str raw => return some (kind, raw)
      | _, _ => fail "schema" "placeholder name must be a string"
    else return none
  else return none

def placeholderValue (kind name : Text) : JsonValue :=
  .dict [JsonDict.entry "type" (.str kind), JsonDict.entry "name" (.str name)]

mutual
/-- `_PlaceholderNormalizer.normalize` on a document whose keys are in order. -/
@[grind =] def normalizeSorted (names : Names) (field : Text) : JsonValue → Result (JsonValue × Names)
  | .list items => do
    let (items, names) ← normalizeItems names field items
    return (.list items, names)
  | .dict entries => do
    match ← placeholder? entries with
    | some (kind, raw) => return (placeholderValue kind (names.label kind raw), names.add kind raw)
    | none =>
      let (entries, names) ← normalizeEntries names entries
      return (.dict entries, names)
  | value => return (if ephemeralPort field value then .str "<ephemeral-port>" else value, names)

@[grind =] def normalizeItems (names : Names) (field : Text) : List JsonValue → Result (List JsonValue × Names)
  | [] => return ([], names)
  | item :: rest => do
    let (first, names) ← normalizeSorted names field item
    let (others, names) ← normalizeItems names field rest
    return (first :: others, names)

@[grind =] def normalizeEntries (names : Names) :
    List (Text × JsonValue) → Result (List (Text × JsonValue) × Names)
  | [] => return ([], names)
  | (key, value) :: rest => do
    let (first, names) ← normalizeSorted names key value
    let (others, names) ← normalizeEntries names rest
    return ((key, first) :: others, names)
end

section timing

def timingFields : List Text := ["earliest", "latest"]

/-- Adds to an integer; other values stay. -/
def shiftInt (by_ : Int) : JsonValue → JsonValue
  | .int n => .int (n + by_)
  | value => value

def shiftWindow (by_ : Int) : JsonValue → JsonValue
  | .dict window =>
    .dict (window.map fun (key, value) => (key, if key ∈ timingFields then shiftInt by_ value else value))
  | value => value

def shiftTransaction (by_ : Int) (transaction : JsonDict) : JsonDict :=
  transaction.map fun (key, value) => (key, if key = "timingWindowMs" then shiftWindow by_ value else value)

/-- `_integer`, of a value that is not `None`. -/
def integer? (value : JsonValue) (field : String) : Result (List Int) :=
  match value with
  | .null => return []
  | .int n => return [n]
  | _ => fail "schema" s!"{field} must be an integer"

def windowStarts (index : Nat) (transaction : JsonDict) : Result (List Int) :=
  match transaction.find "timingWindowMs" with
  | .dict window => do
    let earliest ← integer? (JsonDict.find window "earliest") s!"transactions[{index}].timingWindowMs.earliest"
    let latest ← integer? (JsonDict.find window "latest") s!"transactions[{index}].timingWindowMs.latest"
    return earliest ++ latest
  | _ => fail "schema" s!"transactions[{index}].timingWindowMs must be an object"

@[grind =] def timingStarts : Nat → List JsonDict → Result (List Int)
  | _, [] => return []
  | index, transaction :: rest => do
    let starts ← windowStarts index transaction
    return starts ++ (← timingStarts (index + 1) rest)

/-- `min(values, default=0)` -/
def originOf (values : List Int) : Int := values.min?.getD 0

def normalizeTiming (transactions : List JsonDict) : Result (List JsonDict) := do
  let origin := originOf (← timingStarts 0 transactions)
  return transactions.map (shiftTransaction (-origin))

end timing

section model

/-- `isinstance(value, list) and all(isinstance(item, dict) for item in value)` -/
def objects? (value : JsonValue) : Option (List JsonDict) :=
  match value with
  | .list items => items.mapM fun item => match item with | .dict d => some d | _ => none
  | _ => none

def readObjects (value : JsonValue) (message : String) : Result (List JsonDict) :=
  match objects? value with
  | some items => .ok items
  | none => fail "schema" message

/-- `d.get(key, [])` -/
def getArray (d : JsonDict) (key : Text) : JsonValue := (d.get? key).getD (.list [])

def projectResponse (response : JsonDict) : JsonValue :=
  .dict [JsonDict.entry "status" (response.find "status"), JsonDict.entry "optional" (response.find "optional")]

/-- The fields of a transaction that are compared. -/
def projectTransaction (transaction : JsonDict) (responses : List JsonDict) : JsonValue :=
  .dict [
    JsonDict.entry "method" (transaction.find "method"),
    JsonDict.entry "direction" (transaction.find "direction"),
    JsonDict.entry "flow" (transaction.find "flow"),
    JsonDict.entry "timingWindowMs" (transaction.find "timingWindowMs"),
    JsonDict.entry "requestHasSdp" (transaction.find "requestHasSdp"),
    JsonDict.entry "responses" (.list (responses.map projectResponse))]

def projectRevision (revision : JsonDict) : JsonValue :=
  .dict [
    JsonDict.entry "role" (revision.find "role"),
    JsonDict.entry "method" (revision.find "method"),
    JsonDict.entry "status" (revision.find "status"),
    JsonDict.entry "media" (revision.find "media")]

/-- The fields of a media packet that are compared, its offset counted from an origin. -/
def projectPacket (origin : Int) (packet : JsonDict) : JsonValue :=
  .dict [
    JsonDict.entry "ssrc" (packet.find "ssrc"),
    JsonDict.entry "sequence" (packet.find "sequence"),
    JsonDict.entry "timestamp" (packet.find "timestamp"),
    JsonDict.entry "payloadType" (packet.find "payloadType"),
    JsonDict.entry "offsetMs" (shiftInt (-origin) (packet.find "offsetMs"))]

def projectDialog (dialog : JsonDict) : JsonValue :=
  .dict [
    JsonDict.entry "state" (dialog.find "state"),
    JsonDict.entry "teardownInitiator" (dialog.find "teardownInitiator")]

@[grind =] def normalizeTransactions (names : Names) : Nat → List JsonDict → Result (List JsonValue × Names)
  | _, [] => return ([], names)
  | index, transaction :: rest => do
    let responses ← readObjects (getArray transaction "responses")
      s!"transactions[{index}].responses must contain objects"
    let (first, names) ← normalizeSorted names "" (projectTransaction transaction responses).sortKeys
    let (others, names) ← normalizeTransactions names (index + 1) rest
    return (first :: others, names)

@[grind =] def packetOffsets : List JsonDict → Result (List Int)
  | [] => return []
  | packet :: rest => do
    let offset ← integer? (packet.find "offsetMs") "mediaPackets.offsetMs"
    return offset ++ (← packetOffsets rest)

structure SemanticModel where
  dialog : JsonValue
  transactions : List JsonValue
  sdpRevisions : List JsonValue
  mediaPackets : List JsonValue

/-- What `_semantic_model` reads of a model before it normalizes anything. -/
structure ModelParts where
  dialog : JsonDict
  transactions : List JsonDict
  sdpRevisions : List JsonDict
  mediaPackets : List JsonDict

def readModel (model : JsonDict) : Result ModelParts := do
  let dialog ← match ← model.item "dialog" with
    | .dict dialog => pure dialog
    | _ => fail "schema" "canonical model dialog must be an object"
  let transactions ← model.item "transactions"
  let revisions ← model.item "sdpRevisions"
  return {
    dialog
    transactions := ← readObjects transactions "canonical model transactions must be objects"
    sdpRevisions := ← readObjects revisions "canonical model SDP revisions must be objects"
    mediaPackets := ← readObjects (getArray model "mediaPackets")
      "canonical model media packets must be objects" }

def normalizeParts (parts : ModelParts) : Result SemanticModel := do
  let transactions ← normalizeTiming parts.transactions
  let (transactions, names) ← normalizeTransactions (fun _ => []) 0 transactions
  let (revisions, names) ← normalizeItems names ""
    (parts.sdpRevisions.map fun revision => (projectRevision revision).sortKeys)
  let origin := originOf (← packetOffsets parts.mediaPackets)
  let (packets, _) ← normalizeItems names ""
    (parts.mediaPackets.map fun packet => (projectPacket origin packet).sortKeys)
  return {
    dialog := projectDialog parts.dialog
    transactions
    sdpRevisions := revisions
    mediaPackets := packets }

/-- `_semantic_model` -/
def semanticModel (model : JsonDict) : Result SemanticModel := do
  normalizeParts (← readModel model)

end model

section oracle

def strippedKeys : List Text := ["evidence", "message", "call_id", "id"]

def ssrcFields : List Text := ["ssrc", "sender_ssrc"]

def stripScalar (field : Text) (value : JsonValue) : JsonValue :=
  if ephemeralPort field value then .str "<ephemeral-port>"
  else match value with
    | .int n => if Casing.ascii.lower field ∈ ssrcFields then .str "<ssrc>" else .int n
    | value => value

mutual
/-- `_strip_evidence` on a document whose keys are in order. -/
@[grind =] def stripSorted (field : Text) : JsonValue → JsonValue
  | .list items => .list (stripItems field items)
  | .dict entries => .dict (stripEntries entries)
  | value => stripScalar field value

@[grind =] def stripItems (field : Text) : List JsonValue → List JsonValue
  | [] => []
  | item :: rest => stripSorted field item :: stripItems field rest

@[grind =] def stripEntries : List (Text × JsonValue) → List (Text × JsonValue)
  | [] => []
  | (key, value) :: rest =>
    if key ∈ strippedKeys then stripEntries rest else (key, stripSorted key value) :: stripEntries rest
end

def stripEvidence (value : JsonValue) : JsonValue := stripSorted "" value.sortKeys

def projectOracleDialog (item : JsonDict) : JsonValue :=
  .dict [
    JsonDict.entry "state" (item.find "state"),
    JsonDict.entry "complete" (stripEvidence (item.find "complete"))]

def projectStream (item : JsonDict) : JsonValue :=
  .dict [
    JsonDict.entry "direction" (item.find "direction"),
    JsonDict.entry "correlation" (item.find "correlation"),
    JsonDict.entry "flow" (stripEvidence (item.find "flow")),
    JsonDict.entry "encrypted" (item.find "encrypted"),
    JsonDict.entry "metrics" (stripEvidence (item.find "metrics"))]

def projectAssertion (item : JsonDict) : JsonValue :=
  .dict [
    JsonDict.entry "verdict" (item.find "verdict"),
    JsonDict.entry "applicability" (item.find "applicability"),
    JsonDict.entry "observed" (stripEvidence (item.find "observed"))]

/-- `items.sort(key=json.dumps)` with sorted keys. -/
def sortByText (items : List JsonValue) : List JsonValue :=
  items.insertionSort fun a b => a.canonical ≤ b.canonical

structure SemanticOracle where
  verdict : JsonValue
  dialogs : List JsonValue
  streams : List JsonValue
  assertions : JsonDict

def namedAssertion? (item : JsonDict) : Option (Text × JsonValue) :=
  match item.find "id" with
  | .str id => some (id, projectAssertion item)
  | _ => none

/-- Assertions under their identifiers. -/
def readAssertions (items : List JsonDict) : Result JsonDict :=
  let named : JsonDict := items.filterMap namedAssertion?
  if named.keys.Nodup ∧ named.length = items.length then .ok named
  else fail "schema" "oracle assertion IDs must be unique strings"

/-- `_semantic_oracle` -/
def semanticOracle (oracle : JsonDict) : Result SemanticOracle := do
  let dialogs ← readObjects (← oracle.item "dialogs") "oracle dialogs must contain objects"
  let streams ← readObjects (← oracle.item "streams") "oracle streams must contain objects"
  let assertions ← readObjects (← oracle.item "assertions") "oracle assertions must contain objects"
  let named ← readAssertions assertions
  return {
    verdict := ← oracle.item "verdict"
    dialogs := sortByText (dialogs.map projectOracleDialog)
    streams := sortByText (streams.map projectStream)
    assertions := named }

end oracle

end Sippycup.Learn
