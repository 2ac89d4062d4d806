import Sippycup.Python.JsonLoads
import Sippycup.Python.Sha256

/-! The inventory of a run directory: every path below the root in order, with what is recorded of each
file. A directory that cannot be listed has no entries for the traversal. -/
namespace Sippycup.Evidence.Inventory
open Sippycup.Python Sippycup.Ip

def manifestVersion : String := "sippycup.dev/evidence-manifest/v1"

def manifestName : Text := "evidence-manifest.json"

def maxTextScanBytes : Nat := 32 * 1024 * 1024

def expectedArtifacts : List Text :=
  ["plan.json", "reviewed-manifest.yaml", "commands.json", "events.jsonl", "versions.json", "capture.pcap",
    "report.txt", "report.stderr", "result.json", "timestamps.json", "preflight.json"]

def captureSuffixes : List Text := [".pcap", ".pcapng"]

def audioSuffixes : List Text :=
  [".wav", ".wave", ".flac", ".mp3", ".ogg", ".opus", ".pcm", ".raw", ".ulaw", ".alaw", ".au"]

/-- What stands in a directory. A link carries the bytes of the file it leads to, and a file that cannot
be read has none. -/
inductive Node where
  | file (content : Option (List Nat))
  | link (target : Option (List Nat))
  | directory (listed : Bool) (entries : List (Text × Node))
  | special

/-- The names from the root down to a node. -/
abbrev Path := List Text

/-- A name that can stand in a directory. -/
def IsName (name : Text) : Prop := name.codes ≠ [] ∧ slash ∉ name.codes ∧ name ≠ "." ∧ name ≠ ".."

instance (name : Text) : Decidable (IsName name) := inferInstanceAs (Decidable (_ ∧ _))

mutual
/-- Names in one directory are distinct. -/
def Node.Proper : Node → Prop
  | .directory _ entries => (entries.map Prod.fst).Nodup ∧ ProperEntries entries
  | _ => True

def ProperEntries : List (Text × Node) → Prop
  | [] => True
  | (name, node) :: rest => (IsName name ∧ node.Proper) ∧ ProperEntries rest
end

mutual
/-- `root.rglob("*")`: links are not followed. -/
def Node.rglob : Node → List (Path × Node)
  | .directory true entries => rglobEntries entries
  | _ => []

def rglobEntries : List (Text × Node) → List (Path × Node)
  | [] => []
  | (name, node) :: rest =>
    ([name], node) :: node.rglob.map (fun found => (name :: found.1, found.2)) ++ rglobEntries rest
end

/-- Paths are ordered by their parts. -/
def pathKey (path : Path) : List Codes := path.map Text.codes

def sortPaths (found : List (Path × Node)) : List (Path × Node) :=
  found.insertionSort fun a b => pathKey a.1 ≤ pathKey b.1

/-- `path.as_posix()` of a relative path -/
def posix (path : Path) : Text := Text.join "/" path

section classes
variable (casing : Casing)

/-- `path.suffix`: the last dot and what follows, unless the dot comes first or last. -/
def suffix (name : Text) : Text :=
  let tail := name.codes.rtakeWhile fun code => code ≠ dot
  let head := name.codes.take (name.codes.length - tail.length - 1)
  if dot ∈ name.codes ∧ head ≠ [] ∧ tail ≠ [] then ⟨dot :: tail⟩ else ⟨[]⟩

def lowerSuffix (name : Text) : Text := casing.lower (suffix name)

def mediaType (guessType : Text → Option Text) (name : Text) : Text :=
  let suffix := lowerSuffix casing name
  if suffix = ".json" then "application/json"
  else if suffix = ".jsonl" then "application/x-ndjson"
  else if suffix = ".yaml" ∨ suffix = ".yml" then "application/yaml"
  else if suffix = ".pcap" then "application/vnd.tcpdump.pcap"
  else if suffix = ".pcapng" then "application/x-pcapng"
  else (guessType name).getD "application/octet-stream"

def startsWith (name : Text) (start : String) : Bool := (Text.ofString start).codes.isPrefixOf name.codes

def provenance (name : Text) : Text :=
  if name = "notes.jsonl" then "operator-note"
  else if name = "journal.jsonl" then "operator-journal"
  else if lowerSuffix casing name ∈ captureSuffixes then "network-capture"
  else if startsWith name "report" || startsWith name "assert" || startsWith name "stats" then "offline-analysis"
  else if name = "plan.json" ∨ name = "reviewed-manifest.yaml" then "reviewed-authorization"
  else if name = "commands.json" ∨ name = "versions.json" then "runtime-inventory"
  else if name = "events.jsonl" ∨ name = "result.json" ∨ name = "timestamps.json" ∨ name = "preflight.json" then
    "campaign-runtime"
  else "run-artifact"

def bytesOf (s : String) : List Nat := (Text.ofString s).codes

/-- `_audio_magic` -/
def audioMagic (data : List Nat) : Bool :=
  ["fLaC", "OggS", "ID3", ".snd"].any (fun mark => (bytesOf mark).isPrefixOf data) ||
    ((bytesOf "RIFF").isPrefixOf data && decide ((data.drop 8).take 4 = bytesOf "WAVE"))

/-- White space of a pattern over bytes. -/
def isByteSpace (byte : Nat) : Bool := decide ((9 ≤ byte ∧ byte ≤ 13) ∨ byte = 32)

/-- What follows a word in the data, whatever the case of its letters. -/
def afterWord (word data : List Nat) : Option (List Nat) :=
  if word.isPrefixOf (data.map lowerCode) then some (data.drop word.length) else none

/-- What follows blanks and a colon. -/
def afterColon (data : List Nat) : Option (List Nat) :=
  match data.dropWhile isByteSpace with
  | 58 :: rest => some rest
  | _ => none

/-- A pattern that starts with `^`, searched for from the start of every line. -/
def searchLines (matchesHere : List Nat → Bool) (data : List Nat) : Bool :=
  matchesHere data || data.tails.any fun rest =>
    match rest with
    | 10 :: line => matchesHere line
    | _ => false

/-- `AUTHORIZATION`: a value of at least two characters on the line where it starts. -/
def authorizationHere (data : List Nat) : Bool :=
  match afterWord (bytesOf "authorization") ((afterWord (bytesOf "proxy-") data).getD data) with
  | none => false
  | some rest =>
    match (afterColon rest).map (List.dropWhile isByteSpace) with
    | some (_ :: next :: _) => decide (next ≠ 10)
    | _ => false

/-- `CALL_ID`: anything but line ends follows the colon, on whatever line. -/
def callIdHere (data : List Nat) : Bool :=
  match afterWord (bytesOf "call-id") data with
  | none => false
  | some rest =>
    match afterColon rest with
    | some value => value.any fun byte => decide (byte ≠ 10 ∧ byte ≠ 13)
    | none => false

def sensitivity (name : Text) (data : List Nat) (retainPayload : Bool) : Text :=
  let suffix := lowerSuffix casing name
  if suffix ∈ audioSuffixes ∨ audioMagic data then "restricted"
  else if suffix ∈ captureSuffixes then if retainPayload then "restricted" else "confidential"
  else if name = "notes.jsonl" ∨ name = "journal.jsonl" ∨ searchLines authorizationHere data ∨
      searchLines callIdHere data then "confidential"
  else if name = "report.txt" ∨ name = "report.stderr" ∨ name = "preflight.json" then "confidential"
  else if name ∈ (["plan.json", "reviewed-manifest.yaml", "commands.json", "events.jsonl", "versions.json",
      "result.json", "timestamps.json"] : List Text) then "internal"
  else "confidential"

end classes

/-- What the operating system says of a failed read is left out. -/
inductive EvidenceError where
  | rootNotDirectory
  | unsupportedSymlink (relative : Text)
  | cannotInventory (relative : Text)
  | policy (message : Text)
  deriving DecidableEq

abbrev Result := Except (Raised EvidenceError)

structure Artifact where
  path : Text
  mediaType : Text
  size : Nat
  sha256 : Text
  provenance : Text
  sensitivity : Text

structure Finding where
  code : Text
  path : Text
  detail : Text

structure EvidenceManifest where
  contentIdentity : Text
  runState : JsonValue
  artifacts : List Artifact
  missingExpected : List Text
  findings : List Finding
  createdAt : Text

/-- What is asked of the surroundings: the tables of media types, the tables of case, the clock, and the
findings of the privacy lint, which comes after the inventory. -/
structure Surroundings where
  guessType : Text → Option Text
  casing : Casing
  utcNow : Text
  privacyFindings : Node → List Artifact → Result (List Finding)

namespace Surroundings
variable (around : Surroundings)

def artifact (retainPayload : Bool) (path : Path) (content : List Nat) : Artifact :=
  let name := path.getLastD ""
  { path := posix path
    mediaType := mediaType around.casing around.guessType name
    size := content.length
    sha256 := sha256Hex content
    provenance := provenance around.casing name
    sensitivity := sensitivity around.casing name (content.take maxTextScanBytes) retainPayload }

/-- The loop over the sorted paths. -/
def inventory (retainPayload : Bool) : List (Path × Node) → Result (List Artifact)
  | [] => .ok []
  | (path, node) :: rest =>
    if path.getLastD "" = manifestName then inventory retainPayload rest
    else
      match node with
      | .link _ => .error (.own (.unsupportedSymlink (posix path)))
      | .file none => .error (.own (.cannotInventory (posix path)))
      | .file (some content) => do
        let artifacts ← inventory retainPayload rest
        return around.artifact retainPayload path content :: artifacts
      | .directory .. | .special => inventory retainPayload rest

end Surroundings

section documents

def child (name : Text) : Node → Option Node
  | .directory _ entries => (entries.find? fun entry => entry.1 = name).map Prod.snd
  | _ => none

/-- A document of the root; nothing when it cannot be opened or is no JSON. -/
def document (root : Node) (name : Text) : Result (Option JsonValue) :=
  match child name root with
  | some (.file (some content)) | some (.link (some content)) =>
    match TextFile.read? content with
    | none => .error (.builtin .valueError)
    | some codes =>
      match Json.loads ⟨codes⟩ with
      | .ok value => .ok (some value)
      | .error (.own _) => .ok none
      | .error (.builtin kind) => .error (.builtin kind)
  | _ => .ok none

/-- `_read_plan` -/
def readPlan (root : Node) : Result JsonDict := do
  match ← document root "plan.json" with
  | some (.dict plan) => return plan
  | _ => return []

def retainPayload (plan : JsonDict) : Result Bool :=
  match (plan.get? "evidence").getD (.dict []) with
  | .dict evidence => .ok (((JsonDict.get? evidence "retainPayload").getD (.bool true)).truthy)
  | _ => .error (.builtin .attributeError)

def runState (root : Node) : Result JsonValue := do
  match ← document root "result.json" with
  | some (.dict result) => return (JsonDict.get? result "state").getD (.str "incomplete")
  | _ => return .str "incomplete"

end documents

def Artifact.document (artifact : Artifact) : JsonValue :=
  .dict [("path", .str artifact.path), ("mediaType", .str artifact.mediaType), ("size", .int artifact.size),
    ("sha256", .str artifact.sha256), ("provenance", .str artifact.provenance),
    ("sensitivity", .str artifact.sensitivity)]

def missingExpected (artifacts : List Artifact) : List Text :=
  sortTexts (expectedArtifacts.filter fun name => decide (name ∉ artifacts.map Artifact.path))

def contentIdentity (artifacts : List Artifact) : Text :=
  "sha256:" ++ sha256Hex (JsonValue.canonical (.dict [("schema", .str manifestVersion),
    ("artifacts", .list (artifacts.map Artifact.document)),
    ("missingExpected", .list ((missingExpected artifacts).map .str))]))

def buildEvidenceManifest (around : Surroundings) (root : Node) (createdAt : Option Text) : Result EvidenceManifest :=
  match root with
  | .directory .. => do
    let plan ← readPlan root
    let retain ← retainPayload plan
    let artifacts ← around.inventory retain (sortPaths root.rglob)
    let findings ← around.privacyFindings root artifacts
    let state ← runState root
    return {
      contentIdentity := contentIdentity artifacts
      runState := state
      artifacts := artifacts
      missingExpected := missingExpected artifacts
      findings := findings
      createdAt := createdAt.getD around.utcNow }
  | _ => .error (.own .rootNotDirectory)

end Sippycup.Evidence.Inventory
