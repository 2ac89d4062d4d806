import Sippycup.Python.JsonEq
import Sippycup.Webrtc.Fields

/-! Scenarios and results of WebRTC runs, checked as they are before anything else reads them. Names
of a set are hashed first, and those that are not supported are sorted and joined. -/
namespace Sippycup.Webrtc.Contracts
open Sippycup.Python Sippycup.Ip

structure ContractError where
  message : String
  deriving DecidableEq

instance : Rejects ContractError := ⟨ContractError.mk⟩

abbrev Result := Except (Raised ContractError)

/-- What is used of the interpreter's tables: `str.lower`, the classes `\w` and `\s`, and
`datetime.fromisoformat`, in microseconds where the text has a zone. -/
structure Library where
  lower : Text → Text
  isWord : Nat → Bool
  isSpace : Nat → Bool
  fromisoformat : Text → Option (Option Int)

def scenarioVersion : Text := "sippycup.dev/webrtc-scenario/v1"
def resultVersion : Text := "sippycup.dev/webrtc-result/v1"

def capabilities : List Text :=
  ["audio", "trickle-ice", "ice-restart", "stun", "turn-udp", "turn-tcp", "turn-tls", "dtls-srtp", "rtcp",
    "wss-signaling"]

def negativeTests : List Text := ["auth", "origin", "signaling-state", "ice", "turn", "dtls", "srtp", "consent"]

def unknownReasons : List Text :=
  ["missing_evidence", "encrypted", "unsupported", "malformed", "redacted", "not_observed", "adapter_failure"]

def secretKeys : List Text :=
  ["bearer", "cookie", "icepassword", "icepwd", "keymaterial", "password", "privatekey", "secret", "token",
    "turnpassword"]

inductive ExecutionClass where
  | offlineFixture | localLab | approvedTarget
  deriving DecidableEq

def ExecutionClass.name : ExecutionClass → Text
  | .offlineFixture => "offline_fixture"
  | .localLab => "local_lab"
  | .approvedTarget => "approved_target"

inductive Role where
  | signaling | stun | turn | media
  deriving DecidableEq

def Role.name : Role → Text
  | .signaling => "signaling"
  | .stun => "stun"
  | .turn => "turn"
  | .media => "media"

inductive Transport where
  | udp | tcp | tls | wss
  deriving DecidableEq

def Transport.name : Transport → Text
  | .udp => "udp"
  | .tcp => "tcp"
  | .tls => "tls"
  | .wss => "wss"

inductive Verdict where
  | pass | fail | unknown | notApplicable
  deriving DecidableEq

def Verdict.name : Verdict → Text
  | .pass => "pass"
  | .fail => "fail"
  | .unknown => "unknown"
  | .notApplicable => "not_applicable"

inductive Status where
  | pass | fail | incomplete
  deriving DecidableEq

def Status.name : Status → Text
  | .pass => "pass"
  | .fail => "fail"
  | .incomplete => "incomplete"

section readers

/-- `_string` -/
def readString (value : JsonValue) (path : String) : Result Text :=
  match value with
  | .str t => if t.codes.isEmpty then reject s!"{path} must be a non-empty string" else .ok t
  | _ => reject s!"{path} must be a non-empty string"

/-- A string that is one of a set of names. -/
def readMember {κ : Type} (name : κ → Text) (all : List κ) (value : JsonValue) (path : String) : Result κ := do
  let text ← readString value path
  match named? name all text with
  | some member => .ok member
  | none => reject s!"{path} is unsupported"

/-- An array that repeats nothing, which a set shows. -/
def readUnique (value : JsonValue) (path : String) : Result (List JsonValue) := do
  let items ← readArray value path
  let unique ← distinct items
  require unique s!"{path} must be unique"
  return items

/-- Names of a set, all of them supported; joining those that are not raises unless they are text. -/
def readSupported (supported : List Text) (value : JsonValue) (path : String) : Result (List Text) := do
  let items ← readUnique value path
  let unsupported := items.filter fun item => !supported.any fun name => item.isText name
  match unsupported.mapM JsonValue.text? with
  | none => .error (.builtin .typeError)
  | some [] => return items.filterMap JsonValue.text?
  | some names => reject s!"{path} contains unsupported values: {joinSorted names}"

def isTrue : JsonValue → Bool
  | .bool b => b
  | _ => false

def isFalse : JsonValue → Bool
  | .bool b => !b
  | _ => false

def isNull : JsonValue → Bool
  | .null => true
  | _ => false

def isOneOf (value : JsonValue) (names : List Text) : Bool := names.any fun name => value.isText name

/-- `_timestamp` -/
def readTimestamp (library : Library) (value : JsonValue) (path : String) : Result Int := do
  let text ← readString value path
  match library.fromisoformat ⟨text.codes.flatMap fun code => if code = 90 then ("+00:00" : Text).codes else [code]⟩ with
  | none => reject s!"{path} must be an RFC 3339 timestamp"
  | some none => reject s!"{path} must include a timezone"
  | some (some time) => .ok time

end readers

section secrets
variable (library : Library)

/-- A letter in either case; three letters have others that fold to them. -/
def folds (code letter : Nat) : Bool :=
  lowerCode code = letter || (letter = 105 && (code = 0x130 || code = 0x131)) || (letter = 115 && code = 0x17F) ||
    (letter = 107 && code = 0x212A)

/-- What comes after a word, in any case. -/
@[grind =] def afterFolded : Codes → Codes → Option Codes
  | [], rest => some rest
  | _ :: _, [] => none
  | letter :: letters, code :: codes => if folds code letter then afterFolded letters codes else none

/-- `[a-z0-9._~+/=-]`, in any case. -/
def isTokenMark (code : Nat) : Bool :=
  isLower (lowerCode code) || isDigit code || [46, 95, 126, 43, 47, 61, 45, 0x130, 0x131, 0x17F, 0x212A].contains code

/-- `\bbearer\s+[a-z0-9._~+/=-]+` -/
@[grind =] def hasBearer : Option Nat → Codes → Bool
  | _, [] => false
  | before, code :: rest =>
    ((before.all fun code => !library.isWord code) &&
      (afterFolded ("bearer" : Text).codes (code :: rest)).any fun tail =>
        !(tail.takeWhile library.isSpace).isEmpty && (tail.dropWhile library.isSpace).head?.any isTokenMark) ||
    hasBearer (some code) rest

/-- A line begins with the word. -/
def hasLine (word : Text) (codes : Codes) : Bool := (codes.splitOn 10).any fun line => (afterFolded word.codes line).isSome

/-- `-----BEGIN (?:[A-Z ]+ )?PRIVATE KEY-----` -/
def hasPrivateKey (codes : Codes) : Bool :=
  let ending := ("PRIVATE KEY-----" : Text).codes
  codes.tails.any fun start =>
    let opening := ("-----BEGIN " : Text).codes
    let rest := start.drop opening.length
    let run := rest.takeWhile fun code => decide (65 ≤ code ∧ code ≤ 90) || code = 32
    opening.isPrefixOf start && (ending.isPrefixOf rest ||
      (List.range run.length).any fun n => 1 ≤ n && run[n]? = some 32 && ending.isPrefixOf (rest.drop (n + 1)))

def appearsSecret (text : Text) : Bool :=
  hasBearer library none text.codes || hasLine "a=ice-pwd:" text.codes || hasLine "authorization:" text.codes ||
    hasPrivateKey text.codes

def isSecretKey (key : Text) : Bool := secretKeys.contains ⟨(library.lower key).codes.filter isLower⟩

mutual
/-- `_scan_for_secrets` -/
def scanForSecrets (value : JsonValue) (path : String) : Result Unit :=
  match value with
  | .dict entries => scanEntries entries path
  | .list items => scanItems items 0 path
  | .str text => require (!appearsSecret library text) s!"{path} appears to contain secret material"
  | _ => .ok ()

@[grind =] def scanEntries (entries : List (Text × JsonValue)) (path : String) : Result Unit :=
  match entries with
  | [] => .ok ()
  | (key, item) :: rest => do
    require (!isSecretKey library key) s!"{path}.{key.render} is a forbidden secret-bearing field"
    scanForSecrets item s!"{path}.{key.render}"
    scanEntries rest path

@[grind =] def scanItems (items : List JsonValue) (index : Nat) (path : String) : Result Unit :=
  match items with
  | [] => .ok ()
  | item :: rest => do
    scanForSecrets item s!"{path}[{index}]"
    scanItems rest (index + 1) path
end

end secrets

section scenario
variable (library : Library)

/-- `_validate_authorization` -/
def validateAuthorization (value : JsonValue) (executionClass : ExecutionClass) : Result Unit := do
  let authorization ← readObject value "$.authorization"
  exactKeys authorization "$.authorization" ["required", "approvalRef", "validFrom", "validUntil", "negativeTests"]
  let required ← readBoolean (authorization.find "required") "$.authorization.required"
  let _ ← readSupported negativeTests (authorization.find "negativeTests") "$.authorization.negativeTests"
  if executionClass = .approvedTarget then do
    require required "approved_target requires authorization.required=true"
    let _ ← readString (authorization.find "approvalRef") "$.authorization.approvalRef"
    let start ← readTimestamp library (authorization.find "validFrom") "$.authorization.validFrom"
    let finish ← readTimestamp library (authorization.find "validUntil") "$.authorization.validUntil"
    require (decide (start < finish)) "$.authorization.validUntil must follow validFrom"
  else
    require (!(required || ["approvalRef", "validFrom", "validUntil"].any fun key => !isNull (authorization.find key)))
      s!"{executionClass.name.render} must not carry a target authorization reference or window"

structure Destination where
  role : Role
  address : Text
  port : Nat
  transport : Transport
  deriving DecidableEq

def readDestination (executionClass : ExecutionClass) (value : JsonValue) (path : String) : Result Destination := do
  let destination ← readObject value path
  exactKeys destination path ["role", "address", "port", "transport"]
  let role ← readMember Role.name [.signaling, .stun, .turn, .media] (destination.find "role") s!"{path}.role"
  let text ← readString (destination.find "address") s!"{path}.address"
  let some address := ipAddress (.str text) | reject s!"{path}.address must be a literal IP address"
  let port ← readInteger (destination.find "port") s!"{path}.port" 1 65535
  let transport ←
    readMember Transport.name [.udp, .tcp, .tls, .wss] (destination.find "transport") s!"{path}.transport"
  require (!(role = .signaling && transport ≠ .wss)) s!"{path}: signaling requires wss transport"
  require (!(role = .media && transport ≠ .udp)) s!"{path}: media requires udp transport"
  require (!(executionClass = .offlineFixture && !address.isLoopback)) s!"{path}: offline fixtures are loopback-only"
  require (!(executionClass = .localLab && !(address.isLoopback || address.isPrivate || address.isLinkLocal)))
    s!"{path}: local_lab cannot name a public address"
  return ⟨role, address.text, port, transport⟩

@[grind =] def readDestinations (executionClass : ExecutionClass) : Nat → List Destination → List JsonValue → Result Unit
  | _, _, [] => .ok ()
  | index, seen, item :: rest => do
    let path := s!"$.destinations[{index}]"
    let destination ← readDestination executionClass item path
    require (!seen.contains destination) s!"{path} duplicates an earlier destination"
    readDestinations executionClass (index + 1) (destination :: seen) rest

/-- `_validate_destinations` -/
def validateDestinations (value : JsonValue) (executionClass : ExecutionClass) : Result Unit := do
  let items ← readArray value "$.destinations"
  require (!(executionClass = .approvedTarget && items.isEmpty))
    "approved_target requires at least one literal destination"
  readDestinations executionClass 0 [] items

/-- A provider's name, `://`, and up to 240 letters, digits, dots, dashes, underscores and slashes. -/
def credentialRefOk (codes : Codes) : Bool :=
  let isScheme (code : Nat) : Bool := isLower code || isDigit code || [43, 46, 45].contains code
  let rest := codes.dropWhile isScheme
  let target := rest.drop 3
  codes.head?.any isLower && ("://" : Text).codes.isPrefixOf rest &&
    decide (1 ≤ target.length ∧ target.length ≤ 240) && target.all fun code =>
      isLower (lowerCode code) || isDigit code || [46, 95, 47, 45].contains code

def readCredential (value : JsonValue) (path : String) : Result Text := do
  let reference ← readString value path
  require (credentialRefOk reference.codes) s!"{path} must be an external provider reference"
  require (!(["inline://", "data://"] : List Text).any fun start =>
      start.codes.isPrefixOf (reference.codes.map lowerCode))
    s!"{path} uses a forbidden inline provider"
  return reference

/-- `_validate_credentials` -/
def validateCredentials (value : JsonValue) : Result Unit := do
  let items ← readUnique value "$.credentialRefs"
  let _ ← readItems readCredential "$.credentialRefs" 0 items

/-- `_validate_limits` -/
def validateLimits (value : JsonValue) : Result Unit := do
  let limits ← readObject value "$.limits"
  exactKeys limits "$.limits" ["maxCalls", "maxConcurrency", "maxDurationSeconds", "maxSignalingMessages", "maxPackets",
    "maxBytes", "maxEvidenceBytes"]
  let field (name : String) (minimum maximum : Nat) : Result Nat := do
    return (← readInteger (limits.find name) s!"$.limits.{name}" minimum maximum).val
  let calls ← field "maxCalls" 1 4096
  let concurrency ← field "maxConcurrency" 1 4096
  let _ ← field "maxDurationSeconds" 1 3600
  let _ ← field "maxSignalingMessages" 1 100000
  let _ ← field "maxPackets" 1 10000000
  let _ ← field "maxBytes" 1 1073741824
  let _ ← field "maxEvidenceBytes" 1024 1073741824
  require (decide (concurrency ≤ calls)) "$.limits.maxConcurrency cannot exceed maxCalls"

/-- Each entry in the order of the document. -/
@[grind =] def readFlags : List (Text × JsonValue) → Result Unit
  | [] => .ok ()
  | (key, item) :: rest => do
    let _ ← readBoolean item s!"$.negotiation.{key.render}"
    readFlags rest

def validateNegotiation (value : JsonValue) (required : List Text) : Result Unit := do
  let negotiation ← readObject value "$.negotiation"
  exactKeys negotiation "$.negotiation" ["audioOnly", "trickleIce", "iceRestart", "requireRtcpMux", "requireBundle"]
  readFlags negotiation
  require (isTrue (negotiation.find "audioOnly")) "v1 supports audio-only scenarios"
  require (!(isTrue (negotiation.find "trickleIce") && !required.contains "trickle-ice"))
    "trickleIce requires the trickle-ice adapter capability"
  require (!(isTrue (negotiation.find "iceRestart") && !required.contains "ice-restart"))
    "iceRestart requires the ice-restart adapter capability"

def validateRetention (value : JsonValue) (executionClass : ExecutionClass) : Result Unit := do
  let evidence ← readObject value "$.evidence"
  exactKeys evidence "$.evidence" ["sensitivity", "retainRawAudio", "retainFullSdp"]
  require (isOneOf (evidence.find "sensitivity") ["internal", "restricted"]) "$.evidence.sensitivity is unsupported"
  require (isFalse (evidence.find "retainRawAudio")) "$.evidence.retainRawAudio must be false in v1"
  let full ← readBoolean (evidence.find "retainFullSdp") "$.evidence.retainFullSdp"
  require (!(executionClass = .approvedTarget && full)) "approved_target cannot retain full SDP in v1"

/-- What of a scenario is checked before the capabilities: its class, and the adapter. -/
def readHead (document : JsonValue) : Result (JsonDict × ExecutionClass × JsonDict) := do
  let scenario ← readObject document "$"
  exactKeys scenario "$" ["apiVersion", "kind", "metadata", "executionClass", "adapter", "authorization", "destinations",
    "credentialRefs", "limits", "negotiation", "evidence"]
  require ((scenario.find "apiVersion").isText scenarioVersion) "$.apiVersion is unsupported"
  require ((scenario.find "kind").isText "WebRTCScenario") "$.kind must be WebRTCScenario"
  let metadata ← readObject (scenario.find "metadata") "$.metadata"
  exactKeys metadata "$.metadata" ["name", "scenarioId"]
  let _ ← readString (metadata.find "name") "$.metadata.name"
  let _ ← readString (metadata.find "scenarioId") "$.metadata.scenarioId"
  let executionClass ←
    readMember ExecutionClass.name [.offlineFixture, .localLab, .approvedTarget] (scenario.find "executionClass")
      "$.executionClass"
  let adapter ← readObject (scenario.find "adapter") "$.adapter"
  exactKeys adapter "$.adapter" ["name", "capabilityVersion", "requiredCapabilities"]
  let _ ← readString (adapter.find "name") "$.adapter.name"
  let _ ← readString (adapter.find "capabilityVersion") "$.adapter.capabilityVersion"
  return (scenario, executionClass, adapter)

/-- `validate_scenario`, for the capabilities that the adapter advertises. -/
def validateScenario (document : JsonValue) (adapterCapabilities : List Text) : Result JsonDict := do
  let (scenario, executionClass, adapter) ← readHead document
  let required ← readSupported capabilities (adapter.find "requiredCapabilities") "$.adapter.requiredCapabilities"
  let missing := required.filter fun name => !adapterCapabilities.contains name
  require missing.isEmpty s!"adapter capability mismatch; missing: {joinSorted missing}"
  validateAuthorization library (scenario.find "authorization") executionClass
  validateDestinations (scenario.find "destinations") executionClass
  validateCredentials (scenario.find "credentialRefs")
  validateLimits (scenario.find "limits")
  validateNegotiation (scenario.find "negotiation") required
  validateRetention (scenario.find "evidence") executionClass
  scanForSecrets library document "$"
  return scenario

end scenario

section result
variable (library : Library)

structure Counts where
  assertions : Nat
  passed : Nat
  failed : Nat
  unknown : Nat
  notApplicable : Nat

/-- Each entry in the order of the document. -/
@[grind =] def readEachCount : List (Text × JsonValue) → Result (List (Text × Nat))
  | [] => .ok []
  | (key, value) :: rest => do
    let count ← readInteger value s!"$.summary.{key.render}" 0 100000
    return (key, count.val) :: (← readEachCount rest)

def readSummary (value : JsonValue) : Result Counts := do
  let summary ← readObject value "$.summary"
  exactKeys summary "$.summary" ["assertions", "passed", "failed", "unknown", "notApplicable"]
  let counts ← readEachCount summary
  let count (name : String) : Nat := (counts.lookup (Text.ofString name)).getD 0
  require (decide (count "assertions" =
      count "passed" + count "failed" + count "unknown" + count "notApplicable"))
    "$.summary assertion counts do not add up"
  return ⟨count "assertions", count "passed", count "failed", count "unknown", count "notApplicable"⟩

@[grind =] def readEvents : Nat → Int → List JsonValue → Result Unit
  | _, _, [] => .ok ()
  | index, lastSequence, item :: rest => do
    let path := s!"$.events[{index}]"
    let event ← readObject item path
    exactKeys event path ["sequence", "source", "kind", "sensitivity", "data"]
    let sequence ← readInteger (event.find "sequence") s!"{path}.sequence" 0 1000000000
    require (decide (lastSequence < (sequence.val : Int))) "$.events sequences must be strictly increasing"
    let _ ← readString (event.find "source") s!"{path}.source"
    let _ ← readString (event.find "kind") s!"{path}.kind"
    require (isOneOf (event.find "sensitivity") ["public", "internal", "restricted"]) s!"{path}.sensitivity is unsupported"
    let _ ← readObject (event.find "data") s!"{path}.data"
    readEvents (index + 1) sequence.val rest

structure Assertion where
  verdict : Verdict
  evidenceRefs : List Text

/-- A reason is looked up in a set where the verdict is unknown, and is null elsewhere. -/
def checkReason (verdict : Verdict) (reason : JsonValue) (path : String) : Result Unit :=
  if verdict = .unknown then do
    require (← reason.inSet unknownReasons) s!"{path}.unknownReason is required and unsupported"
  else require (isNull reason) s!"{path}.unknownReason must be null unless verdict is unknown"

def readAssertion (item : JsonValue) (path : String) : Result Assertion := do
  let assertion ← readObject item path
  exactKeys assertion path ["id", "verdict", "unknownReason", "evidenceRefs"]
  let _ ← readString (assertion.find "id") s!"{path}.id"
  let verdict ←
    readMember Verdict.name [.pass, .fail, .unknown, .notApplicable] (assertion.find "verdict") s!"{path}.verdict"
  checkReason verdict (assertion.find "unknownReason") path
  let items ← readUnique (assertion.find "evidenceRefs") s!"{path}.evidenceRefs"
  let refs ← readItems readString s!"{path}.evidenceRefs" 0 items
  return ⟨verdict, refs⟩

/-- The counts of the summary are those of the assertions, and fit the status. -/
def checkCounts (counts : Counts) (status : Status) (assertions : List Assertion) : Result Unit := do
  let observed (verdict : Verdict) : Nat := assertions.countP fun assertion => assertion.verdict = verdict
  require (decide (observed .pass = counts.passed ∧ observed .fail = counts.failed ∧
      observed .unknown = counts.unknown ∧ observed .notApplicable = counts.notApplicable))
    "$.summary verdict counts do not match $.assertions"
  require (!(status = .pass && (counts.failed ≠ 0 || counts.unknown ≠ 0)))
    "pass status cannot contain fail or unknown assertions"
  require (!(status = .fail && counts.failed = 0)) "fail status requires at least one failed assertion"
  require (!(status = .incomplete && counts.unknown = 0))
    "incomplete status requires at least one unknown assertion"

/-- The artifacts' identifiers, none of them twice. -/
@[grind =] def readArtifacts : Nat → List Text → List JsonValue → Result (List Text)
  | _, ids, [] => .ok ids
  | index, ids, item :: rest => do
    let path := s!"$.evidence[{index}]"
    let artifact ← readObject item path
    exactKeys artifact path ["artifactId", "sha256", "mediaType", "sensitivity"]
    let id ← readString (artifact.find "artifactId") s!"{path}.artifactId"
    require (!ids.contains id) s!"{path}.artifactId must be unique"
    let digest ← readString (artifact.find "sha256") s!"{path}.sha256"
    require (sha256Ok digest) s!"{path}.sha256 must be lowercase hexadecimal"
    let _ ← readString (artifact.find "mediaType") s!"{path}.mediaType"
    require (isOneOf (artifact.find "sensitivity") ["public", "internal", "restricted"])
      s!"{path}.sensitivity is unsupported"
    readArtifacts (index + 1) (ids ++ [id]) rest

def validateRedactions (value : JsonValue) : Result Unit := do
  let redactions ← readObject value "$.redactions"
  exactKeys redactions "$.redactions" ["count", "classes"]
  let _ ← readInteger (redactions.find "count") "$.redactions.count" 0 1000000
  let classes ← readUnique (redactions.find "classes") "$.redactions.classes"
  let _ ← readItems readString "$.redactions.classes" 0 classes

/-- What of a result is checked before its assertions. -/
def readPrologue (document : JsonValue) : Result (JsonDict × Status × Counts × List JsonValue) := do
  let result ← readObject document "$"
  exactKeys result "$" ["apiVersion", "kind", "scenarioId", "status", "networkActivity", "summary", "events",
    "assertions", "evidence", "redactions"]
  require ((result.find "apiVersion").isText resultVersion) "$.apiVersion is unsupported"
  require ((result.find "kind").isText "WebRTCResult") "$.kind must be WebRTCResult"
  let _ ← readString (result.find "scenarioId") "$.scenarioId"
  let status ← readMember Status.name [.pass, .fail, .incomplete] (result.find "status") "$.status"
  let _ ← readBoolean (result.find "networkActivity") "$.networkActivity"
  let counts ← readSummary (result.find "summary")
  let events ← readArray (result.find "events") "$.events"
  require (decide (events.length ≤ 100000)) "$.events exceeds 100000 entries"
  readEvents 0 (-1) events
  let assertions ← readArray (result.find "assertions") "$.assertions"
  require (decide (assertions.length = counts.assertions)) "$.summary.assertions does not match $.assertions"
  return (result, status, counts, assertions)

def checkEvidence (value : JsonValue) (assertions : List Assertion) : Result Unit := do
  let evidence ← readArray value "$.evidence"
  let ids ← readArtifacts 0 [] evidence
  let missing := (assertions.flatMap Assertion.evidenceRefs).filter fun ref => !ids.contains ref
  require missing.isEmpty s!"assertions reference unknown evidence: {joinSorted missing}"

def validateResult (document : JsonValue) : Result JsonDict := do
  let (result, status, counts, items) ← readPrologue document
  let assertions ← readItems readAssertion "$.assertions" 0 items
  checkCounts counts status assertions
  checkEvidence (result.find "evidence") assertions
  validateRedactions (result.find "redactions")
  scanForSecrets library document "$"
  return result

end result

end Sippycup.Webrtc.Contracts
