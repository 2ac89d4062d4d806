import Sippycup.Python.JsonValue

/-! Strict readers that the resilience documents share. Each returns a checked
value or raises with the name of what it read. -/
namespace Sippycup.Resilience
open Sippycup.Python

structure ResilienceError where
  message : String
  deriving DecidableEq

abbrev Result := Except ResilienceError

def resilienceError {α : Type} (message : String) : Result α := .error ⟨message⟩

def require (holds : Bool) (message : String) : Result Unit :=
  if holds then .ok () else resilienceError message

/-- Keys of a JSON object are always strings. -/
def requireMapping (value : JsonValue) (name : String) : Result JsonDict :=
  match value with
  | .dict entries => .ok entries
  | _ => resilienceError s!"{name} must be an object"

def exactKeys (value : JsonDict) (required : List Text) (name : String) : Result Unit := do
  let missing := required.filter fun key => !value.contains key
  let unknown := value.keys.filter fun key => !required.contains key
  require missing.isEmpty s!"{name} is missing {joinSorted missing}"
  require unknown.isEmpty s!"{name} has unsupported fields: {joinSorted unknown}"

def boundedInt (value : JsonValue) (name : String) (minimum maximum : Int) : Result Int :=
  let message := s!"{name} must be an integer in {minimum}..{maximum}"
  match value with
  | .int n => if minimum ≤ n ∧ n ≤ maximum then .ok n else resilienceError message
  | _ => resilienceError message

def nonemptyString (value : JsonValue) (name : String) (maximum : Nat) : Result Text :=
  let message := s!"{name} must be a non-empty string of at most {maximum} characters"
  match value with
  | .str t => if t.length = 0 ∨ maximum < t.length then resilienceError message else .ok t
  | _ => resilienceError message

def boolean (value : JsonValue) (name : String) : Result Bool :=
  match value with
  | .bool b => .ok b
  | _ => resilienceError s!"{name} must be a boolean"

end Sippycup.Resilience

/-! Migration of an RTP stream between tuples: which packets an observer may
accept, and which of them may move the reply destination. -/
namespace Sippycup.Resilience
open Sippycup.Python Sippycup.Ip

inductive Mode where
  | strict
  | symmetricRtp
  | ice
  deriving DecidableEq

def Mode.name : Mode → String
  | .strict => "strict"
  | .symmetricRtp => "symmetric-rtp"
  | .ice => "ice"

def modes : List Mode := [.strict, .symmetricRtp, .ice]

def maxPackets : Nat := 1000000

/-- An address, as `str` writes it, and a port. -/
structure Endpoint where
  address : Text
  port : Int
  deriving DecidableEq

structure MigrationPolicy where
  mode : Mode
  initialTuple : Endpoint
  ssrc : Int
  allowAuthenticatedRebinding : Bool
  requireAuthentication : Bool

structure Packet where
  source : Endpoint
  ssrc : Int
  authenticated : Bool
  consentFresh : Bool
  afterTeardown : Bool
  deriving DecidableEq

inductive Finding where
  | packetAfterTeardown (packet : Nat)
  | packetAuthenticationFailed (packet : Nat)
  | ssrcCollision (packet : Nat)
  | iceConsentExpired (packet : Nat)
  | unauthorizedTuple (packet : Nat) (source : Endpoint)
  deriving DecidableEq

def Finding.code : Finding → String
  | packetAfterTeardown _ => "packet_after_teardown"
  | packetAuthenticationFailed _ => "packet_authentication_failed"
  | ssrcCollision _ => "ssrc_collision"
  | iceConsentExpired _ => "ice_consent_expired"
  | unauthorizedTuple _ _ => "unauthorized_tuple"

def Finding.packet : Finding → Nat
  | packetAfterTeardown index | packetAuthenticationFailed index | ssrcCollision index
  | iceConsentExpired index | unauthorizedTuple index _ => index

structure Migration where
  packet : Nat
  source : Endpoint
  target : Endpoint
  deriving DecidableEq

section readers

/-- `_tuple` -/
def readTuple (value : JsonValue) (name : String) : Result Endpoint := do
  let item ← requireMapping value name
  exactKeys item ["address", "port"] name
  let address ← nonemptyString (item.find "address") s!"{name}.address" 64
  match parseAddress address.codes with
  | none => resilienceError s!"{name}.address must be an IP literal"
  | some parsed =>
    require (!(parsed.isMulticast || parsed.isUnspecified)) s!"{name}.address must be specific unicast"
    return { address := parsed.text, port := ← boundedInt (item.find "port") s!"{name}.port" 1024 65535 }

def readMode (value : JsonValue) : Result Mode :=
  match modes.find? fun mode => value.isText mode.name with
  | some mode => .ok mode
  | none => resilienceError ("mode must be one of " ++ ", ".intercalate (modes.map Mode.name))

def readPolicy (value : JsonValue) : Result MigrationPolicy := do
  let policy ← requireMapping value "migration policy"
  exactKeys policy ["mode", "initialTuple", "ssrc", "allowAuthenticatedRebinding",
    "requireAuthentication"] "migration policy"
  return {
    mode := ← readMode (policy.find "mode")
    initialTuple := ← readTuple (policy.find "initialTuple") "initialTuple"
    ssrc := ← boundedInt (policy.find "ssrc") "ssrc" 1 0xFFFFFFFF
    allowAuthenticatedRebinding :=
      ← boolean (policy.find "allowAuthenticatedRebinding") "allowAuthenticatedRebinding"
    requireAuthentication := ← boolean (policy.find "requireAuthentication") "requireAuthentication" }

def readPacket (index : Nat) (value : JsonValue) : Result Packet := do
  let name := s!"packets[{index}]"
  let packet ← requireMapping value name
  exactKeys packet ["source", "ssrc", "authenticated", "consentFresh", "afterTeardown"] name
  return {
    source := ← readTuple (packet.find "source") (name ++ ".source")
    ssrc := ← boundedInt (packet.find "ssrc") "ssrc" 1 0xFFFFFFFF
    authenticated := ← boolean (packet.find "authenticated") "authenticated"
    consentFresh := ← boolean (packet.find "consentFresh") "consentFresh"
    afterTeardown := ← boolean (packet.find "afterTeardown") "afterTeardown" }

end readers

structure Analysis where
  active : Endpoint
  accepted : Nat
  migrations : List Migration
  findings : List Finding

namespace MigrationPolicy
variable (policy : MigrationPolicy)

def start : Analysis := { active := policy.initialTuple, accepted := 0, migrations := [], findings := [] }

def canMove (packet : Packet) : Bool :=
  decide (policy.mode ≠ .strict) && policy.allowAuthenticatedRebinding && packet.authenticated &&
    (decide (policy.mode ≠ .ice) || packet.consentFresh)

def reject (finding : Finding) (analysis : Analysis) : Analysis :=
  { analysis with findings := analysis.findings ++ [finding] }

/-- What one packet makes of the analysis. -/
def step (analysis : Analysis) (index : Nat) (packet : Packet) : Analysis :=
  if packet.afterTeardown then reject (.packetAfterTeardown index) analysis
  else if policy.requireAuthentication && !packet.authenticated then
    reject (.packetAuthenticationFailed index) analysis
  else if packet.ssrc ≠ policy.ssrc then reject (.ssrcCollision index) analysis
  else if packet.source = analysis.active then
    if policy.mode = .ice ∧ packet.consentFresh = false then
      reject (.iceConsentExpired index) analysis
    else { analysis with accepted := analysis.accepted + 1 }
  else if !policy.canMove packet then reject (.unauthorizedTuple index packet.source) analysis
  else
    { analysis with
      migrations := analysis.migrations ++ [⟨index, analysis.active, packet.source⟩]
      active := packet.source
      accepted := analysis.accepted + 1 }

/-- Reads and follows the packets in turn, from an index on. -/
def analyzeFrom (analysis : Analysis) : Nat → List JsonValue → Result Analysis
  | _, [] => .ok analysis
  | index, raw :: rest => do
    let packet ← readPacket index raw
    analyzeFrom (policy.step analysis index packet) (index + 1) rest

end MigrationPolicy

structure MigrationReport where
  passed : Bool
  acceptedPackets : Nat
  rejectedPackets : Int
  migrations : List Migration
  activeTuple : Endpoint
  findings : List Finding
  deriving DecidableEq

def analyzeMigration (policyValue packetsValue : JsonValue) : Result MigrationReport := do
  let policy ← readPolicy policyValue
  match packetsValue with
  | .list [] => resilienceError "packets must be a non-empty array"
  | .list packets =>
    require (decide (packets.length ≤ maxPackets)) s!"packets exceed {maxPackets}"
    let analysis ← policy.analyzeFrom policy.start 0 packets
    return {
      passed := analysis.findings.isEmpty
      acceptedPackets := analysis.accepted
      rejectedPackets := packets.length - analysis.accepted
      migrations := analysis.migrations
      activeTuple := analysis.active
      findings := analysis.findings }
  | _ => resilienceError "packets must be a non-empty array"

end Sippycup.Resilience
