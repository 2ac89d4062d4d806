import Sippycup.Ip.Block
import Sippycup.Python.JsonEq
import Sippycup.Webrtc.Fields

/-! Policies and observations of ICE and TURN evidence, and the oracle over them: candidates,
server contacts, pairs and consent, TURN credentials, allocations, peers and traffic. -/
namespace Sippycup.Webrtc.IceTurn
open Sippycup.Python Sippycup.Ip

structure OracleError where
  message : String
  deriving DecidableEq

instance : Rejects OracleError := ⟨OracleError.mk⟩

abbrev Result := Except (Raised OracleError)

def policyVersion : Text := "sippycup.dev/ice-turn-policy/v1"
def observationVersion : Text := "sippycup.dev/ice-turn-observation/v1"
def reportVersion : Text := "sippycup.dev/ice-turn-report/v1"

inductive CandidateType where
  | host | srflx | prflx | relay
  deriving DecidableEq

def CandidateType.name : CandidateType → Text
  | .host => "host"
  | .srflx => "srflx"
  | .prflx => "prflx"
  | .relay => "relay"

def candidateTypes : List CandidateType := [.host, .srflx, .prflx, .relay]

inductive AddressClass where
  | privateAddress | publicAddress | mdns | redacted
  deriving DecidableEq

def AddressClass.name : AddressClass → Text
  | .privateAddress => "private"
  | .publicAddress => "public"
  | .mdns => "mdns"
  | .redacted => "redacted"

inductive ServerRole where
  | stun | turn
  deriving DecidableEq

def ServerRole.name : ServerRole → Text
  | .stun => "stun"
  | .turn => "turn"

inductive Transport where
  | udp | tcp | tls
  deriving DecidableEq

def Transport.name : Transport → Text
  | .udp => "udp"
  | .tcp => "tcp"
  | .tls => "tls"

def transports : List Transport := [.udp, .tcp, .tls]

inductive Mechanism where
  | longTerm | rest | anonymous
  deriving DecidableEq

def Mechanism.name : Mechanism → Text
  | .longTerm => "long-term"
  | .rest => "rest"
  | .anonymous => "anonymous"

inductive Mode where
  | indication | channel
  deriving DecidableEq

def Mode.name : Mode → Text
  | .indication => "indication"
  | .channel => "channel"

inductive Domain where
  | peer | server | network | unknown
  deriving DecidableEq

def Domain.name : Domain → Text
  | .peer => "peer"
  | .server => "server"
  | .network => "network"
  | .unknown => "unknown"

/-- `ipaddress.ip_address`; nothing else that JSON holds has the text of an address. -/
def addressOf : JsonValue → Option Address
  | .str t => ipAddress (.str t)
  | .int n => ipAddress (.int n)
  | .bool b => ipAddress (.bool b)
  | _ => none

def single : Address → Option Network
  | .v4 ip => (Block.of? ip 32).map .v4
  | .v6 ip scope => (Block.of? ip 128).map fun block => .v6 block scope

/-- `ipaddress.ip_network(item, strict=True)` -/
def networkOf : JsonValue → Option Network
  | .str t => (ipNetwork t).toOption
  | .int n => (ipAddress (.int n)).bind single
  | .bool b => (ipAddress (.bool b)).bind single
  | _ => none

/-- A server's role, compressed address, port and transport. -/
structure Server where
  role : ServerRole
  address : Text
  port : Nat
  transport : Transport
  deriving DecidableEq

section policy

structure CandidatePolicy where
  allowedTypes : List CandidateType
  allowAddressExposure : Bool
  requireMdnsForPrivateHost : Bool

structure IcePolicy where
  requireNomination : Bool
  requireConsentFreshness : Bool
  maxConsentGapMs : Nat
  requireRestartCredentialChange : Bool

structure TurnPolicy where
  requireLongTermCredentials : Bool
  maxCredentialLifetimeSeconds : Nat
  maxAllocationLifetimeSeconds : Nat
  allowedTransports : List Transport
  maxAmplificationRatio : Number
  requirePermissionBeforeData : Bool
  requireChannelBindingForChannelData : Bool

structure Limits where
  maxEvents : Nat
  maxPackets : Nat
  maxBytes : Nat
  maxDurationMs : Nat

structure Policy where
  candidatePolicy : CandidatePolicy
  approvedServers : List Server
  approvedPeerNetworks : List Network
  ice : IcePolicy
  turn : TurnPolicy
  limits : Limits

/-- A list of names that is not empty and repeats none. -/
def readChosen {κ : Type} (name : κ → Text) (all : List κ) (value : JsonValue) (path : String) :
    Result (List κ) := do
  let items ← readArray value path
  let unique ← distinct items
  require (!items.isEmpty && unique) s!"{path} must be non-empty and unique"
  readItems (readEnum name all) path 0 items

def readCandidatePolicy (value : JsonValue) : Result CandidatePolicy := do
  let candidates ← readObject value "$.candidatePolicy"
  exactKeys candidates "$.candidatePolicy" ["allowedTypes", "allowAddressExposure", "requireMdnsForPrivateHost"]
  return {
    allowedTypes :=
      ← readChosen CandidateType.name candidateTypes (candidates.find "allowedTypes") "$.candidatePolicy.allowedTypes"
    allowAddressExposure :=
      ← readBoolean (candidates.find "allowAddressExposure") "$.candidatePolicy.allowAddressExposure"
    requireMdnsForPrivateHost :=
      ← readBoolean (candidates.find "requireMdnsForPrivateHost") "$.candidatePolicy.requireMdnsForPrivateHost" }

def readServer (value : JsonValue) (path : String) : Result Server := do
  let server ← readObject value path
  exactKeys server path ["role", "address", "port", "transport"]
  let role ← readEnum ServerRole.name [.stun, .turn] (server.find "role") s!"{path}.role"
  let some address := addressOf (server.find "address") | reject s!"{path}.address must be a literal unicast IP"
  require (!address.isMulticast && !address.isUnspecified) s!"{path}.address must be a literal unicast IP"
  let port ← readInteger (server.find "port") s!"{path}.port" 1 65535
  let transport ← readEnum Transport.name transports (server.find "transport") s!"{path}.transport"
  return ⟨role, address.text, port.val, transport⟩

/-- Servers in turn, none of them twice. -/
@[grind =] def readServers : Nat → List Server → List JsonValue → Result (List Server)
  | _, seen, [] => .ok seen
  | index, seen, item :: rest => do
    let path := s!"$.approvedServers[{index}]"
    let server ← readServer item path
    require (!seen.contains server) s!"{path} duplicates an approved server"
    readServers (index + 1) (seen ++ [server]) rest

def readNetwork (value : JsonValue) (path : String) : Result Network :=
  match networkOf value with
  | some network => .ok network
  | none => reject s!"{path} must be a canonical CIDR"

def readIcePolicy (value : JsonValue) : Result IcePolicy := do
  let ice ← readObject value "$.ice"
  exactKeys ice "$.ice" ["requireNomination", "requireConsentFreshness", "maxConsentGapMs",
    "requireRestartCredentialChange"]
  let flag (name : String) : Result Bool := readBoolean (ice.find name) s!"$.ice.{name}"
  return {
    requireNomination := ← flag "requireNomination"
    requireConsentFreshness := ← flag "requireConsentFreshness"
    maxConsentGapMs := (← readInteger (ice.find "maxConsentGapMs") "$.ice.maxConsentGapMs" 100 60000).val
    requireRestartCredentialChange := ← flag "requireRestartCredentialChange" }

/-- A number within bounds, as the document has it. -/
def readNumber (value : JsonValue) (path : String) (minimum maximum : Nat) : Result Number :=
  let within (number : Number) : Result Number :=
    match number.toDouble? with
    | none => .error (.builtin .overflowError)
    | some d =>
      if (Number.int minimum).le (.float d) && (Number.float d).le (.int maximum) then .ok number
      else reject s!"{path} must be between {minimum}.0 and {maximum}.0"
  match value with
  | .int n => within (.int n)
  | .float x => within (.float x.double)
  | _ => reject s!"{path} must be a number"

def readTurnPolicy (value : JsonValue) : Result TurnPolicy := do
  let turn ← readObject value "$.turn"
  exactKeys turn "$.turn" ["requireLongTermCredentials", "maxCredentialLifetimeSeconds",
    "maxAllocationLifetimeSeconds", "allowedTransports", "maxAmplificationRatio",
    "requirePermissionBeforeData", "requireChannelBindingForChannelData"]
  let flag (name : String) : Result Bool := readBoolean (turn.find name) s!"$.turn.{name}"
  let lifetime (name : String) (maximum : Nat) : Result Nat := do
    return (← readInteger (turn.find name) s!"$.turn.{name}" 1 maximum).val
  return {
    requireLongTermCredentials := ← flag "requireLongTermCredentials"
    maxCredentialLifetimeSeconds := ← lifetime "maxCredentialLifetimeSeconds" 86400
    maxAllocationLifetimeSeconds := ← lifetime "maxAllocationLifetimeSeconds" 3600
    allowedTransports := ← readChosen Transport.name transports (turn.find "allowedTransports")
      "$.turn.allowedTransports"
    maxAmplificationRatio := ← readNumber (turn.find "maxAmplificationRatio") "$.turn.maxAmplificationRatio" 1 100
    requirePermissionBeforeData := ← flag "requirePermissionBeforeData"
    requireChannelBindingForChannelData := ← flag "requireChannelBindingForChannelData" }

def readLimits (value : JsonValue) : Result Limits := do
  let limits ← readObject value "$.limits"
  exactKeys limits "$.limits" ["maxEvents", "maxPackets", "maxBytes", "maxDurationMs"]
  let field (name : String) (maximum : Nat) : Result Nat := do
    return (← readInteger (limits.find name) s!"$.limits.{name}" 1 maximum).val
  return {
    maxEvents := ← field "maxEvents" 100000
    maxPackets := ← field "maxPackets" 10000000
    maxBytes := ← field "maxBytes" 1073741824
    maxDurationMs := ← field "maxDurationMs" 3600000 }

def readPeerNetworks (value : JsonValue) : Result (List Network) := do
  let items ← readArray value "$.approvedPeerNetworks"
  require (!items.isEmpty && decide (items.length ≤ 64)) "$.approvedPeerNetworks must contain 1 to 64 CIDRs"
  let networks ← readItems readNetwork "$.approvedPeerNetworks" 0 items
  require (decide (networks.map Network.text).Nodup) "$.approvedPeerNetworks must be unique"
  return networks

def validatePolicy (document : JsonValue) : Result Policy := do
  let policy ← readObject document "$"
  exactKeys policy "$" ["apiVersion", "candidatePolicy", "approvedServers", "approvedPeerNetworks", "ice", "turn",
    "limits"]
  require ((policy.find "apiVersion").isText policyVersion) "$.apiVersion is unsupported"
  let candidatePolicy ← readCandidatePolicy (policy.find "candidatePolicy")
  let servers ← readArray (policy.find "approvedServers") "$.approvedServers"
  require (decide (servers.length ≤ 32)) "$.approvedServers exceeds 32 entries"
  return {
    candidatePolicy
    approvedServers := ← readServers 0 [] servers
    approvedPeerNetworks := ← readPeerNetworks (policy.find "approvedPeerNetworks")
    ice := ← readIcePolicy (policy.find "ice")
    turn := ← readTurnPolicy (policy.find "turn")
    limits := ← readLimits (policy.find "limits") }

end policy

section observation

structure TurnData where
  peerAddress : Address
  mode : Mode
  bytesIn : Nat
  bytesOut : Nat
  permissionPresent : Bool
  channelBound : Bool

inductive Evidence where
  | candidate (candidateType : CandidateType) (addressClass : AddressClass) (exposed mdns : Bool)
  | serverContact (server : Server)
  | pairSelected (nominated : Bool) (localType remoteType : CandidateType)
  | consent (success : Bool)
  | iceRestart (oldUfragHash newUfragHash : Text)
  | turnCredential (mechanism : Mechanism) (lifetimeSeconds : Nat)
  | turnAllocation (lifetimeSeconds : Nat) (transport : Transport)
  | turnPermission (peerAddress : Address)
  | turnChannelBind (peerAddress : Address)
  | turnData (data : TurnData)
  | traffic (packets bytes : Nat)
  | cleanup (allocations sockets : Nat)
  | failure (domain : Domain) (code : Text)

structure Event where
  timeMs : Nat
  evidence : Evidence

structure Observation where
  networkActivity : Bool
  events : List Event

inductive EventKind where
  | candidate | serverContact | pairSelected | consent | iceRestart | turnCredential | turnAllocation
  | turnPermission | turnChannelBind | turnData | traffic | cleanup | failure
  deriving DecidableEq

def EventKind.name : EventKind → Text
  | .candidate => "candidate"
  | .serverContact => "server_contact"
  | .pairSelected => "pair_selected"
  | .consent => "consent"
  | .iceRestart => "ice_restart"
  | .turnCredential => "turn_credential"
  | .turnAllocation => "turn_allocation"
  | .turnPermission => "turn_permission"
  | .turnChannelBind => "turn_channel_bind"
  | .turnData => "turn_data"
  | .traffic => "traffic"
  | .cleanup => "cleanup"
  | .failure => "failure"

def eventKinds : List EventKind :=
  [.candidate, .serverContact, .pairSelected, .consent, .iceRestart, .turnCredential, .turnAllocation,
    .turnPermission, .turnChannelBind, .turnData, .traffic, .cleanup, .failure]

/-- `_EVENT_FIELDS` -/
def EventKind.fields : EventKind → List Text
  | .candidate => ["candidateType", "addressClass", "exposed", "mdns"]
  | .serverContact => ["role", "address", "port", "transport"]
  | .pairSelected => ["nominated", "localType", "remoteType"]
  | .consent => ["success"]
  | .iceRestart => ["oldUfragHash", "newUfragHash"]
  | .turnCredential => ["mechanism", "lifetimeSeconds"]
  | .turnAllocation => ["lifetimeSeconds", "transport"]
  | .turnPermission | .turnChannelBind => ["peerAddress"]
  | .turnData => ["peerAddress", "mode", "bytesIn", "bytesOut", "permissionPresent", "channelBound"]
  | .traffic => ["packets", "bytes"]
  | .cleanup => ["allocations", "sockets"]
  | .failure => ["domain", "code"]

def readAddress (value : JsonValue) (path : String) : Result Address :=
  match addressOf value with
  | some address => .ok address
  | none => reject s!"{path} must be a literal IP"

/-- `_validate_event_data` -/
def readEvidence (kind : EventKind) (data : JsonDict) (path : String) : Result Evidence := do
  let enum {κ : Type} (name : κ → Text) (allowed : List κ) (field : String) : Result κ :=
    readEnum name allowed (data.find field) s!"{path}.{field}"
  let boolean (field : String) : Result Bool := readBoolean (data.find field) s!"{path}.{field}"
  let integer (field : String) (minimum maximum : Nat) : Result Nat := do
    return (← readInteger (data.find field) s!"{path}.{field}" minimum maximum).val
  let address (field : String) : Result Address := readAddress (data.find field) s!"{path}.{field}"
  match kind with
  | .candidate =>
    return .candidate (← enum CandidateType.name candidateTypes "candidateType")
      (← enum AddressClass.name [.privateAddress, .publicAddress, .mdns, .redacted] "addressClass")
      (← boolean "exposed") (← boolean "mdns")
  | .serverContact => do
    let role ← enum ServerRole.name [.stun, .turn] "role"
    let contacted ← address "address"
    let port ← integer "port" 1 65535
    return .serverContact ⟨role, contacted.text, port, ← enum Transport.name transports "transport"⟩
  | .pairSelected =>
    return .pairSelected (← boolean "nominated") (← enum CandidateType.name candidateTypes "localType")
      (← enum CandidateType.name candidateTypes "remoteType")
  | .consent => return .consent (← boolean "success")
  | .iceRestart =>
    return .iceRestart (← readDigest (data.find "oldUfragHash") s!"{path}.oldUfragHash")
      (← readDigest (data.find "newUfragHash") s!"{path}.newUfragHash")
  | .turnCredential =>
    return .turnCredential (← enum Mechanism.name [.longTerm, .rest, .anonymous] "mechanism")
      (← integer "lifetimeSeconds" 0 604800)
  | .turnAllocation =>
    return .turnAllocation (← integer "lifetimeSeconds" 1 3600) (← enum Transport.name transports "transport")
  | .turnPermission => return .turnPermission (← address "peerAddress")
  | .turnChannelBind => return .turnChannelBind (← address "peerAddress")
  | .turnData =>
    return .turnData {
      peerAddress := ← address "peerAddress"
      mode := ← enum Mode.name [.indication, .channel] "mode"
      bytesIn := ← integer "bytesIn" 0 1073741824
      bytesOut := ← integer "bytesOut" 0 1073741824
      permissionPresent := ← boolean "permissionPresent"
      channelBound := ← boolean "channelBound" }
  | .traffic => return .traffic (← integer "packets" 0 10000000) (← integer "bytes" 0 1073741824)
  | .cleanup => return .cleanup (← integer "allocations" 0 100000) (← integer "sockets" 0 100000)
  | .failure =>
    return .failure (← enum Domain.name [.peer, .server, .network, .unknown] "domain")
      (← readBounded (data.find "code") s!"{path}.code" 128)

/-- Reads events in turn, none earlier than the one before it. -/
@[grind =] def readEvents : Nat → Nat → List JsonValue → Result (List Event)
  | _, _, [] => .ok []
  | index, lastTime, item :: rest => do
    let path := s!"$.events[{index}]"
    let event ← readObject item path
    exactKeys event path ["timeMs", "type", "data"]
    let time ← readInteger (event.find "timeMs") s!"{path}.timeMs" 0 3600000
    require (decide (lastTime ≤ time.val)) "$.events timeMs values must be nondecreasing"
    let kind ← readEnum EventKind.name eventKinds (event.find "type") s!"{path}.type"
    let data ← readObject (event.find "data") s!"{path}.data"
    exactKeys data s!"{path}.data" kind.fields
    let evidence ← readEvidence kind data s!"{path}.data"
    return ⟨time.val, evidence⟩ :: (← readEvents (index + 1) time.val rest)

def validateObservation (document : JsonValue) (maxEvents : Nat) : Result Observation := do
  let observation ← readObject document "$"
  exactKeys observation "$" ["apiVersion", "networkActivity", "events"]
  require ((observation.find "apiVersion").isText observationVersion) "$.apiVersion is unsupported"
  let activity ← readBoolean (observation.find "networkActivity") "$.networkActivity"
  let events ← readArray (observation.find "events") "$.events"
  require (decide (events.length ≤ maxEvents)) s!"$.events exceeds the policy limit of {maxEvents}"
  return ⟨activity, ← readEvents 0 0 events⟩

end observation

section evaluation

structure Finding where
  code : String
  event : Int
  detail : Text
  deriving DecidableEq

def failIf (bad : Bool) (code : String) (event : Int) (detail : Text) : List Finding :=
  if bad then [⟨code, event, detail⟩] else []

def natText (n : Nat) : Text := ⟨intCodes n⟩

/-- `repr(key)` of a server's tuple. -/
def Server.repr (server : Server) : Text :=
  ("(" : Text) ++ server.role.name.repr ++ (", " : Text) ++ server.address.repr ++ (", " : Text) ++
    natText server.port ++ (", " : Text) ++ server.transport.name.repr ++ (")" : Text)

/-- `bytesOut / bytesIn` -/
def TurnData.ratio (data : TurnData) : Double := roundDouble (data.bytesOut / data.bytesIn)

/-- `f"{ratio:.3f}"` of a number that is not negative. -/
def threePlaces : Double → Text
  | .finite q =>
    let thousandths := roundHalfEven (q.num.natAbs * 1000) q.den
    natText (thousandths / 1000) ++ ("." : Text) ++ ⟨(renderNumeral 10 (1000 + thousandths % 1000)).drop 1⟩
  | .infinite _ => "inf"
  | .nan => "nan"

namespace Policy
variable (policy : Policy)

def candidateFindings (index : Nat) (candidateType : CandidateType) (addressClass : AddressClass)
    (exposed mdns : Bool) : List Finding :=
  failIf (!policy.candidatePolicy.allowedTypes.contains candidateType) "ice.candidate_type_disallowed" index
      candidateType.name ++
    failIf (exposed && !policy.candidatePolicy.allowAddressExposure) "ice.candidate_address_exposed" index
      addressClass.name ++
    failIf (candidateType = .host && addressClass = .privateAddress &&
        policy.candidatePolicy.requireMdnsForPrivateHost && !mdns)
      "ice.private_host_without_mdns" index "private host candidate"

def peerFindings (index : Nat) (address : Address) : List Finding :=
  failIf (!policy.approvedPeerNetworks.any fun network => network.contains address) "turn.peer_outside_scope" index
    address.text

def amplificationFindings (index : Nat) (data : TurnData) : List Finding :=
  if data.bytesIn = 0 then failIf (0 < data.bytesOut) "turn.unbounded_amplification" index "zero input bytes"
  else failIf (policy.turn.maxAmplificationRatio.lt (.float data.ratio)) "turn.amplification_ratio_exceeded" index
    (threePlaces data.ratio)

/-- What one event is found to break. -/
def eventFindings (index : Nat) : Evidence → List Finding
  | .candidate candidateType addressClass exposed mdns =>
    policy.candidateFindings index candidateType addressClass exposed mdns
  | .serverContact server =>
    failIf (!policy.approvedServers.contains server) "ice.unapproved_server_contact" index server.repr
  | .pairSelected nominated _ _ =>
    failIf (policy.ice.requireNomination && !nominated) "ice.pair_not_nominated" index
      "selected pair was not nominated"
  | .consent success => failIf (!success) "ice.consent_failed" index "consent check failed"
  | .iceRestart oldHash newHash =>
    failIf (policy.ice.requireRestartCredentialChange && oldHash = newHash) "ice.restart_reused_credentials" index
      "ufrag hash did not change"
  | .turnCredential mechanism lifetime =>
    failIf (policy.turn.requireLongTermCredentials && mechanism = .anonymous) "turn.anonymous_credentials" index
        "anonymous TURN access" ++
      failIf (policy.turn.maxCredentialLifetimeSeconds < lifetime) "turn.credential_lifetime_exceeded" index
        (natText lifetime)
  | .turnAllocation lifetime transport =>
    failIf (!policy.turn.allowedTransports.contains transport) "turn.transport_disallowed" index transport.name ++
      failIf (policy.turn.maxAllocationLifetimeSeconds < lifetime) "turn.allocation_lifetime_exceeded" index
        (natText lifetime)
  | .turnPermission address | .turnChannelBind address => policy.peerFindings index address
  | .turnData data =>
    policy.peerFindings index data.peerAddress ++
      failIf (policy.turn.requirePermissionBeforeData && !data.permissionPresent) "turn.data_without_permission" index
        data.mode.name ++
      failIf (data.mode = .channel && policy.turn.requireChannelBindingForChannelData && !data.channelBound)
        "turn.channel_data_without_binding" index "channel" ++
      policy.amplificationFindings index data
  | .traffic _ _ => []
  | .cleanup allocations sockets =>
    failIf (allocations ≠ 0 || sockets ≠ 0) "ice.cleanup_incomplete" index
      (("allocations=" : Text) ++ natText allocations ++ (" sockets=" : Text) ++ natText sockets)
  | .failure _ _ => []

end Policy

/-- Where the evaluation stands between two events. -/
structure Ledger where
  findings : List Finding
  consentTimes : List Nat
  pairSeen : Bool
  cleanupSeen : Bool
  turnSeen : Bool
  totalPackets : Nat
  totalBytes : Nat
  failureDomains : List Domain

def Ledger.start : Ledger := ⟨[], [], false, false, false, 0, 0, []⟩

/-- The flags and totals after an event. -/
def Ledger.note (ledger : Ledger) (event : Event) : Ledger :=
  match event.evidence with
  | .pairSelected _ _ _ => { ledger with pairSeen := true }
  | .consent success =>
    if success then { ledger with consentTimes := ledger.consentTimes ++ [event.timeMs] } else ledger
  | .turnCredential _ _ | .turnAllocation _ _ | .turnPermission _ | .turnChannelBind _ | .turnData _ =>
    { ledger with turnSeen := true }
  | .traffic packets bytes =>
    { ledger with totalPackets := ledger.totalPackets + packets, totalBytes := ledger.totalBytes + bytes }
  | .cleanup _ _ => { ledger with cleanupSeen := true }
  | .failure domain _ => { ledger with failureDomains := ledger.failureDomains.insert domain }
  | _ => ledger

def Policy.step (policy : Policy) (ledger : Ledger) (index : Nat) (event : Event) : Ledger :=
  { ledger.note event with findings := ledger.findings ++ policy.eventFindings index event.evidence }

def Policy.follow (policy : Policy) (ledger : Ledger) : Nat → List Event → Ledger
  | _, [] => ledger
  | index, event :: rest => policy.follow (policy.step ledger index event) (index + 1) rest

def Evidence.isAllocation : Evidence → Bool
  | .turnAllocation _ _ => true
  | _ => false

inductive Unknown where
  | selectedPairNotObserved | cleanupNotObserved | consentNotObserved | allocationNotObserved
  deriving DecidableEq

def unknownIf (missing : Bool) (unknown : Unknown) : List Unknown := if missing then [unknown] else []

inductive Status where
  | pass | fail | incomplete
  deriving DecidableEq

/-- Gaps between two consents after one another. -/
def gapFindings (maximum : Nat) (times : List Nat) : List Finding :=
  (times.zip times.tail).flatMap fun (left, right) =>
    failIf (maximum < right - left) "ice.consent_gap_exceeded" (-1) (natText (right - left))

def duration (events : List Event) : Nat := (events.getLast?.map Event.timeMs).getD 0

def Policy.limitFindings (policy : Policy) (ledger : Ledger) (events : List Event) : List Finding :=
  failIf (policy.limits.maxPackets < ledger.totalPackets) "limits.packet_ceiling_exceeded" (-1)
      (natText ledger.totalPackets) ++
    failIf (policy.limits.maxBytes < ledger.totalBytes) "limits.byte_ceiling_exceeded" (-1)
      (natText ledger.totalBytes) ++
    failIf (policy.limits.maxDurationMs < duration events) "limits.duration_ceiling_exceeded" (-1)
      (natText (duration events))

def Policy.findingsOf (policy : Policy) (ledger : Ledger) (events : List Event) : List Finding :=
  ledger.findings ++
    (if policy.ice.requireConsentFreshness then gapFindings policy.ice.maxConsentGapMs ledger.consentTimes else []) ++
    policy.limitFindings ledger events

def Policy.unknownsOf (policy : Policy) (ledger : Ledger) (events : List Event) : List Unknown :=
  unknownIf (!ledger.pairSeen) .selectedPairNotObserved ++ unknownIf (!ledger.cleanupSeen) .cleanupNotObserved ++
    unknownIf (policy.ice.requireConsentFreshness && ledger.consentTimes.isEmpty) .consentNotObserved ++
    unknownIf (ledger.turnSeen && !events.any fun event => event.evidence.isAllocation) .allocationNotObserved

/-- One domain by its name, several as `mixed`. -/
def failureDomain : List Domain → Option Text
  | [] => none
  | [domain] => some domain.name
  | _ => some "mixed"

structure Report where
  apiVersion : Text := reportVersion
  status : Status
  networkActivity : Bool := false
  observedNetworkActivity : Bool
  events : Nat
  packets : Nat
  bytes : Nat
  durationMs : Nat
  failureDomain : Option Text
  findings : List Finding
  unknowns : List Unknown
  deriving DecidableEq

def Policy.reportOf (policy : Policy) (observation : Observation) : Report :=
  let events := observation.events
  let ledger := policy.follow .start 0 events
  let findings := policy.findingsOf ledger events
  let unknowns := policy.unknownsOf ledger events
  { status := if !findings.isEmpty then .fail else if !unknowns.isEmpty then .incomplete else .pass
    observedNetworkActivity := observation.networkActivity
    events := events.length
    packets := ledger.totalPackets
    bytes := ledger.totalBytes
    durationMs := duration events
    failureDomain := failureDomain ledger.failureDomains
    findings
    unknowns }

def evaluate (policyDocument observationDocument : JsonValue) : Result Report := do
  let policy ← validatePolicy policyDocument
  let observation ← validateObservation observationDocument policy.limits.maxEvents
  return policy.reportOf observation

end evaluation

end Sippycup.Webrtc.IceTurn
