import Sippycup.Webrtc.Fields

/-! Policies and observations of DTLS-SRTP evidence: handshakes, key contexts,
packets, rekeys and restarts, in the order they were seen. -/
namespace Sippycup.Webrtc.DtlsSrtp
open Sippycup.Python

structure MediaSecurityError where
  message : String
  deriving DecidableEq

instance : Rejects MediaSecurityError := ⟨MediaSecurityError.mk⟩

abbrev Result := Except (Raised MediaSecurityError)

def policyVersion : Text := "sippycup.dev/dtls-srtp-policy/v1"
def observationVersion : Text := "sippycup.dev/dtls-srtp-observation/v1"
def reportVersion : Text := "sippycup.dev/dtls-srtp-report/v1"

inductive Side where
  | localSide | remote
  deriving DecidableEq

def Side.name : Side → Text
  | .localSide => "local"
  | .remote => "remote"

def sides : List Side := [.localSide, .remote]

inductive Role where
  | client | server
  deriving DecidableEq

def Role.name : Role → Text
  | .client => "client"
  | .server => "server"

inductive Version where
  | dtls10 | dtls12 | dtls13
  deriving DecidableEq

def Version.name : Version → Text
  | .dtls10 => "DTLS1.0"
  | .dtls12 => "DTLS1.2"
  | .dtls13 => "DTLS1.3"

def versions : List Version := [.dtls10, .dtls12, .dtls13]

inductive Direction where
  | outbound | inbound
  deriving DecidableEq

def Direction.name : Direction → Text
  | .outbound => "outbound"
  | .inbound => "inbound"

/-- The side that sends in a direction. -/
def Direction.sender : Direction → Side
  | .outbound => .localSide
  | .inbound => .remote

inductive ProbeOutcome where
  | rejected | connected | timeout
  deriving DecidableEq

def ProbeOutcome.name : ProbeOutcome → Text
  | .rejected => "rejected"
  | .connected => "connected"
  | .timeout => "timeout"

inductive RekeyReason where
  | iceRestart | renegotiation
  deriving DecidableEq

def RekeyReason.name : RekeyReason → Text
  | .iceRestart => "ice_restart"
  | .renegotiation => "renegotiation"

inductive Stage where
  | fingerprint | handshake | srtp | rtcp | rekey
  deriving DecidableEq

def Stage.name : Stage → Text
  | .fingerprint => "fingerprint"
  | .handshake => "handshake"
  | .srtp => "srtp"
  | .rtcp => "rtcp"
  | .rekey => "rekey"

inductive Closure where
  | closed | mediaBlocked | continued
  deriving DecidableEq

def Closure.name : Closure → Text
  | .closed => "closed"
  | .mediaBlocked => "media-blocked"
  | .continued => "continued"

/-- `_unique_tokens` -/
def uniqueTokens (value : JsonValue) (path : String) (maximum : Nat) : Result (List Text) := do
  let items ← readArray value path
  require (!items.isEmpty && decide (items.length ≤ maximum)) s!"{path} must contain 1 to {maximum} entries"
  readTokens items path

section policy

structure DtlsPolicy where
  allowedVersions : List Version
  allowedCiphers : List Text
  allowedRolePairs : List (Role × Role)
  requireVerifiedFingerprint : Bool
  requireDowngradeProbe : Bool

structure SrtpPolicy where
  allowedProfiles : List Text
  requireDistinctRtpRtcpKeys : Bool
  requireRtcpProtection : Bool
  requireRekeyOnIceRestart : Bool
  maxSequenceGap : Nat

structure Limits where
  maxEvents : Nat
  maxPackets : Nat
  maxSsrcs : Nat
  maxEpochs : Nat
  maxDurationMs : Nat

structure Policy where
  dtls : DtlsPolicy
  srtp : SrtpPolicy
  limits : Limits

def readRolePair (value : JsonValue) (path : String) : Result (Role × Role) := do
  let pair ← readObject value path
  exactKeys pair path ["local", "remote"]
  let first ← readEnum Role.name [.client, .server] (pair.find "local") s!"{path}.local"
  let second ← readEnum Role.name [.client, .server] (pair.find "remote") s!"{path}.remote"
  return (first, second)

def readDtlsPolicy (value : JsonValue) : Result DtlsPolicy := do
  let dtls ← readObject value "$.dtls"
  exactKeys dtls "$.dtls" ["allowedVersions", "allowedCiphers", "allowedRolePairs",
    "requireVerifiedFingerprint", "requireDowngradeProbe"]
  let tokens ← uniqueTokens (dtls.find "allowedVersions") "$.dtls.allowedVersions" 4
  let allowed ← readNamed Version.name [.dtls12, .dtls13] tokens
    "$.dtls.allowedVersions contains an unsupported value"
  let ciphers ← uniqueTokens (dtls.find "allowedCiphers") "$.dtls.allowedCiphers" 32
  let items ← readArray (dtls.find "allowedRolePairs") "$.dtls.allowedRolePairs"
  require (!items.isEmpty && decide (items.length ≤ 4))
    "$.dtls.allowedRolePairs must contain 1 to 4 pairs"
  let pairs ← readItems readRolePair "$.dtls.allowedRolePairs" 0 items
  require (decide pairs.Nodup) "$.dtls.allowedRolePairs must be unique"
  return {
    allowedVersions := allowed
    allowedCiphers := ciphers
    allowedRolePairs := pairs
    requireVerifiedFingerprint :=
      ← readBoolean (dtls.find "requireVerifiedFingerprint") "$.dtls.requireVerifiedFingerprint"
    requireDowngradeProbe :=
      ← readBoolean (dtls.find "requireDowngradeProbe") "$.dtls.requireDowngradeProbe" }

def readSrtpPolicy (value : JsonValue) : Result SrtpPolicy := do
  let srtp ← readObject value "$.srtp"
  exactKeys srtp "$.srtp" ["allowedProfiles", "requireDistinctRtpRtcpKeys", "requireRtcpProtection",
    "requireRekeyOnIceRestart", "maxSequenceGap"]
  let profiles ← uniqueTokens (srtp.find "allowedProfiles") "$.srtp.allowedProfiles" 16
  let flag (name : String) : Result Bool := readBoolean (srtp.find name) s!"$.srtp.{name}"
  return {
    allowedProfiles := profiles
    requireDistinctRtpRtcpKeys := ← flag "requireDistinctRtpRtcpKeys"
    requireRtcpProtection := ← flag "requireRtcpProtection"
    requireRekeyOnIceRestart := ← flag "requireRekeyOnIceRestart"
    maxSequenceGap := (← readInteger (srtp.find "maxSequenceGap") "$.srtp.maxSequenceGap" 1 65536).val }

def readLimits (value : JsonValue) : Result Limits := do
  let limits ← readObject value "$.limits"
  exactKeys limits "$.limits" ["maxEvents", "maxPackets", "maxSsrcs", "maxEpochs", "maxDurationMs"]
  let field (name : String) (maximum : Nat) : Result Nat := do
    return (← readInteger (limits.find name) s!"$.limits.{name}" 1 maximum).val
  return {
    maxEvents := ← field "maxEvents" 100000
    maxPackets := ← field "maxPackets" 10000000
    maxSsrcs := ← field "maxSsrcs" 4096
    maxEpochs := ← field "maxEpochs" 1024
    maxDurationMs := ← field "maxDurationMs" 3600000 }

def validatePolicy (document : JsonValue) : Result Policy := do
  let policy ← readObject document "$"
  exactKeys policy "$" ["apiVersion", "dtls", "srtp", "limits"]
  require ((policy.find "apiVersion").isText policyVersion) "$.apiVersion is unsupported"
  return {
    dtls := ← readDtlsPolicy (policy.find "dtls")
    srtp := ← readSrtpPolicy (policy.find "srtp")
    limits := ← readLimits (policy.find "limits") }

end policy

section observation

structure Handshake where
  side : Side
  role : Role
  version : Version
  cipher : Text
  sdpFingerprintHash : Text
  certificateFingerprintHash : Text
  verified : Bool

structure Context where
  side : Side
  profile : Text
  rtpKeyIdHash : Text
  rtcpKeyIdHash : Text
  epoch : Nat
  ssrc : Nat

/-- A packet with its rollover counter beside its 16-bit sequence number. -/
structure RtpPacket where
  direction : Direction
  ssrc : Nat
  sequence : Nat
  roc : Nat
  accepted : Bool
  replay : Bool
  authValid : Bool
  short : sequence ≤ 65535

structure RtcpPacket where
  direction : Direction
  ssrc : Nat
  index : Nat
  encrypted : Bool
  authValid : Bool
  accepted : Bool
  replay : Bool

structure Rekey where
  side : Side
  reason : RekeyReason
  oldEpoch : Nat
  newEpoch : Nat
  oldKeyIdHash : Text
  newKeyIdHash : Text

inductive Evidence where
  | dtlsHandshake (data : Handshake)
  | downgradeProbe (offeredVersion : Version) (outcome : ProbeOutcome) (reachedMedia : Bool)
  | srtpContext (data : Context)
  | rtpPacket (data : RtpPacket)
  | rtcpPacket (data : RtcpPacket)
  | rekey (data : Rekey)
  | iceRestart (generation : Nat)
  | failure (stage : Stage) (closure : Closure) (code : Text)
  | cleanup (contexts sockets : Nat)

structure Event where
  timeMs : Nat
  evidence : Evidence

structure Observation where
  networkActivity : Bool
  events : List Event

inductive EventKind where
  | dtlsHandshake | downgradeProbe | srtpContext | rtpPacket | rtcpPacket | rekey | iceRestart
  | failure | cleanup
  deriving DecidableEq

def EventKind.name : EventKind → Text
  | .dtlsHandshake => "dtls_handshake"
  | .downgradeProbe => "downgrade_probe"
  | .srtpContext => "srtp_context"
  | .rtpPacket => "rtp_packet"
  | .rtcpPacket => "rtcp_packet"
  | .rekey => "rekey"
  | .iceRestart => "ice_restart"
  | .failure => "failure"
  | .cleanup => "cleanup"

def eventKinds : List EventKind :=
  [.dtlsHandshake, .downgradeProbe, .srtpContext, .rtpPacket, .rtcpPacket, .rekey, .iceRestart,
    .failure, .cleanup]

/-- `_EVENT_FIELDS` -/
def EventKind.fields : EventKind → List Text
  | .dtlsHandshake => ["side", "role", "version", "cipher", "sdpFingerprintHash",
      "certificateFingerprintHash", "verified"]
  | .downgradeProbe => ["offeredVersion", "outcome", "reachedMedia"]
  | .srtpContext => ["side", "profile", "rtpKeyIdHash", "rtcpKeyIdHash", "epoch", "ssrc"]
  | .rtpPacket => ["direction", "ssrc", "sequence", "roc", "accepted", "replay", "authValid"]
  | .rtcpPacket => ["direction", "ssrc", "index", "encrypted", "authValid", "accepted", "replay"]
  | .rekey => ["side", "reason", "oldEpoch", "newEpoch", "oldKeyIdHash", "newKeyIdHash"]
  | .iceRestart => ["generation"]
  | .failure => ["stage", "closure", "code"]
  | .cleanup => ["contexts", "sockets"]

/-- `_validate_event_data` -/
def readEvidence (kind : EventKind) (data : JsonDict) (path : String) : Result Evidence := do
  let enum {κ : Type} (name : κ → Text) (allowed : List κ) (field : String) : Result κ :=
    readEnum name allowed (data.find field) s!"{path}.{field}"
  let boolean (field : String) : Result Bool := readBoolean (data.find field) s!"{path}.{field}"
  let token (field : String) : Result Text := readToken (data.find field) s!"{path}.{field}"
  let digest (field : String) : Result Text := readDigest (data.find field) s!"{path}.{field}"
  let integer (field : String) (minimum maximum : Nat) :
      Result {n : Nat // minimum ≤ n ∧ n ≤ maximum} :=
    readInteger (data.find field) s!"{path}.{field}" minimum maximum
  match kind with
  | .dtlsHandshake =>
    return .dtlsHandshake {
      side := ← enum Side.name sides "side"
      role := ← enum Role.name [.client, .server] "role"
      version := ← enum Version.name versions "version"
      cipher := ← token "cipher"
      sdpFingerprintHash := ← digest "sdpFingerprintHash"
      certificateFingerprintHash := ← digest "certificateFingerprintHash"
      verified := ← boolean "verified" }
  | .downgradeProbe =>
    return .downgradeProbe (← enum Version.name versions "offeredVersion")
      (← enum ProbeOutcome.name [.rejected, .connected, .timeout] "outcome") (← boolean "reachedMedia")
  | .srtpContext =>
    return .srtpContext {
      side := ← enum Side.name sides "side"
      profile := ← token "profile"
      rtpKeyIdHash := ← digest "rtpKeyIdHash"
      rtcpKeyIdHash := ← digest "rtcpKeyIdHash"
      epoch := (← integer "epoch" 0 65535).val
      ssrc := (← integer "ssrc" 0 4294967295).val }
  | .rtpPacket => do
    let direction ← enum Direction.name [.outbound, .inbound] "direction"
    let ssrc ← integer "ssrc" 0 4294967295
    let sequence ← integer "sequence" 0 65535
    let roc ← integer "roc" 0 4294967295
    let accepted ← boolean "accepted"
    let replay ← boolean "replay"
    let authValid ← boolean "authValid"
    return .rtpPacket ⟨direction, ssrc.val, sequence.val, roc.val, accepted, replay, authValid,
      sequence.property.2⟩
  | .rtcpPacket =>
    return .rtcpPacket {
      direction := ← enum Direction.name [.outbound, .inbound] "direction"
      ssrc := (← integer "ssrc" 0 4294967295).val
      index := (← integer "index" 0 2147483647).val
      encrypted := ← boolean "encrypted"
      authValid := ← boolean "authValid"
      accepted := ← boolean "accepted"
      replay := ← boolean "replay" }
  | .rekey =>
    return .rekey {
      side := ← enum Side.name sides "side"
      reason := ← enum RekeyReason.name [.iceRestart, .renegotiation] "reason"
      oldEpoch := (← integer "oldEpoch" 0 65535).val
      newEpoch := (← integer "newEpoch" 0 65535).val
      oldKeyIdHash := ← digest "oldKeyIdHash"
      newKeyIdHash := ← digest "newKeyIdHash" }
  | .iceRestart => return .iceRestart (← integer "generation" 1 65535).val
  | .failure =>
    return .failure (← enum Stage.name [.fingerprint, .handshake, .srtp, .rtcp, .rekey] "stage")
      (← enum Closure.name [.closed, .mediaBlocked, .continued] "closure") (← token "code")
  | .cleanup =>
    return .cleanup (← integer "contexts" 0 100000).val (← integer "sockets" 0 100000).val

/-- Reads events in turn, none earlier than the one before it. -/
@[grind =] def readEvents : Nat → Nat → List JsonValue → Result (List Event)
  | _, _, [] => .ok []
  | index, lastTime, item :: rest => do
    let path := s!"$.events[{index}]"
    let event ← readObject item path
    exactKeys event path ["timeMs", "type", "data"]
    let time ← readInteger (event.find "timeMs") s!"{path}.timeMs" 0 3600000
    require (decide (lastTime ≤ time.val)) "$.events timeMs values must be nondecreasing"
    let kind ← readEnum EventKind.name eventKinds (event.find "type") s!"{path}.type"
    let data ← readObject (event.find "data") s!"{path}.data"
    exactKeys data s!"{path}.data" kind.fields
    let evidence ← readEvidence kind data s!"{path}.data"
    return ⟨time.val, evidence⟩ :: (← readEvents (index + 1) time.val rest)

def validateObservation (document policyDocument : JsonValue) : Result Observation := do
  let policy ← validatePolicy policyDocument
  let observation ← readObject document "$"
  exactKeys observation "$" ["apiVersion", "networkActivity", "events"]
  require ((observation.find "apiVersion").isText observationVersion) "$.apiVersion is unsupported"
  let activity ← readBoolean (observation.find "networkActivity") "$.networkActivity"
  let events ← readArray (observation.find "events") "$.events"
  require (decide (events.length ≤ policy.limits.maxEvents)) "$.events exceeds the policy limit"
  return ⟨activity, ← readEvents 0 0 events⟩

end observation

end Sippycup.Webrtc.DtlsSrtp
