import Sippycup.Python.JsonEq
import Sippycup.Webrtc.Fields

/-! Policies and transcripts of normalized SDP facts: what the oracle accepts
before it looks at a negotiation. -/
namespace Sippycup.Webrtc.Sdp
open Sippycup.Python

structure SDPOracleError where
  message : String
  deriving DecidableEq

instance : Rejects SDPOracleError := ⟨SDPOracleError.mk⟩

abbrev Result := Except (Raised SDPOracleError)

def policyVersion : Text := "sippycup.dev/sdp-policy/v1"
def transcriptVersion : Text := "sippycup.dev/sdp-transcript/v1"
def reportVersion : Text := "sippycup.dev/sdp-report/v1"

inductive MediaKind where
  | audio | video | application
  deriving DecidableEq

def MediaKind.name : MediaKind → Text
  | .audio => "audio"
  | .video => "video"
  | .application => "application"

def mediaKinds : List MediaKind := [.audio, .video, .application]

theorem MediaKind.name_injective {a b : MediaKind} (same : a.name = b.name) : a = b := by
  revert same
  cases a <;> cases b <;> decide

inductive Direction where
  | sendrecv | sendonly | recvonly | inactive
  deriving DecidableEq

def Direction.name : Direction → Text
  | .sendrecv => "sendrecv"
  | .sendonly => "sendonly"
  | .recvonly => "recvonly"
  | .inactive => "inactive"

def directions : List Direction := [.sendrecv, .sendonly, .recvonly, .inactive]

inductive HashAlgorithm where
  | sha1 | sha256 | sha384 | sha512
  deriving DecidableEq

def HashAlgorithm.name : HashAlgorithm → Text
  | .sha1 => "sha-1"
  | .sha256 => "sha-256"
  | .sha384 => "sha-384"
  | .sha512 => "sha-512"

inductive Setup where
  | actpass | active | passive | holdconn
  deriving DecidableEq

def Setup.name : Setup → Text
  | .actpass => "actpass"
  | .active => "active"
  | .passive => "passive"
  | .holdconn => "holdconn"

inductive RevisionKind where
  | offer | answer | rollback
  deriving DecidableEq

def RevisionKind.name : RevisionKind → Text
  | .offer => "offer"
  | .answer => "answer"
  | .rollback => "rollback"

inductive Actor where
  | localActor | remote
  deriving DecidableEq

def Actor.name : Actor → Text
  | .localActor => "local"
  | .remote => "remote"

/-- `_unique_tokens` -/
def uniqueTokens (value : JsonValue) (path : String) (maximum : Nat) : Result (List Text) := do
  let items ← readArray value path
  require (decide (items.length ≤ maximum)) s!"{path} exceeds {maximum} entries"
  readTokens items path

section policy

/-- Names for each kind, under the keys of the document. -/
@[grind =] def readCodecs : (codecs : JsonDict) → Result {named : List (Text × List Text) // named.map Prod.fst = codecs.keys}
  | [] => .ok ⟨[], rfl⟩
  | (kind, value) :: rest => do
    let names ← uniqueTokens value s!"$.media.allowedCodecs.{kind.render}" 32
    require (!names.isEmpty) s!"$.media.allowedCodecs.{kind.render} must not be empty"
    let others ← readCodecs rest
    return ⟨(kind, names) :: others.val, by simp [JsonDict.keys, others.property]⟩

structure MediaPolicy where
  allowedKinds : List MediaKind
  allowedProtocols : List Text
  requireBundle : Bool
  requireRtcpMux : Bool
  allowedCodecs : List (Text × List Text)
  requiredRtcpFeedback : List Text
  allowedExtmapUris : List Text
  covered : ∀ kind : MediaKind, kind ∈ allowedKinds ↔ kind.name ∈ allowedCodecs.map Prod.fst

structure IcePolicy where
  requireTrickle : Bool
  requireEndOfCandidates : Bool
  requireCredentialChangeOnRestart : Bool

structure DtlsPolicy where
  requireFingerprint : Bool
  allowedHashAlgorithms : List HashAlgorithm
  allowedSetupPairs : List (Setup × Setup)

structure NegotiationPolicy where
  allowGlare : Bool
  requireRollbackBeforeRetry : Bool
  maxRevisions : Nat

structure Limits where
  maxMSections : Nat
  maxCodecsPerSection : Nat
  maxExtmapsPerSection : Nat
  maxGeneratedCases : Nat

structure Policy where
  media : MediaPolicy
  ice : IcePolicy
  dtls : DtlsPolicy
  negotiation : NegotiationPolicy
  limits : Limits

def supportedProtocols : List Text :=
  ["UDP/TLS/RTP/SAVPF", "TCP/TLS/RTP/SAVPF", "UDP/DTLS/SCTP", "TCP/DTLS/SCTP"]

def knownFeedback : List Text := ["nack", "nack pli", "ccm fir", "transport-cc", "goog-remb"]

def uriSchemes : List Text := ["urn:", "http://", "https://"]

def uriOk (uri : Text) : Bool :=
  decide (1 ≤ uri.length ∧ uri.length ≤ 512) &&
    uriSchemes.any fun scheme => scheme.codes.isPrefixOf uri.codes

def readUri (value : JsonValue) (path : String) : Result Text :=
  match value with
  | .str t => if uriOk t then .ok t else reject s!"{path} must be a bounded URI"
  | _ => reject s!"{path} must be a bounded URI"

/-- `set(codecs) == set(kinds)` -/
def covers (kinds : List MediaKind) (keys : List Text) : Bool :=
  kinds.all (fun kind => keys.contains kind.name) && keys.all (kinds.map MediaKind.name).contains

theorem covers_iff {kinds : List MediaKind} {keys : List Text} (exactly : covers kinds keys = true)
    (kind : MediaKind) : kind.name ∈ keys ↔ kind ∈ kinds := by
  simp only [covers, Bool.and_eq_true, List.all_eq_true, List.contains_eq_mem, decide_eq_true_eq,
    List.mem_map] at exactly
  constructor
  · intro key
    obtain ⟨other, member, same⟩ := exactly.2 _ key
    exact MediaKind.name_injective same ▸ member
  · exact exactly.1 kind

def readMediaPolicy (value : JsonValue) : Result MediaPolicy := do
  let media ← readObject value "$.media"
  exactKeys media "$.media" ["allowedKinds", "allowedProtocols", "requireBundle", "requireRtcpMux",
    "allowedCodecs", "requiredRtcpFeedback", "allowedExtmapUris"]
  let tokens ← uniqueTokens (media.find "allowedKinds") "$.media.allowedKinds" 4
  let kinds ← readNamed MediaKind.name mediaKinds tokens
    "$.media.allowedKinds contains an unsupported kind"
  let protocols ← uniqueTokens (media.find "allowedProtocols") "$.media.allowedProtocols" 8
  require (!protocols.isEmpty && protocols.all supportedProtocols.contains)
    "$.media.allowedProtocols contains an unsupported value"
  let bundle ← readBoolean (media.find "requireBundle") "$.media.requireBundle"
  let mux ← readBoolean (media.find "requireRtcpMux") "$.media.requireRtcpMux"
  let codecs ← readObject (media.find "allowedCodecs") "$.media.allowedCodecs"
  if exactly : covers kinds codecs.keys = true then
    let names ← readCodecs codecs
    let items ← readArray (media.find "requiredRtcpFeedback") "$.media.requiredRtcpFeedback"
    require (decide (items.length ≤ 16)) "$.media.requiredRtcpFeedback exceeds 16 entries"
    let feedback ← readItems (fun item path => readBounded item path 128)
      "$.media.requiredRtcpFeedback" 0 items
    require (decide feedback.Nodup) "$.media.requiredRtcpFeedback must contain unique values"
    require (feedback.all knownFeedback.contains)
      "$.media.requiredRtcpFeedback contains an unsupported value"
    let uris ← readArray (media.find "allowedExtmapUris") "$.media.allowedExtmapUris"
    require (decide (uris.length ≤ 64)) "$.media.allowedExtmapUris must be unique and bounded"
    require (← distinct uris) "$.media.allowedExtmapUris must be unique and bounded"
    let uris ← readItems readUri "$.media.allowedExtmapUris" 0 uris
    return {
      allowedKinds := kinds
      allowedProtocols := protocols
      requireBundle := bundle
      requireRtcpMux := mux
      allowedCodecs := names.val
      requiredRtcpFeedback := feedback
      allowedExtmapUris := uris
      covered := fun kind => by rw [names.property, covers_iff exactly] }
  else reject "$.media.allowedCodecs must exactly cover allowedKinds"

def readIcePolicy (value : JsonValue) : Result IcePolicy := do
  let ice ← readObject value "$.ice"
  exactKeys ice "$.ice" ["requireTrickle", "requireEndOfCandidates", "requireCredentialChangeOnRestart"]
  ice.forM fun (key, flag) => discard (readBoolean flag s!"$.ice.{key.render}")
  return {
    requireTrickle := ← readBoolean (ice.find "requireTrickle") "$.ice.requireTrickle"
    requireEndOfCandidates :=
      ← readBoolean (ice.find "requireEndOfCandidates") "$.ice.requireEndOfCandidates"
    requireCredentialChangeOnRestart :=
      ← readBoolean (ice.find "requireCredentialChangeOnRestart")
        "$.ice.requireCredentialChangeOnRestart" }

def readSetupPair (value : JsonValue) (path : String) : Result (Setup × Setup) := do
  let pair ← readObject value path
  exactKeys pair path ["offer", "answer"]
  let offer ← readEnum Setup.name [.actpass, .active, .passive] (pair.find "offer") s!"{path}.offer"
  let answer ← readEnum Setup.name [.active, .passive] (pair.find "answer") s!"{path}.answer"
  return (offer, answer)

def readDtlsPolicy (value : JsonValue) : Result DtlsPolicy := do
  let dtls ← readObject value "$.dtls"
  exactKeys dtls "$.dtls" ["requireFingerprint", "allowedHashAlgorithms", "allowedSetupPairs"]
  let fingerprint ← readBoolean (dtls.find "requireFingerprint") "$.dtls.requireFingerprint"
  let tokens ← uniqueTokens (dtls.find "allowedHashAlgorithms") "$.dtls.allowedHashAlgorithms" 8
  let algorithms ← readNamed HashAlgorithm.name [.sha256, .sha384, .sha512] tokens
    "$.dtls.allowedHashAlgorithms contains an unsupported value"
  let items ← readArray (dtls.find "allowedSetupPairs") "$.dtls.allowedSetupPairs"
  require (!items.isEmpty && decide (items.length ≤ 8))
    "$.dtls.allowedSetupPairs must contain 1 to 8 entries"
  let pairs ← readItems readSetupPair "$.dtls.allowedSetupPairs" 0 items
  require (decide pairs.Nodup) "$.dtls.allowedSetupPairs must be unique"
  return { requireFingerprint := fingerprint, allowedHashAlgorithms := algorithms, allowedSetupPairs := pairs }

def readNegotiationPolicy (value : JsonValue) : Result NegotiationPolicy := do
  let negotiation ← readObject value "$.negotiation"
  exactKeys negotiation "$.negotiation" ["allowGlare", "requireRollbackBeforeRetry", "maxRevisions"]
  return {
    allowGlare := ← readBoolean (negotiation.find "allowGlare") "$.negotiation.allowGlare"
    requireRollbackBeforeRetry :=
      ← readBoolean (negotiation.find "requireRollbackBeforeRetry")
        "$.negotiation.requireRollbackBeforeRetry"
    maxRevisions :=
      (← readInteger (negotiation.find "maxRevisions") "$.negotiation.maxRevisions" 1 1024).val }

def readLimits (value : JsonValue) : Result Limits := do
  let limits ← readObject value "$.limits"
  exactKeys limits "$.limits" ["maxMSections", "maxCodecsPerSection", "maxExtmapsPerSection",
    "maxGeneratedCases"]
  let field (name : String) (minimum maximum : Nat) : Result Nat := do
    return (← readInteger (limits.find name) s!"$.limits.{name}" minimum maximum).val
  return {
    maxMSections := ← field "maxMSections" 1 64
    maxCodecsPerSection := ← field "maxCodecsPerSection" 1 128
    maxExtmapsPerSection := ← field "maxExtmapsPerSection" 0 128
    maxGeneratedCases := ← field "maxGeneratedCases" 1 128 }

def validatePolicy (document : JsonValue) : Result Policy := do
  let policy ← readObject document "$"
  exactKeys policy "$" ["apiVersion", "media", "ice", "dtls", "negotiation", "limits"]
  require ((policy.find "apiVersion").isText policyVersion) "$.apiVersion is unsupported"
  return {
    media := ← readMediaPolicy (policy.find "media")
    ice := ← readIcePolicy (policy.find "ice")
    dtls := ← readDtlsPolicy (policy.find "dtls")
    negotiation := ← readNegotiationPolicy (policy.find "negotiation")
    limits := ← readLimits (policy.find "limits") }

end policy

section transcript

structure Codec where
  payloadType : Nat
  name : Text
  clockRate : Nat
  channels : Nat
  rtcpFeedback : List Text

structure Extmap where
  id : Nat
  uri : Text
  direction : Direction

structure Fingerprint where
  algorithm : HashAlgorithm
  valueHash : Text

structure Section where
  mid : Text
  kind : MediaKind
  protocol : Text
  port : Nat
  direction : Direction
  rtcpMux : Bool
  iceUfragHash : Text
  icePwdHash : Text
  iceOptions : List Text
  endOfCandidates : Bool
  fingerprint : Option Fingerprint
  setup : Setup
  codecs : List Codec
  extmaps : List Extmap

/-- An offer, an answer or a rollback, which has no sections; each mid names one section. -/
structure Revision where
  sequence : Nat
  kind : RevisionKind
  actor : Actor
  generation : Nat
  sdpHash : Option Text
  bundleMids : List Text
  media : List Section
  unique : (media.map Section.mid).Nodup
  bare : kind = .rollback → media = []

structure Transcript where
  networkActivity : Bool
  revisions : List Revision

/-- `_validate_codec` -/
def readCodec (value : JsonValue) (path : String) : Result Codec := do
  let codec ← readObject value path
  exactKeys codec path ["payloadType", "name", "clockRate", "channels", "rtcpFeedback"]
  let payloadType ← readInteger (codec.find "payloadType") s!"{path}.payloadType" 0 127
  let name ← readToken (codec.find "name") s!"{path}.name"
  let clockRate ← readInteger (codec.find "clockRate") s!"{path}.clockRate" 1 384000
  let channels ← readInteger (codec.find "channels") s!"{path}.channels" 1 32
  let items ← readArray (codec.find "rtcpFeedback") s!"{path}.rtcpFeedback"
  require (decide (items.length ≤ 16)) s!"{path}.rtcpFeedback exceeds 16 entries"
  let feedback ← readItems (fun item path => readBounded item path 128) s!"{path}.rtcpFeedback" 0 items
  require (decide feedback.Nodup) s!"{path}.rtcpFeedback must contain unique values"
  return ⟨payloadType.val, name, clockRate.val, channels.val, feedback⟩

/-- `_validate_extmap` -/
def readExtmap (value : JsonValue) (path : String) : Result Extmap := do
  let extmap ← readObject value path
  exactKeys extmap path ["id", "uri", "direction"]
  let id ← readInteger (extmap.find "id") s!"{path}.id" 1 255
  let uri ← readBounded (extmap.find "uri") s!"{path}.uri" 512
  let direction ← readEnum Direction.name directions (extmap.find "direction") s!"{path}.direction"
  return ⟨id.val, uri, direction⟩

def readFingerprint (value : JsonValue) (path : String) : Result (Option Fingerprint) :=
  match value with
  | .null => return none
  | value => do
    let fingerprint ← readObject value path
    exactKeys fingerprint path ["algorithm", "valueHash"]
    let algorithm ← readEnum HashAlgorithm.name [.sha1, .sha256, .sha384, .sha512]
      (fingerprint.find "algorithm") s!"{path}.algorithm"
    return some ⟨algorithm, ← readDigest (fingerprint.find "valueHash") s!"{path}.valueHash"⟩

/-- `_validate_section` -/
def readSection (maxCodecs maxExtmaps : Nat) (value : JsonValue) (path : String) : Result Section := do
  let sect ← readObject value path
  exactKeys sect path ["mid", "kind", "protocol", "port", "direction", "rtcpMux", "iceUfragHash",
    "icePwdHash", "iceOptions", "endOfCandidates", "fingerprint", "setup", "codecs", "extmaps"]
  let mid ← readToken (sect.find "mid") s!"{path}.mid"
  let kind ← readEnum MediaKind.name mediaKinds (sect.find "kind") s!"{path}.kind"
  let protocol ← readToken (sect.find "protocol") s!"{path}.protocol"
  let port ← readInteger (sect.find "port") s!"{path}.port" 0 65535
  let direction ← readEnum Direction.name directions (sect.find "direction") s!"{path}.direction"
  let rtcpMux ← readBoolean (sect.find "rtcpMux") s!"{path}.rtcpMux"
  let ufrag ← readDigest (sect.find "iceUfragHash") s!"{path}.iceUfragHash"
  let pwd ← readDigest (sect.find "icePwdHash") s!"{path}.icePwdHash"
  let options ← uniqueTokens (sect.find "iceOptions") s!"{path}.iceOptions" 16
  let ended ← readBoolean (sect.find "endOfCandidates") s!"{path}.endOfCandidates"
  let fingerprint ← readFingerprint (sect.find "fingerprint") s!"{path}.fingerprint"
  let setup ← readEnum Setup.name [.actpass, .active, .passive, .holdconn] (sect.find "setup")
    s!"{path}.setup"
  let items ← readArray (sect.find "codecs") s!"{path}.codecs"
  require (decide (items.length ≤ maxCodecs)) s!"{path}.codecs exceeds the policy limit"
  let codecs ← readItems readCodec s!"{path}.codecs" 0 items
  require (decide (codecs.map Codec.payloadType).Nodup) s!"{path}.codecs payload types must be unique"
  let items ← readArray (sect.find "extmaps") s!"{path}.extmaps"
  require (decide (items.length ≤ maxExtmaps)) s!"{path}.extmaps exceeds the policy limit"
  let extmaps ← readItems readExtmap s!"{path}.extmaps" 0 items
  require (decide (extmaps.map Extmap.id).Nodup) s!"{path}.extmaps IDs must be unique"
  return {
    mid, kind, protocol, port := port.val, direction, rtcpMux, iceUfragHash := ufrag
    icePwdHash := pwd, iceOptions := options, endOfCandidates := ended, fingerprint, setup, codecs
    extmaps }

def readRevision (limits : Limits) (index : Nat) (value : JsonValue) : Result Revision := do
  let path := s!"$.revisions[{index}]"
  let revision ← readObject value path
  exactKeys revision path ["sequence", "type", "actor", "generation", "sdpHash", "bundleMids", "media"]
  let sequence ← readInteger (revision.find "sequence") s!"{path}.sequence" 1 1000000
  require (decide (sequence.val = index + 1)) "$.revisions sequence must start at 1 and be contiguous"
  let kind ← readEnum RevisionKind.name [.offer, .answer, .rollback] (revision.find "type") s!"{path}.type"
  let actor ← readEnum Actor.name [.localActor, .remote] (revision.find "actor") s!"{path}.actor"
  let generation ← readInteger (revision.find "generation") s!"{path}.generation" 0 65535
  let bundle ← uniqueTokens (revision.find "bundleMids") s!"{path}.bundleMids" 64
  let media ← readArray (revision.find "media") s!"{path}.media"
  if rolls : kind = .rollback then
    require ((revision.find "sdpHash") matches .null && bundle.isEmpty && media.isEmpty)
      s!"{path} rollback must not contain SDP facts"
    return ⟨sequence.val, kind, actor, generation.val, none, [], [], .nil, fun _ => rfl⟩
  else
    let digest ← readDigest (revision.find "sdpHash") s!"{path}.sdpHash"
    require (!media.isEmpty && decide (media.length ≤ limits.maxMSections))
      s!"{path}.media must contain a bounded set of sections"
    let sections ← readItems (readSection limits.maxCodecsPerSection limits.maxExtmapsPerSection)
      s!"{path}.media" 0 media
    if unique : (sections.map Section.mid).Nodup then
      return ⟨sequence.val, kind, actor, generation.val, some digest, bundle, sections, unique,
        fun rollback => absurd rollback rolls⟩
    else reject s!"{path}.media mids must be unique"

@[grind =] def readRevisions (limits : Limits) : Nat → List JsonValue → Result (List Revision)
  | _, [] => .ok []
  | index, item :: rest => do
    let first ← readRevision limits index item
    return first :: (← readRevisions limits (index + 1) rest)

def validateTranscript (document policyDocument : JsonValue) : Result Transcript := do
  let policy ← validatePolicy policyDocument
  let transcript ← readObject document "$"
  exactKeys transcript "$" ["apiVersion", "networkActivity", "revisions"]
  require ((transcript.find "apiVersion").isText transcriptVersion) "$.apiVersion is unsupported"
  let activity ← readBoolean (transcript.find "networkActivity") "$.networkActivity"
  let revisions ← readArray (transcript.find "revisions") "$.revisions"
  require (decide (revisions.length ≤ policy.negotiation.maxRevisions))
    "$.revisions exceeds the policy limit"
  return ⟨activity, ← readRevisions policy.limits 0 revisions⟩

end transcript

end Sippycup.Webrtc.Sdp
