import Sippycup.Python.JsonEq
import Sippycup.Webrtc.Fields

/-! Evidence of one call across its layers: component reports, and a timeline of events that
belong to generations. The oracle groups the events by generation and looks for a chain in each. -/
namespace Sippycup.Webrtc.CallEvidence
open Sippycup.Python

structure CallEvidenceError where
  message : String
  deriving DecidableEq

instance : Rejects CallEvidenceError := ⟨CallEvidenceError.mk⟩

abbrev Result := Except (Raised CallEvidenceError)

def policyVersion : Text := "sippycup.dev/webrtc-call-policy/v1"
def evidenceVersion : Text := "sippycup.dev/webrtc-call-evidence/v1"

inductive Direction where
  | outbound | inbound
  deriving DecidableEq

def Direction.name : Direction → Text
  | .outbound => "outbound"
  | .inbound => "inbound"

def directions : List Direction := [.outbound, .inbound]

def readDirection (value : JsonValue) (path : String) : Result Direction :=
  readEnum Direction.name directions value path

section policy

structure Policy where
  requiredDirections : List Direction
  requireRtcpEvidence : Bool
  requireCanaryEvidence : Bool
  maxRoundTripLatencyMs : Nat
  maxDowntimeMs : Nat
  requireRecoveryEvidence : Bool
  requireCandidateAddressRedaction : Bool
  requireCredentialRedaction : Bool
  requireBrowserMetadataRedaction : Bool
  maxEvents : Nat
  maxGenerations : Nat
  maxSsrcs : Nat

def validatePolicy (document : JsonValue) : Result Policy := do
  let policy ← readObject document "$"
  exactKeys policy "$" ["apiVersion", "media", "recovery", "privacy", "limits"]
  require ((policy.find "apiVersion").isText policyVersion) "$.apiVersion is unsupported"
  let media ← readObject (policy.find "media") "$.media"
  exactKeys media "$.media" ["requiredDirections", "requireRtcpEvidence", "requireCanaryEvidence", "maxRoundTripLatencyMs"]
  let items ← readArray (media.find "requiredDirections") "$.media.requiredDirections"
  let unique ← if items.isEmpty then pure false else distinct items
  require unique "$.media.requiredDirections must be non-empty and unique"
  let required ← readItems readDirection "$.media.requiredDirections" 0 items
  let rtcp ← readBoolean (media.find "requireRtcpEvidence") "$.media.requireRtcpEvidence"
  let canary ← readBoolean (media.find "requireCanaryEvidence") "$.media.requireCanaryEvidence"
  let latency ← readInteger (media.find "maxRoundTripLatencyMs") "$.media.maxRoundTripLatencyMs" 1 300000
  let recovery ← readObject (policy.find "recovery") "$.recovery"
  exactKeys recovery "$.recovery" ["maxDowntimeMs", "requireRecoveryEvidence"]
  let downtime ← readInteger (recovery.find "maxDowntimeMs") "$.recovery.maxDowntimeMs" 0 300000
  let requireRecovery ← readBoolean (recovery.find "requireRecoveryEvidence") "$.recovery.requireRecoveryEvidence"
  let privacy ← readObject (policy.find "privacy") "$.privacy"
  exactKeys privacy "$.privacy" ["requireCandidateAddressRedaction", "requireCredentialRedaction",
    "requireBrowserMetadataRedaction", "retainRawAudio"]
  let setting (key : String) : Result Bool := readBoolean (privacy.find key) s!"$.privacy.{key}"
  let candidates ← setting "requireCandidateAddressRedaction"
  let credentials ← setting "requireCredentialRedaction"
  let browser ← setting "requireBrowserMetadataRedaction"
  let raw ← setting "retainRawAudio"
  require (!raw) "$.privacy.retainRawAudio must be false in v1"
  let limits ← readObject (policy.find "limits") "$.limits"
  exactKeys limits "$.limits" ["maxEvents", "maxGenerations", "maxSsrcs"]
  let events ← readInteger (limits.find "maxEvents") "$.limits.maxEvents" 1 100000
  let generations ← readInteger (limits.find "maxGenerations") "$.limits.maxGenerations" 1 1024
  let ssrcs ← readInteger (limits.find "maxSsrcs") "$.limits.maxSsrcs" 1 4096
  return ⟨required, rtcp, canary, latency, downtime, requireRecovery, candidates, credentials, browser, events,
    generations, ssrcs⟩

end policy

section evidence

inductive Kind where
  | sdp | iceTurn | dtlsSrtp
  | audio (direction : Direction)
  deriving DecidableEq

def Kind.name : Kind → Text
  | .sdp => "sdp"
  | .iceTurn => "ice-turn"
  | .dtlsSrtp => "dtls-srtp"
  | .audio .outbound => "audio-outbound"
  | .audio .inbound => "audio-inbound"

/-- In the order of their names. -/
def kinds : List Kind := [.audio .inbound, .audio .outbound, .dtlsSrtp, .iceTurn, .sdp]

inductive Status where
  | pass | fail | incomplete
  deriving DecidableEq

def Status.name : Status → Text
  | .pass => "pass"
  | .fail => "fail"
  | .incomplete => "incomplete"

structure Component where
  kind : Kind
  status : Status
  reportHash : Text
  uncertainty : List Text

/-- A full match of `[A-Za-z0-9_.:-]{1,128}`. -/
def callTokenOk (text : Text) : Bool :=
  decide (1 ≤ text.length ∧ text.length ≤ 128) && text.codes.all fun code =>
    isLower code || decide (65 ≤ code ∧ code ≤ 90) || isDigit code || [95, 46, 58, 45].contains code

def readCallToken (value : JsonValue) (path : String) : Result Text :=
  match value with
  | .str t => if callTokenOk t then .ok t else reject s!"{path} must be a bounded token"
  | _ => reject s!"{path} must be a bounded token"

def readComponent (item : JsonValue) (path : String) : Result Component := do
  let component ← readObject item path
  exactKeys component path ["kind", "status", "reportHash", "uncertainty"]
  let kind ← readEnum Kind.name kinds (component.find "kind") s!"{path}.kind"
  let status ← readEnum Status.name [.pass, .fail, .incomplete] (component.find "status") s!"{path}.status"
  let hash ← readDigest (component.find "reportHash") s!"{path}.reportHash"
  let items ← readArray (component.find "uncertainty") s!"{path}.uncertainty"
  require (decide (items.length ≤ 32)) s!"{path}.uncertainty exceeds 32 entries"
  let uncertainty ← readItems readCallToken s!"{path}.uncertainty" 0 items
  return ⟨kind, status, hash, uncertainty⟩

inductive Reason where
  | initial | reselection | iceRestart
  deriving DecidableEq

def Reason.name : Reason → Text
  | .initial => "initial"
  | .reselection => "reselection"
  | .iceRestart => "ice_restart"

structure IcePair where
  pairIdHash : Text
  sequence : Nat
  reason : Reason

structure Stream where
  associationIdHash : Text
  ssrc : Nat
  direction : Direction

inductive Measurement where
  | measured | notMeasurable
  deriving DecidableEq

def Measurement.name : Measurement → Text
  | .measured => "measured"
  | .notMeasurable => "not_measurable"

inductive Continuity where
  | pass | fail | unknown
  deriving DecidableEq

def Continuity.name : Continuity → Text
  | .pass => "pass"
  | .fail => "fail"
  | .unknown => "unknown"

structure Audio where
  direction : Direction
  measurementStatus : Measurement
  continuity : Continuity
  roundTripLatencyMs : Option Number
  canaryAssetHash : Option Text

inductive Outcome where
  | recovered | failed | unknown
  deriving DecidableEq

def Outcome.name : Outcome → Text
  | .recovered => "recovered"
  | .failed => "failed"
  | .unknown => "unknown"

structure Recovery where
  outcome : Outcome
  downtimeMs : Nat

inductive Layer where
  | revision | icePair | dtlsAssociation | srtpStream | srtcpStream | audio | recovery
  deriving DecidableEq

def Layer.name : Layer → Text
  | .revision => "revision"
  | .icePair => "ice_pair"
  | .dtlsAssociation => "dtls_association"
  | .srtpStream => "srtp_stream"
  | .srtcpStream => "srtcp_stream"
  | .audio => "audio"
  | .recovery => "recovery"

def layers : List Layer :=
  [.revision, .icePair, .dtlsAssociation, .srtpStream, .srtcpStream, .audio, .recovery]

/-- `_EVENT_FIELDS` -/
def Layer.fields : Layer → List Text
  | .revision => ["generation", "revisionHash"]
  | .icePair => ["generation", "pairIdHash", "sequence", "reason"]
  | .dtlsAssociation => ["generation", "associationIdHash"]
  | .srtpStream | .srtcpStream => ["generation", "associationIdHash", "ssrc", "direction"]
  | .audio => ["generation", "direction", "measurementStatus", "continuity", "roundTripLatencyMs", "canaryAssetHash"]
  | .recovery => ["generation", "outcome", "downtimeMs"]

inductive Data where
  | revision (revisionHash : Text)
  | icePair (pair : IcePair)
  | dtlsAssociation (associationIdHash : Text)
  | srtpStream (stream : Stream)
  | srtcpStream (stream : Stream)
  | audio (sample : Audio)
  | recovery (attempt : Recovery)

structure Event where
  timeMs : Nat
  generation : Nat
  data : Data

def readStream (data : JsonDict) (path : String) : Result Stream := do
  let association ← readDigest (data.find "associationIdHash") s!"{path}.associationIdHash"
  let ssrc ← readInteger (data.find "ssrc") s!"{path}.ssrc" 0 4294967295
  let direction ← readDirection (data.find "direction") s!"{path}.direction"
  return ⟨association, ssrc, direction⟩

/-- A digest, or `None`. -/
def readCanary (value : JsonValue) (path : String) : Result (Option Text) :=
  match value with
  | .null => .ok none
  | value => do return some (← readDigest value path)

/-- A number of the range, or `None`. -/
def readLatency (value : JsonValue) (path : String) : Result (Option Number) :=
  let within (latency : Number) : Result (Option Number) :=
    if (Number.int 0).le latency && latency.le (.int 300000) then .ok (some latency) else reject s!"{path} is invalid"
  match value with
  | .null => .ok none
  | .int n => within (.int n)
  | .float x => within (.float x.double)
  | _ => reject s!"{path} is invalid"

def readAudio (data : JsonDict) (path : String) : Result Audio := do
  let direction ← readDirection (data.find "direction") s!"{path}.direction"
  let measurement ← readEnum Measurement.name [.measured, .notMeasurable] (data.find "measurementStatus")
    s!"{path}.measurementStatus"
  let continuity ← readEnum Continuity.name [.pass, .fail, .unknown] (data.find "continuity") s!"{path}.continuity"
  let canary ← readCanary (data.find "canaryAssetHash") s!"{path}.canaryAssetHash"
  let latency ← readLatency (data.find "roundTripLatencyMs") s!"{path}.roundTripLatencyMs"
  return ⟨direction, measurement, continuity, latency, canary⟩

def readData (layer : Layer) (data : JsonDict) (path : String) : Result Data :=
  match layer with
  | .revision => do return .revision (← readDigest (data.find "revisionHash") s!"{path}.revisionHash")
  | .icePair => do
    let hash ← readDigest (data.find "pairIdHash") s!"{path}.pairIdHash"
    let sequence ← readInteger (data.find "sequence") s!"{path}.sequence" 0 65535
    let reason ← readEnum Reason.name [.initial, .reselection, .iceRestart] (data.find "reason") s!"{path}.reason"
    return .icePair ⟨hash, sequence, reason⟩
  | .dtlsAssociation => do
    return .dtlsAssociation (← readDigest (data.find "associationIdHash") s!"{path}.associationIdHash")
  | .srtpStream => do return .srtpStream (← readStream data path)
  | .srtcpStream => do return .srtcpStream (← readStream data path)
  | .audio => do return .audio (← readAudio data path)
  | .recovery => do
    let outcome ← readEnum Outcome.name [.recovered, .failed, .unknown] (data.find "outcome") s!"{path}.outcome"
    let downtime ← readInteger (data.find "downtimeMs") s!"{path}.downtimeMs" 0 300000
    return .recovery ⟨outcome, downtime⟩

def readEvent (lastTime : Int) (item : JsonValue) (path : String) : Result Event := do
  let event ← readObject item path
  exactKeys event path ["timeMs", "type", "data"]
  let timeMs ← readInteger (event.find "timeMs") s!"{path}.timeMs" 0 3600000
  require (decide (lastTime ≤ (timeMs.val : Int))) "$.events timeMs values must be nondecreasing"
  let layer ← readEnum Layer.name layers (event.find "type") s!"{path}.type"
  let data ← readObject (event.find "data") s!"{path}.data"
  exactKeys data s!"{path}.data" layer.fields
  let generation ← readInteger (data.find "generation") s!"{path}.data.generation" 0 65535
  return ⟨timeMs, generation, ← readData layer data s!"{path}.data"⟩

@[grind =] def readEvents : Nat → Int → List JsonValue → Result (List Event)
  | _, _, [] => .ok []
  | index, lastTime, item :: rest => do
    let event ← readEvent lastTime item s!"$.events[{index}]"
    return event :: (← readEvents (index + 1) event.timeMs rest)

section privacy
variable (policy : Policy)

def forbiddenKeys : List Text :=
  (if policy.requireCredentialRedaction then ["iceUfrag", "icePwd", "token", "authorization", "cookie"] else []) ++
  (if policy.requireCandidateAddressRedaction then ["candidateAddress", "ipAddress", "address"] else []) ++
  if policy.requireBrowserMetadataRedaction then ["userAgent", "deviceId", "browserVersion", "deviceLabel"] else []

/-- `any(marker in lowered for marker in markers)`; what was validated is ASCII text. -/
def marked (text : Text) (markers : List Text) : Bool :=
  markers.any fun marker => ((text.codes.map lowerCode).tails.any fun rest => marker.codes.isPrefixOf rest)

def scanText (text : Text) (path : String) : Result Unit := do
  if policy.requireCandidateAddressRedaction then do
    require (Ip.ipAddress (.str text)).isNone s!"{path} contains a literal candidate address"
    require (!marked text ["candidate:", "typ host", "typ srflx", "typ relay"]) s!"{path} contains a raw candidate"
  require (!(policy.requireCredentialRedaction &&
      marked text ["ice-pwd", "ice-ufrag", "authorization", "bearer", "cookie"]))
    s!"{path} contains credential material"
  require (!(policy.requireBrowserMetadataRedaction && marked text ["mozilla/", "chrome/", "firefox/", "deviceid"]))
    s!"{path} contains browser or device metadata"

mutual
/-- `_privacy_scan` -/
def privacyScan (value : JsonValue) (path : String) : Result Unit :=
  match value with
  | .dict entries => scanEntries entries path
  | .list items => scanItems items 0 path
  | .str text => scanText policy text path
  | _ => .ok ()

@[grind =] def scanEntries (entries : List (Text × JsonValue)) (path : String) : Result Unit :=
  match entries with
  | [] => .ok ()
  | (key, item) :: rest => do
    require (!(forbiddenKeys policy).contains key) s!"{path}.{key.render} contains forbidden private evidence"
    privacyScan item s!"{path}.{key.render}"
    scanEntries rest path

@[grind =] def scanItems (items : List JsonValue) (index : Nat) (path : String) : Result Unit :=
  match items with
  | [] => .ok ()
  | item :: rest => do
    privacyScan item s!"{path}[{index}]"
    scanItems rest (index + 1) path
end

end privacy

structure Evidence where
  networkActivity : Bool
  callIdHash : Text
  components : List Component
  events : List Event

def validateEvidence (document policyDocument : JsonValue) : Result Evidence := do
  let policy ← validatePolicy policyDocument
  let evidence ← readObject document "$"
  exactKeys evidence "$" ["apiVersion", "networkActivity", "callIdHash", "components", "events"]
  require ((evidence.find "apiVersion").isText evidenceVersion) "$.apiVersion is unsupported"
  let activity ← readBoolean (evidence.find "networkActivity") "$.networkActivity"
  let callIdHash ← readDigest (evidence.find "callIdHash") "$.callIdHash"
  let componentItems ← readArray (evidence.find "components") "$.components"
  require (!componentItems.isEmpty && decide (componentItems.length ≤ 64)) "$.components must contain 1 to 64 entries"
  let components ← readItems readComponent "$.components" 0 componentItems
  require (decide (components.map Component.kind).Nodup) "$.components kinds must be unique"
  let items ← readArray (evidence.find "events") "$.events"
  require (decide (items.length ≤ policy.maxEvents)) "$.events exceeds the policy limit"
  let events ← readEvents 0 (-1) items
  privacyScan policy document "$"
  return ⟨activity, callIdHash, components, events⟩

end evidence

section evaluation

/-- Where a finding has a detail, what the detail is written from. -/
inductive Finding where
  | componentFailed (kind : Kind)
  | layerAmbiguous (generation : Nat) (layer : Layer)
  | icePairSequenceInvalid (generation : Nat) (sequences : List Nat)
  | iceGenerationReasonInvalid (generation : Nat) (reason : Reason)
  | iceReselectionReasonInvalid (generation : Nat)
  | mediaDtlsMismatch (generation : Nat) (direction : Direction) (ssrc : Nat)
  | srtcpWithoutRtpStream (generation : Nat) (direction : Direction) (ssrc : Nat)
  | audioContinuityFailed (generation : Nat) (direction : Direction)
  | latencyCeilingExceeded (generation : Nat) (direction : Direction) (latency : Number)
  | recoveryFailed (generation downtimeMs : Nat)
  | recoveryTooSlow (generation downtimeMs : Nat)
  | generationSequenceInvalid (generations : List Nat)
  | generationCeilingExceeded (count : Nat)
  | ssrcCeilingExceeded (count : Nat)
  deriving DecidableEq

inductive Unknown where
  | componentMissing (kind : Kind)
  | componentUncertain (kind : Kind)
  | layerMissing (generation : Nat) (layer : Layer)
  | streamDirectionMissing (generation : Nat) (direction : Direction)
  | audioDirectionMissing (generation : Nat) (direction : Direction)
  | srtcpDirectionMissing (generation : Nat) (direction : Direction)
  | audioNotMeasurable (generation : Nat) (direction : Direction)
  | canaryNotObserved (generation : Nat) (direction : Direction)
  | latencyNotObserved (generation : Nat) (direction : Direction)
  | recoveryMissing (generation : Nat)
  | recoveryUnknown (generation : Nat)
  | noTimeline
  deriving DecidableEq

/-- The layers of one generation, each in the order of the timeline. -/
structure Layers where
  revisions : List Text
  icePairs : List IcePair
  associations : List Text
  srtp : List Stream
  srtcp : List Stream
  audio : List Audio
  recoveries : List Recovery

def Data.revision? : Data → Option Text
  | .revision hash => some hash
  | _ => none

def Data.icePair? : Data → Option IcePair
  | .icePair pair => some pair
  | _ => none

def Data.association? : Data → Option Text
  | .dtlsAssociation hash => some hash
  | _ => none

def Data.srtp? : Data → Option Stream
  | .srtpStream stream => some stream
  | _ => none

def Data.srtcp? : Data → Option Stream
  | .srtcpStream stream => some stream
  | _ => none

def Data.audio? : Data → Option Audio
  | .audio sample => some sample
  | _ => none

def Data.recovery? : Data → Option Recovery
  | .recovery attempt => some attempt
  | _ => none

/-- `by_generation[generation]` -/
def layersOf (events : List Event) (generation : Nat) : Layers :=
  let data := (events.filter fun event => event.generation = generation).map Event.data
  { revisions := data.filterMap Data.revision?
    icePairs := data.filterMap Data.icePair?
    associations := data.filterMap Data.association?
    srtp := data.filterMap Data.srtp?
    srtcp := data.filterMap Data.srtcp?
    audio := data.filterMap Data.audio?
    recoveries := data.filterMap Data.recovery? }

/-- `sorted(by_generation)` -/
def generationsOf (events : List Event) : List Nat := (events.map Event.generation).dedup.insertionSort (· ≤ ·)

def when {α : Type} (holds : Bool) (item : α) : List α := if holds then [item] else []

def componentFindings (components : List Component) : List Finding :=
  components.flatMap fun component => when (component.status = .fail) (.componentFailed component.kind)

namespace Policy
variable (policy : Policy)

def requiredComponents : List Kind :=
  kinds.filter fun kind => match kind with
    | .audio direction => policy.requiredDirections.contains direction
    | _ => true

def componentUnknowns (components : List Component) : List Unknown :=
  (policy.requiredComponents.flatMap fun kind =>
    when (!(components.map Component.kind).contains kind) (.componentMissing kind)) ++
  components.flatMap fun component =>
    when (component.status ≠ .fail && (component.status = .incomplete || !component.uncertainty.isEmpty))
      (.componentUncertain component.kind)

end Policy

namespace Layers
variable (layers : Layers) (policy : Policy) (generation : Nat)

def expectedReason (generation : Nat) : Reason := if generation = 0 then .initial else .iceRestart

def iceFindings : List Finding :=
  when (layers.icePairs.map IcePair.sequence ≠ List.range layers.icePairs.length)
    (.icePairSequenceInvalid generation (layers.icePairs.map IcePair.sequence)) ++
  match layers.icePairs with
  | [] => []
  | first :: rest =>
    when (first.reason ≠ expectedReason generation) (.iceGenerationReasonInvalid generation first.reason) ++
      when (rest.any fun pair => pair.reason = .initial) (.iceReselectionReasonInvalid generation)

def streamFindings : List Finding :=
  ((layers.srtp ++ layers.srtcp).flatMap fun stream =>
    when (!layers.associations.contains stream.associationIdHash)
      (.mediaDtlsMismatch generation stream.direction stream.ssrc)) ++
  layers.srtcp.flatMap fun rtcp =>
    when (!(layers.srtp.map fun stream => (stream.direction, stream.ssrc)).contains (rtcp.direction, rtcp.ssrc))
      (.srtcpWithoutRtpStream generation rtcp.direction rtcp.ssrc)

/-- Latency is compared where it is known, and missed where audio was measured without. -/
def audioFindings (audio : Audio) : List Finding :=
  when (audio.continuity = .fail) (.audioContinuityFailed generation audio.direction) ++
  match audio.roundTripLatencyMs with
  | none => []
  | some latency =>
    when ((Number.int policy.maxRoundTripLatencyMs).lt latency)
      (.latencyCeilingExceeded generation audio.direction latency)

def recoveryFindings (recovery : Recovery) : List Finding :=
  when (recovery.outcome = .failed) (.recoveryFailed generation recovery.downtimeMs) ++
    when (policy.maxDowntimeMs < recovery.downtimeMs) (.recoveryTooSlow generation recovery.downtimeMs)

def findings : List Finding :=
  when (1 < layers.revisions.length) (.layerAmbiguous generation .revision) ++
    when (1 < layers.associations.length) (.layerAmbiguous generation .dtlsAssociation) ++
    layers.iceFindings generation ++ layers.streamFindings generation ++
    layers.audio.flatMap (audioFindings policy generation) ++
    layers.recoveries.flatMap (recoveryFindings policy generation)

def directionUnknowns (direction : Direction) : List Unknown :=
  when (!(layers.srtp.map Stream.direction).contains direction) (.streamDirectionMissing generation direction) ++
    when (!(layers.audio.map Audio.direction).contains direction) (.audioDirectionMissing generation direction) ++
    when (policy.requireRtcpEvidence && !(layers.srtcp.map Stream.direction).contains direction)
      (.srtcpDirectionMissing generation direction)

def audioUnknowns (audio : Audio) : List Unknown :=
  when (audio.measurementStatus = .notMeasurable || audio.continuity = .unknown)
      (.audioNotMeasurable generation audio.direction) ++
    when (policy.requireCanaryEvidence && audio.canaryAssetHash.isNone)
      (.canaryNotObserved generation audio.direction) ++
    when (audio.measurementStatus = .measured && audio.roundTripLatencyMs.isNone)
      (.latencyNotObserved generation audio.direction)

def needsRecovery : Bool := 0 < generation || 1 < layers.icePairs.length

def unknowns : List Unknown :=
  when layers.revisions.isEmpty (.layerMissing generation .revision) ++
    when layers.icePairs.isEmpty (.layerMissing generation .icePair) ++
    when layers.associations.isEmpty (.layerMissing generation .dtlsAssociation) ++
    when layers.srtp.isEmpty (.layerMissing generation .srtpStream) ++
    policy.requiredDirections.flatMap (layers.directionUnknowns policy generation) ++
    layers.audio.flatMap (audioUnknowns policy generation) ++
    when (policy.requireRecoveryEvidence && layers.needsRecovery generation && layers.recoveries.isEmpty)
      (.recoveryMissing generation) ++
    layers.recoveries.flatMap fun recovery => when (recovery.outcome = .unknown) (.recoveryUnknown generation)

end Layers

namespace Evidence
variable (evidence : Evidence) (policy : Policy)

def generations : List Nat := generationsOf evidence.events

/-- `ssrcs`, over the SRTP streams of every generation. -/
def ssrcs : List Nat :=
  (evidence.generations.flatMap fun generation => (layersOf evidence.events generation).srtp.map Stream.ssrc).dedup

/-- `range(max(generations) + 1)`; the last of the sorted generations is the greatest. -/
def expectedGenerations : List Nat := List.range (evidence.generations.getLast?.elim 0 (· + 1))

def callFindings : List Finding :=
  when (evidence.generations ≠ evidence.expectedGenerations) (.generationSequenceInvalid evidence.generations) ++
    when (policy.maxGenerations < evidence.generations.length) (.generationCeilingExceeded evidence.generations.length) ++
    when (policy.maxSsrcs < evidence.ssrcs.length) (.ssrcCeilingExceeded evidence.ssrcs.length)

def findings : List Finding :=
  componentFindings evidence.components ++
    (evidence.generations.flatMap fun generation =>
      (layersOf evidence.events generation).findings policy generation) ++
    evidence.callFindings policy

def unknowns : List Unknown :=
  policy.componentUnknowns evidence.components ++
    (evidence.generations.flatMap fun generation =>
      (layersOf evidence.events generation).unknowns policy generation) ++
    when evidence.generations.isEmpty .noTimeline

end Evidence

structure Report where
  status : Status
  observedNetworkActivity : Bool
  callIdHash : Text
  generations : Nat
  ssrcs : Nat
  findings : List Finding
  unknowns : List Unknown

def evaluate (policyDocument evidenceDocument : JsonValue) : Result Report := do
  let policy ← validatePolicy policyDocument
  let evidence ← validateEvidence evidenceDocument policyDocument
  let findings := evidence.findings policy
  let unknowns := evidence.unknowns policy
  let status := if !findings.isEmpty then .fail else if !unknowns.isEmpty then .incomplete else .pass
  return {
    status
    observedNetworkActivity := evidence.networkActivity
    callIdHash := evidence.callIdHash
    generations := evidence.generations.length
    ssrcs := evidence.ssrcs.length
    findings
    unknowns }

end evaluation

end Sippycup.Webrtc.CallEvidence
