import Sippycup.Oracle.Dialogs
import Sippycup.Oracle.Sequence

/-! RTP packets of a dialog: their direction, the negotiated media they belong to, the leg they are
attributed to, and the metrics of a stream. Decimals are exact rationals. -/
namespace Sippycup.Oracle
open Python

inductive PayloadVisibility
  | metadataOnly
  deriving DecidableEq

abbrev SequenceNumber := Fin 65536

abbrev RtpTimestamp := Fin (2 ^ 32)

structure RtpRecord where
  ssrc : Value Nat
  sequence : Value SequenceNumber
  timestamp : Value RtpTimestamp
  payloadType : Value Int
  payloadVisibility : Value PayloadVisibility
  deriving DecidableEq

structure RtcpRecord where
  senderSsrc : Value Nat
  deriving DecidableEq

/-- A frame with what it carries of media. -/
structure MediaFrame extends FrameRecord where
  rtp : Option RtpRecord
  rtcp : Option RtcpRecord
  deriving DecidableEq

inductive MediaDirection
  | callerToCallee
  | calleeToCaller
  | unknown
  deriving DecidableEq

structure Endpoint where
  address : Text
  port : Int
  transport : Transport
  deriving DecidableEq

/-- `_endpoint` -/
def EndpointRecord.endpoint? (record : EndpointRecord) : Option Endpoint := do
  let address ← record.address.known?
  let port ← record.port.known?
  let transport ← record.transport.known?
  return ⟨address, port, transport⟩

/-- `_evidence_time` -/
def EvidenceRef.time (evidence : EvidenceRef) : Option Rat := evidence.timestampEpoch.known?

/-- `_direction` -/
def direction (frame : FrameRecord) (dialog : DialogRecord) : MediaDirection :=
  let caller := dialog.caller.address.known?
  let callee := dialog.callee.address.known?
  match frame.source.endpoint?, frame.destination.endpoint? with
  | some source, some destination =>
    if some source.address = caller ∨ some destination.address = callee then .callerToCallee
    else if some source.address = callee ∨ some destination.address = caller then .calleeToCaller
    else .unknown
  | _, _ => .unknown

/-- `_audio` -/
def audio (revision : Option NegotiatedSdpRevision) : Option SdpMediaRecord :=
  revision.bind fun revision =>
    revision.revision.media.find? fun media => decide (media.mediaType.known? = some (Text.ofString "audio"))

section pairs

/-- No status, or a provisional or successful one. -/
def NegotiatedSdpRevision.lenient (revision : NegotiatedSdpRevision) : Bool :=
  revision.statusCode.all fun status => decide (100 ≤ status ∧ status < 300)

/-- A status of failure. -/
def NegotiatedSdpRevision.failed (revision : NegotiatedSdpRevision) : Bool :=
  revision.statusCode.any fun status => decide (300 ≤ status)

/-- Where the search for the active pair stands. -/
structure ActivePair where
  pendingOffer : Option NegotiatedSdpRevision
  offer : Option NegotiatedSdpRevision
  answer : Option NegotiatedSdpRevision

def ActivePair.none : ActivePair := ⟨.none, .none, .none⟩

def ActivePair.step (pair : ActivePair) (revision : NegotiatedSdpRevision) : ActivePair :=
  match revision.role with
  | .offer => { pair with pendingOffer := if revision.lenient then some revision else .none }
  | .answer =>
    if revision.lenient && pair.pendingOffer.isSome then
      { pair with offer := pair.pendingOffer, answer := some revision }
    else if revision.failed then { pair with pendingOffer := .none }
    else pair
  | .unknown => pair

/-- `at is not None and revision_time is not None and revision_time > at` -/
def NegotiatedSdpRevision.isAfter (revision : NegotiatedSdpRevision) (at_ : Option Rat) : Bool :=
  match at_, revision.revision.evidence.time with
  | some limit, some time => decide (limit < time)
  | _, _ => false

/-- The loop of `_active_pair`, which ends at the first revision after the time. -/
def ActivePair.follow (at_ : Option Rat) : ActivePair → List NegotiatedSdpRevision → ActivePair
  | pair, [] => pair
  | pair, revision :: rest => if revision.isAfter at_ then pair else (pair.step revision).follow at_ rest

/-- `_active_pair` -/
def activePair (dialog : DialogRecord) (at_ : Option Rat) :
    Option NegotiatedSdpRevision × Option NegotiatedSdpRevision :=
  let pair := ActivePair.none.follow at_ dialog.sdpRevisions
  (pair.offer, pair.answer)

/-- Where the collection of successful pairs stands. -/
structure SuccessfulPairs where
  pending : Option NegotiatedSdpRevision
  pairs : List (NegotiatedSdpRevision × NegotiatedSdpRevision)

def SuccessfulPairs.none : SuccessfulPairs := ⟨.none, []⟩

def SuccessfulPairs.step (found : SuccessfulPairs) (revision : NegotiatedSdpRevision) : SuccessfulPairs :=
  match revision.role with
  | .offer => { found with pending := if revision.lenient then some revision else .none }
  | .answer =>
    match revision.lenient, found.pending with
    | true, some offer =>
      if (offer, revision) ∈ found.pairs then found
      else { found with pairs := found.pairs ++ [(offer, revision)] }
    | _, _ => if revision.failed then { found with pending := .none } else found
  | .unknown => found

/-- `_successful_pairs` -/
def successfulPairs (dialog : DialogRecord) : List (NegotiatedSdpRevision × NegotiatedSdpRevision) :=
  (dialog.sdpRevisions.foldl SuccessfulPairs.step .none).pairs

end pairs

section attribution

/-- `_expected_receiver` -/
def expectedReceiver (dialog : DialogRecord) (frame : FrameRecord) (direction : MediaDirection) :
    Option SdpMediaRecord :=
  let (offer, answer) := activePair dialog frame.evidence.time
  match direction with
  | .callerToCallee => audio answer
  | .calleeToCaller => audio offer
  | .unknown => none

/-- `_expected_sender` -/
def expectedSender (dialog : DialogRecord) (frame : FrameRecord) (direction : MediaDirection) :
    Option SdpMediaRecord :=
  let (offer, answer) := activePair dialog frame.evidence.time
  match direction with
  | .callerToCallee => audio offer
  | .calleeToCaller => audio answer
  | .unknown => none

/-- `_media_endpoint` -/
def mediaEndpoint (media : Option SdpMediaRecord) : Option (Text × Int) := do
  let media ← media
  let address ← media.address.known?
  let port ← media.port.known?
  return (address, port)

/-- How well a frame fits a dialog: zero without a direction. -/
def score (frame : FrameRecord) (dialog : DialogRecord) : Nat :=
  let along := direction frame dialog
  if along = .unknown then 0
  else
    let meets (media : Option SdpMediaRecord) (record : EndpointRecord) : Bool :=
      record.endpoint?.any fun endpoint => decide (mediaEndpoint media = some (endpoint.address, endpoint.port))
    1 + (if meets (expectedReceiver dialog frame along) frame.destination then 8 else 0) +
      if meets (expectedSender dialog frame along) frame.source then 4 else 0

def scores (dialogs : List DialogRecord) (frame : MediaFrame) : List Nat :=
  dialogs.map (score frame.toFrameRecord)

/-- The dialogs whose score is the best one, if that is positive. -/
def candidateLegs (scores : List Nat) : List Nat :=
  (List.range scores.length).filter fun index =>
    let own := scores.getD index 0
    decide (own = scores.foldl max 0) && decide (0 < own)

/-- Appends an item to the list at an index. -/
def appendAt {α : Type} (lists : List (List α)) (index : Nat) (item : α) : List (List α) :=
  lists.modify index (· ++ [item])

structure Partition where
  assigned : List (List MediaFrame)
  ambiguous : List (List EvidenceRef)

def Partition.place (dialogs : List DialogRecord) (partition : Partition) (frame : MediaFrame) : Partition :=
  match candidateLegs (scores dialogs frame) with
  | [] => partition
  | [index] => { partition with assigned := appendAt partition.assigned index frame }
  | candidates =>
    { partition with
      ambiguous := candidates.foldl (fun lists index => appendAt lists index frame.evidence) partition.ambiguous }

def mediaFrames (frames : List MediaFrame) : List MediaFrame :=
  frames.filter fun frame => frame.rtp.isSome || frame.rtcp.isSome

/-- `partition_media_frames` -/
def partitionMediaFrames (frames : List MediaFrame) (dialogs : List DialogRecord) : Partition :=
  match dialogs with
  | [_] => ⟨[mediaFrames frames], [[]]⟩
  | _ =>
    (mediaFrames frames).foldl (Partition.place dialogs) ⟨dialogs.map fun _ => [], dialogs.map fun _ => []⟩

end attribution

section metrics

structure SequenceMetrics where
  received : Nat
  unique : Value Nat
  expected : Value Nat
  lost : Value Nat
  duplicates : Value Nat
  reordered : Value Nat
  jitterMs : Value Rat
  timestampJumps : Value Nat
  deriving DecidableEq

/-- `_clock_rate` -/
def clockRate (dialog : DialogRecord) (frame : MediaFrame) : Option Int := do
  let rtp ← frame.rtp
  let payloadType ← rtp.payloadType.known?
  let receiver ← expectedReceiver dialog frame.toFrameRecord (direction frame.toFrameRecord dialog)
  let codecs ← receiver.codecs.known?
  let codec ← codecs.find? fun codec => decide (codec.payloadType = payloadType)
  codec.clockRate.known?

/-- The payload is hidden by encryption. -/
def MediaFrame.encrypted (frame : MediaFrame) : Bool :=
  frame.rtp.any fun rtp =>
    match rtp.payloadVisibility with
    | .unknown .unsupportedEncryption _ => true
    | _ => false

def MediaFrame.sequence? (frame : MediaFrame) : Option SequenceNumber := frame.rtp.bind fun rtp => rtp.sequence.known?

/-- Arrival, timestamp and clock rate of a packet. -/
structure Sample where
  arrival : Rat
  timestamp : RtpTimestamp
  rate : Int

def MediaFrame.sample? (dialog : DialogRecord) (frame : MediaFrame) : Option Sample := do
  let arrival ← frame.evidence.time
  let timestamp ← frame.rtp.bind fun rtp => rtp.timestamp.known?
  let rate ← clockRate dialog frame
  return ⟨arrival, timestamp, rate⟩

/-- Arrival in clock units, less the timestamp. -/
def Sample.transit (sample : Sample) : Rat := sample.arrival * sample.rate - sample.timestamp.val

/-- The timestamp moves otherwise than the arrival by more than the tolerance allows. -/
def Sample.jumps (toleranceMs : Rat) (previous sample : Sample) : Bool :=
  let timestampDelta : Int := ((sample.timestamp.val : Int) - previous.timestamp.val) % 2 ^ 32
  let expectedDelta := (sample.arrival - previous.arrival) * sample.rate
  decide (sample.rate * toleranceMs / 1000 < |(timestampDelta : Rat) - expectedDelta|)

/-- The estimate of the jitter in clock units, the jumps, and the packet before. -/
structure Timing where
  jitter : Option Rat
  jumps : Nat
  previous : Option Sample

def Timing.start : Timing := ⟨none, 0, none⟩

def Timing.step (toleranceMs : Rat) (timing : Timing) (sample : Sample) : Timing :=
  match timing.previous with
  | none => { timing with previous := some sample }
  | some previous =>
    let delta := |sample.transit - previous.transit|
    { jitter := some (timing.jitter.elim delta fun jitter => jitter + (delta - jitter) / 16)
      jumps := if previous.jumps toleranceMs sample then timing.jumps + 1 else timing.jumps
      previous := some sample }

/-- The loop over the packets, which ends at the first without arrival, timestamp or clock rate. -/
def Timing.follow (dialog : DialogRecord) (toleranceMs : Rat) : Timing → List MediaFrame → Timing
  | timing, [] => timing
  | timing, frame :: rest =>
    match frame.sample? dialog with
    | none => { timing with jitter := none }
    | some sample => (timing.step toleranceMs sample).follow dialog toleranceMs rest

/-- Jitter in milliseconds, by the clock rate of the first packet. -/
def jitterMs (jitter : Option Rat) (rate : Option Int) : Value Rat :=
  match jitter, rate with
  | some jitter, some rate =>
    if rate = 0 then .unknown .missingField "RTP clock rate or timestamp" else .known (jitter * 1000 / rate)
  | _, _ => .unknown .missingField "RTP clock rate or timestamp"

/-- Metrics of packets of which some sequence number cannot be read. -/
def unavailableMetrics (received : Nat) (encrypted : Bool) : SequenceMetrics :=
  let reason := if encrypted then UnknownReason.unsupportedEncryption else .missingField
  let hidden {α : Type} : Value α := .unknown reason "RTP sequence metrics unavailable"
  ⟨received, hidden, hidden, hidden, hidden, hidden, hidden, hidden⟩

/-- Every sequence number can be read. -/
def Available (frames : List MediaFrame) : Prop :=
  frames.any MediaFrame.encrypted = false ∧ ∀ frame ∈ frames, frame.sequence?.isSome = true

instance (frames : List MediaFrame) : Decidable (Available frames) := inferInstanceAs (Decidable (_ ∧ _))

/-- `_sequence_metrics`, which takes the first of the sequence numbers. -/
def streamMetrics (dialog : DialogRecord) (toleranceMs : Rat) (frames : List MediaFrame) :
    Except Builtin SequenceMetrics :=
  if Available frames then
    match frames with
    | [] => .error .indexError
    | first :: _ =>
      let counts := sequenceMetrics ((frames.filterMap MediaFrame.sequence?).map Fin.val)
      let timing := Timing.start.follow dialog toleranceMs frames
      .ok {
        received := frames.length
        unique := .known counts.unique
        expected := .known counts.expected
        lost := .known counts.lost
        duplicates := .known counts.duplicates
        reordered := .known counts.reordered
        jitterMs := jitterMs timing.jitter (clockRate dialog first)
        timestampJumps := .known timing.jumps }
  else .ok (unavailableMetrics frames.length (frames.any MediaFrame.encrypted))

end metrics

section samples

/-- A known endpoint, for tests. -/
def EndpointRecord.known (address : Text) (port : Int) : EndpointRecord :=
  ⟨.known address, .known .ipv4, .known port, .known .udp⟩

/-- A dialog between two hosts. -/
def DialogRecord.between (caller callee : Text) (sdpRevisions : List NegotiatedSdpRevision) : DialogRecord where
  key := ⟨"call", .known "caller", .known "callee", ⟨caller, 5060, callee, 5060, .udp⟩⟩
  caller := .known caller 5060
  callee := .known callee 5060
  transactionKeys := []
  state := .confirmed
  complete := .known true
  transitions := []
  sdpRevisions := sdpRevisions
  routeSet := []
  observedRoutes := []
  unknowns := []

/-- A description with one audio section of eight thousand clock units a second. -/
def NegotiatedSdpRevision.pcmu (time : Rat) (role : SdpRole) (address : Text) (port : Int) : NegotiatedSdpRevision where
  role := role
  method := some "INVITE"
  statusCode := none
  revision :=
    { evidence := ⟨.known 1, .known time⟩
      connectionAddress := .known address
      sessionName := .unknown .missingField none
      media := [
        { mediaType := .known "audio", address := .known address, port := .known port, protocol := .known "RTP/AVP"
          payloadTypes := .known [0]
          codecs := .known [⟨0, .known "PCMU", .known 8000, .unknown .missingField none, .unknown .missingField none⟩]
          telephoneEventPayloads := .known [], direction := .known "sendrecv"
          packetTimeMs := .unknown .missingField none, rtcpAddress := .unknown .missingField none
          rtcpPort := .unknown .missingField none }] }

/-- A call whose caller receives at port 4000 and whose callee at port 4002. -/
def DialogRecord.negotiated (caller callee : Text) : DialogRecord :=
  .between caller callee [.pcmu 0 .offer caller 4000, .pcmu 1 .answer callee 4002]

/-- A packet from the caller's port to the callee's. -/
def MediaFrame.packet (arrival : Value Rat) (caller callee : Text) (sequence : SequenceNumber)
    (timestamp : Value RtpTimestamp) : MediaFrame where
  evidence := ⟨.known 1, arrival⟩
  status := .known .complete
  source := .known caller 4000
  destination := .known callee 4002
  sip := none
  sdp := none
  rtp := some ⟨.known 1, .known sequence, timestamp, .known 0, .known .metadataOnly⟩
  rtcp := none

end samples

end Sippycup.Oracle
