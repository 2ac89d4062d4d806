import Sippycup.Media.Session

/-! The packet plan of a session, audio first and then the digits' RFC 4733 events, and
the independent check of the events of any packets. -/
namespace Sippycup.Media
open Sippycup.Python

def rtpSequenceStart : Nat := 1000
def rtpTimestampStart : Nat := 0
def rtpSsrc : Nat := 0x5A17C0DE
def dtmfDurationMs : Nat := 100
def dtmfEndPackets : Nat := 3
def dtmfGapMs : Nat := 40
def dtmfVolume : Byte := 10

inductive Kind where
  | audio | telephoneEvent
  deriving DecidableEq

structure PlannedPacket where
  scheduledMs : Nat
  revisionIndex : Nat
  kind : Kind
  sequence : Int
  timestamp : Int
  payloadType : Nat
  marker : Bool
  ssrc : Nat
  sourceAddress : Text
  sourcePort : Nat
  destinationAddress : Text
  destinationPort : Nat
  payload : List Byte
  digit : Option Nat
  event : Option Byte
  eventEnd : Option Bool
  eventDuration : Option Nat
  deriving DecidableEq

/-- The last of the leading revisions that are active by then; `result` is the one so far. -/
def revisionFrom (scheduledMs : Nat) : Nat → Nat → List Revision → Nat
  | _, result, [] => result
  | index, result, revision :: rest =>
    if revision.activationMs ≤ scheduledMs then revisionFrom scheduledMs (index + 1) index rest
    else result

def revisionAt (revisions : List Revision) (scheduledMs : Nat) : Nat :=
  revisionFrom scheduledMs 0 0 revisions

/-- What the packet carries of a digit's event. -/
structure Event where
  digit : Nat
  event : Byte
  atEnd : Bool
  duration : Nat

def packet (session : MediaSession) (scheduledMs : Nat) (sequence timestamp : Int) (payload : List Byte)
    (marker : Bool) (event : Option Event) : Result PlannedPacket :=
  let revisionIndex := revisionAt session.revisions scheduledMs
  match session.revisions[revisionIndex]? with
  | none => .error (.builtin .indexError)
  | some revision =>
    let payloadType :=
      if event.isNone then some revision.codecPayloadType else revision.telephoneEventPayloadType
    match payloadType with
    | none => fail s!"active revision {revisionIndex} has no telephone-event payload"
    | some payloadType =>
      .ok { scheduledMs, revisionIndex, kind := if event.isNone then .audio else .telephoneEvent
            sequence, timestamp, payloadType, marker, ssrc := rtpSsrc
            sourceAddress := revision.sourceAddress, sourcePort := revision.sourcePort
            destinationAddress := revision.destinationAddress
            destinationPort := revision.destinationPort, payload, digit := event.map Event.digit
            event := event.map Event.event, eventEnd := event.map Event.atEnd
            eventDuration := event.map Event.duration }

def progressPackets : Nat := dtmfDurationMs / packetizationMs

def packetsPerDigit : Nat := progressPackets + dtmfEndPackets - 1

/-- `struct.pack("!BBH", event, flags, duration)` -/
def packEvent (event : Byte) (atEnd : Bool) (duration : Nat) : List Byte :=
  [event, (if atEnd then 0x80 else 0) ||| dtmfVolume, Fin.ofNat 256 (duration / 256), Fin.ofNat 256 duration]

def atEnd (index : Nat) : Bool := decide (progressPackets - 1 ≤ index)

def eventDuration (clockHz index : Nat) : Nat :=
  (if atEnd index then progressPackets else index + 1) * packetizationMs * clockHz / 1000

def advanceMs : Nat := dtmfDurationMs + (dtmfEndPackets - 1) * packetizationMs + dtmfGapMs

/-- One packet of a digit's event. -/
def digitPacket (session : MediaSession) (digit : Nat) (event : Byte) (startMs : Nat)
    (sequence timestamp : Int) (index : Nat) : Result PlannedPacket :=
  let duration := eventDuration session.codec.rtpClockHz index
  packet session (startMs + index * packetizationMs) (sequence + index) timestamp
    (packEvent event (atEnd index) duration) (index == 0) (some ⟨digit, event, atEnd index, duration⟩)

def digitPackets (session : MediaSession) (digit : Nat) (event : Byte) (startMs : Nat)
    (sequence timestamp : Int) : Result (List PlannedPacket) :=
  (List.range packetsPerDigit).mapM (digitPacket session digit event startMs sequence timestamp)

def eventPackets (session : MediaSession) : Nat → Int → Int → List Nat → Result (List PlannedPacket)
  | _, _, _, [] => .ok []
  | startMs, sequence, timestamp, digit :: rest =>
    match dtmfEvent? digit with
    | none => .error (.builtin .keyError)
    | some event => do
      let first ← digitPackets session digit event startMs sequence timestamp
      let others ← eventPackets session (startMs + advanceMs) (sequence + packetsPerDigit)
        (timestamp + (advanceMs * session.codec.rtpClockHz / 1000 : Nat)) rest
      return first ++ others

def audioPacket (session : MediaSession) (payload : List Byte) (index : Nat) : Result PlannedPacket :=
  packet session (index * packetizationMs) (rtpSequenceStart + index) (rtpTimestampStart + index * 160)
    ((payload.drop (index * 160)).take 160) (index == 0) none

/-- `read` is what reading the canary asset gives. -/
def buildPacketPlan (session : MediaSession) (read : Except String (List Byte)) :
    Result (List PlannedPacket) :=
  match read with
  | .error error => fail ("cannot read canary asset: " ++ error)
  | .ok payload =>
    if payload.length ≠ 8000 ∨ sha256Hex (payload.map Fin.val) ≠ session.assetSha256 then
      fail "canary asset changed after session validation; refusing to send"
    else do
      let audioPackets := payload.length / 160
      let audio ← (List.range audioPackets).mapM (audioPacket session payload)
      let events ← eventPackets session (audioPackets * packetizationMs)
        (rtpSequenceStart + audioPackets) (rtpTimestampStart + audioPackets * 160) session.digits.codes
      let packets := audio ++ events
      if 200 < packets.length then fail "compiled packet plan exceeds 200 packets"
      else return packets

def isEvent (p : PlannedPacket) : Bool := decide (p.kind = .telephoneEvent)

/-- Adjacent packets of one timestamp; there is always a first one. -/
structure Group where
  first : PlannedPacket
  rest : List PlannedPacket

def Group.packets (group : Group) : List PlannedPacket := group.first :: group.rest

def contiguous : List PlannedPacket → Bool
  | previous :: current :: rest =>
    decide (current.sequence = previous.sequence + 1) && contiguous (current :: rest)
  | _ => true

def reappears (groups : List Group) (p : PlannedPacket) : Bool :=
  groups.any fun group => decide (group.first.timestamp = p.timestamp)

def newGroup (groups : List Group) (p : PlannedPacket) : Result (List Group) :=
  if reappears groups p then fail "telephone-event timestamp group reappeared"
  else .ok (groups ++ [⟨p, []⟩])

def addPacket (groups : List Group) (p : PlannedPacket) : Result (List Group) :=
  match groups.getLast? with
  | none => newGroup groups p
  | some group =>
    if group.first.timestamp ≠ p.timestamp then newGroup groups p
    else .ok (groups.dropLast ++ [⟨group.first, group.rest ++ [p]⟩])

/-- An event as `struct.unpack("!BBH", payload)` gives it. -/
structure Decoded where
  event : Byte
  flags : Byte
  duration : Nat

def decodeEvent (payload : List Byte) : Result Decoded :=
  match payload with
  | [event, flags, high, low] =>
    if flags &&& 0x40 ≠ 0 ∨ flags &&& 0x3F ≠ dtmfVolume then
      fail "telephone-event flags or volume are invalid"
    else .ok ⟨event, flags, high.val * 256 + low.val⟩
  | _ => fail "telephone-event payload must be four bytes"

def Decoded.atEnd (decoded : Decoded) : Bool := decide (decoded.flags &&& 0x80 ≠ 0)

/-- `{digit!r}` -/
def showDigit (digit : Nat) : String := (Text.mk [digit]).repr

def expectedDurations (clockRateHz : Nat) : List Nat :=
  (List.range packetsPerDigit).map fun index =>
    min (index + 1) progressPackets * packetizationMs * clockRateHz / 1000

def expectedEnds : List Bool :=
  (List.range packetsPerDigit).map fun index => decide (progressPackets - 1 ≤ index)

def checkDecoded (clockRateHz digit : Nat) (decoded : List Decoded) : Result Unit :=
  let durations := decoded.map Decoded.duration
  let ends := decoded.map Decoded.atEnd
  let finalDuration := dtmfDurationMs * clockRateHz / 1000
  if decoded.any fun d => decide (some d.event ≠ dtmfEvent? digit) then
    fail ("telephone-event digit " ++ showDigit digit ++ " has the wrong event code")
  else if durations ≠ expectedDurations clockRateHz then
    fail ("telephone-event digit " ++ showDigit digit ++ " duration progression is invalid")
  else if ends ≠ expectedEnds ∨ (durations.zip ends).any fun x => decide (x.1 ≠ finalDuration) && x.2 then
    fail ("telephone-event digit " ++ showDigit digit ++ " ending bits are invalid")
  else .ok ()

def checkGroup (clockRateHz digit : Nat) (group : List PlannedPacket) : Result Unit := do
  if group.length ≠ packetsPerDigit then
    fail ("telephone-event digit " ++ showDigit digit ++ " lacks redundant endings")
  else if group.map PlannedPacket.marker ≠ true :: List.replicate (packetsPerDigit - 1) false then
    fail ("telephone-event digit " ++ showDigit digit ++ " has invalid marker bits")
  else
    let decoded ← group.mapM fun p => decodeEvent p.payload
    checkDecoded clockRateHz digit decoded

def checkGroups (clockRateHz : Nat) : List (Nat × Group) → Result Unit
  | [] => .ok ()
  | (digit, group) :: rest => do
    checkGroup clockRateHz digit group.packets
    checkGroups clockRateHz rest

structure Validation where
  status : String
  digits : Text
  events : Nat
  packets : Nat
  redundantEndPackets : Nat
  deriving DecidableEq

def validateTelephoneEvents (packets : List PlannedPacket) (expectedDigits : Text) (clockRateHz : Nat) :
    Result Validation := do
  let events := packets.filter isEvent
  if maxDigits < expectedDigits.length ∨
      (expectedDigits.codes.any fun digit => (dtmfEvent? digit).isNone) then
    fail "expected DTMF digits are invalid"
  else if events.length ≠ expectedDigits.length * packetsPerDigit then
    fail "telephone-event packet count or redundant endings are incomplete"
  else if !contiguous events then fail "telephone-event RTP sequence is discontinuous"
  else
    let groups ← events.foldlM addPacket []
    if groups.length ≠ expectedDigits.length then fail "telephone-event digit grouping is malformed"
    else
      checkGroups clockRateHz (expectedDigits.codes.zip groups)
      return ⟨"passed", expectedDigits, groups.length, events.length, dtmfEndPackets⟩

end Sippycup.Media
