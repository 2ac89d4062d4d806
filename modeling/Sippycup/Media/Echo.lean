import Sippycup.Media.Negotiated

/-! RTP on the wire: the datagrams of planned packets, and the echo fixture that
reads and returns them. -/
namespace Sippycup.Media
open Sippycup.Python Sippycup.Machine

/-- `struct.pack("!BBHII", …)` and the payload; nothing where a field does not fit. -/
def wireBytes (p : PlannedPacket) : Option (List Nat) :=
  let second := (if p.marker then 0x80 else 0) ||| p.payloadType
  if second < 256 ∧ 0 ≤ p.sequence ∧ p.sequence < 2 ^ 16 ∧ 0 ≤ p.timestamp ∧ p.timestamp < 2 ^ 32 ∧ p.ssrc < 2 ^ 32 then
    some ([0x80, second] ++ Numeral.blocks 256 2 p.sequence.toNat ++ Numeral.blocks 256 4 p.timestamp.toNat ++
      Numeral.blocks 256 4 p.ssrc ++ p.payload.map Fin.val)
  else none

/-- What the fixture records of an event. -/
structure EchoEvent where
  event : Nat
  atEnd : Bool
  volume : Nat
  duration : Nat
  deriving DecidableEq

structure EchoRecord where
  sequence : Nat
  timestamp : Nat
  ssrc : Nat
  payloadType : Nat
  marker : Bool
  kind : Kind
  bytes : Nat
  event : Option EchoEvent
  deriving DecidableEq

/-- `struct.unpack` of an unsigned field. -/
def unpack (bytes : List Nat) (start width : Nat) : Nat := Numeral.read 256 ((bytes.drop start).take width)

def readEvent (datagram : List Nat) : EchoEvent where
  event := unpack datagram 12 1
  atEnd := decide (unpack datagram 13 1 &&& 0x80 ≠ 0)
  volume := unpack datagram 13 1 &&& 0x3F
  duration := unpack datagram 14 2

/-- A datagram of RTP version 2, as the fixture records it. -/
def readDatagram (telephoneEventPayloads : List Nat) (datagram : List Nat) : Option EchoRecord :=
  if datagram.length < 12 ∨ unpack datagram 0 1 / 64 ≠ 2 then none
  else
    let payloadType := unpack datagram 1 1 &&& 0x7F
    let kind : Kind := if payloadType ∈ telephoneEventPayloads then .telephoneEvent else .audio
    some {
      sequence := unpack datagram 2 2
      timestamp := unpack datagram 4 4
      ssrc := unpack datagram 8 4
      payloadType
      marker := decide (unpack datagram 1 1 &&& 0x80 ≠ 0)
      kind
      bytes := datagram.length
      event := if kind = .telephoneEvent ∧ datagram.length = 16 then some (readEvent datagram) else none }

/-- What the fixture recorded, and the datagrams it sent back. -/
structure Echoed where
  packets : List EchoRecord
  returned : List (List Nat)

/-- `run_echo`, of the datagrams that arrive before its deadline. -/
def runEcho (telephoneEventPayloads : List Nat) (maxPackets : Nat) : Echoed → List (List Nat) → Echoed
  | echoed, [] => echoed
  | echoed, datagram :: rest =>
    if maxPackets ≤ echoed.packets.length then echoed
    else
      match readDatagram telephoneEventPayloads datagram with
      | none => runEcho telephoneEventPayloads maxPackets echoed rest
      | some record => runEcho telephoneEventPayloads maxPackets
          ⟨echoed.packets ++ [record], echoed.returned ++ [datagram]⟩ rest

structure EchoReport where
  passed : Bool
  expectedPackets : Nat
  receivedPackets : Nat
  audioPackets : Nat
  telephoneEventPackets : Nat
  packets : List EchoRecord

def echoReport (maxPackets : Nat) (echoed : Echoed) : EchoReport where
  passed := decide (echoed.packets.length = maxPackets)
  expectedPackets := maxPackets
  receivedPackets := echoed.packets.length
  audioPackets := echoed.packets.countP fun r => decide (r.kind = .audio)
  telephoneEventPackets := echoed.packets.countP fun r => decide (r.kind = .telephoneEvent)
  packets := echoed.packets

/-- What the fixture is to record of a planned packet. -/
def recordOf (p : PlannedPacket) : EchoRecord where
  sequence := p.sequence.toNat
  timestamp := p.timestamp.toNat
  ssrc := p.ssrc
  payloadType := p.payloadType
  marker := p.marker
  kind := p.kind
  bytes := 12 + p.payload.length
  event :=
    match p.event, p.eventEnd, p.eventDuration with
    | some event, some atEnd, some duration => some ⟨event.val, atEnd, dtmfVolume.val, duration⟩
    | _, _, _ => none

/-- A packet whose fields fit the wire, and whose payload is that of its kind. -/
structure Sendable (p : PlannedPacket) : Prop where
  payloadType : p.payloadType < 128
  sequence : 0 ≤ p.sequence ∧ p.sequence < 2 ^ 16
  timestamp : 0 ≤ p.timestamp ∧ p.timestamp < 2 ^ 32
  ssrc : p.ssrc < 2 ^ 32
  payload : (p.kind = .audio ∧ p.event = none) ∨
    p.kind = .telephoneEvent ∧ ∃ event atEnd duration, p.event = some event ∧ p.eventEnd = some atEnd ∧
      p.eventDuration = some duration ∧ duration < 2 ^ 16 ∧ p.payload = packEvent event atEnd duration

section wire
variable {p : PlannedPacket}

theorem second_byte : ∀ payloadType < 128, ∀ marker : Bool,
    (if marker then 0x80 else 0) ||| payloadType < 256 ∧
      ((if marker then 0x80 else 0) ||| payloadType) &&& 0x7F = payloadType ∧
        decide (((if marker then 0x80 else 0) ||| payloadType) &&& 0x80 ≠ 0) = marker := by
  decide +kernel

theorem event_flags : ∀ atEnd : Bool,
    decide (((if atEnd then 0x80 else 0) ||| dtmfVolume : Byte).val &&& 0x80 ≠ 0) = atEnd ∧
      ((if atEnd then 0x80 else 0) ||| dtmfVolume : Byte).val &&& 0x3F = dtmfVolume.val := by
  decide

theorem unpack_append (front middle rest : List Nat) :
    unpack (front ++ (middle ++ rest)) front.length middle.length = Numeral.read 256 middle := by
  rw [unpack, List.drop_left, List.take_left]

/-- The header of a packet that fits the wire, field by field. -/
theorem sendable_wire (sendable : Sendable p) : ∃ header : List Nat, header.length = 12 ∧
    wireBytes p = some (header ++ p.payload.map Fin.val) ∧ ∀ rest : List Nat,
      unpack (header ++ rest) 0 1 / 64 = 2 ∧ unpack (header ++ rest) 1 1 &&& 0x7F = p.payloadType ∧
        decide (unpack (header ++ rest) 1 1 &&& 0x80 ≠ 0) = p.marker ∧
          unpack (header ++ rest) 2 2 = p.sequence.toNat ∧ unpack (header ++ rest) 4 4 = p.timestamp.toNat ∧
            unpack (header ++ rest) 8 4 = p.ssrc := by
  obtain ⟨small, low, high⟩ := second_byte p.payloadType sendable.payloadType p.marker
  have sequence : p.sequence.toNat < 256 ^ 2 := by
    have := sendable.sequence
    omega
  have timestamp : p.timestamp.toNat < 256 ^ 4 := by
    have := sendable.timestamp
    omega
  have ssrc : p.ssrc < 256 ^ 4 := sendable.ssrc
  refine ⟨_, ?_, if_pos ⟨small, sendable.sequence.1, sendable.sequence.2, sendable.timestamp.1, sendable.timestamp.2,
    sendable.ssrc⟩, fun rest => ?_⟩
  · simp
  simp only [List.append_assoc]
  generalize (if p.marker then 0x80 else 0) ||| p.payloadType = second at small low high
  have first := unpack_append [] [0x80] ([second] ++ (Numeral.blocks 256 2 p.sequence.toNat ++
    (Numeral.blocks 256 4 p.timestamp.toNat ++ (Numeral.blocks 256 4 p.ssrc ++ rest))))
  have one := unpack_append [0x80] [second] (Numeral.blocks 256 2 p.sequence.toNat ++
    (Numeral.blocks 256 4 p.timestamp.toNat ++ (Numeral.blocks 256 4 p.ssrc ++ rest)))
  have two := unpack_append [0x80, second] (Numeral.blocks 256 2 p.sequence.toNat)
    (Numeral.blocks 256 4 p.timestamp.toNat ++ (Numeral.blocks 256 4 p.ssrc ++ rest))
  have four := unpack_append ([0x80, second] ++ Numeral.blocks 256 2 p.sequence.toNat)
    (Numeral.blocks 256 4 p.timestamp.toNat) (Numeral.blocks 256 4 p.ssrc ++ rest)
  have eight := unpack_append ([0x80, second] ++ Numeral.blocks 256 2 p.sequence.toNat ++
    Numeral.blocks 256 4 p.timestamp.toNat) (Numeral.blocks 256 4 p.ssrc) rest
  rw [Numeral.read_blocks sequence] at two
  rw [Numeral.read_blocks timestamp] at four
  rw [Numeral.read_blocks ssrc] at eight
  simp only [List.append_assoc, List.length_append, List.length_cons, List.length_nil, Numeral.length_blocks,
    List.cons_append, List.nil_append, Numeral.read_singleton] at first one two four eight ⊢
  exact ⟨by rw [first], by rw [one, low], by simpa only [one] using high, two, four, eight⟩

/-- The event that a packet carries behind its header. -/
theorem readEvent_packed {header : List Nat} {event : Byte} {atEnd : Bool} {duration : Nat}
    (twelve : header.length = 12) (small : duration < 2 ^ 16) :
    readEvent (header ++ (packEvent event atEnd duration).map Fin.val) =
      ⟨event.val, atEnd, dtmfVolume.val, duration⟩ := by
  obtain ⟨ends, volume⟩ := event_flags atEnd
  rw [packEvent]
  generalize (if atEnd then 0x80 else 0) ||| dtmfVolume = flags at ends volume ⊢
  have code := unpack_append header [event.val] [flags.val, duration / 256 % 256, duration % 256]
  have flag := unpack_append (header ++ [event.val]) [flags.val] [duration / 256 % 256, duration % 256]
  have lasts := unpack_append (header ++ [event.val, flags.val]) [duration / 256 % 256, duration % 256] []
  have read : Numeral.read 256 [duration / 256 % 256, duration % 256] = duration := by
    have pair := @Numeral.read_concat 256 [duration / 256 % 256] (duration % 256)
    rw [Numeral.read_singleton] at pair
    exact pair.trans (by omega)
  rw [read] at lasts
  simp only [List.append_assoc, List.length_append, twelve, List.length_cons, List.length_nil, List.cons_append,
    List.nil_append, Numeral.read_singleton] at code flag lasts
  simp only [readEvent, List.map_cons, List.map_nil, Fin.val_ofNat, EchoEvent.mk.injEq]
  exact ⟨code, by simpa only [flag] using ends, by simpa only [flag] using volume, lasts⟩

/-- The fixture reads back every packet that it can tell from the other kind. -/
theorem readDatagram_wire {payloads : List Nat} (sendable : Sendable p)
    (told : p.payloadType ∈ payloads ↔ p.kind = .telephoneEvent) :
    ∃ wire, wireBytes p = some wire ∧ readDatagram payloads wire = some (recordOf p) := by
  obtain ⟨header, twelve, wired, fields⟩ := sendable_wire sendable
  obtain ⟨version, type, marker, sequence, timestamp, ssrc⟩ := fields (p.payload.map Fin.val)
  have long : (header ++ p.payload.map Fin.val).length = 12 + p.payload.length := by
    rw [List.length_append, List.length_map, twelve]
  have kind : (if p.payloadType ∈ payloads then Kind.telephoneEvent else .audio) = p.kind := by
    split
    · exact (told.mp ‹_›).symm
    · rcases sendable.payload with ⟨audio, -⟩ | ⟨event, -⟩
      · exact audio.symm
      · exact absurd (told.mpr event) ‹_›
  refine ⟨_, wired, ?_⟩
  rw [readDatagram, if_neg (by rw [long, version]; omega)]
  simp only [type, marker, sequence, timestamp, ssrc, long, kind, recordOf, Option.some.injEq, EchoRecord.mk.injEq,
    true_and]
  rcases sendable.payload with ⟨audio, none_⟩ | ⟨kind, event, atEnd, duration, named, ends, lasts, small, payload⟩
  · rw [if_neg (by rw [audio]; exact fun both => nomatch both.1), none_]
  · have four : p.payload.length = 4 := by
      rw [payload]
      rfl
    rw [if_pos ⟨kind, by rw [four]⟩, named, ends, lasts, payload]
    exact congrArg some (readEvent_packed twelve small)

end wire

/-- Of whatever arrives, the fixture records and returns the first RTP datagrams, up to its limit. -/
theorem runEcho_takes (payloads : List Nat) (limit : Nat) (arrivals : List (List Nat)) (echoed : Echoed) :
    runEcho payloads limit echoed arrivals =
      ⟨echoed.packets ++ (arrivals.filterMap (readDatagram payloads)).take (limit - echoed.packets.length),
        echoed.returned ++ (arrivals.filter fun datagram => (readDatagram payloads datagram).isSome).take
          (limit - echoed.packets.length)⟩ := by
  induction arrivals generalizing echoed with
  | nil => simp [runEcho]
  | cons datagram rest ih =>
    rw [runEcho]
    split
    · rename_i full
      rw [Nat.sub_eq_zero_of_le full, List.take_zero, List.take_zero, List.append_nil, List.append_nil]
    · rename_i more
      obtain ⟨left, room⟩ : ∃ left, limit - echoed.packets.length = left + 1 :=
        ⟨limit - echoed.packets.length - 1, by omega⟩
      split
      · rename_i ignored
        rw [ih, List.filterMap_cons_none ignored, List.filter_cons_of_neg (by rw [ignored]; decide)]
      · rename_i record read
        rw [ih, List.filterMap_cons_some read, List.filter_cons_of_pos (by rw [read]; rfl), room, List.length_append,
          List.length_singleton, ← Nat.sub_sub, room, Nat.add_sub_cancel, List.take_succ_cons, List.take_succ_cons]
        simp only [List.append_assoc, List.cons_append, List.nil_append]

section plan
variable {session : MediaSession} {read : Except String (List Byte)} {packets : List PlannedPacket}

/-- Every packet of a plan is one of the audio or one of a digit's event. -/
theorem plan_each {P : PlannedPacket → Prop} (ok : buildPacketPlan session read = .ok packets)
    (audio : ∀ payload index p, audioPacket session payload index = .ok p → P p)
    (event : ∀ digit code startMs sequence timestamp index p,
      digitPacket session digit code startMs sequence timestamp index = .ok p → P p) : ∀ p ∈ packets, P p := by
  have events : ∀ digits startMs sequence timestamp more,
      eventPackets session startMs sequence timestamp digits = .ok more → ∀ p ∈ more, P p := by
    intro digits
    induction digits with
    | nil =>
      intro _ _ _ _ ok
      cases ok
      exact nofun
    | cons digit rest ih =>
      intro _ _ _ _ ok
      unfold eventPackets at ok
      split at ok
      · cases ok
      · obtain ⟨first, made, ok⟩ := bind_ok.mp ok
        obtain ⟨others, later, ok⟩ := bind_ok.mp ok
        cases ok
        refine List.forall_mem_append.mpr ⟨fun p member => ?_, ih _ _ _ _ later⟩
        obtain ⟨index, one⟩ := forall₂_mem (mapM_ok made) p member
        exact event _ _ _ _ _ _ _ one
  unfold buildPacketPlan at ok
  split at ok
  · cases ok
  split at ok
  · cases ok
  obtain ⟨sounds, sounded, ok⟩ := bind_ok.mp ok
  obtain ⟨more, emitted, ok⟩ := bind_ok.mp ok
  dsimp only at ok
  split at ok
  · cases ok
  cases ok
  refine List.forall_mem_append.mpr ⟨fun p member => ?_, events _ _ _ _ _ emitted⟩
  obtain ⟨index, one⟩ := forall₂_mem (mapM_ok sounded) p member
  exact audio _ _ _ one

theorem packet_carries {scheduledMs : Nat} {sequence timestamp : Int} {payload : List Byte} {marker : Bool}
    {event : Option Event} {p : PlannedPacket}
    (ok : packet session scheduledMs sequence timestamp payload marker event = .ok p) :
    (p.ssrc = rtpSsrc ∧ ∃ revision ∈ session.revisions, payloadTypeOf revision p.kind = some p.payloadType) ∧
      p.kind = (if event.isNone then .audio else .telephoneEvent) ∧ p.payload = payload ∧
        p.event = event.map Event.event ∧ p.eventEnd = event.map Event.atEnd ∧
          p.eventDuration = event.map Event.duration := by
  unfold packet at ok
  dsimp only at ok
  split at ok
  · cases ok
  · rename_i revision placed
    split at ok
    · cases ok
    · rename_i payloadType chosen
      cases ok
      refine ⟨⟨rfl, revision, List.mem_of_getElem? placed, ?_⟩, rfl, rfl, rfl, rfl, rfl⟩
      rw [← chosen]
      cases event <;> rfl

/-- The payload types of the session are of seven bits, and the fixture is told which are those of events. -/
structure Told (session : MediaSession) (payloads : List Nat) : Prop where
  audio : ∀ r ∈ session.revisions, r.codecPayloadType < 128 ∧ r.codecPayloadType ∉ payloads
  events : ∀ r ∈ session.revisions, ∀ t ∈ r.telephoneEventPayloadType, t < 128 ∧ t ∈ payloads

/-- The payload type and the payload of a planned packet. -/
theorem plan_payloads {payloads : List Nat} (told : Told session payloads)
    (built : buildPacketPlan session read = .ok packets) : ∀ p ∈ packets,
      (p.payloadType < 128 ∧ p.ssrc < 2 ^ 32 ∧ (p.payloadType ∈ payloads ↔ p.kind = .telephoneEvent)) ∧
      ((p.kind = .audio ∧ p.event = none) ∨ p.kind = .telephoneEvent ∧ ∃ event atEnd duration,
        p.event = some event ∧ p.eventEnd = some atEnd ∧ p.eventDuration = some duration ∧ duration < 2 ^ 16 ∧
          p.payload = packEvent event atEnd duration) := by
  refine plan_each built (fun payload index p ok => ?_) fun digit code startMs sequence timestamp index p ok => ?_
  · obtain ⟨⟨ssrc, r, member, type⟩, kind, -, event, -⟩ := packet_carries ok
    rw [kind] at type ⊢
    obtain ⟨small, apart⟩ := told.audio r member
    rw [← show r.codecPayloadType = p.payloadType from Option.some.inj type]
    exact ⟨⟨small, by rw [ssrc]; decide, iff_of_false apart nofun⟩, .inl ⟨rfl, event⟩⟩
  · obtain ⟨⟨ssrc, r, member, type⟩, kind, payload, event, ends, lasts⟩ := packet_carries ok
    rw [kind] at type ⊢
    obtain ⟨small, among⟩ := told.events r member _ type
    refine ⟨⟨small, by rw [ssrc]; decide, iff_of_true among rfl⟩, .inr ⟨rfl, _, _, _, event, ends, lasts, ?_, payload⟩⟩
    change eventDuration session.codec.rtpClockHz index < 2 ^ 16
    rw [clock_eq, eventDuration, progressPackets, packetizationMs, dtmfDurationMs, atEnd]
    split
    · decide
    · rename_i early
      have before := of_decide_eq_false (Bool.eq_false_iff.mpr early)
      rw [progressPackets, packetizationMs, dtmfDurationMs] at before
      omega

/-- Every packet of a loaded session's plan fits the wire, and the fixture reads it back. -/
theorem plan_read {readers : Readers} {value : JsonValue} {payloads : List Nat}
    (loaded : loadSession readers value = .ok session) (told : Told session payloads)
    (built : buildPacketPlan session read = .ok packets) {p : PlannedPacket} (member : p ∈ packets) :
    ∃ wire, wireBytes p = some wire ∧ readDatagram payloads wire = some (recordOf p) := by
  have placed := buildPacketPlan_placed built
  have short := (loadSession_loaded loaded).short
  obtain ⟨⟨small, ssrc, kind⟩, payload⟩ := plan_payloads told built p member
  obtain ⟨i, there⟩ := List.mem_iff_getElem?.mp member
  have inside := (List.getElem?_eq_some_iff.mp there).1
  have shows := placed.shows i p there
  rw [placed.length] at inside
  unfold maxDigits at short
  refine readDatagram_wire ⟨small, ?_, ?_, ssrc, payload⟩ kind
  · rw [shows.sequence]
    unfold audioCount at inside
    omega
  · rw [shows.timestamp, timestampAt]
    unfold audioCount at inside ⊢
    split
    · omega
    · omega

theorem plan_wires {readers : Readers} {value : JsonValue} {payloads : List Nat}
    (loaded : loadSession readers value = .ok session) (told : Told session payloads)
    (built : buildPacketPlan session read = .ok packets) :
    (packets.filterMap wireBytes).map some = packets.map wireBytes ∧
      (packets.filterMap wireBytes).filterMap (readDatagram payloads) = packets.map recordOf ∧
        ∀ wire ∈ packets.filterMap wireBytes, (readDatagram payloads wire).isSome = true := by
  have each := fun p (member : p ∈ packets) => plan_read loaded told built member
  clear built
  induction packets with
  | nil => exact ⟨rfl, rfl, nofun⟩
  | cons p rest ih =>
    obtain ⟨⟨wire, wired, read⟩, later⟩ := List.forall_mem_cons.mp each
    obtain ⟨wires, records, readable⟩ := ih later
    rw [List.filterMap_cons_some wired, List.map_cons, List.map_cons, wired, wires, List.filterMap_cons_some read,
      records]
    exact ⟨rfl, rfl, List.forall_mem_cons.mpr ⟨by rw [read]; rfl, readable⟩⟩

end plan

/-- What the fixture records and returns where the datagrams of a plan arrive. -/
theorem runEcho_plan {readers : Readers} {value : JsonValue} {session : MediaSession} {read : Except String (List Byte)}
    {packets : List PlannedPacket} {payloads : List Nat} {arrivals : List (List Nat)}
    (loaded : loadSession readers value = .ok session) (told : Told session payloads)
    (built : buildPacketPlan session read = .ok packets)
    (carried : (arrivals.filter fun datagram => (readDatagram payloads datagram).isSome) =
      packets.filterMap wireBytes) :
    runEcho payloads packets.length ⟨[], []⟩ arrivals = ⟨packets.map recordOf, packets.filterMap wireBytes⟩ := by
  obtain ⟨wires, records, -⟩ := plan_wires loaded told built
  have count : (packets.filterMap wireBytes).length = packets.length := by
    simpa using congrArg List.length wires
  have only : arrivals.filterMap (readDatagram payloads) = packets.map recordOf := by
    rw [← records, ← carried, List.filterMap_filter]
    refine List.filterMap_congr fun datagram _ => ?_
    cases readDatagram payloads datagram <;> rfl
  have limit : packets.length - ([] : List EchoRecord).length = packets.length := Nat.sub_zero _
  rw [runEcho_takes, carried, only, limit, List.take_of_length_le count.le,
    List.take_of_length_le (List.length_map _).le, List.nil_append, List.nil_append]

/-- Where the RTP datagrams that arrive are those of a plan, with anything else between them, the fixture
returns them as they are, records every field of every packet, and passes. -/
theorem fixture_returns_plan (readers : Readers) (value : JsonValue) (session : MediaSession)
    (loaded : loadSession readers value = .ok session) (read : Except String (List Byte))
    (packets : List PlannedPacket) (built : buildPacketPlan session read = .ok packets) (payloads : List Nat)
    (told : Told session payloads) (arrivals : List (List Nat))
    (carried : (arrivals.filter fun datagram => (readDatagram payloads datagram).isSome) =
      packets.filterMap wireBytes) :
    (runEcho payloads packets.length ⟨[], []⟩ arrivals).returned.map some = packets.map wireBytes ∧
      echoReport packets.length (runEcho payloads packets.length ⟨[], []⟩ arrivals) =
        ⟨true, packets.length, packets.length, packets.countP fun p => decide (p.kind = .audio), packets.countP isEvent,
          packets.map recordOf⟩ := by
  rw [runEcho_plan loaded told built carried, echoReport, List.length_map, List.countP_map, List.countP_map,
    decide_eq_true rfl]
  exact ⟨(plan_wires loaded told built).1, rfl⟩

set_option maxRecDepth 100000 in
theorem two_fives_returned : ∃ session packets, loadSession oneAddress twoFives = .ok session ∧
    buildPacketPlan session (.ok silence) = .ok packets ∧
      (runEcho [101] packets.length ⟨[], []⟩ ([0] :: packets.filterMap wireBytes)).returned.map some =
        packets.map wireBytes := by
  have loaded : loadSession oneAddress twoFives = .ok
      ⟨"caller_to_callee", .pcmu, "55", false, 20,
        [⟨0, "192.0.2.1", 4000, "192.0.2.1", 4000, .inet, 0, some 101⟩],
        sha256Hex (silence.map Fin.val)⟩ := rfl
  obtain ⟨packets, built⟩ := buildPacketPlan_total (loadSession_loaded loaded) List.length_replicate rfl
  obtain ⟨-, -, readable⟩ := @plan_wires _ _ _ _ _ [101] loaded ⟨by decide, by decide⟩ built
  exact ⟨_, packets, loaded, built, (fixture_returns_plan oneAddress twoFives _ loaded (.ok silence) packets built [101]
    ⟨by decide, by decide⟩ _ ((List.filter_cons_of_neg (by decide)).trans (List.filter_eq_self.mpr readable))).1⟩

end Sippycup.Media
