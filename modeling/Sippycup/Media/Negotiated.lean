import Sippycup.Media.AudioSection
import Sippycup.Media.TelephoneEvents

/-! Packets go along the revision that is active when they are sent, from the
audio endpoint of its local SDP to that of its remote SDP, on payload types that
both offer. -/
namespace Sippycup.Media
open Sippycup.Python Sippycup.Ip Sippycup.Machine

/-- The revision of that index in a session document: its activation and its two SDP texts. -/
structure Proposes (value : JsonValue) (index activation : Nat) (localSdp remoteSdp : Text) : Prop where
  item : ∃ (document item : JsonDict) (items : List JsonValue), value = .dict document ∧
    document.find "revisions" = .list items ∧ items[index]? = some (.dict item) ∧
      item.find "activationMs" = .int activation ∧ item.find "localSdp" = .str localSdp ∧
        item.find "remoteSdp" = .str remoteSdp

/-- The revision of that index is the one with the greatest activation by then. -/
structure Active (value : JsonValue) (scheduledMs index : Nat) (localSdp remoteSdp : Text) : Prop where
  proposed : ∃ activation, Proposes value index activation localSdp remoteSdp ∧ activation ≤ scheduledMs ∧
    ∀ other later first second, Proposes value other later first second → later ≤ scheduledMs →
      later ≤ activation

/-- The encoding of a kind of packets. -/
def encodingOf (codec : Codec) : Kind → Text
  | .audio => codec.name
  | .telephoneEvent => "TELEPHONE-EVENT"

/-- A packet goes along the active revision. -/
structure Routed (unicode : Unicode) (value : JsonValue) (codec : Codec) (p : PlannedPacket)
    (localSdp remoteSdp : Text) : Prop where
  active : Active value p.scheduledMs p.revisionIndex localSdp remoteSdp
  source : Endpoint unicode localSdp p.sourceAddress p.sourcePort
  destination : Endpoint unicode remoteSdp p.destinationAddress p.destinationPort
  offered : Offers unicode localSdp p.payloadType (encodingOf codec p.kind) codec.rtpClockHz
  answered : Offers unicode remoteSdp p.payloadType (encodingOf codec p.kind) codec.rtpClockHz

/-- Two packets of one telephone event: both are events of the same digit, and no event
starts after the first of them up to the second. -/
def OneEvent (packets : List PlannedPacket) (i j : Nat) : Prop :=
  ∃ p q, packets[i]? = some p ∧ packets[j]? = some q ∧ isEvent p = true ∧ isEvent q = true ∧ p.digit = q.digit ∧
    ∀ k r, i < k → k ≤ j → packets[k]? = some r → r.marker = false

/-- The packets of a plan, in their order. -/
structure InOrder (packets : List PlannedPacket) : Prop where
  times : packets.Pairwise fun p q => p.scheduledMs < q.scheduledMs
  sequences : ∀ i p q, packets[i]? = some p → packets[i + 1]? = some q → q.sequence = p.sequence + 1
  timestamps : packets.Pairwise fun p q => p.timestamp ≤ q.timestamp
  shared : ∀ i j p q, i < j → packets[i]? = some p → packets[j]? = some q → p.timestamp = q.timestamp →
    OneEvent packets i j

/-- The plan of a session document sends its media only along the negotiated revisions. -/
structure Negotiated (unicode : Unicode) (value : JsonValue) (session : MediaSession)
    (packets : List PlannedPacket) : Prop where
  routed : ∀ p ∈ packets, ∃ localSdp remoteSdp, Routed unicode value session.codec p localSdp remoteSdp
  ordered : InOrder packets
  started : ∀ index activation localSdp remoteSdp, Proposes value index activation localSdp remoteSdp →
    ∃ p ∈ packets, p.revisionIndex = index ∧ p.scheduledMs = activation ∧
      ∀ q ∈ packets, q.revisionIndex = index → activation ≤ q.scheduledMs

section revisions
variable {unicode : Unicode} {asset : Text → Codec → Result Text} {codec : Codec} {digits : Text}

/-- The payload type that a revision gives to a kind of packets. -/
def payloadTypeOf (revision : Revision) : Kind → Option Nat
  | .audio => some revision.codecPayloadType
  | .telephoneEvent => revision.telephoneEventPayloadType

/-- A revision has the endpoints and the payload types of its two SDP texts. -/
structure Settles (unicode : Unicode) (codec : Codec) (localSdp remoteSdp : Text) (revision : Revision) : Prop where
  source : Endpoint unicode localSdp revision.sourceAddress revision.sourcePort
  destination : Endpoint unicode remoteSdp revision.destinationAddress revision.destinationPort
  payloads : ∀ kind payloadType, payloadTypeOf revision kind = some payloadType →
    Offers unicode localSdp payloadType (encodingOf codec kind) codec.rtpClockHz ∧
      Offers unicode remoteSdp payloadType (encodingOf codec kind) codec.rtpClockHz

/-- A revision as its document proposes it. -/
structure Agreed (unicode : Unicode) (codec : Codec) (item : JsonValue) (revision : Revision) : Prop where
  proposed : ∃ (d : JsonDict) (localSdp remoteSdp : Text), item = .dict d ∧
    d.find "activationMs" = .int revision.activationMs ∧ d.find "localSdp" = .str localSdp ∧
      d.find "remoteSdp" = .str remoteSdp ∧ Settles unicode codec localSdp remoteSdp revision
  within : revision.activationMs ≤ 980
  aligned : revision.activationMs % packetizationMs = 0

theorem payloadFor_ok {raw : Text} {audio : SdpAudio} {name : String} {rate payloadType : Nat}
    (reads : ReadsAudio unicode raw audio) (ok : payloadFor audio name rate = .ok (some payloadType)) :
    Offers unicode raw payloadType name rate := by
  unfold payloadFor at ok
  dsimp only at ok
  split at ok
  · cases ok
  · have found := Except.ok.inj ok
    obtain ⟨⟨_, other, clock⟩, first, rfl⟩ := Option.map_eq_some_iff.mp found
    have member := List.mem_of_head? first
    obtain ⟨listed, same⟩ := List.mem_filter.mp member
    obtain ⟨rfl, rfl⟩ := of_decide_eq_true same
    exact reads.offers _ _ _ listed

theorem codecPayload_ok {index payloadType : Nat} {localCodec remoteCodec : Option Nat}
    (ok : codecPayload index codec localCodec remoteCodec = .ok payloadType) :
    localCodec = some payloadType ∧ remoteCodec = some payloadType := by
  unfold codecPayload at ok
  split at ok
  · split at ok
    · rename_i same
      cases ok
      exact ⟨rfl, congrArg some same.symm⟩
    · cases ok
  · cases ok

theorem eventPayload_some {index clockRate payloadType : Nat} {localEvent remoteEvent : Option Nat}
    (ok : eventPayload digits index clockRate localEvent remoteEvent = .ok (some payloadType)) :
    localEvent = some payloadType ∧ remoteEvent = some payloadType := by
  unfold eventPayload at ok
  split at ok
  · cases ok
  · split at ok
    · split at ok
      · rename_i agrees
        cases ok
        exact ⟨rfl, congrArg some agrees.1.symm⟩
      · cases ok
    · cases ok

theorem sdpText_ok {d : JsonDict} {index : Nat} {first second : Text} (ok : sdpText d index = .ok (first, second)) :
    d.find "localSdp" = .str first ∧ d.find "remoteSdp" = .str second := by
  unfold sdpText at ok
  split at ok
  · rename_i left right
    cases ok
    exact ⟨left, right⟩
  · cases ok

theorem mapping_ok {value : JsonValue} {field : String} {d : JsonDict} (ok : mapping value field = .ok d) :
    value = .dict d := by
  unfold mapping at ok
  split at ok
  · cases ok
    rfl
  · cases ok

/-- A parsed revision agrees with both of its SDP texts. -/
theorem parseRevision_agreed {item : JsonValue} {index : Nat} {revision : Revision}
    (ok : parseRevision (sdpReaders unicode asset) codec digits item index = .ok revision) :
    Agreed unicode codec item revision := by
  obtain ⟨d, mapped, ok⟩ := bind_ok.mp ok
  obtain ⟨_, -, ok⟩ := bind_ok.mp ok
  obtain ⟨activation, bounded, ok⟩ := bind_ok.mp ok
  obtain ⟨written, -, within⟩ := integer_ok bounded
  split at ok
  · cases ok
  rename_i aligned
  obtain ⟨⟨localSdp, remoteSdp⟩, texts, ok⟩ := bind_ok.mp ok
  obtain ⟨first, readFirst, ok⟩ := bind_ok.mp ok
  obtain ⟨second, readSecond, ok⟩ := bind_ok.mp ok
  obtain ⟨⟨source, sourceFamily⟩, bound, ok⟩ := bind_ok.mp ok
  obtain ⟨⟨destination, destinationFamily⟩, sent, ok⟩ := bind_ok.mp ok
  dsimp only at ok
  split at ok
  · cases ok
  simp only [bind_ok, pure_ok] at ok
  obtain ⟨localCodec, mapsFirst, remoteCodec, mapsSecond, payload, agreed, localEvent, eventFirst, remoteEvent,
    eventSecond, event, negotiated, rfl⟩ := ok
  have left := parseSdp_reads readFirst
  have right := parseSdp_reads readSecond
  have address {audio : SdpAudio} {text : Text} {family : Family} {field : String} {raw : Text}
      (reads : ReadsAudio unicode raw audio) (ok : literalUnicast audio.address field = .ok (text, family)) :
      text = audio.address := by
    obtain ⟨found, same⟩ := reads.literal
    rw [same] at ok ⊢
    exact literalUnicast_text ok
  obtain ⟨localText, remoteText⟩ := sdpText_ok texts
  obtain rfl := address left bound
  obtain rfl := address right sent
  obtain ⟨codecFirst, codecSecond⟩ := codecPayload_ok agreed
  refine ⟨⟨d, localSdp, remoteSdp, mapping_ok mapped, written, localText, remoteText, left.endpoint, right.endpoint,
    fun kind payloadType chosen => ?_⟩, within, not_not.mp aligned⟩
  cases kind with
  | audio =>
    cases chosen
    rw [codecFirst] at mapsFirst
    rw [codecSecond] at mapsSecond
    exact ⟨payloadFor_ok left mapsFirst, payloadFor_ok right mapsSecond⟩
  | telephoneEvent =>
    rw [payloadTypeOf] at chosen
    dsimp only at chosen
    rw [chosen] at negotiated
    obtain ⟨here, there⟩ := eventPayload_some negotiated
    rw [here] at eventFirst
    rw [there] at eventSecond
    exact ⟨payloadFor_ok left eventFirst, payloadFor_ok right eventSecond⟩

theorem readRevisions_ok {value : JsonValue} {items : List JsonValue} (ok : readRevisions value = .ok items) :
    value = .list items := by
  unfold readRevisions at ok
  split at ok
  · split at ok
    · cases ok
    · cases ok
      rfl
  · cases ok

theorem parseRevisions_agreed {items : List JsonValue} {index : Nat} {revisions : List Revision}
    (ok : parseRevisions (sdpReaders unicode asset) codec digits index items = .ok revisions) :
    List.Forall₂ (Agreed unicode codec) items revisions := by
  induction items generalizing index revisions with
  | nil =>
    cases ok
    exact .nil
  | cons item rest ih =>
    obtain ⟨revision, first, ok⟩ := bind_ok.mp ok
    obtain ⟨others, later, ok⟩ := bind_ok.mp ok
    cases ok
    exact .cons (parseRevision_agreed first) (ih later)

theorem increasing_pairwise {values : List Nat} (ordered : increasing values = true) :
    values.Pairwise (· < ·) := by
  have same : values.dedup.insertionSort (fun a b => a ≤ b) = values := of_decide_eq_true ordered
  have sorted : values.Pairwise (· ≤ ·) := by
    have := List.pairwise_insertionSort (· ≤ ·) values.dedup
    rwa [same] at this
  have apart : values.Nodup := by
    have := ((List.perm_insertionSort (· ≤ ·) values.dedup).nodup_iff).mpr (List.nodup_dedup values)
    rwa [same] at this
  exact (List.pairwise_and_iff.mpr ⟨sorted, apart⟩).imp fun ⟨le, ne⟩ => Nat.lt_of_le_of_ne le ne

/-- What a loaded session keeps of its document. -/
structure Kept (unicode : Unicode) (value : JsonValue) (session : MediaSession) : Prop where
  agreed : ∃ (document : JsonDict) (items : List JsonValue), value = .dict document ∧
    document.find "revisions" = .list items ∧ List.Forall₂ (Agreed unicode session.codec) items session.revisions
  ordered : session.revisions.Pairwise fun a b => a.activationMs < b.activationMs
  zero : session.revisions.head?.map Revision.activationMs = some 0

theorem loadSession_kept {value : JsonValue} {session : MediaSession}
    (ok : loadSession (sdpReaders unicode asset) value = .ok session) : Kept unicode value session := by
  obtain ⟨document, mapped, ok⟩ := bind_ok.mp ok
  obtain ⟨_, -, ok⟩ := bind_ok.mp ok
  split at ok
  · cases ok
  simp only [bind_ok] at ok
  obtain ⟨direction, -, codec, -, digits, -, echo, -, _, -, required, -, timeout, -, items, listed,
    revisions, parsed, ok⟩ := ok
  split at ok
  · cases ok
  rename_i order
  simp only [bind_ok, pure_ok] at ok
  obtain ⟨asset, -, rfl⟩ := ok
  push Not at order
  obtain ⟨zero, increases⟩ := order
  refine ⟨⟨document, items, mapping_ok mapped, readRevisions_ok listed, parseRevisions_agreed parsed⟩, ?_, ?_⟩
  · exact List.pairwise_map.mp (increasing_pairwise (by simpa using increases))
  · rw [← List.head?_map]
    exact zero

/-- The active revision is the last one that starts by then. -/
theorem revisionFrom_active {scheduledMs index result : Nat} {rest : List Revision}
    (ordered : rest.Pairwise fun a b => a.activationMs < b.activationMs) :
    (revisionFrom scheduledMs index result rest = result ∧ ∀ r ∈ rest, scheduledMs < r.activationMs) ∨
      ∃ j r, revisionFrom scheduledMs index result rest = index + j ∧ rest[j]? = some r ∧
        r.activationMs ≤ scheduledMs ∧
          ∀ other ∈ rest, other.activationMs ≤ scheduledMs → other.activationMs ≤ r.activationMs := by
  induction rest generalizing index result with
  | nil => exact .inl ⟨rfl, nofun⟩
  | cons revision rest ih =>
    obtain ⟨first, later⟩ := List.pairwise_cons.mp ordered
    rw [revisionFrom]
    split
    · rename_i active
      right
      rcases @ih (index + 1) index later with ⟨same, none_⟩ | ⟨j, r, same, found, started, last⟩
      · refine ⟨0, revision, same, rfl, active, List.forall_mem_cons.mpr ⟨fun _ => le_rfl, fun other member by_ => ?_⟩⟩
        exact absurd by_ (Nat.not_le.mpr (none_ other member))
      · refine ⟨j + 1, r, by omega, found, started, List.forall_mem_cons.mpr ⟨fun _ => ?_, last⟩⟩
        exact (first r (List.mem_of_getElem? found)).le
    · rename_i inactive
      refine .inl ⟨rfl, List.forall_mem_cons.mpr ⟨Nat.lt_of_not_le inactive, fun other member => ?_⟩⟩
      exact (Nat.lt_of_not_le inactive).trans (first other member)

theorem revisionAt_active {value : JsonValue} {session : MediaSession} (kept : Kept unicode value session)
    (scheduledMs : Nat) : ∃ r, session.revisions[revisionAt session.revisions scheduledMs]? = some r ∧
      r.activationMs ≤ scheduledMs ∧
        ∀ other ∈ session.revisions, other.activationMs ≤ scheduledMs → other.activationMs ≤ r.activationMs := by
  obtain ⟨first, head, zero⟩ := Option.map_eq_some_iff.mp kept.zero
  rcases @revisionFrom_active scheduledMs 0 0 _ kept.ordered with ⟨-, none_⟩ | ⟨j, r, same, found, started, last⟩
  · have late := none_ first (List.mem_of_head? head)
    omega
  · refine ⟨r, ?_, started, last⟩
    rw [revisionAt, same, Nat.zero_add]
    exact found

/-- What the document proposes is a revision of the session. -/
theorem proposes_revision {value : JsonValue} {session : MediaSession} (kept : Kept unicode value session)
    {index activation : Nat} {localSdp remoteSdp : Text} (proposed : Proposes value index activation localSdp remoteSdp) :
    ∃ r, session.revisions[index]? = some r ∧ r.activationMs = activation := by
  obtain ⟨document, items, rfl, listed, each⟩ := kept.agreed
  obtain ⟨_, item, _, same, found, there, written, -, -⟩ := proposed.item
  cases same
  rw [listed] at found
  cases found
  obtain ⟨r, placed, agreed⟩ := forall₂_place each there
  obtain ⟨d, _, _, same, activates, -⟩ := agreed.proposed
  cases same
  rw [activates] at written
  exact ⟨r, placed, Int.ofNat_inj.mp (JsonValue.int.inj written)⟩

/-- A revision of the session is what the document proposes in its place. -/
theorem revision_proposed {value : JsonValue} {session : MediaSession} (kept : Kept unicode value session)
    {index : Nat} {r : Revision} (placed : session.revisions[index]? = some r) :
    ∃ localSdp remoteSdp, Proposes value index r.activationMs localSdp remoteSdp ∧
      Settles unicode session.codec localSdp remoteSdp r := by
  obtain ⟨document, items, rfl, listed, each⟩ := kept.agreed
  obtain ⟨item, there, agreed⟩ := forall₂_place each.flip placed
  obtain ⟨d, localSdp, remoteSdp, rfl, activates, first, second, carries⟩ := agreed.proposed
  exact ⟨localSdp, remoteSdp, ⟨document, d, items, rfl, listed, there, activates, first, second⟩, carries⟩

/-- Every packet goes along the revision that is active at its time. -/
theorem packet_routed {value : JsonValue} {session : MediaSession} (kept : Kept unicode value session)
    {scheduledMs : Nat} {sequence timestamp : Int} {payload : List Byte} {marker : Bool} {event : Option Event}
    {p : PlannedPacket} (ok : packet session scheduledMs sequence timestamp payload marker event = .ok p) :
    ∃ localSdp remoteSdp, Routed unicode value session.codec p localSdp remoteSdp := by
  obtain ⟨r, placed, started, last⟩ := revisionAt_active kept scheduledMs
  obtain ⟨localSdp, remoteSdp, proposed, agrees⟩ := revision_proposed kept placed
  have active : Active value scheduledMs (revisionAt session.revisions scheduledMs) localSdp remoteSdp := by
    refine ⟨r.activationMs, proposed, started, fun other later first second also by_ => ?_⟩
    obtain ⟨r', there, rfl⟩ := proposes_revision kept also
    exact last r' (List.mem_of_getElem? there) by_
  unfold packet at ok
  dsimp only at ok
  rw [placed] at ok
  dsimp only at ok
  split at ok
  · cases ok
  · rename_i payloadType chosen
    cases ok
    have offered := agrees.payloads (if event.isNone then .audio else .telephoneEvent) payloadType (by
      rw [← chosen]
      cases event <;> rfl)
    exact ⟨localSdp, remoteSdp, active, agrees.source, agrees.destination, offered.1, offered.2⟩

end revisions

/-! The place of a packet in the plan gives its time, its numbers and its event. -/

def audioCount : Nat := 50

/-- When the packet of an index is sent. -/
def timeAt (index : Nat) : Nat :=
  if index < audioCount then index * 20
  else 1000 + (index - audioCount) / 7 * 180 + (index - audioCount) % 7 * 20

def timestampAt (index : Nat) : Nat :=
  if index < audioCount then index * 160 else 8000 + (index - audioCount) / 7 * 1440

section places
variable {session : MediaSession} {startMs : Nat} {sequence timestamp : Int}

/-- What a packet shows of the arguments it is built from. -/
structure Shows (p : PlannedPacket) (scheduledMs : Nat) (sequence timestamp : Int) : Prop where
  scheduled : p.scheduledMs = scheduledMs
  sequence : p.sequence = sequence
  timestamp : p.timestamp = timestamp

/-- A packet of an event. -/
structure ShowsEvent (p : PlannedPacket) (marker : Bool) (digit : Option Nat) : Prop where
  event : isEvent p = true
  marker : p.marker = marker
  digit : p.digit = digit

theorem packet_shows {scheduledMs : Nat} {payload : List Byte} {marker : Bool} {event : Option Event}
    {p : PlannedPacket} (ok : packet session scheduledMs sequence timestamp payload marker event = .ok p) :
    Shows p scheduledMs sequence timestamp ∧ p.marker = marker ∧ p.digit = event.map Event.digit := by
  unfold packet at ok
  dsimp only at ok
  split at ok
  · cases ok
  · split at ok
    · cases ok
    · cases ok
      exact ⟨⟨rfl, rfl, rfl⟩, rfl, rfl⟩

theorem mapM_range {α : Type} {f : Nat → Result α} {n i : Nat} {xs : List α} {x : α}
    (ok : (List.range n).mapM f = .ok xs) (found : xs[i]? = some x) : i < n ∧ f i = .ok x := by
  obtain ⟨index, there, one⟩ := forall₂_place (mapM_ok ok).flip found
  obtain ⟨small, same⟩ := List.getElem?_eq_some_iff.mp there
  rw [List.getElem_range] at same
  subst same
  rw [List.length_range] at small
  exact ⟨small, one⟩

theorem mapM_length {α : Type} {f : Nat → Result α} {n : Nat} {xs : List α}
    (ok : (List.range n).mapM f = .ok xs) : xs.length = n := by
  rw [← (mapM_ok ok).length_eq, List.length_range]

theorem digitPacket_shows {digit : Nat} {event : Byte} {index : Nat} {p : PlannedPacket}
    (ok : digitPacket session digit event startMs sequence timestamp index = .ok p) :
    Shows p (startMs + index * 20) (sequence + index) timestamp ∧ ShowsEvent p (index == 0) (some digit) := by
  obtain ⟨shows, marker, named⟩ := packet_shows ok
  exact ⟨shows, (packet_ok ok).1, marker, named⟩

/-- The packets of the digits, seven for each. -/
theorem eventPackets_places {digits : List Nat} {packets : List PlannedPacket}
    (ok : eventPackets session startMs sequence timestamp digits = .ok packets) :
    packets.length = digits.length * 7 ∧ ∀ i p, packets[i]? = some p →
      Shows p (startMs + i / 7 * 180 + i % 7 * 20) (sequence + i) (timestamp + (i / 7 * 1440 : Nat)) ∧
        ShowsEvent p (i % 7 == 0) digits[i / 7]? := by
  induction digits generalizing startMs sequence timestamp packets with
  | nil =>
    cases ok
    exact ⟨rfl, fun i p found => by cases found⟩
  | cons digit rest ih =>
    unfold eventPackets at ok
    split at ok
    · cases ok
    · rename_i event named
      obtain ⟨first, made, ok⟩ := bind_ok.mp ok
      obtain ⟨others, more, ok⟩ := bind_ok.mp ok
      cases ok
      rw [clock_eq] at more
      obtain ⟨length, places⟩ := ih more
      have size : first.length = 7 := mapM_length made
      refine ⟨by rw [List.length_append, size, length, List.length_cons]; omega, fun i p found => ?_⟩
      by_cases early : i < 7
      · rw [List.getElem?_append_left (by omega)] at found
        obtain ⟨shows, event⟩ := digitPacket_shows (mapM_range made found).2
        rw [Nat.div_eq_of_lt early, Nat.mod_eq_of_lt early]
        simpa using ⟨shows, event⟩
      · rw [List.getElem?_append_right (by omega), size] at found
        obtain ⟨shows, event⟩ := places (i - 7) p found
        obtain ⟨k, rfl⟩ : ∃ k, i = k + 7 := ⟨i - 7, by omega⟩
        rw [Nat.add_sub_cancel] at shows event
        have quotient : (k + 7) / 7 = k / 7 + 1 := by omega
        have remainder : (k + 7) % 7 = k % 7 := by omega
        rw [quotient, remainder, List.getElem?_cons_succ]
        have advance : advanceMs = 180 := rfl
        have step : ((advanceMs * 8000 / 1000 : Nat) : Int) = 1440 := rfl
        have size : ((packetsPerDigit : Nat) : Int) = 7 := rfl
        obtain ⟨scheduled, numbered, stamped⟩ := shows
        refine ⟨⟨scheduled.trans ?_, numbered.trans ?_, stamped.trans ?_⟩, event⟩
        · rw [advance]
          omega
        · rw [size]
          push_cast
          omega
        · rw [step]
          push_cast
          omega

/-- The packets of a plan by their places: the audio, and after it the events. -/
structure Placed (session : MediaSession) (packets : List PlannedPacket) : Prop where
  length : packets.length = audioCount + session.digits.length * 7
  shows : ∀ i p, packets[i]? = some p → Shows p (timeAt i) (1000 + i) (timestampAt i)
  audio : ∀ i p, packets[i]? = some p → i < audioCount → isEvent p = false
  events : ∀ i p, packets[i]? = some p → audioCount ≤ i →
    ShowsEvent p ((i - audioCount) % 7 == 0) session.digits.codes[(i - audioCount) / 7]?
  made : ∀ p ∈ packets, ∃ scheduledMs sequence timestamp payload marker event,
    packet session scheduledMs sequence timestamp payload marker event = .ok p

theorem eventPackets_made {digits : List Nat} {packets : List PlannedPacket}
    (ok : eventPackets session startMs sequence timestamp digits = .ok packets) :
    ∀ p ∈ packets, ∃ scheduledMs sequence timestamp payload marker event,
      packet session scheduledMs sequence timestamp payload marker event = .ok p := by
  induction digits generalizing startMs sequence timestamp packets with
  | nil =>
    cases ok
    exact nofun
  | cons digit rest ih =>
    unfold eventPackets at ok
    split at ok
    · cases ok
    · obtain ⟨first, made, ok⟩ := bind_ok.mp ok
      obtain ⟨others, more, ok⟩ := bind_ok.mp ok
      cases ok
      refine List.forall_mem_append.mpr ⟨fun p member => ?_, ih more⟩
      obtain ⟨index, one⟩ := forall₂_mem (mapM_ok made) p member
      exact ⟨_, _, _, _, _, _, one⟩

theorem buildPacketPlan_placed {read : Except String (List Byte)} {packets : List PlannedPacket}
    (ok : buildPacketPlan session read = .ok packets) : Placed session packets := by
  unfold buildPacketPlan at ok
  split at ok
  · cases ok
  rename_i payload
  split at ok
  · cases ok
  rename_i unchanged
  have size : payload.length = 8000 := by
    by_contra other
    exact unchanged (.inl other)
  rw [size] at ok
  obtain ⟨audio, sounded, ok⟩ := bind_ok.mp ok
  obtain ⟨events, emitted, ok⟩ := bind_ok.mp ok
  dsimp only at ok
  split at ok
  · cases ok
  cases ok
  have count : audio.length = 50 := mapM_length sounded
  obtain ⟨length, places⟩ := eventPackets_places emitted
  have early {i : Nat} {p : PlannedPacket} (found : (audio ++ events)[i]? = some p) (small : i < audioCount) :
      audioPacket session payload i = .ok p := by
    rw [List.getElem?_append_left (by rw [count]; exact small)] at found
    exact (mapM_range sounded found).2
  have late {i : Nat} {p : PlannedPacket} (found : (audio ++ events)[i]? = some p) (large : audioCount ≤ i) :=
    places (i - 50) p (by
      rw [List.getElem?_append_right (by rw [count]; exact large), count] at found
      exact found)
  constructor
  · rw [List.length_append, count, length]
    rfl
  · intro i p found
    by_cases small : i < audioCount
    · have shows := (packet_shows (early found small)).1
      rw [timeAt, timestampAt, if_pos small, if_pos small]
      refine ⟨shows.scheduled, shows.sequence, shows.timestamp.trans ?_⟩
      rw [rtpTimestampStart]
      push_cast
      omega
    · have shows := (late found (Nat.le_of_not_lt small)).1
      rw [timeAt, timestampAt, if_neg small, if_neg small]
      obtain ⟨k, rfl⟩ : ∃ k, i = k + audioCount := ⟨i - audioCount, by omega⟩
      have index : k + audioCount - 50 = k := Nat.add_sub_cancel k audioCount
      rw [index] at shows
      rw [Nat.add_sub_cancel]
      refine ⟨shows.scheduled.trans rfl, shows.sequence.trans ?_, shows.timestamp.trans ?_⟩
      · rw [rtpSequenceStart, audioCount]
        push_cast
        omega
      · rw [rtpTimestampStart]
        push_cast
        omega
  · intro i p found small
    exact (packet_ok (early found small)).1
  · intro i p found large
    exact (late found large).2
  · refine List.forall_mem_append.mpr ⟨fun p member => ?_, eventPackets_made emitted⟩
    obtain ⟨index, one⟩ := forall₂_mem (mapM_ok sounded) p member
    exact ⟨_, _, _, _, _, _, one⟩

/-- Times grow, and timestamps never fall, from place to place. -/
theorem timeAt_lt {i j : Nat} (before : i < j) : timeAt i < timeAt j := by
  unfold timeAt audioCount
  split
  · split
    · omega
    · omega
  · split
    · omega
    · omega

theorem timestampAt_le {i j : Nat} (before : i < j) : timestampAt i ≤ timestampAt j := by
  unfold timestampAt audioCount
  split
  · split
    · omega
    · omega
  · split
    · omega
    · omega

/-- Two places of one timestamp are those of one digit's event. -/
theorem timestampAt_eq {i j : Nat} (before : i < j) (same : timestampAt i = timestampAt j) :
    audioCount ≤ i ∧ (i - audioCount) / 7 = (j - audioCount) / 7 := by
  unfold timestampAt at same
  unfold audioCount at same ⊢
  split at same
  · split at same
    · omega
    · omega
  · split at same
    · omega
    · omega

/-- A plan is in order. -/
theorem placed_ordered {packets : List PlannedPacket} (placed : Placed session packets) : InOrder packets := by
  have shown {i : Nat} (small : i < packets.length) := placed.shows i packets[i] (List.getElem?_eq_getElem small)
  constructor
  · refine List.pairwise_iff_getElem.mpr fun i j small large before => ?_
    rw [(shown small).scheduled, (shown large).scheduled]
    exact timeAt_lt before
  · intro i p q here next
    rw [(placed.shows i p here).sequence, (placed.shows (i + 1) q next).sequence]
    push_cast
    omega
  · refine List.pairwise_iff_getElem.mpr fun i j small large before => ?_
    rw [(shown small).timestamp, (shown large).timestamp]
    exact Int.ofNat_le.mpr (timestampAt_le before)
  · intro i j p q before here there same
    rw [(placed.shows i p here).timestamp, (placed.shows j q there).timestamp] at same
    obtain ⟨large, group⟩ := timestampAt_eq before (Int.ofNat_inj.mp same)
    have first := placed.events i p here large
    have second := placed.events j q there (by omega)
    refine ⟨p, q, here, there, first.event, second.event, ?_, fun k r after upTo found => ?_⟩
    · rw [first.digit, second.digit, group]
    · rw [(placed.events k r found (by omega)).marker]
      have inner : (k - audioCount) % 7 ≠ 0 := by
        unfold audioCount at group large ⊢
        omega
      exact beq_eq_false_iff_ne.mpr inner

/-- The packet of an activation, which is on a packet boundary within the audio. -/
theorem placed_at {packets : List PlannedPacket} (placed : Placed session packets) {activation : Nat}
    (within : activation ≤ 980) (aligned : activation % packetizationMs = 0) :
    ∃ p ∈ packets, p.scheduledMs = activation := by
  unfold packetizationMs at aligned
  have small : activation / 20 < packets.length := by
    rw [placed.length, audioCount]
    omega
  refine ⟨packets[activation / 20], List.getElem_mem small, ?_⟩
  rw [(placed.shows _ _ (List.getElem?_eq_getElem small)).scheduled, timeAt, audioCount, if_pos (by omega)]
  omega

end places

section plan
variable {unicode : Unicode} {asset : Text → Codec → Result Text} {value : JsonValue} {session : MediaSession}

/-- The document proposes one activation for an index. -/
theorem proposes_activation (kept : Kept unicode value session) {index first second : Nat} {l r l' r' : Text}
    (here : Proposes value index first l r) (there : Proposes value index second l' r') : first = second := by
  obtain ⟨a, placed, rfl⟩ := proposes_revision kept here
  obtain ⟨b, also, rfl⟩ := proposes_revision kept there
  rw [placed] at also
  cases also
  rfl

/-- No two revisions start at one time. -/
theorem proposes_index (kept : Kept unicode value session) {i j activation : Nat} {l r l' r' : Text}
    (here : Proposes value i activation l r) (there : Proposes value j activation l' r') : i = j := by
  obtain ⟨a, first, rfl⟩ := proposes_revision kept here
  obtain ⟨b, second, same⟩ := proposes_revision kept there
  obtain ⟨small, rfl⟩ := List.getElem?_eq_some_iff.mp first
  obtain ⟨large, rfl⟩ := List.getElem?_eq_some_iff.mp second
  have ordered := List.pairwise_iff_getElem.mp kept.ordered
  rcases Nat.lt_trichotomy i j with before | equal | after
  · have less := ordered i j small large before
    omega
  · exact equal
  · have less := ordered j i large small after
    omega

theorem revision_bounded (kept : Kept unicode value session) {r : Revision} (member : r ∈ session.revisions) :
    r.activationMs ≤ 980 ∧ r.activationMs % packetizationMs = 0 := by
  obtain ⟨_, _, -, -, each⟩ := kept.agreed
  obtain ⟨_, agreed⟩ := forall₂_mem each r member
  exact ⟨agreed.within, agreed.aligned⟩

/-- A revision carries its first packet at its activation. -/
theorem placed_started (kept : Kept unicode value session) {packets : List PlannedPacket}
    (placed : Placed session packets)
    (routed : ∀ p ∈ packets, ∃ localSdp remoteSdp, Routed unicode value session.codec p localSdp remoteSdp)
    {index activation : Nat} {localSdp remoteSdp : Text} (proposed : Proposes value index activation localSdp remoteSdp) :
    ∃ p ∈ packets, p.revisionIndex = index ∧ p.scheduledMs = activation ∧
      ∀ q ∈ packets, q.revisionIndex = index → activation ≤ q.scheduledMs := by
  obtain ⟨r, there, rfl⟩ := proposes_revision kept proposed
  obtain ⟨within, aligned⟩ := revision_bounded kept (List.mem_of_getElem? there)
  obtain ⟨p, member, scheduled⟩ := placed_at placed within aligned
  refine ⟨p, member, ?_, scheduled, fun q among same => ?_⟩
  · obtain ⟨_, _, route⟩ := routed p member
    obtain ⟨other, also, started, greatest⟩ := route.active.proposed
    rw [scheduled] at started greatest
    have equal : other = r.activationMs := Nat.le_antisymm started (greatest _ _ _ _ proposed le_rfl)
    rw [equal] at also
    exact proposes_index kept also proposed
  · obtain ⟨_, _, route⟩ := routed q among
    obtain ⟨other, also, started, -⟩ := route.active.proposed
    rw [same] at also
    rw [proposes_activation kept proposed also]
    exact started

/-- No plan of a loaded session is too long. -/
theorem plan_short (loaded : Loaded session) (read : Except String (List Byte)) :
    buildPacketPlan session read ≠ fail "compiled packet plan exceeds 200 packets" := by
  intro long
  cases read with
  | error error =>
    have texts : "cannot read canary asset: " ++ error = "compiled packet plan exceeds 200 packets" :=
      congrArg MediaSessionError.message (Raised.own.inj (Except.error.inj long))
    have starts := congrArg (fun text : String => text.toList[1]?) texts
    simp at starts
  | ok payload =>
    by_cases changed : payload.length ≠ 8000 ∨ sha256Hex (payload.map Fin.val) ≠ session.assetSha256
    · rw [buildPacketPlan, if_pos changed] at long
      have texts := congrArg MediaSessionError.message (Raised.own.inj (Except.error.inj long))
      exact absurd texts (by decide)
    · push Not at changed
      obtain ⟨packets, ok⟩ := buildPacketPlan_total loaded changed.1 changed.2
      rw [ok] at long
      cases long

end plan

/-- Media is sent only along the negotiated revisions, and no plan is too long. -/
theorem media_follows_revisions (unicode : Unicode) (asset : Text → Codec → Result Text) (value : JsonValue)
    (session : MediaSession) (loaded : loadSession (sdpReaders unicode asset) value = .ok session)
    (read : Except String (List Byte)) :
    buildPacketPlan session read ≠ fail "compiled packet plan exceeds 200 packets" ∧
      ∀ packets, buildPacketPlan session read = .ok packets → Negotiated unicode value session packets := by
  have kept := loadSession_kept loaded
  refine ⟨plan_short (loadSession_loaded loaded) read, fun packets ok => ?_⟩
  have placed := buildPacketPlan_placed ok
  have routed : ∀ p ∈ packets, ∃ localSdp remoteSdp, Routed unicode value session.codec p localSdp remoteSdp := by
    intro p member
    obtain ⟨_, _, _, _, _, _, made⟩ := placed.made p member
    exact packet_routed kept made
  exact ⟨routed, placed_ordered placed, fun _ _ _ _ proposed => placed_started kept placed routed proposed⟩

/-- The cases of ASCII text, without digits of other scripts. -/
def asciiUnicode : Unicode where
  digit _ := none
  lower := Casing.ascii.lower
  upper text := ⟨text.codes.map upperCode⟩

/-- An SDP text with a session address, and a video section with one of its own before the audio. -/
def sharedAddressSdp : Text :=
  "c=IN IP4 192.0.2.9\nm=video 5000 RTP/AVP 96\nc=IN IP4 192.0.2.8\nm=audio 4000 RTP/AVP 0\na=ptime:20"

/-- A session that moves to an address of its section after a second packet. -/
def movedSession : JsonValue :=
  .dict [("apiVersion", .str sessionVersion), ("direction", .str "caller_to_callee"),
    ("codec", .str "PCMU"), ("digits", .str ""),
    ("echo", .dict [("required", .bool false), ("timeoutMs", .int 20)]),
    ("revisions", .list [
      .dict [("activationMs", .int 0), ("localSdp", .str sharedAddressSdp), ("remoteSdp", .str oneAddressSdp)],
      .dict [("activationMs", .int 40), ("localSdp", .str oneAddressSdp), ("remoteSdp", .str sharedAddressSdp)]])]

def silentAsset : Text → Codec → Result Text := fun _ _ => .ok (sha256Hex (silence.map Fin.val))

set_option maxRecDepth 100000 in
theorem moved_session_negotiated : ∃ session packets,
    loadSession (sdpReaders asciiUnicode silentAsset) movedSession = .ok session ∧
      buildPacketPlan session (.ok silence) = .ok packets ∧
        Negotiated asciiUnicode movedSession session packets := by
  have loaded : loadSession (sdpReaders asciiUnicode silentAsset) movedSession = .ok
      ⟨"caller_to_callee", .pcmu, "", false, 20,
        [⟨0, "192.0.2.9", 4000, "192.0.2.1", 4000, .inet, 0, none⟩,
          ⟨40, "192.0.2.1", 4000, "192.0.2.9", 4000, .inet, 0, none⟩],
        sha256Hex (silence.map Fin.val)⟩ := by rfl
  obtain ⟨packets, built⟩ := buildPacketPlan_total (loadSession_loaded loaded) List.length_replicate rfl
  exact ⟨_, packets, loaded, built,
    (media_follows_revisions asciiUnicode silentAsset movedSession _ loaded (.ok silence)).2 packets built⟩

end Sippycup.Media
