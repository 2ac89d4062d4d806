import Sippycup.Machine.Pointwise
import Sippycup.Media.PacketPlan

/-! The planner and the validator of telephone events. The validator accepts packets for a
digit string exactly when their events fall into groups, one for each digit, that carry
what the planner emits for it. -/
namespace Sippycup.Media
open Sippycup.Python Sippycup.Machine

/-- Payload and marker bit. -/
def carried (p : PlannedPacket) : List Byte × Bool := (p.payload, p.marker)

/-- What the planner emits for a digit's event, packet by packet. -/
def plannedDigit (event : Byte) : List (List Byte × Bool) :=
  (List.range packetsPerDigit).map fun index =>
    (packEvent event (atEnd index) (eventDuration 8000 index), index == 0)

/-- A group of packets for one digit. -/
def CarriesDigit (digit : Nat) (group : List PlannedPacket) : Prop :=
  ∃ event, dtmfEvent? digit = some event ∧ group.map carried = plannedDigit event

/-- The events of the packets, in groups that carry the digits one by one. -/
structure Carries (packets : List PlannedPacket) (digits : Text) (groups : List (List PlannedPacket)) :
    Prop where
  short : digits.length ≤ maxDigits
  whole : packets.filter isEvent = groups.flatten
  ordered : contiguous (packets.filter isEvent) = true
  planned : List.Forall₂ CarriesDigit digits.codes groups
  together : ∀ group ∈ groups, ∀ p ∈ group, ∀ q ∈ group, p.timestamp = q.timestamp
  apart : groups.Pairwise fun a b => ∀ p ∈ a, ∀ q ∈ b, p.timestamp ≠ q.timestamp

theorem flags_eq : ∀ flags : Byte, flags &&& 0x40 = 0 → flags &&& 0x3F = dtmfVolume →
    flags = (if flags &&& 0x80 ≠ 0 then 0x80 else 0) ||| dtmfVolume := by decide +kernel

theorem decodeEvent_ok {payload : List Byte} {decoded : Decoded} (ok : decodeEvent payload = .ok decoded) :
    payload = packEvent decoded.event decoded.atEnd decoded.duration := by
  unfold decodeEvent at ok
  split at ok
  · rename_i event flags high low
    split at ok
    · cases ok
    · rename_i valid
      rw [not_or, not_not, not_not] at valid
      cases ok
      have kept := flags_eq flags valid.1 valid.2
      have first : Fin.ofNat 256 ((high.val * 256 + low.val) / 256) = high := by
        apply Fin.ext
        simp only [Fin.ofNat]
        omega
      have second : Fin.ofNat 256 (high.val * 256 + low.val) = low := by
        apply Fin.ext
        simp only [Fin.ofNat]
        omega
      rw [packEvent, first, second, Decoded.atEnd]
      simp only [decide_eq_true_eq]
      rw [← kept]
  · cases ok

theorem checkDecoded_ok {digit : Nat} {decoded : List Decoded}
    (ok : checkDecoded 8000 digit decoded = .ok ()) :
    (∀ d ∈ decoded, some d.event = dtmfEvent? digit) ∧
      decoded.map Decoded.duration = expectedDurations 8000 ∧
        decoded.map Decoded.atEnd = expectedEnds := by
  unfold checkDecoded at ok
  dsimp only at ok
  split at ok
  · cases ok
  rename_i events
  split at ok
  · cases ok
  rename_i durations
  split at ok
  · cases ok
  rename_i ends
  refine ⟨fun d member => ?_, not_not.mp durations, not_not.mp (not_or.mp ends).1⟩
  by_contra other
  exact events (List.any_eq_true.mpr ⟨d, member, decide_eq_true other⟩)

/-- Decoded packets of one event, from their durations and end bits. -/
theorem pack_decoded {event : Byte} {decoded : List Decoded} (events : ∀ d ∈ decoded, d.event = event) :
    (decoded.map fun d => packEvent d.event d.atEnd d.duration) =
      List.zipWith (packEvent event) (decoded.map Decoded.atEnd) (decoded.map Decoded.duration) := by
  induction decoded with
  | nil => rfl
  | cons d rest ih =>
    obtain ⟨first, others⟩ := List.forall_mem_cons.mp events
    rw [List.map_cons, List.map_cons, List.map_cons, List.zipWith_cons_cons, ih others, first]

theorem carried_eq_zip (group : List PlannedPacket) :
    group.map carried = (group.map PlannedPacket.payload).zip (group.map PlannedPacket.marker) := by
  induction group with
  | nil => rfl
  | cons p rest ih =>
    rw [List.map_cons, ih, List.map_cons, List.map_cons, List.zip_cons_cons]
    rfl

theorem plannedDigit_eq (event : Byte) :
    (List.zipWith (packEvent event) expectedEnds (expectedDurations 8000)).zip
      (true :: List.replicate (packetsPerDigit - 1) false) = plannedDigit event := rfl

theorem decoded_payloads {group : List PlannedPacket} {decoded : List Decoded}
    (read : group.mapM (fun p => decodeEvent p.payload) = .ok decoded) :
    group.map PlannedPacket.payload = decoded.map fun d => packEvent d.event d.atEnd d.duration := by
  rw [← List.forall₂_eq_eq_eq, List.forall₂_map_left_iff, List.forall₂_map_right_iff]
  exact (mapM_ok read).imp fun _ _ one => decodeEvent_ok one

theorem mapM_payloads (group : List PlannedPacket) :
    group.mapM (fun p => decodeEvent p.payload) = (group.map PlannedPacket.payload).mapM decodeEvent := by
  rw [List.mapM_map]
  rfl

/-- The events of a digit, decoded. -/
def decodedDigit (event : Byte) : List Decoded :=
  (List.range packetsPerDigit).map fun index =>
    ⟨event, (if atEnd index then 0x80 else 0) ||| dtmfVolume, eventDuration 8000 index⟩

theorem decode_planned (event : Byte) :
    ((plannedDigit event).map Prod.fst).mapM decodeEvent = .ok (decodedDigit event) := rfl

theorem checkDecoded_planned {digit : Nat} {event : Byte} (named : dtmfEvent? digit = some event) :
    checkDecoded 8000 digit (decodedDigit event) = .ok () := by
  have events : ((decodedDigit event).any fun d => decide (some d.event ≠ dtmfEvent? digit)) = false := by
    rw [List.any_eq_false]
    intro d member
    obtain ⟨index, -, rfl⟩ := List.mem_map.mp member
    rw [named]
    simp
  have durations : (decodedDigit event).map Decoded.duration = expectedDurations 8000 := rfl
  have ends : (decodedDigit event).map Decoded.atEnd = expectedEnds := rfl
  have final : ((expectedDurations 8000).zip expectedEnds).any
      (fun x => decide (x.1 ≠ dtmfDurationMs * 8000 / 1000) && x.2) = false := by decide
  unfold checkDecoded
  dsimp only
  rw [events, durations, ends, final]
  simp

/-- A group passes its checks exactly when it carries the digit. -/
theorem checkGroup_iff {digit : Nat} {group : List PlannedPacket} :
    checkGroup 8000 digit group = .ok () ↔ CarriesDigit digit group := by
  unfold checkGroup
  constructor
  · intro ok
    split at ok
    · cases ok
    rename_i length
    split at ok
    · cases ok
    rename_i markers
    obtain ⟨decoded, read, checked⟩ := bind_ok.mp ok
    obtain ⟨events, durations, ends⟩ := checkDecoded_ok checked
    have payloads := decoded_payloads read
    cases decoded with
    | nil => cases durations
    | cons d rest =>
      have named := (events d List.mem_cons_self).symm
      refine ⟨d.event, named, ?_⟩
      have same : ∀ x ∈ d :: rest, x.event = d.event := fun x member =>
        Option.some.inj ((events x member).trans named)
      rw [carried_eq_zip, payloads, pack_decoded same, ends, durations, not_not.mp markers]
      exact plannedDigit_eq d.event
  · rintro ⟨event, named, carries⟩
    have length : group.length = packetsPerDigit := by
      have same := congrArg List.length carries
      rw [List.length_map] at same
      exact same
    have markers : group.map PlannedPacket.marker = true :: List.replicate (packetsPerDigit - 1) false := by
      have same := congrArg (List.map Prod.snd) carries
      rw [List.map_map] at same
      exact same
    have payloads : group.map PlannedPacket.payload = (plannedDigit event).map Prod.fst := by
      rw [← carries, List.map_map]
      rfl
    rw [if_neg (not_not.mpr length), if_neg (not_not.mpr markers), mapM_payloads, payloads,
      decode_planned, ok_bind]
    exact checkDecoded_planned named

/-- The groups made of the packets so far. -/
structure Grouped (packets : List PlannedPacket) (groups : List Group) : Prop where
  whole : packets = groups.flatMap Group.packets
  together : ∀ group ∈ groups, ∀ p ∈ group.packets, p.timestamp = group.first.timestamp
  apart : groups.Pairwise fun a b => a.first.timestamp ≠ b.first.timestamp

theorem newGroup_grouped {packets : List PlannedPacket} {groups next : List Group} {p : PlannedPacket}
    (grouped : Grouped packets groups) (ok : newGroup groups p = .ok next) :
    Grouped (packets ++ [p]) next := by
  unfold newGroup at ok
  split at ok
  · cases ok
  · rename_i fresh
    cases ok
    refine ⟨?_, ?_, ?_⟩
    · rw [grouped.whole, List.flatMap_append]
      rfl
    · intro group member q inside
      rcases List.mem_append.mp member with earlier | last
      · exact grouped.together group earlier q inside
      · obtain rfl := List.mem_singleton.mp last
        rw [List.mem_singleton.mp inside]
    · refine List.pairwise_append.mpr ⟨grouped.apart, List.pairwise_singleton _ _, ?_⟩
      intro group member last singleton same
      obtain rfl := List.mem_singleton.mp singleton
      exact fresh (List.any_eq_true.mpr ⟨group, member, decide_eq_true same⟩)

theorem addPacket_grouped {packets : List PlannedPacket} {groups next : List Group} {p : PlannedPacket}
    (grouped : Grouped packets groups) (ok : addPacket groups p = .ok next) :
    Grouped (packets ++ [p]) next := by
  unfold addPacket at ok
  split at ok
  · exact newGroup_grouped grouped ok
  · rename_i group last
    split at ok
    · exact newGroup_grouped grouped ok
    · rename_i same
      have same := not_not.mp same
      obtain ⟨front, rfl⟩ := List.getLast?_eq_some_iff.mp last
      cases ok
      rw [List.dropLast_concat]
      refine ⟨?_, ?_, ?_⟩
      · rw [grouped.whole, List.flatMap_append, List.flatMap_append]
        simp [Group.packets]
      · intro other member q inside
        rcases List.mem_append.mp member with earlier | new
        · exact grouped.together other (List.mem_append_left _ earlier) q inside
        · obtain rfl := List.mem_singleton.mp new
          have inside : q ∈ group.packets ++ [p] := inside
          rcases List.mem_append.mp inside with old | added
          · exact grouped.together group (List.mem_append_right _ List.mem_cons_self) q old
          · rw [List.mem_singleton.mp added]
            exact same.symm
      · have apart := List.pairwise_append.mp grouped.apart
        refine List.pairwise_append.mpr ⟨apart.1, List.pairwise_singleton _ _, ?_⟩
        intro other member new singleton
        obtain rfl := List.mem_singleton.mp singleton
        exact apart.2.2 other member group List.mem_cons_self

theorem groups_grouped {packets done : List PlannedPacket} {groups next : List Group}
    (grouped : Grouped done groups) (ok : packets.foldlM addPacket groups = .ok next) :
    Grouped (done ++ packets) next := by
  induction packets generalizing done groups with
  | nil =>
    cases ok
    rwa [List.append_nil]
  | cons p rest ih =>
    rw [List.foldlM_cons] at ok
    obtain ⟨middle, first, ok⟩ := bind_ok.mp ok
    rw [List.append_cons]
    exact ih (addPacket_grouped grouped first) ok

/-- Packets of one timestamp go to the last group. -/
theorem addRest (groups : List Group) (first : PlannedPacket) (rest more : List PlannedPacket)
    (together : ∀ p ∈ more, p.timestamp = first.timestamp) :
    more.foldlM addPacket (groups ++ [⟨first, rest⟩]) = .ok (groups ++ [⟨first, rest ++ more⟩]) := by
  induction more generalizing rest with
  | nil =>
    rw [List.append_nil]
    rfl
  | cons p others ih =>
    obtain ⟨same, together⟩ := List.forall_mem_cons.mp together
    have step : addPacket (groups ++ [⟨first, rest⟩]) p = .ok (groups ++ [⟨first, rest ++ [p]⟩]) := by
      unfold addPacket
      rw [List.getLast?_concat]
      dsimp only
      rw [if_neg (not_not.mpr same.symm), List.dropLast_concat]
    rw [List.foldlM_cons, step, ok_bind, ih (rest ++ [p]) together, List.append_assoc]
    rfl

/-- Groups with timestamps of their own are found again. -/
theorem groups_found {groups done : List Group}
    (together : ∀ group ∈ groups, ∀ p ∈ group.packets, p.timestamp = group.first.timestamp)
    (apart : (done ++ groups).Pairwise fun a b => a.first.timestamp ≠ b.first.timestamp) :
    (groups.flatMap Group.packets).foldlM addPacket done = .ok (done ++ groups) := by
  induction groups generalizing done with
  | nil =>
    rw [List.append_nil]
    rfl
  | cons group rest ih =>
    obtain ⟨own, together⟩ := List.forall_mem_cons.mp together
    have fresh : reappears done group.first = false := by
      rw [reappears, List.any_eq_false]
      intro other member same
      exact (List.pairwise_append.mp apart).2.2 other member group List.mem_cons_self
        (of_decide_eq_true same)
    have opened : addPacket done group.first = .ok (done ++ [⟨group.first, []⟩]) := by
      have new : newGroup done group.first = .ok (done ++ [⟨group.first, []⟩]) := by
        rw [newGroup, fresh]
        rfl
      unfold addPacket
      split
      · exact new
      · rename_i last found
        have member := List.mem_of_getLast? found
        rw [if_pos]
        · exact new
        · intro same
          rw [reappears, List.any_eq_false] at fresh
          exact fresh last member (decide_eq_true same)
    rw [List.flatMap_cons, List.foldlM_append]
    have whole : group.packets.foldlM addPacket done = .ok (done ++ [group]) := by
      rw [Group.packets, List.foldlM_cons, opened, ok_bind, addRest done group.first []]
      · rw [List.nil_append]
      · exact fun p member => own p (List.mem_cons_of_mem _ member)
    rw [whole, ok_bind, ih together]
    · rw [List.append_assoc]
      rfl
    · rwa [List.append_assoc]

theorem checkGroups_iff {digits : List Nat} {groups : List Group} (length : digits.length = groups.length) :
    checkGroups 8000 (digits.zip groups) = .ok () ↔
      List.Forall₂ CarriesDigit digits (groups.map Group.packets) := by
  induction digits generalizing groups with
  | nil =>
    cases groups with
    | nil => exact ⟨fun _ => .nil, fun _ => rfl⟩
    | cons group rest => cases length
  | cons digit others ih =>
    cases groups with
    | nil => cases length
    | cons group rest =>
      rw [List.zip_cons_cons, checkGroups, List.map_cons, List.forall₂_cons,
        ← checkGroup_iff, ← ih (Nat.succ.inj length), bind_ok]
      exact ⟨fun ⟨_, first, later⟩ => ⟨first, later⟩, fun ⟨first, later⟩ => ⟨(), first, later⟩⟩

theorem unknown_digits {digits : Text} :
    (digits.codes.any fun digit => (dtmfEvent? digit).isNone) = false ↔
      ∀ digit ∈ digits.codes, (dtmfEvent? digit).isSome = true := by
  simp [List.any_eq_false, Option.isSome_iff_ne_none]

theorem carries_length {digits : List Nat} {groups : List (List PlannedPacket)}
    (planned : List.Forall₂ CarriesDigit digits groups) :
    ∀ group ∈ groups, group.length = packetsPerDigit := by
  induction planned with
  | nil => exact fun _ member => by cases member
  | cons first _ ih =>
    obtain ⟨event, -, carries⟩ := first
    have length := congrArg List.length carries
    rw [List.length_map] at length
    exact List.forall_mem_cons.mpr ⟨length, ih⟩

theorem flatten_length {groups : List (List PlannedPacket)} {size : Nat}
    (sizes : ∀ group ∈ groups, group.length = size) : groups.flatten.length = groups.length * size := by
  induction groups with
  | nil => rw [List.flatten_nil, List.length_nil, List.length_nil, Nat.zero_mul]
  | cons group rest ih =>
    obtain ⟨first, others⟩ := List.forall_mem_cons.mp sizes
    rw [List.flatten_cons, List.length_append, first, ih others, List.length_cons, Nat.succ_mul,
      Nat.add_comm]

theorem carries_known {digits : List Nat} {groups : List (List PlannedPacket)}
    (planned : List.Forall₂ CarriesDigit digits groups) :
    ∀ digit ∈ digits, (dtmfEvent? digit).isSome = true := by
  induction planned with
  | nil => exact fun _ member => by cases member
  | cons first _ ih =>
    obtain ⟨event, named, -⟩ := first
    exact List.forall_mem_cons.mpr ⟨by rw [named]; rfl, ih⟩

/-- Packets are accepted for the digits that their events carry. -/
theorem validate_ok {packets : List PlannedPacket} {digits : Text} {validation : Validation}
    (ok : validateTelephoneEvents packets digits 8000 = .ok validation) :
    ∃ groups, Carries packets digits groups := by
  unfold validateTelephoneEvents at ok
  dsimp only at ok
  split at ok
  · cases ok
  rename_i valid
  obtain ⟨short, -⟩ := not_or.mp valid
  split at ok
  · cases ok
  split at ok
  · cases ok
  rename_i ordered
  obtain ⟨groups, made, ok⟩ := bind_ok.mp ok
  split at ok
  · cases ok
  rename_i count
  obtain ⟨_, checked, -⟩ := bind_ok.mp ok
  have grouped := @groups_grouped _ [] [] _ ⟨rfl, nofun, .nil⟩ made
  rw [List.nil_append] at grouped
  refine ⟨groups.map Group.packets, ?_⟩
  refine ⟨Nat.le_of_not_lt short, ?_, ?_, ?_, ?_, ?_⟩
  · rw [grouped.whole, List.flatMap_def]
  · simpa using ordered
  · exact (checkGroups_iff (not_not.mp count).symm).mp checked
  · intro group member p first q second
    obtain ⟨held, inside, rfl⟩ := List.mem_map.mp member
    rw [grouped.together held inside p first, grouped.together held inside q second]
  · refine List.pairwise_map.mpr (grouped.apart.imp_of_mem fun {a b} left right other => ?_)
    intro p first q second same
    rw [grouped.together a left p first, grouped.together b right q second] at same
    exact other same

/-- Lists of packets with a first one, as groups. -/
theorem groups_of {lists : List (List PlannedPacket)} (filled : ∀ list ∈ lists, list ≠ []) :
    ∃ groups : List Group, groups.map Group.packets = lists := by
  induction lists with
  | nil => exact ⟨[], rfl⟩
  | cons list rest ih =>
    obtain ⟨first, others⟩ := List.forall_mem_cons.mp filled
    obtain ⟨groups, same⟩ := ih others
    cases list with
    | nil => exact absurd rfl first
    | cons p more => exact ⟨⟨p, more⟩ :: groups, by rw [List.map_cons, same]; rfl⟩

theorem carries_ok {packets : List PlannedPacket} {digits : Text} {lists : List (List PlannedPacket)}
    (carries : Carries packets digits lists) :
    ∃ validation, validateTelephoneEvents packets digits 8000 = .ok validation := by
  have sizes := carries_length carries.planned
  have counted : digits.codes.length = lists.length := carries.planned.length_eq
  have filled : ∀ list ∈ lists, list ≠ [] := by
    rintro list member rfl
    have size := sizes _ member
    exact absurd size (by decide)
  obtain ⟨groups, rfl⟩ := groups_of filled
  have whole : packets.filter isEvent = groups.flatMap Group.packets := by
    rw [carries.whole, List.flatMap_def]
  have found := @groups_found groups []
    (fun group member p inside => carries.together _ (List.mem_map_of_mem member) p inside group.first
      List.mem_cons_self)
    ((List.pairwise_map.mp carries.apart).imp fun apart =>
      apart _ List.mem_cons_self _ List.mem_cons_self)
  rw [List.length_map] at counted
  have matched : groups.length = digits.length := counted.symm
  unfold validateTelephoneEvents
  dsimp only
  rw [if_neg, if_neg, if_neg]
  · rw [whole, found, ok_bind, List.nil_append, if_neg (not_not.mpr matched),
      (checkGroups_iff counted).mpr carries.planned, ok_bind]
    exact ⟨_, rfl⟩
  · rw [carries.ordered]
    decide
  · rw [not_not, carries.whole, flatten_length sizes, List.length_map, ← counted]
    rfl
  · rw [not_or]
    refine ⟨Nat.not_lt.2 carries.short, ?_⟩
    rw [unknown_digits.2 (carries_known carries.planned)]
    decide

theorem dtmfEvent_injective {a b : Nat} {event : Byte} (left : dtmfEvent? a = some event)
    (right : dtmfEvent? b = some event) : a = b := by
  have listed {digit : Nat} {code : Byte} (named : dtmfEvent? digit = some code) :
      (digit, code) ∈ dtmfEvents := by
    unfold dtmfEvent? at named
    obtain ⟨before, after, split, -⟩ := List.lookup_eq_some_iff.mp named
    rw [split]
    simp
  have table : ∀ x ∈ dtmfEvents, ∀ y ∈ dtmfEvents, x.2 = y.2 → x.1 = y.1 := by decide
  exact table _ (listed left) _ (listed right) rfl

theorem plannedDigit_injective {a b : Byte} (same : plannedDigit a = plannedDigit b) : a = b := by
  have first := congrArg (fun list => (list.map fun x => x.1.head?).head?) same
  exact Option.some.inj (Option.some.inj first)

/-- The groups and the digits of packets are determined. -/
theorem carried_digits {first second : List Nat}
    {xs ys : List (List PlannedPacket)} (left : List.Forall₂ CarriesDigit first xs)
    (right : List.Forall₂ CarriesDigit second ys) (same : xs.flatten = ys.flatten) : first = second := by
  have size {digit : Nat} {group : List PlannedPacket} (carries : CarriesDigit digit group) :
      group.length = packetsPerDigit := by
    obtain ⟨event, -, carries⟩ := carries
    have length := congrArg List.length carries
    rw [List.length_map] at length
    exact length
  have filled {digit : Nat} {group : List PlannedPacket} {rest : List (List PlannedPacket)}
      (carries : CarriesDigit digit group) : [] ≠ (group :: rest).flatten := by
    intro empty
    have length := congrArg List.length empty
    rw [List.flatten_cons, List.length_append, size carries] at length
    have positive : 0 < packetsPerDigit := by decide
    rw [List.length_nil] at length
    omega
  induction left generalizing second ys with
  | nil =>
    cases right with
    | nil => rfl
    | cons one _ => exact absurd same (filled one)
  | cons one _ ih =>
    cases right with
    | nil => exact absurd same.symm (filled one)
    | cons other later =>
      rw [List.flatten_cons, List.flatten_cons] at same
      obtain ⟨rfl, tails⟩ := List.append_inj same ((size one).trans (size other).symm)
      obtain ⟨event, named, carries⟩ := one
      obtain ⟨code, called, carried⟩ := other
      obtain rfl := plannedDigit_injective (carries.symm.trans carried)
      rw [dtmfEvent_injective named called, ih later tails]

section planner
variable {session : MediaSession} {startMs : Nat} {sequence timestamp : Int}

theorem packet_ok {scheduledMs : Nat} {payload : List Byte} {marker : Bool} {event : Option Event}
    {p : PlannedPacket} (ok : packet session scheduledMs sequence timestamp payload marker event = .ok p) :
    isEvent p = event.isSome ∧ p.sequence = sequence ∧ p.timestamp = timestamp ∧
      carried p = (payload, marker) := by
  unfold packet at ok
  dsimp only at ok
  split at ok
  · cases ok
  · split at ok
    · cases ok
    · cases ok
      refine ⟨?_, rfl, rfl, rfl⟩
      cases event <;> rfl

/-- The packets of one digit. -/
structure EmitsDigit (event : Byte) (sequence timestamp : Int) (packets : List PlannedPacket) : Prop where
  kind : ∀ p ∈ packets, isEvent p = true
  sequence : packets.map PlannedPacket.sequence =
    (List.range packetsPerDigit).map fun (index : Nat) => sequence + index
  timestamp : ∀ p ∈ packets, p.timestamp = timestamp
  carried : packets.map carried = plannedDigit event

theorem clock_eq (codec : Codec) : codec.rtpClockHz = 8000 := by
  cases codec <;> rfl

theorem digitPackets_ok {digit : Nat} {event : Byte} {packets : List PlannedPacket}
    (ok : digitPackets session digit event startMs sequence timestamp = .ok packets) :
    EmitsDigit event sequence timestamp packets := by
  have each := mapM_ok ok
  have made {index : Nat} {p : PlannedPacket}
      (one : digitPacket session digit event startMs sequence timestamp index = .ok p) :
      isEvent p = true ∧ p.sequence = sequence + index ∧ p.timestamp = timestamp ∧
        carried p = (packEvent event (atEnd index) (eventDuration 8000 index), index == 0) := by
    unfold digitPacket at one
    rw [clock_eq] at one
    exact packet_ok one
  have all {P : PlannedPacket → Prop}
      (holds : ∀ index p, digitPacket session digit event startMs sequence timestamp index = .ok p → P p) :
      ∀ p ∈ packets, P p := by
    intro p member
    obtain ⟨index, one⟩ := forall₂_mem each p member
    exact holds index p one
  refine ⟨all fun _ _ one => (made one).1, ?_, all fun _ _ one => (made one).2.2.1, ?_⟩
  · rw [← List.forall₂_eq_eq_eq, List.forall₂_map_left_iff, List.forall₂_map_right_iff]
    exact each.flip.imp fun _ _ one => (made one).2.1
  · rw [plannedDigit, ← List.forall₂_eq_eq_eq, List.forall₂_map_left_iff, List.forall₂_map_right_iff]
    exact each.flip.imp fun _ _ one => (made one).2.2.2

/-- The packets of a digit string, in groups. -/
structure Emits (sequence timestamp : Int) (digits : List Nat) (packets : List PlannedPacket)
    (groups : List (List PlannedPacket)) : Prop where
  whole : packets = groups.flatten
  kind : ∀ p ∈ packets, isEvent p = true
  sequence : packets.map PlannedPacket.sequence =
    (List.range packets.length).map fun (index : Nat) => sequence + index
  planned : List.Forall₂ CarriesDigit digits groups
  together : ∀ group ∈ groups, ∀ p ∈ group, ∀ q ∈ group, p.timestamp = q.timestamp
  apart : groups.Pairwise fun a b => ∀ p ∈ a, ∀ q ∈ b, p.timestamp ≠ q.timestamp
  after : ∀ p ∈ packets, timestamp ≤ p.timestamp

theorem shifted_range (sequence : Int) (n m : Nat) :
    ((List.range n).map fun (index : Nat) => sequence + index) ++
        ((List.range m).map fun (index : Nat) => sequence + n + index) =
      (List.range (n + m)).map fun (index : Nat) => sequence + index := by
  rw [List.range_add, List.map_append, List.map_map]
  congr 1
  refine List.map_congr_left fun index _ => ?_
  simp only [Function.comp_apply]
  push_cast
  omega

theorem eventPackets_ok {digits : List Nat} {packets : List PlannedPacket}
    (ok : eventPackets session startMs sequence timestamp digits = .ok packets) :
    ∃ groups, Emits sequence timestamp digits packets groups := by
  induction digits generalizing startMs sequence timestamp packets with
  | nil =>
    cases ok
    exact ⟨[], rfl, nofun, rfl, .nil, nofun, .nil, nofun⟩
  | cons digit rest ih =>
    unfold eventPackets at ok
    split at ok
    · cases ok
    · rename_i event named
      simp only [bind_ok, pure_ok] at ok
      obtain ⟨first, made, others, more, rfl⟩ := ok
      have emitted := digitPackets_ok made
      obtain ⟨groups, later⟩ := ih more
      have size : first.length = packetsPerDigit := by
        have length := congrArg List.length emitted.carried
        rw [List.length_map] at length
        exact length
      have step : (advanceMs * session.codec.rtpClockHz / 1000 : Nat) = 1440 := by
        rw [clock_eq]
        rfl
      rw [step] at later
      refine ⟨first :: groups, ?_, ?_, ?_, ?_, ?_, ?_, ?_⟩
      · rw [List.flatten_cons, ← later.whole]
      · exact List.forall_mem_append.mpr ⟨emitted.kind, later.kind⟩
      · rw [List.map_append, emitted.sequence, later.sequence, List.length_append, size, shifted_range]
      · exact .cons ⟨event, named, emitted.carried⟩ later.planned
      · refine List.forall_mem_cons.mpr ⟨fun p left q right => ?_, later.together⟩
        rw [emitted.timestamp p left, emitted.timestamp q right]
      · refine .cons (fun group member p left q right => ?_) later.apart
        have second := later.after q (by
          rw [later.whole]
          exact List.mem_flatten_of_mem member right)
        rw [emitted.timestamp p left]
        push_cast at second
        omega
      · refine List.forall_mem_append.mpr ⟨fun p left => (emitted.timestamp p left).ge, fun p right => ?_⟩
        have second := later.after p right
        push_cast at second
        omega

theorem contiguous_range {packets : List PlannedPacket}
    (ordered : packets.map PlannedPacket.sequence =
      (List.range packets.length).map fun (index : Nat) => sequence + index) : contiguous packets = true := by
  induction packets generalizing sequence with
  | nil => rfl
  | cons p rest ih =>
    rw [List.length_cons, List.range_succ_eq_map, List.map_cons, List.map_cons, List.map_map] at ordered
    obtain ⟨first, others⟩ := List.cons.inj ordered
    have later : rest.map PlannedPacket.sequence =
        (List.range rest.length).map fun (index : Nat) => sequence + 1 + index := by
      rw [others]
      refine List.map_congr_left fun index _ => ?_
      simp only [Function.comp_apply, Nat.succ_eq_add_one]
      push_cast
      omega
    cases rest with
    | nil => rfl
    | cons q more =>
      have next := later
      rw [List.length_cons, List.range_succ_eq_map, List.map_cons, List.map_cons] at next
      have second := (List.cons.inj next).1
      rw [contiguous, ih later, Bool.and_true, decide_eq_true_eq, second, first]
      push_cast
      omega

theorem buildPacketPlan_ok {read : Except String (List Byte)} {packets : List PlannedPacket}
    (ok : buildPacketPlan session read = .ok packets) :
    ∃ audio events sequence timestamp groups, packets = audio ++ events ∧
      (∀ p ∈ audio, isEvent p = false) ∧ Emits sequence timestamp session.digits.codes events groups := by
  unfold buildPacketPlan at ok
  split at ok
  · cases ok
  split at ok
  · cases ok
  simp only [bind_ok] at ok
  obtain ⟨audio, sounded, events, emitted, ok⟩ := ok
  split at ok
  · cases ok
  obtain rfl := pure_ok.mp ok
  obtain ⟨groups, emits⟩ := eventPackets_ok emitted
  refine ⟨audio, events, _, _, groups, rfl, fun p member => ?_, emits⟩
  obtain ⟨index, one⟩ := forall₂_mem (mapM_ok sounded) p member
  exact (packet_ok one).1

/-- A plan carries the digits of its session. -/
theorem plan_carries {read : Except String (List Byte)} {packets : List PlannedPacket}
    (loaded : Loaded session) (ok : buildPacketPlan session read = .ok packets) :
    ∃ groups, Carries packets session.digits groups := by
  obtain ⟨audio, events, sequence, timestamp, groups, rfl, silent, emits⟩ := buildPacketPlan_ok ok
  have only : (audio ++ events).filter isEvent = events := by
    rw [List.filter_append, List.filter_eq_self.mpr emits.kind,
      List.filter_eq_nil_iff.mpr fun p member => by rw [silent p member]; decide, List.nil_append]
  refine ⟨groups, loaded.short, ?_, ?_, emits.planned, emits.together, emits.apart⟩
  · rw [only, emits.whole]
  · rw [only]
    exact contiguous_range emits.sequence

theorem revisionFrom_lt {scheduledMs index result : Nat} {rest : List Revision}
    (before : result < index + rest.length) :
    revisionFrom scheduledMs index result rest < index + rest.length := by
  induction rest generalizing index result with
  | nil => exact before
  | cons revision rest ih =>
    rw [List.length_cons] at before ⊢
    unfold revisionFrom
    split
    · have later := @ih (index + 1) index (by omega)
      omega
    · exact before

/-- Every packet of a loaded session can be made. -/
theorem packet_total {scheduledMs : Nat} {payload : List Byte} {marker : Bool} {event : Option Event}
    (loaded : Loaded session) (needed : event ≠ none → session.digits.codes ≠ []) :
    ∃ p, packet session scheduledMs sequence timestamp payload marker event = .ok p := by
  have inside : revisionAt session.revisions scheduledMs < session.revisions.length := by
    have positive := List.length_pos_iff.mpr loaded.revisions
    have bound := @revisionFrom_lt scheduledMs 0 0 session.revisions (by omega)
    rw [revisionAt]
    omega
  unfold packet
  dsimp only
  rw [List.getElem?_eq_getElem inside]
  dsimp only
  cases event with
  | none => exact ⟨_, rfl⟩
  | some event =>
    have negotiated := loaded.events (needed nofun) _ (List.getElem_mem inside)
    obtain ⟨payloadType, held⟩ := Option.isSome_iff_exists.mp negotiated
    rw [held]
    exact ⟨_, rfl⟩

theorem mapM_total {α β ε : Type} {f : α → Except ε β} (total : ∀ x, ∃ y, f x = .ok y) (xs : List α) :
    ∃ ys, xs.mapM f = .ok ys := by
  induction xs with
  | nil => exact ⟨[], rfl⟩
  | cons x rest ih =>
    obtain ⟨y, first⟩ := total x
    obtain ⟨ys, later⟩ := ih
    exact ⟨y :: ys, by rw [List.mapM_cons, first, ok_bind, later]; rfl⟩

theorem eventPackets_total (loaded : Loaded session) (some_ : session.digits.codes ≠ []) {digits : List Nat}
    (known : ∀ digit ∈ digits, (dtmfEvent? digit).isSome = true) :
    ∃ packets, eventPackets session startMs sequence timestamp digits = .ok packets := by
  induction digits generalizing startMs sequence timestamp with
  | nil => exact ⟨[], rfl⟩
  | cons digit rest ih =>
    obtain ⟨first, others⟩ := List.forall_mem_cons.mp known
    obtain ⟨event, named⟩ := Option.isSome_iff_exists.mp first
    obtain ⟨packets, made⟩ : ∃ packets,
        digitPackets session digit event startMs sequence timestamp = .ok packets :=
      mapM_total (fun _ => packet_total loaded fun _ => some_) _
    obtain ⟨more, later⟩ := @ih (startMs + advanceMs) (sequence + packetsPerDigit)
      (timestamp + (advanceMs * session.codec.rtpClockHz / 1000 : Nat)) others
    unfold eventPackets
    rw [named]
    dsimp only
    rw [made, ok_bind, later]
    exact ⟨_, rfl⟩

/-- A loaded session has a plan, as long as its canary asset is unchanged. -/
theorem buildPacketPlan_total {payload : List Byte} (loaded : Loaded session) (size : payload.length = 8000)
    (unchanged : sha256Hex (payload.map Fin.val) = session.assetSha256) :
    ∃ packets, buildPacketPlan session (.ok payload) = .ok packets := by
  obtain ⟨audio, sounded⟩ : ∃ audio, (List.range 50).mapM (audioPacket session payload) = .ok audio :=
    mapM_total (fun _ => packet_total loaded fun other => absurd rfl other) _
  obtain ⟨events, emitted⟩ : ∃ events, eventPackets session (50 * packetizationMs)
      (rtpSequenceStart + (50 : Nat)) (rtpTimestampStart + (50 : Nat) * 160) session.digits.codes = .ok events := by
    by_cases empty : session.digits.codes = []
    · rw [empty]
      exact ⟨[], rfl⟩
    · exact eventPackets_total loaded empty loaded.digits
  have count : (audio ++ events).length ≤ 200 := by
    obtain ⟨groups, emits⟩ := eventPackets_ok emitted
    have first := (mapM_ok sounded).length_eq
    have second := flatten_length (carries_length emits.planned)
    have digits := emits.planned.length_eq
    have short : session.digits.codes.length ≤ 16 := loaded.short
    have size : packetsPerDigit = 7 := rfl
    rw [List.length_range] at first
    rw [List.length_append, ← first, emits.whole, second, size, ← digits]
    omega
  unfold buildPacketPlan
  dsimp only
  rw [if_neg (by rw [not_or, not_not, not_not]; exact ⟨size, unchanged⟩), size]
  have fifty : 8000 / 160 = 50 := rfl
  rw [fifty, sounded, ok_bind, emitted, ok_bind, if_neg (Nat.not_lt.2 count)]
  exact ⟨_, rfl⟩

end planner

/-- What the events of a group say: one code, durations that do not decrease, and the end bit on
the redundant last packets and on no other. -/
structure Progresses (digit : Nat) (decoded : List Decoded) : Prop where
  event : ∀ d ∈ decoded, dtmfEvent? digit = some d.event
  durations : (decoded.map Decoded.duration).Pairwise (· ≤ ·)
  ends : decoded.map Decoded.atEnd =
    List.replicate (progressPackets - 1) false ++ List.replicate dtmfEndPackets true

theorem carriesDigit_progresses {digit : Nat} {group : List PlannedPacket}
    (carries : CarriesDigit digit group) :
    ∃ decoded, group.mapM (fun p => decodeEvent p.payload) = .ok decoded ∧ Progresses digit decoded := by
  obtain ⟨event, named, carries⟩ := carries
  have payloads : group.map PlannedPacket.payload = (plannedDigit event).map Prod.fst := by
    rw [← carries, List.map_map]
    rfl
  refine ⟨decodedDigit event, by rw [mapM_payloads, payloads, decode_planned], ?_, ?_, rfl⟩
  · intro d member
    obtain ⟨index, -, rfl⟩ := List.mem_map.mp member
    exact named
  · have durations : (decodedDigit event).map Decoded.duration = expectedDurations 8000 := rfl
    rw [durations]
    decide

/-- The planner and the validator agree: a loaded session has a plan, whose packets are accepted for
its digit string and for no other; and accepted packets carry the digits as the planner does. -/
theorem planner_validator_agree :
    (∀ readers value session, loadSession readers value = .ok session →
      (∀ payload : List Byte, payload.length = 8000 →
        sha256Hex (payload.map Fin.val) = session.assetSha256 →
          ∃ packets, buildPacketPlan session (.ok payload) = .ok packets) ∧
      ∀ read packets, buildPacketPlan session read = .ok packets → ∀ digits,
        (∃ validation, validateTelephoneEvents packets digits 8000 = .ok validation) ↔
          digits = session.digits) ∧
    ∀ packets digits validation, validateTelephoneEvents packets digits 8000 = .ok validation →
      ∃ groups, Carries packets digits groups ∧
        List.Forall₂ (fun digit group => ∃ decoded,
          group.mapM (fun p => decodeEvent p.payload) = .ok decoded ∧ Progresses digit decoded)
          digits.codes groups := by
  refine ⟨fun readers value session ok => ?_, fun packets digits validation ok => ?_⟩
  · have loaded := loadSession_loaded ok
    refine ⟨fun payload size unchanged => buildPacketPlan_total loaded size unchanged, ?_⟩
    intro read packets built digits
    obtain ⟨groups, carries⟩ := plan_carries loaded built
    constructor
    · rintro ⟨validation, accepted⟩
      obtain ⟨others, carried⟩ := validate_ok accepted
      have same := carried_digits carried.planned carries.planned (carried.whole.symm.trans carries.whole)
      exact Text.ext same
    · rintro rfl
      exact carries_ok carries
  · obtain ⟨groups, carries⟩ := validate_ok ok
    exact ⟨groups, carries, carries.planned.imp fun _ _ one => carriesDigit_progresses one⟩

def silence : List Byte := List.replicate 8000 0

/-- Readers for one SDP text, with silence for every canary asset. -/
def oneAddress : Readers where
  parseSdp := fun _ _ => .ok ⟨"192.0.2.1", 4000, [(0, "PCMU", 8000), (101, "TELEPHONE-EVENT", 8000)]⟩
  literalUnicast := fun address _ => .ok (address, .inet)
  asset := fun _ _ => .ok (sha256Hex (silence.map Fin.val))

def oneAddressSdp : Text :=
  "m=audio 4000 RTP/AVP 0 101\nc=IN IP4 192.0.2.1\na=rtpmap:101 telephone-event/8000\na=ptime:20"

def twoFives : JsonValue :=
  .dict [("apiVersion", .str sessionVersion), ("direction", .str "caller_to_callee"),
    ("codec", .str "PCMU"), ("digits", .str "55"),
    ("echo", .dict [("required", .bool false), ("timeoutMs", .int 20)]),
    ("revisions", .list [.dict [("activationMs", .int 0), ("localSdp", .str oneAddressSdp),
      ("remoteSdp", .str oneAddressSdp)]])]

theorem two_fives_accepted : ∃ session packets, loadSession oneAddress twoFives = .ok session ∧
    buildPacketPlan session (.ok silence) = .ok packets ∧ ∀ digits,
      (∃ validation, validateTelephoneEvents packets digits 8000 = .ok validation) ↔ digits = "55" := by
  have loaded : loadSession oneAddress twoFives = .ok
      ⟨"caller_to_callee", .pcmu, "55", false, 20,
        [⟨0, "192.0.2.1", 4000, "192.0.2.1", 4000, .inet, 0, some 101⟩],
        sha256Hex (silence.map Fin.val)⟩ := rfl
  obtain ⟨planned, agree⟩ := planner_validator_agree.1 oneAddress twoFives _ loaded
  obtain ⟨packets, built⟩ := planned silence List.length_replicate rfl
  exact ⟨_, packets, loaded, built, agree _ packets built⟩

end Sippycup.Media
