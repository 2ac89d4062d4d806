import Sippycup.Chaos.Topology
import Sippycup.Machine.Matching

/-! The packets captured before and after an impairment are matched by what identifies them: the
counts account for every packet of both captures. -/
namespace Sippycup.Chaos
open Sippycup.Python Sippycup.Machine.Matching

/-- SSRC, sequence number, timestamp, payload type and digest of the payload. -/
structure RtpIdentity where
  ssrc : Nat
  sequence : Nat
  timestamp : Nat
  payloadType : Nat
  digest : Text
  deriving DecidableEq

structure Packet where
  timeSeconds : Rat
  key : RtpIdentity

/-- The packets sent with a key and not yet matched: their places and times. -/
abbrev Queues := RtpIdentity → List (Nat × Rat)

def enqueue (queues : Queues) (sent : Packet × Nat) : Queues :=
  Function.update queues sent.1.key (queues sent.1.key ++ [(sent.2, sent.1.timeSeconds)])

def sentByKey (sent : List Packet) : Queues := sent.zipIdx.foldl enqueue fun _ => []

structure Matched where
  queues : Queues
  delaysMs : List Rat
  receivedIndexes : List Nat
  duplicates : Nat
  matched : Nat

def negativeDelay : String :=
  "paired RTP packet has a negative capture delay; observations must share one clock"

def receive (m : Matched) (packet : Packet) : Result Matched :=
  match m.queues packet.key with
  | (sendIndex, sentAt) :: queue =>
    let delay := (packet.timeSeconds - sentAt) * 1000
    if delay < 0 then .error (.own (.lifecycle negativeDelay))
    else .ok {
      queues := Function.update m.queues packet.key queue, delaysMs := m.delaysMs ++ [delay]
      receivedIndexes := m.receivedIndexes ++ [sendIndex]
      duplicates := m.duplicates, matched := m.matched + 1 }
  | [] => .ok { m with duplicates := m.duplicates + 1 }

structure Ordering where
  reordered : Nat
  highWater : Int

def noteIndex (o : Ordering) (index : Nat) : Ordering :=
  if (index : Int) < o.highWater then { o with reordered := o.reordered + 1 } else { o with highWater := index }

def orderingOf (indexes : List Nat) : Ordering := indexes.foldl noteIndex ⟨0, -1⟩

structure PacketCounts where
  before : Nat
  after : Nat
  matched : Nat
  lost : Nat
  duplicates : Nat
  reordered : Nat

/-- `_measure_pair`: the packet counts, and the delays that its statistics are taken of. -/
def measurePair (sent received : List Packet) : Result (PacketCounts × List Rat) := do
  let m ← received.foldlM receive ⟨sentByKey sent, [], [], 0, 0⟩
  return ({
    before := sent.length, after := received.length, matched := m.matched
    lost := sent.length - m.matched, duplicates := m.duplicates
    reordered := (orderingOf m.receivedIndexes).reordered }, m.delaysMs)

/-- The packets of a key are received, one after the other, no earlier than they were sent. -/
def Delayed (sent received : List Packet) : Prop :=
  ∀ (key : RtpIdentity) (n : Nat) (s r : Packet), (sent.filter fun p => p.key = key)[n]? = some s →
    (received.filter fun p => p.key = key)[n]? = some r → s.timeSeconds ≤ r.timeSeconds

/-- A packet that was received before, or was never sent. -/
def Spurious (sent before : List Packet) (packet : Packet) : Prop :=
  packet.key ∈ before.map Packet.key ∨ packet.key ∉ sent.map Packet.key

/-- The first reception of a packet, after the first one of a packet sent later. -/
def Overtaken (sent before : List Packet) (packet : Packet) : Prop :=
  packet.key ∉ before.map Packet.key ∧ packet.key ∈ sent.map Packet.key ∧
    ∃ later ∈ (sent.map Packet.key).drop ((sent.map Packet.key).idxOf packet.key + 1), later ∈ before.map Packet.key

instance (sent before : List Packet) (packet : Packet) : Decidable (Spurious sent before packet) :=
  inferInstanceAs (Decidable (_ ∨ _))

instance (sent before : List Packet) (packet : Packet) : Decidable (Overtaken sent before packet) :=
  inferInstanceAs (Decidable (_ ∧ _))

section queues
variable {sent : List Packet} {key : RtpIdentity}

/-- The queue of a key before anything is received. -/
def sentWith (sent : List Packet) (key : RtpIdentity) : List (Nat × Rat) :=
  (places Packet.key sent key).map fun e => (e.2, e.1.timeSeconds)

theorem sentByKey_eq (sent : List Packet) (key : RtpIdentity) : sentByKey sent key = sentWith sent key := by
  induction sent using List.reverseRecOn with
  | nil => rfl
  | append_singleton earlier last ih =>
    rw [sentByKey, List.zipIdx_append, List.foldl_append]
    change enqueue (sentByKey earlier) (last, 0 + earlier.length) key = _
    rw [enqueue, sentWith, places_concat, List.map_append, ← sentWith]
    by_cases same : last.key = key
    · subst same
      rw [Function.update_self, ih, if_pos rfl, Nat.zero_add, List.map_singleton]
    · rw [Function.update_of_ne (Ne.symm same), ih, if_neg same, List.map_nil, List.append_nil]

theorem mem_sentWith {e : Nat × Rat} (member : e ∈ sentWith sent key) :
    ∃ s, sent[e.1]? = some s ∧ s.key = key ∧ e.2 = s.timeSeconds := by
  obtain ⟨place, inside, rfl⟩ := List.mem_map.mp member
  obtain ⟨there, same⟩ := mem_places.1 inside
  exact ⟨place.1, there, same, rfl⟩

theorem sentWith_nodup : ((sentWith sent key).map Prod.fst).Nodup := by
  rw [sentWith, List.map_map]
  exact places_nodup

theorem sentWith_times : (sentWith sent key).map Prod.snd = (sent.filter fun p => p.key = key).map Packet.timeSeconds := by
  rw [sentWith, List.map_map, ← map_places, List.map_map]
  rfl

end queues

section ordering

/-- The highest index so far, and -1 before the first. -/
structure HighWater (indexes : List Nat) (o : Ordering) : Prop where
  above : ∀ i ∈ indexes, (i : Int) ≤ o.highWater
  attained : o.highWater = -1 ∨ ∃ i ∈ indexes, o.highWater = i

theorem HighWater.below_iff {indexes : List Nat} {o : Ordering} (high : HighWater indexes o) (index : Nat) :
    (index : Int) < o.highWater ↔ ∃ i ∈ indexes, index < i := by
  constructor
  · intro below
    rcases high.attained with start | ⟨i, member, same⟩
    · omega
    · exact ⟨i, member, by omega⟩
  · rintro ⟨i, member, below⟩
    have bound := high.above i member
    omega

theorem orderingOf_concat (indexes : List Nat) (index : Nat) :
    orderingOf (indexes ++ [index]) = noteIndex (orderingOf indexes) index := by
  rw [orderingOf, List.foldl_append, List.foldl_cons, List.foldl_nil, orderingOf]

theorem orderingOf_highWater (indexes : List Nat) : HighWater indexes (orderingOf indexes) := by
  induction indexes using List.reverseRecOn with
  | nil => exact ⟨nofun, .inl rfl⟩
  | append_singleton earlier index ih =>
    rw [orderingOf_concat, noteIndex]
    split
    · rename_i below
      refine ⟨List.forall_mem_append.mpr ⟨ih.above, List.forall_mem_singleton.mpr (Int.le_of_lt below)⟩, ?_⟩
      exact ih.attained.imp_right fun ⟨i, member, same⟩ => ⟨i, List.mem_append_left _ member, same⟩
    · rename_i above
      refine ⟨List.forall_mem_append.mpr ⟨fun i member => ?_, List.forall_mem_singleton.mpr le_rfl⟩, ?_⟩
      · exact (ih.above i member).trans (not_lt.1 above)
      · exact .inr ⟨index, List.mem_append_right _ List.mem_cons_self, rfl⟩

/-- The running maximum counts the indexes that come after a higher one. -/
theorem reordered_concat (indexes : List Nat) (index : Nat) :
    (orderingOf (indexes ++ [index])).reordered =
      (orderingOf indexes).reordered + if ∃ i ∈ indexes, index < i then 1 else 0 := by
  rw [orderingOf_concat, noteIndex]
  by_cases below : ∃ i ∈ indexes, index < i
  · rw [if_pos (((orderingOf_highWater indexes).below_iff index).mpr below), if_pos below]
  · rw [if_neg (mt ((orderingOf_highWater indexes).below_iff index).mp below), if_neg below, Nat.add_zero]

end ordering

section accounts
variable {sent done : List Packet} {packet : Packet} {m next : Matched}

/-- How often a key was received. -/
def receivedCount (done : List Packet) (key : RtpIdentity) : Nat := (done.map Packet.key).count key

theorem receivedCount_self : receivedCount (done ++ [packet]) packet.key = receivedCount done packet.key + 1 := by
  rw [receivedCount, List.map_append, List.count_append, List.map_singleton, List.count_singleton_self, receivedCount]

theorem receivedCount_other {key : RtpIdentity} (other : key ≠ packet.key) :
    receivedCount (done ++ [packet]) key = receivedCount done key := by
  have none : [packet.key].count key = 0 := List.count_eq_zero.mpr (by rwa [List.mem_singleton])
  rw [receivedCount, List.map_append, List.count_append, List.map_singleton, none, Nat.add_zero, receivedCount]

/-- What the loop has accounted for: each key's queue without its oldest members, every reception,
and no index twice. -/
structure Accounts (sent done : List Packet) (m : Matched) : Prop where
  queues : ∀ key, m.queues key = (sentWith sent key).drop (receivedCount done key)
  total : m.matched + m.duplicates = done.length
  indexes : m.receivedIndexes.length = m.matched
  delays : m.delaysMs.length = m.matched
  taken : ∀ i ∈ m.receivedIndexes, ∃ key n e, n < receivedCount done key ∧ (sentWith sent key)[n]? = some e ∧ e.1 = i
  once : m.receivedIndexes.Nodup

theorem accounts_start (sent : List Packet) : Accounts sent [] ⟨sentByKey sent, [], [], 0, 0⟩ where
  queues := sentByKey_eq sent
  total := rfl
  indexes := rfl
  delays := rfl
  taken := nofun
  once := List.nodup_nil

/-- The loop's step: the key's queue is empty, or gives its oldest member up. -/
theorem receive_ok (ok : receive m packet = .ok next) :
    m.queues packet.key = [] ∧ next = { m with duplicates := m.duplicates + 1 } ∨
      ∃ index sentAt queue, m.queues packet.key = (index, sentAt) :: queue ∧ sentAt ≤ packet.timeSeconds ∧
        next = {
          queues := Function.update m.queues packet.key queue
          delaysMs := m.delaysMs ++ [(packet.timeSeconds - sentAt) * 1000]
          receivedIndexes := m.receivedIndexes ++ [index], duplicates := m.duplicates, matched := m.matched + 1 } := by
  unfold receive at ok
  split at ok
  · rename_i index sentAt queue waiting
    dsimp only at ok
    split at ok
    · cases ok
    · rename_i late
      refine .inr ⟨index, sentAt, queue, waiting, ?_, (Except.ok.inj ok).symm⟩
      by_contra early
      exact late (mul_neg_of_neg_of_pos (sub_neg.mpr (not_le.mp early)) (by norm_num))
  · rename_i empty
    exact .inl ⟨empty, (Except.ok.inj ok).symm⟩

theorem queue_empty (accounts : Accounts sent done m) {key : RtpIdentity} (empty : m.queues key = []) :
    (sentWith sent key).length ≤ receivedCount done key := by
  rw [accounts.queues key] at empty
  exact List.drop_eq_nil_iff.mp empty

theorem queue_front (accounts : Accounts sent done m) {key : RtpIdentity} {e : Nat × Rat} {queue : List (Nat × Rat)}
    (waiting : m.queues key = e :: queue) :
    (sentWith sent key)[receivedCount done key]? = some e ∧
      queue = (sentWith sent key).drop (receivedCount done key + 1) := by
  rw [accounts.queues key] at waiting
  constructor
  · rw [← List.head?_drop, waiting, List.head?_cons]
  · rw [← List.drop_drop, waiting, List.drop_succ_cons, List.drop_zero]

/-- The front of a queue was never taken before. -/
theorem front_fresh (accounts : Accounts sent done m) {key : RtpIdentity} {e : Nat × Rat}
    (front : (sentWith sent key)[receivedCount done key]? = some e) : e.1 ∉ m.receivedIndexes := by
  intro again
  obtain ⟨key', n, e', before, there, same⟩ := accounts.taken e.1 again
  obtain ⟨s, at_, named, -⟩ := mem_sentWith (List.mem_of_getElem? front)
  obtain ⟨s', at', named', -⟩ := mem_sentWith (List.mem_of_getElem? there)
  rw [same, at_] at at'
  obtain rfl := Option.some.inj at'
  obtain rfl : key = key' := named.symm.trans named'
  have alike : ((sentWith sent key).map Prod.fst)[n]? = ((sentWith sent key).map Prod.fst)[receivedCount done key]? := by
    rw [List.getElem?_map, List.getElem?_map, there, front, Option.map_some, Option.map_some, same]
  have inside : n < ((sentWith sent key).map Prod.fst).length := by
    rw [List.length_map]
    exact (List.getElem?_eq_some_iff.mp there).1
  exact absurd ((List.getElem?_inj inside sentWith_nodup).mp alike) (Nat.ne_of_lt before)

theorem receivedCount_mono (key : RtpIdentity) : receivedCount done key ≤ receivedCount (done ++ [packet]) key := by
  rw [receivedCount, receivedCount, List.map_append, List.count_append]
  exact Nat.le_add_right _ _

theorem accounts_receive (accounts : Accounts sent done m) (ok : receive m packet = .ok next) :
    Accounts sent (done ++ [packet]) next := by
  have kept : ∀ i ∈ m.receivedIndexes, ∃ key n e, n < receivedCount (done ++ [packet]) key ∧
      (sentWith sent key)[n]? = some e ∧ e.1 = i := fun i member => by
    obtain ⟨key, n, e, before, there⟩ := accounts.taken i member
    exact ⟨key, n, e, before.trans_le (receivedCount_mono key), there⟩
  rcases receive_ok ok with ⟨empty, rfl⟩ | ⟨index, sentAt, queue, waiting, -, rfl⟩
  · refine ⟨fun key => ?_, ?_, accounts.indexes, accounts.delays, kept, accounts.once⟩
    · by_cases same : key = packet.key
      · subst same
        have short := queue_empty accounts empty
        rw [receivedCount_self, List.drop_eq_nil_of_le (Nat.le_succ_of_le short)]
        exact empty
      · rw [receivedCount_other same]
        exact accounts.queues key
    · rw [List.length_append, List.length_singleton, ← accounts.total]
      rfl
  · obtain ⟨front, rest⟩ := queue_front accounts waiting
    refine ⟨fun key => ?_, ?_, ?_, ?_, ?_, ?_⟩
    · dsimp only
      by_cases same : key = packet.key
      · subst same
        rw [Function.update_self, receivedCount_self, rest]
      · rw [Function.update_of_ne same, receivedCount_other same]
        exact accounts.queues key
    · rw [List.length_append, List.length_singleton, ← accounts.total]
      exact Nat.add_right_comm _ _ _
    · rw [List.length_append, accounts.indexes]
      rfl
    · rw [List.length_append, accounts.delays]
      rfl
    · refine List.forall_mem_append.mpr ⟨kept, List.forall_mem_singleton.mpr ?_⟩
      exact ⟨packet.key, _, _, receivedCount_self ▸ Nat.lt_succ_self _, front, rfl⟩
    · rw [List.nodup_append]
      refine ⟨accounts.once, List.nodup_singleton _, fun i old j new same => ?_⟩
      rw [same, List.mem_singleton.mp new] at old
      exact front_fresh accounts front old

theorem accounts_run {rest : List Packet} (accounts : Accounts sent done m) (ran : rest.foldlM receive m = .ok next) :
    Accounts sent (done ++ rest) next := by
  induction rest generalizing done m with
  | nil =>
    cases ran
    rwa [List.append_nil]
  | cons packet rest ih =>
    obtain ⟨middle, first, later⟩ := bind_ok.mp ran
    have onward := ih (accounts_receive accounts first) later
    rwa [List.append_assoc, List.singleton_append] at onward

/-- Every index taken is the place of a packet sent, so no more are matched than were sent. -/
theorem matched_le (accounts : Accounts sent done m) : m.matched ≤ sent.length := by
  have inside : m.receivedIndexes ⊆ List.range sent.length := fun i member => by
    obtain ⟨key, n, e, -, there, rfl⟩ := accounts.taken i member
    obtain ⟨s, at_, -⟩ := mem_sentWith (List.mem_of_getElem? there)
    exact List.mem_range.mpr (List.getElem?_eq_some_iff.mp at_).1
  have short := (List.subperm_of_subset accounts.once inside).length_le
  rwa [List.length_range, accounts.indexes] at short

end accounts

section distinct
variable {sent done : List Packet} {packet : Packet} {m next : Matched}

/-- Where no key was sent twice: the indexes taken are those of the packets received. -/
structure Placed (sent done : List Packet) (m : Matched) : Prop where
  received : ∀ i, i ∈ m.receivedIndexes ↔ ∃ s, sent[i]? = some s ∧ s.key ∈ done.map Packet.key
  spurious : m.duplicates = tally (Spurious sent) done
  overtaken : (orderingOf m.receivedIndexes).reordered = tally (Overtaken sent) done

theorem placed_start (sent : List Packet) : Placed sent [] ⟨sentByKey sent, [], [], 0, 0⟩ where
  received := fun i => by simp
  spurious := rfl
  overtaken := rfl

theorem sentWith_distinct (distinct : (sent.map Packet.key).Nodup) {i : Nat} {s : Packet} (at_ : sent[i]? = some s) :
    sentWith sent s.key = [(i, s.timeSeconds)] := by
  rw [sentWith, places_distinct distinct at_, List.map_singleton]

theorem place_unique (distinct : (sent.map Packet.key).Nodup) {i j : Nat} {s t : Packet} (at_ : sent[i]? = some s)
    (at' : sent[j]? = some t) (same : s.key = t.key) : i = j := by
  have queue := sentWith_distinct distinct at_
  rw [same, sentWith_distinct distinct at'] at queue
  exact (congrArg Prod.fst (List.singleton_inj.mp queue)).symm

theorem received_iff {key : RtpIdentity} : 0 < receivedCount done key ↔ key ∈ done.map Packet.key :=
  List.count_pos_iff

/-- The keys after a packet's own are those of the packets sent later. -/
theorem mem_later (distinct : (sent.map Packet.key).Nodup) {i : Nat} {s : Packet} (at_ : sent[i]? = some s)
    {key : RtpIdentity} : key ∈ (sent.map Packet.key).drop ((sent.map Packet.key).idxOf s.key + 1) ↔
      ∃ j, i < j ∧ ∃ later, sent[j]? = some later ∧ later.key = key := by
  obtain ⟨inside, rfl⟩ := List.getElem?_eq_some_iff.mp at_
  have place : (sent.map Packet.key).idxOf sent[i].key = i := by
    have named := distinct.idxOf_getElem i (by rwa [List.length_map])
    rwa [List.getElem_map] at named
  rw [place, List.mem_drop_iff_getElem]
  constructor
  · rintro ⟨j, long, same⟩
    rw [List.getElem_map] at same
    exact ⟨i + 1 + j, by omega, _, List.getElem?_eq_getElem _, same⟩
  · rintro ⟨j, after, later, there, same⟩
    obtain ⟨within, rfl⟩ := List.getElem?_eq_some_iff.mp there
    obtain ⟨k, rfl⟩ := Nat.exists_eq_add_of_lt after
    refine ⟨k, by rw [List.length_map]; omega, ?_⟩
    rw [List.getElem_map, ← same]
    simp only [Nat.add_right_comm]

theorem placed_receive (distinct : (sent.map Packet.key).Nodup) (accounts : Accounts sent done m)
    (placed : Placed sent done m) (ok : receive m packet = .ok next) : Placed sent (done ++ [packet]) next := by
  have grown (key : RtpIdentity) : key ∈ (done ++ [packet]).map Packet.key ↔
      key ∈ done.map Packet.key ∨ key = packet.key := by
    rw [List.map_append, List.mem_append, List.map_singleton, List.mem_singleton]
  rcases receive_ok ok with ⟨empty, rfl⟩ | ⟨index, sentAt, queue, waiting, -, rfl⟩
  · have short := queue_empty accounts empty
    have again {i : Nat} {s : Packet} (at_ : sent[i]? = some s) (same : s.key = packet.key) :
        packet.key ∈ done.map Packet.key := by
      rw [← same, sentWith_distinct distinct at_] at short
      exact same ▸ received_iff.1 short
    have spurious : Spurious sent done packet := by
      by_cases known : packet.key ∈ sent.map Packet.key
      · obtain ⟨s, member, same⟩ := List.mem_map.mp known
        obtain ⟨i, at_⟩ := List.mem_iff_getElem?.mp member
        exact .inl (again at_ same)
      · exact .inr known
    refine ⟨fun i => ?_, ?_, ?_⟩
    · rw [placed.received i]
      apply exists_congr
      intro s
      rw [and_congr_right_iff]
      intro at_
      rw [grown]
      exact ⟨.inl, fun either => either.elim id fun same => same ▸ again at_ same⟩
    · rw [tally_concat, if_pos spurious, ← placed.spurious]
    · have unmatched : ¬ Overtaken sent done packet := fun ⟨unread, known, _⟩ =>
        spurious.elim unread fun unknown => unknown known
      rw [tally_concat, if_neg unmatched, ← placed.overtaken]
      rfl
  · obtain ⟨front, -⟩ := queue_front accounts waiting
    obtain ⟨s, at_, same, -⟩ := mem_sentWith (List.mem_of_getElem? front)
    have unread : packet.key ∉ done.map Packet.key := by
      intro before
      rw [← same, sentWith_distinct distinct at_] at front
      have inside := (List.getElem?_eq_some_iff.mp front).1
      exact absurd (received_iff.2 before) (same ▸ Nat.not_lt.2 (Nat.le_of_lt_succ inside))
    have known : packet.key ∈ sent.map Packet.key :=
      List.mem_map.mpr ⟨s, List.mem_of_getElem? at_, same⟩
    have genuine : ¬ Spurious sent done packet := fun spurious => spurious.elim unread fun unknown => unknown known
    have overtaken : Overtaken sent done packet ↔ ∃ i ∈ m.receivedIndexes, index < i := by
      constructor
      · rintro ⟨-, -, key, after, before⟩
        rw [← same] at after
        obtain ⟨j, later, t, there, named⟩ := (mem_later distinct at_).mp after
        exact ⟨j, (placed.received j).mpr ⟨t, there, named ▸ before⟩, later⟩
      · rintro ⟨j, member, later⟩
        obtain ⟨t, there, before⟩ := (placed.received j).mp member
        refine ⟨unread, known, t.key, ?_, before⟩
        rw [← same]
        exact (mem_later distinct at_).mpr ⟨j, later, t, there, rfl⟩
    refine ⟨fun i => ?_, ?_, ?_⟩
    · rw [List.mem_append, placed.received i, List.mem_singleton]
      constructor
      · rintro (⟨t, there, before⟩ | rfl)
        · exact ⟨t, there, (grown _).mpr (.inl before)⟩
        · exact ⟨s, at_, (grown _).mpr (.inr same)⟩
      · rintro ⟨t, there, member⟩
        rcases (grown _).mp member with before | named
        · exact .inl ⟨t, there, before⟩
        · exact .inr (place_unique distinct there at_ (named.trans same.symm))
    · rw [tally_concat, if_neg genuine, ← placed.spurious]
      rfl
    · rw [tally_concat, reordered_concat, placed.overtaken, if_congr overtaken rfl rfl]

theorem placed_run {rest : List Packet} (distinct : (sent.map Packet.key).Nodup) (accounts : Accounts sent done m)
    (placed : Placed sent done m) (ran : rest.foldlM receive m = .ok next) : Placed sent (done ++ rest) next := by
  induction rest generalizing done m with
  | nil =>
    cases ran
    rwa [List.append_nil]
  | cons packet rest ih =>
    obtain ⟨middle, first, later⟩ := bind_ok.mp ran
    have onward := ih (accounts_receive accounts first) (placed_receive distinct accounts placed first) later
    rwa [List.append_assoc, List.singleton_append] at onward

/-- As many packets were matched as keys sent were received. -/
theorem matched_eq (accounts : Accounts sent done m) (placed : Placed sent done m) :
    m.matched = (sent.map Packet.key).countP fun key => key ∈ done.map Packet.key := by
  have listed : m.receivedIndexes.Perm
      ((sent.zipIdx.filter fun e => e.1.key ∈ done.map Packet.key).map Prod.snd) := by
    have places : (sent.zipIdx.map Prod.snd).Nodup := by
      rw [List.zipIdx_map_snd]
      exact List.nodup_range'
    refine (List.perm_ext_iff_of_nodup accounts.once (places.sublist (List.filter_sublist.map _))).mpr fun i => ?_
    simp only [placed.received i, List.mem_map, List.mem_filter, List.mem_zipIdx_iff_getElem?, Prod.exists,
      decide_eq_true_eq, exists_eq_right]
  have counted : (sent.map Packet.key).countP (fun key => key ∈ done.map Packet.key) =
      sent.zipIdx.countP fun e => e.1.key ∈ done.map Packet.key := by
    conv_lhs => rw [← List.zipIdx_map_fst 0 sent]
    rw [List.countP_map, List.countP_map]
    rfl
  rw [← accounts.indexes, listed.length_eq, List.length_map, ← List.countP_eq_length_filter, counted]

end distinct

section delayed
variable {sent received done rest : List Packet} {packet : Packet} {m : Matched}

theorem receive_delayed (accounts : Accounts sent done m) (delayed : Delayed sent (done ++ packet :: rest)) :
    ∃ next, receive m packet = .ok next := by
  unfold receive
  split
  · rename_i index sentAt queue waiting
    obtain ⟨front, -⟩ := queue_front accounts waiting
    have sentPacket : ((sent.filter fun p => p.key = packet.key).map Packet.timeSeconds)[receivedCount done packet.key]?
        = some sentAt := by
      rw [← sentWith_times, List.getElem?_map, front, Option.map_some]
    rw [List.getElem?_map, Option.map_eq_some_iff] at sentPacket
    obtain ⟨s, there, rfl⟩ := sentPacket
    have here : ((done ++ packet :: rest).filter fun p => p.key = packet.key)[receivedCount done packet.key]?
        = some packet := by
      have before : (done.filter fun p => p.key = packet.key).length = receivedCount done packet.key := by
        rw [receivedCount, List.count, List.countP_map, List.countP_eq_length_filter]
        rfl
      rw [List.filter_append, List.getElem?_append_right (le_of_eq before), before, Nat.sub_self,
        List.filter_cons_of_pos (p := fun p : Packet => decide (p.key = packet.key)) (decide_eq_true rfl),
        List.getElem?_cons_zero]
    have late := delayed packet.key _ s packet there here
    dsimp only
    rw [if_neg]
    · exact ⟨_, rfl⟩
    · exact not_lt.2 (mul_nonneg (sub_nonneg.mpr late) (by norm_num))
  · exact ⟨_, rfl⟩

theorem receive_run (accounts : Accounts sent done m) (delayed : Delayed sent (done ++ rest)) :
    ∃ last, rest.foldlM receive m = .ok last := by
  induction rest generalizing done m with
  | nil => exact ⟨m, rfl⟩
  | cons packet rest ih =>
    obtain ⟨next, first⟩ := receive_delayed accounts delayed
    have onward : Delayed sent ((done ++ [packet]) ++ rest) := by
      rwa [List.append_assoc, List.singleton_append]
    obtain ⟨last, later⟩ := ih (accounts_receive accounts first) onward
    exact ⟨last, bind_ok.mpr ⟨next, first, later⟩⟩

end delayed

/-- The counts account for every packet sent and received; and where no key was sent twice, they are
those of the keys lost, of the receptions in excess, and of the packets overtaken. -/
theorem measurePair_accounts (sent received : List Packet) (delayed : Delayed sent received) :
    ∃ counts delays, measurePair sent received = .ok (counts, delays) ∧
      counts.before = sent.length ∧ counts.after = received.length ∧
      counts.matched + counts.duplicates = counts.after ∧ counts.matched + counts.lost = counts.before ∧
      ((sent.map Packet.key).Nodup →
        counts.lost = (sent.map Packet.key).countP (fun key => key ∉ received.map Packet.key) ∧
        counts.duplicates = tally (Spurious sent) received ∧
        counts.reordered = tally (Overtaken sent) received) := by
  obtain ⟨m, ran⟩ := receive_run (accounts_start sent) delayed
  have accounts := accounts_run (accounts_start sent) ran
  refine ⟨_, m.delaysMs, bind_ok.mpr ⟨m, ran, rfl⟩, rfl, rfl, accounts.total,
    Nat.add_sub_cancel' (matched_le accounts), fun distinct => ?_⟩
  have placed := placed_run distinct (accounts_start sent) (placed_start sent) ran
  refine ⟨?_, placed.spurious, placed.overtaken⟩
  have split := List.length_eq_countP_add_countP (fun key => decide (key ∈ received.map Packet.key))
    (l := sent.map Packet.key)
  have matched : m.matched = (sent.map Packet.key).countP fun key => key ∈ received.map Packet.key :=
    matched_eq accounts placed
  rw [List.length_map, ← matched] at split
  simp only [decide_eq_true_eq] at split
  exact Nat.sub_eq_of_eq_add' split

def examplePacket (sequence : Nat) (time : Rat) : Packet := ⟨time, ⟨7, sequence, 160 * sequence, 0, ""⟩⟩

/-- The second of three packets comes first, then the first one twice. -/
def exampleCaptures : List Packet × List Packet :=
  ([examplePacket 1 0, examplePacket 2 0, examplePacket 3 0],
    [examplePacket 2 1, examplePacket 1 1, examplePacket 1 1])

theorem exampleCaptures_accounts : ∃ counts delays,
    measurePair exampleCaptures.1 exampleCaptures.2 = .ok (counts, delays) ∧
      counts.matched + counts.duplicates = 3 ∧ counts.lost = 1 ∧ counts.duplicates = 1 ∧ counts.reordered = 1 := by
  have delayed : Delayed exampleCaptures.1 exampleCaptures.2 := by
    intro key n s r sent received
    have early : ∀ p ∈ exampleCaptures.1, p.timeSeconds = 0 := by decide +kernel
    have late : ∀ p ∈ exampleCaptures.2, p.timeSeconds = 1 := by decide +kernel
    rw [early s (List.mem_of_mem_filter (List.mem_of_getElem? sent)),
      late r (List.mem_of_mem_filter (List.mem_of_getElem? received))]
    exact zero_le_one
  obtain ⟨counts, delays, measured, -, after, all, -, distinct⟩ := measurePair_accounts _ _ delayed
  obtain ⟨lost, duplicates, reordered⟩ := distinct (by decide +kernel)
  refine ⟨counts, delays, measured, all.trans after, lost.trans ?_, duplicates.trans ?_, reordered.trans ?_⟩
  · decide +kernel
  · decide +kernel
  · decide +kernel

end Sippycup.Chaos
