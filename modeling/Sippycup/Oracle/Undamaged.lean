import Sippycup.Oracle.Complete
import Sippycup.Oracle.Keys

/-! Damaged and orphaned signaling of a complete dialog: it is excluded exactly where each
response of the call comes after the request that it answers. -/
namespace Sippycup.Oracle
open Python Pairing

section call
variable (upper : Text → Text) (call : Text)

def FrameRecord.OfCall (frame : FrameRecord) : Prop := frame.sipValue SipRecord.callId = some call

/-- The frame is listed as an orphan in its turn after the frames before it. -/
def Listed (before : List FrameRecord) (frame : FrameRecord) : Prop :=
  (groupFrames upper (before ++ [frame])).orphanFrames ≠ (groupFrames upper before).orphanFrames

/-- The responses on which the completion of a dialog rests. -/
def DialogMessage.concludes (message : DialogMessage) : Bool :=
  !message.isRequest && message.frame.statusCode.any fun status =>
    (message.hasMethod upper "INVITE" && decide (200 ≤ status)) ||
      ((message.hasMethod upper "BYE" || message.hasMethod upper "CANCEL") &&
        decide (200 ≤ status ∧ status < 300))

/-- No frame of the dialog's call is an orphan, of an ambiguous transaction, without a key, or
damaged, and what concludes the dialog answers a captured request. -/
structure Undamaged (frames : List FrameRecord) (leg : DialogLeg) : Prop where
  orphan : ∀ before frame after, FrameRecord.inOrder frames = before ++ frame :: after →
    frame.OfCall leg.callId → ¬ Listed upper before frame
  ambiguous : ∀ transaction ∈ (reconstructTransactions upper frames).1,
    transaction.key.callId = leg.callId → transaction.ambiguity = .known false
  keyed : ∀ frame ∈ frames, frame.OfCall leg.callId →
    (frame.baseKey upper).isSome = true ∧ frame.flow.isSome = true
  status : ∀ frame ∈ frames, frame.OfCall leg.callId → frame.status = .known .complete
  answers : ∀ m ∈ leg.messages (reconstructTransactions upper frames).1, m.concludes upper = true →
    m.transaction.request.isSome = true

/-- The ends of every frame of the call are known, and each of its responses comes after a request
with its key that travelled the other way. -/
def Answered (frames : List FrameRecord) : Prop :=
  ∀ before frame after, FrameRecord.inOrder frames = before ++ frame :: after → frame.OfCall call →
    frame.flow.isSome = true ∧ (frame.requestMethod upper = none → ∃ request ∈ before,
      ∃ base flow, frame.Travels upper base flow ∧
        request.message upper = some ⟨⟨base, flow.reverse⟩, true⟩)

end call

section grouping
variable {upper : Text → Text} {call : Text} {before : List FrameRecord} {frame : FrameRecord}
  {base : BaseKey} {flow : FlowKey} {grouping : Grouping}

theorem FrameRecord.Travels.callId (travels : frame.Travels upper base flow) : frame.OfCall base.callId := by
  have keyed := travels.1
  unfold FrameRecord.baseKey at keyed
  simp only [Option.bind_eq_bind, Option.bind_eq_some_iff, Option.pure_def, Option.some.injEq] at keyed
  obtain ⟨callId, known, _, _, _, _, _, _, rfl⟩ := keyed
  exact known

theorem FrameRecord.Travels.sip (travels : frame.Travels upper base flow) : ¬ frame.sip.isNone = true := by
  intro absent
  have known := travels.callId
  rw [FrameRecord.OfCall, FrameRecord.sipValue, Option.isNone_iff_eq_none.mp absent] at known
  cases known

/-- A frame with a key goes to the requests or to the responses. -/
theorem Grouping.add_travels (travels : frame.Travels upper base flow) : grouping.add upper frame =
    if (frame.requestMethod upper).isSome = true then grouping.addRequest frame ⟨base, flow⟩
      else grouping.addResponse frame ⟨base, flow⟩ := by
  unfold Grouping.add
  rw [if_neg travels.sip, travels.1, travels.2]

theorem Grouping.addRequest_orphans (grouping : Grouping) (frame : FrameRecord) (key : TransactionKey) :
    (grouping.addRequest frame key).orphanFrames = grouping.orphanFrames := by
  unfold Grouping.addRequest
  split <;> rfl

/-- A response is not listed exactly if one builder waits for it. -/
theorem Grouping.addResponse_orphans (grouping : Grouping) (frame : FrameRecord) (key : TransactionKey) :
    (grouping.addResponse frame key).orphanFrames = grouping.orphanFrames ↔
      ∃ builder, grouping.builders.filter (TransactionBuilder.serves key.reverse) = [builder] := by
  unfold Grouping.addResponse
  split
  · rename_i none
    simp [Grouping.orphan, Grouping.append, none]
  · rename_i builder one
    simp [Grouping.amend, one]
  · rename_i none one
    constructor
    · intro same
      simp [Grouping.orphan] at same
    · rintro ⟨builder, single⟩
      exact absurd single (one builder)

/-- The builders of a call all have their requests, one for each key, and none is in doubt. -/
structure Grouping.Sound (grouping : Grouping) (call : Text) : Prop where
  requested : ∀ b ∈ grouping.builders, b.key.callId = call → b.request.isSome = true
  clear : ∀ b ∈ grouping.builders, b.key.callId = call → b.ambiguous = false
  distinct : ((grouping.builders.filter fun b => decide (b.key.callId = call)).map TransactionBuilder.key).Nodup

/-- The builders that a key serves, among those of its call. -/
theorem filter_serves (key : TransactionKey) (builders : List TransactionBuilder) :
    builders.filter (TransactionBuilder.serves key) =
      (builders.filter fun b => decide (b.key.callId = key.callId)).filter (TransactionBuilder.serves key) := by
  rw [List.filter_filter]
  refine List.filter_congr fun b _ => ?_
  by_cases same : b.key = key
  · simp [TransactionBuilder.serves, same]
  · simp [TransactionBuilder.serves, same]

/-- With distinct keys at most one builder serves a key. -/
theorem serves_single {builders : List TransactionBuilder} {key : TransactionKey} {b : TransactionBuilder}
    (distinct : (builders.map TransactionBuilder.key).Nodup) (member : b ∈ builders) (serves : b.key = key) :
    builders.filter (TransactionBuilder.serves key) = [b] := by
  induction builders with
  | nil => cases member
  | cons first rest ih =>
    rw [List.map_cons, List.nodup_cons] at distinct
    have others (same : first.key = key) : rest.filter (TransactionBuilder.serves key) = [] := by
      refine List.filter_eq_nil_iff.mpr fun other inside served => distinct.1 ?_
      rw [same, ← of_decide_eq_true served]
      exact List.mem_map_of_mem inside
    rcases List.mem_cons.mp member with rfl | later
    · have served : TransactionBuilder.serves key b = true := decide_eq_true serves
      rw [List.filter_cons_of_pos served, others serves]
    · have other : ¬ first.key = key := by
        intro same
        refine distinct.1 ?_
        rw [same, ← serves]
        exact List.mem_map_of_mem later
      rw [List.filter_cons_of_neg (by simpa [TransactionBuilder.serves] using other)]
      exact ih distinct.2 later

theorem Grouping.Sound.single (sound : grouping.Sound call) {key : TransactionKey} {b : TransactionBuilder}
    (ours : key.callId = call) (member : b ∈ grouping.builders) (serves : b.key = key) :
    grouping.builders.filter (TransactionBuilder.serves key) = [b] := by
  rw [filter_serves, ours]
  refine serves_single sound.distinct ?_ serves
  exact List.mem_filter.mpr ⟨member, by simp [serves, ours]⟩

/-- What changes no key, request or doubt keeps the call's builders sound. -/
theorem Grouping.Sound.amend (sound : grouping.Sound call) {p : TransactionBuilder → Bool}
    {change : TransactionBuilder → TransactionBuilder} (key : ∀ b, (change b).key = b.key)
    (request : ∀ b, (change b).request = b.request) (ambiguous : ∀ b, (change b).ambiguous = b.ambiguous) :
    (grouping.amend p change).Sound call := by
  refine ⟨fun b member ours => ?_, fun b member ours => ?_, ?_⟩
  · rcases mem_amendFirst member with old | ⟨old, inside, -, rfl⟩
    · exact sound.requested b old ours
    · rw [request]
      exact sound.requested old inside (key old ▸ ours)
  · rcases mem_amendFirst member with old | ⟨old, inside, -, rfl⟩
    · exact sound.clear b old ours
    · rw [ambiguous]
      exact sound.clear old inside (key old ▸ ours)
  · have distinct := sound.distinct
    rw [← List.filterMap_eq_filter, List.map_filterMap] at distinct ⊢
    have same : (grouping.amend p change).builders.filterMap
        (fun b => (Option.guard (fun b => decide (b.key.callId = call)) b).map TransactionBuilder.key) =
          grouping.builders.filterMap
            fun b => (Option.guard (fun b => decide (b.key.callId = call)) b).map TransactionBuilder.key := by
      refine filterMap_amendFirst fun b _ _ => ?_
      simp only [Option.guard, key]
      split <;> simp [key]
    rw [same]
    exact distinct

/-- A builder of another call, or a new request of this one. -/
theorem Grouping.Sound.append (sound : grouping.Sound call) {new : TransactionBuilder}
    (opened : new.key.callId = call → new.request.isSome = true ∧ new.ambiguous = false ∧
      ∀ b ∈ grouping.builders, b.key ≠ new.key) : (grouping.append new).Sound call := by
  refine ⟨fun b member ours => ?_, fun b member ours => ?_, ?_⟩
  · rcases List.mem_append.mp member with old | last
    · exact sound.requested b old ours
    · rw [List.mem_singleton.mp last] at ours ⊢
      exact (opened ours).1
  · rcases List.mem_append.mp member with old | last
    · exact sound.clear b old ours
    · rw [List.mem_singleton.mp last] at ours ⊢
      exact (opened ours).2.1
  · change (((grouping.builders ++ [new]).filter _).map _).Nodup
    rw [List.filter_append, List.map_append]
    by_cases ours : new.key.callId = call
    · rw [List.filter_cons_of_pos (by simpa using ours), List.filter_nil]
      refine List.nodup_append.mpr ⟨sound.distinct, List.nodup_singleton _, ?_⟩
      intro key member other last same
      obtain ⟨b, inside, rfl⟩ := List.mem_map.mp member
      rw [List.map_singleton, List.mem_singleton] at last
      exact (opened ours).2.2 b (List.mem_filter.mp inside).1 (same.trans last)
    · rw [List.filter_cons_of_neg (by simpa using ours), List.filter_nil, List.map_nil, List.append_nil]
      exact sound.distinct

theorem Grouping.Sound.doubt (sound : grouping.Sound call) {key : TransactionKey} (other : key.callId ≠ call) :
    ({ grouping with builders := grouping.builders.map (TransactionBuilder.doubt key) } : Grouping).Sound call := by
  have kept (b : TransactionBuilder) : (b.doubt key).key = b.key ∧ (b.doubt key).request = b.request := by
    unfold TransactionBuilder.doubt
    split <;> exact ⟨rfl, rfl⟩
  refine ⟨fun b member ours => ?_, fun b member ours => ?_, ?_⟩
  · obtain ⟨old, inside, rfl⟩ := List.mem_map.mp member
    rw [(kept old).2]
    exact sound.requested old inside ((kept old).1 ▸ ours)
  · obtain ⟨old, inside, rfl⟩ := List.mem_map.mp member
    rw [(kept old).1] at ours
    have unserved : ¬ old.serves key = true := fun serves => other (of_decide_eq_true serves ▸ ours)
    rw [TransactionBuilder.doubt, if_neg unserved]
    exact sound.clear old inside ours
  · have same : ((grouping.builders.map (TransactionBuilder.doubt key)).filter
        fun b => decide (b.key.callId = call)).map TransactionBuilder.key =
          (grouping.builders.filter fun b => decide (b.key.callId = call)).map TransactionBuilder.key := by
      rw [List.filter_map, List.map_map]
      have each (b : TransactionBuilder) : (TransactionBuilder.key ∘ TransactionBuilder.doubt key) b = b.key :=
        (kept b).1
      rw [List.map_congr_left fun b _ => each b]
      congr 1
      refine List.filter_congr fun b _ => ?_
      rw [Function.comp_apply, (kept b).1]
    rw [same]
    exact sound.distinct

theorem Grouping.Sound.addRequest (sound : grouping.Sound call) (frame : FrameRecord) (key : TransactionKey) :
    (grouping.addRequest frame key).Sound call := by
  unfold Grouping.addRequest
  split
  · exact sound.amend (fun _ => rfl) (fun _ => rfl) fun _ => rfl
  · rename_i none
    refine sound.append fun ours => ⟨rfl, rfl, fun b member same => none ?_⟩
    refine List.any_eq_true.mpr ⟨b, member, ?_⟩
    have ours : b.key.callId = call := same ▸ ours
    rw [TransactionBuilder.requested, TransactionBuilder.serves, sound.requested b member ours, Bool.and_true]
    exact decide_eq_true same

theorem Grouping.Sound.answer (sound : grouping.Sound call) (frame : FrameRecord) (key : TransactionKey) :
    (grouping.amend (TransactionBuilder.serves key) (TransactionBuilder.answer frame)).Sound call := by
  have kept (b : TransactionBuilder) : (b.answer frame).key = b.key ∧ (b.answer frame).request = b.request ∧
      (b.answer frame).ambiguous = b.ambiguous := by
    unfold TransactionBuilder.answer
    split <;> exact ⟨rfl, rfl, rfl⟩
  exact sound.amend (fun b => (kept b).1) (fun b => (kept b).2.1) fun b => (kept b).2.2

/-- A response of the call must not be listed; one of another call cannot matter. -/
theorem Grouping.Sound.addResponse (sound : grouping.Sound call) {frame : FrameRecord} {key : TransactionKey}
    (kept : key.callId = call →
      (grouping.addResponse frame key).orphanFrames = grouping.orphanFrames) :
    (grouping.addResponse frame key).Sound call := by
  by_cases ours : key.callId = call
  · obtain ⟨builder, one⟩ := (Grouping.addResponse_orphans grouping frame key).mp (kept ours)
    unfold Grouping.addResponse
    rw [one]
    exact sound.answer frame _
  · unfold Grouping.addResponse
    split
    · have orphaned : (grouping.orphan frame).Sound call := ⟨sound.requested, sound.clear, sound.distinct⟩
      exact orphaned.append fun same => absurd same ours
    · exact sound.answer frame _
    · have orphaned : (grouping.orphan frame).Sound call := ⟨sound.requested, sound.clear, sound.distinct⟩
      exact orphaned.doubt ours

/-- A frame that is not listed, or not of the call, keeps the call's builders sound. -/
theorem Grouping.Sound.add (sound : grouping.Sound call)
    (kept : frame.OfCall call → (grouping.add upper frame).orphanFrames = grouping.orphanFrames) :
    (grouping.add upper frame).Sound call := by
  unfold Grouping.add at kept ⊢
  split
  · exact sound
  · rename_i sip
    rw [if_neg sip] at kept
    split
    · rename_i base flow keyed flows
      rw [keyed, flows] at kept
      have travels : frame.Travels upper base flow := ⟨keyed, flows⟩
      dsimp only at kept
      split
      · exact sound.addRequest frame _
      · rename_i response
        rw [if_neg response] at kept
        exact sound.addResponse fun same => kept (same ▸ travels.callId)
    · exact ⟨sound.requested, sound.clear, sound.distinct⟩

end grouping

section runs
variable {upper : Text → Text} {call : Text} {frames before : List FrameRecord} {frame : FrameRecord}

theorem groupFrames_sound (frames : List FrameRecord)
    (kept : ∀ before frame after, frames = before ++ frame :: after → frame.OfCall call → ¬ Listed upper before frame) :
    (groupFrames upper frames).Sound call := by
  induction frames using List.reverseRecOn with
  | nil => exact ⟨fun b member => absurd member List.not_mem_nil, fun b member => absurd member List.not_mem_nil, .nil⟩
  | append_singleton frames frame ih =>
    have sound := ih fun before inner after split => kept before inner (after ++ [frame]) (by rw [split]; simp)
    rw [groupFrames_append]
    refine sound.add fun ours => ?_
    have same := kept frames frame [] rfl ours
    rw [Listed, groupFrames_append, not_not] at same
    exact same

theorem mem_messages {key : TransactionKey} {request : Bool} :
    ⟨key, request⟩ ∈ before.filterMap (FrameRecord.message upper) ↔
      ∃ frame ∈ before, frame.message upper = some ⟨key, request⟩ := List.mem_filterMap

/-- A request opens a builder of its key. -/
theorem request_builder {key : TransactionKey} :
    (∃ request ∈ before, request.message upper = some ⟨key, true⟩) ↔
      ∃ b ∈ (groupFrames upper before).builders, b.key = key ∧ b.request.isSome = true := by
  rw [← mem_messages]
  constructor
  · intro member
    have opened : _ ∈ openers TransactionKey.reverse _ := request_opener member
    rw [← groupFrames_openers] at opened
    obtain ⟨b, inside, same⟩ := List.mem_map.mp opened
    rw [TransactionBuilder.opener, Message.mk.injEq] at same
    exact ⟨b, inside, same⟩
  · rintro ⟨b, inside, rfl, requested⟩
    have opened : b.opener ∈ (groupFrames upper before).openers := List.mem_map_of_mem inside
    rw [groupFrames_openers, TransactionBuilder.opener, requested] at opened
    exact opener_mem opened

/-- Responses that come after their requests are never listed. -/
theorem unlisted (frames : List FrameRecord)
    (answered : ∀ before frame after, frames = before ++ frame :: after → frame.OfCall call →
      ∃ base flow, frame.Travels upper base flow ∧ (frame.requestMethod upper = none →
        ∃ request ∈ before, request.message upper = some ⟨⟨base, flow.reverse⟩, true⟩)) :
    ∀ before frame after, frames = before ++ frame :: after → frame.OfCall call → ¬ Listed upper before frame := by
  induction frames using List.reverseRecOn with
  | nil =>
    intro before frame after split
    simp at split
  | append_singleton frames last ih =>
    have earlier := ih fun before inner after split => answered before inner (after ++ [last]) (by rw [split]; simp)
    have sound := groupFrames_sound frames earlier
    intro before frame after split ours
    rcases List.eq_nil_or_concat after with rfl | ⟨middle, final, rfl⟩
    · obtain ⟨rfl, same⟩ := List.append_inj' split rfl
      cases same
      obtain ⟨base, flow, travels, request⟩ := answered frames last [] rfl ours
      have call_ : base.callId = call := Option.some.inj (travels.callId.symm.trans ours)
      rw [Listed, groupFrames_append, not_not, Grouping.add_travels travels]
      by_cases method : (last.requestMethod upper).isSome = true
      · rw [if_pos method]
        exact Grouping.addRequest_orphans _ _ _
      · rw [if_neg method]
        rw [Option.not_isSome_iff_eq_none] at method
        obtain ⟨b, inside, key, -⟩ := request_builder.1 (request method)
        exact (Grouping.addResponse_orphans _ _ _).mpr ⟨b, sound.single call_ inside key⟩
    · rw [List.concat_eq_append, ← List.cons_append, ← List.append_assoc] at split
      obtain ⟨rfl, -⟩ := List.append_inj' split rfl
      exact earlier before frame middle rfl ours

/-- A response that is not listed comes after its request. -/
theorem answered_of_unlisted {base : BaseKey} {flow : FlowKey} (sound : (groupFrames upper before).Sound base.callId)
    (travels : frame.Travels upper base flow) (response : frame.requestMethod upper = none)
    (unlisted : ¬ Listed upper before frame) :
    ∃ request ∈ before, request.message upper = some ⟨⟨base, flow.reverse⟩, true⟩ := by
  rw [Listed, groupFrames_append, not_not, Grouping.add_travels travels, response, if_neg (by simp)] at unlisted
  obtain ⟨b, one⟩ := (Grouping.addResponse_orphans _ _ _).mp unlisted
  have among : b ∈ (groupFrames upper before).builders.filter
      (TransactionBuilder.serves (TransactionKey.reverse ⟨base, flow⟩)) := by
    rw [one]
    exact List.mem_singleton_self b
  obtain ⟨inside, served⟩ := List.mem_filter.mp among
  have key : b.key = ⟨base, flow.reverse⟩ := of_decide_eq_true served
  refine request_builder.2 ⟨b, inside, key, sound.requested b inside ?_⟩
  rw [key]

end runs

section dialogs
variable {upper : Text → Text} {frames : List FrameRecord} {leg : DialogLeg}

/-- A complete dialog's frames were captured whole and have their keys. -/
theorem complete_certain {transactions : List TransactionRecord}
    (complete : (leg.dialog upper transactions frames).complete = .known true) {frame : FrameRecord}
    (member : frame ∈ frames) (ours : frame.OfCall leg.callId) :
    frame.status = .known .complete ∧ ∃ base, frame.baseKey upper = some base := by
  have certain := (DialogLeg.complete_iff frames).mp complete |>.2
  unfold DialogLeg.structurallyUncertain at certain
  rw [Bool.or_eq_false_iff, List.any_eq_false] at certain
  have whole := certain.1 frame member
  have sip : frame.sip.isSome = true := by
    cases present : frame.sip with
    | some sip => rfl
    | none =>
      rw [FrameRecord.OfCall, FrameRecord.sipValue, present] at ours
      cases ours
  have call_ : frame.sipValue SipRecord.callId = some leg.callId := ours
  have same : decide (some leg.callId = some leg.callId) = true := decide_eq_true rfl
  rw [sip, call_, same, Bool.true_or, Bool.true_or, Bool.true_and, Bool.true_and, Bool.not_eq_true,
    Bool.or_eq_false_iff, decide_eq_false_iff_not, not_not] at whole
  obtain ⟨status, keyed⟩ := whole
  cases base : frame.baseKey upper with
  | some key => exact ⟨status, key, rfl⟩
  | none =>
    rw [base] at keyed
    cases keyed

/-- The builder behind a message of the dialog belongs to its call. -/
theorem message_builder {m : DialogMessage} (member : m ∈ leg.messages (reconstructTransactions upper frames).1) :
    ∃ b ∈ (groupFrames upper (FrameRecord.inOrder frames)).builders, m.transaction = b.record ∧
      b.key.callId = leg.callId := by
  have sorted := (List.perm_insertionSort _ _).mem_iff.mp member
  obtain ⟨transaction, among, selected⟩ := List.mem_flatMap.mp sorted
  obtain ⟨b, inside, rfl⟩ := List.mem_map.mp among
  have shape := (groupFrames_accounts upper (FrameRecord.inOrder frames)).wellFormed b inside
  obtain ⟨listed, belongs⟩ := List.mem_filter.mp selected
  have ours : m.frame.OfCall leg.callId := by
    unfold frameBelongs at belongs
    split at belongs
    · cases belongs
    · rename_i same
      exact not_not.mp same
  have same {base : BaseKey} {flow : FlowKey} (travels : m.frame.Travels upper base flow) :
      base.callId = leg.callId := Option.some.inj (travels.callId.symm.trans ours)
  rcases List.mem_append.mp listed with request | response
  · obtain ⟨frame, requested, rfl⟩ := List.mem_map.mp request
    exact ⟨b, inside, rfl, same (shape.request frame (Option.mem_toList.mp requested))⟩
  · obtain ⟨frame, responded, rfl⟩ := List.mem_map.mp response
    rcases TransactionRecord.response_attached responded with attached | own
    · exact ⟨b, inside, rfl, same (shape.attached frame attached)⟩
    · exact ⟨b, inside, rfl, same (shape.own frame own)⟩

theorem undamaged_of_answered (complete : (leg.dialog upper (reconstructTransactions upper frames).1 frames).complete =
    .known true) (answered : Answered upper leg.callId frames) : Undamaged upper frames leg := by
  have keyed {frame : FrameRecord} (member : frame ∈ frames) (ours : frame.OfCall leg.callId) :=
    complete_certain complete member ours
  have known {before after : List FrameRecord} {frame : FrameRecord}
      (split : FrameRecord.inOrder frames = before ++ frame :: after) : frame ∈ frames :=
    (FrameRecord.inOrder_perm frames).mem_iff.mp (by rw [split]; simp)
  have kept : ∀ before frame after, FrameRecord.inOrder frames = before ++ frame :: after →
      frame.OfCall leg.callId → ¬ Listed upper before frame := by
    refine unlisted _ fun before frame after split ours => ?_
    obtain ⟨base, baseKnown⟩ := (keyed (known split) ours).2
    obtain ⟨flowKnown, request⟩ := answered before frame after split ours
    obtain ⟨flow, flowKnown⟩ := Option.isSome_iff_exists.mp flowKnown
    refine ⟨base, flow, ⟨baseKnown, flowKnown⟩, fun response => ?_⟩
    obtain ⟨g, member, base', flow', travels, message⟩ := request response
    cases baseKnown.symm.trans travels.1
    cases flowKnown.symm.trans travels.2
    exact ⟨g, member, message⟩
  have sound := groupFrames_sound _ kept
  refine ⟨kept, ?_, fun frame member ours => ?_, fun frame member ours => (keyed member ours).1, ?_⟩
  · intro transaction member ours
    obtain ⟨b, inside, rfl⟩ := List.mem_map.mp member
    exact if_neg (by simp [sound.clear b inside ours])
  · obtain ⟨base, baseKnown⟩ := (keyed member ours).2
    obtain ⟨before, after, split⟩ := List.append_of_mem ((FrameRecord.inOrder_perm frames).mem_iff.mpr member)
    exact ⟨by rw [baseKnown]; rfl, (answered before frame after split ours).1⟩
  · intro m member _
    obtain ⟨b, inside, same, ours⟩ := message_builder member
    rw [same]
    exact sound.requested b inside ours

theorem answered_of_undamaged (undamaged : Undamaged upper frames leg) : Answered upper leg.callId frames := by
  intro before frame after split ours
  have member : frame ∈ frames := (FrameRecord.inOrder_perm frames).mem_iff.mp (by rw [split]; simp)
  obtain ⟨baseKnown, flowKnown⟩ := undamaged.keyed frame member ours
  refine ⟨flowKnown, fun response => ?_⟩
  obtain ⟨base, baseKnown⟩ := Option.isSome_iff_exists.mp baseKnown
  obtain ⟨flow, flowKnown⟩ := Option.isSome_iff_exists.mp flowKnown
  have travels : frame.Travels upper base flow := ⟨baseKnown, flowKnown⟩
  have call_ : base.callId = leg.callId := Option.some.inj (travels.callId.symm.trans ours)
  have sound : (groupFrames upper before).Sound base.callId := by
    rw [call_]
    refine groupFrames_sound before fun first inner rest inside => ?_
    exact undamaged.orphan first inner (rest ++ frame :: after) (by rw [split, inside]; simp)
  obtain ⟨request, earlier, message⟩ :=
    answered_of_unlisted sound travels response (undamaged.orphan before frame after split ours)
  exact ⟨request, earlier, base, flow, travels, message⟩

/-- A complete dialog is free of damaged and orphaned signaling exactly if the ends of its call's
frames are known and each response of the call comes after its request. -/
theorem complete_undamaged_iff (upper : Text → Text) (frames : List FrameRecord) :
    let transactions := (reconstructTransactions upper frames).1
    (reconstructDialogs upper frames).dialogs.Perm
        ((legs upper transactions).map fun leg => leg.dialog upper transactions frames) ∧
      ∀ leg ∈ legs upper transactions, (leg.dialog upper transactions frames).complete = .known true →
        (Undamaged upper frames leg ↔ Answered upper leg.callId frames) := by
  intro transactions
  refine ⟨List.perm_insertionSort _ _, fun leg _ complete => ?_⟩
  exact ⟨answered_of_undamaged, undamaged_of_answered complete⟩

end dialogs

/-- A call that is accepted and acknowledged, with a 200 to a BYE that was never seen. -/
def unseenBye : List FrameRecord :=
  [FrameRecord.request 1 "a" "b" "INVITE" 1, FrameRecord.response 2 "b" "a" "INVITE" 1 200,
    FrameRecord.request 3 "a" "b" "ACK" 1, FrameRecord.response 4 "b" "a" "BYE" 2 200]

theorem unseen_bye_completes : ¬ ∀ (upper : Text → Text) (frames : List FrameRecord),
    ∀ leg ∈ legs upper (reconstructTransactions upper frames).1,
      (leg.dialog upper (reconstructTransactions upper frames).1 frames).complete = .known true →
        Undamaged upper frames leg := by
  intro all
  have complete : ∃ leg ∈ legs id (reconstructTransactions id unseenBye).1,
      (leg.dialog id (reconstructTransactions id unseenBye).1 unseenBye).complete = .known true ∧
        leg.callId = "call" := by
    decide +kernel
  obtain ⟨leg, member, complete, call_⟩ := complete
  have undamaged := all id unseenBye leg member complete
  refine undamaged.orphan (unseenBye.take 3) (FrameRecord.response 4 "b" "a" "BYE" 2 200) [] (by decide +kernel) ?_ ?_
  · rw [call_]
    rfl
  · rw [Listed]
    decide +kernel

end Sippycup.Oracle
