import Mathlib.Data.List.Perm.Basic
import Sippycup.Oracle.Records

/-! Every SIP frame is accounted for once: as a request, as a response to one,
as a retransmission, or as an orphan. -/
namespace Sippycup.Oracle
open Python

section amend
variable {α β : Type} {p : α → Bool} {change : α → α} {items : List α}

theorem mem_amendFirst {item : α} (member : item ∈ amendFirst p change items) :
    item ∈ items ∨ ∃ old ∈ items, p old = true ∧ item = change old := by
  induction items with
  | nil => exact absurd member (List.not_mem_nil)
  | cons first rest ih =>
    rw [amendFirst] at member
    split at member
    · rename_i chosen
      rcases List.mem_cons.mp member with rfl | later
      · exact .inr ⟨first, by simp, chosen, rfl⟩
      · exact .inl (List.mem_cons_of_mem _ later)
    · rcases List.mem_cons.mp member with rfl | later
      · exact .inl (by simp)
      · rcases ih later with same | ⟨old, inside, chosen, changed⟩
        · exact .inl (List.mem_cons_of_mem _ same)
        · exact .inr ⟨old, List.mem_cons_of_mem _ inside, chosen, changed⟩

theorem filterMap_amendFirst {f : α → Option β}
    (kept : ∀ item ∈ items, p item = true → f (change item) = f item) :
    (amendFirst p change items).filterMap f = items.filterMap f := by
  induction items with
  | nil => rfl
  | cons first rest ih =>
    rw [amendFirst]
    split
    · rename_i chosen
      rw [List.filterMap_cons, List.filterMap_cons, kept first (by simp) chosen]
    · rw [List.filterMap_cons, List.filterMap_cons,
        ih fun item inside => kept item (List.mem_cons_of_mem _ inside)]

/-- What the amended element gains, the whole list gains. -/
theorem flatMap_amendFirst_perm {f : α → List β} {gained : List β} (found : items.any p = true)
    (gains : ∀ item ∈ items, p item = true → (f (change item)).Perm (f item ++ gained)) :
    ((amendFirst p change items).flatMap f).Perm (items.flatMap f ++ gained) := by
  induction items with
  | nil => exact absurd found (by simp)
  | cons first rest ih =>
    rw [amendFirst]
    split
    · rename_i chosen
      rw [List.flatMap_cons, List.flatMap_cons, List.append_assoc]
      refine ((gains first (by simp) chosen).append_right _).trans ?_
      rw [List.append_assoc]
      exact List.perm_append_comm.append_left _
    · rename_i skipped
      have later : rest.any p = true := by
        rw [List.any_cons, Bool.or_eq_true] at found
        exact found.resolve_left skipped
      rw [List.flatMap_cons, List.flatMap_cons, List.append_assoc]
      exact (ih later fun item inside => gains item (List.mem_cons_of_mem _ inside)).append_left _

end amend

namespace TransactionRecord

/-- The responses that came after the transaction was opened. -/
def attached (transaction : TransactionRecord) : List FrameRecord :=
  if transaction.request.isSome then transaction.responses else transaction.responses.tail

/-- The response that opened a transaction without a request. -/
def placeholder (transaction : TransactionRecord) : Option FrameRecord :=
  if transaction.request.isSome then none else transaction.responses.head?

/-- The evidence of the frames that the transaction accounts for; a placeholder's own response
is accounted for as an orphan. -/
def accounted (transaction : TransactionRecord) : List EvidenceRef :=
  (transaction.request.toList ++ transaction.attached).map FrameRecord.evidence ++
    transaction.retransmissions

end TransactionRecord

section invariant
variable (upper : Text → Text)

/-- A frame with the key, in the direction given. -/
def FrameRecord.Travels (frame : FrameRecord) (base : BaseKey) (flow : FlowKey) : Prop :=
  frame.baseKey upper = some base ∧ frame.flow = some flow

structure TransactionBuilder.WellFormed (builder : TransactionBuilder) : Prop where
  request : ∀ frame ∈ builder.request, frame.Travels upper builder.key.toBaseKey builder.key.flow
  placeholder : builder.request = none → builder.responses ≠ []
  own : ∀ frame ∈ builder.record.placeholder,
    frame.Travels upper builder.key.toBaseKey builder.key.flow
  attached : ∀ frame ∈ builder.record.attached,
    frame.Travels upper builder.key.toBaseKey builder.key.flow.reverse

/-- What the grouping of `frames` accounts for. -/
structure Grouping.Accounts (frames : List FrameRecord) (grouping : Grouping) : Prop where
  conserved : (grouping.builders.flatMap (fun b => b.record.accounted) ++
    grouping.orphanFrames).Perm
      ((frames.filter fun frame => frame.sip.isSome).map FrameRecord.evidence)
  placeholders : ((grouping.builders.filterMap fun b => b.record.placeholder).map
    FrameRecord.evidence).Sublist grouping.orphanFrames
  wellFormed : ∀ b ∈ grouping.builders, b.WellFormed upper

theorem TransactionBuilder.attached_append {builder : TransactionBuilder} {frame : FrameRecord}
    (placeholder : builder.request = none → builder.responses ≠ []) :
    ({ builder with responses := builder.responses ++ [frame] } : TransactionBuilder).record.attached =
      builder.record.attached ++ [frame] := by
  cases requested : builder.request with
  | some request => simp [TransactionBuilder.record, TransactionRecord.attached, requested]
  | none =>
    simp only [TransactionBuilder.record, TransactionRecord.attached, requested, Option.isSome_none,
      Bool.false_eq_true, if_false]
    exact List.tail_append_of_ne_nil (placeholder requested)

theorem TransactionBuilder.placeholder_append {builder : TransactionBuilder} {frame : FrameRecord}
    (placeholder : builder.request = none → builder.responses ≠ []) :
    ({ builder with responses := builder.responses ++ [frame] } : TransactionBuilder).record.placeholder =
      builder.record.placeholder := by
  cases requested : builder.request with
  | some request => simp [TransactionBuilder.record, TransactionRecord.placeholder, requested]
  | none =>
    simp only [TransactionBuilder.record, TransactionRecord.placeholder, requested,
      Option.isSome_none, Bool.false_eq_true, if_false]
    exact List.head?_append_of_ne_nil _ (placeholder requested)

variable {upper} {frames : List FrameRecord} {grouping : Grouping} {frame : FrameRecord}

theorem sip_evidence_append (sip : frame.sip.isSome = true) :
    ((frames ++ [frame]).filter fun frame => frame.sip.isSome).map FrameRecord.evidence =
      (frames.filter fun frame => frame.sip.isSome).map FrameRecord.evidence ++
        [frame.evidence] := by
  rw [List.filter_append, List.map_append, List.filter_singleton, sip, cond_true,
    List.map_singleton]

namespace Grouping.Accounts

theorem orphan (accounts : grouping.Accounts upper frames) (sip : frame.sip.isSome = true) :
    (grouping.orphan frame).Accounts upper (frames ++ [frame]) := by
  refine ⟨?_, ?_, accounts.wellFormed⟩
  · rw [sip_evidence_append sip, Grouping.orphan, ← List.append_assoc]
    exact accounts.conserved.append_right _
  · exact accounts.placeholders.trans (List.sublist_append_left _ _)

/-- A change to one builder that accounts for the frame. -/
theorem amend (accounts : grouping.Accounts upper frames) (sip : frame.sip.isSome = true)
    {p : TransactionBuilder → Bool} {change : TransactionBuilder → TransactionBuilder}
    (found : grouping.builders.any p = true)
    (gains : ∀ b ∈ grouping.builders, p b = true →
      ((change b).record.accounted).Perm (b.record.accounted ++ [frame.evidence]))
    (kept : ∀ b ∈ grouping.builders, p b = true →
      (change b).record.placeholder = b.record.placeholder)
    (wellFormed : ∀ b ∈ grouping.builders, p b = true → (change b).WellFormed upper) :
    (grouping.amend p change).Accounts upper (frames ++ [frame]) := by
  refine ⟨?_, ?_, ?_⟩
  · rw [sip_evidence_append sip, Grouping.amend]
    have gained := flatMap_amendFirst_perm (f := fun b => b.record.accounted) found gains
    refine (gained.append_right _).trans ?_
    rw [List.append_assoc]
    refine (List.perm_append_comm.append_left _).trans ?_
    rw [← List.append_assoc]
    exact accounts.conserved.append_right _
  · have same : (amendFirst p change grouping.builders).filterMap
        (fun b => b.record.placeholder) =
          grouping.builders.filterMap (fun b => b.record.placeholder) :=
      filterMap_amendFirst kept
    rw [Grouping.amend, same]
    exact accounts.placeholders
  · intro b member
    rcases mem_amendFirst member with old | ⟨old, inside, chosen, rfl⟩
    · exact accounts.wellFormed b old
    · exact wellFormed old inside chosen

theorem retransmit (accounts : grouping.Accounts upper frames) (sip : frame.sip.isSome = true)
    {p : TransactionBuilder → Bool} (found : grouping.builders.any p = true) :
    (grouping.amend p (TransactionBuilder.retransmit frame)).Accounts upper (frames ++ [frame]) := by
  refine accounts.amend sip found ?_ ?_ ?_
  · intro b _ _
    rw [TransactionRecord.accounted, TransactionRecord.accounted, List.append_assoc]
    exact List.Perm.refl _
  · intro b _ _
    rfl
  · intro b member _
    have wellFormed := accounts.wellFormed b member
    exact ⟨wellFormed.request, wellFormed.placeholder, wellFormed.own, wellFormed.attached⟩

theorem answer (accounts : grouping.Accounts upper frames) (sip : frame.sip.isSome = true)
    {key : TransactionKey} (travels : frame.Travels upper key.toBaseKey key.flow.reverse)
    (found : grouping.builders.any (TransactionBuilder.serves key) = true) :
    (grouping.amend (TransactionBuilder.serves key)
      (TransactionBuilder.answer frame)).Accounts upper (frames ++ [frame]) := by
  refine accounts.amend sip found ?_ ?_ ?_
  · intro b member _
    unfold TransactionBuilder.answer
    split
    · rw [TransactionRecord.accounted, TransactionRecord.accounted, List.append_assoc]
      exact List.Perm.refl _
    · rw [TransactionRecord.accounted, TransactionRecord.accounted,
        TransactionBuilder.attached_append (accounts.wellFormed b member).placeholder,
        ← List.append_assoc, List.map_append, List.append_assoc, List.append_assoc]
      exact List.perm_append_comm.append_left _
  · intro b member _
    unfold TransactionBuilder.answer
    split
    · rfl
    · exact TransactionBuilder.placeholder_append (accounts.wellFormed b member).placeholder
  · intro b member serves
    have wellFormed := accounts.wellFormed b member
    unfold TransactionBuilder.answer
    split
    · exact ⟨wellFormed.request, wellFormed.placeholder, wellFormed.own, wellFormed.attached⟩
    · refine ⟨wellFormed.request, fun _ => by simp, ?_, ?_⟩
      · rw [TransactionBuilder.placeholder_append wellFormed.placeholder]
        exact wellFormed.own
      intro response inside
      rw [TransactionBuilder.attached_append wellFormed.placeholder] at inside
      rcases List.mem_append.mp inside with before | last
      · exact wellFormed.attached response before
      · obtain rfl := List.mem_singleton.mp last
        obtain rfl : b.key = key := of_decide_eq_true serves
        exact travels

theorem addRequest (accounts : grouping.Accounts upper frames) (sip : frame.sip.isSome = true)
    {key : TransactionKey} (travels : frame.Travels upper key.toBaseKey key.flow) :
    (grouping.addRequest frame key).Accounts upper (frames ++ [frame]) := by
  unfold Grouping.addRequest
  split
  · rename_i found
    exact accounts.retransmit sip found
  · refine ⟨?_, ?_, ?_⟩
    · rw [sip_evidence_append sip, Grouping.append, List.flatMap_append, List.append_assoc]
      refine (List.perm_append_comm.append_left _).trans ?_
      rw [← List.append_assoc]
      exact accounts.conserved.append_right _
    · rw [Grouping.append, List.filterMap_append]
      simpa [TransactionBuilder.record, TransactionRecord.placeholder] using accounts.placeholders
    · intro b member
      rcases List.mem_append.mp member with old | new
      · exact accounts.wellFormed b old
      · obtain rfl := List.mem_singleton.mp new
        refine ⟨?_, by simp, ?_, ?_⟩
        · intro request same
          obtain rfl := Option.mem_some_iff.mp same
          exact travels
        · intro response same
          exact absurd same (by simp [TransactionBuilder.record, TransactionRecord.placeholder])
        · intro response inside
          exact absurd inside (by simp [TransactionBuilder.record, TransactionRecord.attached])

theorem addPlaceholder (accounts : grouping.Accounts upper frames) (sip : frame.sip.isSome = true)
    {key : TransactionKey} (travels : frame.Travels upper key.toBaseKey key.flow) :
    ((grouping.orphan frame).append ⟨key, none, [frame], [], false⟩).Accounts upper
      (frames ++ [frame]) := by
  have orphaned := accounts.orphan sip
  refine ⟨?_, ?_, ?_⟩
  · rw [Grouping.append, List.flatMap_append]
    have none : [(⟨key, none, [frame], [], false⟩ : TransactionBuilder)].flatMap
        (fun b => b.record.accounted) = [] := rfl
    rw [none, List.append_nil]
    exact orphaned.conserved
  · rw [Grouping.append, List.filterMap_append, List.map_append]
    exact accounts.placeholders.append (List.Sublist.refl [frame.evidence])
  · intro b member
    rcases List.mem_append.mp member with old | new
    · exact accounts.wellFormed b old
    · obtain rfl := List.mem_singleton.mp new
      refine ⟨fun _ same => absurd same (by simp), fun _ => by simp, ?_, ?_⟩
      · intro response same
        obtain rfl := Option.mem_some_iff.mp same
        exact travels
      intro response inside
      exact absurd inside (by simp [TransactionBuilder.record, TransactionRecord.attached])

theorem doubt (accounts : grouping.Accounts upper frames) (key : TransactionKey) :
    ({ grouping with builders := grouping.builders.map (TransactionBuilder.doubt key) } :
      Grouping).Accounts upper frames := by
  have accounted (b : TransactionBuilder) :
      (b.doubt key).record.accounted = b.record.accounted := by
    unfold TransactionBuilder.doubt
    split <;> rfl
  have placeholder (b : TransactionBuilder) :
      (b.doubt key).record.placeholder = b.record.placeholder := by
    unfold TransactionBuilder.doubt
    split <;> rfl
  refine ⟨?_, ?_, ?_⟩
  · rw [List.flatMap_map]
    simp only [accounted]
    exact accounts.conserved
  · rw [List.filterMap_map]
    simp only [Function.comp_def, placeholder]
    exact accounts.placeholders
  · intro b member
    obtain ⟨old, inside, rfl⟩ := List.mem_map.mp member
    have wellFormed := accounts.wellFormed old inside
    unfold TransactionBuilder.doubt
    split
    · exact ⟨wellFormed.request, wellFormed.placeholder, wellFormed.own, wellFormed.attached⟩
    · exact wellFormed

theorem addResponse (accounts : grouping.Accounts upper frames) (sip : frame.sip.isSome = true)
    {key : TransactionKey} (travels : frame.Travels upper key.toBaseKey key.flow) :
    (grouping.addResponse frame key).Accounts upper (frames ++ [frame]) := by
  unfold Grouping.addResponse
  split
  · exact accounts.addPlaceholder sip travels
  · rename_i builder matching
    refine accounts.answer sip travels ?_
    have among : builder ∈ grouping.builders.filter (TransactionBuilder.serves _) :=
      matching ▸ List.mem_singleton_self builder
    exact List.any_eq_true.mpr ⟨builder, List.mem_filter.mp among⟩
  · exact (accounts.orphan sip).doubt _

theorem add (accounts : grouping.Accounts upper frames) (frame : FrameRecord) :
    (grouping.add upper frame).Accounts upper (frames ++ [frame]) := by
  unfold Grouping.add
  by_cases sip : frame.sip.isSome = true
  · rw [if_neg (by simpa using Option.isSome_iff_ne_none.mp sip)]
    split
    · rename_i base flow keyed flows
      split
      · exact accounts.addRequest sip ⟨keyed, flows⟩
      · exact accounts.addResponse sip ⟨keyed, flows⟩
    · exact accounts.orphan sip
  · rw [if_pos (by simpa using sip)]
    refine ⟨?_, accounts.placeholders, accounts.wellFormed⟩
    rw [List.filter_append, List.filter_singleton, Bool.not_eq_true _ |>.mp sip, cond_false,
      List.append_nil]
    exact accounts.conserved

end Grouping.Accounts

variable (upper) in
theorem groupFrames_accounts (frames : List FrameRecord) :
    (groupFrames upper frames).Accounts upper frames := by
  induction frames using List.reverseRecOn with
  | nil => exact ⟨List.Perm.refl _, List.Sublist.refl _, fun _ member => absurd member (by
      rw [groupFrames]; simp)⟩
  | append_singleton frames frame ih =>
    rw [groupFrames, List.foldl_append]
    exact ih.add frame

end invariant

/-- Each SIP frame has one place among the transactions and the orphan frames. -/
structure Conserved (upper : Text → Text) (frames : List FrameRecord)
    (transactions : List TransactionRecord) (orphans : List EvidenceRef) : Prop where
  all : ∀ evidence, evidence ∈ transactions.flatMap TransactionRecord.accounted ++ orphans ↔
    ∃ frame ∈ frames, frame.sip.isSome = true ∧ frame.evidence = evidence
  once : (transactions.flatMap TransactionRecord.accounted ++ orphans).Nodup
  /-- An orphan is no transaction's response but the one that opened a placeholder. -/
  orphan : ∀ transaction ∈ transactions, ∀ response ∈ transaction.responses,
    response.evidence ∈ orphans → transaction.placeholder = some response
  /-- No orphan opened two placeholders. -/
  own : ((transactions.filterMap TransactionRecord.placeholder).map FrameRecord.evidence).Nodup
  placeholders : ∀ transaction ∈ transactions, transaction.request = none →
    ∃ response, transaction.placeholder = some response ∧ response.evidence ∈ orphans
  matched : ∀ transaction ∈ transactions, ∀ request ∈ transaction.request,
    ∀ response ∈ transaction.responses,
      request.Travels upper transaction.key.toBaseKey transaction.key.flow ∧
        response.Travels upper transaction.key.toBaseKey transaction.key.flow.reverse

theorem TransactionRecord.response_attached {transaction : TransactionRecord}
    {response : FrameRecord} (member : response ∈ transaction.responses) :
    response ∈ transaction.attached ∨ transaction.placeholder = some response := by
  unfold TransactionRecord.attached TransactionRecord.placeholder
  split
  · exact .inl member
  · cases responses : transaction.responses with
    | nil => exact absurd (responses ▸ member) (List.not_mem_nil)
    | cons first rest =>
      rw [responses] at member
      rcases List.mem_cons.mp member with rfl | later
      · exact .inr rfl
      · exact .inl later

theorem TransactionRecord.mem_accounted {transaction : TransactionRecord} {response : FrameRecord}
    (member : response ∈ transaction.attached) : response.evidence ∈ transaction.accounted := by
  rw [TransactionRecord.accounted]
  exact List.mem_append_left _ (List.mem_map_of_mem (List.mem_append_right _ member))

/-- Reconstruction of frames with distinct evidence loses none and counts none twice, and a
response is attached to a request only across its own transaction. -/
theorem frames_are_conserved (upper : Text → Text) {frames : List FrameRecord}
    (distinct : (frames.map FrameRecord.evidence).Nodup) :
    Conserved upper frames (reconstructTransactions upper frames).1
      (reconstructTransactions upper frames).2 := by
  obtain ⟨conserved, placeholders, wellFormed⟩ :=
    groupFrames_accounts upper (FrameRecord.inOrder frames)
  rw [← List.flatMap_map] at conserved
  have placeholders : (((groupFrames upper (FrameRecord.inOrder frames)).builders.map
      TransactionBuilder.record).filterMap TransactionRecord.placeholder |>.map
        FrameRecord.evidence).Sublist
          (groupFrames upper (FrameRecord.inOrder frames)).orphanFrames := by
    rw [List.filterMap_map]
    exact placeholders
  unfold reconstructTransactions
  dsimp only
  have sorted := FrameRecord.inOrder_perm frames
  have distinct' : (((FrameRecord.inOrder frames).filter fun frame => frame.sip.isSome).map
      FrameRecord.evidence).Nodup :=
    ((sorted.map FrameRecord.evidence).nodup_iff.mpr distinct).sublist
      (List.filter_sublist.map FrameRecord.evidence)
  have once := conserved.nodup_iff.mpr distinct'
  obtain ⟨-, orphans, apart⟩ := List.nodup_append.mp once
  have opened : ∀ response ∈ ((groupFrames upper (FrameRecord.inOrder frames)).builders.map
      TransactionBuilder.record).filterMap TransactionRecord.placeholder,
        response.evidence ∈ (groupFrames upper (FrameRecord.inOrder frames)).orphanFrames :=
    fun response member => placeholders.subset (List.mem_map_of_mem member)
  refine ⟨?_, once, ?_, orphans.sublist placeholders, ?_, ?_⟩
  · intro evidence
    rw [conserved.mem_iff, List.mem_map]
    constructor
    · rintro ⟨frame, member, rfl⟩
      obtain ⟨member, sip⟩ := List.mem_filter.mp member
      exact ⟨frame, sorted.mem_iff.mp member, sip, rfl⟩
    · rintro ⟨frame, member, sip, rfl⟩
      exact ⟨frame, List.mem_filter.mpr ⟨sorted.mem_iff.mpr member, sip⟩, rfl⟩
  · intro transaction member response inside orphaned
    rcases TransactionRecord.response_attached inside with attached | placeholder
    · have accounted := List.mem_flatMap.mpr
        ⟨transaction, member, TransactionRecord.mem_accounted attached⟩
      exact absurd rfl (apart _ accounted _ orphaned)
    · exact placeholder
  · intro transaction member without
    obtain ⟨builder, inside, rfl⟩ := List.mem_map.mp member
    have responses := (wellFormed builder inside).placeholder without
    cases first : builder.responses with
    | nil => exact absurd first responses
    | cons response rest =>
      have placeholder : builder.record.placeholder = some response := by
        have absent : builder.record.request = none := without
        rw [TransactionRecord.placeholder, absent]
        exact congrArg List.head? first
      exact ⟨response, placeholder,
        opened response (List.mem_filterMap.mpr ⟨builder.record, member, placeholder⟩)⟩
  · intro transaction member request requested response inside
    obtain ⟨builder, builderMember, rfl⟩ := List.mem_map.mp member
    have shape := wellFormed builder builderMember
    have present : builder.record.request = some request := requested
    refine ⟨shape.request request requested, shape.attached response ?_⟩
    rw [TransactionRecord.attached, present]
    exact inside

/-- A request, its response, the same response again, and a response to nothing. -/
theorem four_frames_are_conserved :
    let frames := [FrameRecord.request 1 "a" "b" "INVITE" 1, FrameRecord.response 2 "b" "a" "INVITE" 1 200,
      FrameRecord.response 3 "b" "a" "INVITE" 1 200, FrameRecord.response 4 "b" "a" "INVITE" 2 200]
    Conserved id frames (reconstructTransactions id frames).1
      (reconstructTransactions id frames).2 :=
  frames_are_conserved id (by decide)

end Sippycup.Oracle
