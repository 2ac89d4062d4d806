import Sippycup.Oracle.Keys

/-! Frames withheld from a capture. Where no frame that goes opens or answers what belongs to those
that stay, the transactions of the rest are what the transactions of all have left. -/
namespace Sippycup.Oracle
open Python Pairing

section lists
variable {α β : Type} {p : α → Bool} {change : α → α} {items : List α}

/-- The first element changed, as it is seen through a partial function. -/
theorem filterMap_amendFirst_eq {f : α → Option β} {q : β → Bool} {seenChange : β → β}
    (chosen : ∀ item ∈ items, p item = true → ∃ seen, f item = some seen ∧ q seen = true ∧
      f (change item) = some (seenChange seen))
    (passed : ∀ item ∈ items, p item = false → ∀ seen, f item = some seen → q seen = false) :
    (amendFirst p change items).filterMap f = amendFirst q seenChange (items.filterMap f) := by
  induction items with
  | nil => rfl
  | cons first rest ih =>
    have later := ih (fun item inside => chosen item (List.mem_cons_of_mem _ inside))
      fun item inside => passed item (List.mem_cons_of_mem _ inside)
    rw [amendFirst]
    split
    · rename_i here
      obtain ⟨seen, known, also, changed⟩ := chosen first (by simp) here
      rw [List.filterMap_cons_some known, List.filterMap_cons_some changed, amendFirst, if_pos also]
    · rename_i elsewhere
      cases known : f first with
      | none => rw [List.filterMap_cons_none known, List.filterMap_cons_none known, later]
      | some seen =>
        have other := passed first (by simp) (Bool.not_eq_true _ |>.mp elsewhere) seen known
        rw [List.filterMap_cons_some known, List.filterMap_cons_some known, amendFirst, other, later]
        rfl

section sorting
variable {r : α → α → Prop} [DecidableRel r]

theorem orderedInsert_least {item : α} (least : ∀ other ∈ items, r item other) :
    items.orderedInsert r item = item :: items := by
  cases items with
  | nil => rfl
  | cons first rest => exact List.orderedInsert_cons_of_le _ rest (least first (by simp))

theorem filter_orderedInsert [IsTrans α r] {item : α} (sorted : items.Pairwise r) :
    (items.orderedInsert r item).filter p =
      if p item then (items.filter p).orderedInsert r item else items.filter p := by
  induction items with
  | nil => cases chosen : p item <;> simp [chosen]
  | cons first rest ih =>
    obtain ⟨least, sorted⟩ := List.pairwise_cons.mp sorted
    by_cases before : r item first
    · have all : ∀ other ∈ (first :: rest).filter p, r item other := by
        intro other member
        rcases List.mem_cons.mp (List.mem_filter.mp member).1 with rfl | later
        · exact before
        · exact trans_of r before (least other later)
      rw [List.orderedInsert_cons_of_le r rest before, orderedInsert_least all, List.filter_cons]
    · rw [List.orderedInsert_of_not_le r rest before, List.filter_cons, ih sorted, List.filter_cons]
      cases kept : p first with
      | false => rfl
      | true =>
        rw [if_pos rfl, if_pos rfl, List.orderedInsert_of_not_le r _ before]
        split <;> rfl

/-- The order is kept also between equals. -/
theorem filter_insertionSort [Std.Total r] [IsTrans α r] :
    (items.insertionSort r).filter p = (items.filter p).insertionSort r := by
  induction items with
  | nil => rfl
  | cons first rest ih =>
    rw [List.insertionSort_cons, filter_orderedInsert (List.pairwise_insertionSort r rest), ih, List.filter_cons]
    split <;> rfl

end sorting
end lists

/-- The key of the request that a message is, or answers. -/
def requestKey (message : Message TransactionKey) : TransactionKey :=
  if message.request then message.key else message.key.reverse

namespace TransactionBuilder
variable (keep : FrameRecord → Bool) (b : TransactionBuilder)

def frames : List FrameRecord := b.request.toList ++ b.responses

def kept : Bool := b.frames.any keep

/-- A builder without its retransmissions, of which only the evidence is known. -/
def bare : TransactionBuilder := { b with retransmissions := [] }

/-- What a builder has left of the frames that are kept. -/
def rest : Option TransactionBuilder :=
  if b.kept keep then some { b.bare with responses := b.responses.filter keep } else none

end TransactionBuilder

section withheld
variable (upper : Text → Text) (keep : FrameRecord → Bool)

/-- No request that goes has the key of a message that stays, and no response that goes belongs
to its key in the other direction. -/
def Apart (frames : List FrameRecord) : Prop :=
  ∀ gone ∈ frames, keep gone = false → ∀ left ∈ frames, keep left = true →
    ∀ m n, gone.message upper = some m → left.message upper = some n →
      requestKey m ≠ if m.request then requestKey n else (requestKey n).reverse

/-- A builder gathers frames that came before, and the one that opened it decides for it. -/
structure TransactionBuilder.Owned (before : List FrameRecord) (b : TransactionBuilder) : Prop where
  gathered : ∀ frame ∈ b.frames, frame ∈ before
  opened : ∃ frame ∈ before, b.frames.head? = some frame ∧ frame.message upper = some b.opener ∧
    keep frame = b.kept keep

end withheld

section builders
variable {upper : Text → Text} {keep : FrameRecord → Bool} {before : List FrameRecord} {frame : FrameRecord}
  {b c : TransactionBuilder} {key : TransactionKey}

theorem rest_none (gone : b.kept keep = false) : b.rest keep = none := by
  rw [TransactionBuilder.rest, gone]
  rfl

theorem rest_some (left : b.kept keep = true) :
    b.rest keep = some { b.bare with responses := b.responses.filter keep } := by
  rw [TransactionBuilder.rest, left]
  rfl

theorem rest_eq (same : b.rest keep = some c) : b.kept keep = true ∧ c = { b.bare with responses := b.responses.filter keep } := by
  cases left : b.kept keep with
  | false =>
    rw [rest_none left] at same
    cases same
  | true =>
    rw [rest_some left] at same
    exact ⟨rfl, (Option.some.inj same).symm⟩

theorem kept_append (same : c.frames = b.frames ++ [frame]) : c.kept keep = (b.kept keep || keep frame) := by
  simp [TransactionBuilder.kept, same]

theorem answer_known (known : b.responses.any (TransactionBuilder.sameResponse frame) = true) :
    b.answer frame = b.retransmit frame := if_pos known

theorem answer_new (fresh : b.responses.any (TransactionBuilder.sameResponse frame) = false) :
    b.answer frame = { b with responses := b.responses ++ [frame] } :=
  if_neg (Bool.eq_false_iff.mp fresh)

theorem answer_cases (frame : FrameRecord) (b : TransactionBuilder) :
    b.answer frame = b.retransmit frame ∨ b.answer frame = { b with responses := b.responses ++ [frame] } := by
  cases known : b.responses.any (TransactionBuilder.sameResponse frame) with
  | true => exact .inl (answer_known known)
  | false => exact .inr (answer_new known)

theorem answer_frames (frame : FrameRecord) (b : TransactionBuilder) :
    (b.answer frame).frames = b.frames ∨ (b.answer frame).frames = b.frames ++ [frame] := by
  rcases answer_cases frame b with same | same
  · rw [same]
    exact .inl rfl
  · rw [same]
    exact .inr (by simp [TransactionBuilder.frames])

theorem answer_opener (frame : FrameRecord) (b : TransactionBuilder) : (b.answer frame).opener = b.opener := by
  rcases answer_cases frame b with same | same <;> rw [same] <;> rfl

theorem doubt_frames (key : TransactionKey) (b : TransactionBuilder) : (b.doubt key).frames = b.frames := by
  unfold TransactionBuilder.doubt
  split <;> rfl

theorem doubt_opener (key : TransactionKey) (b : TransactionBuilder) : (b.doubt key).opener = b.opener := by
  unfold TransactionBuilder.doubt
  split <;> rfl

theorem TransactionBuilder.Owned.same (owned : b.Owned upper keep before) (frames : c.frames = b.frames)
    (opener : c.opener = b.opener) : c.Owned upper keep before := by
  obtain ⟨gathered, first, member, head, spoken, side⟩ := owned
  refine ⟨by rwa [frames], first, member, by rw [frames, head], by rw [opener, spoken], ?_⟩
  rw [side, TransactionBuilder.kept, TransactionBuilder.kept, frames]

theorem TransactionBuilder.Owned.later (owned : b.Owned upper keep before) (frame : FrameRecord) :
    b.Owned upper keep (before ++ [frame]) := by
  obtain ⟨gathered, first, member, known⟩ := owned
  exact ⟨fun f inside => List.mem_append_left _ (gathered f inside), first, List.mem_append_left _ member, known⟩

theorem TransactionBuilder.Owned.grow (owned : b.Owned upper keep before) (frames : c.frames = b.frames ++ [frame])
    (opener : c.opener = b.opener) (side : keep frame = true → b.kept keep = true) :
    c.Owned upper keep (before ++ [frame]) := by
  obtain ⟨gathered, first, member, head, spoken, same⟩ := owned
  refine ⟨?_, first, List.mem_append_left _ member, ?_, by rw [opener, spoken], ?_⟩
  · intro f inside
    rw [frames] at inside
    rcases List.mem_append.mp inside with old | last
    · exact List.mem_append_left _ (gathered f old)
    · exact List.mem_append_right _ last
  · rw [frames, List.head?_append, head]
    rfl
  · rw [same, kept_append frames]
    cases chosen : keep frame with
    | false => rw [Bool.or_false]
    | true => rw [side chosen, Bool.true_or]

/-- A frame and the owner of the builder that it would open or join are on one side, unless the
frame goes and answers a request that stays. -/
theorem TransactionBuilder.Owned.side (apart : Apart upper keep (before ++ [frame])) (owned : b.Owned upper keep before)
    {request : Bool} (spoken : frame.message upper = some ⟨key, request⟩)
    (meets : b.key = requestKey ⟨key, request⟩) (opens : request = true → b.request.isSome = true) :
    b.kept keep = keep frame ∨ (keep frame = false ∧ b.kept keep = true ∧ request = false ∧ b.request.isSome = true) := by
  obtain ⟨first, member, _, opener, side⟩ := owned.opened
  have earlier : first ∈ before ++ [frame] := List.mem_append_left _ member
  have last : frame ∈ before ++ [frame] := by simp
  rw [← side]
  cases chosen : keep frame with
  | true =>
    cases ours : keep first with
    | true => exact .inl rfl
    | false =>
      have strange := apart first earlier ours frame last chosen _ _ opener spoken
      cases requested : b.request.isSome with
      | true => simp [requestKey, TransactionBuilder.opener, requested, meets] at strange
      | false =>
        have answer : request = false := by
          cases request
          · rfl
          · rw [opens rfl] at requested
            cases requested
        subst answer
        simp [requestKey, TransactionBuilder.opener, requested, meets] at strange
  | false =>
    cases ours : keep first with
    | false => exact .inl rfl
    | true =>
      have strange := apart frame last chosen first earlier ours _ _ spoken opener
      cases requested : b.request.isSome with
      | true =>
        cases request with
        | true => simp [requestKey, TransactionBuilder.opener, requested, meets] at strange
        | false => exact .inr ⟨rfl, rfl, rfl, rfl⟩
      | false =>
        cases request with
        | true =>
          rw [opens rfl] at requested
          cases requested
        | false => simp [requestKey, TransactionBuilder.opener, requested, meets] at strange

end builders

section requests
variable {κ : Type} [DecidableEq κ] {reverse : κ → κ}

/-- Requests open their keys once. -/
theorem openers_requests_nodup (messages : List (Message κ)) :
    ((openers reverse messages).filter Message.request).Nodup := by
  induction messages using List.reverseRecOn with
  | nil => exact .nil
  | append_singleton messages message ih =>
    rw [openers_append, receive]
    split
    · rename_i request
      split
      · exact ih
      · rename_i fresh
        rw [List.filter_append, List.filter_cons_of_pos request, List.filter_nil]
        exact ih.append (List.nodup_singleton _) fun other old last =>
          fresh (List.mem_singleton.mp last ▸ List.mem_of_mem_filter old)
    · rename_i response
      split
      · exact ih
      · rw [List.filter_append, List.filter_cons_of_neg response, List.filter_nil, List.append_nil]
        exact ih

end requests

section split
variable {upper : Text → Text} {keep : FrameRecord → Bool} {before : List FrameRecord} {frame : FrameRecord}
  {all left : Grouping} {key : TransactionKey}

/-- The builders of the frames that stay, and what the builders of all frames have left. -/
structure Split (upper : Text → Text) (keep : FrameRecord → Bool) (before : List FrameRecord)
    (all left : Grouping) : Prop where
  owned : ∀ b ∈ all.builders, b.Owned upper keep before
  single : (all.openers.filter Message.request).Nodup
  rest : left.builders.map TransactionBuilder.bare = all.builders.filterMap (TransactionBuilder.rest keep)

/-- What is seen of the builders that stay does not tell them from the others' rest. -/
theorem Split.filter (split : Split upper keep before all left) (p : TransactionBuilder → Bool)
    (bare : ∀ b, p b.bare = p b) (rest : ∀ b c, b.rest keep = some c → p c = p b) :
    (left.builders.filter p).map TransactionBuilder.bare =
      (all.builders.filter p).filterMap (TransactionBuilder.rest keep) := by
  have same : (left.builders.filter p).map TransactionBuilder.bare =
      (left.builders.map TransactionBuilder.bare).filter p := by
    rw [List.filter_map]
    congr 1
    exact List.filter_congr fun b _ => (bare b).symm
  rw [same, split.rest, List.filter_filterMap, List.filterMap_filter]
  refine List.filterMap_congr fun b _ => ?_
  cases known : b.rest keep with
  | none => simp
  | some c => simp [rest b c known, Option.filter]

theorem serves_bare (key : TransactionKey) (b : TransactionBuilder) : b.bare.serves key = b.serves key := rfl

theorem requested_bare (key : TransactionKey) (b : TransactionBuilder) : b.bare.requested key = b.requested key := rfl

theorem serves_rest {b c : TransactionBuilder} (same : b.rest keep = some c) : c.serves key = b.serves key := by
  obtain ⟨_, rfl⟩ := rest_eq same
  rfl

theorem requested_rest {b c : TransactionBuilder} (same : b.rest keep = some c) : c.requested key = b.requested key := by
  obtain ⟨_, rfl⟩ := rest_eq same
  rfl

theorem requested_iff {b : TransactionBuilder} :
    b.requested key = true ↔ b.key = key ∧ b.request.isSome = true := by
  simp [TransactionBuilder.requested, TransactionBuilder.serves]

theorem Split.owned_append (split : Split upper keep before all left) {b : TransactionBuilder}
    (opened : frame.message upper = some b.opener) (frames : b.frames = [frame]) :
    ∀ c ∈ (all.append b).builders, c.Owned upper keep (before ++ [frame]) := by
  intro c member
  rcases List.mem_append.mp member with old | new
  · exact (split.owned c old).later frame
  · obtain rfl := List.mem_singleton.mp new
    exact ⟨by simp [frames], frame, by simp, by rw [frames]; rfl, opened, by simp [TransactionBuilder.kept, frames]⟩

theorem Split.amended (split : Split upper keep before all left) {p : TransactionBuilder → Bool}
    {change : TransactionBuilder → TransactionBuilder}
    (owned : ∀ b ∈ all.builders, p b = true → (change b).Owned upper keep (before ++ [frame])) :
    ∀ c ∈ (all.amend p change).builders, c.Owned upper keep (before ++ [frame]) := by
  intro c member
  rcases mem_amendFirst member with old | ⟨b, inside, chosen, rfl⟩
  · exact (split.owned c old).later frame
  · exact owned b inside chosen

theorem append_builders (grouping : Grouping) (b : TransactionBuilder) :
    (grouping.append b).builders = grouping.builders ++ [b] := rfl

theorem any_eq_of_filter {p : TransactionBuilder → Bool} {items : List TransactionBuilder} :
    items.any p = !(items.filter p).isEmpty := by
  induction items with
  | nil => rfl
  | cons first others ih => cases chosen : p first <;> simp [chosen, ih]

/-- Where all builders that are concerned stay, as many are concerned among those of the rest. -/
theorem Split.filter_kept (split : Split upper keep before all left) {p : TransactionBuilder → Bool}
    (bare : ∀ b, p b.bare = p b) (rest : ∀ b c, b.rest keep = some c → p c = p b)
    (kept : ∀ b ∈ all.builders, p b = true → b.kept keep = true) :
    (left.builders.filter p).length = (all.builders.filter p).length := by
  have lengths := congrArg List.length (split.filter p bare rest)
  rw [List.length_map] at lengths
  rw [lengths, List.length_filterMap_eq_countP, List.countP_eq_length]
  intro b member
  obtain ⟨inside, chosen⟩ := List.mem_filter.mp member
  rw [rest_some (kept b inside chosen)]
  rfl

/-- The same change made in both. -/
theorem Split.rest_amend (split : Split upper keep before all left) {p : TransactionBuilder → Bool}
    {change : TransactionBuilder → TransactionBuilder} (bare : ∀ b, p b.bare = p b)
    (rest : ∀ b c, b.rest keep = some c → p c = p b)
    (same : ∀ b, (change b).bare = (change b.bare).bare)
    (seen : ∀ b ∈ all.builders, p b = true → ∃ c, b.rest keep = some c ∧
      (change b).rest keep = some (change c).bare) :
    (left.amend p change).builders.map TransactionBuilder.bare =
      (all.amend p change).builders.filterMap (TransactionBuilder.rest keep) := by
  have ours : (left.amend p change).builders.map TransactionBuilder.bare =
      amendFirst p (fun b => (change b).bare) (left.builders.map TransactionBuilder.bare) := by
    rw [← List.filterMap_eq_map]
    refine filterMap_amendFirst_eq (fun b _ chosen => ?_) fun b _ passed c known => ?_
    · refine ⟨b.bare, rfl, by rw [bare, chosen], ?_⟩
      rw [Function.comp_apply, same]
    · rw [← Option.some.inj known, bare, passed]
  rw [ours, split.rest]
  symm
  refine filterMap_amendFirst_eq (fun b inside chosen => ?_) fun b _ passed c known => ?_
  · obtain ⟨c, known, changed⟩ := seen b inside chosen
    exact ⟨c, known, by rw [rest b c known, chosen], changed⟩
  · rw [rest b c known, passed]

theorem rest_retransmit (frame : FrameRecord) (b : TransactionBuilder) :
    (b.retransmit frame).rest keep = b.rest keep := rfl

theorem Split.addRequest (split : Split upper keep before all left) (apart : Apart upper keep (before ++ [frame]))
    (spoken : frame.message upper = some ⟨key, true⟩) :
    (∀ b ∈ (all.addRequest frame key).builders, b.Owned upper keep (before ++ [frame])) ∧
      (if keep frame then left.addRequest frame key else left).builders.map TransactionBuilder.bare =
        (all.addRequest frame key).builders.filterMap (TransactionBuilder.rest keep) := by
  have side {b : TransactionBuilder} (member : b ∈ all.builders) (meets : b.requested key = true) :
      b.kept keep = keep frame := by
    obtain ⟨same, requested⟩ := requested_iff.1 meets
    rcases (split.owned b member).side apart spoken (by rw [same]; rfl) fun _ => requested with ours | ⟨_, _, absurd_, _⟩
    · exact ours
    · cases absurd_
  unfold Grouping.addRequest
  by_cases found : all.builders.any (TransactionBuilder.requested key) = true
  · rw [if_pos found]
    refine ⟨split.amended fun b inside _ => ((split.owned b inside).same (c := b.retransmit frame) rfl rfl).later frame, ?_⟩
    have rest : (all.amend (TransactionBuilder.requested key) (TransactionBuilder.retransmit frame)).builders.filterMap
        (TransactionBuilder.rest keep) = all.builders.filterMap (TransactionBuilder.rest keep) :=
      filterMap_amendFirst fun b _ _ => rest_retransmit frame b
    rw [rest, ← split.rest]
    split
    · split
      · exact map_amendFirst fun b => rfl
      · rename_i chosen none
        refine absurd ?_ none
        obtain ⟨b, inside, meets⟩ := List.any_eq_true.mp found
        rw [any_eq_of_filter] at found ⊢
        have lengths := split.filter_kept (requested_bare key) (fun _ _ => requested_rest)
          fun b inside meets => (side inside meets).trans chosen
        rw [Bool.not_eq_true', List.isEmpty_eq_false_iff, ← List.length_pos_iff] at found ⊢
        omega
    · rfl
  · rw [if_neg found]
    refine ⟨split.owned_append spoken rfl, ?_⟩
    rw [append_builders all, List.filterMap_append, ← split.rest]
    cases chosen : keep frame with
    | true =>
      have fresh : ¬left.builders.any (TransactionBuilder.requested key) = true := by
        rw [any_eq_of_filter, Bool.not_eq_true, Bool.not_eq_false', List.isEmpty_iff_length_eq_zero] at found ⊢
        rw [split.filter_kept (requested_bare key) (fun _ _ => requested_rest)
          fun b inside meets => (side inside meets).trans chosen]
        exact found
      rw [if_pos rfl, if_neg fresh, append_builders, List.map_append]
      simp [TransactionBuilder.rest, TransactionBuilder.kept, TransactionBuilder.frames, TransactionBuilder.bare, chosen]
    | false =>
      simp [TransactionBuilder.rest, TransactionBuilder.kept, TransactionBuilder.frames, chosen]

section responses
variable {grouping : Grouping}

theorem addResponse_none (unserved : grouping.builders.filter (TransactionBuilder.serves key.reverse) = []) :
    (grouping.addResponse frame key).builders = grouping.builders ++ [⟨key, none, [frame], [], false⟩] := by
  rw [Grouping.addResponse, unserved]
  rfl

theorem addResponse_one {b : TransactionBuilder}
    (served : grouping.builders.filter (TransactionBuilder.serves key.reverse) = [b]) :
    grouping.addResponse frame key =
      grouping.amend (TransactionBuilder.serves key.reverse) (TransactionBuilder.answer frame) := by
  rw [Grouping.addResponse, served]

theorem addResponse_many (several : 2 ≤ (grouping.builders.filter (TransactionBuilder.serves key.reverse)).length) :
    (grouping.addResponse frame key).builders = grouping.builders.map (TransactionBuilder.doubt key.reverse) := by
  unfold Grouping.addResponse
  split
  · rename_i unserved
    rw [unserved] at several
    simp at several
  · rename_i served
    rw [served] at several
    simp at several
  · rfl

theorem answer_bare (b : TransactionBuilder) : (b.answer frame).bare = (b.bare.answer frame).bare := by
  cases known : b.responses.any (TransactionBuilder.sameResponse frame) with
  | true =>
    have bare : b.bare.responses.any (TransactionBuilder.sameResponse frame) = true := known
    rw [answer_known known, answer_known bare]
    rfl
  | false =>
    have bare : b.bare.responses.any (TransactionBuilder.sameResponse frame) = false := known
    rw [answer_new known, answer_new bare]
    rfl

/-- A response that stays is known among those that stay, if at all. -/
theorem rest_answer {b c : TransactionBuilder}
    (sides : ∀ item, TransactionBuilder.sameResponse frame item = true → keep item = keep frame)
    (chosen : keep frame = true) (left : b.rest keep = some c) : (b.answer frame).rest keep = some (c.answer frame).bare := by
  obtain ⟨kept, rfl⟩ := rest_eq left
  have answered : (b.answer frame).kept keep = true := by
    rcases answer_frames frame b with same | same
    · rw [TransactionBuilder.kept, same]
      exact kept
    · rw [kept_append same, kept, Bool.true_or]
  have same : (b.responses.filter keep).any (TransactionBuilder.sameResponse frame) =
      b.responses.any (TransactionBuilder.sameResponse frame) := by
    rw [List.any_filter]
    refine List.any_congr rfl fun item => ?_
    cases taken : TransactionBuilder.sameResponse frame item with
    | false => rw [Bool.and_false]
    | true => rw [sides item taken, chosen, Bool.and_true]
  rw [rest_some answered]
  cases known : b.responses.any (TransactionBuilder.sameResponse frame) with
  | true =>
    rw [answer_known known, answer_known (same.trans known)]
    rfl
  | false =>
    rw [answer_new known, answer_new (same.trans known)]
    simp [TransactionBuilder.bare, chosen]

/-- A response that goes leaves no trace. -/
theorem rest_answer_gone (gone : keep frame = false) (b : TransactionBuilder) :
    (b.answer frame).rest keep = b.rest keep := by
  rcases answer_cases frame b with same | same
  · rw [same]
    rfl
  · have kept : (b.answer frame).kept keep = b.kept keep := by
      have frames : (b.answer frame).frames = b.frames ++ [frame] := by
        rw [same]
        simp [TransactionBuilder.frames]
      rw [kept_append frames, gone, Bool.or_false]
    rw [TransactionBuilder.rest, kept, same, TransactionBuilder.rest]
    simp [TransactionBuilder.bare, gone]

theorem bare_doubt (key : TransactionKey) (b : TransactionBuilder) : (b.doubt key).bare = b.bare.doubt key := by
  rw [TransactionBuilder.doubt, TransactionBuilder.doubt, serves_bare]
  split <;> rfl

theorem rest_doubt (key : TransactionKey) (b : TransactionBuilder) :
    (b.doubt key).rest keep = (b.rest keep).map (TransactionBuilder.doubt key) := by
  unfold TransactionBuilder.doubt TransactionBuilder.rest
  cases served : b.serves key <;> cases left : b.kept keep <;>
    simp_all [TransactionBuilder.kept, TransactionBuilder.frames, TransactionBuilder.serves, TransactionBuilder.bare]

end responses

theorem Split.one_request (split : Split upper keep before all left)
    (requests : ∀ b ∈ all.builders, b.serves key = true → b.request.isSome = true) :
    (all.builders.filter (TransactionBuilder.serves key)).length ≤ 1 := by
  have same : (all.builders.filter (TransactionBuilder.serves key)).map TransactionBuilder.opener =
      List.replicate (all.builders.filter (TransactionBuilder.serves key)).length ⟨key, true⟩ := by
    refine List.map_eq_replicate_iff.mpr fun b among => ?_
    obtain ⟨inside, served⟩ := List.mem_filter.mp among
    rw [TransactionBuilder.opener, requests b inside served, of_decide_eq_true served]
  have listed : ((all.builders.filter (TransactionBuilder.serves key)).map TransactionBuilder.opener).Sublist
      (all.openers.filter Message.request) := by
    rw [same, ← List.filter_replicate_of_pos (p := Message.request) rfl, ← same]
    exact (List.filter_sublist.map _).filter _
  rw [same] at listed
  exact List.nodup_replicate.mp (split.single.sublist listed)

/-- Of several builders that a response could answer, none stays where the response goes. -/
theorem Split.several_gone (split : Split upper keep before all left) (apart : Apart upper keep (before ++ [frame]))
    (spoken : frame.message upper = some ⟨key, false⟩) (gone : keep frame = false)
    (several : 2 ≤ (all.builders.filter (TransactionBuilder.serves key.reverse)).length) :
    ∀ b ∈ all.builders, b.serves key.reverse = true → b.kept keep = false := by
  have sides {b : TransactionBuilder} (member : b ∈ all.builders) (served : b.serves key.reverse = true) :=
    (split.owned b member).side apart spoken (of_decide_eq_true served) fun absurd_ => by cases absurd_
  intro b member served
  by_contra stays
  rw [Bool.not_eq_false] at stays
  have requested : b.request.isSome = true := by
    rcases sides member served with same | ⟨_, _, _, known⟩
    · rw [stays, gone] at same
      cases same
    · exact known
  obtain ⟨owner, earlier, _, opener, side⟩ := (split.owned b member).opened
  -- an orphan that goes would have the key of this request in the other direction
  have alone := split.one_request fun c inside meets => by
    rcases sides inside meets with same | ⟨_, _, _, known⟩
    · by_contra orphan
      obtain ⟨other, before_, _, spoke, otherSide⟩ := (split.owned c inside).opened
      have strange := apart other (List.mem_append_left _ before_) (by rw [otherSide, same, gone])
        owner (List.mem_append_left _ earlier) (by rw [side, stays]) _ _ spoke opener
      have ours : b.key = key.reverse := of_decide_eq_true served
      have theirs : c.key = key.reverse := of_decide_eq_true meets
      rw [Bool.not_eq_true] at orphan
      simp [requestKey, TransactionBuilder.opener, orphan, requested, ours, theirs] at strange
    · exact known
  omega

theorem Split.addResponse (split : Split upper keep before all left) (apart : Apart upper keep (before ++ [frame]))
    (sides : ∀ item, TransactionBuilder.sameResponse frame item = true → keep item = keep frame)
    (spoken : frame.message upper = some ⟨key, false⟩) :
    (∀ b ∈ (all.addResponse frame key).builders, b.Owned upper keep (before ++ [frame])) ∧
      (if keep frame then left.addResponse frame key else left).builders.map TransactionBuilder.bare =
        (all.addResponse frame key).builders.filterMap (TransactionBuilder.rest keep) := by
  have side {b : TransactionBuilder} (member : b ∈ all.builders) (served : b.serves key.reverse = true) :
      keep frame = true → b.kept keep = true := by
    intro chosen
    rcases (split.owned b member).side apart spoken (of_decide_eq_true served) (fun absurd_ => by cases absurd_) with
      same | ⟨gone, _⟩
    · rw [same, chosen]
    · rw [chosen] at gone
      cases gone
  have lengths (chosen : keep frame = true) := split.filter_kept (serves_bare key.reverse) (fun _ _ => serves_rest)
    fun b inside served => side inside served chosen
  match matching : all.builders.filter (TransactionBuilder.serves key.reverse) with
  | [] =>
    rw [addResponse_none matching]
    refine ⟨split.owned_append (b := ⟨key, none, [frame], [], false⟩) spoken rfl, ?_⟩
    rw [List.filterMap_append, ← split.rest]
    cases chosen : keep frame with
    | true =>
      have unserved : left.builders.filter (TransactionBuilder.serves key.reverse) = [] := by
        rw [← List.length_eq_zero_iff, lengths chosen, matching]
        rfl
      rw [if_pos rfl, addResponse_none unserved, List.map_append]
      simp [TransactionBuilder.rest, TransactionBuilder.kept, TransactionBuilder.frames, TransactionBuilder.bare, chosen]
    | false =>
      simp [TransactionBuilder.rest, TransactionBuilder.kept, TransactionBuilder.frames, chosen]
  | [b] =>
    rw [addResponse_one matching]
    constructor
    · refine split.amended fun c inside served => ?_
      rcases answer_frames frame c with same | grown
      · exact ((split.owned c inside).same same (answer_opener frame c)).later frame
      · exact (split.owned c inside).grow grown (answer_opener frame c) (side inside served)
    · cases chosen : keep frame with
      | true =>
        obtain ⟨c, one⟩ : ∃ c, left.builders.filter (TransactionBuilder.serves key.reverse) = [c] :=
          List.length_eq_one_iff.mp (by rw [lengths chosen, matching]; rfl)
        rw [if_pos rfl, addResponse_one one]
        refine split.rest_amend (serves_bare key.reverse) (fun _ _ => serves_rest) answer_bare fun c inside served => ?_
        have known := rest_some (side inside served chosen)
        exact ⟨_, known, rest_answer sides chosen known⟩
      | false =>
        exact split.rest.trans (filterMap_amendFirst fun c _ _ => rest_answer_gone chosen c).symm
  | first :: second :: others =>
    have several : 2 ≤ (all.builders.filter (TransactionBuilder.serves key.reverse)).length := by
      rw [matching]
      simp
    rw [addResponse_many several]
    constructor
    · intro c member
      obtain ⟨b, inside, rfl⟩ := List.mem_map.mp member
      exact ((split.owned b inside).same (doubt_frames _ b) (doubt_opener _ b)).later frame
    · rw [List.filterMap_map]
      cases chosen : keep frame with
      | true =>
        rw [if_pos rfl, addResponse_many (by rw [lengths chosen]; exact several), List.map_map]
        have doubted : left.builders.map (TransactionBuilder.bare ∘ TransactionBuilder.doubt key.reverse) =
            (left.builders.map TransactionBuilder.bare).map (TransactionBuilder.doubt key.reverse) := by
          rw [List.map_map]
          exact List.map_congr_left fun b _ => bare_doubt key.reverse b
        rw [doubted, split.rest, List.map_filterMap]
        exact List.filterMap_congr fun b _ => (rest_doubt key.reverse b).symm
      | false =>
        refine split.rest.trans (List.filterMap_congr fun b inside => ?_)
        rw [Function.comp_apply, rest_doubt]
        cases served : b.serves key.reverse with
        | true => rw [rest_none (split.several_gone apart spoken chosen several b inside served), Option.map_none]
        | false =>
          cases known : b.rest keep with
          | none => rfl
          | some c => rw [Option.map_some, TransactionBuilder.doubt, serves_rest known, served]; rfl

theorem Grouping.add_silent (grouping : Grouping) (silent : frame.message upper = none) :
    (grouping.add upper frame).builders = grouping.builders := by
  unfold Grouping.add
  split
  · rfl
  · split
    · rename_i keyed flows
      simp [FrameRecord.message, keyed, flows] at silent
    · rfl

theorem Grouping.add_spoken (grouping : Grouping) {request : Bool} (spoken : frame.message upper = some ⟨key, request⟩) :
    grouping.add upper frame =
      if request then grouping.addRequest frame key else grouping.addResponse frame key := by
  unfold FrameRecord.message at spoken
  simp only [Option.bind_eq_bind, Option.bind_eq_some_iff, Option.pure_def, Option.some.injEq, Message.mk.injEq] at spoken
  obtain ⟨base, keyed, flow, flows, rfl, rfl⟩ := spoken
  have sip : ¬frame.sip.isNone = true := by
    intro absent
    simp [FrameRecord.baseKey, FrameRecord.sipValue, Option.isNone_iff_eq_none.mp absent] at keyed
  rw [Grouping.add, if_neg sip, keyed, flows]

theorem Split.add (split : Split upper keep before all left) (apart : Apart upper keep (before ++ [frame]))
    (sides : ∀ item, TransactionBuilder.sameResponse frame item = true → keep item = keep frame) :
    (∀ b ∈ (all.add upper frame).builders, b.Owned upper keep (before ++ [frame])) ∧
      (if keep frame then left.add upper frame else left).builders.map TransactionBuilder.bare =
        (all.add upper frame).builders.filterMap (TransactionBuilder.rest keep) := by
  match spoken : frame.message upper with
  | none =>
    rw [Grouping.add_silent all spoken]
    refine ⟨fun b inside => (split.owned b inside).later frame, ?_⟩
    rw [← split.rest]
    split
    · rw [Grouping.add_silent left spoken]
    · rfl
  | some ⟨key, true⟩ =>
    rw [Grouping.add_spoken all spoken, Grouping.add_spoken left spoken]
    exact split.addRequest apart spoken
  | some ⟨key, false⟩ =>
    rw [Grouping.add_spoken all spoken, Grouping.add_spoken left spoken]
    exact split.addResponse apart sides spoken

theorem Apart.earlier {after : List FrameRecord} (apart : Apart upper keep (before ++ after)) :
    Apart upper keep before := fun gone goes side stay stays =>
  apart gone (List.mem_append_left _ goes) side stay (List.mem_append_left _ stays)

/-- Over a whole capture, the builders of the frames that stay are the rest of all builders. -/
theorem groupFrames_split (frames : List FrameRecord) (apart : Apart upper keep frames)
    (sides : ∀ frame item, TransactionBuilder.sameResponse frame item = true → keep item = keep frame) :
    Split upper keep frames (groupFrames upper frames) (groupFrames upper (frames.filter keep)) := by
  induction frames using List.reverseRecOn with
  | nil => exact ⟨fun b member => absurd member List.not_mem_nil, .nil, rfl⟩
  | append_singleton before frame ih =>
    obtain ⟨owned, rest⟩ := (ih apart.earlier).add apart (sides frame)
    refine ⟨?_, ?_, ?_⟩
    · rw [groupFrames_append]
      exact owned
    · rw [groupFrames_openers]
      exact openers_requests_nodup _
    · rw [groupFrames_append, ← rest, List.filter_append]
      cases chosen : keep frame with
      | true => rw [List.filter_cons_of_pos chosen, List.filter_nil, groupFrames_append, if_pos rfl]
      | false => rw [List.filter_cons_of_neg (by simp [chosen]), List.filter_nil, List.append_nil]; rfl

end split

end Sippycup.Oracle
