import Sippycup.Webrtc.Standing

/-! Deleting one revision. What a revision reports depends on a pending offer, on the last completed pair or on who
has to roll back; each of these is set by a few revisions, and in a longer transcript one of them can be deleted. -/
namespace Sippycup.Webrtc.Sdp
open Sippycup.Python

section moves
variable {allowGlare : Bool} {standing : Standing} {revision : Revision}

theorem step_open (kind : revision.kind = .offer) :
    (standing.step allowGlare revision).stable = standing.stable ∧
      (standing.step allowGlare revision).pending = some (match standing.pending with
        | none => revision
        | some pending => if pending.actor = revision.actor ∨ allowGlare = true then revision else pending) := by
  unfold Standing.step
  rw [kind]
  cases standing.pending with
  | none => exact ⟨rfl, rfl⟩
  | some pending =>
    by_cases same : pending.actor = revision.actor
    · simp [same]
    · cases allowGlare <;> simp [same]

theorem step_close (kind : revision.kind ≠ .offer) : (standing.step allowGlare revision).pending = none := by
  unfold Standing.step
  cases described : revision.kind with
  | offer => exact absurd described kind
  | rollback => rfl
  | answer =>
    cases pending : standing.pending with
    | none => exact pending
    | some offer =>
      dsimp only
      split <;> rfl

/-- The revision answers the pending offer. -/
def Completes (standing : Standing) (revision : Revision) : Prop :=
  ∃ offer, standing.pending = some offer ∧ revision.kind = .answer ∧ revision.actor ≠ offer.actor

theorem step_completes {offer : Revision} (pending : standing.pending = some offer) (kind : revision.kind = .answer)
    (other : revision.actor ≠ offer.actor) : (standing.step allowGlare revision).stable = some (offer, revision) := by
  unfold Standing.step
  rw [kind, pending]
  dsimp only
  rw [if_neg other]

theorem step_stable (open_ : ¬ Completes standing revision) :
    (standing.step allowGlare revision).stable = standing.stable := by
  cases kind : revision.kind with
  | offer => exact (step_open kind).1
  | rollback =>
    unfold Standing.step
    rw [kind]
  | answer =>
    cases pending : standing.pending with
    | none =>
      unfold Standing.step
      rw [kind, pending]
    | some offer =>
      have same : revision.actor = offer.actor := by
        by_contra other
        exact open_ ⟨offer, pending, kind, other⟩
      unfold Standing.step
      rw [kind, pending]
      dsimp only
      rw [if_pos same]

/-- Who has to roll back: those who had to before, or the two of a glare. -/
theorem step_rollback {actor : Actor} (required : actor ∈ (standing.step allowGlare revision).rollbackRequired) :
    actor ∈ standing.rollbackRequired ∨ revision.kind = .offer ∧ ∃ offer, standing.pending = some offer ∧
      offer.actor ≠ revision.actor ∧ (actor = offer.actor ∨ actor = revision.actor) := by
  unfold Standing.step at required
  cases kind : revision.kind with
  | rollback =>
    rw [kind] at required
    exact .inl (List.mem_of_mem_filter required)
  | answer =>
    rw [kind] at required
    cases pending : standing.pending with
    | none =>
      rw [pending] at required
      exact .inl required
    | some offer =>
      rw [pending] at required
      dsimp only at required
      split at required <;> exact .inl required
  | offer =>
    rw [kind] at required
    cases pending : standing.pending with
    | none =>
      rw [pending] at required
      exact .inl required
    | some offer =>
      rw [pending] at required
      dsimp only at required
      by_cases same : offer.actor = revision.actor
      · rw [if_pos same] at required
        exact .inl required
      · rw [if_neg same] at required
        have listed : actor ∈ offer.actor :: revision.actor :: standing.rollbackRequired := by
          cases allowGlare <;> exact required
        rcases List.mem_cons.mp listed with own | listed
        · exact .inr ⟨rfl, offer, rfl, same, .inl own⟩
        rcases List.mem_cons.mp listed with own | older
        · exact .inr ⟨rfl, offer, rfl, same, .inr own⟩
        · exact .inl older

/-- Both actors of a glare have to roll back. -/
theorem step_glare {offer : Revision} {actor : Actor} (pending : standing.pending = some offer)
    (kind : revision.kind = .offer) (other : offer.actor ≠ revision.actor)
    (involved : actor = offer.actor ∨ actor = revision.actor) :
    actor ∈ (standing.step allowGlare revision).rollbackRequired := by
  unfold Standing.step
  rw [kind, pending]
  dsimp only
  rw [if_neg other]
  have listed : actor ∈ offer.actor :: revision.actor :: standing.rollbackRequired := by
    rcases involved with rfl | rfl <;> simp
  cases allowGlare <;> exact listed

end moves

section runs
variable {allowGlare : Bool} {revisions : List Revision} {revision : Revision}

/-- What the pass keeps after some revisions. -/
abbrev after (allowGlare : Bool) (revisions : List Revision) : Standing := Standing.start.run allowGlare revisions

theorem after_concat (allowGlare : Bool) (revisions : List Revision) (revision : Revision) :
    after allowGlare (revisions ++ [revision]) = (after allowGlare revisions).step allowGlare revision :=
  List.foldl_concat ..

/-- An offer is pending after the last revision: that one is an offer. -/
theorem exists_last {offer : Revision} (pending : (after allowGlare revisions).pending = some offer) :
    ∃ front last, revisions = front ++ [last] ∧ last.kind = .offer := by
  rcases List.eq_nil_or_concat' revisions with rfl | ⟨front, last, rfl⟩
  · cases pending
  · refine ⟨front, last, rfl, ?_⟩
    by_contra other
    rw [after_concat, step_close other] at pending
    cases pending

theorem last_closes (closed : (after allowGlare (revisions ++ [revision])).pending = none) : revision.kind ≠ .offer := by
  intro kind
  rw [after_concat, (step_open kind).2] at closed
  cases closed

theorem eraseIdx_front {i : Nat} (inside : i < revisions.length) :
    (revisions ++ [revision]).eraseIdx i = revisions.eraseIdx i ++ [revision] :=
  List.eraseIdx_append_of_lt_length inside _

theorem eraseIdx_last : (revisions ++ [revision]).eraseIdx revisions.length = revisions := by
  rw [List.eraseIdx_append_of_length_le (Nat.le_refl _), Nat.sub_self, List.eraseIdx_zero, List.tail_cons, List.append_nil]

/-- Without its first revision a transcript that leaves no offer pending still leaves none. -/
theorem closed_tail (closed : (after allowGlare revisions).pending = none) :
    (after allowGlare (revisions.eraseIdx 0)).pending = none := by
  rcases List.eq_nil_or_concat' revisions with rfl | ⟨front, last, rfl⟩
  · rfl
  · cases front with
    | nil => rfl
    | cons first front =>
      have kind := last_closes closed
      rw [eraseIdx_front (Nat.zero_lt_succ _), after_concat]
      exact step_close kind

/-- Of two offers one can be deleted: the later where the earlier stays pending, or else the earlier. -/
theorem offer_shrinks {pending : Revision} (open_ : (after allowGlare revisions).pending = some pending)
    (kind : revision.kind = .offer) : ∃ i, i < (revisions ++ [revision]).length ∧
      (after allowGlare ((revisions ++ [revision]).eraseIdx i)).pending =
        (after allowGlare (revisions ++ [revision])).pending ∧
      (after allowGlare ((revisions ++ [revision]).eraseIdx i)).stable =
        (after allowGlare (revisions ++ [revision])).stable := by
  obtain ⟨stable, replaced⟩ := @step_open allowGlare (after allowGlare revisions) revision kind
  rw [open_] at replaced
  dsimp only at replaced
  by_cases taken : pending.actor = revision.actor ∨ allowGlare = true
  · obtain ⟨front, last, rfl, opens⟩ := exists_last open_
    obtain ⟨stable', replaced'⟩ := @step_open allowGlare (after allowGlare front) last opens
    obtain ⟨stable'', replaced''⟩ := @step_open allowGlare (after allowGlare front) revision kind
    rw [if_pos taken] at replaced
    have erased : (front ++ [last] ++ [revision]).eraseIdx front.length = front ++ [revision] := by
      rw [eraseIdx_front (by simp), eraseIdx_last]
    refine ⟨front.length, by simp, ?_, ?_⟩
    · rw [erased, after_concat, after_concat, replaced, replaced'']
      cases before : (after allowGlare front).pending with
      | none => rfl
      | some older =>
        dsimp only
        rw [after_concat, replaced', before] at open_
        dsimp only at open_
        have same : older.actor = revision.actor ∨ allowGlare = true := by
          rcases taken with taken | allowed
          · by_cases first : older.actor = last.actor ∨ allowGlare = true
            · rcases first with first | allowed
              · rw [if_pos (.inl first)] at open_
                rw [Option.some.inj open_] at first
                exact .inl (first.trans taken)
              · exact .inr allowed
            · rw [if_neg first] at open_
              rw [Option.some.inj open_]
              exact .inl taken
          · exact .inr allowed
        rw [if_pos same]
    · rw [erased, after_concat, after_concat, stable, stable'', after_concat, stable']
  · rw [if_neg taken] at replaced
    refine ⟨revisions.length, by simp, ?_, ?_⟩
    · rw [eraseIdx_last, after_concat, replaced, open_]
    · rw [eraseIdx_last, after_concat, stable]

/-- A pending offer outlives the deletion of one of two revisions or more. -/
theorem pending_shrinks {pending : Revision} (open_ : (after allowGlare revisions).pending = some pending)
    (long : 2 ≤ revisions.length) :
    ∃ i, i < revisions.length ∧ (after allowGlare (revisions.eraseIdx i)).pending = some pending := by
  obtain ⟨front, last, rfl, kind⟩ := exists_last open_
  cases before : (after allowGlare front).pending with
  | none =>
    rw [List.length_append, List.length_singleton] at long
    refine ⟨0, by simp, ?_⟩
    rw [eraseIdx_front (by omega), after_concat, (step_open kind).2, closed_tail before]
    rw [after_concat, (step_open kind).2, before] at open_
    exact open_
  | some older =>
    obtain ⟨i, inside, same, -⟩ := offer_shrinks before kind
    exact ⟨i, inside, same.trans open_⟩

/-- Who has to roll back still has to after the deletion of one of three revisions or more. -/
theorem rollback_shrinks {actor : Actor} (required : actor ∈ (after allowGlare revisions).rollbackRequired)
    (long : 3 ≤ revisions.length) :
    ∃ i, i < revisions.length ∧ actor ∈ (after allowGlare (revisions.eraseIdx i)).rollbackRequired := by
  rcases List.eq_nil_or_concat' revisions with rfl | ⟨front, last, rfl⟩
  · cases required
  rw [List.length_append, List.length_singleton] at long ⊢
  rw [after_concat] at required
  rcases step_rollback required with older | ⟨kind, offer, pending, other, involved⟩
  · refine ⟨front.length, by omega, ?_⟩
    rw [eraseIdx_last]
    exact older
  · obtain ⟨i, inside, still⟩ := pending_shrinks pending (by omega)
    refine ⟨i, by omega, ?_⟩
    rw [eraseIdx_front inside, after_concat]
    exact step_glare still kind other involved

/-- The last completed pair outlives the deletion of one of three revisions or more that leave no offer pending. -/
theorem closed_shrinks (closed : (after allowGlare revisions).pending = none) (long : 3 ≤ revisions.length) :
    ∃ i, i < revisions.length ∧ (after allowGlare (revisions.eraseIdx i)).pending = none ∧
      (after allowGlare (revisions.eraseIdx i)).stable = (after allowGlare revisions).stable := by
  rcases List.eq_nil_or_concat' revisions with rfl | ⟨front, last, rfl⟩
  · cases long
  have kind := last_closes closed
  have shut {standing : Standing} : (standing.step allowGlare last).pending = none := step_close kind
  rw [List.length_append, List.length_singleton] at long ⊢
  by_cases completes : Completes (after allowGlare front) last
  · obtain ⟨offer, pending, answers, other⟩ := completes
    obtain ⟨i, inside, still⟩ := pending_shrinks pending (by omega)
    refine ⟨i, by omega, ?_, ?_⟩
    · rw [eraseIdx_front inside, after_concat]
      exact shut
    · rw [eraseIdx_front inside, after_concat, after_concat, step_completes still answers other,
        step_completes pending answers other]
  have stable : ((after allowGlare front).step allowGlare last).stable = (after allowGlare front).stable :=
    step_stable completes
  cases before : (after allowGlare front).pending with
  | none =>
    refine ⟨front.length, by omega, ?_, ?_⟩
    · rw [eraseIdx_last, before]
    · rw [eraseIdx_last, after_concat, stable]
  | some older =>
    obtain ⟨front, opening, rfl, opens⟩ := exists_last before
    rw [List.length_append, List.length_singleton] at long ⊢
    cases earlier : (after allowGlare front).pending with
    | none =>
      have erased : (front ++ [opening] ++ [last]).eraseIdx front.length = front ++ [last] := by
        rw [eraseIdx_front (by simp), eraseIdx_last]
      have idle : ¬ Completes (after allowGlare front) last := by
        rintro ⟨offer, pending, -⟩
        rw [earlier] at pending
        cases pending
      refine ⟨front.length, by omega, ?_, ?_⟩
      · rw [erased, after_concat]
        exact shut
      · rw [erased, after_concat, after_concat, stable, step_stable idle, after_concat, (step_open opens).1]
    | some pending =>
      obtain ⟨i, inside, same, same'⟩ := offer_shrinks earlier opens
      have idle : ¬ Completes (after allowGlare ((front ++ [opening]).eraseIdx i)) last := by
        rintro ⟨offer, pending, answers⟩
        exact completes ⟨offer, same.symm.trans pending, answers⟩
      refine ⟨i, by rw [List.length_append, List.length_singleton] at inside; omega, ?_, ?_⟩
      · rw [eraseIdx_front inside, after_concat]
        exact shut
      · rw [eraseIdx_front inside, after_concat, after_concat, stable, step_stable idle, same']

/-- A pending offer beside a completed pair outlives the deletion of one of four revisions or more. -/
theorem restart_shrinks {pending : Revision} (open_ : (after allowGlare revisions).pending = some pending)
    (long : 4 ≤ revisions.length) :
    ∃ i, i < revisions.length ∧ (after allowGlare (revisions.eraseIdx i)).pending = some pending ∧
      (after allowGlare (revisions.eraseIdx i)).stable = (after allowGlare revisions).stable := by
  obtain ⟨front, last, rfl, kind⟩ := exists_last open_
  cases before : (after allowGlare front).pending with
  | none =>
    rw [List.length_append, List.length_singleton] at long ⊢
    obtain ⟨i, inside, closed, stable⟩ := closed_shrinks before (by omega)
    refine ⟨i, by omega, ?_, ?_⟩
    · rw [eraseIdx_front inside, after_concat, (step_open kind).2, closed]
      rw [after_concat, (step_open kind).2, before] at open_
      exact open_
    · rw [eraseIdx_front inside, after_concat, after_concat, (step_open kind).1, (step_open kind).1, stable]
  | some older =>
    obtain ⟨i, inside, same, same'⟩ := offer_shrinks before kind
    exact ⟨i, inside, same.trans open_, same'⟩

/-- How many revisions there are at least where an actor has to roll back, or a pair is completed. -/
theorem rollback_long {actor : Actor} (required : actor ∈ (after allowGlare revisions).rollbackRequired) :
    2 ≤ revisions.length := by
  rcases List.eq_nil_or_concat' revisions with rfl | ⟨front, last, rfl⟩
  · cases required
  rw [after_concat] at required
  cases front with
  | nil =>
    rcases step_rollback required with older | ⟨-, offer, pending, -⟩
    · cases older
    · cases pending
  | cons first front => simp

theorem restart_long {pending : Revision} {pair : Revision × Revision}
    (open_ : (after allowGlare revisions).pending = some pending) (stable : (after allowGlare revisions).stable = some pair) :
    3 ≤ revisions.length := by
  obtain ⟨front, last, rfl, kind⟩ := exists_last open_
  rw [after_concat, (step_open kind).1] at stable
  match front with
  | [] => cases stable
  | [only] =>
    have idle : ¬ Completes Standing.start only := by
      rintro ⟨offer, impossible, -⟩
      cases impossible
    have none_ : (after allowGlare [only]).stable = none := step_stable idle
    rw [none_] at stable
    cases stable
  | _ :: _ :: front => simp

end runs

end Sippycup.Webrtc.Sdp
