import Sippycup.Campaign.Coverage

/-! Exactness of the constraint search: a partial assignment is completed exactly
when a permitted row extends it, so a requested tuple is required exactly when a
permitted row covers it, and excluded otherwise. -/
namespace Sippycup.Campaign
open Sippycup.Python Sippycup.Backtrack Sippycup.Loop

/-- A partial assignment that takes its values from the domains. -/
def InDomains (matrix : Matrix) (fixed : Assignment Factor Scalar) : Prop :=
  ∀ factor v, fixed factor = some v → v ∈ matrix.factors factor

section
variable {κ : Type} [LinearOrder κ] {stableKey : Nat → String → Value → κ} {matrix : Matrix}
  {item : FactorTuple} {seed : Nat}

theorem completeAssignment_none {fixed : Assignment Factor Scalar} (inside : InDomains matrix fixed)
    (namespace_ : String) (uncovered : List FactorTuple) :
    completeAssignment stableKey matrix fixed seed namespace_ uncovered = none ↔
      ¬ ∃ row, Permitted matrix row ∧ Extends fixed row := by
  constructor
  · rintro none ⟨row, permitted, extends_⟩
    have found : ∃ completed,
        completeAssignment stableKey matrix fixed seed namespace_ uncovered = some completed :=
      completeAssignment_complete permitted extends_
    obtain ⟨completed, found⟩ := found
    rw [none] at found
    cases found
  · intro no
    rw [Option.eq_none_iff_forall_ne_some]
    intro row found
    exact no ⟨row, completeAssignment_sound inside found⟩

/-- The other half of `classify_ok`: what does not complete is excluded. -/
theorem classify_excluded {items required result : List FactorTuple}
    {excluded others : List ExcludedFactorTuple}
    (inside : ∀ item ∈ items, ∀ entry ∈ item, entry.2 ∈ matrix.factors entry.1)
    (ok : classify stableKey matrix seed items required excluded = .ok (result, others)) :
    ∀ item, item ∈ others.map ExcludedFactorTuple.values ↔
      item ∈ excluded.map ExcludedFactorTuple.values ∨ item ∈ items ∧ ¬ Completes matrix item := by
  induction items generalizing required excluded with
  | nil =>
    cases ok
    simp
  | cons first rest ih =>
    have later := fun item member => inside item (List.mem_cons_of_mem first member)
    have completes := completes_iff stableKey seed "classify" [] (inside first List.mem_cons_self)
    simp only [classify] at ok
    split at ok
    · cases ok
    split at ok
    · rename_i row completed
      have yes := completes.mp ⟨row, completed⟩
      intro item
      rw [ih later ok item, List.mem_cons]
      refine or_congr_right ⟨fun both => ⟨.inr both.1, both.2⟩, ?_⟩
      rintro ⟨rfl | among, no⟩
      · exact absurd yes no
      · exact ⟨among, no⟩
    · rename_i none
      have no : ¬ Completes matrix first := by
        rw [← completes, none]
        simp
      intro item
      rw [ih later ok item, List.mem_cons, List.map_append, List.mem_append, or_assoc]
      refine or_congr_right ?_
      rw [List.map_singleton, List.mem_singleton]
      constructor
      · rintro (rfl | ⟨among, other⟩)
        · exact ⟨.inl rfl, no⟩
        · exact ⟨.inr among, other⟩
      · rintro ⟨rfl | among, other⟩
        · exact .inl rfl
        · exact .inr ⟨among, other⟩

theorem prepareCovering_excluded {value : Value} {s : Value} {prepared : Prepared}
    (ok : prepareCovering stableKey value s = .ok prepared) (item : FactorTuple) :
    item ∈ prepared.excluded.map ExcludedFactorTuple.values ↔
      item ∈ requestedTuples prepared.matrix ∧ ¬ Completes prepared.matrix item := by
  cases s with
  | int n =>
    simp only [prepareCovering] at ok
    split at ok
    · cases ok
    · simp only [bind_ok, pure_ok] at ok
      obtain ⟨_, _, _, _, authorized, _, matrix, accepted, ⟨required, excluded⟩, classified, rfl⟩ := ok
      have others := classify_excluded (fun item member => (mem_requestedTuples.mp member).2) classified
      simpa using others item
  | _ => cases ok

/-- One more row: the rows stay permitted, and what it covers no longer waits. -/
theorem coverTurn_covering {required : List FactorTuple} {c after : Cover}
    (inside : ∀ item ∈ required, ∀ entry ∈ item, entry.2 ∈ matrix.factors entry.1)
    (covering : Covering matrix required c) (turn : coverTurn stableKey matrix seed c = .ok (.again after)) :
    Covering matrix required after := by
  unfold coverTurn at turn
  split at turn
  · cases turn
  rename_i first rest waiting
  dsimp only at turn
  split at turn
  · cases turn
  rename_i completed found
  cases turn
  have target := leastBy_mem (fun item => stableKey seed s!"target:{c.rowNumber + 1}" (tupleKeyValue item))
    first rest
  rw [← waiting] at target
  obtain ⟨permitted, -⟩ := completeAssignment_sound
    (fun factor v fixed => inside _ (covering.waiting _ target) _ (fixedBy_mem fixed)) found
  refine ⟨fun row among => ?_, fun item among => ?_, fun item among => ?_⟩
  · rcases List.mem_append.mp among with earlier | last
    · exact covering.rows row earlier
    · rwa [List.mem_singleton.mp last]
  · exact covering.waiting item (List.mem_filter.mp among).1
  · rcases covering.settled item among with pending | ⟨row, earlier, done⟩
    · cases now : assignmentCovers completed item with
      | true => exact .inr ⟨completed, by simp, now⟩
      | false => exact .inl (List.mem_filter.mpr ⟨pending, by simp [now]⟩)
    · exact .inr ⟨row, List.mem_append_left _ earlier, done⟩

/-- An array that is returned covers every required tuple by a permitted row. -/
theorem generated_covers {value s : Value} {prepared : Prepared} {fuel : Nat} {array : CoveringArray}
    (ok : prepareCovering stableKey value s = .ok prepared)
    (generated : generateCoveringArray stableKey value s fuel = some (.ok array)) :
    (∃ done, array = prepared.finish done) ∧
      ∀ item ∈ prepared.required, ∃ row, Permitted prepared.matrix row ∧ assignmentCovers row item = true := by
  obtain ⟨accepted, required⟩ := prepareCovering_ok ok
  rw [generateCoveringArray, ok, Option.map_eq_some_iff] at generated
  obtain ⟨outcome, ran, mapped⟩ := generated
  cases outcome with
  | error raised => cases mapped
  | ok done =>
    cases mapped
    refine ⟨⟨done, rfl⟩, fun item member => ?_⟩
    have settled : Covering prepared.matrix prepared.required done ∧ done.uncovered = [] := by
      refine run_invariant (P := Covering prepared.matrix prepared.required)
        (Q := fun c => Covering prepared.matrix prepared.required c ∧ c.uncovered = [])
        (Prepared.start_covering accepted) (fun c after _ covering turn => ?_)
        (fun c left _ covering turn => ?_) ran
      · exact coverTurn_covering
          (fun item among => (mem_requestedTuples.mp ((required item).mp among).1).2) covering turn
      · unfold coverTurn at turn
        split at turn
        · rename_i none
          cases turn
          exact ⟨covering, none⟩
        · dsimp only at turn
          split at turn <;> cases turn
    obtain ⟨covering, nothing⟩ := settled
    rcases covering.settled item member with waiting | ⟨row, among, covers⟩
    · rw [nothing] at waiting
      cases waiting
    · exact ⟨row, covering.rows row among, covers⟩

/-- A requested tuple is required when a permitted row covers it, and else excluded. -/
structure CoveringArray.Exact (matrix : Matrix) (array : CoveringArray) : Prop where
  required : ∀ item, item ∈ array.requiredTuples ↔ item ∈ requestedTuples matrix ∧
    ∃ row, Permitted matrix row ∧ assignmentCovers row item = true
  excluded : ∀ item, item ∈ array.excludedTuples.map ExcludedFactorTuple.values ↔
    item ∈ requestedTuples matrix ∧ ¬ ∃ row, Permitted matrix row ∧ assignmentCovers row item = true

theorem generated_exact {value s : Value} {prepared : Prepared} {fuel : Nat} {array : CoveringArray}
    (ok : prepareCovering stableKey value s = .ok prepared)
    (generated : generateCoveringArray stableKey value s fuel = some (.ok array)) :
    array.Exact prepared.matrix := by
  obtain ⟨-, required⟩ := prepareCovering_ok ok
  obtain ⟨⟨done, rfl⟩, covers⟩ := generated_covers ok generated
  -- a row that covers a tuple extends it, and the loop covered every tuple that completes
  have completes (item : FactorTuple) (requested : item ∈ requestedTuples prepared.matrix) :
      Completes prepared.matrix item ↔
        ∃ row, Permitted prepared.matrix row ∧ assignmentCovers row item = true := by
    constructor
    · exact fun found => covers item ((required item).mpr ⟨requested, found⟩)
    · rintro ⟨row, permitted, covered⟩
      exact ⟨row, permitted, extends_of_covers covered⟩
  constructor
  · intro item
    rw [Prepared.finish, (List.perm_insertionSort _ _).mem_iff, required]
    exact and_congr_right (completes item)
  · intro item
    rw [Prepared.finish, ((List.perm_insertionSort _ _).map _).mem_iff, prepareCovering_excluded ok]
    exact and_congr_right fun requested => not_congr (completes item requested)

/-- The search misses no row and returns only rows, and the split of the requested tuples
is exact in every array that is returned. -/
theorem completion_exact (stableKey : Nat → String → Value → κ) :
    (∀ matrix fixed seed namespace_ uncovered, InDomains matrix fixed →
      (completeAssignment stableKey matrix fixed seed namespace_ uncovered = none ↔
        ¬ ∃ row, Permitted matrix row ∧ Extends fixed row) ∧
      ∀ row, completeAssignment stableKey matrix fixed seed namespace_ uncovered = some row →
        Permitted matrix row ∧ Extends fixed row) ∧
    ∀ value s prepared fuel array, prepareCovering stableKey value s = .ok prepared →
      generateCoveringArray stableKey value s fuel = some (.ok array) → array.Exact prepared.matrix := by
  constructor
  · intro matrix fixed seed namespace_ uncovered inside
    exact ⟨completeAssignment_none inside namespace_ uncovered, fun _ => completeAssignment_sound inside⟩
  · intro value s prepared fuel array ok generated
    exact generated_exact ok generated

end
end Sippycup.Campaign
