import Sippycup.Campaign.EventSequences

/-! The candidates are exactly the valid sequences, the required tuples exactly
what occurs in them, and the greedy selection ends with all of these covered. -/
namespace Sippycup.Campaign
open Sippycup.Python Sippycup.Loop

/-- A valid call over the given actions, no longer than the limit. -/
structure ValidWithin (actions : List Text) (limit : Nat) (sequence : ActionTuple) : Prop where
  among : ∀ action ∈ sequence, action.name ∈ actions
  valid : validActionSequence sequence = true
  short : sequence.length ≤ limit

section enumeration

theorem Action.named?_iff {text : Text} {action : Action} :
    Action.named? text = some action ↔ action.name = text := by
  constructor
  · intro found
    simpa using List.find?_some found
  · rintro rfl
    cases action <;> decide

theorem mem_product {α : Type} {items : List α} {n : Nat} {tuple : List α} :
    tuple ∈ product items n ↔ tuple.length = n ∧ ∀ item ∈ tuple, item ∈ items := by
  induction n generalizing tuple with
  | zero =>
    rw [product, List.mem_singleton]
    constructor
    · rintro rfl
      simp
    · rintro ⟨empty, -⟩
      exact List.length_eq_zero_iff.mp empty
  | succ n ih =>
    simp only [product, List.mem_flatMap, List.mem_map, ih]
    constructor
    · rintro ⟨item, member, rest, ⟨rfl, inside⟩, rfl⟩
      exact ⟨rfl, List.forall_mem_cons.mpr ⟨member, inside⟩⟩
    · rintro ⟨length, inside⟩
      cases tuple with
      | nil => cases length
      | cons item rest =>
        obtain ⟨member, inside⟩ := List.forall_mem_cons.mp inside
        exact ⟨item, member, rest, ⟨Nat.succ.inj length, inside⟩, rfl⟩

theorem gatherCandidates_ok {beginnings found result : List ActionTuple}
    (gathered : gatherCandidates beginnings found = .ok result) (sequence : ActionTuple) :
    sequence ∈ result ↔ sequence ∈ found ∨
      validActionSequence sequence = true ∧ ∃ beginning ∈ beginnings, sequence = beginning ++ [.hangup] := by
  induction beginnings generalizing found with
  | nil =>
    cases gathered
    simp
  | cons beginning rest ih =>
    rw [gatherCandidates] at gathered
    generalize grown : (if validActionSequence (beginning ++ [Action.hangup]) = true
      then found ++ [beginning ++ [Action.hangup]] else found) = next at gathered
    split at gathered
    · cases gathered
    · rw [ih gathered, ← grown]
      constructor
      · rintro (earlier | ⟨valid, other, member, same⟩)
        · split at earlier
          · rename_i valid
            rcases List.mem_append.mp earlier with old | new
            · exact .inl old
            · obtain rfl := List.mem_singleton.mp new
              exact .inr ⟨valid, beginning, List.mem_cons_self, rfl⟩
          · exact .inl earlier
        · exact .inr ⟨valid, other, List.mem_cons_of_mem _ member, same⟩
      · rintro (old | ⟨valid, other, member, rfl⟩)
        · refine .inl ?_
          split
          · exact List.mem_append_left _ old
          · exact old
        · rcases List.mem_cons.mp member with rfl | later
          · refine .inl ?_
            rw [if_pos valid]
            exact List.mem_append_right _ List.mem_cons_self
          · exact .inr ⟨valid, other, later, rfl⟩

/-- A valid sequence is a beginning without hangup, and then the hangup. -/
theorem validActionSequence_ends {sequence : ActionTuple} (valid : validActionSequence sequence = true) :
    ∃ beginning, sequence = beginning ++ [.hangup] ∧ Action.hangup ∉ beginning := by
  simp only [validActionSequence, Bool.and_eq_true, decide_eq_true_eq, Bool.not_eq_true',
    List.contains_eq_mem, decide_eq_false_iff_not] at valid
  obtain ⟨⟨last, inside⟩, -⟩ := valid
  obtain ⟨beginning, rfl⟩ := List.getLast?_eq_some_iff.mp last
  rw [List.dropLast_concat] at inside
  exact ⟨beginning, rfl, inside⟩

theorem readActions_ok {texts : List Text} {actions : List Action}
    (read : readActions texts = .ok actions) :
    Action.hangup ∈ actions ∧ ∀ action : Action, action ∈ actions ↔ action.name ∈ texts := by
  unfold readActions at read
  dsimp only at read
  split at read
  · cases read
  split at read
  · cases read
  split at read
  · rename_i hangup
    cases read
    refine ⟨hangup, fun action => ?_⟩
    have sorted : ∀ text, text ∈ sortTexts texts.dedup ↔ text ∈ texts := fun text =>
      (List.perm_insertionSort _ _).mem_iff.trans List.mem_dedup
    simp only [List.mem_filterMap, Action.named?_iff, sorted]
    constructor
    · rintro ⟨text, member, rfl⟩
      exact member
    · intro member
      exact ⟨_, member, rfl⟩
  · cases read

end enumeration

/-- What the preparation hands to the selection. -/
structure SequenceModel.Exact (model : SequenceModel) (texts : List Text) : Prop where
  candidates : ∀ sequence, sequence ∈ model.candidates ↔ ValidWithin texts model.maxActions sequence
  required : ∀ tuple, tuple ∈ model.required ↔
    tuple.length = model.strength ∧ ∃ sequence ∈ model.candidates, tuple.Sublist sequence
  excluded : ∀ tuple, tuple ∈ model.excluded ↔
    (tuple.length = model.strength ∧ ∀ action ∈ tuple, action.name ∈ texts) ∧ tuple ∉ model.required

section preparation
variable {texts : List Text} {maxActions strength seed : Value} {model : SequenceModel}

theorem mem_orderedSubsequences {sequence tuple : ActionTuple} {n : Nat} :
    tuple ∈ orderedSubsequences sequence n ↔ tuple.Sublist sequence ∧ tuple.length = n := by
  rw [orderedSubsequences, List.mem_dedup, List.mem_sublistsLen]

theorem readBounded_ok {value : Value} {minimum maximum : Int} {message : String} {n : Nat}
    (positive : 0 ≤ minimum) (read : readBounded value minimum maximum message = .ok n) :
    value = .int n := by
  unfold readBounded at read
  split at read
  · rename_i m
    split at read
    · rename_i within
      cases read
      exact congrArg Value.int (Int.toNat_of_nonneg (positive.trans within.1)).symm
    · cases read
  · cases read

theorem prepareSequences_ok (prepared : prepareSequences texts maxActions strength seed = .ok model) :
    maxActions = .int model.maxActions ∧ strength = .int model.strength ∧ model.Exact texts := by
  unfold prepareSequences at prepared
  obtain ⟨n, -, prepared⟩ := bind_ok.mp prepared
  obtain ⟨limit, bounded, prepared⟩ := bind_ok.mp prepared
  obtain ⟨size, sized, prepared⟩ := bind_ok.mp prepared
  obtain ⟨actions, read, prepared⟩ := bind_ok.mp prepared
  obtain ⟨found, gathered, prepared⟩ := bind_ok.mp prepared
  obtain rfl := pure_ok.mp prepared
  obtain ⟨-, named⟩ := readActions_ok read
  have sorted : ∀ sequence, sequence ∈ found.dedup.insertionSort actionsLe ↔ sequence ∈ found :=
    fun sequence => (List.perm_insertionSort _ _).mem_iff.trans List.mem_dedup
  refine ⟨readBounded_ok (by decide) bounded, readBounded_ok (by decide) sized, ?_, ?_, ?_⟩
  · intro sequence
    rw [sorted, gatherCandidates_ok gathered]
    simp only [List.not_mem_nil, false_or, List.mem_flatMap, List.mem_range, mem_product,
      List.mem_filter, decide_eq_true_eq]
    constructor
    · rintro ⟨valid, beginning, ⟨size, short, rfl, inside⟩, rfl⟩
      refine ⟨fun action member => (named action).mp ?_, valid, ?_⟩
      · rcases List.mem_append.mp member with early | last
        · exact (inside action early).1
        · rw [List.mem_singleton.mp last]
          exact (readActions_ok read).1
      · rw [List.length_append]
        exact short
    · rintro ⟨among, valid, short⟩
      obtain ⟨beginning, rfl, inside⟩ := validActionSequence_ends valid
      refine ⟨valid, beginning, ⟨beginning.length, ?_, rfl, fun action member => ⟨?_, ?_⟩⟩, rfl⟩
      · rw [List.length_append] at short
        exact short
      · exact (named action).mpr (among action (List.mem_append_left _ member))
      · rintro rfl
        exact inside member
  · intro tuple
    simp only [List.mem_dedup, List.mem_flatMap, List.mem_filter, decide_eq_true_eq,
      mem_orderedSubsequences]
    constructor
    · rintro ⟨sequence, ⟨member, -⟩, within, length⟩
      exact ⟨length, sequence, member, within⟩
    · rintro ⟨length, sequence, member, within⟩
      exact ⟨sequence, ⟨member, length ▸ within.length_le⟩, within, length⟩
  · intro tuple
    simp only [List.mem_filter, List.mem_dedup, mem_product, decide_eq_true_eq, named]

end preparation

section selection
variable {κ : Type} [LinearOrder κ] (stableKey : Nat → String → Value → κ) {model : SequenceModel}

theorem bestScored_spec (best : Nat × κ × ActionTuple) (rest : List (Nat × κ × ActionTuple)) :
    bestScored best rest ∈ best :: rest ∧ ∀ item ∈ best :: rest, item.1 ≤ (bestScored best rest).1 := by
  induction rest generalizing best with
  | nil => simp [bestScored]
  | cons item rest ih =>
    rw [bestScored]
    split
    · rename_i better
      obtain ⟨member, most⟩ := ih item
      refine ⟨List.mem_cons_of_mem _ member, fun other among => ?_⟩
      rcases List.mem_cons.mp among with rfl | later
      · have first := most item List.mem_cons_self
        rcases better with more | ⟨same, -⟩
        · exact more.le.trans first
        · exact same.le.trans first
      · exact most other later
    · rename_i worse
      obtain ⟨member, most⟩ := ih best
      refine ⟨?_, fun other among => ?_⟩
      · rcases List.mem_cons.mp member with same | later
        · rw [same]
          exact List.mem_cons_self
        · exact List.mem_cons_of_mem _ (List.mem_cons_of_mem _ later)
      · have first := most best List.mem_cons_self
        rcases List.mem_cons.mp among with rfl | later
        · exact first
        · rcases List.mem_cons.mp later with rfl | last
          · exact (not_lt.1 fun more => worse (.inl more)).trans first
          · exact most other (List.mem_cons_of_mem _ last)

/-- The state of the loop: what is selected are candidates, and every required
tuple waits or is covered. -/
structure Selection.Covering (model : SequenceModel) (s : Selection) : Prop where
  selected : ∀ sequence ∈ s.selected, sequence ∈ model.candidates
  waiting : ∀ tuple ∈ s.uncovered, tuple ∈ model.required
  settled : ∀ tuple ∈ model.required,
    tuple ∈ s.uncovered ∨ ∃ sequence ∈ s.selected, tuple.Sublist sequence

/-- A waiting tuple occurs in a candidate, so the best one covers something that waits. -/
theorem turn_again {texts : List Text} {s : Selection} (exact_ : model.Exact texts)
    (covering : s.Covering model) (more : s.uncovered ≠ []) :
    ∃ next, model.turn stableKey s = .ok (.again next) ∧ next.Covering model ∧
      next.uncovered.length < s.uncovered.length := by
  obtain ⟨tuple, waits⟩ := List.exists_mem_of_ne_nil _ more
  obtain ⟨length, sequence, member, within⟩ := (exact_.required tuple).mp (covering.waiting tuple waits)
  have listed : model.scored stableKey s sequence ∈ model.candidates.map (model.scored stableKey s) :=
    List.mem_map_of_mem member
  have scores : 0 < (model.scored stableKey s sequence).1 := by
    refine List.length_pos_of_mem (a := tuple) (List.mem_filter.mpr ⟨?_, by simpa using waits⟩)
    exact mem_orderedSubsequences.2 ⟨within, length⟩
  obtain ⟨first, rest, split⟩ := List.exists_cons_of_ne_nil (List.ne_nil_of_mem listed)
  obtain ⟨among, most⟩ := bestScored_spec first rest
  rw [split] at listed
  have positive := scores.trans_le (most _ listed)
  rw [← split] at among
  obtain ⟨best, chosen, same⟩ := List.mem_map.mp among
  refine ⟨{
    uncovered := s.uncovered.filter fun tuple => tuple ∉ orderedSubsequences best model.strength
    selected := s.selected ++ [best] }, ?_, ⟨?_, ?_, ?_⟩, ?_⟩
  · obtain ⟨head, tail, pending⟩ := List.exists_cons_of_ne_nil more
    rw [SequenceModel.turn]
    split
    · rename_i none
      exact absurd none more
    · rw [split]
      dsimp only
      rw [← same]
      rw [← same] at positive
      exact if_neg positive.ne'
  · intro other selected
    rcases List.mem_append.mp selected with earlier | last
    · exact covering.selected other earlier
    · rwa [List.mem_singleton.mp last]
  · intro other waiting
    exact covering.waiting other (List.mem_filter.mp waiting).1
  · intro other required
    rcases covering.settled other required with waiting | ⟨chosen, earlier, inside⟩
    · by_cases covers : other ∈ orderedSubsequences best model.strength
      · exact .inr ⟨best, by simp, (mem_orderedSubsequences.1 covers).1⟩
      · exact .inl (List.mem_filter.mpr ⟨waiting, by simpa using covers⟩)
    · exact .inr ⟨chosen, List.mem_append_left _ earlier, inside⟩
  · rw [← same] at positive
    obtain ⟨covered, newly⟩ := List.exists_mem_of_length_pos positive
    obtain ⟨inside, pending⟩ := List.mem_filter.mp newly
    exact List.length_filter_lt_length_iff_exists.mpr
      ⟨covered, of_decide_eq_true pending, by simpa using inside⟩

theorem selection_succeeds {texts : List Text} (exact_ : model.Exact texts) :
    ∃ final, Loop.run (model.turn stableKey) (model.required.length + 1)
        { uncovered := model.required, selected := [] } = some (.ok final) ∧
      final.Covering model ∧ final.uncovered = [] := by
  refine run_succeeds (P := fun s => Selection.Covering model s)
    (Q := fun s => Selection.Covering model s ∧ s.uncovered = [])
    (fun s => s.uncovered.length) ?_ (fun s covering => ?_) (Nat.lt_succ_self _)
  · exact ⟨by simp, fun tuple member => member, fun tuple member => .inl member⟩
  · by_cases more : s.uncovered = []
    · refine .inl ⟨s, ?_, covering, more⟩
      rw [SequenceModel.turn, more]
    · exact .inr (turn_again stableKey exact_ covering more)

/-- What the cover owes for the actions and limits it was asked for. -/
structure SequenceCover.Covers (cover : SequenceCover) (texts : List Text) : Prop where
  selected : ∀ sequence ∈ cover.sequences, ValidWithin texts cover.maxActions sequence
  required : ∀ tuple, tuple ∈ cover.requiredTuples ↔ tuple.length = cover.interactionStrength ∧
    ∃ sequence, ValidWithin texts cover.maxActions sequence ∧ tuple.Sublist sequence
  excluded : ∀ tuple, tuple ∈ cover.excludedTuples ↔ (tuple.length = cover.interactionStrength ∧
    ∀ action ∈ tuple, action.name ∈ texts) ∧ tuple ∉ cover.requiredTuples
  covered : ∀ tuple ∈ cover.requiredTuples, ∃ sequence ∈ cover.sequences, tuple.Sublist sequence

/-- For actions and limits that are accepted the selection ends, and covers
exactly the ordered tuples that occur in valid sequences. -/
theorem event_sequences_cover {texts : List Text} {maxActions strength seed : Value}
    (prepared : prepareSequences texts maxActions strength seed = .ok model) :
    ∃ cover : SequenceCover,
      (∃ enough, ∀ fuel ≥ enough,
        generateEventSequences stableKey texts maxActions strength seed fuel = some (.ok cover)) ∧
      maxActions = .int cover.maxActions ∧ strength = .int cover.interactionStrength ∧
      cover.Covers texts := by
  obtain ⟨limit, size, exact_⟩ := prepareSequences_ok prepared
  obtain ⟨final, ran, covering, done⟩ := selection_succeeds stableKey exact_
  have sorted : ∀ {tuples : List ActionTuple} {tuple},
      tuple ∈ tuples.insertionSort actionsLe ↔ tuple ∈ tuples := (List.perm_insertionSort _ _).mem_iff
  refine ⟨model.finish final, ⟨model.required.length + 1, fun fuel enough => ?_⟩, limit, size, ?_, ?_, ?_, ?_⟩
  · rw [generateEventSequences, prepared]
    dsimp only
    rw [run_mono ran enough]
    rfl
  · exact fun sequence member => (exact_.candidates sequence).mp (covering.selected sequence member)
  · intro tuple
    simp only [SequenceModel.finish, sorted, exact_.required, exact_.candidates]
  · intro tuple
    simp only [SequenceModel.finish, sorted, exact_.excluded]
  · intro tuple member
    rcases covering.settled tuple (sorted.mp member) with waiting | covered
    · rw [done] at waiting
      cases waiting
    · exact covered

end selection

/-- Three actions, pairs of which are covered by calls of at most three actions. -/
theorem three_actions_cover :
    ∃ cover : SequenceCover,
      (∃ enough, ∀ fuel ≥ enough, generateEventSequences (fun _ _ _ => (0 : Nat))
        ["hold", "resume", "hangup"] (.int 3) (.int 2) (.int 0) fuel = some (.ok cover)) ∧
      Value.int 3 = .int cover.maxActions ∧ Value.int 2 = .int cover.interactionStrength ∧
      cover.Covers ["hold", "resume", "hangup"] := by
  obtain ⟨model, prepared⟩ := isOk_iff.mp (show (prepareSequences ["hold", "resume", "hangup"]
    (.int 3) (.int 2) (.int 0)).isOk = true by decide +kernel)
  exact event_sequences_cover _ prepared

end Sippycup.Campaign
