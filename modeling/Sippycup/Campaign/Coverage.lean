import Sippycup.Campaign.Rows

/-! The covering loop: every round covers its target, so the loop ends with
every required tuple covered, unless a factor listed twice demands two values
of it at once. Such a tuple is classified by its last value and never covered. -/
namespace Sippycup.Campaign
open Sippycup.Python Sippycup.Backtrack Sippycup.Loop

variable {matrix : Matrix} {item : FactorTuple} {row : Assignment Factor Scalar}

theorem mem_tuplesOf {domains : Domains} {factors : List Factor} :
    item ∈ tuplesOf domains factors ↔
      item.map Prod.fst = factors ∧ ∀ entry ∈ item, entry.2 ∈ domains entry.1 := by
  induction factors generalizing item with
  | nil =>
    simp only [tuplesOf, List.mem_singleton, List.map_eq_nil_iff]
    constructor
    · rintro rfl
      simp
    · exact fun same => same.1
  | cons factor rest ih =>
    simp only [tuplesOf, List.mem_flatMap, List.mem_map, ih]
    constructor
    · rintro ⟨v, member, tail, ⟨rfl, inside⟩, rfl⟩
      refine ⟨rfl, fun entry among => ?_⟩
      rcases List.mem_cons.mp among with rfl | later
      · exact member
      · exact inside entry later
    · rintro ⟨same, inside⟩
      cases item with
      | nil => cases same
      | cons entry tail =>
        simp only [List.map_cons, List.cons.injEq] at same
        obtain ⟨rfl, rfl⟩ := same
        exact ⟨entry.2, inside entry List.mem_cons_self, tail,
          ⟨rfl, fun e among => inside e (List.mem_cons_of_mem _ among)⟩, rfl⟩

theorem fixedBy_concat (entry : Factor × Scalar) :
    fixedBy (item ++ [entry]) = Function.update (fixedBy item) entry.1 (some entry.2) := by
  simp [fixedBy, List.foldl_append]

/-- `dict(item)` holds exactly the tuple's values when it repeats none differently. -/
theorem fixedBy_mem {factor : Factor} {v : Scalar} (fixed : fixedBy item factor = some v) :
    (factor, v) ∈ item := by
  induction item using List.reverseRecOn with
  | nil => cases fixed
  | append_singleton earlier entry ih =>
    rw [fixedBy_concat] at fixed
    by_cases same : factor = entry.1
    · subst same
      rw [Function.update_self, Option.some.injEq] at fixed
      subst fixed
      simp
    · rw [Function.update_of_ne same] at fixed
      exact List.mem_append_left _ (ih fixed)

theorem fixedBy_assigned {factor : Factor} (member : factor ∈ item.map Prod.fst) :
    ∃ v, fixedBy item factor = some v := by
  induction item using List.reverseRecOn with
  | nil => cases member
  | append_singleton earlier entry ih =>
    rw [fixedBy_concat]
    by_cases same : factor = entry.1
    · exact ⟨entry.2, by rw [same, Function.update_self]⟩
    · rw [List.map_append, List.mem_append] at member
      rw [Function.update_of_ne same]
      refine ih (member.resolve_right ?_)
      simpa using same

/-- A tuple that gives each of its factors one value. -/
def Consistent (item : FactorTuple) : Prop :=
  ∀ entry ∈ item, ∀ other ∈ item, entry.1 = other.1 → entry.2 = other.2

theorem covers_iff : assignmentCovers row item = true ↔ ∀ entry ∈ item, row entry.1 = some entry.2 := by
  simp [assignmentCovers, List.all_eq_true]

/-- A row that extends a consistent tuple covers it. -/
theorem covers_of_extends (consistent : Consistent item) (extends_ : Extends (fixedBy item) row) :
    assignmentCovers row item = true := by
  rw [covers_iff]
  intro entry member
  obtain ⟨v, fixed⟩ := fixedBy_assigned (List.mem_map_of_mem member)
  have same : v = entry.2 := consistent _ (fixedBy_mem fixed) entry member rfl
  rw [extends_ _ _ fixed, same]

theorem extends_of_covers (covers : assignmentCovers row item = true) :
    Extends (fixedBy item) row := by
  intro factor v fixed
  exact covers_iff.1 covers _ (fixedBy_mem fixed)

theorem consistent_of_covers (covers : assignmentCovers row item = true) : Consistent item := by
  intro entry member other also same
  have first := covers_iff.1 covers entry member
  have second := covers_iff.1 covers other also
  rw [same, second] at first
  exact (Option.some.inj first).symm

theorem mem_requestedSubsets {factors : List Factor} :
    factors ∈ requestedSubsets matrix ↔
      (factors.Sublist matrixFactors ∧ factors.length = matrix.interactionStrength) ∨
        ∃ risk ∈ matrix.riskWeights, ∃ covering r, risk.covering = some (covering, r) ∧
          factors.Sublist covering ∧ factors.length = r := by
  unfold requestedSubsets
  rw [(List.perm_insertionSort _ _).mem_iff, List.mem_dedup, List.mem_append, List.mem_sublistsLen]
  simp only [List.mem_flatMap, List.mem_filterMap, List.mem_sublistsLen, Prod.exists]
  refine or_congr_right ⟨?_, ?_⟩
  · rintro ⟨covering, r, ⟨risk, member, same⟩, chosen⟩
    exact ⟨risk, member, covering, r, same, chosen⟩
  · rintro ⟨risk, member, covering, r, same, chosen⟩
    exact ⟨covering, r, ⟨risk, member, same⟩, chosen⟩

theorem mem_requestedTuples :
    item ∈ requestedTuples matrix ↔ item.map Prod.fst ∈ requestedSubsets matrix ∧
      ∀ entry ∈ item, entry.2 ∈ matrix.factors entry.1 := by
  simp only [requestedTuples, List.mem_flatMap, mem_tuplesOf]
  constructor
  · rintro ⟨factors, requested, rfl, inside⟩
    exact ⟨requested, inside⟩
  · rintro ⟨requested, inside⟩
    exact ⟨_, requested, rfl, inside⟩

/-- A factor listed more than once in a risk's covering factors has one value. -/
def RepeatsAreSingle (matrix : Matrix) : Prop :=
  ∀ risk ∈ matrix.riskWeights, ∀ covering r, risk.covering = some (covering, r) →
    ∀ factor, 2 ≤ covering.count factor →
      ∀ v ∈ matrix.factors factor, ∀ w ∈ matrix.factors factor, v = w

theorem repeated_of_ne {factors : List Factor} {entry other : Factor × Scalar}
    (first : entry ∈ item) (second : other ∈ item) (same : entry.1 = other.1)
    (different : entry.2 ≠ other.2) (within : (item.map Prod.fst).Sublist factors) :
    2 ≤ factors.count entry.1 := by
  refine le_trans ?_ (within.count_le entry.1)
  have apart : entry ≠ other := fun equal => different (by rw [equal])
  obtain ⟨before, after, rfl⟩ := List.append_of_mem first
  have elsewhere : other ∈ before ++ after := by
    rcases List.mem_append.mp second with earlier | later
    · exact List.mem_append_left _ earlier
    · exact List.mem_append_right _ ((List.mem_cons.mp later).resolve_left (Ne.symm apart))
  have once : 0 < ((before ++ after).map Prod.fst).count entry.1 := by
    rw [List.count_pos_iff, same]
    exact List.mem_map_of_mem elsewhere
  simp only [List.map_append, List.map_cons, List.count_append, List.count_cons_self] at once ⊢
  omega

theorem consistent_of_single (single : RepeatsAreSingle matrix)
    (requested : item ∈ requestedTuples matrix) : Consistent item := by
  obtain ⟨subset, inside⟩ := mem_requestedTuples.1 requested
  intro entry first other second same
  by_contra different
  rcases mem_requestedSubsets.1 subset with ⟨within, _⟩ | ⟨risk, member, covering, r, has, within, _⟩
  · have twice := repeated_of_ne first second same different within
    have once := List.nodup_iff_count_le_one.mp matrixFactors_nodup entry.1
    omega
  · have twice := repeated_of_ne first second same different within
    exact different (single risk member covering r has entry.1 twice _ (inside entry first) _
      (same ▸ inside other second))

section
variable {κ : Type} [LinearOrder κ] {stableKey : Nat → String → Value → κ} {seed : Nat}

/-- Some permitted row extends what the tuple fixes. -/
def Completes (matrix : Matrix) (item : FactorTuple) : Prop :=
  ∃ row, Permitted matrix row ∧ Extends (fixedBy item) row

variable (stableKey seed) in
theorem completes_iff (namespace_ : String) (uncovered : List FactorTuple)
    (inside : ∀ entry ∈ item, entry.2 ∈ matrix.factors entry.1) :
    (∃ row, completeAssignment stableKey matrix (fixedBy item) seed namespace_ uncovered = some row) ↔
      Completes matrix item := by
  constructor
  · rintro ⟨row, completed⟩
    exact ⟨row, completeAssignment_sound
      (fun factor v fixed => inside _ (fixedBy_mem fixed)) completed⟩
  · rintro ⟨row, permitted, extends_⟩
    exact completeAssignment_complete permitted extends_

theorem classify_ok {items required result : List FactorTuple}
    {excluded others : List ExcludedFactorTuple}
    (inside : ∀ item ∈ items, ∀ entry ∈ item, entry.2 ∈ matrix.factors entry.1)
    (ok : classify stableKey matrix seed items required excluded = .ok (result, others)) :
    ∀ item, item ∈ result ↔ item ∈ required ∨ item ∈ items ∧ Completes matrix item := by
  induction items generalizing required excluded with
  | nil =>
    cases ok
    simp
  | cons first rest ih =>
    have later := fun item member => inside item (List.mem_cons_of_mem first member)
    have completes :=
      completes_iff stableKey seed "classify" [] (inside first List.mem_cons_self)
    simp only [classify] at ok
    split at ok
    · cases ok
    · split at ok
      · rename_i row completed
        have yes := completes.mp ⟨row, completed⟩
        intro item
        rw [ih later ok item, List.mem_cons]
        have kept : item ∈ (if first ∈ required then required else required ++ [first]) ↔
            item ∈ required ∨ item = first := by
          split
          · rename_i already
            constructor
            · exact .inl
            · rintro (earlier | rfl)
              · exact earlier
              · exact already
          · simp
        rw [kept, or_and_right, or_assoc]
        refine or_congr_right (or_congr_left ?_)
        constructor
        · rintro rfl
          exact ⟨rfl, yes⟩
        · exact And.left
      · rename_i none
        have no : ¬ Completes matrix first := by
          rw [← completes, none]
          simp
        intro item
        rw [ih later ok item, List.mem_cons]
        refine or_congr_right ?_
        constructor
        · exact fun found => ⟨.inr found.1, found.2⟩
        · rintro ⟨rfl | among, found⟩
          · exact absurd found no
          · exact ⟨among, found⟩

theorem leastBy_mem (key : FactorTuple → κ) (best : FactorTuple) (rest : List FactorTuple) :
    leastBy key best rest ∈ best :: rest := by
  induction rest generalizing best with
  | nil => exact List.mem_cons_self
  | cons item rest ih =>
    rw [leastBy]
    have among := ih (if key item < key best then item else best)
    rcases List.mem_cons.mp among with found | later
    · rw [found]
      split <;> simp
    · exact List.mem_cons_of_mem _ (List.mem_cons_of_mem _ later)

/-- The state of the loop: rows are permitted, and every required tuple waits
or is covered. -/
structure Covering (matrix : Matrix) (required : List FactorTuple) (c : Cover) : Prop where
  rows : ∀ row ∈ c.rows, Permitted matrix row
  waiting : ∀ item ∈ c.uncovered, item ∈ required
  settled : ∀ item ∈ required, item ∈ c.uncovered ∨ ∃ row ∈ c.rows, assignmentCovers row item = true

/-- A round covers its target, so fewer tuples wait. -/
theorem coverTurn_again {required : List FactorTuple} {c : Cover}
    (completable : ∀ item ∈ required, Consistent item ∧ Completes matrix item ∧
      ∀ entry ∈ item, entry.2 ∈ matrix.factors entry.1)
    (covering : Covering matrix required c) (more : c.uncovered ≠ []) :
    ∃ next, coverTurn stableKey matrix seed c = .ok (.again next) ∧
      Covering matrix required next ∧ next.uncovered.length < c.uncovered.length := by
  obtain ⟨rows, uncovered, rowNumber⟩ := c
  cases uncovered with
  | nil => exact absurd rfl more
  | cons first rest =>
    have member := leastBy_mem
      (fun item => stableKey seed s!"target:{rowNumber + 1}" (tupleKeyValue item)) first rest
    generalize target_ : leastBy (fun item => stableKey seed s!"target:{rowNumber + 1}"
      (tupleKeyValue item)) first rest = target at member
    obtain ⟨consistent, completes, inside⟩ := completable target (covering.waiting target member)
    obtain ⟨row, completed⟩ := (completes_iff stableKey seed s!"row:{rowNumber + 1}" (first :: rest)
      inside).mpr completes
    obtain ⟨permitted, extends_⟩ := completeAssignment_sound
      (fun factor v fixed => inside _ (fixedBy_mem fixed)) completed
    have covered := covers_of_extends consistent extends_
    refine ⟨⟨rows ++ [row], (first :: rest).filter fun item => !assignmentCovers row item,
      rowNumber + 1⟩, ?_, ⟨?_, ?_, ?_⟩, ?_⟩
    · simp only [coverTurn, target_, completed]
    · intro other among
      rcases List.mem_append.mp among with earlier | last
      · exact covering.rows other earlier
      · rwa [List.mem_singleton.mp last]
    · intro item among
      exact covering.waiting item (List.mem_filter.mp among).1
    · intro item among
      rcases covering.settled item among with waiting | ⟨other, earlier, done⟩
      · cases now : assignmentCovers row item with
        | true => exact .inr ⟨row, by simp, now⟩
        | false => exact .inl (List.mem_filter.mpr ⟨waiting, by simp [now]⟩)
      · exact .inr ⟨other, List.mem_append_left _ earlier, done⟩
    · refine List.length_filter_lt_length_iff_exists.mpr ⟨target, member, ?_⟩
      simp [covered]

/-- What the generator owes for an accepted matrix. -/
structure CoveringArray.Covers (matrix : Matrix) (array : CoveringArray) : Prop where
  rows : ∀ row ∈ array.rows, Permitted matrix row
  covered : ∀ item ∈ requestedTuples matrix,
    (∃ row, Permitted matrix row ∧ assignmentCovers row item = true) →
      ∃ row ∈ array.rows, assignmentCovers row item = true

/-- For a matrix accepted and classified, the loop ends and covers. -/
def TerminatesAndCovers (stableKey : Nat → String → Value → κ) (value seed : Value) : Prop :=
  ∀ prepared, prepareCovering stableKey value seed = .ok prepared →
    ∃ fuel array, generateCoveringArray stableKey value seed fuel = some (.ok array) ∧
      array.Covers prepared.matrix

theorem prepareCovering_ok {value seed : Value} {prepared : Prepared}
    (ok : prepareCovering stableKey value seed = .ok prepared) :
    prepared.matrix.Accepted ∧ ∀ item, item ∈ prepared.required ↔
      item ∈ requestedTuples prepared.matrix ∧ Completes prepared.matrix item := by
  cases seed with
  | int n =>
    simp only [prepareCovering] at ok
    split at ok
    · cases ok
    · simp only [bind_ok, pure_ok] at ok
      obtain ⟨_, _, _, _, authorized, _, matrix, accepted, ⟨required, excluded⟩, classified, rfl⟩ := ok
      have requested := classify_ok (fun item member => (mem_requestedTuples.1 member).2) classified
      exact ⟨validateMatrix_ok accepted, by simpa using requested⟩
  | _ => cases ok

theorem Prepared.start_covering {prepared : Prepared} (accepted : prepared.matrix.Accepted) :
    Covering prepared.matrix prepared.required prepared.start where
  rows := by
    intro row member
    obtain ⟨item, among, rfl⟩ := List.mem_map.mp member
    exact accepted.mandatory item among
  waiting := fun item member => (List.mem_filter.mp member).1
  settled := by
    intro item member
    simp only [Prepared.start, List.mem_filter, member, true_and, Bool.not_eq_true']
    cases covered : (prepared.matrix.mandatoryCases.map fun item => ofTotal item.values).any
        fun row => assignmentCovers row item with
    | false => exact .inl rfl
    | true => exact .inr (List.any_eq_true.mp covered)

theorem terminates_of_single {value seed : Value}
    (single : ∀ prepared, prepareCovering stableKey value seed = .ok prepared →
      RepeatsAreSingle prepared.matrix) : TerminatesAndCovers stableKey value seed := by
  intro prepared ok
  obtain ⟨accepted, required⟩ := prepareCovering_ok ok
  have completable : ∀ item ∈ prepared.required, Consistent item ∧ Completes prepared.matrix item ∧
      ∀ entry ∈ item, entry.2 ∈ prepared.matrix.factors entry.1 := by
    intro item member
    obtain ⟨requested, completes⟩ := (required item).mp member
    exact ⟨consistent_of_single (single prepared ok) requested, completes,
      (mem_requestedTuples.1 requested).2⟩
  have step : ∀ c, Covering prepared.matrix prepared.required c →
      (∃ t, coverTurn stableKey prepared.matrix prepared.seed c = .ok (.leave t) ∧
        Covering prepared.matrix prepared.required t ∧ t.uncovered = []) ∨
      ∃ t, coverTurn stableKey prepared.matrix prepared.seed c = .ok (.again t) ∧
        Covering prepared.matrix prepared.required t ∧ t.uncovered.length < c.uncovered.length := by
    intro c covering
    by_cases none : c.uncovered = []
    · exact .inl ⟨c, by simp [coverTurn, none], covering, none⟩
    · exact .inr (coverTurn_again completable covering none)
  obtain ⟨final, ran, covering, done⟩ :=
    run_succeeds (fun c => c.uncovered.length) (Prepared.start_covering accepted) step
      (Nat.lt_succ_self _)
  refine ⟨prepared.start.uncovered.length + 1, prepared.finish final, ?_, ?_⟩
  · rw [generateCoveringArray, ok]
    simp only [ran, Option.map_some, Except.map]
  refine ⟨covering.rows, fun item requested ⟨row, permitted, covers⟩ => ?_⟩
  have member := (required item).mpr ⟨requested, row, permitted, extends_of_covers covers⟩
  rcases covering.settled item member with waiting | covered
  · rw [done] at waiting
    cases waiting
  · exact covered

/-- Between a sublist and its list there are sublists of every length. -/
theorem sublist_of_length {α : Type} {inner outer : List α} (within : inner.Sublist outer)
    {count : Nat} (least : inner.length ≤ count) (most : count ≤ outer.length) :
    ∃ middle : List α, inner.Sublist middle ∧ middle.Sublist outer ∧ middle.length = count := by
  induction within generalizing count with
  | slnil => exact ⟨[], .slnil, .slnil, by simp_all⟩
  | @cons inner outer a within ih =>
    rcases Nat.lt_or_ge outer.length count with all | some_
    · exact ⟨a :: outer, within.cons a, List.Sublist.refl _, by
        simp only [List.length_cons] at most ⊢
        omega⟩
    · obtain ⟨middle, above, below, length⟩ := ih least some_
      exact ⟨middle, above, below.cons a, length⟩
  | @cons_cons inner outer a within ih =>
    cases count with
    | zero => simp at least
    | succ count =>
      obtain ⟨middle, above, below, length⟩ := ih (by simpa using least) (by simpa using most)
      exact ⟨a :: middle, above.cons_cons a, below.cons_cons a, by simp [length]⟩

theorem fixedBy_append (xs ys : FactorTuple) (factor : Factor) :
    fixedBy (xs ++ ys) factor = (fixedBy ys factor).or (fixedBy xs factor) := by
  induction ys using List.reverseRecOn with
  | nil => simp [fixedBy]
  | append_singleton ys entry ih =>
    rw [← List.append_assoc, fixedBy_concat, fixedBy_concat]
    by_cases same : factor = entry.1
    · rw [same, Function.update_self, Function.update_self]
      rfl
    · rw [Function.update_of_ne same, Function.update_of_ne same, ih]

/-- A factor listed twice with two values in its domain gives a requested tuple
that completes by its last value and that no row covers. -/
theorem conflicting_tuple (accepted : matrix.Accepted) {risk : RiskWeight}
    (member : risk ∈ matrix.riskWeights) {covering : List Factor} {r : Nat}
    (has : risk.covering = some (covering, r)) {factor : Factor} (twice : 2 ≤ covering.count factor)
    {v w : Scalar} (first : v ∈ matrix.factors factor) (second : w ∈ matrix.factors factor)
    (different : v ≠ w) :
    ∃ item ∈ requestedTuples matrix, Completes matrix item ∧ ¬ Consistent item := by
  obtain ⟨row, permitted⟩ := accepted.satisfiable
  choose value inside assigned using permitted.total
  obtain ⟨a, among, other⟩ : ∃ a ∈ matrix.factors factor, a ≠ value factor := by
    by_cases same : v = value factor
    · exact ⟨w, second, fun also => different (same.trans also.symm)⟩
    · exact ⟨v, first, same⟩
  obtain ⟨strength, most⟩ := accepted.covering risk member covering r has
  have positive := accepted.strength
  have least : (List.replicate 2 factor).length ≤ r := by
    rw [List.length_replicate]
    omega
  obtain ⟨subset, pair, within, length⟩ :=
    sublist_of_length (List.replicate_sublist_iff.mpr twice) least most
  obtain ⟨early, late, rfl, inEarly, inLate⟩ := List.cons_sublist_iff.mp pair
  have inLate : factor ∈ late := List.singleton_sublist.mp inLate
  let before : FactorTuple := early.map fun g => (g, if g = factor then a else value g)
  let after : FactorTuple := late.map fun g => (g, value g)
  have afterMem : ∀ {g x}, (g, x) ∈ after → g ∈ late ∧ x = value g := by
    intro g x found
    obtain ⟨h, at_, same⟩ := List.mem_map.mp found
    cases same
    exact ⟨at_, rfl⟩
  have beforeMem : ∀ {g x}, (g, x) ∈ before → x = if g = factor then a else value g := by
    intro g x found
    obtain ⟨h, _, same⟩ := List.mem_map.mp found
    cases same
    rfl
  refine ⟨before ++ after, mem_requestedTuples.2 ⟨mem_requestedSubsets.2 ?_, ?_⟩, ?_, ?_⟩
  · refine .inr ⟨risk, member, covering, r, has, ?_⟩
    have names : (before ++ after).map Prod.fst = early ++ late := by
      simp [before, after, Function.comp_def]
    rw [names]
    exact ⟨within, length⟩
  · rintro ⟨g, x⟩ found
    rcases List.mem_append.mp found with earlier | later
    · obtain rfl := beforeMem earlier
      split
      · rename_i same
        subst same
        exact among
      · exact inside g
    · obtain ⟨_, rfl⟩ := afterMem later
      exact inside g
  · refine ⟨row, permitted, fun g x fixed => ?_⟩
    rw [fixedBy_append] at fixed
    cases last : fixedBy after g with
    | some y =>
      rw [last, Option.some_or, Option.some.injEq] at fixed
      obtain ⟨_, rfl⟩ := afterMem (fixedBy_mem last)
      rw [← fixed]
      exact assigned g
    | none =>
      rw [last, Option.none_or] at fixed
      obtain rfl := beforeMem (fixedBy_mem fixed)
      -- the repeated factor is fixed by its later occurrence
      rw [if_neg, assigned g]
      rintro rfl
      have assigned : g ∈ after.map Prod.fst := by
        simpa [after, Function.comp_def] using inLate
      obtain ⟨y, some_⟩ := fixedBy_assigned assigned
      rw [last] at some_
      cases some_
  · intro consistent
    refine other (consistent (factor, a) ?_ (factor, value factor) ?_ rfl)
    · refine List.mem_append_left _ (List.mem_map.mpr ⟨factor, inEarly, by simp⟩)
    · exact List.mem_append_right _ (List.mem_map.mpr ⟨factor, inLate, rfl⟩)

/-- A required tuple that no row covers keeps the loop going. -/
theorem coverTurn_keeps {c next : Cover} (conflicting : ¬ Consistent item)
    (waiting : item ∈ c.uncovered) (turn : coverTurn stableKey matrix seed c = .ok (.again next)) :
    item ∈ next.uncovered := by
  unfold coverTurn at turn
  split at turn
  · cases turn
  · dsimp only at turn
    split at turn
    · cases turn
    · rename_i completed _
      cases turn
      refine List.mem_filter.mpr ⟨waiting, ?_⟩
      cases covers : assignmentCovers completed item with
      | false => rfl
      | true => exact absurd (consistent_of_covers covers) conflicting

theorem single_of_terminates {value seed : Value}
    (terminates : TerminatesAndCovers stableKey value seed) {prepared : Prepared}
    (ok : prepareCovering stableKey value seed = .ok prepared) : RepeatsAreSingle prepared.matrix := by
  intro risk member covering r has factor twice v first w second
  by_contra different
  obtain ⟨accepted, required⟩ := prepareCovering_ok ok
  obtain ⟨item, requested, completes, conflicting⟩ :=
    conflicting_tuple accepted member has twice first second different
  obtain ⟨fuel, array, generated, _⟩ := terminates prepared ok
  rw [generateCoveringArray, ok, Option.map_eq_some_iff] at generated
  obtain ⟨outcome, ran, mapped⟩ := generated
  cases outcome with
  | error raised => cases mapped
  | ok final =>
    obtain ⟨c, reached, left⟩ := run_leaves ran
    have waits : item ∈ c.uncovered := by
      refine reached.invariant (P := fun c => item ∈ c.uncovered) ?_ ?_
      · refine List.mem_filter.mpr ⟨(required item).mpr ⟨requested, completes⟩, ?_⟩
        simp only [Bool.not_eq_true', List.any_eq_false]
        exact fun row _ covers => conflicting (consistent_of_covers covers)
      · exact fun c next _ waiting turn => coverTurn_keeps conflicting waiting turn
    unfold coverTurn at left
    split at left
    · rename_i none
      rw [none] at waits
      cases waits
    · dsimp only at left
      split at left <;> cases left

/-- The loop ends with a covering array exactly when no factor listed twice has
more than one value. -/
theorem covering_terminates_iff (stableKey : Nat → String → Value → κ) (value seed : Value) :
    TerminatesAndCovers stableKey value seed ↔
      ∀ prepared, prepareCovering stableKey value seed = .ok prepared →
        RepeatsAreSingle prepared.matrix :=
  ⟨fun terminates _ ok => single_of_terminates terminates ok, terminates_of_single⟩

end
open Dict (entry) in
/-- One value for each factor but the codec, and a risk that names the codec twice. -/
def repeatedCodec : Value :=
  .dict [entry "interactionStrength" (.int 1),
    entry "factors" (.dict [entry "transport" (.list [.str "udp"]),
      entry "addressFamily" (.list [.str "ipv4"]),
      entry "codec" (.list [.str "pcmu", .str "pcma"]), entry "ptime" (.list [.int 20]),
      entry "mediaProtection" (.list [.str "plain"]), entry "dtmf" (.list [.str "none"]),
      entry "earlyMedia" (.list [.str "disabled"]), entry "holdReinvite" (.list [.str "disabled"]),
      entry "teardownInitiator" (.list [.str "caller"]), entry "duration" (.list [.int 5]),
      entry "nat" (.list [.str "none"]), entry "impairment" (.list [.str "none"])]),
    entry "riskWeights" (.list [.dict [entry "id" (.str "codec-pairs"),
      entry "when" (.dict [entry "codec" (.str "pcmu")]), entry "weight" (.int 1),
      entry "rationale" (.str "codec"),
      entry "coveringFactors" (.list [.str "codec", .str "codec "]),
      entry "interactionStrength" (.int 2)]])]

/-- The names differ before stripping only, so the matrix is accepted and its
covering loop never ends. -/
theorem repeated_codec_never_ends :
    ¬ TerminatesAndCovers (fun _ _ _ => 0 : Nat → String → Value → Nat) repeatedCodec (.int 0) := by
  have prepared : (match prepareCovering (fun _ _ _ => (0 : Nat)) repeatedCodec (.int 0) with
      | .ok prepared => decide (prepared.matrix.factors .codec = [.text "pcma", .text "pcmu"]) &&
        prepared.matrix.riskWeights.any fun risk =>
          decide (risk.covering = some ([Factor.codec, .codec], 2))
      | .error _ => false) = true := by decide +kernel
  intro terminates
  split at prepared
  · rename_i prepared_ ok
    simp only [Bool.and_eq_true, decide_eq_true_eq, List.any_eq_true] at prepared
    obtain ⟨domain, risk, member, has⟩ := prepared
    have single := single_of_terminates terminates ok risk member _ _ has .codec (by decide)
      (.text "pcma") (by simp [domain]) (.text "pcmu") (by simp [domain])
    simp at single
  · cases prepared

end Sippycup.Campaign
