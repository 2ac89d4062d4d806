import Sippycup.Torture.Safety

/-! The trials that a result reports are those of the last candidate tested,
which is the reproducer unless the budget refuses its confirmation. -/
namespace Sippycup.Torture.Minimizer
variable {ω : Type} (m : Minimizer ω)

/-- Another test of the candidate is within the budget. -/
def Affords (progress : Progress ω) (candidate : Reproducer) : Prop :=
  progress.candidates < m.limits.maxCandidates ∧
    progress.totalPackets + m.source.authorization.maxPacketsPerTrial * m.limits.trials ≤
      m.limits.maxTotalPackets ∧
    progress.totalBytes + candidate.wireBytes.length * m.limits.trials ≤ m.limits.maxTotalBytes

/-- The frames that `write_bundle` stores, trial by trial. -/
def captureFrames (progress : Progress ω) : List (List Bytes) :=
  progress.finalTrials.map TrialResult.captureFrames

/-- The outcomes of the result and the frames of the bundle come from one test, of the wire bytes
and dimensions that the result presents. -/
def Belongs (result : Result) (progress : Progress ω) : Prop :=
  ∃ test, progress.tests.getLast? = some test ∧
    result.actualOutcomes = test.results.map TrialResult.actualOutcome ∧
      captureFrames progress = test.results.map TrialResult.captureFrames ∧
        test.candidate.wireBytes = result.wireBytes ∧ test.candidate.dimensions = result.dimensions

/-- The reproducer and the progress when its confirmation begins, in a run that comes to it. -/
def confirming (world : ω) : Option (Reproducer × Progress ω) :=
  match m.test (start world) m.source "baseline" with
  | .error _ => none
  | .ok (baseline, progress) =>
    if baseline.failures < m.limits.quorum ∨ baseline.classification = .flaky then none
    else
      match m.reduceLevels (progress.adopt m.source) m.source
          [.sections, .headers, .bodyLines, .values] with
      | .error _ => none
      | .ok (current, progress) =>
        (m.reduceDimensions progress current [] current.dimensions).toOption

/-- The trials kept are those of the last test. -/
def Recorded (progress : Progress ω) : Prop :=
  progress.finalTrials = (progress.tests.getLast?.map Tested.results).getD []

variable {m} {progress after : Progress ω} {candidate current reduced : Reproducer}

/-- A test either is the last one afterwards or is refused and changes nothing. -/
theorem test_last (progress : Progress ω) (within : m.Within candidate) (level : String) :
    ∃ verdict after, m.test progress candidate level = .ok (verdict, after) ∧
      ((m.Affords progress candidate ∧ ∃ results,
          after.tests = progress.tests ++ [⟨candidate, results⟩] ∧ after.finalTrials = results) ∨
        ¬ m.Affords progress candidate ∧ after = progress ∧ verdict.failures = 0) := by
  unfold test
  by_cases spent : m.limits.maxCandidates ≤ progress.candidates
  · rw [if_pos spent]
    exact ⟨_, progress, rfl, .inr ⟨fun affords => by have := affords.1; omega, rfl, rfl⟩⟩
  have sublist : candidate.wireBytes.isSublist m.source.wireBytes = true :=
    List.isSublist_iff_sublist.mpr within.bytes
  have known : candidate.dimensions.all (· ∈ m.source.dimensions) = true :=
    List.all_eq_true.mpr fun d member => decide_eq_true (within.dimensions.subset member)
  rw [if_neg spent, if_neg (by simp [sublist]), if_neg (by simp only [known]; simp),
    if_neg (not_not.mpr within.authorization)]
  dsimp only
  split
  · rename_i costly
    refine ⟨_, progress, rfl, .inr ⟨fun affords => ?_, rfl, rfl⟩⟩
    have packets := affords.2.1
    have bytes := affords.2.2
    omega
  · rename_i affordable
    rw [not_or] at affordable
    refine ⟨_, _, rfl, .inl ⟨⟨Nat.lt_of_not_le spent, Nat.le_of_not_lt affordable.1,
      Nat.le_of_not_lt affordable.2⟩, _, rfl, rfl⟩⟩

theorem test_recorded {verdict : Verdict} {level : String} (recorded : Recorded progress)
    (tested : m.test progress candidate level = .ok (verdict, after)) : Recorded after := by
  unfold test at tested
  split at tested
  · cases tested
    exact recorded
  split at tested
  · cases tested
  split at tested
  · cases tested
  split at tested
  · cases tested
  dsimp only at tested
  split at tested
  · cases tested
    exact recorded
  · cases tested
    rw [Recorded, List.getLast?_concat]
    rfl

theorem tryRemovals_recorded {found : Option Reproducer} {level : Level}
    {removals : List (List (Nat × Nat))} (recorded : Recorded progress)
    (tried : m.tryRemovals progress current level removals = .ok (found, after)) :
    Recorded after := by
  induction removals generalizing progress with
  | nil =>
    cases tried
    exact recorded
  | cons removal rest ih =>
    rw [tryRemovals] at tried
    dsimp only at tried
    split at tried
    · exact ih recorded tried
    · split at tried
      · cases tried
      · rename_i ran
        have kept := test_recorded recorded ran
        split at tried
        · cases tried
          exact kept
        · exact ih kept tried

theorem partition_recorded {found : Option Reproducer} {level : Level} {spans : List (Nat × Nat)}
    {partitions : Nat} {positive : 0 < partitions} (recorded : Recorded progress)
    (cut : m.partition progress current level spans partitions positive = .ok (found, after)) :
    Recorded after := by
  fun_induction m.partition progress current level spans partitions positive with
  | case1 => cases cut
  | case2 progress partitions positive within width reduced tested tried =>
    cases cut
    exact tryRemovals_recorded recorded tried
  | case3 =>
    cases cut
    rename_i tried
    exact tryRemovals_recorded recorded tried
  | case4 progress partitions positive within width tested tried finer ih =>
    exact ih (tryRemovals_recorded recorded tried) cut
  | case5 =>
    cases cut
    exact recorded

theorem reduceBytes_recorded {level : Level} (recorded : Recorded progress)
    (cut : m.reduceBytes progress current level = .ok (reduced, after)) : Recorded after := by
  fun_induction m.reduceBytes progress current level with
  | case1 =>
    cases cut
    exact recorded
  | case2 => cases cut
  | case3 progress current found empty tested outcome =>
    cases cut
    exact partition_recorded recorded outcome
  | case4 progress current found empty smaller tested outcome ih =>
    exact ih (partition_recorded recorded outcome) cut

theorem reduceLevels_recorded {levels : List Level} (recorded : Recorded progress)
    (cut : m.reduceLevels progress current levels = .ok (reduced, after)) : Recorded after := by
  induction levels generalizing progress current with
  | nil =>
    cases cut
    exact recorded
  | cons level rest ih =>
    rw [reduceLevels] at cut
    split at cut
    · cases cut
    · rename_i ran
      exact ih (reduceBytes_recorded recorded ran) cut

theorem reduceDimensions_recorded {kept rest : List String} (recorded : Recorded progress)
    (cut : m.reduceDimensions progress current kept rest = .ok (reduced, after)) :
    Recorded after := by
  induction rest generalizing progress kept with
  | nil =>
    cases cut
    exact recorded
  | cons dimension rest ih =>
    rw [reduceDimensions] at cut
    split at cut
    · cases cut
    · rename_i ran
      have tested := test_recorded recorded ran
      split at cut
      · exact ih (show Recorded (Progress.adopt _ _) from tested) cut
      · exact ih tested cut

/-- The last candidate tested has the wire bytes and the dimensions of the reproducer. -/
def LastTested (progress : Progress ω) (reproducer : Reproducer) : Prop :=
  ∃ test, progress.tests.getLast? = some test ∧
    test.candidate.wireBytes = reproducer.wireBytes ∧
      test.candidate.dimensions = reproducer.dimensions

theorem belongs_iff (recorded : Recorded progress) (status : String) :
    Belongs (m.result progress reduced status) progress ↔ LastTested progress reduced := by
  constructor
  · rintro ⟨test, last, -, -, same⟩
    exact ⟨test, last, same⟩
  · rintro ⟨test, last, same⟩
    have trials : progress.finalTrials = test.results := by
      rw [recorded, last]
      rfl
    refine ⟨test, last, ?_, ?_, same⟩
    · rw [← trials]
      rfl
    · rw [← trials]
      rfl

theorem lastTested_concat {results : List TrialResult}
    (tests : after.tests = progress.tests ++ [⟨candidate, results⟩]) :
    LastTested after candidate :=
  ⟨⟨candidate, results⟩, by rw [tests, List.getLast?_concat], rfl, rfl⟩

theorem start_recorded (world : ω) : Recorded (start world) := rfl

/-- A run that comes to the confirmation of a reproducer returns with it. -/
theorem confirming_minimize {world : ω} (reached : m.confirming world = some (current, progress)) :
    Recorded progress ∧ m.Within current ∧ ∀ verdict after,
      m.test progress current "final-confirmation" = .ok (verdict, after) →
        ∃ status, m.minimize world = .ok (m.result after current status, after) := by
  obtain ⟨baseline, first, ran, extended, bases, stable, classified⟩ :=
    test_spec (m.start_safe world) (within_source m) "baseline"
  have recorded := test_recorded (start_recorded world) ran
  unfold confirming at reached
  unfold minimize
  rw [ran] at reached ⊢
  dsimp only at reached ⊢
  split at reached
  · cases reached
  · rename_i steady
    rw [not_or] at steady
    rw [if_neg steady.1, if_neg steady.2]
    have failed := stable ((classified (Nat.le_of_not_lt steady.1)).resolve_right steady.2)
    have adopting := adopt_extends extended.safe failed
    obtain ⟨cut, levelled, levels, -, reducing⟩ :=
      reduceLevels_spec ⟨adopting.safe, within_source m, List.getLast?_concat⟩
        [.sections, .headers, .bodyLines, .values]
    have within : m.Within { cut with dimensions := [] ++ cut.dimensions } := reducing.within
    obtain ⟨reduced, last, dimensions, -, left⟩ :=
      reduceDimensions_spec reducing.safe within reducing.base
    rw [levels] at reached ⊢
    dsimp only at reached ⊢
    rw [dimensions] at reached ⊢
    cases reached
    have kept := reduceDimensions_recorded (reduceLevels_recorded
      (show Recorded (Progress.adopt _ _) from recorded) levels) dimensions
    refine ⟨kept, left.within, fun verdict after confirmed => ?_⟩
    dsimp only
    rw [confirmed]
    exact ⟨_, rfl⟩

/-- A run that returns without a confirmation reports on its source. -/
theorem unconfirmed_belongs {world : ω} {result : Result} (never : m.confirming world = none)
    (returned : m.minimize world = .ok (result, after)) : Belongs result after := by
  obtain ⟨baseline, first, ran, extended, bases, stable, classified⟩ :=
    test_spec (m.start_safe world) (within_source m) "baseline"
  have recorded := test_recorded (start_recorded world) ran
  unfold confirming at never
  unfold minimize at returned
  rw [ran] at never returned
  dsimp only at never returned
  split at returned
  · cases returned
  · rename_i quorum
    split at returned
    · cases returned
      refine (belongs_iff recorded _).mpr ?_
      obtain ⟨verdict, after, again, ⟨-, results, tests, -⟩ | ⟨-, -, none⟩⟩ :=
        test_last (start world) (within_source m) "baseline"
      · obtain ⟨rfl, rfl⟩ := Prod.mk.inj (Except.ok.inj (ran.symm.trans again))
        exact lastTested_concat tests
      · obtain ⟨rfl, rfl⟩ := Prod.mk.inj (Except.ok.inj (ran.symm.trans again))
        have := m.limits.positive
        omega
    · rename_i steady
      have failed := stable ((classified (Nat.le_of_not_lt quorum)).resolve_right steady)
      have adopting := adopt_extends extended.safe failed
      obtain ⟨cut, levelled, levels, -, reducing⟩ :=
        reduceLevels_spec ⟨adopting.safe, within_source m, List.getLast?_concat⟩
          [.sections, .headers, .bodyLines, .values]
      have within : m.Within { cut with dimensions := [] ++ cut.dimensions } := reducing.within
      obtain ⟨reduced, last, dimensions, -, -⟩ :=
        reduceDimensions_spec reducing.safe within reducing.base
      rw [if_neg (not_or.mpr ⟨quorum, steady⟩), levels] at never
      dsimp only at never
      rw [dimensions] at never
      cases never

/-- The trials of a result are of its reproducer exactly when the budget is left for the
confirmation, or the reproducer is what was tested last before it. -/
theorem reported_trials_belong_iff (m : Minimizer ω) (world : ω) :
    (∀ result after, m.minimize world = .ok (result, after) → Belongs result after) ↔
      ∀ current progress, m.confirming world = some (current, progress) →
        m.Affords progress current ∨ LastTested progress current := by
  constructor
  · intro belongs current progress reached
    obtain ⟨recorded, within, returns⟩ := confirming_minimize reached
    obtain ⟨verdict, after, ran, ⟨affords, -⟩ | ⟨-, rfl, -⟩⟩ :=
      test_last progress within "final-confirmation"
    · exact .inl affords
    · obtain ⟨status, returned⟩ := returns verdict after ran
      exact .inr ((belongs_iff recorded status).mp (belongs _ _ returned))
  · intro covered result after returned
    rcases reached : m.confirming world with _ | ⟨current, progress⟩
    · exact unconfirmed_belongs reached returned
    · obtain ⟨recorded, within, returns⟩ := confirming_minimize reached
      obtain ⟨verdict, last, ran, outcome⟩ :=
        test_last progress within "final-confirmation"
      obtain ⟨status, same⟩ := returns verdict last ran
      obtain ⟨rfl, rfl⟩ := Prod.mk.inj (Except.ok.inj (returned.symm.trans same))
      refine (belongs_iff (test_recorded recorded ran) status).mpr ?_
      rcases outcome with ⟨-, results, tests, -⟩ | ⟨refused, rfl, -⟩
      · exact lastTested_concat tests
      · exact (covered current after reached).resolve_left refused

section example_

theorem one_packet : 1 ≤ 1 ∧ 1 ≤ 3 := by decide

theorem sixteen_bytes : 1 ≤ 16 ∧ 16 ≤ 4096 := by decide

theorem one_trial : 1 ≤ 1 ∧ 1 ≤ 9 := by decide

def exampleAuthorization : Authorization where
  destination := "192.0.2.1:5060"
  dialogState := "early"
  maxPacketsPerTrial := 1
  maxBytesPerTrial := 16
  named := by decide
  packets := one_packet
  bytes := sixteen_bytes

/-- Fails as long as a dimension is left; the budget is for two candidates. -/
def exampleMinimizer : Minimizer Unit where
  source := ⟨[65], ["header"], exampleAuthorization⟩
  predicate candidate _ :=
    if candidate.dimensions = [] then (⟨false, "rejected", []⟩, ()) else (⟨true, "crash", []⟩, ())
  limits :=
    { trials := 1, quorum := 1, maxCandidates := 2, maxTotalPackets := 10, maxTotalBytes := 100
      positive := by decide, quorumFits := one_trial, capped := by decide }
  expectedOutcome := "crash"
  command := ["replay"]
  sha256 _ := ""
  nonempty := by decide
  authorized := by decide

theorem reduceLevels_bare {progress : Progress ω} {levels : List Level}
    (bare : ∀ level ∈ levels, spans current.wireBytes level = []) :
    m.reduceLevels progress current levels = .ok (current, progress) := by
  induction levels generalizing progress with
  | nil => rfl
  | cons level rest ih =>
    rw [List.forall_mem_cons] at bare
    rw [reduceLevels, reduceBytes, dif_pos bare.1]
    exact ih bare.2

def exampleTrace : List TraceRecord :=
  [⟨1, "baseline", "", 1, ["header"], 1, 1, "stable", ["crash"]⟩,
    ⟨2, "mutation-dimensions", "", 1, [], 0, 1, "not-reproduced", ["rejected"]⟩]

/-- Both candidates of the budget have been tested. -/
def exampleAfter : Progress Unit where
  world := ()
  trace := exampleTrace
  candidates := 2
  totalPackets := 2
  totalBytes := 2
  finalTrials := [⟨false, "rejected", []⟩]
  tests := [⟨exampleMinimizer.source, [⟨true, "crash", []⟩]⟩,
    ⟨{ exampleMinimizer.source with dimensions := [] }, [⟨false, "rejected", []⟩]⟩]
  bases := [exampleMinimizer.source]

/-- The result presents the source, and the outcome of the smaller candidate that was rejected. -/
theorem rejected_outcome_is_reported :
    ∃ result after, exampleMinimizer.minimize () = .ok (result, after) ∧
      result.wireBytes = [65] ∧ result.dimensions = ["header"] ∧
        result.actualOutcomes = ["rejected"] ∧ ¬ Belongs result after := by
  have bare : ∀ level ∈ [Level.sections, .headers, .bodyLines, .values],
      spans exampleMinimizer.source.wireBytes level = [] := by
    have body : bodyStart [65] = 1 := by decide
    have ended : lineEnd [65] 0 1 = 1 := by decide
    have emptied : lineSpans [65] 1 1 = [] := by rw [lineSpans, if_neg (by decide)]
    have lines : lineSpans [65] 0 1 = [(0, 1)] := by rw [lineSpans, if_pos (by decide), ended, emptied]
    intro level _
    change spans [65] level = []
    unfold spans
    rw [body]
    cases level with
    | sections => rfl
    | headers => exact congrArg List.tail lines
    | bodyLines => exact emptied
    | values =>
      dsimp only
      rw [lines]
      rfl
  have returned : exampleMinimizer.minimize () =
      .ok (exampleMinimizer.result exampleAfter exampleMinimizer.source "flaky", exampleAfter) := by
    have tested : exampleMinimizer.test (start ()) exampleMinimizer.source "baseline" =
        .ok (⟨1, .stable⟩, { exampleAfter with
          trace := exampleTrace.take 1, candidates := 1, totalPackets := 1, totalBytes := 1
          finalTrials := [⟨true, "crash", []⟩], tests := exampleAfter.tests.take 1, bases := [] }) := by
      rfl
    unfold minimize
    rw [tested]
    dsimp only
    rw [if_neg (by decide), if_neg (by decide), reduceLevels_bare bare]
    rfl
  refine ⟨_, _, returned, rfl, rfl, rfl, ?_⟩
  rintro ⟨test, found, -, -, -, dimensions⟩
  obtain rfl := Option.some.inj found
  cases dimensions

end example_

end Sippycup.Torture.Minimizer
