import Sippycup.Torture.Minimize

/-! The minimizer stays inside its source and its budget, and reduces only what
failed in every trial, whatever the predicate answers. -/
namespace Sippycup.Torture.Minimizer
variable {ω : Type} (m : Minimizer ω)

/-- Bytes and dimensions are left out of the source, nothing else is changed. -/
structure Within (reproducer : Reproducer) : Prop where
  bytes : reproducer.wireBytes.Sublist m.source.wireBytes
  dimensions : reproducer.dimensions.Sublist m.source.dimensions
  authorization : reproducer.authorization = m.source.authorization

/-- Every trial of a test of the reproducer failed. -/
def Failed (tests : List Tested) (reproducer : Reproducer) : Prop :=
  ∃ test ∈ tests, test.candidate = reproducer ∧ test.results.length = m.limits.trials ∧
    ∀ result ∈ test.results, result.failed = true

structure Safe (progress : Progress ω) : Prop where
  counted : progress.tests.length = progress.candidates
  candidates : progress.candidates ≤ m.limits.maxCandidates
  packets : progress.totalPackets ≤ m.limits.maxTotalPackets
  bytes : progress.totalBytes ≤ m.limits.maxTotalBytes
  tested : ∀ test ∈ progress.tests, m.Within test.candidate
  bases : ∀ base ∈ progress.bases, m.Failed progress.tests base

/-- What a step leaves of a safe progress: more tests, and the bases so far. -/
structure Extends (before after : Progress ω) : Prop where
  safe : m.Safe after
  tests : before.tests ⊆ after.tests
  bases : before.bases <+: after.bases

variable {m} {progress after : Progress ω} {candidate current reduced : Reproducer}

theorem Extends.refl (safe : m.Safe progress) : m.Extends progress progress :=
  ⟨safe, List.Subset.refl _, List.prefix_rfl⟩

theorem Extends.trans {before between after : Progress ω} (first : m.Extends before between)
    (second : m.Extends between after) : m.Extends before after :=
  ⟨second.safe, List.Subset.trans first.tests second.tests, first.bases.trans second.bases⟩

theorem within_source (m : Minimizer ω) : m.Within m.source :=
  ⟨List.Sublist.refl _, List.Sublist.refl _, rfl⟩

theorem trialsOf_length (candidate : Reproducer) (left : Nat) (world : ω) :
    (m.trialsOf candidate left world).1.length = left := by
  induction left generalizing world with
  | zero => rfl
  | succ left ih =>
    rw [trialsOf]
    exact congrArg (· + 1) (ih _)

theorem classify_stable {failures : Nat} (stable : m.classify failures = .stable) :
    failures = m.limits.trials := by
  unfold classify at stable
  split at stable
  · assumption
  · split at stable <;> cases stable

theorem classify_quorum {failures : Nat} (quorum : m.limits.quorum ≤ failures) :
    m.classify failures = .stable ∨ m.classify failures = .flaky := by
  unfold classify
  split
  · exact .inl rfl
  · exact .inr rfl

/-- A test of a candidate inside the source raises nothing and keeps the progress safe; a stable
verdict means that every trial failed. -/
theorem test_spec (safe : m.Safe progress) (within : m.Within candidate) (level : String) :
    ∃ verdict after, m.test progress candidate level = .ok (verdict, after) ∧
      m.Extends progress after ∧ after.bases = progress.bases ∧
        (verdict.classification = .stable → m.Failed after.tests candidate) ∧
          (m.limits.quorum ≤ verdict.failures →
            verdict.classification = .stable ∨ verdict.classification = .flaky) := by
  have exhausted : ¬ m.limits.quorum ≤ 0 := by
    have := m.limits.positive
    omega
  unfold test
  by_cases spent : m.limits.maxCandidates ≤ progress.candidates
  · rw [if_pos spent]
    exact ⟨_, progress, rfl, .refl safe, rfl, fun stable => (by cases stable),
      fun quorum => absurd quorum exhausted⟩
  have sublist : candidate.wireBytes.isSublist m.source.wireBytes = true :=
    List.isSublist_iff_sublist.mpr within.bytes
  have known : candidate.dimensions.all (· ∈ m.source.dimensions) = true :=
    List.all_eq_true.mpr fun d member => decide_eq_true (within.dimensions.subset member)
  rw [if_neg spent, if_neg (by simp [sublist]), if_neg (by simp only [known]; simp),
    if_neg (not_not.mpr within.authorization)]
  dsimp only
  split
  · exact ⟨_, progress, rfl, .refl safe, rfl, fun stable => (by cases stable),
      fun quorum => absurd quorum exhausted⟩
  · rename_i affordable
    rw [not_or] at affordable
    have length := trialsOf_length (m := m) candidate m.limits.trials progress.world
    rcases outcome : m.trialsOf candidate m.limits.trials progress.world with ⟨results, world⟩
    rw [outcome] at length
    refine ⟨_, _, rfl, ⟨⟨?_, ?_, ?_, ?_, ?_, ?_⟩, List.subset_append_left _ _, List.prefix_rfl⟩,
      rfl, ?_, classify_quorum⟩
    · rw [List.length_append, safe.counted]
      rfl
    · exact Nat.lt_of_not_le spent
    · exact Nat.le_of_not_lt affordable.1
    · exact Nat.le_of_not_lt affordable.2
    · intro test member
      rcases List.mem_append.mp member with old | new
      · exact safe.tested test old
      · rw [List.mem_singleton.mp new]
        exact within
    · intro base member
      obtain ⟨test, inside, rest⟩ := safe.bases base member
      exact ⟨test, List.mem_append_left _ inside, rest⟩
    · intro stable
      refine ⟨⟨candidate, results⟩, by simp, rfl, length, ?_⟩
      have all : results.countP TrialResult.failed = results.length :=
        (classify_stable stable).trans length.symm
      exact List.countP_eq_length.mp all

theorem adopt_extends (safe : m.Safe progress) (failed : m.Failed progress.tests candidate) :
    m.Extends progress (progress.adopt candidate) := by
  refine ⟨⟨safe.counted, safe.candidates, safe.packets, safe.bytes, safe.tested, ?_⟩,
    List.Subset.refl _, List.prefix_append _ _⟩
  intro base member
  rcases List.mem_append.mp member with old | new
  · exact safe.bases base old
  · rw [List.mem_singleton.mp new]
    exact failed

/-- The progress of a reduction whose base is `current`. -/
structure Reducing (m : Minimizer ω) (progress : Progress ω) (current : Reproducer) : Prop where
  safe : m.Safe progress
  within : m.Within current
  base : progress.bases.getLast? = some current

theorem tryRemovals_spec (reducing : m.Reducing progress current) (level : Level)
    (removals : List (List (Nat × Nat))) :
    ∃ found after, m.tryRemovals progress current level removals = .ok (found, after) ∧
      m.Extends progress after ∧ m.Reducing after (found.getD current) := by
  induction removals generalizing progress with
  | nil => exact ⟨none, progress, rfl, .refl reducing.safe, reducing⟩
  | cons removal rest ih =>
    rw [tryRemovals]
    dsimp only
    split
    · exact ih reducing
    · have within : m.Within { current with wireBytes := deleteSpans current.wireBytes removal } :=
        ⟨(deleteSpans_sublist _ _).trans reducing.within.bytes, reducing.within.dimensions,
          reducing.within.authorization⟩
      obtain ⟨verdict, tested, ran, extended, same, stable, -⟩ :=
        test_spec reducing.safe within level.name
      rw [ran]
      dsimp only
      split
      · rename_i adopted
        have adopting := adopt_extends extended.safe (stable adopted)
        refine ⟨_, _, rfl, extended.trans adopting, adopting.safe, within, ?_⟩
        exact List.getLast?_concat
      · obtain ⟨found, after, continued, more, still⟩ :=
          ih ⟨extended.safe, reducing.within, same ▸ reducing.base⟩
        exact ⟨found, after, continued, extended.trans more, still⟩

theorem partition_spec (reducing : m.Reducing progress current) (level : Level)
    (spans : List (Nat × Nat)) (partitions : Nat) (positive : 0 < partitions) :
    ∃ found after, m.partition progress current level spans partitions positive =
      .ok (found, after) ∧ m.Extends progress after ∧ m.Reducing after (found.getD current) := by
  fun_induction m.partition progress current level spans partitions positive with
  | case1 progress partitions positive within width failure raised =>
    obtain ⟨found, after, ran, -⟩ := tryRemovals_spec reducing level (groups spans width)
    rw [ran] at raised
    cases raised
  | case2 progress partitions positive within width found after tried =>
    obtain ⟨found', after', ran, extended, still⟩ :=
      tryRemovals_spec reducing level (groups spans width)
    rw [ran] at tried
    cases tried
    exact ⟨_, _, rfl, extended, still⟩
  | case3 =>
    rename_i progress after positive within width tried
    obtain ⟨found', after', ran, extended, still⟩ :=
      tryRemovals_spec reducing level (groups spans width)
    rw [ran] at tried
    cases tried
    exact ⟨none, after, rfl, extended, still⟩
  | case4 progress partitions positive within width after tried finer ih =>
    obtain ⟨found', after', ran, extended, still⟩ :=
      tryRemovals_spec reducing level (groups spans width)
    rw [ran] at tried
    cases tried
    obtain ⟨found, last, continued, more, reduced⟩ := ih still
    exact ⟨found, last, continued, extended.trans more, reduced⟩
  | case5 => exact ⟨none, _, rfl, .refl reducing.safe, reducing⟩

theorem reduceBytes_spec (reducing : m.Reducing progress current) (level : Level) :
    ∃ reduced after, m.reduceBytes progress current level = .ok (reduced, after) ∧
      m.Extends progress after ∧ m.Reducing after reduced := by
  fun_induction m.reduceBytes progress current level with
  | case1 => exact ⟨_, _, rfl, .refl reducing.safe, reducing⟩
  | case2 progress current found empty failure raised =>
    obtain ⟨found', after, ran, -⟩ := partition_spec reducing level found (min 2 found.length) _
    rw [ran] at raised
    cases raised
  | case3 progress current found empty after outcome =>
    obtain ⟨found', after', ran, extended, still⟩ :=
      partition_spec reducing level found (min 2 found.length) _
    rw [ran] at outcome
    cases outcome
    exact ⟨_, _, rfl, extended, still⟩
  | case4 progress current found empty reduced after outcome ih =>
    obtain ⟨found', after', ran, extended, still⟩ :=
      partition_spec reducing level found (min 2 found.length) _
    rw [ran] at outcome
    cases outcome
    obtain ⟨last, final, continued, more, left⟩ := ih still
    exact ⟨last, final, continued, extended.trans more, left⟩

theorem reduceLevels_spec (reducing : m.Reducing progress current) (levels : List Level) :
    ∃ reduced after, m.reduceLevels progress current levels = .ok (reduced, after) ∧
      m.Extends progress after ∧ m.Reducing after reduced := by
  induction levels generalizing progress current with
  | nil => exact ⟨current, progress, rfl, .refl reducing.safe, reducing⟩
  | cons level rest ih =>
    obtain ⟨reduced, after, ran, extended, still⟩ := reduceBytes_spec reducing level
    obtain ⟨last, final, continued, more, left⟩ := ih still
    refine ⟨last, final, ?_, extended.trans more, left⟩
    rw [reduceLevels, ran]
    exact continued

theorem reduceDimensions_spec (safe : m.Safe progress) {kept rest : List String}
    (within : m.Within { current with dimensions := kept ++ rest })
    (base : progress.bases.getLast? = some { current with dimensions := kept ++ rest }) :
    ∃ reduced after, m.reduceDimensions progress current kept rest = .ok (reduced, after) ∧
      m.Extends progress after ∧ m.Reducing after reduced := by
  induction rest generalizing progress kept with
  | nil =>
    rw [List.append_nil] at within base
    exact ⟨_, progress, rfl, .refl safe, safe, within, base⟩
  | cons dimension rest ih =>
    have smaller : m.Within { current with dimensions := kept ++ rest } := by
      refine ⟨within.bytes, List.Sublist.trans ?_ within.dimensions, within.authorization⟩
      exact (List.sublist_cons_self dimension rest).append_left kept
    obtain ⟨verdict, tested, ran, extended, same, stable, -⟩ :=
      test_spec safe smaller "mutation-dimensions"
    rw [reduceDimensions, ran]
    dsimp only
    split
    · rename_i adopted
      have adopting := adopt_extends extended.safe (stable adopted)
      obtain ⟨reduced, after, continued, more, left⟩ :=
        ih adopting.safe smaller List.getLast?_concat
      exact ⟨reduced, after, continued, (extended.trans adopting).trans more, left⟩
    · have regroup : kept ++ dimension :: rest = (kept ++ [dimension]) ++ rest := by simp
      rw [regroup] at within base
      obtain ⟨reduced, after, continued, more, left⟩ :=
        ih extended.safe within (same ▸ base)
      exact ⟨reduced, after, continued, extended.trans more, left⟩

theorem start_safe (m : Minimizer ω) (world : ω) : m.Safe (start world) :=
  ⟨rfl, Nat.zero_le _, Nat.zero_le _, Nat.zero_le _, fun _ member => absurd member List.not_mem_nil,
    fun _ member => absurd member List.not_mem_nil⟩

/-- Minimisation ends, with the one error that a source may raise or with a result. The result
is cut out of the source; the source and every later base failed in all trials of a test, unless
the unreduced source is returned as flaky; and the budget holds, also where it ran out. -/
theorem minimize_is_safe (m : Minimizer ω) (world : ω) :
    (∃ progress, m.minimize world =
        .error ⟨"source failure does not meet the configured quorum", progress⟩ ∧ m.Safe progress) ∨
      ∃ reduced stability progress, m.minimize world =
        .ok (m.result progress reduced stability, progress) ∧
          m.Safe progress ∧ m.Within reduced ∧
            (reduced = m.source ∧ stability = "flaky" ∧ progress.bases = [] ∨
              progress.bases.head? = some m.source ∧ progress.bases.getLast? = some reduced) := by
  obtain ⟨baseline, progress, ran, extended, bases, stable, classified⟩ :=
    test_spec (m.start_safe world) (within_source m) "baseline"
  unfold minimize
  rw [ran]
  dsimp only
  split
  · exact .inl ⟨progress, rfl, extended.safe⟩
  · rename_i quorum
    split
    · exact .inr ⟨m.source, "flaky", progress, rfl, extended.safe, within_source m,
        .inl ⟨rfl, rfl, bases⟩⟩
    · rename_i steady
      have failed := stable ((classified (Nat.le_of_not_lt quorum)).resolve_right steady)
      have adopting := adopt_extends extended.safe failed
      have first : (progress.adopt m.source).bases = [m.source] := by
        rw [Progress.adopt, bases]
        rfl
      obtain ⟨current, levelled, levels, more, reducing⟩ :=
        reduceLevels_spec ⟨adopting.safe, within_source m, List.getLast?_concat⟩
          [.sections, .headers, .bodyLines, .values]
      have within : m.Within { current with dimensions := [] ++ current.dimensions } :=
        reducing.within
      obtain ⟨reduced, cut, dimensions, further, left⟩ :=
        reduceDimensions_spec reducing.safe within reducing.base
      obtain ⟨final, confirmed, confirmation, still, same, -, -⟩ :=
        test_spec left.safe left.within "final-confirmation"
      rw [levels]
      dsimp only
      rw [dimensions]
      dsimp only
      rw [confirmation]
      refine .inr ⟨reduced, _, confirmed, rfl, still.safe, left.within, .inr ⟨?_, ?_⟩⟩
      · obtain ⟨later, grown⟩ := more.bases.trans (further.bases.trans still.bases)
        rw [← grown, first]
        rfl
      · rw [same]
        exact left.base

end Sippycup.Torture.Minimizer
