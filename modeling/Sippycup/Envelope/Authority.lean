import Sippycup.Envelope.Ledger

/-! Compilation stays within authority: whatever plan comes out, its ramp is a
maximal funded climb under the reduced maxima, and its totals are exact. -/
namespace Sippycup.Envelope
open Sippycup.Python

theorem uint_ok {value : Value} {field : String} {zero : Bool} {n : Nat} :
    uint value field zero = .ok n ↔
      value = .int n ∧ n ≤ u64Max ∧ (zero = false → 0 < n) := by
  unfold uint fail
  cases value with
  | int m =>
    simp only [Value.int.injEq]
    cases zero
    · simp only [Bool.false_eq_true, if_false, forall_const]
      split
      · simp only [reduceCtorEq, false_iff]
        omega
      · simp only [Except.ok.injEq]
        omega
    · simp only [if_true, reduceCtorEq, false_imp_iff, and_true]
      split
      · simp only [reduceCtorEq, false_iff]
        omega
      · simp only [Except.ok.injEq]
        omega
  | _ => simp

theorem normalizeMaxima_ok {value : Value} {field : String} {maxima : Maxima}
    (result : normalizeMaxima value field = .ok maxima) (key : MaximaKey) :
    0 < maxima key ∧ maxima key ≤ u64Max := by
  simp only [normalizeMaxima, bind_ok] at result
  obtain ⟨entries, _, _, _, collected⟩ := result
  have read := collect_ok collected key (mem_maximaKeys key)
  obtain ⟨item, _, number⟩ := bind_ok.mp read
  obtain ⟨_, bounded, positive⟩ := uint_ok.1 number
  exact ⟨positive rfl, bounded⟩

theorem normalizeWorkload_ok {value : Value} {workload : Workload}
    (result : normalizeWorkload value = .ok workload) (key : WorkloadKey) :
    0 < workload key ∧ workload key ≤ u64Max := by
  simp only [normalizeWorkload, bind_ok] at result
  obtain ⟨entries, _, _, _, collected⟩ := result
  have read := collect_ok collected key (mem_workloadKeys key)
  obtain ⟨item, _, number⟩ := bind_ok.mp read
  obtain ⟨_, bounded, positive⟩ := uint_ok.1 number
  exact ⟨positive rfl, bounded⟩

theorem normalizeRamp_ok {value : Value} {ramp : Ramp} (result : normalizeRamp value = .ok ramp) :
    0 < ramp.step ∧ ramp.step ≤ u64Max := by
  simp only [normalizeRamp, bind_ok] at result
  obtain ⟨entries, _, _, _, dimension, _, result⟩ := result
  split at result
  · cases result
  · simp only [bind_ok, pure_ok] at result
    obtain ⟨_, _, _, _, _, _, step, number, rfl⟩ := result
    obtain ⟨_, bounded, positive⟩ := uint_ok.1 number
    exact ⟨positive rfl, bounded⟩

/-- Overrides lower: each keeps the effective maxima positive and below the source. -/
theorem applyReductions_ok {maxima result reduced : Maxima} {reductions : Dict}
    (lowered : ∀ key, 0 < result key ∧ result key ≤ maxima key)
    (applied : applyReductions maxima reductions result = .ok reduced) :
    ∀ key, 0 < reduced key ∧ reduced key ≤ maxima key := by
  induction reductions generalizing result with
  | nil =>
    cases applied
    exact lowered
  | cons entry rest ih =>
    obtain ⟨key, value⟩ := entry
    simp only [applyReductions] at applied
    split at applied
    · cases applied
    · rename_i k _
      split at applied
      · exact ih lowered applied
      · obtain ⟨amount, number, applied⟩ := bind_ok.mp applied
        split at applied
        · cases applied
        · rename_i within
          refine ih ?_ applied
          intro other
          by_cases same : other = k
          · subst same
            rw [Function.update_self]
            exact ⟨(uint_ok.1 number).2.2 rfl, Nat.not_lt.1 within⟩
          · rw [Function.update_of_ne same]
            exact lowered other

theorem checkDimensions_ok {maxima : Maxima} {workload : Workload} {keys : List Dimension}
    (result : checkDimensions maxima workload keys = .ok ()) :
    ∀ d ∈ keys, workload (.dimension d) ≤ maxima (.dimension d) := by
  induction keys with
  | nil => simp
  | cons d rest ih =>
    simp only [checkDimensions] at result
    split at result
    · cases result
    · rename_i within
      intro key member
      rcases List.mem_cons.mp member with rfl | later
      · exact Nat.not_lt.1 within
      · exact ih result key later

theorem validateConstraints_ok {maxima : Maxima} {workload : Workload} {ramp : Ramp}
    (result : validateConstraints maxima workload ramp = .ok ()) :
    (∀ d, workload (.dimension d) ≤ maxima (.dimension d)) ∧
      ramp.start ≤ maxima (.dimension ramp.dimension) := by
  obtain ⟨_, dimensions, result⟩ := bind_ok.mp result
  refine ⟨fun d => checkDimensions_ok dimensions d (mem_dimensions d), ?_⟩
  split at result
  · cases result
  · split at result
    · cases result
    · split at result
      · cases result
      · rename_i within
        exact Nat.not_lt.1 within

/-- What normalization checks, for a manifest and for a frozen plan alike. -/
structure Normalized.Checked (n : Normalized) : Prop where
  sourceBounded : ∀ key, n.sourceMaxima key ≤ u64Max
  positive : ∀ key, 0 < n.maxima key
  reduced : ∀ key, n.maxima key ≤ n.sourceMaxima key
  workloadBounded : ∀ key, n.workload key ≤ u64Max
  stepPositive : 0 < n.ramp.step
  stepBounded : n.ramp.step ≤ u64Max
  startWithin : n.ramp.start ≤ n.maxima (.dimension n.ramp.dimension)

theorem Normalized.Checked.bounded {n : Normalized} (checked : n.Checked) (key : MaximaKey) :
    n.maxima key ≤ u64Max := (checked.reduced key).trans (checked.sourceBounded key)

theorem normalizeManifest_ok {manifest : Value} {reductions : Dict} {n : Normalized}
    (result : normalizeManifest manifest reductions = .ok n) : n.Checked := by
  simp only [normalizeManifest, bind_ok] at result
  obtain ⟨document, _, _, _, version, _, result⟩ := result
  split at result
  · cases result
  · obtain ⟨kind, _, result⟩ := bind_ok.mp result
    split at result
    · cases result
    · simp only [bind_ok, pure_ok] at result
      obtain ⟨_, _, metadata, _, _, _, _, _, name, _, _, _, authorization, _, _, _, _, _,
        source, sourceOk, maxima, reduced, _, _, workload, workloadOk, _, _, ramp, rampOk,
        _, constraints, rfl⟩ := result
      have sourceOk := normalizeMaxima_ok sourceOk
      have reduced := applyReductions_ok (fun key => ⟨(sourceOk key).1, le_rfl⟩) reduced
      exact {
        sourceBounded := fun key => (sourceOk key).2
        positive := fun key => (reduced key).1
        reduced := fun key => (reduced key).2
        workloadBounded := fun key => (normalizeWorkload_ok workloadOk key).2
        stepPositive := (normalizeRamp_ok rampOk).1
        stepBounded := (normalizeRamp_ok rampOk).2
        startWithin := (validateConstraints_ok constraints).2 }

def PlanStep.numbers (step : PlanStep) : List Nat :=
  [step.index, step.level, step.startAtSeconds, step.holdSeconds] ++
    dimensions.map step.intensity ++
    [step.budget.calls, step.budget.mediaPackets, step.budget.callSeconds,
      step.budget.durationSeconds]

/-- Every number of a compiled plan. -/
def EnvelopePlan.numbers (plan : EnvelopePlan) : List Nat :=
  maximaKeys.map plan.sourceMaxima ++ maximaKeys.map plan.hardMaxima ++
    workloadKeys.map plan.workload ++ [plan.ramp.start, plan.ramp.step] ++
    [plan.totals.calls, plan.totals.mediaPackets, plan.totals.callSeconds,
      plan.totals.rampDurationSeconds, plan.totalDurationSeconds] ++
    plan.steps.flatMap PlanStep.numbers

def EnvelopePlan.ceiling (plan : EnvelopePlan) : Nat :=
  plan.hardMaxima (.dimension plan.ramp.dimension)

def EnvelopePlan.levels (plan : EnvelopePlan) : List Nat := plan.steps.map PlanStep.level

def EnvelopePlan.reservedTail (plan : EnvelopePlan) : Nat :=
  plan.hardMaxima .cooldownSeconds + plan.hardMaxima .recoveryDeadlineSeconds

/-- The authority contract of a plan. The ledger makes the totals the exact
sums of the step budgets and bounds calls and duration; `maximal` says that the
next level, were there one, would not fit. -/
structure EnvelopePlan.WithinAuthority (plan : EnvelopePlan) : Prop where
  starts : plan.levels.head? = some plan.ramp.start
  climbs : plan.levels.IsChain fun a b => a < b ∧ b ≤ a + plan.ramp.step
  ceiling : ∀ level ∈ plan.levels, level ≤ plan.ceiling
  ledger : Ledger plan.hardMaxima plan.workload plan.ramp plan.reservedTail plan.totals plan.steps
  totalDuration : plan.totalDurationSeconds = plan.totals.rampDurationSeconds + plan.reservedTail
  reduced : ∀ key, plan.hardMaxima key ≤ plan.sourceMaxima key
  bounded : ∀ n ∈ plan.numbers, n ≤ u64Max
  maximal : ∀ level, plan.levels.getLast? = some level → level < plan.ceiling →
    Breaks plan.hardMaxima plan.workload plan.ramp plan.reservedTail plan.totals
      (min (level + plan.ramp.step) plan.ceiling)
  reason : plan.reason = .authorizationCeiling ↔ plan.levels.getLast? = some plan.ceiling
  reached : plan.ceilingReached = true ↔ plan.levels.getLast? = some plan.ceiling

theorem chain_le_last {R : Nat → Nat → Prop} (grows : ∀ a b, R a b → a < b) {levels : List Nat}
    {final : Nat} (chain : levels.IsChain R) (last : levels.getLast? = some final) :
    ∀ level ∈ levels, level ≤ final := by
  induction levels with
  | nil => simp
  | cons first rest ih =>
    cases rest with
    | nil =>
      cases last
      simp
    | cons second rest =>
      rw [List.isChain_cons_cons] at chain
      rw [List.getLast?_cons_cons] at last
      have later := ih chain.2 last
      intro level member
      rcases List.mem_cons.mp member with rfl | member
      · exact (grows _ _ chain.1).le.trans (later second List.mem_cons_self)
      · exact later level member

section
variable {maxima : Maxima} {workload : Workload} {ramp : Ramp} {tail : Nat}
  {totals : Totals} {steps : List PlanStep}

/-- The numbers of a recorded step are bounded by its plan's. -/
theorem Ledger.step_bounded (ledger : Ledger maxima workload ramp tail totals steps)
    (maximaBounded : ∀ key, maxima key ≤ u64Max) (workloadBounded : ∀ key, workload key ≤ u64Max)
    (count : steps.length ≤ maxPlanSteps) (levels : ∀ step ∈ steps, step.level ≤ u64Max)
    {step : PlanStep} (member : step ∈ steps) : ∀ n ∈ step.numbers, n ≤ u64Max := by
  obtain ⟨earlier, later, rfl⟩ := List.mem_iff_append.mp member
  have scheduled := ledger.scheduled earlier step later rfl
  have calls := ledger.calls
  have media := ledger.mediaPackets
  have seconds := ledger.callSeconds
  have duration := ledger.rampDurationSeconds
  simp only [List.map_append, List.map_cons, List.sum_append, List.sum_cons] at calls media
  simp only [List.map_append, List.map_cons, List.sum_append, List.sum_cons] at seconds duration
  have callsBound := ledger.callsFunded.trans (maximaBounded .totalCalls)
  have durationBound := ledger.durationFunded.trans (maximaBounded .durationSeconds)
  have mediaBound := ledger.mediaBounded
  have secondsBound := ledger.callSecondsBounded
  have level := levels step member
  have hold := maximaBounded .holdSeconds
  have small : maxPlanSteps ≤ u64Max := by decide
  rw [List.length_append, List.length_cons] at count
  have intensity : ∀ d, step.intensity d ≤ u64Max := by
    intro d
    rw [scheduled.intensity, intensityAt]
    split
    · exact level
    · exact workloadBounded _
  simp only [PlanStep.numbers, List.mem_append, List.mem_cons, List.mem_map, List.not_mem_nil,
    or_false, scheduled.index, scheduled.startAtSeconds, scheduled.holdSeconds]
  rintro n (((rfl | rfl | rfl | rfl) | ⟨d, -, rfl⟩) | rfl | rfl | rfl | rfl)
  all_goals first | omega | exact intensity d

theorem Ledger.initial (room : tail ≤ maxima .durationSeconds) :
    Ledger maxima workload ramp tail ⟨0, 0, 0, 0⟩ [] where
  calls := rfl
  mediaPackets := rfl
  callSeconds := rfl
  rampDurationSeconds := rfl
  callsFunded := Nat.zero_le _
  durationFunded := by simpa using room
  mediaBounded := Nat.zero_le _
  callSecondsBounded := Nat.zero_le _
  scheduled := by
    intro earlier step later split
    simp at split

end

/-- Where the recorded prefix of the expanded levels ends. -/
theorem prefix_end {step ceiling : Nat} {taken rest : List Nat} {final : Nat}
    (chain : (taken ++ rest).IsChain (NextLevel step ceiling))
    (top : (taken ++ rest).getLast? = some ceiling) (last : taken.getLast? = some final) :
    final ≤ ceiling ∧ (rest = [] ↔ final = ceiling) ∧
      ∀ level more, rest = level :: more → level = min (final + step) ceiling := by
  have grows : ∀ a b, NextLevel step ceiling a b → a < b := fun _ _ next => next.1
  have member : final ∈ taken ++ rest :=
    List.mem_append_left _ (List.mem_of_getLast? last)
  refine ⟨chain_le_last grows chain top final member, ?_, ?_⟩
  · constructor
    · rintro rfl
      rw [List.append_nil, last] at top
      exact Option.some.inj top
    · intro same
      cases rest with
      | nil => rfl
      | cons level more =>
        have next := (List.isChain_append.mp chain).2.2 final last level rfl
        have bound := chain_le_last grows chain top level (by simp)
        have := next.1
        omega
  · rintro level more rfl
    exact ((List.isChain_append.mp chain).2.2 final last level rfl).2

theorem compileNormalized_ok {n : Normalized} {digest : Text} {plan : EnvelopePlan}
    (checked : n.Checked) (result : compileNormalized n digest = .ok plan) :
    plan.WithinAuthority ∧ plan.hardMaxima = n.maxima := by
  simp only [compileNormalized, bind_ok, checkedAdd_ok] at result
  obtain ⟨tail, ⟨rfl, _⟩, result⟩ := result
  split at result
  · cases result
  · rename_i room
    simp only [bind_ok] at result
    obtain ⟨expanded, expandedOk, ⟨totals, steps, reason⟩, ran, result⟩ := result
    obtain ⟨chain, starts, top⟩ :=
      levels_climb checked.stepPositive checked.startWithin expandedOk
    have count := levels_length checked.stepPositive checked.startWithin expandedOk
    obtain ⟨ledger, taken, rest, rfl, recorded, ending⟩ :=
      rampLoop_spec (Ledger.initial (by omega)) ran
    rw [List.map_nil, List.nil_append] at recorded
    split at result
    · cases result
    · rename_i final last
      simp only [bind_ok, checkedAdd_ok, pure_ok] at result
      obtain ⟨_, ⟨rfl, durationBound⟩, rfl⟩ := result
      have lastLevel : taken.getLast? = some final.level := by
        rw [← recorded, List.getLast?_map, last, Option.map_some]
      obtain ⟨below, ended, next⟩ := prefix_end chain top lastLevel
      have takenNonempty : taken ≠ [] := by
        rintro rfl
        simp at lastLevel
      have atCeiling : taken.getLast? = some (n.maxima (.dimension n.ramp.dimension)) ↔
          final.level = n.maxima (.dimension n.ramp.dimension) := by
        rw [lastLevel, Option.some.injEq]
      have ceiling : ∀ level ∈ taken, level ≤ n.maxima (.dimension n.ramp.dimension) := by
        intro level member
        exact chain_le_last (fun _ _ step => step.1) chain top level (List.mem_append_left _ member)
      have levelsBounded : ∀ step ∈ steps, step.level ≤ u64Max := by
        intro step member
        refine (ceiling step.level ?_).trans (checked.bounded _)
        rw [← recorded]
        exact List.mem_map_of_mem member
      have stepCount : steps.length ≤ maxPlanSteps := by
        have lengths := congrArg List.length recorded
        rw [List.length_map] at lengths
        rw [List.length_append] at count
        omega
      refine ⟨?_, rfl⟩
      exact {
        starts := by
          simp only [EnvelopePlan.levels, recorded]
          rw [← starts, List.head?_append_of_ne_nil _ takenNonempty]
        climbs := by
          simp only [EnvelopePlan.levels, recorded]
          refine List.IsChain.imp (fun a b step => ?_) (List.isChain_append.mp chain).1
          have := step.1
          have := step.2
          omega
        ceiling := by
          simp only [EnvelopePlan.levels, recorded]
          exact ceiling
        ledger := ledger
        totalDuration := by simp only [EnvelopePlan.reservedTail]
        reduced := checked.reduced
        bounded := by
          intro number member
          have callsBound := ledger.callsFunded.trans (checked.bounded .totalCalls)
          have rampBound := ledger.durationFunded.trans (checked.bounded .durationSeconds)
          have mediaBound := ledger.mediaBounded
          have secondsBound := ledger.callSecondsBounded
          have startBound := checked.startWithin.trans (checked.bounded _)
          have stepBound := checked.stepBounded
          simp only [EnvelopePlan.numbers, List.mem_append, List.mem_map, List.mem_flatMap,
            List.mem_cons, List.not_mem_nil, or_false] at member
          rcases member with ((((⟨key, -, rfl⟩ | ⟨key, -, rfl⟩) | ⟨key, -, rfl⟩) | rfl | rfl) |
            rfl | rfl | rfl | rfl | rfl) | ⟨step, recordedStep, member⟩
          all_goals try omega
          · exact checked.sourceBounded key
          · exact checked.bounded key
          · exact checked.workloadBounded key
          · exact ledger.step_bounded checked.bounded checked.workloadBounded stepCount
              levelsBounded recordedStep number member
        maximal := by
          intro level levelLast short
          simp only [EnvelopePlan.levels, recorded, lastLevel, Option.some.injEq] at levelLast
          subst levelLast
          simp only [EnvelopePlan.ceiling] at short ⊢
          rcases ending with ⟨none, _⟩ | ⟨level, more, some, _, breaks⟩
          · exact absurd (ended.mp none) short.ne
          · rw [← next level more some]
            exact breaks
        reason := by
          simp only [EnvelopePlan.levels, EnvelopePlan.ceiling, recorded, atCeiling, beq_iff_eq]
          rcases ending with ⟨none, rfl⟩ | ⟨level, more, some, rfl, _⟩
          · simp [ended.mp none]
          · have short : final.level ≠ n.maxima (.dimension n.ramp.dimension) := by
              rw [ne_eq, ← ended, some]
              simp
            simp [short]
        reached := by
          simp only [EnvelopePlan.levels, EnvelopePlan.ceiling, recorded, atCeiling, beq_iff_eq] }

end Sippycup.Envelope
