import Mathlib.Data.List.Range
import Sippycup.Envelope.Plan

/-! What the greedy ramp loop establishes: the recorded steps add up to the
totals, every prefix stays inside the authorization, and the loop stops only at
a level that no longer fits. -/
namespace Sippycup.Envelope
open Sippycup.Python

theorem ceilDiv_lower (n d : Nat) (positive : 0 < d) : n ≤ ceilDiv n d * d := by
  have whole := Nat.div_add_mod n d
  have small := Nat.mod_lt n positive
  unfold ceilDiv
  split
  · rw [Nat.add_mul, Nat.one_mul, Nat.mul_comm]
    omega
  · rename_i exact
    rw [Nat.add_zero, Nat.mul_comm]
    omega

theorem ceilDiv_upper (n d k : Nat) (below : k < ceilDiv n d) : k * d < n := by
  have whole := Nat.div_add_mod n d
  unfold ceilDiv at below
  split at below
  · have bound : k * d ≤ n / d * d := Nat.mul_le_mul_right d (by omega)
    rw [Nat.mul_comm (n / d)] at bound
    omega
  · have bound : (k + 1) * d ≤ n / d * d := Nat.mul_le_mul_right d (by omega)
    rw [Nat.mul_comm (n / d), Nat.add_mul, Nat.one_mul] at bound
    rcases Nat.eq_zero_or_pos d with rfl | positive
    · simp at below
    · omega

theorem levels_eq {start step maximum : Nat} {expanded : List Nat} (positive : 0 < step)
    (within : start ≤ maximum) (result : levels start step maximum = .ok expanded) :
    expanded = (List.range (ceilDiv (maximum - start) step)).map (start + · * step) ++ [maximum] := by
  have reach := ceilDiv_lower (maximum - start) step positive
  unfold levels at result
  simp only [List.range_succ, List.map_append, List.map_cons, List.map_nil,
    List.getLastD_concat, List.dropLast_concat] at result
  have clamp : min (start + ceilDiv (maximum - start) step * step) maximum = maximum := by omega
  simp only [clamp, ne_eq, not_true_eq_false, if_false] at result
  split at result
  · cases result
  · exact (Except.ok.inj result).symm

/-- The level after `a`: one step up, or the ceiling when that is nearer. -/
def NextLevel (step ceiling a b : Nat) : Prop := a < b ∧ b = min (a + step) ceiling

theorem levels_climb {start step maximum : Nat} {expanded : List Nat} (positive : 0 < step)
    (within : start ≤ maximum) (result : levels start step maximum = .ok expanded) :
    expanded.IsChain (NextLevel step maximum) ∧ expanded.head? = some start ∧
      expanded.getLast? = some maximum := by
  rw [levels_eq positive within result]
  have reach := ceilDiv_lower (maximum - start) step positive
  have below : ∀ k < ceilDiv (maximum - start) step, start + k * step < maximum := by
    intro k bound
    have := ceilDiv_upper _ _ k bound
    omega
  refine ⟨?_, ?_, by simp⟩
  · refine List.isChain_append.mpr ⟨?_, List.isChain_singleton _, ?_⟩
    · refine (List.isChain_map _).mpr ((List.isChain_range _ _).mpr ?_)
      intro k bound
      have next := below k.succ (by omega)
      rw [Nat.succ_mul] at next
      unfold NextLevel
      rw [Nat.succ_mul]
      omega
    · intro a last b single
      simp only [List.head?_cons, Option.mem_def, Option.some.injEq] at single
      subst single
      rw [Option.mem_def, List.getLast?_map, Option.map_eq_some_iff] at last
      obtain ⟨k, final, rfl⟩ := last
      have count : ceilDiv (maximum - start) step = k + 1 := by
        cases h : ceilDiv (maximum - start) step with
        | zero => simp [h] at final
        | succ c =>
          rw [h, List.range_succ, List.getLast?_concat] at final
          cases final
          rfl
      have strict := below k (by omega)
      rw [count, Nat.add_mul, Nat.one_mul] at reach
      unfold NextLevel
      omega
  · cases h : ceilDiv (maximum - start) step with
    | zero =>
      rw [h] at reach
      have same : maximum = start := by omega
      simp [same]
    | succ c => simp [List.range_succ_eq_map]

theorem levels_length {start step maximum : Nat} {expanded : List Nat} (positive : 0 < step)
    (within : start ≤ maximum) (result : levels start step maximum = .ok expanded) :
    expanded.length ≤ maxPlanSteps := by
  have count : ¬ maxPlanSteps < ceilDiv (maximum - start) step + 1 := by
    intro large
    unfold levels at result
    rw [if_pos large] at result
    cases result
  rw [levels_eq positive within result, List.length_append, List.length_map, List.length_range,
    List.length_singleton]
  omega

theorem checkedAdd_ok {left right : Nat} {field : String} {sum : Nat} :
    checkedAdd left right field = .ok sum ↔ sum = left + right ∧ left + right ≤ u64Max := by
  unfold checkedAdd fail
  split
  · simp only [reduceCtorEq, false_iff, not_and]
    omega
  · simp only [Except.ok.injEq]
    omega

theorem checkedMul_ok {left right : Nat} {field : String} {product : Nat} :
    checkedMul left right field = .ok product ↔
      product = left * right ∧ left * right ≤ u64Max := by
  unfold checkedMul fail
  rcases Nat.eq_zero_or_pos left with rfl | positive
  · simp [eq_comm]
  · have fits : u64Max / left < right ↔ ¬ left * right ≤ u64Max := by
      rw [Nat.div_lt_iff_lt_mul positive, Nat.mul_comm right, Nat.not_le]
    simp only [ne_eq, positive.ne', not_false_eq_true, true_and, fits]
    split
    · simp only [reduceCtorEq, false_iff, not_and]
      intro _
      assumption
    · rename_i small
      simp only [Except.ok.injEq, not_not.mp small, and_true]
      exact eq_comm

/-- A step's worst case, as its intensity and hold time determine it. -/
structure BudgetOf (intensity : Dimension → Nat) (hold callDuration : Nat) (budget : StepBudget) :
    Prop where
  calls : budget.calls = max (intensity .callsPerSecond * hold)
    (intensity .concurrentCalls * ceilDiv hold callDuration)
  mediaPackets : budget.mediaPackets = intensity .mediaPacketsPerSecond * hold
  callSeconds : budget.callSeconds = intensity .concurrentCalls * hold
  durationSeconds : budget.durationSeconds = hold

theorem stepBudget_ok {intensity : Dimension → Nat} {hold callDuration : Nat} {budget : StepBudget}
    (result : stepBudget intensity hold callDuration = .ok budget) :
    BudgetOf intensity hold callDuration budget := by
  simp only [stepBudget, bind_ok, pure_ok, checkedMul_ok] at result
  obtain ⟨_, ⟨rfl, _⟩, _, ⟨rfl, _⟩, _, ⟨rfl, _⟩, _, ⟨rfl, _⟩, rfl⟩ := result
  exact ⟨rfl, rfl, rfl, rfl⟩

section
variable (maxima : Maxima) (workload : Workload) (ramp : Ramp) (tail : Nat)

/-- A step as the loop records it after the given earlier steps. -/
structure Scheduled (earlier : List PlanStep) (step : PlanStep) : Prop where
  index : step.index = earlier.length + 1
  startAtSeconds : step.startAtSeconds = (earlier.map (·.budget.durationSeconds)).sum
  holdSeconds : step.holdSeconds = maxima .holdSeconds
  intensity : step.intensity = intensityAt workload ramp step.level
  budget : BudgetOf step.intensity (maxima .holdSeconds) (workload .callDurationSeconds) step.budget

/-- The running totals are the sums over the recorded steps and are funded. -/
structure Ledger (totals : Totals) (steps : List PlanStep) : Prop where
  calls : totals.calls = (steps.map (·.budget.calls)).sum
  mediaPackets : totals.mediaPackets = (steps.map (·.budget.mediaPackets)).sum
  callSeconds : totals.callSeconds = (steps.map (·.budget.callSeconds)).sum
  rampDurationSeconds : totals.rampDurationSeconds = (steps.map (·.budget.durationSeconds)).sum
  callsFunded : totals.calls ≤ maxima .totalCalls
  durationFunded : totals.rampDurationSeconds + tail ≤ maxima .durationSeconds
  mediaBounded : totals.mediaPackets ≤ u64Max
  callSecondsBounded : totals.callSeconds ≤ u64Max
  scheduled : ∀ earlier step later, steps = earlier ++ step :: later →
    Scheduled maxima workload ramp earlier step

/-- Starting `level` after `totals` would exceed the calls or the duration. -/
def Breaks (totals : Totals) (level : Nat) : Prop :=
  ∃ budget, BudgetOf (intensityAt workload ramp level) (maxima .holdSeconds)
      (workload .callDurationSeconds) budget ∧
    (maxima .totalCalls < totals.calls + budget.calls ∨
      maxima .durationSeconds < totals.rampDurationSeconds + budget.durationSeconds + tail)

variable {maxima workload ramp tail}

theorem Ledger.append {totals : Totals} {steps : List PlanStep} {level : Nat} {budget : StepBudget}
    (ledger : Ledger maxima workload ramp tail totals steps)
    (spent : BudgetOf (intensityAt workload ramp level) (maxima .holdSeconds)
      (workload .callDurationSeconds) budget)
    (calls : totals.calls + budget.calls ≤ maxima .totalCalls)
    (duration : totals.rampDurationSeconds + budget.durationSeconds + tail ≤ maxima .durationSeconds)
    (media : totals.mediaPackets + budget.mediaPackets ≤ u64Max)
    (callSeconds : totals.callSeconds + budget.callSeconds ≤ u64Max) :
    Ledger maxima workload ramp tail
      ⟨totals.calls + budget.calls, totals.mediaPackets + budget.mediaPackets,
        totals.callSeconds + budget.callSeconds,
        totals.rampDurationSeconds + budget.durationSeconds⟩
      (steps ++ [⟨steps.length + 1, level, totals.rampDurationSeconds, maxima .holdSeconds,
        intensityAt workload ramp level, budget⟩]) where
  calls := by simp [ledger.calls]
  mediaPackets := by simp [ledger.mediaPackets]
  callSeconds := by simp [ledger.callSeconds]
  rampDurationSeconds := by simp [ledger.rampDurationSeconds]
  callsFunded := calls
  durationFunded := duration
  mediaBounded := media
  callSecondsBounded := callSeconds
  scheduled := by
    intro earlier step later split
    rcases List.append_eq_append_iff.mp split with ⟨middle, rfl, single⟩ | ⟨middle, rfl, rest⟩
    · cases middle with
      | nil =>
        simp only [List.nil_append, List.cons.injEq] at single
        obtain ⟨rfl, rfl⟩ := single
        rw [List.append_nil]
        exact ⟨rfl, ledger.rampDurationSeconds, rfl, rfl, spent⟩
      | cons head rest => simp at single
    · cases middle with
      | nil =>
        simp only [List.nil_append, List.cons.injEq] at rest
        obtain ⟨rfl, rfl⟩ := rest
        have start := ledger.rampDurationSeconds
        rw [List.append_nil] at start ⊢
        exact ⟨rfl, start, rfl, rfl, spent⟩
      | cons head rest' =>
        simp only [List.cons_append, List.cons.injEq] at rest
        obtain ⟨rfl, rfl⟩ := rest
        exact ledger.scheduled earlier step rest' rfl

/-- The loop keeps the ledger and records a prefix of the levels that is
maximal: it ends with them all, or before a level that breaks a budget. -/
theorem rampLoop_spec {expanded : List Nat} {totals final : Totals} {steps recorded : List PlanStep}
    {reason : Reason} (ledger : Ledger maxima workload ramp tail totals steps)
    (ran : rampLoop maxima workload ramp tail expanded totals steps = .ok (final, recorded, reason)) :
    Ledger maxima workload ramp tail final recorded ∧
    ∃ taken rest, expanded = taken ++ rest ∧
      recorded.map PlanStep.level = steps.map PlanStep.level ++ taken ∧
      (rest = [] ∧ reason = .authorizationCeiling ∨
        ∃ level more, rest = level :: more ∧ reason = .budgetExhausted ∧
          Breaks maxima workload ramp tail final level) := by
  induction expanded generalizing totals steps with
  | nil =>
    cases ran
    exact ⟨ledger, [], [], rfl, by simp, .inl ⟨rfl, rfl⟩⟩
  | cons level rest ih =>
    simp only [rampLoop, bind_ok] at ran
    obtain ⟨budget, spent, ran⟩ := ran
    have spent := stepBudget_ok spent
    simp only [checkedAdd_ok] at ran
    obtain ⟨_, ⟨rfl, _⟩, _, ⟨rfl, _⟩, _, ⟨rfl, _⟩, ran⟩ := ran
    split at ran
    · rename_i exceeded
      cases ran
      exact ⟨ledger, [], level :: rest, rfl, by simp,
        .inr ⟨level, rest, rfl, rfl, budget, spent, exceeded⟩⟩
    · rename_i funded
      simp only [bind_ok, checkedAdd_ok] at ran
      obtain ⟨_, ⟨rfl, media⟩, _, ⟨rfl, callSeconds⟩, ran⟩ := ran
      obtain ⟨kept, taken, remaining, rfl, levels, ending⟩ :=
        ih (ledger.append spent (by omega) (by omega) media callSeconds) ran
      refine ⟨kept, level :: taken, remaining, rfl, ?_, ending⟩
      simpa only [List.map_append, List.map_cons, List.map_nil, List.append_assoc,
        List.singleton_append] using levels

end
end Sippycup.Envelope
