import Sippycup.Envelope.Controller

/-! Whole runs of the ramp simulator on an accepted plan: they end, they stay
inside the plan, and without controls they serve all of it. -/
namespace Sippycup.Envelope
open Sippycup.Python Sippycup.Loop

variable {floats : Bool} {plan : EnvelopePlan} {frozen : Frozen} {document : Dict}
  {endpoint : Value → Result Unit} {c : Controller}

def sumBudgets (steps : List PlanStep) : Totals where
  calls := (steps.map (·.budget.calls)).sum
  mediaPackets := (steps.map (·.budget.mediaPackets)).sum
  callSeconds := (steps.map (·.budget.callSeconds)).sum
  rampDurationSeconds := (steps.map (·.budget.durationSeconds)).sum

/-- The consumed budget equals the totals. -/
structure Consumed.Is (consumed : Consumed) (totals : Totals) : Prop where
  calls : consumed.calls.Is totals.calls
  mediaPackets : consumed.mediaPackets.Is totals.mediaPackets
  callSeconds : consumed.callSeconds.Is totals.callSeconds
  rampDurationSeconds : consumed.rampDurationSeconds.Is totals.rampDurationSeconds

/-- A simulation as the plan allows it: the levels are a prefix of the plan's
climb, the consumption is theirs, and no step starts while the ramp is paused
or after it was stopped. -/
structure Simulation.InsidePlan (plan : EnvelopePlan) (sim : Simulation) : Prop where
  startedSteps : sim.startedSteps ≤ plan.steps.length
  levels : List.Forall₂ (fun level value => (nat level).eq value = true)
    (plan.levels.take sim.startedSteps) sim.testedLevels
  consumed : sim.consumedWorstCase.Is (sumBudgets (plan.steps.take sim.startedSteps))
  callsFunded : (Number.int (plan.hardMaxima .totalCalls)).lt sim.consumedWorstCase.calls = false
  holds : ∀ e ∈ sim.events, e.Starts → ∃ n : Nat, e.atSeconds.Is n ∧
    n + plan.hardMaxima .holdSeconds + plan.hardMaxima .cooldownSeconds +
      plan.hardMaxima .recoveryDeadlineSeconds ≤ plan.hardMaxima .durationSeconds
  quiet : Trace.Guarded Event.Starts MayStart sim.events

/-- The whole ramp was served, at the planned worst case. -/
structure Simulation.Complete (plan : EnvelopePlan) (sim : Simulation) : Prop where
  state : sim.state = .completed
  startedSteps : sim.startedSteps = plan.steps.length
  consumed : sim.consumedWorstCase.Is plan.totals

/-- What a simulation owes for an accepted plan and accepted controls. -/
def StaysInsidePlan (value controls : Value) (endpoint : Value → Result Unit) : Prop :=
  ∀ document commands, validateEnvelopePlan value = .ok document →
    normalizeCommands controls = .ok commands →
    ∃ plan result, Accepts plan document ∧
      simulateEnvelopePlan value controls endpoint = some result ∧
      (∀ sim, result = .ok sim → sim.InsidePlan plan) ∧
      (commands = [] → (∀ step, endpoint step = .ok ()) →
        ∃ sim, result = .ok sim ∧ sim.Complete plan)

/-- The totals below which accounting in floats loses nothing. -/
structure Small (plan : EnvelopePlan) : Prop where
  duration : plan.hardMaxima .durationSeconds < exactLimit
  calls : plan.totals.calls < exactLimit
  mediaPackets : plan.totals.mediaPackets < exactLimit
  callSeconds : plan.totals.callSeconds < exactLimit

theorem sum_take_le {α : Type} (f : α → Nat) (xs : List α) (count : Nat) :
    ((xs.take count).map f).sum ≤ (xs.map f).sum := by
  conv_rhs => rw [← List.take_append_drop count xs]
  rw [List.map_append, List.sum_append]
  exact Nat.le_add_right _ _

section
variable (authority : plan.WithinAuthority) (small : floats = true → Small plan)

include authority small

/-- What the final controller has recorded, read as numbers. -/
theorem Recorded.insidePlan (recorded : Recorded plan floats c.nextStep c.consumed c.events) :
    c.summary.InsidePlan plan := by
  have ledger := authority.ledger
  have durationFunded := ledger.durationFunded
  have calls := sum_take_le (·.budget.calls) plan.steps c.nextStep
  have media := sum_take_le (·.budget.mediaPackets) plan.steps c.nextStep
  have seconds := sum_take_le (·.budget.callSeconds) plan.steps c.nextStep
  have duration := sum_take_le (·.budget.durationSeconds) plan.steps c.nextStep
  rw [← ledger.calls] at calls
  rw [← ledger.mediaPackets] at media
  rw [← ledger.callSeconds] at seconds
  rw [← ledger.rampDurationSeconds] at duration
  have callsSmall : floats = true → _ := fun used => calls.trans_lt (small used).calls
  refine {
    startedSteps := recorded.within
    levels := recorded.levels
    consumed := ?_
    callsFunded := recorded.tally.calls.not_lt (calls.trans ledger.callsFunded) callsSmall
    holds := ?_
    quiet := recorded.quiet }
  · refine ⟨recorded.tally.calls.is callsSmall, recorded.tally.mediaPackets.is fun used => ?_,
      recorded.tally.callSeconds.is fun used => ?_,
      recorded.tally.rampDurationSeconds.is fun used => ?_⟩
    · exact media.trans_lt (small used).mediaPackets
    · exact seconds.trans_lt (small used).callSeconds
    · have := (small used).duration
      omega
  · intro e member starts
    obtain ⟨n, counts, within⟩ := recorded.holds e member starts
    unfold EnvelopePlan.reservedTail at within
    refine ⟨n, counts.is fun used => ?_, by omega⟩
    have := (small used).duration
    omega

end

theorem Controller.initial_phase (groups : List Group) :
    ((Controller.initial groups).emit (.int 0) .started []).Phase := .inl ⟨rfl, rfl⟩

/-- The simulator ends on every input: each further turn takes a control group
or starts a step. -/
theorem simulateEnvelopePlan_terminates (value controls : Value)
    (endpoint : Value → Result Unit) :
    ∃ result, simulateEnvelopePlan value controls endpoint = some result := by
  unfold simulateEnvelopePlan
  split
  · exact ⟨_, rfl⟩
  · rename_i frozen groups _
    have enough : ((Controller.initial groups).emit (.int 0) .started []).remaining frozen <
        groups.length + frozen.steps.length + 1 := by
      simp [Controller.remaining, Controller.initial, Controller.emit]
    obtain ⟨result, ran⟩ := run_terminates (Controller.remaining frozen)
      (Controller.initial_phase groups)
      (fun s t phase (step : turn frozen endpoint s = _) => turn_again phase step) enough
    exact ⟨_, by dsimp only; rw [ran]; rfl⟩

theorem Controller.initial_live (groups : List Group) :
    Live floats ((Controller.initial groups).emit (.int 0) .started []) where
  phase := Controller.initial_phase groups
  clock := by
    intro start due
    cases due
    exact ⟨0, Number.counts_int 0⟩
  mayStart := by
    intro _
    refine ⟨?_, by simp [Controller.emit, Controller.initial, Event.Stops]⟩
    rw [Controller.emit, Trace.pending_concat]
    simp [Event.Pauses, Controller.initial]
  unstopped := by simp [Controller.emit, Controller.initial, Event.Stops]

theorem Controller.initial_recorded (plan : EnvelopePlan) (groups : List Group) :
    Recorded plan floats 0 (Controller.initial groups).consumed
      ((Controller.initial groups).emit (.int 0) .started []).events := by
  refine Recorded.quietly ?_ (by simp [Event.Starts])
  exact {
    within := Nat.zero_le _
    tally := ⟨.inl rfl, .inl rfl, .inl rfl, .inl rfl⟩
    levels := by simp [Controller.initial]
    holds := by simp [Controller.initial]
    quiet := Trace.guarded_nil }

section
variable (freezes : Freezes plan frozen) (priced : AllPriced floats plan frozen)
  (authority : plan.WithinAuthority) (small : floats = true → Small plan)

include freezes priced small

/-- The invariant of the loop, over a whole run. -/
theorem run_recorded {groups : List Group} {fuel : Nat} {final : Controller}
    (ran : run (turn frozen endpoint) fuel ((Controller.initial groups).emit (.int 0) .started []) =
      some (.ok final)) : Recorded plan floats final.nextStep final.consumed final.events := by
  have duration : floats = true → plan.hardMaxima .durationSeconds < exactLimit :=
    fun used => (small used).duration
  refine run_invariant (P := fun c => Live floats c ∧
    Recorded plan floats c.nextStep c.consumed c.events)
    (Q := fun c => Recorded plan floats c.nextStep c.consumed c.events) ?_ ?_ ?_ ran
  · exact ⟨Controller.initial_live groups, Controller.initial_recorded plan groups⟩
  · rintro c next _ ⟨live, recorded⟩ step
    exact turn_again_recorded freezes priced duration live recorded step
  · rintro c final _ ⟨live, recorded⟩ step
    exact turn_leave_recorded freezes priced duration live recorded step

end

theorem EnvelopePlan.WithinAuthority.maxima_bounded (authority : plan.WithinAuthority)
    (key : MaximaKey) : plan.hardMaxima key ≤ u64Max := by
  refine authority.bounded _ ?_
  have member := List.mem_map_of_mem (f := plan.hardMaxima) (mem_maximaKeys key)
  simp only [EnvelopePlan.numbers, List.mem_append]
  exact .inl (.inl (.inl (.inl (.inr member))))

/-- A funded step is not turned down. -/
theorem budgetExhausted_served {consumed : Consumed} {now calls hold : Number} {n h k m r : Nat}
    (freezes : Freezes plan frozen) (authority : plan.WithinAuthority)
    (small : floats = true → Small plan) (clock : now.Counts floats n)
    (held : hold.Counts floats h) (called : calls.Counts floats k)
    (soFar : consumed.calls.Counts floats m) (ramp : consumed.rampDurationSeconds.Counts floats r)
    (callsFunded : m + k ≤ plan.totals.calls)
    (durationFunded : r + h + plan.reservedTail ≤ plan.hardMaxima .durationSeconds)
    (inTime : n + h + plan.reservedTail ≤ plan.hardMaxima .durationSeconds) :
    budgetExhausted frozen consumed now calls hold = .ok false := by
  have callsBound := callsFunded.trans authority.ledger.callsFunded
  have totalCalls := authority.maxima_bounded .totalCalls
  have durationBound := authority.maxima_bounded .durationSeconds
  have callsSmall : floats = true → m + k < exactLimit :=
    fun used => callsFunded.trans_lt (small used).calls
  have below : ∀ x ≤ plan.hardMaxima .durationSeconds, floats = true → x < exactLimit :=
    fun x bound used => bound.trans_lt (small used).duration
  obtain ⟨prospectiveCalls, callsOk⟩ := checkedAddNumber_some "consumed calls" soFar
    called (by omega) callsSmall
  obtain ⟨prospectiveDuration, durationOk⟩ := checkedAddNumber_some "consumed ramp duration" ramp held (by omega) (below _ (by omega))
  obtain ⟨afterHold, afterOk⟩ := checkedAddNumber_some "wall-clock hold deadline" clock
    held (by omega) (below _ (by omega))
  have tail : (Number.int plan.reservedTail).Counts floats plan.reservedTail :=
    Number.counts_int _
  have after := checkedAddNumber_ok clock held afterOk
  have prospective := checkedAddNumber_ok ramp held durationOk
  obtain ⟨withRecovery, recoveryOk⟩ := checkedAddNumber_some "wall-clock recovery deadline" after tail (by omega) (below _ inTime)
  obtain ⟨remaining, remainingOk⟩ := checkedAddNumber_some "remaining duration"
    prospective tail (by omega) (below _ durationFunded)
  have calls_ : frozen.totalCalls.lt prospectiveCalls = false := by
    rw [freezes.totalCalls]
    exact (checkedAddNumber_ok soFar called callsOk).not_lt callsBound callsSmall
  have remaining_ : frozen.durationSeconds.lt remaining = false := by
    rw [freezes.durationSeconds]
    exact (checkedAddNumber_ok prospective tail remainingOk).not_lt durationFunded
      (below _ durationFunded)
  have recovery_ : frozen.durationSeconds.lt withRecovery = false := by
    rw [freezes.durationSeconds]
    exact (checkedAddNumber_ok after tail recoveryOk).not_lt inTime (below _ inTime)
  have reserved : frozen.cooldownSeconds.add? frozen.recoveryDeadlineSeconds =
      some (.int plan.reservedTail) := by
    rw [freezes.cooldownSeconds, freezes.recoveryDeadlineSeconds, Number.add?_int]
    simp [EnvelopePlan.reservedTail]
  simp only [budgetExhausted, bind_ok, overflow_ok]
  refine ⟨_, callsOk, _, durationOk, _, afterOk, _, reserved, _, recoveryOk, ?_⟩
  rw [calls_, if_neg Bool.false_ne_true, bind_ok]
  exact ⟨_, remainingOk, by rw [remaining_, recovery_]; rfl⟩

/-- An uncontrolled ramp between two holds: the next level is due at the end
of the last one. -/
structure Serving (plan : EnvelopePlan) (floats : Bool) (c : Controller) : Prop where
  groups : c.groups = []
  running : c.state = .running
  within : c.nextStep ≤ plan.steps.length
  tally : Tally floats c.consumed (plan.steps.take c.nextStep)
  due : ∃ start, c.nextStart = some start ∧
    start.Counts floats ((plan.steps.take c.nextStep).map (·.budget.durationSeconds)).sum

theorem Serving.initial : Serving plan floats ((Controller.initial []).emit (.int 0) .started []) where
  groups := rfl
  running := rfl
  within := Nat.zero_le _
  tally := ⟨.inl rfl, .inl rfl, .inl rfl, .inl rfl⟩
  due := ⟨.int 0, rfl, .inl rfl⟩

theorem stepDetails_some {s : PlanStep} {fields budget : Dict} (priced : Priced floats s fields budget) :
    ∃ details, stepDetails fields budget = .ok details := by
  obtain ⟨index, indexRead⟩ := priced.index
  obtain ⟨level, levelRead, _⟩ := priced.level
  obtain ⟨intensity, intensityRead⟩ := priced.intensity
  simp only [stepDetails, bind_ok, Dict.item_ok]
  exact ⟨_, index, indexRead, level, levelRead, intensity, intensityRead, rfl⟩

/-- A sum that is added up without raising. -/
def Fits (floats : Bool) (sum : Nat) : Prop :=
  sum ≤ u64Max ∧ (floats = true → sum < exactLimit)

theorem spend_some {s : PlanStep} {fields budget : Dict} {consumed : Consumed}
    {earlier : List PlanStep} (priced : Priced floats s fields budget)
    (tally : Tally floats consumed earlier)
    (calls : Fits floats ((earlier.map (·.budget.calls)).sum + s.budget.calls))
    (media : Fits floats ((earlier.map (·.budget.mediaPackets)).sum + s.budget.mediaPackets))
    (seconds : Fits floats ((earlier.map (·.budget.callSeconds)).sum + s.budget.callSeconds))
    (duration :
      Fits floats ((earlier.map (·.budget.durationSeconds)).sum + s.budget.durationSeconds)) :
    ∃ spent, consumed.spend budget = .ok spent := by
  obtain ⟨_, callsRead, callsCount⟩ := priced.calls
  obtain ⟨_, mediaRead, mediaCount⟩ := priced.mediaPackets
  obtain ⟨_, secondsRead, secondsCount⟩ := priced.callSeconds
  obtain ⟨_, durationRead, durationCount⟩ := priced.durationSeconds
  obtain ⟨_, callsOk⟩ := checkedAddNumber_some "consumed calls" tally.calls callsCount
    calls.1 calls.2
  obtain ⟨_, mediaOk⟩ := checkedAddNumber_some "consumed mediaPackets" tally.mediaPackets
    mediaCount media.1 media.2
  obtain ⟨_, secondsOk⟩ := checkedAddNumber_some "consumed callSeconds" tally.callSeconds
    secondsCount seconds.1 seconds.2
  obtain ⟨_, durationOk⟩ := checkedAddNumber_some "consumed rampDurationSeconds"
    tally.rampDurationSeconds durationCount duration.1 duration.2
  simp only [Consumed.spend, bind_ok]
  exact ⟨_, _, ⟨_, callsRead, callsOk⟩, _, ⟨_, mediaRead, mediaOk⟩, _, ⟨_, secondsRead, secondsOk⟩,
    _, ⟨_, durationRead, durationOk⟩, rfl⟩

theorem sum_take_step (f : PlanStep → Nat) {steps : List PlanStep} {count : Nat} {s : PlanStep}
    (found : steps[count]? = some s) :
    ((steps.take count).map f).sum + f s ≤ (steps.map f).sum := by
  have next := sum_take_le f steps (count + 1)
  rw [List.take_add_one, found] at next
  simpa using next

theorem Ledger.scheduled_at {maxima : Maxima} {workload : Workload} {ramp : Ramp} {tail : Nat}
    {totals : Totals} {steps : List PlanStep} (ledger : Ledger maxima workload ramp tail totals steps)
    {count : Nat} {s : PlanStep} (found : steps[count]? = some s) :
    Scheduled maxima workload ramp (steps.take count) s := by
  refine ledger.scheduled _ s (steps.drop (count + 1)) ?_
  obtain ⟨within, rfl⟩ := List.getElem?_eq_some_iff.mp found
  rw [List.getElem_cons_drop, List.take_append_drop]

section
variable (freezes : Freezes plan frozen) (priced : AllPriced floats plan frozen)
  (authority : plan.WithinAuthority) (small : floats = true → Small plan)

include freezes priced authority small

theorem serve_step (same : frozen.steps.length = plan.steps.length)
    (served : ∀ step, endpoint step = .ok ()) (serving : Serving plan floats c)
    (more : c.nextStep < plan.steps.length) :
    ∃ next, turn frozen endpoint c = .ok (.again next) ∧ Serving plan floats next ∧
      next.nextStep = c.nextStep + 1 := by
  obtain ⟨start, due, clock⟩ := serving.due
  obtain ⟨step, found⟩ : ∃ step, frozen.steps[c.nextStep]? = some step :=
    ⟨_, List.getElem?_eq_getElem (by omega)⟩
  obtain ⟨s, fields, budget, planned, rfl, priced, held⟩ := priced _ _ found
  have ledger := authority.ledger
  have scheduled := ledger.scheduled_at planned
  have hold : s.budget.durationSeconds = s.holdSeconds := by
    rw [scheduled.budget.durationSeconds, held]
  have calls := sum_take_step (·.budget.calls) planned
  have media := sum_take_step (·.budget.mediaPackets) planned
  have seconds := sum_take_step (·.budget.callSeconds) planned
  have duration := sum_take_step (·.budget.durationSeconds) planned
  rw [← ledger.calls] at calls
  rw [← ledger.mediaPackets] at media
  rw [← ledger.callSeconds] at seconds
  rw [← ledger.rampDurationSeconds, hold] at duration
  have durationFunded := ledger.durationFunded
  have callsBound := ledger.callsFunded.trans (authority.maxima_bounded .totalCalls)
  have durationBound := authority.maxima_bounded .durationSeconds
  have mediaBound := ledger.mediaBounded
  have secondsBound := ledger.callSecondsBounded
  obtain ⟨a, callsRead, callsCount⟩ := priced.calls
  obtain ⟨h, holdRead, holdCount⟩ := priced.holdSeconds
  have open_ := budgetExhausted_served freezes authority small clock holdCount callsCount
    serving.tally.calls serving.tally.rampDurationSeconds calls (by omega) (by omega)
  obtain ⟨spent, spentOk⟩ := spend_some priced serving.tally
    ⟨by omega, fun used => calls.trans_lt (small used).calls⟩
    ⟨by omega, fun used => media.trans_lt (small used).mediaPackets⟩
    ⟨by omega, fun used => seconds.trans_lt (small used).callSeconds⟩
    ⟨by omega, fun used => by have := (small used).duration; omega⟩
  obtain ⟨details, detailsOk⟩ := stepDetails_some priced
  obtain ⟨nextStart, nextOk⟩ := clock.add_some holdCount fun used => by
    have := (small used).duration
    omega
  have started : startStep frozen endpoint c start (.dict fields) =
      .ok (.again (c.started start spent details nextStart)) := by
    simp only [startStep, bind_ok]
    refine ⟨_, rfl, _, dictItem_ok.2 priced.budgetRead, _, callsRead, _, holdRead, _, open_, ?_⟩
    simp only [Bool.false_eq_true, if_false, bind_ok, overflow_ok]
    exact ⟨_, spentOk, _, served _, _, detailsOk, _, nextOk, rfl⟩
  refine ⟨c.started start spent details nextStart, ?_, ?_, rfl⟩
  · simp [turn, serving.groups, serving.running, due, ControllerState.terminal, rampEvent, found,
      started]
  · have taken : plan.steps.take (c.nextStep + 1) = plan.steps.take c.nextStep ++ [s] := by
      rw [List.take_add_one, planned]
      rfl
    exact {
      groups := serving.groups
      running := serving.running
      within := more
      tally := by
        rw [Controller.started, taken]
        exact spend_ok priced serving.tally spentOk
      due := by
        refine ⟨nextStart, rfl, ?_⟩
        rw [Controller.started, taken, List.map_append, List.sum_append, List.map_singleton,
          List.sum_singleton, hold]
        exact clock.add holdCount nextOk }

/-- Without controls every level is started and the run completes. -/
theorem serve_run (same : frozen.steps.length = plan.steps.length)
    (served : ∀ step, endpoint step = .ok ()) (serving : Serving plan floats c) {fuel : Nat}
    (enough : plan.steps.length - c.nextStep < fuel) :
    ∃ final, run (turn frozen endpoint) fuel c = some (.ok final) ∧ final.state = .completed ∧
      final.nextStep = plan.steps.length := by
  refine run_succeeds (P := Serving plan floats) (fun c => plan.steps.length - c.nextStep) serving
    (fun c serving => ?_) enough
  rcases Nat.lt_or_ge c.nextStep plan.steps.length with more | done
  · obtain ⟨next, step, kept, count⟩ :=
      serve_step freezes priced authority small same served serving more
    exact .inr ⟨next, step, kept, by omega⟩
  · obtain ⟨start, due, _⟩ := serving.due
    have all : c.nextStep = plan.steps.length := Nat.le_antisymm serving.within done
    have none : frozen.steps[c.nextStep]? = none := List.getElem?_eq_none (by omega)
    refine .inl ⟨c.completed start frozen.reason, ?_, rfl, all⟩
    simp [turn, serving.groups, serving.running, due, ControllerState.terminal, rampEvent, none]

end

/-- `document[key]`, where it is a mapping. -/
def child (document : Dict) (key : String) : Dict :=
  match document.get? key with
  | some (.dict entries) => entries
  | _ => []

def stepValues (document : Dict) : List Value :=
  match document.get? "steps" with
  | some (.list steps) => steps
  | _ => []

/-- The authorized duration and the planned consumption. -/
def accountedTotals (document : Dict) : List Value :=
  (child (child document "authorization") "hardMaxima").getD "durationSeconds" .none ::
    ["calls", "mediaPackets", "callSeconds"].map
      fun (key : String) => (child document "plannedWorstCase").getD key .none

/-- Accounting is exact: no step has a float among its numbers, or all totals
are small enough for binary64. -/
def AccountsExactly (document : Dict) : Prop :=
  (∀ step ∈ stepValues document, ∀ number ∈ spentNumbers step, number.isFloat = false) ∨
    ∀ total ∈ accountedTotals document, ∀ n, total.number? = some n →
      n.lt (.int exactLimit) = true

theorem small_of_eq {n : Nat} {value : Value} (same : (nat n).eq value = true)
    (small : ∀ m, value.number? = some m → m.lt (.int exactLimit) = true) : n < exactLimit := by
  obtain ⟨m, number, equal⟩ := Value.eq_int.mp same
  have below := small m number
  have exact : m.exact = some (.inl (n : Rat)) := by
    cases m with
    | int k =>
      simp only [Number.eq_int, decide_eq_true_eq] at equal
      rw [← equal]
      exact Number.exact_int n
    | float x =>
      rw [(Number.eq_int_float _ _).mp equal]
      simp [Number.exact]
  rw [Number.lt_exact exact (Number.exact_int exactLimit)] at below
  simpa using below

def totalsValue (plan : EnvelopePlan) : Dict :=
  [Dict.entry "calls" (nat plan.totals.calls),
    Dict.entry "mediaPackets" (nat plan.totals.mediaPackets),
    Dict.entry "callSeconds" (nat plan.totals.callSeconds),
    Dict.entry "rampDurationSeconds" (nat plan.totals.rampDurationSeconds),
    Dict.entry "cooldownSeconds" (nat (plan.hardMaxima .cooldownSeconds)),
    Dict.entry "recoveryDeadlineSeconds" (nat (plan.hardMaxima .recoveryDeadlineSeconds)),
    Dict.entry "totalDurationSeconds" (nat plan.totalDurationSeconds)]

theorem accepts_totals (accepts : Accepts plan document) :
    ∃ planned : Dict, document.get? "plannedWorstCase" = some (.dict planned) ∧
      ∀ key u, Dict.get? (totalsValue plan) key = some u →
        ∃ w, planned.get? key = some w ∧ u.eq w = true := by
  obtain ⟨_, same, entries⟩ := Value.eq_dict accepts.same
  cases same
  obtain ⟨worst, worstRead, worstSame⟩ := entries "plannedWorstCase" (.dict (totalsValue plan))
    (by simp [totalsValue])
  obtain ⟨planned, rfl, totals⟩ := Value.eq_dict worstSame
  exact ⟨planned, worstRead, totals⟩

theorem small_of_accepts (accepts : Accepts plan document)
    (small : ∀ total ∈ accountedTotals document, ∀ n, total.number? = some n →
      n.lt (.int exactLimit) = true) : Small plan := by
  obtain ⟨authorization, maxima, auth, hard, read⟩ := accepts.maxima
  obtain ⟨planned, worstRead, totals⟩ := accepts_totals accepts
  obtain ⟨calls, callsRead, callsSame⟩ := totals "calls" (nat plan.totals.calls)
    (by simp [totalsValue])
  obtain ⟨media, mediaRead, mediaSame⟩ :=
    totals "mediaPackets" (nat plan.totals.mediaPackets) (by simp [totalsValue])
  obtain ⟨seconds, secondsRead, secondsSame⟩ :=
    totals "callSeconds" (nat plan.totals.callSeconds) (by simp [totalsValue])
  have duration := read .durationSeconds
  simp only [MaximaKey.name] at duration
  simp only [accountedTotals, child, auth, hard, worstRead, Dict.getD, duration, callsRead, mediaRead,
    secondsRead, List.map_cons, List.map_nil, Option.getD_some, List.mem_cons, List.not_mem_nil,
    or_false, forall_eq_or_imp, forall_eq] at small
  obtain ⟨durationSmall, callsSmall, mediaSmall, secondsSmall⟩ := small
  exact ⟨small_of_eq (Value.eq_int.mpr ⟨_, rfl, by simp⟩) durationSmall, small_of_eq callsSame callsSmall,
    small_of_eq mediaSame mediaSmall, small_of_eq secondsSame secondsSmall⟩

theorem allPriced (accepts : Accepts plan document) (freezes : Freezes plan frozen)
    (whole : floats = false →
      ∀ step ∈ frozen.steps, ∀ number ∈ spentNumbers step, number.isFloat = false) :
    AllPriced floats plan frozen := by
  intro index step found
  have member := List.mem_of_getElem? found
  obtain ⟨within, rfl⟩ := List.getElem?_eq_some_iff.mp found
  have counted := freezes.steps.length_eq
  have planned : plan.steps[index]? = some plan.steps[index] :=
    List.getElem?_eq_getElem (counted ▸ within)
  have same := (List.forall₂_iff_get.mp freezes.steps).2 index (counted ▸ within) within
  obtain ⟨fields, budget, written, priced⟩ :=
    priced_of_eq same fun off : floats = false => whole off _ member
  have held := (accepts.authority.ledger.scheduled_at planned).holdSeconds
  exact ⟨_, fields, budget, planned, written, priced, held⟩

/-- Every float-free plan, and every plan with small totals, is read exactly. -/
theorem reads_exactly (accepts : Accepts plan document) (freezes : Freezes plan frozen)
    (steps : document.get? "steps" = some (.list frozen.steps))
    (exactly : AccountsExactly document) :
    ∃ floats, AllPriced floats plan frozen ∧ (floats = true → Small plan) := by
  rcases exactly with whole | small
  · refine ⟨false, allPriced accepts freezes fun _ => ?_, by simp⟩
    simpa only [stepValues, steps] using whole
  · exact ⟨true, allPriced accepts freezes (by simp), fun _ => small_of_accepts accepts small⟩

/-- A simulation of an accepted plan is a run of the frozen ramp. -/
theorem simulate_eq {value controls : Value} {commands : List Control}
    (accepted : validateEnvelopePlan value = .ok document)
    (normalized : normalizeCommands controls = .ok commands)
    (frozenOk : freeze document = .ok frozen) :
    simulateEnvelopePlan value controls endpoint =
      (run (turn frozen endpoint) ((groupCommands commands).length + frozen.steps.length + 1)
        ((Controller.initial (groupCommands commands)).emit (.int 0) .started [])).map
        fun result => result.map Controller.summary := by
  have prepared : prepare value controls = .ok (frozen, groupCommands commands) := by
    simp [prepare, accepted, normalized, frozenOk, pure, Except.pure]
  simp [simulateEnvelopePlan, prepared]

theorem map_ok {ε α β : Type} {f : α → β} {x : Except ε α} {b : β} (mapped : x.map f = .ok b) :
    ∃ a, x = .ok a ∧ f a = b := by
  cases x with
  | ok a => exact ⟨a, rfl, Except.ok.inj mapped⟩
  | error e => cases mapped

/-- The simulated ramp stays inside every accepted plan it accounts exactly. -/
theorem simulation_stays_inside_plan (value controls : Value) (endpoint : Value → Result Unit)
    (exactly : ∀ document, validateEnvelopePlan value = .ok document → AccountsExactly document) :
    StaysInsidePlan value controls endpoint := by
  intro document commands accepted normalized
  obtain ⟨_, plan, accepts⟩ := validateEnvelopePlan_ok accepted
  obtain ⟨frozen, frozenOk, freezes, steps⟩ := freeze_of_accepts accepts
  obtain ⟨floats, priced, small⟩ := reads_exactly accepts freezes steps (exactly _ accepted)
  have authority := accepts.authority
  obtain ⟨result, simulated⟩ := simulateEnvelopePlan_terminates value controls endpoint
  have ran := simulated
  rw [simulate_eq accepted normalized frozenOk, Option.map_eq_some_iff] at ran
  obtain ⟨outcome, ran, rfl⟩ := ran
  have inside : ∀ final, outcome = .ok final → final.summary.InsidePlan plan := by
    rintro final rfl
    exact (run_recorded freezes priced small ran).insidePlan authority small
  refine ⟨plan, _, accepts, simulated, fun sim ended => ?_, fun none served => ?_⟩
  · obtain ⟨final, left, rfl⟩ := map_ok ended
    exact inside final left
  · subst none
    have same := freezes.steps.length_eq
    have enough : plan.steps.length - 0 < (groupCommands []).length + frozen.steps.length + 1 := by
      omega
    obtain ⟨final, served, completed, all⟩ :=
      serve_run freezes priced authority small same.symm served Serving.initial enough
    obtain rfl := Option.some.inj (served.symm.trans ran)
    refine ⟨_, rfl, completed, all, ?_⟩
    have consumed := (inside final rfl).consumed
    have totals : sumBudgets plan.steps = plan.totals := by
      have ledger := authority.ledger
      simp only [sumBudgets, ← ledger.calls, ← ledger.mediaPackets, ← ledger.callSeconds,
        ← ledger.rampDurationSeconds]
    rwa [Controller.summary, all, List.take_length, totals] at consumed

/-- A two-level media ramp from `2 ^ 53 + 1` to `2 ^ 54` packets a second. -/
def mediaPlan : EnvelopePlan where
  name := "media-ramp"
  manifestSha256 := ⟨List.replicate 64 48⟩
  sourceMaxima := mediaMaxima
  hardMaxima := mediaMaxima
  workload
    | .dimension .mediaPacketsPerSecond => 2 ^ 53 + 1
    | _ => 1
  ramp := ⟨.mediaPacketsPerSecond, 2 ^ 53 + 1, 2 ^ 53⟩
  totals := ⟨2, 2 ^ 53 + 1 + 2 ^ 54, 2, 2⟩
  totalDurationSeconds := 4
  reason := .authorizationCeiling
  ceilingReached := true
  steps := [mediaStep 1 (2 ^ 53 + 1) 0, mediaStep 2 (2 ^ 54) 1]
where
  mediaMaxima : Maxima
    | .dimension .mediaPacketsPerSecond => 2 ^ 54
    | .durationSeconds => 4
    | .totalCalls => 2
    | _ => 1
  mediaStep (index level start : Nat) : PlanStep :=
    { index, level, startAtSeconds := start, holdSeconds := 1
      intensity := fun
        | .mediaPacketsPerSecond => level
        | _ => 1
      budget := ⟨1, level, 1, 1⟩ }

/-- The plan's second level with its media packets written as a float. -/
def floatStep : Value :=
  .dict [Dict.entry "index" (nat 2), Dict.entry "level" (nat (2 ^ 54)),
    Dict.entry "startAtSeconds" (nat 1), Dict.entry "holdSeconds" (nat 1),
    Dict.entry "intensity" (.dict [Dict.entry "callsPerSecond" (nat 1),
      Dict.entry "concurrentCalls" (nat 1), Dict.entry "mediaPacketsPerSecond" (nat (2 ^ 54))]),
    Dict.entry "budget" (.dict [Dict.entry "calls" (nat 1),
      Dict.entry "mediaPackets" (.float (.finite (2 ^ 54))), Dict.entry "callSeconds" (nat 1),
      Dict.entry "durationSeconds" (nat 1)])]

def floatDocument : Dict :=
  match mediaPlan.value with
  | .dict entries => entries.dropLast ++
      [Dict.entry "steps" (.list ((mediaPlan.steps.take 1).map stepValue ++ [floatStep]))]
  | _ => []

/-- The float plan is accepted, and the first sum with the float is rounded. -/
theorem float_media_is_rounded :
    ¬ StaysInsidePlan (.dict floatDocument) .none fun _ => .ok () := by
  have accepted : (validateEnvelopePlan (.dict floatDocument)).isOk = true := by decide +kernel
  have planned : ((child floatDocument "plannedWorstCase").get? "mediaPackets").bind Value.number? =
      some (.int (2 ^ 53 + 1 + 2 ^ 54)) := by decide +kernel
  have rounded : ((simulateEnvelopePlan (.dict floatDocument) .none fun _ => .ok ()).map
      fun result => result.toOption.map fun sim => sim.consumedWorstCase.mediaPackets) =
      some (some (.float (.finite (2 ^ 53 + 2 ^ 54)))) := by decide +kernel
  intro stays
  obtain ⟨document, accepted⟩ := isOk_iff.mp accepted
  obtain ⟨same, _⟩ := validateEnvelopePlan_ok accepted
  cases same
  obtain ⟨plan, result, accepts, simulated, _, uncontrolled⟩ := stays _ [] accepted rfl
  obtain ⟨sim, rfl, complete⟩ := uncontrolled rfl fun _ => rfl
  rw [simulated] at rounded
  have consumed : sim.consumedWorstCase.mediaPackets = .float (.finite (2 ^ 53 + 2 ^ 54)) := by
    simpa [Except.toOption] using rounded
  obtain ⟨entries, worstRead, totals⟩ := accepts_totals accepts
  obtain ⟨media, mediaRead, mediaSame⟩ := totals "mediaPackets" (nat plan.totals.mediaPackets)
    (by simp [totalsValue])
  obtain ⟨m, number, equal⟩ := Value.eq_int.mp mediaSame
  simp only [child, worstRead, mediaRead, Option.bind_some, number, Option.some.injEq] at planned
  subst planned
  have total : (plan.totals.mediaPackets : Int) = 2 ^ 53 + 1 + 2 ^ 54 := by simpa using equal
  have is := complete.consumed.mediaPackets
  rw [Number.Is, consumed, total] at is
  exact absurd is (by decide +kernel)

/-- The same ramp in integers, paused and resumed. -/
theorem media_plan_stays_inside :
    (validateEnvelopePlan mediaPlan.value).isOk = true ∧
      StaysInsidePlan mediaPlan.value
        (.list [.dict [Dict.entry "atSeconds" (nat 1), Dict.entry "command" (.str "pause")],
          .dict [Dict.entry "atSeconds" (nat 2), Dict.entry "command" (.str "resume")]])
        fun _ => .ok () := by
  refine ⟨by decide +kernel, simulation_stays_inside_plan _ _ _ fun document accepted => ?_⟩
  obtain ⟨same, _⟩ := validateEnvelopePlan_ok accepted
  cases same
  left
  decide +kernel

end Sippycup.Envelope
