import Sippycup.Envelope.RampRun

/-! How far apart a controlled ramp starts its levels. A resume makes the next
level due at once, so a hold is served exactly when no resume comes before its
end. -/
namespace Sippycup.Envelope
open Sippycup.Python Sippycup.Loop

variable {floats : Bool} {plan : EnvelopePlan} {frozen : Frozen} {document : Dict}
  {endpoint : Value → Result Unit} {c : Controller} {hold : Nat}

def Event.startTime? (e : Event) : Option Number :=
  if e.kind = .stepStarted then some e.atSeconds else none

/-- When the levels were started. -/
def startTimes (events : List Event) : List Number := events.filterMap Event.startTime?

def Apart (hold m n : Nat) : Prop := m + hold ≤ n

theorem chain_climbs {seconds : List Nat} (apart : seconds.IsChain (Apart hold)) :
    ∀ (index n : Nat), seconds[index]? = some n → index * hold ≤ n := by
  intro index
  induction index with
  | zero =>
    intro n _
    rw [Nat.zero_mul]
    exact Nat.zero_le n
  | succ index ih =>
    intro n found
    obtain ⟨within, rfl⟩ := List.getElem?_eq_some_iff.mp found
    have earlier := ih _ (List.getElem?_eq_getElem (by omega))
    have next := List.isChain_iff_getElem.mp apart index within
    rw [Nat.succ_mul]
    exact (Nat.add_le_add_right earlier hold).trans next

theorem chain_concat {seconds : List Nat} {n : Nat} (apart : seconds.IsChain (Apart hold))
    (after : ∀ m ∈ seconds, Apart hold m n) : (seconds ++ [n]).IsChain (Apart hold) := by
  refine List.isChain_append.mpr ⟨apart, List.isChain_singleton n, ?_⟩
  intro m last k first
  simp only [List.head?_cons, Option.mem_def, Option.some.injEq] at first
  subst first
  exact after m (List.mem_of_getLast? last)

/-- The hold of every step is read as the plan has it. -/
def HoldsRead (floats : Bool) (plan : EnvelopePlan) (frozen : Frozen) : Prop :=
  ∀ (index : Nat) (step : Value), frozen.steps[index]? = some step → ∃ fields : Dict,
    step = .dict fields ∧
      ReadsNumber floats fields "holdSeconds" (plan.hardMaxima .holdSeconds)

section
variable (freezes : Freezes plan frozen) (held : HoldsRead floats plan frozen)
  (small : floats = true → plan.hardMaxima .durationSeconds < exactLimit)

include freezes held small

/-- A step that starts leaves its hold to be served before the next one. -/
theorem startStep_clock {index : Nat} {now : Number} {n : Nat} {step : Value} {next : Controller}
    (found : frozen.steps[index]? = some step) (clock : now.Counts floats n)
    (result : startStep frozen endpoint c now step = .ok (.again next)) :
    ∃ consumed details nextStart, next = c.started now consumed details nextStart ∧
      nextStart.Counts floats (n + plan.hardMaxima .holdSeconds) ∧
      n + plan.hardMaxima .holdSeconds + plan.reservedTail ≤ plan.hardMaxima .durationSeconds := by
  obtain ⟨fields, rfl, reads⟩ := held index step found
  obtain ⟨_, same, result⟩ := bind_ok.mp result
  cases same
  simp only [bind_ok] at result
  obtain ⟨budget, _, calls, _, hold, holdRead, exhausted, decided, result⟩ := result
  have counts := reads.counts holdRead
  cases exhausted with
  | true => cases result
  | false =>
    simp only [Bool.false_eq_true, if_false, bind_ok, overflow_ok, pure_ok,
      Turn.again.injEq] at result
    obtain ⟨consumed, _, _, _, details, _, nextStart, next, rfl⟩ := result
    exact ⟨consumed, details, nextStart, rfl, clock.add counts next,
      budgetExhausted_false freezes clock counts small decided⟩

end
/-- The seconds at which the levels were started, each with room for its hold. -/
def Times (floats : Bool) (plan : EnvelopePlan) (seconds : List Nat) (events : List Event) : Prop :=
  List.Forall₂ (fun n start => Number.Counts floats start n ∧
    n + plan.hardMaxima .holdSeconds + plan.reservedTail ≤ plan.hardMaxima .durationSeconds)
    seconds (startTimes events)

theorem startTimes_quiet {events : List Event} {e : Event} (other : e.kind ≠ .stepStarted) :
    startTimes (events ++ [e]) = startTimes events := by
  have none : e.startTime? = none := if_neg other
  simp [startTimes, List.filterMap_append, none]

theorem startTimes_start {events : List Event} {e : Event} (start : e.kind = .stepStarted) :
    startTimes (events ++ [e]) = startTimes events ++ [e.atSeconds] := by
  have some_ : e.startTime? = some e.atSeconds := if_pos start
  simp [startTimes, List.filterMap_append, some_]

/-- The next level is due no earlier than the end of every hold so far. -/
structure Spaced (floats : Bool) (plan : EnvelopePlan) (c : Controller) : Prop where
  phase : c.Phase
  served : ∃ seconds, Times floats plan seconds c.events ∧
    seconds.IsChain (Apart (plan.hardMaxima .holdSeconds)) ∧
    ∀ start, c.nextStart = some start →
      ∃ n, start.Counts floats n ∧ ∀ m ∈ seconds, Apart (plan.hardMaxima .holdSeconds) m n

/-- Without controls the next level is due exactly at the end of the holds so far. -/
structure Unhurried (floats : Bool) (plan : EnvelopePlan) (c : Controller) : Prop where
  phase : c.Phase
  groups : c.groups = []
  served : ∃ seconds, Times floats plan seconds c.events ∧
    seconds = (List.range seconds.length).map (· * plan.hardMaxima .holdSeconds) ∧
    ∀ start, c.nextStart = some start →
      start.Counts floats (seconds.length * plan.hardMaxima .holdSeconds)

theorem Times.mem {seconds : List Nat} {events : List Event} (times : Times floats plan seconds events)
    {m : Nat} (member : m ∈ seconds) : ∃ start ∈ startTimes events, Number.Counts floats start m ∧
      m + plan.hardMaxima .holdSeconds + plan.reservedTail ≤ plan.hardMaxima .durationSeconds := by
  unfold Times at times
  generalize startTimes events = starts at times ⊢
  induction times with
  | nil => cases member
  | cons head _ ih =>
    rcases List.mem_cons.mp member with rfl | later
    · exact ⟨_, List.mem_cons_self, head⟩
    · obtain ⟨start, found, counts⟩ := ih later
      exact ⟨start, List.mem_cons_of_mem _ found, counts⟩

/-- A resume due now comes no earlier than the end of every hold so far. -/
def Controller.resumesLate (hold : Nat) (c : Controller) : Bool :=
  match c.groups with
  | [] => true
  | group :: _ =>
    c.state != .paused || .stop ∈ group.commands || .pause ∈ group.commands ||
      (startTimes c.events).all fun start =>
        !(Number.int ((group.atSeconds : Int) - hold)).lt start

theorem served_of_resumesLate {group : Group} {groups : List Group} (at_ : c.groups = group :: groups)
    (paused : c.state = .paused) (unstopped : .stop ∉ group.commands)
    (unpaused : .pause ∉ group.commands) (late : c.resumesLate hold = true) {start : Number} {m : Nat}
    (member : start ∈ startTimes c.events) (exact : start.exact = some (.inl (m : Rat))) :
    Apart hold m group.atSeconds := by
  simp only [Controller.resumesLate, at_, paused, unstopped, unpaused, decide_false, Bool.or_false,
    bne_self_eq_false, Bool.false_or, List.all_eq_true, Bool.not_eq_true'] at late
  have after := late start member
  have bound : (Number.int ((group.atSeconds : Int) - hold)).exact =
      some (.inl (((group.atSeconds : Int) - (hold : Int) : Int) : Rat)) := rfl
  rw [Number.lt_exact bound exact, decide_eq_false_iff_not] at after
  have after : ¬ (group.atSeconds : Int) - hold < m := by exact_mod_cast after
  unfold Apart
  omega

section
variable (freezes : Freezes plan frozen) (held : HoldsRead floats plan frozen)
  (small : floats = true → plan.hardMaxima .durationSeconds < exactLimit)

include freezes held small

theorem turn_again_spaced {next : Controller} (spaced : Spaced floats plan c)
    (late : c.resumesLate (plan.hardMaxima .holdSeconds) = true)
    (result : turn frozen endpoint c = .ok (.again next)) : Spaced floats plan next := by
  have phase := (turn_again spaced.phase result).1
  obtain ⟨seconds, times, apart, due⟩ := spaced.served
  generalize moved : Turn.again next = t at result
  cases turn_ok spaced.phase result with
  | idle | stop | complete => cases moved
  | pause =>
    cases moved
    refine ⟨phase, seconds, ?_, apart, ?_⟩
    · unfold Times
      rwa [Controller.paused, Controller.emit, startTimes_quiet (by simp)]
    · intro start none
      cases none
  | resume at_ paused unstopped unpaused =>
    cases moved
    refine ⟨phase, seconds, ?_, apart, ?_⟩
    · unfold Times
      rwa [Controller.resumed, Controller.emit, startTimes_quiet (by simp)]
    · intro start again
      cases again
      refine ⟨_, Number.counts_int _, fun m member => ?_⟩
      obtain ⟨start, found, counts, within⟩ := times.mem member
      refine served_of_resumesLate at_ paused unstopped unpaused late found
        (counts.exact_of_small fun used => ?_)
      have := small used
      omega
  | start now running found started =>
    subst moved
    obtain ⟨n, clock, after⟩ := due _ now
    obtain ⟨consumed, details, nextStart, rfl, counts, within⟩ :=
      startStep_clock freezes held small found clock started
    refine ⟨phase, seconds ++ [n], ?_, chain_concat apart after, ?_⟩
    · unfold Times
      rw [Controller.started, Controller.emit, startTimes_start rfl]
      exact List.rel_append times (.cons ⟨clock, within⟩ .nil)
    · intro start next
      cases next
      refine ⟨_, counts, fun m member => ?_⟩
      rcases List.mem_append.mp member with earlier | last
      · have := after m earlier
        unfold Apart at this ⊢
        omega
      · rw [List.mem_singleton.mp last]
        exact le_rfl

theorem turn_again_unhurried {next : Controller} (unhurried : Unhurried floats plan c)
    (result : turn frozen endpoint c = .ok (.again next)) : Unhurried floats plan next := by
  have phase := (turn_again unhurried.phase result).1
  obtain ⟨seconds, times, multiples, due⟩ := unhurried.served
  have groups := unhurried.groups
  generalize moved : Turn.again next = t at result
  cases turn_ok unhurried.phase result with
  | idle | stop | complete => cases moved
  | pause at_ | resume at_ =>
    rw [groups] at at_
    cases at_
  | start now running found started =>
    subst moved
    have clock := due _ now
    obtain ⟨consumed, details, nextStart, rfl, counts, within⟩ :=
      startStep_clock freezes held small found clock started
    refine ⟨phase, groups, seconds ++ [seconds.length * plan.hardMaxima .holdSeconds], ?_, ?_, ?_⟩
    · unfold Times
      rw [Controller.started, Controller.emit, startTimes_start rfl]
      exact List.rel_append times (.cons ⟨clock, within⟩ .nil)
    · rw [List.length_append, List.length_singleton, List.range_succ, List.map_append, ← multiples]
      rfl
    · intro start next
      cases next
      rw [List.length_append, List.length_singleton, Nat.add_mul, Nat.one_mul]
      exact counts

end

theorem turn_leave_times {final : Controller} (phase : c.Phase)
    (result : turn frozen endpoint c = .ok (.leave final)) :
    startTimes final.events = startTimes c.events := by
  generalize moved : Turn.leave final = t at result
  cases turn_ok phase result with
  | pause | resume => cases moved
  | idle =>
    cases moved
    rfl
  | stop | complete =>
    cases moved
    exact startTimes_quiet (by simp)
  | start _ _ _ started =>
    subst moved
    obtain rfl := startStep_leave started
    exact startTimes_quiet (by simp)

/-- Every hold is served in full before the next level starts. -/
def HoldsServed (hold : Nat) (times : List Number) : Prop :=
  ∃ seconds : List Nat, List.Forall₂ (fun n start => Number.Is start n) seconds times ∧
    seconds.IsChain (Apart hold)

/-- Level starts are a hold apart, and never earlier than in a run without controls. -/
def HoldsNeverOverlap (value controls : Value) (endpoint : Value → Result Unit) : Prop :=
  ∀ document commands, validateEnvelopePlan value = .ok document →
    normalizeCommands controls = .ok commands →
    ∃ plan, Accepts plan document ∧
      ∀ sim, simulateEnvelopePlan value controls endpoint = some (.ok sim) →
        HoldsServed (plan.hardMaxima .holdSeconds) (startTimes sim.events) ∧
        ∀ uncontrolled free, simulateEnvelopePlan value .none uncontrolled = some (.ok free) →
          ∀ (index : Nat) (early late : Number), (startTimes free.events)[index]? = some early →
            (startTimes sim.events)[index]? = some late → late.lt early = false

/-- Hold deadlines are exact: no hold is written as a float, or the authorized
duration is small enough for binary64. -/
def ClocksExactly (document : Dict) : Prop :=
  (∀ step ∈ stepValues document, ∀ fields : Dict, step = .dict fields →
    (fields.getD "holdSeconds" .none).isFloat = false) ∨
  ∀ n, ((child (child document "authorization") "hardMaxima").getD "durationSeconds"
    .none).number? = some n → n.lt (.int exactLimit) = true

/-- In every state the controller reaches, a resume comes after the holds so far. -/
def ResumesServeHolds (value controls : Value) (endpoint : Value → Result Unit) : Prop :=
  ∀ document plan frozen groups, validateEnvelopePlan value = .ok document →
    Accepts plan document → prepare value controls = .ok (frozen, groups) →
    ∀ c, Reaches (turn frozen endpoint) ((Controller.initial groups).emit (.int 0) .started []) c →
      c.resumesLate (plan.hardMaxima .holdSeconds) = true

theorem clocks_exactly (accepts : Accepts plan document) (freezes : Freezes plan frozen)
    (steps : document.get? "steps" = some (.list frozen.steps)) (exactly : ClocksExactly document) :
    ∃ floats, HoldsRead floats plan frozen ∧
      (floats = true → plan.hardMaxima .durationSeconds < exactLimit) := by
  have holds (floats : Bool) (whole : floats = false → ∀ step ∈ frozen.steps, ∀ fields : Dict,
      step = .dict fields → (fields.getD "holdSeconds" .none).isFloat = false) :
      HoldsRead floats plan frozen := by
    intro index step found
    have member := List.mem_of_getElem? found
    obtain ⟨within, rfl⟩ := List.getElem?_eq_some_iff.mp found
    have counted := freezes.steps.length_eq
    have planned : plan.steps[index]? = some plan.steps[index] :=
      List.getElem?_eq_getElem (counted ▸ within)
    have same := (List.forall₂_iff_get.mp freezes.steps).2 index (counted ▸ within) within
    obtain ⟨fields, written, read⟩ := Value.eq_dict same
    obtain ⟨hold, holdRead, holdSame⟩ :=
      read "holdSeconds" (nat plan.steps[index].holdSeconds) (by simp)
    have held := (accepts.authority.ledger.scheduled_at planned).holdSeconds
    rw [← held]
    refine ⟨fields, written, readsNumber holdRead holdSame fun off => ?_⟩
    have float := whole off _ member fields written
    rwa [Dict.getD, holdRead] at float
  rcases exactly with whole | small
  · refine ⟨false, holds false fun _ => ?_, by simp⟩
    simpa only [stepValues, steps] using whole
  · refine ⟨true, holds true (by simp), fun _ => ?_⟩
    obtain ⟨authorization, maxima, auth, hard, read⟩ := accepts.maxima
    have duration := read .durationSeconds
    simp only [MaximaKey.name] at duration
    simp only [child, auth, hard, Dict.getD, duration, Option.getD_some] at small
    exact small_of_eq (Value.eq_int.mpr ⟨_, rfl, by simp⟩) small

/-- The exact second of a start. -/
theorem Times.exact {seconds : List Nat} {events : List Event}
    (times : Times floats plan seconds events)
    (small : floats = true → plan.hardMaxima .durationSeconds < exactLimit) {index : Nat}
    {start : Number} (found : (startTimes events)[index]? = some start) :
    ∃ n : Nat, seconds[index]? = some n ∧ start.exact = some (.inl (n : Rat)) := by
  obtain ⟨within, rfl⟩ := List.getElem?_eq_some_iff.mp found
  have counted := times.length_eq
  obtain ⟨counts, room⟩ := (List.forall₂_iff_get.mp times).2 index (counted ▸ within) within
  refine ⟨_, List.getElem?_eq_getElem (counted ▸ within), counts.exact_of_small fun used => ?_⟩
  have := small used
  omega

theorem Times.is {seconds : List Nat} {events : List Event} (times : Times floats plan seconds events)
    (small : floats = true → plan.hardMaxima .durationSeconds < exactLimit) :
    List.Forall₂ (fun n start => Number.Is start n) seconds (startTimes events) := by
  refine times.imp fun n start ⟨counts, within⟩ => counts.is fun used => ?_
  have := small used
  omega

/-- Holds never overlap while every resume waits for the hold it interrupted. -/
theorem holds_never_overlap (value controls : Value) (endpoint : Value → Result Unit)
    (exactly : ∀ document, validateEnvelopePlan value = .ok document → ClocksExactly document)
    (late : ResumesServeHolds value controls endpoint) :
    HoldsNeverOverlap value controls endpoint := by
  intro document commands accepted normalized
  obtain ⟨_, plan, accepts⟩ := validateEnvelopePlan_ok accepted
  obtain ⟨frozen, frozenOk, freezes, steps⟩ := freeze_of_accepts accepts
  obtain ⟨floats, held, small⟩ := clocks_exactly accepts freezes steps (exactly _ accepted)
  have prepared : prepare value controls = .ok (frozen, groupCommands commands) := by
    simp [prepare, accepted, normalized, frozenOk, pure, Except.pure]
  refine ⟨plan, accepts, fun sim simulated => ?_⟩
  rw [simulate_eq accepted normalized frozenOk, Option.map_eq_some_iff] at simulated
  obtain ⟨outcome, ran, mapped⟩ := simulated
  obtain ⟨final, rfl, rfl⟩ := map_ok mapped
  obtain ⟨c, reached, left⟩ := run_leaves ran
  have spaced : Spaced floats plan c := by
    refine reached.invariant ⟨Controller.initial_phase _, [], .nil, .nil, ?_⟩ ?_
    · intro start due
      cases due
      exact ⟨0, Number.counts_int 0, by simp⟩
    · intro c next reached spaced step
      exact turn_again_spaced freezes held small spaced
        (late _ plan _ _ accepted accepts prepared c reached) step
  obtain ⟨seconds, times, apart, _⟩ := spaced.served
  have same : startTimes final.events = startTimes c.events := turn_leave_times spaced.phase left
  refine ⟨⟨seconds, by rw [Controller.summary, same]; exact times.is small, apart⟩, ?_⟩
  intro uncontrolled free freely index early later earlyAt laterAt
  rw [simulate_eq accepted rfl frozenOk, Option.map_eq_some_iff] at freely
  obtain ⟨outcome, ran, mapped⟩ := freely
  obtain ⟨free, rfl, rfl⟩ := map_ok mapped
  obtain ⟨f, reached, left⟩ := run_leaves ran
  have unhurried : Unhurried floats plan f := by
    refine reached.invariant ⟨Controller.initial_phase _, rfl, [], .nil, rfl, ?_⟩ ?_
    · intro start due
      cases due
      exact .inl (by simp)
    · intro c next _ unhurried step
      exact turn_again_unhurried freezes held small unhurried step
  obtain ⟨planned, plannedTimes, multiples, _⟩ := unhurried.served
  have sameFree : startTimes free.events = startTimes f.events :=
    turn_leave_times unhurried.phase left
  rw [Controller.summary, sameFree] at earlyAt
  rw [Controller.summary, same] at laterAt
  obtain ⟨m, plannedAt, earlyExact⟩ := plannedTimes.exact small earlyAt
  obtain ⟨n, servedAt, lateExact⟩ := times.exact small laterAt
  have onTime : m = index * plan.hardMaxima .holdSeconds := by
    rw [multiples] at plannedAt
    obtain ⟨within, rfl⟩ := List.getElem?_eq_some_iff.mp plannedAt
    simp
  have climbed := chain_climbs apart index n servedAt
  rw [Number.lt_exact lateExact earlyExact, decide_eq_false_iff_not, Nat.cast_lt]
  omega

/-- Two levels of ten seconds each. -/
def pacedPlan : EnvelopePlan where
  name := "paced-ramp"
  manifestSha256 := ⟨List.replicate 64 48⟩
  sourceMaxima := pacedMaxima
  hardMaxima := pacedMaxima
  workload
    | .callDurationSeconds => 10
    | _ => 1
  ramp := ⟨.callsPerSecond, 1, 1⟩
  totals := ⟨30, 20, 20, 20⟩
  totalDurationSeconds := 22
  reason := .authorizationCeiling
  ceilingReached := true
  steps := [pacedStep 1 0, pacedStep 2 10]
where
  pacedMaxima : Maxima
    | .dimension .callsPerSecond => 2
    | .totalCalls => 30
    | .durationSeconds => 40
    | .holdSeconds => 10
    | _ => 1
  pacedStep (level start : Nat) : PlanStep :=
    { index := level, level, startAtSeconds := start, holdSeconds := 10
      intensity := fun
        | .callsPerSecond => level
        | _ => 1
      budget := ⟨level * 10, 10, 10, 10⟩ }

def pausedAndResumed (pause resume : Nat) : Value :=
  .list [.dict [Dict.entry "atSeconds" (nat pause), Dict.entry "command" (.str "pause")],
    .dict [Dict.entry "atSeconds" (nat resume), Dict.entry "command" (.str "resume")]]

theorem accepts_hold (accepts : Accepts plan document) :
    ((child (child document "authorization") "hardMaxima").get? "holdSeconds").bind Value.number? =
      some (.int (plan.hardMaxima .holdSeconds)) := by
  obtain ⟨authorization, maxima, auth, hard, read⟩ := accepts.maxima
  have hold := read .holdSeconds
  simp only [MaximaKey.name] at hold
  simp [child, auth, hard, hold, Value.number?]

theorem pacedPlan_hold {document : Dict} (same : pacedPlan.value = .dict document) :
    ((child (child document "authorization") "hardMaxima").get? "holdSeconds").bind Value.number? =
      some (.int 10) := by
  cases same
  decide +kernel

/-- A pause at 1 and a resume at 2 start the second level at 2, eight seconds
before the first hold ends. -/
theorem early_resume_overlaps :
    ¬ HoldsNeverOverlap pacedPlan.value (pausedAndResumed 1 2) fun _ => .ok () := by
  have accepted : (validateEnvelopePlan pacedPlan.value).isOk = true := by decide +kernel
  have normalized : (normalizeCommands (pausedAndResumed 1 2)).isOk = true := by decide +kernel
  have started : ((simulateEnvelopePlan pacedPlan.value (pausedAndResumed 1 2) fun _ => .ok ()).map
      fun result => result.toOption.map fun sim => startTimes sim.events) =
      some (some [.int 0, .int 2]) := by decide +kernel
  intro apart
  obtain ⟨document, accepted⟩ := isOk_iff.mp accepted
  obtain ⟨commands, normalized⟩ := isOk_iff.mp normalized
  obtain ⟨plan, accepts, spaced⟩ := apart _ _ accepted normalized
  obtain ⟨same, _⟩ := validateEnvelopePlan_ok accepted
  have held := pacedPlan_hold same
  rw [accepts_hold accepts] at held
  have hold : plan.hardMaxima .holdSeconds = 10 := by
      have := Option.some.inj held
      simp only [Number.int.injEq] at this
      exact_mod_cast this
  rw [Option.map_eq_some_iff] at started
  obtain ⟨result, simulated, started⟩ := started
  cases result with
  | error raised => cases started
  | ok sim =>
    have times : startTimes sim.events = [.int 0, .int 2] := Option.some.inj started
    obtain ⟨⟨seconds, read, chain⟩, _⟩ := spaced sim simulated
    rw [times] at read
    cases read with
    | cons first rest =>
      cases rest with
      | cons second rest =>
        cases rest
        rw [List.isChain_cons_cons, hold] at chain
        simp only [Number.Is, Number.eq_int, decide_eq_true_eq] at first second
        have := chain.1
        unfold Apart at this
        omega

/-- The same pause, resumed after the hold. -/
theorem late_resume_is_apart :
    (validateEnvelopePlan pacedPlan.value).isOk = true ∧
      HoldsNeverOverlap pacedPlan.value (pausedAndResumed 1 12) fun _ => .ok () := by
  have late : (match prepare pacedPlan.value (pausedAndResumed 1 12) with
      | .ok (frozen, groups) =>
        (visited (turn frozen fun _ => .ok ()) (groups.length + frozen.steps.length + 1)
          ((Controller.initial groups).emit (.int 0) .started [])).all
            fun c => c.resumesLate 10
      | .error _ => false) = true := by decide +kernel
  refine ⟨by decide +kernel, holds_never_overlap _ _ _ (fun document accepted => ?_) ?_⟩
  · obtain ⟨same, _⟩ := validateEnvelopePlan_ok accepted
    right
    cases same
    decide +kernel
  · intro document plan frozen groups accepted accepts prepared c reached
    obtain ⟨same, _⟩ := validateEnvelopePlan_ok accepted
    have held := pacedPlan_hold same
    rw [accepts_hold accepts] at held
    have hold : plan.hardMaxima .holdSeconds = 10 := by
      have := Option.some.inj held
      simp only [Number.int.injEq] at this
      exact_mod_cast this
    obtain ⟨result, ran⟩ : ∃ result, run (turn frozen fun _ => .ok ())
        (groups.length + frozen.steps.length + 1)
        ((Controller.initial groups).emit (.int 0) .started []) = some result := by
      refine run_terminates (Controller.remaining frozen) (Controller.initial_phase groups)
        (fun s t phase step => turn_again phase step) ?_
      simp [Controller.remaining, Controller.initial, Controller.emit]
    rw [prepared] at late
    rw [hold]
    exact List.all_eq_true.mp late c (reached.mem_visited ran)

end Sippycup.Envelope
