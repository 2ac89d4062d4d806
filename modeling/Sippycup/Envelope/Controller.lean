import Sippycup.Envelope.Verify
import Sippycup.Machine.Trace

/-! The ramp simulator stays inside its frozen plan. `Move` says what one turn
of its loop can do; the invariants of the loop and the facts about its result
are read off from that. -/
namespace Sippycup.Envelope
open Sippycup.Python Sippycup.Loop

variable {floats : Bool} {plan : EnvelopePlan} {frozen : Frozen}
  {endpoint : Value → Result Unit} {c : Controller} {t : Turn Controller}

theorem overflow_ok {α : Type} {x : Option α} {a : α} : overflow x = .ok a ↔ x = some a := by
  cases x <;> simp [overflow]

theorem checkedAddNumber_ok {a b sum : Number} {m n : Nat} {field : String}
    (left : a.Counts floats m) (right : b.Counts floats n)
    (result : checkedAddNumber a b field = .ok sum) : sum.Counts floats (m + n) := by
  obtain ⟨room, _, result⟩ := bind_ok.mp result
  split at result
  · cases result
  · exact left.add right (overflow_ok.1 result)

/-- Within 64 bits, and below the limit where floats occur, addition does not raise. -/
theorem checkedAddNumber_some {a b : Number} {m n : Nat} (field : String)
    (left : a.Counts floats m) (right : b.Counts floats n) (fits : m + n ≤ u64Max)
    (small : floats = true → m + n < exactLimit) : ∃ sum, checkedAddNumber a b field = .ok sum := by
  obtain ⟨sum, added⟩ := left.add_some right small
  have exact := left.exact_of_small fun used => lt_of_le_of_lt (Nat.le_add_right m n) (small used)
  obtain ⟨room, difference, enough⟩ : ∃ room, Number.sub? (.int u64Max) b = some room ∧
      room.lt a = false := by
    rcases right with rfl | ⟨used, d, rfl, holds⟩
    · refine ⟨.int (u64Max - n : Nat), by simp [Nat.cast_sub (by omega : n ≤ u64Max)], ?_⟩
      rw [Number.lt_exact (Number.exact_int _) exact]
      simp only [Nat.cast_lt, decide_eq_false_iff_not]
      omega
    · have below := small used
      obtain rfl : d = .finite n := by
        rcases holds with same | ⟨large, _⟩
        · exact same
        · omega
      have top : Number.toDouble? (.int u64Max) = some (.finite (2 ^ 64 : Nat)) := by decide +kernel
      have negated : ((2 ^ 64 : Nat) : Rat) + -(n : Rat) = (2 ^ 64 - n : Nat) := by
        rw [Nat.cast_sub (by unfold exactLimit at below; omega)]
        ring
      refine ⟨.float (roundDouble (2 ^ 64 - n : Nat)), ?_, ?_⟩
      · simp only [Number.sub?, top, bind, Option.bind, pure]
        simp only [Number.toDouble?, Double.neg, Double.add, negated]
      · have large : exactLimit ≤ 2 ^ 64 - n := by
          unfold exactLimit at below ⊢
          omega
        rcases roundDouble_holds (2 ^ 64 - n) with rounded | ⟨_, rounded | ⟨r, above, rounded⟩⟩
        · rw [rounded, Number.lt_exact (by rfl) exact]
          simp only [Nat.cast_lt, decide_eq_false_iff_not]
          omega
        · rw [rounded]
          cases a <;> simp_all [Number.lt, Number.exact]
        · rw [rounded, Number.lt_exact (by rfl) exact]
          simp only [Nat.cast_lt, decide_eq_false_iff_not]
          omega
  refine ⟨sum, ?_⟩
  simp [checkedAddNumber, difference, overflow, enough, added]

/-- The consumed budget counts exactly the given steps. -/
structure Tally (floats : Bool) (consumed : Consumed) (steps : List PlanStep) : Prop where
  calls : consumed.calls.Counts floats (steps.map (·.budget.calls)).sum
  mediaPackets : consumed.mediaPackets.Counts floats (steps.map (·.budget.mediaPackets)).sum
  callSeconds : consumed.callSeconds.Counts floats (steps.map (·.budget.callSeconds)).sum
  rampDurationSeconds :
    consumed.rampDurationSeconds.Counts floats (steps.map (·.budget.durationSeconds)).sum

theorem ReadsNumber.counts {d : Dict} {key : String} {n : Nat} {a : Number}
    (reads : ReadsNumber floats d key n) (read : (numberItem d key : Result Number) = .ok a) :
    a.Counts floats n := by
  obtain ⟨b, other, counts⟩ := reads
  rw [read] at other
  cases other
  exact counts

theorem spend_ok {s : PlanStep} {fields budget : Dict} {consumed spent : Consumed}
    {earlier : List PlanStep} (priced : Priced floats s fields budget)
    (tally : Tally floats consumed earlier) (result : consumed.spend budget = .ok spent) :
    Tally floats spent (earlier ++ [s]) := by
  simp only [Consumed.spend, bind_ok, pure_ok] at result
  obtain ⟨calls, ⟨_, callsRead, callsOk⟩, media, ⟨_, mediaRead, mediaOk⟩, seconds,
    ⟨_, secondsRead, secondsOk⟩, duration, ⟨_, durationRead, durationOk⟩, rfl⟩ := result
  constructor <;> simp only [List.map_append, List.sum_append, List.map_cons, List.map_nil,
    List.sum_singleton]
  · exact checkedAddNumber_ok tally.calls (priced.calls.counts callsRead) callsOk
  · exact checkedAddNumber_ok tally.mediaPackets (priced.mediaPackets.counts mediaRead) mediaOk
  · exact checkedAddNumber_ok tally.callSeconds (priced.callSeconds.counts secondsRead) secondsOk
  · exact checkedAddNumber_ok tally.rampDurationSeconds
      (priced.durationSeconds.counts durationRead) durationOk

/-- A step that is not turned down ends its hold and recovery in time. -/
theorem budgetExhausted_false {consumed : Consumed} {now calls hold : Number} {n h : Nat}
    (freezes : Freezes plan frozen) (clock : now.Counts floats n) (held : hold.Counts floats h)
    (small : floats = true → plan.hardMaxima .durationSeconds < exactLimit)
    (result : budgetExhausted frozen consumed now calls hold = .ok false) :
    n + h + plan.reservedTail ≤ plan.hardMaxima .durationSeconds := by
  simp only [budgetExhausted, bind_ok, overflow_ok] at result
  obtain ⟨_, _, _, _, afterHold, afterOk, tail, tailOk, withRecovery, recoveryOk, result⟩ := result
  rw [freezes.cooldownSeconds, freezes.recoveryDeadlineSeconds] at tailOk
  have after := checkedAddNumber_ok clock held afterOk
  have reserved : tail.Counts floats plan.reservedTail :=
    (Number.counts_int _).add (Number.counts_int _) tailOk
  have ends := checkedAddNumber_ok after reserved recoveryOk
  split at result
  · cases result
  · obtain ⟨remaining, _, result⟩ := bind_ok.mp result
    have within := pure_ok.mp result
    rw [Bool.or_eq_false_iff, freezes.durationSeconds, ends.lt_iff small,
      decide_eq_false_iff_not] at within
    exact Nat.not_lt.1 within.2

/-- Starting a step: the budget is exhausted, or the step is counted and its
hold, with the reserved tail, ends within the authorized duration. -/
theorem startStep_spec {s : PlanStep} {fields budget : Dict} {now : Number} {n : Nat}
    {earlier : List PlanStep} (freezes : Freezes plan frozen)
    (priced : Priced floats s fields budget) (clock : now.Counts floats n)
    (tally : Tally floats c.consumed earlier)
    (small : floats = true → plan.hardMaxima .durationSeconds < exactLimit)
    (result : startStep frozen endpoint c now (.dict fields) = .ok t) :
    t = .leave (c.exhausted now) ∨ ∃ consumed details nextStart level,
      t = .again (c.started now consumed details nextStart) ∧
      Tally floats consumed (earlier ++ [s]) ∧
      nextStart.Counts floats (n + s.holdSeconds) ∧
      n + s.holdSeconds + plan.reservedTail ≤ plan.hardMaxima .durationSeconds ∧
      details.get? "level" = some level ∧ (nat s.level).eq level = true := by
  obtain ⟨entries, same, result⟩ := bind_ok.mp result
  cases same
  obtain ⟨_, readBudget, result⟩ := bind_ok.mp result
  rw [dictItem_ok, priced.budgetRead] at readBudget
  cases readBudget
  simp only [bind_ok] at result
  obtain ⟨calls, _, hold, holdRead, exhausted, decided, result⟩ := result
  have held := priced.holdSeconds.counts holdRead
  cases exhausted with
  | true =>
    cases result
    exact .inl rfl
  | false =>
    simp only [Bool.false_eq_true, if_false, bind_ok, overflow_ok, pure_ok] at result
    obtain ⟨consumed, spent, _, _, details, read, nextStart, next, rfl⟩ := result
    simp only [stepDetails, bind_ok, pure_ok, Dict.item_ok] at read
    obtain ⟨index, _, level, levelRead, intensity, _, rfl⟩ := read
    obtain ⟨_, levelFound, levelSame⟩ := priced.level
    rw [levelRead] at levelFound
    cases levelFound
    exact .inr ⟨consumed, _, nextStart, level, rfl, spend_ok priced tally spent,
      clock.add held next, budgetExhausted_false freezes clock held small decided, by simp,
      levelSame⟩

/-- What one turn of a controller that has not ended can do. -/
inductive Move (frozen : Frozen) (endpoint : Value → Result Unit) (c : Controller) :
    Turn Controller → Prop where
  | idle : c.nextStart = none → Move frozen endpoint c (.leave c)
  | stop {group groups} : c.groups = group :: groups → Move frozen endpoint c (.leave (c.stopped group groups))
  | pause {group groups} : c.groups = group :: groups →
      Move frozen endpoint c (.again (c.paused group groups))
  | resume {group groups} : c.groups = group :: groups → c.state = .paused →
      .stop ∉ group.commands → .pause ∉ group.commands →
      Move frozen endpoint c (.again (c.resumed group groups))
  | complete {now} : c.nextStart = some now → frozen.steps[c.nextStep]? = none →
      Move frozen endpoint c (.leave (c.completed now frozen.reason))
  | start {now step t} : c.nextStart = some now → c.state = .running →
      frozen.steps[c.nextStep]? = some step → startStep frozen endpoint c now step = .ok t →
      Move frozen endpoint c t

/-- The controller runs with a next start time, or is paused without one. -/
def Controller.Phase (c : Controller) : Prop :=
  (c.state = .running ∧ c.nextStart.isSome) ∨ (c.state = .paused ∧ c.nextStart = none)

theorem control_ok {group : Group} {groups : List Group} (at_ : c.groups = group :: groups)
    (result : control c group groups = .ok t) : Move frozen endpoint c t := by
  unfold control at result
  split at result
  · cases result
    exact .stop at_
  · rename_i unstopped
    split at result
    · cases result
      exact .pause at_
    · rename_i unpaused
      split at result
      · cases result
      · rename_i paused
        cases result
        exact .resume at_ (not_not.mp paused) unstopped unpaused

theorem rampEvent_ok {now : Number} (phase : c.Phase) (due : c.nextStart = some now)
    (result : rampEvent frozen endpoint c now = .ok t) : Move frozen endpoint c t := by
  have running : c.state = .running := by
    rcases phase with ⟨running, _⟩ | ⟨_, none⟩
    · exact running
    · rw [due] at none
      cases none
  unfold rampEvent at result
  rw [if_neg (not_not.mpr running)] at result
  split at result
  · rename_i done
    cases result
    exact .complete due done
  · rename_i step found
    exact .start due running found result

theorem turn_ok (phase : c.Phase) (result : turn frozen endpoint c = .ok t) :
    Move frozen endpoint c t := by
  have live : c.state.terminal = false := by
    rcases phase with ⟨running, _⟩ | ⟨paused, _⟩
    · rw [running]
      rfl
    · rw [paused]
      rfl
  unfold turn at result
  rw [live, if_neg Bool.false_ne_true] at result
  split at result
  · rename_i none
    cases result
    exact .idle none
  · rename_i due
    exact rampEvent_ok phase due result
  · rename_i at_ _
    exact control_ok at_ result
  · rename_i at_ due
    split at result
    · exact rampEvent_ok phase due result
    · exact control_ok at_ result

theorem startStep_again {now : Number} {step : Value} {next : Controller}
    (result : startStep frozen endpoint c now step = .ok (.again next)) :
    ∃ consumed details nextStart, next = c.started now consumed details nextStart := by
  simp only [startStep, bind_ok] at result
  obtain ⟨_, _, _, _, _, _, _, _, exhausted, _, result⟩ := result
  cases exhausted with
  | true => cases result
  | false =>
    simp only [Bool.false_eq_true, if_false, bind_ok, pure_ok, Turn.again.injEq] at result
    obtain ⟨consumed, _, _, _, details, _, nextStart, _, rfl⟩ := result
    exact ⟨consumed, details, nextStart, rfl⟩

theorem startStep_leave {now : Number} {step : Value} {final : Controller}
    (result : startStep frozen endpoint c now step = .ok (.leave final)) :
    final = c.exhausted now := by
  simp only [startStep, bind_ok] at result
  obtain ⟨_, _, _, _, _, _, _, _, exhausted, _, result⟩ := result
  cases exhausted with
  | true =>
    cases result
    rfl
  | false =>
    simp only [Bool.false_eq_true, if_false, bind_ok, pure_ok, reduceCtorEq, and_false,
      exists_false] at result

/-- Control groups still to come and steps still to start. -/
def Controller.remaining (frozen : Frozen) (c : Controller) : Nat :=
  c.groups.length + (frozen.steps.length - c.nextStep)

/-- Every further turn takes a control group or starts a step. -/
theorem turn_again {next : Controller} (phase : c.Phase)
    (result : turn frozen endpoint c = .ok (.again next)) :
    next.Phase ∧ next.remaining frozen < c.remaining frozen := by
  have running : ∀ (c : Controller) (start : Number),
      c.state = .running → c.nextStart = some start → c.Phase := by
    intro c start running due
    exact .inl ⟨running, by rw [due]; rfl⟩
  generalize moved : Turn.again next = t at result
  cases turn_ok phase result with
  | idle | stop | complete => cases moved
  | pause at_ =>
    cases moved
    refine ⟨.inr ⟨rfl, rfl⟩, ?_⟩
    simp [Controller.remaining, Controller.paused, Controller.emit, at_]
  | resume at_ =>
    cases moved
    refine ⟨running _ _ rfl rfl, ?_⟩
    simp [Controller.remaining, Controller.resumed, Controller.emit, at_]
  | start _ state found started =>
    subst moved
    obtain ⟨consumed, details, nextStart, rfl⟩ := startStep_again started
    have within : c.nextStep < frozen.steps.length := (List.getElem?_eq_some_iff.mp found).1
    refine ⟨running _ _ state rfl, ?_⟩
    simp only [Controller.remaining, Controller.started, Controller.emit]
    omega

def Event.Starts (e : Event) : Prop := e.kind = .stepStarted
def Event.Pauses (e : Event) : Prop := e.kind = .pause
def Event.Resumes (e : Event) : Prop := e.kind = .resume
def Event.Stops (e : Event) : Prop := e.kind = .stop ∨ e.kind = .budgetStopped

/-- A step may start: no pause waits for its resume, and nothing has stopped. -/
def MayStart (events : List Event) : Prop :=
  ¬ Trace.Pending Event.Pauses Event.Resumes events ∧ ∀ e ∈ events, ¬ e.Stops

/-- What the controller has recorded after `count` steps. -/
structure Recorded (plan : EnvelopePlan) (floats : Bool) (count : Nat) (consumed : Consumed)
    (events : List Event) : Prop where
  within : count ≤ plan.steps.length
  tally : Tally floats consumed (plan.steps.take count)
  levels : List.Forall₂ (fun level value => (nat level).eq value = true)
    (plan.levels.take count) (events.filterMap Event.level?)
  holds : ∀ e ∈ events, e.Starts → ∃ n, e.atSeconds.Counts floats n ∧
    n + plan.hardMaxima .holdSeconds + plan.reservedTail ≤ plan.hardMaxima .durationSeconds
  quiet : Trace.Guarded Event.Starts MayStart events

/-- What holds while the controller has not ended. -/
structure Live (floats : Bool) (c : Controller) : Prop where
  phase : c.Phase
  clock : ∀ start, c.nextStart = some start → ∃ n, start.Counts floats n
  mayStart : c.state = .running → MayStart c.events
  unstopped : ∀ e ∈ c.events, ¬ e.Stops

section
variable {count : Nat} {consumed spent : Consumed} {events : List Event} {e : Event}

/-- Events other than a start change nothing that is accounted for. -/
theorem Recorded.quietly (recorded : Recorded plan floats count consumed events)
    (other : ¬ e.Starts) : Recorded plan floats count consumed (events ++ [e]) where
  within := recorded.within
  tally := recorded.tally
  levels := by
    have none : e.level? = none := if_neg other
    simpa [List.filterMap_append, none] using recorded.levels
  holds := by
    intro f member start
    rcases List.mem_append.mp member with earlier | new
    · exact recorded.holds f earlier start
    · obtain rfl := List.mem_singleton.mp new
      exact absurd start other
  quiet := Trace.guarded_concat.mpr ⟨recorded.quiet, fun start => absurd start other⟩

theorem Recorded.step (recorded : Recorded plan floats count consumed events)
    {s : PlanStep} {level : Value} {n : Nat} (found : plan.steps[count]? = some s)
    (tally : Tally floats spent (plan.steps.take count ++ [s])) (start : e.Starts)
    (detail : e.fields.get? "level" = some level) (same : (nat s.level).eq level = true)
    (clock : e.atSeconds.Counts floats n)
    (within : n + plan.hardMaxima .holdSeconds + plan.reservedTail ≤
      plan.hardMaxima .durationSeconds) (mayStart : MayStart events) :
    Recorded plan floats (count + 1) spent (events ++ [e]) where
  within := (List.getElem?_eq_some_iff.mp found).1
  tally := by
    rw [List.take_add_one, found]
    exact tally
  levels := by
    have level? : e.level? = some level := by
      rw [← detail]
      exact if_pos start
    have next : plan.levels[count]? = some s.level := by
      simp [EnvelopePlan.levels, found]
    rw [List.take_add_one, next, List.filterMap_append, List.filterMap_cons, level?]
    exact List.rel_append recorded.levels (.cons same .nil)
  holds := by
    intro f member also
    rcases List.mem_append.mp member with earlier | new
    · exact recorded.holds f earlier also
    · obtain rfl := List.mem_singleton.mp new
      exact ⟨n, clock, within⟩
  quiet := Trace.guarded_concat.mpr ⟨recorded.quiet, fun _ => mayStart⟩

theorem MayStart.concat (mayStart : MayStart events) (unpaused : ¬ e.Pauses)
    (unstopped : ¬ e.Stops) : MayStart (events ++ [e]) := by
  refine ⟨?_, fun f member => ?_⟩
  · rw [Trace.pending_concat]
    rintro (pause | ⟨pending, _⟩)
    · exact unpaused pause
    · exact mayStart.1 pending
  · rcases List.mem_append.mp member with earlier | new
    · exact mayStart.2 f earlier
    · rwa [List.mem_singleton.mp new]

end

theorem unstopped_concat {events : List Event} {e : Event} (unstopped : ∀ e ∈ events, ¬ e.Stops)
    (new : ¬ e.Stops) : ∀ f ∈ events ++ [e], ¬ f.Stops := by
  intro f member
  rcases List.mem_append.mp member with earlier | last
  · exact unstopped f earlier
  · rwa [List.mem_singleton.mp last]

/-- The steps of an accepted plan, as the simulator finds them. -/
def AllPriced (floats : Bool) (plan : EnvelopePlan) (frozen : Frozen) : Prop :=
  ∀ (index : Nat) (step : Value), frozen.steps[index]? = some step → ∃ s fields budget,
    plan.steps[index]? = some s ∧ step = .dict fields ∧ Priced floats s fields budget ∧
    s.holdSeconds = plan.hardMaxima .holdSeconds

section
variable (freezes : Freezes plan frozen) (priced : AllPriced floats plan frozen)
  (small : floats = true → plan.hardMaxima .durationSeconds < exactLimit)

include freezes priced small

theorem turn_again_recorded {next : Controller} (live : Live floats c)
    (recorded : Recorded plan floats c.nextStep c.consumed c.events)
    (result : turn frozen endpoint c = .ok (.again next)) :
    Live floats next ∧ Recorded plan floats next.nextStep next.consumed next.events := by
  have phase := (turn_again live.phase result).1
  generalize moved : Turn.again next = t at result
  cases turn_ok live.phase result with
  | idle | stop | complete => cases moved
  | pause at_ =>
    cases moved
    refine ⟨⟨phase, ?_, ?_, ?_⟩, recorded.quietly (by simp [Event.Starts])⟩
    · intro start due
      cases due
    · intro running
      cases running
    · exact unstopped_concat live.unstopped (by simp [Event.Stops])
  | resume at_ =>
    cases moved
    refine ⟨⟨phase, ?_, ?_, ?_⟩, recorded.quietly (by simp [Event.Starts])⟩
    · intro start due
      cases due
      exact ⟨_, Number.counts_int _⟩
    · intro _
      refine ⟨?_, unstopped_concat live.unstopped (by simp [Event.Stops])⟩
      rw [Controller.resumed, Controller.emit, Trace.pending_concat]
      simp [Event.Pauses, Event.Resumes]
    · exact unstopped_concat live.unstopped (by simp [Event.Stops])
  | start due running found started =>
    subst moved
    obtain ⟨s, fields, budget, planned, rfl, priced, held⟩ := priced _ _ found
    obtain ⟨n, clock⟩ := live.clock _ due
    rcases startStep_spec freezes priced clock recorded.tally small started with finished | step
    · cases finished
    · obtain ⟨consumed, details, nextStart, level, same, tally, counts, within, detail, equal⟩ :=
        step
      cases same
      rw [held] at within
      have mayStart := live.mayStart running
      refine ⟨⟨phase, ?_, ?_, ?_⟩, ?_⟩
      · intro start due
        cases due
        exact ⟨_, counts⟩
      · intro _
        exact mayStart.concat (by simp [Event.Pauses]) (by simp [Event.Stops])
      · exact unstopped_concat live.unstopped (by simp [Event.Stops])
      · exact recorded.step planned tally rfl detail equal clock within mayStart

theorem turn_leave_recorded {final : Controller} (live : Live floats c)
    (recorded : Recorded plan floats c.nextStep c.consumed c.events)
    (result : turn frozen endpoint c = .ok (.leave final)) :
    Recorded plan floats final.nextStep final.consumed final.events := by
  generalize moved : Turn.leave final = t at result
  cases turn_ok live.phase result with
  | pause | resume => cases moved
  | idle =>
    cases moved
    exact recorded
  | stop =>
    cases moved
    exact recorded.quietly (by simp [Event.Starts])
  | complete =>
    cases moved
    exact recorded.quietly (by simp [Event.Starts])
  | start due running found started =>
    subst moved
    obtain ⟨s, fields, budget, planned, rfl, priced, held⟩ := priced _ _ found
    obtain ⟨n, clock⟩ := live.clock _ due
    rcases startStep_spec freezes priced clock recorded.tally small started with finished | step
    · cases finished
      exact recorded.quietly (by simp [Event.Starts])
    · obtain ⟨_, _, _, _, same, _⟩ := step
      cases same

end

end Sippycup.Envelope
