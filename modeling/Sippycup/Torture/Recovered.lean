import Sippycup.Machine.Trace
import Sippycup.Torture.Turns

/-! Recovery after every injection: in which runs it is attempted before anything else, and
the run ends with its own record. -/
namespace Sippycup.CaseRun
open Sippycup.Trace

def Entry.Establishes (index : Nat) (c : Case) (e : Entry) : Prop :=
  e.stage = .establish ∧ e.index = index ∧ e.case = c ∧ ∃ result, e.reply = .returned result ∧ Opened c result

def Entry.Recovers (e : Entry) : Prop := e.stage = .recovery ∧ ∃ result, e.reply = .returned result ∧ result.ok = true

def Injection (e : Entry) : Prop := e.stage = .inject
def Canary (e : Entry) : Prop := e.stage = .recovery

/-- No action yet, or a recovery that succeeded came last. -/
def Ready (trace : List Entry) : Prop := ∀ e ∈ trace.getLast?, e.Recovers

/-- What holds of the actions of every run. -/
structure Ordered (trace : List Entry) : Prop where
  established : ∀ index c, Guarded (fun e => e.stage = .inject ∧ e.index = index ∧ e.case = c)
    (fun before => ∃ e ∈ before.getLast?, e.Establishes index c) trace
  recovered : Guarded Injection (fun before => ¬ Pending Injection Canary before) trace
  followed : Guarded (fun e => e.stage = .establish) Ready trace

/-- The last record agrees with the result, and no record before it ends the run. -/
def Terminal (events : List Record) (result : RunResult) : Prop :=
  ∃ before last, events = before ++ [last] ∧ Open before ∧
    ((∃ reason, last = .runStopped reason ∧ result.state = "stopped" ∧ result.reason = some reason) ∨
      last = .runCompleted result.counters ∧ result.state = "completed" ∧ result.reason = none)

/-- Recovery is mandatory: an injection follows its own establishment, a canary is attempted after
it before the next one, no case follows another without a recovery, and the run has its record. -/
structure Mandatory (run : State × Ending) : Prop where
  ordered : Ordered run.1.trace
  attempted : ¬ Pending Injection Canary run.1.trace
  terminal : ∃ result, run.2 = .ok result ∧ Terminal run.1.events result

section traces
variable {trace acts : List Entry} {index : Nat} {c : Case} {w : Window}

theorem ordered_nil : Ordered [] where
  established := fun _ _ => guarded_nil
  recovered := guarded_nil
  followed := guarded_nil

theorem ordered_concat {e : Entry} : Ordered (trace ++ [e]) ↔ Ordered trace ∧
    (e.stage = .inject → (∃ f ∈ trace.getLast?, f.Establishes e.index e.case) ∧ ¬ Pending Injection Canary trace) ∧
    (e.stage = .establish → Ready trace) := by
  constructor
  · rintro ⟨established, recovered, followed⟩
    simp only [guarded_concat] at established recovered followed
    exact ⟨⟨fun index c => (established index c).1, recovered.1, followed.1⟩,
      fun stage => ⟨(established _ _).2 ⟨stage, rfl, rfl⟩, recovered.2 stage⟩, followed.2⟩
  · rintro ⟨⟨established, recovered, followed⟩, injects, establishes⟩
    refine ⟨fun index c => ?_, ?_, ?_⟩
    · rw [guarded_concat]
      refine ⟨established index c, ?_⟩
      rintro ⟨stage, rfl, rfl⟩
      exact (injects stage).1
    · exact guarded_concat.mpr ⟨recovered, fun stage => (injects stage).2⟩
    · exact guarded_concat.mpr ⟨followed, establishes⟩

theorem not_pending_concat {e : Entry} (idle : ¬ Pending Injection Canary trace) (other : e.stage ≠ .inject) :
    ¬ Pending Injection Canary (trace ++ [e]) := by
  rw [pending_concat]
  rintro (injects | ⟨pending, -⟩)
  · exact other injects
  · exact idle pending

/-- The actions of a turn keep the order, from a trace that is ready for the next case. -/
theorem ordered_acts (ordered : Ordered trace) (ready : Ready trace) (idle : ¬ Pending Injection Canary trace)
    (acted : Acts index c w acts) : Ordered (trace ++ acts) := by
  have first (reply : Reply) : Ordered (trace ++ [⟨.establish, index, c, w, reply⟩]) := by
    refine ordered_concat.2 ⟨ordered, fun stage => ?_, fun _ => ready⟩
    cases stage
  have second {a : ActionResult} (opened : Opened c a) (reply : Reply) :
      Ordered ((trace ++ [⟨.establish, index, c, w, .returned a⟩]) ++ [⟨.inject, index, c, w, reply⟩]) := by
    refine ordered_concat.2 ⟨first _, fun _ => ⟨⟨⟨.establish, index, c, w, .returned a⟩, by simp, ?_⟩, ?_⟩,
      fun stage => ?_⟩
    · exact ⟨rfl, rfl, rfl, a, rfl, opened⟩
    · exact not_pending_concat idle (by simp)
    · cases stage
  have later {before : List Entry} (kept : Ordered before) {e : Entry} (other : e.stage ≠ .inject ∧ e.stage ≠ .establish) :
      Ordered (before ++ [e]) :=
    ordered_concat.2 ⟨kept, fun stage => absurd stage other.1, fun stage => absurd stage other.2⟩
  cases acted with
  | establish reply => exact first reply
  | inject opened reply => simpa using second opened reply
  | @classify a b opened exact_ reply =>
    have third := later (e := ⟨.classify, index, c, w, reply⟩) (second opened (.returned b)) (by simp)
    simpa using third
  | @recovery a b d opened exact_ reply =>
    have third := later (e := ⟨.classify, index, c, w, .returned d⟩) (second opened (.returned b)) (by simp)
    simpa using later (e := ⟨.recovery, index, c, w, reply⟩) third (by simp)

/-- An attempted canary leaves no injection without one. -/
theorem idle_canary {e : Entry} (canary : e.stage = .recovery) : ¬ Pending Injection Canary (trace ++ [e]) := by
  rw [pending_concat]
  rintro (injects | ⟨-, still⟩)
  · cases canary.symm.trans injects
  · exact still canary

end traces

instance (e : Entry) : Decidable e.Answered :=
  match same : e.reply with
  | .returned result => decidable_of_iff (e.stage = .inject → result.sentPackets = e.case.packets)
      ⟨fun attested => ⟨result, same, attested⟩, fun ⟨_, other, attested⟩ => by
        cases same.symm.trans other
        exact attested⟩
  | .raised _ | .timedOut | .invalid => .isFalse fun ⟨_, other, _⟩ => by cases same.symm.trans other

/-- What holds before the turn of each case. -/
structure Going (s : State) : Prop where
  ordered : Ordered s.trace
  ready : Ready s.trace
  idle : ¬ Pending Injection Canary s.trace
  answered : ∀ e ∈ s.trace, e.Answered
  events : Open s.events

/-- How a run is over: with a record and a result, or by the exception of an action. -/
structure Over (finish : State × Ending) : Prop where
  ordered : Ordered finish.1.trace
  ending : ((∀ e ∈ finish.1.trace, e.Answered) ∧ ¬ Pending Injection Canary finish.1.trace ∧
      ∃ result, finish.2 = .ok result ∧ Terminal finish.1.events result) ∨
    (∃ e ∈ finish.1.trace, ¬ e.Answered) ∧ ∃ message, finish.2 = .error message

section runs
variable {r : Runner} {outside : Outside} {index : Nat} {c : Case} {w : Window} {s : State}

theorem terminal_stopped {events : List Record} {reason : String} {counters : Counters} {plan : Plan}
    (before : Open events) :
    Terminal (events ++ [.runStopped reason]) ⟨"stopped", some reason, counters, plan⟩ :=
  ⟨events, _, rfl, before, .inl ⟨reason, rfl, rfl, rfl⟩⟩

theorem answered_append {trace acts : List Entry} (before : ∀ e ∈ trace, e.Answered) (now : ∀ e ∈ acts, e.Answered) :
    ∀ e ∈ trace ++ acts, e.Answered := by
  intro e member
  rcases List.mem_append.mp member with earlier | new
  · exact before e earlier
  · exact now e new

/-- A halt after answered actions that leave no injection without its canary. -/
theorem over_halt {α : Type} {finish : State × Ending} {reason : String} (halted : (halt r reason s : Step α) = .error finish)
    (ordered : Ordered s.trace) (answered : ∀ e ∈ s.trace, e.Answered) (idle : ¬ Pending Injection Canary s.trace)
    (events : Open s.events) : Over finish := by
  cases halted
  exact ⟨ordered, .inl ⟨answered, idle, _, rfl, terminal_stopped events⟩⟩

/-- A turn ends the run or leaves it ready for the next case. -/
theorem going_did {step : Step State} {started : State} (going : Going s) (same : started.trace = s.trace)
    (kept : started.events = s.events) (did : Did r index c w [] started step) :
    (∀ finish, step = .error finish → Over finish) ∧ ∀ next, step = .ok next → Going next := by
  have openEvents : Open started.events := kept ▸ going.events
  cases did with
  | @raised acts last t message acted answered unanswered trace =>
    refine ⟨fun finish ended => ?_, fun next ended => by cases ended⟩
    cases ended
    rw [same] at trace
    refine ⟨trace ▸ ordered_acts going.ordered going.ready going.idle acted, .inr ⟨⟨last, ?_, unanswered⟩, message, rfl⟩⟩
    rw [trace]
    simp
  | @unopened a t first trace events =>
    refine ⟨fun finish ended => ?_, fun next ended => by cases ended⟩
    rw [same] at trace
    refine over_halt ended ?_ ?_ ?_ (events openEvents)
    · rw [trace]
      exact ordered_acts going.ordered going.ready going.idle (.establish _)
    · rw [trace]
      refine answered_append going.answered fun e member => ?_
      rw [List.mem_singleton.mp member]
      exact ⟨a, rfl, fun other => by cases other⟩
    · rw [trace]
      exact not_pending_concat going.idle (by simp)
  | @halted acts last t reason acted final answered trace events =>
    refine ⟨fun finish ended => ?_, fun next ended => by cases ended⟩
    rw [same] at trace
    refine over_halt ended ?_ ?_ ?_ (events openEvents)
    · rw [trace]
      exact ordered_acts going.ordered going.ready going.idle acted
    · rw [trace]
      exact answered_append going.answered answered
    · rw [trace, ← List.append_assoc]
      exact idle_canary final
  | @finished acts e t acted recovered answered trace events caseStart failures =>
    refine ⟨fun finish ended => (by cases ended), fun next ended => ?_⟩
    cases ended
    rw [same] at trace
    refine ⟨?_, ?_, ?_, ?_, events openEvents⟩
    · rw [trace]
      exact ordered_acts going.ordered going.ready going.idle acted
    · rw [trace, ← List.append_assoc]
      intro f last
      rw [List.getLast?_concat, Option.mem_some_iff] at last
      rw [← last]
      exact ⟨rfl, e, rfl, recovered⟩
    · rw [trace, ← List.append_assoc]
      exact idle_canary rfl
    · rw [trace]
      refine answered_append going.answered (answered_append answered fun f member => ?_)
      rw [List.mem_singleton.mp member]
      exact ⟨e, rfl, fun other => by cases other⟩

theorem going_turn (going : Going s) :
    (∀ finish, runCase r outside index c s = .error finish → Over finish) ∧
      ∀ next, runCase r outside index c s = .ok next → Going next := by
  rcases runCase_cases r outside index c s with ⟨reason, stopped⟩ | ⟨-, did⟩
  · rw [stopped]
    exact ⟨fun finish ended => over_halt ended going.ordered going.answered going.idle going.events,
      fun next ended => by cases ended⟩
  · exact going_did going (by rfl) (by rfl) did

theorem runCases_over {cases : List Case} (going : Going s) : Over (runCases r outside index cases s) := by
  induction cases generalizing index s with
  | nil =>
    refine ⟨going.ordered, .inl ⟨going.answered, going.idle, _, rfl, ?_⟩⟩
    exact ⟨s.events, _, rfl, going.events, .inr ⟨rfl, rfl, rfl⟩⟩
  | cons c rest ih =>
    unfold runCases
    have turn := @going_turn r outside index c s going
    cases ended : runCase r outside index c s with
    | error finish => exact turn.1 finish ended
    | ok next => exact ih (turn.2 next ended)

theorem going_started : Going (r.started outside) where
  ordered := ordered_nil
  ready := fun e member => by cases member
  idle := not_pending_nil
  answered := fun e member => absurd member List.not_mem_nil
  events := fun record member => by
    rw [List.mem_singleton.mp member]
    rfl

end runs

def defaultLimits : RunnerLimits where
  maxCases := 1
  maxPackets := 6
  maxBytes := 8192
  maxRateHz := 1
  maxConcurrency := 1
  maxDurationS := 30
  maxFailures := 1
  actionTimeoutS := 5
  counts := by decide
  times := by decide +kernel
  capped := by decide +kernel

def probe : Case :=
  { id := "probe", dialogState := "idle", expectedOutcomes := ["rejected"], wireBytes := [1, 2], packetCount := 1
    packetLengths := [] }

def oneProbe : Runner := ⟨[probe], defaultLimits, by simp, by simp⟩

def answer (outcome : String) : ActionResult :=
  { ok := true, outcome, evidencePackets := [], sentPackets := [[1, 2]], dialogState := some "idle" }

/-- A turn that takes no time, with a reply to the injection. -/
def prompt (inject : Reply) : Outside where
  start := 0
  stopAt := none
  scripts := fun _ =>
    { sampled := 0, checked := 0, health := .returned true, metrics := .returned true, paced := 0, overslept := 0
      begun := 0, establish := .returned (answer "established"), established := 0, inject, injected := 0
      classify := .returned (answer "rejected"), classified := 0, recovery := .returned (answer "clean")
      recovered := 0 }

end Sippycup.CaseRun
