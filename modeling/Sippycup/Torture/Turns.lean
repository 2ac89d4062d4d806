import Sippycup.Torture.Runner

/-! What the turn of one case can do. -/
namespace Sippycup.CaseRun

/-- The callback returned, and an injection attests the exact packets of the case. -/
def Entry.Answered (e : Entry) : Prop :=
  ∃ result, e.reply = .returned result ∧ (e.stage = .inject → result.sentPackets = e.case.packets)

def Opened (c : Case) (result : ActionResult) : Prop :=
  result.ok = true ∧ result.dialogState = some c.dialogState

/-- The actions of a turn, as far as it came. -/
inductive Acts (index : Nat) (c : Case) (w : Window) : List Entry → Prop where
  | establish (reply : Reply) : Acts index c w [⟨.establish, index, c, w, reply⟩]
  | inject {a : ActionResult} (opened : Opened c a) (reply : Reply) :
    Acts index c w [⟨.establish, index, c, w, .returned a⟩, ⟨.inject, index, c, w, reply⟩]
  | classify {a b : ActionResult} (opened : Opened c a) (exact_ : b.sentPackets = c.packets) (reply : Reply) :
    Acts index c w [⟨.establish, index, c, w, .returned a⟩, ⟨.inject, index, c, w, .returned b⟩,
      ⟨.classify, index, c, w, reply⟩]
  | recovery {a b d : ActionResult} (opened : Opened c a) (exact_ : b.sentPackets = c.packets) (reply : Reply) :
    Acts index c w [⟨.establish, index, c, w, .returned a⟩, ⟨.inject, index, c, w, .returned b⟩,
      ⟨.classify, index, c, w, .returned d⟩, ⟨.recovery, index, c, w, reply⟩]

def Record.terminal : Record → Bool
  | .runStopped _ | .runCompleted _ => true
  | _ => false

/-- Records that end a run were not written. -/
def Open (events : List Record) : Prop := ∀ record ∈ events, record.terminal = false

/-- The failures that an action adds. -/
def failuresOf (e : Entry) : Nat :=
  match e.stage, e.reply with
  | .inject, .returned result => if result.ok then 0 else 1
  | .classify, .returned result => if (judged e.case result).ok then 0 else 1
  | _, _ => 0

/-- What the actions of a turn can do, after those that the turn already made. -/
inductive Did (r : Runner) (index : Nat) (c : Case) (w : Window) (made : List Entry) (s : State) : Step State → Prop where
  | raised (acts : List Entry) {last : Entry} {t : State} {message : String}
    (acted : Acts index c w (made ++ acts ++ [last])) (answered : ∀ e ∈ acts, e.Answered)
    (unanswered : ¬ last.Answered) (trace : t.trace = s.trace ++ (acts ++ [last])) :
    Did r index c w made s (.error (t, .error message))
  | unopened {a : ActionResult} {t : State} (first : made = [])
    (trace : t.trace = s.trace ++ [⟨.establish, index, c, w, .returned a⟩])
    (events : Open s.events → Open t.events) : Did r index c w made s (halt r "dialog-establishment-failed" t)
  | halted (acts : List Entry) {last : Entry} {t : State} {reason : String}
    (acted : Acts index c w (made ++ acts ++ [last])) (final : last.stage = .recovery)
    (answered : ∀ e ∈ acts ++ [last], e.Answered) (trace : t.trace = s.trace ++ (acts ++ [last]))
    (events : Open s.events → Open t.events) : Did r index c w made s (halt r reason t)
  | finished (acts : List Entry) {e : ActionResult} {t : State}
    (acted : Acts index c w (made ++ acts ++ [⟨.recovery, index, c, w, .returned e⟩])) (recovered : e.ok = true)
    (answered : ∀ e ∈ acts, e.Answered)
    (trace : t.trace = s.trace ++ (acts ++ [⟨.recovery, index, c, w, .returned e⟩]))
    (events : Open s.events → Open t.events) (caseStart : t.lastCaseStart = s.lastCaseStart)
    (failures : t.counters.failures = s.counters.failures + (acts.map failuresOf).sum) :
    Did r index c w made s (.ok t)

section acts
variable {entry : Entry} {elapsed : ℚ≥0} {s : State}

/-- The state after an action. -/
def State.acted (s : State) (entry : Entry) (elapsed : ℚ≥0) : State :=
  { s with trace := s.trace ++ [entry], now := s.now + elapsed }

theorem act_cases (stage : Stage) (index : Nat) (c : Case) (w : Window) (reply : Reply) (elapsed : ℚ≥0) (s : State) :
    (∃ result, reply = .returned result ∧ act ⟨stage, index, c, w, reply⟩ elapsed s =
      .ok (s.acted ⟨stage, index, c, w, reply⟩ elapsed, result)) ∨
      ¬ (⟨stage, index, c, w, reply⟩ : Entry).Answered ∧ ∃ message,
        act ⟨stage, index, c, w, reply⟩ elapsed s =
          .error (s.acted ⟨stage, index, c, w, reply⟩ elapsed, .error message) := by
  cases reply with
  | returned result => exact .inl ⟨result, rfl, rfl⟩
  | raised name => exact .inr ⟨fun ⟨_, same, _⟩ => (by cases same), _, rfl⟩
  | timedOut => exact .inr ⟨fun ⟨_, same, _⟩ => (by cases same), _, rfl⟩
  | invalid => exact .inr ⟨fun ⟨_, same, _⟩ => (by cases same), _, rfl⟩

@[simp] theorem log_trace (s : State) (record : Record) : (s.log record).trace = s.trace := rfl
@[simp] theorem log_counters (s : State) (record : Record) : (s.log record).counters = s.counters := rfl
@[simp] theorem acted_trace : (s.acted entry elapsed).trace = s.trace ++ [entry] := rfl
@[simp] theorem acted_events : (s.acted entry elapsed).events = s.events := rfl
@[simp] theorem acted_counters : (s.acted entry elapsed).counters = s.counters := rfl
@[simp] theorem sent_trace (s : State) (c : Case) : (s.sent c).trace = s.trace := rfl
@[simp] theorem sent_events (s : State) (c : Case) : (s.sent c).events = s.events := rfl
@[simp] theorem ran_trace (s : State) : s.ran.trace = s.trace := rfl
@[simp] theorem ran_events (s : State) : s.ran.events = s.events := rfl

@[simp] theorem fail_trace (s : State) (ok : Bool) : (s.fail ok).trace = s.trace := by
  cases ok <;> rfl

@[simp] theorem fail_events (s : State) (ok : Bool) : (s.fail ok).events = s.events := by
  cases ok <;> rfl

@[simp] theorem fail_now (s : State) (ok : Bool) : (s.fail ok).now = s.now := by
  cases ok <;> rfl

@[simp] theorem fail_lastCaseStart (s : State) (ok : Bool) : (s.fail ok).lastCaseStart = s.lastCaseStart := by
  cases ok <;> rfl

@[simp] theorem fail_failures (s : State) (ok : Bool) :
    (s.fail ok).counters.failures = s.counters.failures + if ok then 0 else 1 := by
  cases ok <;> rfl

@[simp] theorem recorded_trace (index : Nat) (c : Case) (trafficClass : String) (result : ActionResult) (s : State) :
    (recordEvidence index c trafficClass result s).trace = s.trace := rfl

theorem open_recorded {index : Nat} {c : Case} {trafficClass : String} {result : ActionResult}
    (before : Open s.events) : Open (recordEvidence index c trafficClass result s).events := by
  intro record member
  rcases List.mem_append.mp member with earlier | new
  · exact before record earlier
  · rw [List.mem_singleton.mp new]
    rfl

end acts

section turns
variable {r : Runner} {t : Script} {index : Nat} {c : Case} {w : Window}

/-- An answered action before the others. -/
theorem Did.after {made : List Entry} {entry : Entry} {s u : State} {step : Step State}
    (did : Did r index c w (made ++ [entry]) u step) (answered : entry.Answered)
    (trace : u.trace = s.trace ++ [entry]) (events : Open s.events → Open u.events)
    (caseStart : u.lastCaseStart = s.lastCaseStart)
    (failures : u.counters.failures = s.counters.failures + failuresOf entry) : Did r index c w made s step := by
  have each {acts : List Entry} (rest : ∀ e ∈ acts, e.Answered) : ∀ e ∈ entry :: acts, e.Answered := by
    rintro e (_ | ⟨_, member⟩)
    · exact answered
    · exact rest e member
  cases did with
  | raised acts acted rest unanswered whole =>
    refine .raised (entry :: _) (by simpa using acted) (each rest) unanswered ?_
    rw [whole, trace]
    simp
  | unopened first => simp at first
  | halted acts acted final rest whole opened =>
    refine .halted (entry :: _) (by simpa using acted) final (each rest) ?_ (opened ∘ events)
    rw [whole, trace]
    simp
  | finished acts acted recovered rest whole opened start total =>
    refine .finished (entry :: _) (by simpa using acted) recovered (each rest) ?_ (opened ∘ events)
      (start.trans caseStart) ?_
    · rw [whole, trace]
      simp
    · rw [total, failures, List.map_cons, List.sum_cons, Nat.add_assoc]

theorem recoverCase_did {made : List Entry} (acts : ∀ reply, Acts index c w (made ++ [⟨.recovery, index, c, w, reply⟩]))
    (s : State) : Did r index c w made s (recoverCase r t index c w s) := by
  unfold recoverCase
  generalize t.recovery = reply
  rcases act_cases .recovery index c w reply t.recovered s with ⟨e, rfl, acted⟩ | ⟨no, message, acted⟩
  · rw [acted]
    have whole := acts (.returned e)
    dsimp only [Bind.bind, Except.bind]
    have answered : ∀ f ∈ [(⟨.recovery, index, c, w, .returned e⟩ : Entry)], f.Answered := by
      intro f member
      rw [List.mem_singleton.mp member]
      exact ⟨e, rfl, fun other => by cases other⟩
    split
    · exact .halted [] (by simpa using whole) rfl answered rfl open_recorded
    · rename_i recovered
      split
      · exact .halted [] (by simpa using whole) rfl answered rfl open_recorded
      · exact .finished [] (by simpa using whole) (by simpa using recovered) (by simp) rfl
          open_recorded rfl rfl
  · rw [acted]
    exact .raised [] (by simpa using acts reply) (by simp) no rfl

theorem classifyCase_did {a b : ActionResult} (opened : Opened c a) (exact_ : b.sentPackets = c.packets) (s : State) :
    Did r index c w [⟨.establish, index, c, w, .returned a⟩, ⟨.inject, index, c, w, .returned b⟩] s
      (classifyCase r t index c w s) := by
  unfold classifyCase
  generalize t.classify = reply
  rcases act_cases .classify index c w reply t.classified s with ⟨d, rfl, acted⟩ | ⟨no, message, acted⟩
  · rw [acted]
    dsimp only [Bind.bind, Except.bind]
    have recovers (u : State) : Did r index c w ([⟨.establish, index, c, w, .returned a⟩,
        ⟨.inject, index, c, w, .returned b⟩] ++ [⟨.classify, index, c, w, .returned d⟩]) u (recoverCase r t index c w u) :=
      recoverCase_did (fun reply => .recovery opened exact_ reply) u
    refine (recovers _).after ?_ ?_ ?_ ?_ ?_
    · exact ⟨d, rfl, fun other => by cases other⟩
    · simp
    · intro before
      rw [fail_events]
      exact open_recorded before
    · simp [recordEvidence, State.log, State.acted]
    · simp [recordEvidence, failuresOf]
  · rw [acted]
    exact .raised [] (.classify opened exact_ _) (by simp) no rfl

theorem injectCase_did {a : ActionResult} (opened : Opened c a) (s : State) :
    Did r index c w [⟨.establish, index, c, w, .returned a⟩] s (injectCase r t index c w s) := by
  unfold injectCase
  generalize t.inject = reply
  rcases act_cases .inject index c w reply t.injected s with ⟨b, rfl, acted⟩ | ⟨no, message, acted⟩
  · rw [acted]
    dsimp only [Bind.bind, Except.bind]
    split
    · rename_i other
      refine .raised [] (.inject opened _) (by simp) ?_ rfl
      rintro ⟨result, same, attested⟩
      cases same
      exact other (attested rfl)
    · rename_i exact_
      rw [not_not] at exact_
      have classifies (u : State) : Did r index c w ([⟨.establish, index, c, w, .returned a⟩] ++
          [⟨.inject, index, c, w, .returned b⟩]) u (classifyCase r t index c w u) := classifyCase_did opened exact_ u
      refine (classifies _).after ?_ ?_ ?_ ?_ ?_
      · exact ⟨b, rfl, fun _ => exact_⟩
      · simp
      · intro before
        rw [fail_events, sent_events]
        exact open_recorded before
      · simp [recordEvidence, State.log, State.acted, State.sent]
      · simp [recordEvidence, failuresOf, State.sent, State.log, State.acted]
  · rw [acted]
    exact .raised [] (.inject opened _) (by simp) no rfl

theorem establishCase_did (s : State) : Did r index c w [] s (establishCase r t index c w s) := by
  unfold establishCase
  generalize t.establish = reply
  rcases act_cases .establish index c w reply t.established s with ⟨a, rfl, acted⟩ | ⟨no, message, acted⟩
  · rw [acted]
    dsimp only [Bind.bind, Except.bind]
    split
    · exact .unopened rfl rfl open_recorded
    · rename_i opened
      rw [not_or, Bool.not_eq_false, not_not] at opened
      have injects (u : State) : Did r index c w ([] ++ [⟨.establish, index, c, w, .returned a⟩]) u
          (injectCase r t index c w u) := injectCase_did opened u
      refine (injects _).after ?_ ?_ ?_ ?_ ?_
      · exact ⟨a, rfl, fun other => by cases other⟩
      · simp
      · exact open_recorded
      · simp [recordEvidence, State.log, State.acted]
      · simp [recordEvidence, failuresOf]
  · rw [acted]
    exact .raised [] (.establish _) (by simp) no rfl

end turns

/-- The turn of a case stops before its first action, or acts from the start of the case. -/
theorem runCase_cases (r : Runner) (outside : Outside) (index : Nat) (c : Case) (s : State) :
    (∃ reason, runCase r outside index c s = halt r reason s) ∨
      stopReason r outside (outside.scripts index) (window r (outside.scripts index) s) s.counters = none ∧
        Did r index c (window r (outside.scripts index) s) []
          { s with
            now := (window r (outside.scripts index) s).establishAt
            lastCaseStart := some (window r (outside.scripts index) s).caseStart } (runCase r outside index c s) := by
  unfold runCase
  dsimp only
  cases started : stopReason r outside (outside.scripts index) (window r (outside.scripts index) s) s.counters with
  | some reason => exact .inl ⟨reason, rfl⟩
  | none => exact .inr ⟨rfl, establishCase_did _⟩

end Sippycup.CaseRun
