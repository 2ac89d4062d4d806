import Mathlib.Data.List.Chain
import Sippycup.Torture.Recovered

/-! Stops, ceilings and pacing: what bounds every run, and in which runs no injection comes
after a stop. -/
namespace Sippycup.CaseRun
open Sippycup.Trace

/-- The clock at the start of each case. -/
def starts (trace : List Entry) : List Rat :=
  trace.filterMap fun e => if e.stage = .establish then some e.window.caseStart else none

def injections (trace : List Entry) : List Case :=
  trace.filterMap fun e => if e.stage = .inject then some e.case else none

def failures (trace : List Entry) : Nat := (trace.map failuresOf).sum

/-- No injection past a stop, and no more cases, traffic, failures or speed than the limits. -/
structure Bounded (r : Runner) (outside : Outside) (trace : List Entry) : Prop where
  unstopped : ∀ e ∈ trace, e.stage = .inject → ∀ stop, outside.stopAt = some stop → e.window.establishAt ≤ stop
  timely : ∀ e ∈ trace, e.stage = .inject → e.window.caseStart - outside.start < r.limits.maxDurationS
  packets : packetSum (injections trace) ≤ r.limits.maxPackets
  bytes : byteSum (injections trace) ≤ r.limits.maxBytes
  spaced : (starts trace).IsChain fun a b => a + 1 / r.limits.maxRateHz ≤ b
  cases : (starts trace).length ≤ r.limits.maxCases
  failing : Guarded (fun e => e.stage = .establish) (fun before => failures before < r.limits.maxFailures) trace

/-- Between the samples of an injected case's turn and the start of the case, the stop event is
not set and the duration does not run out. -/
def Steady (r : Runner) (outside : Outside) (e : Entry) : Prop :=
  (∀ stop, outside.stopAt = some stop → ¬ (e.window.sampledAt < stop ∧ stop < e.window.establishAt)) ∧
    ¬ (e.window.checkedAt - outside.start < r.limits.maxDurationS ∧
      r.limits.maxDurationS ≤ e.window.caseStart - outside.start)

/-- The samples of the entry's turn let the case pass. -/
def Sampled (r : Runner) (outside : Outside) (w : Window) : Prop :=
  outside.stopped w.sampledAt = false ∧ w.checkedAt - outside.start < r.limits.maxDurationS

/-- The bounds that hold however the outside behaves. -/
structure Held (r : Runner) (outside : Outside) (trace : List Entry) : Prop where
  sampled : ∀ e ∈ trace, Sampled r outside e.window
  packets : packetSum (injections trace) ≤ r.limits.maxPackets
  bytes : byteSum (injections trace) ≤ r.limits.maxBytes
  spaced : (starts trace).IsChain fun a b => a + 1 / r.limits.maxRateHz ≤ b
  cases : (starts trace).length ≤ r.limits.maxCases
  failing : Guarded (fun e => e.stage = .establish) (fun before => failures before < r.limits.maxFailures) trace

section traces
variable {r : Runner} {outside : Outside} {trace acts : List Entry} {index : Nat} {c : Case} {w : Window}

theorem starts_append (trace acts : List Entry) : starts (trace ++ acts) = starts trace ++ starts acts :=
  List.filterMap_append

theorem injections_append (trace acts : List Entry) :
    injections (trace ++ acts) = injections trace ++ injections acts := List.filterMap_append

theorem failures_append (trace acts : List Entry) : failures (trace ++ acts) = failures trace + failures acts := by
  rw [failures, List.map_append, List.sum_append]
  rfl

theorem packetSum_append (xs ys : List Case) : packetSum (xs ++ ys) = packetSum xs + packetSum ys := by
  rw [packetSum, List.map_append, List.sum_append]
  rfl

theorem byteSum_append (xs ys : List Case) : byteSum (xs ++ ys) = byteSum xs + byteSum ys := by
  rw [byteSum, List.map_append, List.sum_append]
  rfl

theorem acts_starts (acted : Acts index c w acts) : starts acts = [w.caseStart] := by
  cases acted <;> rfl

theorem acts_window (acted : Acts index c w acts) : ∀ e ∈ acts, e.window = w := by
  cases acted <;> simp

theorem acts_injections (acted : Acts index c w acts) : injections acts = [] ∨ injections acts = [c] := by
  cases acted with
  | establish => exact .inl rfl
  | inject => exact .inr rfl
  | classify => exact .inr rfl
  | recovery => exact .inr rfl

theorem acts_packets (acted : Acts index c w acts) : packetSum (injections acts) ≤ c.packetCount := by
  rcases acts_injections acted with none | one
  · rw [none]
    exact Nat.zero_le _
  · rw [one]
    exact le_of_eq (Nat.add_zero _)

theorem acts_bytes (acted : Acts index c w acts) : byteSum (injections acts) ≤ c.wireBytes.length := by
  rcases acts_injections acted with none | one
  · rw [none]
    exact Nat.zero_le _
  · rw [one]
    exact le_of_eq (Nat.add_zero _)

/-- Only the first action of a turn establishes. -/
theorem acts_guarded {guard : List Entry → Prop} (guarded : Guarded (fun e => e.stage = .establish) guard trace)
    (now : guard trace) (acted : Acts index c w acts) :
    Guarded (fun e => e.stage = .establish) guard (trace ++ acts) := by
  have first (reply : Reply) :
      Guarded (fun e : Entry => e.stage = .establish) guard (trace ++ [⟨.establish, index, c, w, reply⟩]) :=
    guarded_concat.mpr ⟨guarded, fun _ => now⟩
  have later {before : List Entry} (kept : Guarded (fun e : Entry => e.stage = .establish) guard before) {e : Entry}
      (other : e.stage ≠ .establish) : Guarded (fun e : Entry => e.stage = .establish) guard (before ++ [e]) :=
    guarded_concat.mpr ⟨kept, fun stage => absurd stage other⟩
  cases acted with
  | establish reply => exact first reply
  | @inject a opened reply =>
    simpa using later (first (.returned a)) (e := ⟨.inject, index, c, w, reply⟩) (by simp)
  | @classify a b opened exact_ reply =>
    have second := later (first (.returned a)) (e := ⟨.inject, index, c, w, .returned b⟩) (by simp)
    simpa using later second (e := ⟨.classify, index, c, w, reply⟩) (by simp)
  | @recovery a b d opened exact_ reply =>
    have second := later (first (.returned a)) (e := ⟨.inject, index, c, w, .returned b⟩) (by simp)
    have third := later second (e := ⟨.classify, index, c, w, .returned d⟩) (by simp)
    simpa using later third (e := ⟨.recovery, index, c, w, reply⟩) (by simp)

end traces

/-- What holds before the turn of each case, with the cases that are left. -/
structure Within (r : Runner) (outside : Outside) (rest : List Case) (s : State) : Prop where
  sampled : ∀ e ∈ s.trace, Sampled r outside e.window
  packets : packetSum (injections s.trace) + packetSum rest ≤ r.limits.maxPackets
  bytes : byteSum (injections s.trace) + byteSum rest ≤ r.limits.maxBytes
  spaced : (starts s.trace).IsChain fun a b => a + 1 / r.limits.maxRateHz ≤ b
  last : (starts s.trace).getLast? = s.lastCaseStart
  cases : (starts s.trace).length + rest.length ≤ r.limits.maxCases
  failing : Guarded (fun e => e.stage = .establish) (fun before => failures before < r.limits.maxFailures) s.trace
  counted : s.counters.failures = failures s.trace

section runs
variable {r : Runner} {outside : Outside} {index : Nat} {c : Case} {rest : List Case} {s : State}

theorem Within.held (within : Within r outside rest s) : Held r outside s.trace where
  sampled := within.sampled
  packets := (Nat.le_add_right _ _).trans within.packets
  bytes := (Nat.le_add_right _ _).trans within.bytes
  spaced := within.spaced
  cases := (Nat.le_add_right _ _).trans within.cases
  failing := within.failing

theorem stopReason_none {t : Script} {w : Window} {counters : Counters}
    (started : stopReason r outside t w counters = none) :
    Sampled r outside w ∧ counters.failures < r.limits.maxFailures := by
  unfold stopReason at started
  split at started
  · cases started
  · rename_i running
    split at started
    · cases started
    · rename_i inTime
      split at started
      · cases started
      · rename_i few
        exact ⟨⟨Bool.not_eq_true _ ▸ running, not_le.mp inTime⟩, Nat.not_le.mp few⟩

/-- The pacing keeps the start of a case from the one before. -/
theorem window_spaced {t : Script} {last : Rat} (earlier : s.lastCaseStart = some last) :
    last + 1 / r.limits.maxRateHz ≤ (window r t s).caseStart := by
  simp only [window, pacingDelay, earlier]
  have slept := le_max_right 0 (1 / r.limits.maxRateHz - (s.now + t.sampled + t.checked + t.paced - last))
  have finish := t.overslept.2
  change (0 : Rat) ≤ (t.overslept : Rat) at finish
  linarith

theorem spaced_start {t : Script} (within : Within r outside (c :: rest) s) :
    (starts s.trace ++ [(window r t s).caseStart]).IsChain fun a b => a + 1 / r.limits.maxRateHz ≤ b := by
  refine List.isChain_append.mpr ⟨within.spaced, List.isChain_singleton _, fun a last b first => ?_⟩
  cases first
  have earlier : s.lastCaseStart = some a := within.last ▸ last
  exact window_spaced earlier

/-- The bounds with the actions of a turn. -/
theorem held_acts {t : Script} {acts : List Entry} (within : Within r outside (c :: rest) s)
    (started : stopReason r outside t (window r t s) s.counters = none) (acted : Acts index c (window r t s) acts) :
    Within r outside rest { s with
      trace := s.trace ++ acts
      lastCaseStart := some (window r t s).caseStart
      counters := { s.counters with failures := s.counters.failures + failures acts } } := by
  obtain ⟨sampled, few⟩ := stopReason_none started
  constructor
  · intro e member
    rcases List.mem_append.mp member with earlier | now
    · exact within.sampled e earlier
    · rw [acts_window acted e now]
      exact sampled
  · have before := within.packets
    have now := acts_packets acted
    change packetSum (injections (s.trace ++ acts)) + packetSum rest ≤ _
    change _ + (c.packetCount + packetSum rest) ≤ _ at before
    rw [injections_append, packetSum_append]
    omega
  · have before := within.bytes
    have now := acts_bytes acted
    change byteSum (injections (s.trace ++ acts)) + byteSum rest ≤ _
    change _ + (c.wireBytes.length + byteSum rest) ≤ _ at before
    rw [injections_append, byteSum_append]
    omega
  · change (starts (s.trace ++ acts)).IsChain _
    rw [starts_append, acts_starts acted]
    exact spaced_start within
  · change (starts (s.trace ++ acts)).getLast? = _
    rw [starts_append, acts_starts acted, List.getLast?_concat]
  · have before := within.cases
    change (starts (s.trace ++ acts)).length + _ ≤ _
    rw [starts_append, acts_starts acted, List.length_append, List.length_singleton]
    rw [List.length_cons] at before
    omega
  · refine acts_guarded within.failing ?_ acted
    rw [← within.counted]
    exact few
  · change _ = failures (s.trace ++ acts)
    rw [failures_append, ← within.counted]

theorem held_same {t : State} (within : Within r outside rest s) (trace : t.trace = s.trace) : Held r outside t.trace := by
  rw [trace]
  exact within.held

/-- A turn keeps the bounds, whether the run goes on or is over. -/
theorem within_turn (within : Within r outside (c :: rest) s) :
    (∀ finish, runCase r outside index c s = .error finish → Held r outside finish.1.trace) ∧
      ∀ next, runCase r outside index c s = .ok next → Within r outside rest next := by
  rcases runCase_cases r outside index c s with ⟨reason, stopped⟩ | ⟨started, did⟩
  · rw [stopped]
    refine ⟨fun finish ended => ?_, fun next ended => by cases ended⟩
    cases ended
    exact within.held
  · generalize runCase r outside index c s = step at did
    cases did with
    | raised acts acted answered unanswered trace =>
      refine ⟨fun finish ended => ?_, fun next ended => by cases ended⟩
      cases ended
      exact held_same (held_acts within started acted) trace
    | unopened first trace events =>
      refine ⟨fun finish ended => ?_, fun next ended => by cases ended⟩
      cases ended
      exact held_same (held_acts within started (.establish _)) trace
    | halted acts acted final answered trace events =>
      refine ⟨fun finish ended => ?_, fun next ended => by cases ended⟩
      cases ended
      exact held_same (held_acts within started acted) trace
    | @finished acts e t acted recovered answered trace events caseStart failed =>
      refine ⟨fun finish ended => (by cases ended), fun next ended => ?_⟩
      cases ended
      have kept := held_acts within started acted
      have total : failures (s.trace ++ (acts ++ [⟨.recovery, index, c, window r (outside.scripts index) s, .returned e⟩])) =
          failures s.trace + (acts.map failuresOf).sum := by
        rw [failures_append, failures_append]
        rfl
      refine ⟨?_, ?_, ?_, ?_, ?_, ?_, ?_, ?_⟩
      · rw [trace]
        exact kept.sampled
      · rw [trace]
        exact kept.packets
      · rw [trace]
        exact kept.bytes
      · rw [trace]
        exact kept.spaced
      · rw [trace, caseStart]
        exact kept.last
      · rw [trace]
        exact kept.cases
      · rw [trace]
        exact kept.failing
      · rw [trace, failed, ← within.counted] at *
        exact total.symm

theorem runCases_held {cases : List Case} (within : Within r outside cases s) :
    Held r outside (runCases r outside index cases s).1.trace := by
  induction cases generalizing index s with
  | nil => exact within.held
  | cons c rest ih =>
    unfold runCases
    have turn := @within_turn r outside index c rest s within
    cases ended : runCase r outside index c s with
    | error finish => exact turn.1 finish ended
    | ok next => exact ih (turn.2 next ended)

/-- The bounds of every run. -/
theorem run_held {run : State × Ending} (ran : r.run outside = .ok run) : Held r outside run.1.trace := by
  unfold Runner.run at ran
  split at ran
  · cases ran
  · rename_i fits
    cases ran
    rw [not_or, Nat.not_lt, Nat.not_lt] at fits
    refine runCases_held ⟨fun e member => absurd member List.not_mem_nil, ?_, ?_, ?_, rfl, ?_, guarded_nil, rfl⟩
    · exact (Nat.zero_add _).trans_le fits.1
    · exact (Nat.zero_add _).trans_le fits.2
    · exact List.isChain_nil
    · exact (Nat.zero_add _).trans_le (List.length_take_le _ _)

end runs

def slowLimits : RunnerLimits :=
  { defaultLimits with
    maxCases := 2
    maxRateHz := 1 / 100
    counts := by decide
    times := by decide +kernel
    capped := by decide +kernel }

def twoProbes : Runner := ⟨[probe, { probe with id := "second" }], slowLimits, by simp, by decide⟩

end Sippycup.CaseRun
