import Sippycup.Python.Sha256
import Sippycup.Torture.Spans

/-! The runner of torture cases: establish, inject, classify and a recovery canary for each
case. What the outside does in a turn is a script of replies and of the times between them;
the clock and the sleeps are exact. -/
namespace Sippycup.CaseRun
open Sippycup.Python
open Sippycup.Torture (Bytes)

structure Case where
  id : String
  dialogState : String
  expectedOutcomes : List String
  wireBytes : Bytes
  packetCount : Nat
  packetLengths : List Nat
  deriving DecidableEq

structure RunnerLimits where
  maxCases : Nat
  maxPackets : Nat
  maxBytes : Nat
  maxRateHz : Rat
  maxConcurrency : Nat
  maxDurationS : Rat
  maxFailures : Nat
  actionTimeoutS : Rat
  counts : 1 ≤ maxCases ∧ 1 ≤ maxPackets ∧ 1 ≤ maxBytes ∧ 1 ≤ maxConcurrency ∧ 1 ≤ maxFailures
  times : 0 < maxRateHz ∧ 0 < maxDurationS ∧ 0 < actionTimeoutS
  capped : maxCases ≤ 100 ∧ maxPackets ≤ 300 ∧ maxBytes ≤ 1000000 ∧ maxRateHz ≤ 10 ∧
    maxConcurrency = 1 ∧ maxDurationS ≤ 3600 ∧ maxFailures ≤ 20 ∧ actionTimeoutS ≤ 60

structure ActionResult where
  ok : Bool
  outcome : String
  evidencePackets : List Bytes
  sentPackets : List Bytes
  dialogState : Option String
  deriving DecidableEq

/-- What a callback does within the action timeout. -/
inductive Reply where
  | returned (result : ActionResult)
  | raised (name : String)
  | timedOut
  | invalid
  deriving DecidableEq

inductive Check where
  | returned (b : Bool)
  | raised
  deriving DecidableEq

/-- What the outside does in the turn of a case. Times are from one moment to the next. -/
structure Script where
  sampled : ℚ≥0
  checked : ℚ≥0
  health : Check
  metrics : Check
  paced : ℚ≥0
  overslept : ℚ≥0
  begun : ℚ≥0
  establish : Reply
  established : ℚ≥0
  inject : Reply
  injected : ℚ≥0
  classify : Reply
  classified : ℚ≥0
  recovery : Reply
  recovered : ℚ≥0

/-- The start of the run, the moment the stop event is set, and a script for each case. -/
structure Outside where
  start : Rat
  stopAt : Option Rat
  scripts : Nat → Script

structure Counters where
  cases : Nat
  packets : Nat
  bytes : Nat
  failures : Nat
  deriving DecidableEq

inductive Stage where
  | establish | inject | classify | recovery
  deriving DecidableEq

def Stage.name : Stage → String
  | .establish => "establish"
  | .inject => "inject"
  | .classify => "classify"
  | .recovery => "recovery"

/-- When a case's turn samples the stop event and the clock, and when the case begins. -/
structure Window where
  sampledAt : Rat
  checkedAt : Rat
  caseStart : Rat
  establishAt : Rat
  deriving DecidableEq

/-- An action that was started. -/
structure Entry where
  stage : Stage
  index : Nat
  case : Case
  window : Window
  reply : Reply
  deriving DecidableEq

structure PlannedCase where
  id : String
  sha256 : Text
  requiredDialogState : String
  mutationPackets : Nat
  mutationBytes : Nat
  deriving DecidableEq

structure Traffic where
  packets : Nat
  bytes : Nat
  deriving DecidableEq

/-- What `dry_run` lists besides the limits. -/
structure Plan where
  cases : List PlannedCase
  selectedMutationTraffic : Traffic
  deriving DecidableEq

structure EvidenceFile where
  file : String
  sha256 : Text
  deriving DecidableEq

/-- A line of `events.jsonl`. -/
inductive Record where
  | runStarted (plan : Plan)
  | stage (trafficClass caseId : String) (ok : Bool) (outcome : String) (evidence : List EvidenceFile)
  | runStopped (reason : String)
  | runCompleted (counters : Counters)
  deriving DecidableEq

structure RunResult where
  state : String
  reason : Option String
  counters : Counters
  plan : Plan
  deriving DecidableEq

def Case.sha256 (c : Case) : Text := sha256Hex (c.wireBytes.map UInt8.toNat)

/-- The wire bytes cut at the packet lengths. -/
def cut : Bytes → List Nat → List Bytes
  | _, [] => []
  | data, length :: rest => data.take length :: cut (data.drop length) rest

def Case.packets (c : Case) : List Bytes :=
  cut c.wireBytes (if c.packetLengths = [] then [c.wireBytes.length] else c.packetLengths)

structure Runner where
  cases : List Case
  limits : RunnerLimits
  chosen : cases ≠ []
  distinct : (cases.map Case.id).Nodup

def Runner.selected (r : Runner) : List Case := r.cases.take r.limits.maxCases

def packetSum (cases : List Case) : Nat := (cases.map Case.packetCount).sum
def byteSum (cases : List Case) : Nat := (cases.map fun c => c.wireBytes.length).sum

def Runner.dryRun (r : Runner) : Plan where
  cases := r.selected.map fun c =>
    { id := c.id, sha256 := c.sha256, requiredDialogState := c.dialogState,
      mutationPackets := c.packetCount, mutationBytes := c.wireBytes.length }
  selectedMutationTraffic := ⟨packetSum r.selected, byteSum r.selected⟩

structure State where
  now : Rat
  counters : Counters
  lastCaseStart : Option Rat
  trace : List Entry
  events : List Record

abbrev Ending := Except String RunResult

/-- The rest of a turn, or the state and the ending of a run that is over. -/
abbrev Step := Except (State × Ending)

def State.log (s : State) (record : Record) : State := { s with events := s.events ++ [record] }

def halt {α : Type} (r : Runner) (reason : String) (s : State) : Step α :=
  .error (s.log (.runStopped reason), .ok ⟨"stopped", some reason, s.counters, r.dryRun⟩)

/-- An action, and the time until the next moment of the turn. -/
def act (entry : Entry) (elapsed : ℚ≥0) (s : State) : Step (State × ActionResult) :=
  let after := { s with trace := s.trace ++ [entry], now := s.now + elapsed }
  match entry.reply with
  | .returned result => .ok (after, result)
  | .raised name => .error (after, .error (entry.stage.name ++ " action failed: " ++ name))
  | .timedOut => .error (after, .error (entry.stage.name ++ " action timed out; cancellation requested"))
  | .invalid => .error (after, .error (entry.stage.name ++ " action returned an invalid result"))

def threeDigits (n : Nat) : String :=
  String.ofList (List.replicate (3 - (toString n).length) '0') ++ toString n

def evidence (index : Nat) (c : Case) (trafficClass : String) (packets : List Bytes) : List EvidenceFile :=
  packets.zipIdx.map fun (packet, i) =>
    { file := threeDigits index ++ "-" ++ c.id ++ "-" ++ trafficClass ++ "-" ++ threeDigits i ++ ".bin"
      sha256 := sha256Hex (packet.map UInt8.toNat) }

def recordEvidence (index : Nat) (c : Case) (trafficClass : String) (result : ActionResult) (s : State) : State :=
  s.log (.stage trafficClass c.id result.ok result.outcome (evidence index c trafficClass result.evidencePackets))

def Outside.stopped (outside : Outside) (moment : Rat) : Bool :=
  match outside.stopAt with
  | none => false
  | some stop => decide (stop ≤ moment)

def safetyReason : Check → Check → Option String
  | .raised, _ => some "safety-callback-failed"
  | .returned false, _ => some "health-check-failed"
  | .returned true, .raised => some "safety-callback-failed"
  | .returned true, .returned false => some "server-metric-threshold"
  | .returned true, .returned true => none

def stopReason (r : Runner) (outside : Outside) (t : Script) (w : Window) (counters : Counters) : Option String :=
  if outside.stopped w.sampledAt then some "operator-stop"
  else if r.limits.maxDurationS ≤ w.checkedAt - outside.start then some "duration-ceiling-reached"
  else if r.limits.maxFailures ≤ counters.failures then some "failure-ceiling-reached"
  else safetyReason t.health t.metrics

def pacingDelay (r : Runner) (s : State) (pacedAt : Rat) : Rat :=
  match s.lastCaseStart with
  | none => 0
  | some last => max 0 (1 / r.limits.maxRateHz - (pacedAt - last))

def window (r : Runner) (t : Script) (s : State) : Window :=
  let sampledAt := s.now + t.sampled
  let checkedAt := sampledAt + t.checked
  let pacedAt := checkedAt + t.paced
  let caseStart := pacedAt + pacingDelay r s pacedAt + t.overslept
  { sampledAt, checkedAt, caseStart, establishAt := caseStart + t.begun }

/-- A classification counts as ok for an outcome that the case expects. -/
def judged (c : Case) (result : ActionResult) : ActionResult :=
  if result.ok = true ∧ result.outcome ∉ c.expectedOutcomes then
    { result with ok := false, outcome := "unacceptable:" ++ result.outcome }
  else result

def State.fail (s : State) (ok : Bool) : State :=
  if ok then s else { s with counters := { s.counters with failures := s.counters.failures + 1 } }

def State.sent (s : State) (c : Case) : State :=
  { s with counters := { s.counters with
      packets := s.counters.packets + c.packetCount, bytes := s.counters.bytes + c.wireBytes.length } }

def State.ran (s : State) : State :=
  { s with counters := { s.counters with cases := s.counters.cases + 1 } }

/-- The actions of a turn, under its index, case and window. -/
def recoverCase (r : Runner) (t : Script) (index : Nat) (c : Case) (w : Window) (s : State) : Step State := do
  let (s, recovery) ← act ⟨.recovery, index, c, w, t.recovery⟩ t.recovered s
  let s := (recordEvidence index c "baseline-recovery" recovery s).ran
  if recovery.ok = false then halt r "recovery-canary-failed" s
  else if r.limits.maxFailures ≤ s.counters.failures then halt r "failure-ceiling-reached" s
  else .ok s

def classifyCase (r : Runner) (t : Script) (index : Nat) (c : Case) (w : Window) (s : State) : Step State := do
  let (s, result) ← act ⟨.classify, index, c, w, t.classify⟩ t.classified s
  let classification := judged c result
  recoverCase r t index c w ((recordEvidence index c "observation" classification s).fail classification.ok)

def injectCase (r : Runner) (t : Script) (index : Nat) (c : Case) (w : Window) (s : State) : Step State := do
  let (s, mutation) ← act ⟨.inject, index, c, w, t.inject⟩ t.injected s
  if mutation.sentPackets ≠ c.packets then
    .error (s, .error "inject provider did not attest the exact case packet bytes")
  else classifyCase r t index c w (((recordEvidence index c "mutation" mutation s).sent c).fail mutation.ok)

def establishCase (r : Runner) (t : Script) (index : Nat) (c : Case) (w : Window) (s : State) : Step State := do
  let (s, establish) ← act ⟨.establish, index, c, w, t.establish⟩ t.established s
  let s := recordEvidence index c "baseline-establish" establish s
  if establish.ok = false ∨ establish.dialogState ≠ some c.dialogState then
    halt r "dialog-establishment-failed" s
  else injectCase r t index c w s

def runCase (r : Runner) (outside : Outside) (index : Nat) (c : Case) (s : State) : Step State :=
  let t := outside.scripts index
  let w := window r t s
  match stopReason r outside t w s.counters with
  | some reason => halt r reason s
  | none => establishCase r t index c w { s with now := w.establishAt, lastCaseStart := some w.caseStart }

def runCases (r : Runner) (outside : Outside) : Nat → List Case → State → State × Ending
  | _, [], s => (s.log (.runCompleted s.counters), .ok ⟨"completed", none, s.counters, r.dryRun⟩)
  | index, c :: rest, s =>
    match runCase r outside index c s with
    | .error finish => finish
    | .ok next => runCases r outside (index + 1) rest next

def Runner.started (r : Runner) (outside : Outside) : State :=
  { now := outside.start, counters := ⟨0, 0, 0, 0⟩, lastCaseStart := none, trace := []
    events := [.runStarted r.dryRun] }

/-- A run is refused before it has any event, or ends with a result or an exception. -/
def Runner.run (r : Runner) (outside : Outside) : Except String (State × Ending) :=
  if r.limits.maxPackets < packetSum r.selected ∨ r.limits.maxBytes < byteSum r.selected then
    .error "selected mutations exceed frozen traffic ceilings"
  else .ok (runCases r outside 0 r.selected (r.started outside))

end Sippycup.CaseRun
