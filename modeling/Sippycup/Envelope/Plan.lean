import Sippycup.Python.Checks

/-! Envelope manifests: field readers, checked arithmetic and normalization.
Every reader either returns a checked value or raises; the messages carry the
field path of the document. -/
namespace Sippycup.Envelope
open Sippycup.Python

structure EnvelopeError where
  message : String
  deriving DecidableEq

abbrev Result := Except (Raised EnvelopeError)

def fail {α : Type} (message : String) : Result α := .error (.own ⟨message⟩)

def manifestVersion : String := "sippycup.dev/envelope/v1"
def planVersion : String := "sippycup.dev/envelope-plan/v1"
def u64Max : Nat := 2 ^ 64 - 1
def maxPlanSteps : Nat := 100000

inductive Dimension where
  | callsPerSecond | concurrentCalls | mediaPacketsPerSecond
  deriving DecidableEq

def Dimension.name : Dimension → String
  | .callsPerSecond => "callsPerSecond"
  | .concurrentCalls => "concurrentCalls"
  | .mediaPacketsPerSecond => "mediaPacketsPerSecond"

def dimensions : List Dimension := [.callsPerSecond, .concurrentCalls, .mediaPacketsPerSecond]

inductive MaximaKey where
  | dimension (d : Dimension)
  | totalCalls | durationSeconds | holdSeconds | cooldownSeconds | recoveryDeadlineSeconds
  deriving DecidableEq

def MaximaKey.name : MaximaKey → String
  | .dimension d => d.name
  | .totalCalls => "totalCalls"
  | .durationSeconds => "durationSeconds"
  | .holdSeconds => "holdSeconds"
  | .cooldownSeconds => "cooldownSeconds"
  | .recoveryDeadlineSeconds => "recoveryDeadlineSeconds"

def maximaKeys : List MaximaKey :=
  dimensions.map .dimension ++
    [.totalCalls, .durationSeconds, .holdSeconds, .cooldownSeconds, .recoveryDeadlineSeconds]

inductive WorkloadKey where
  | dimension (d : Dimension)
  | callDurationSeconds
  deriving DecidableEq

def WorkloadKey.name : WorkloadKey → String
  | .dimension d => d.name
  | .callDurationSeconds => "callDurationSeconds"

def workloadKeys : List WorkloadKey := dimensions.map .dimension ++ [.callDurationSeconds]

theorem mem_dimensions (d : Dimension) : d ∈ dimensions := by cases d <;> decide

theorem mem_maximaKeys (key : MaximaKey) : key ∈ maximaKeys := by
  rcases key with d | _ <;> simp [maximaKeys, mem_dimensions]

theorem mem_workloadKeys (key : WorkloadKey) : key ∈ workloadKeys := by
  rcases key with d | _ <;> simp [workloadKeys, mem_dimensions]

abbrev Maxima := MaximaKey → Nat
abbrev Workload := WorkloadKey → Nat

@[grind =] def object (value : Value) (field : String) : Result Dict :=
  match value with
  | .dict entries => .ok entries
  | _ => fail s!"{field} must be an object"

/-- Sorting or joining unknown names that are not text raises `TypeError`. -/
def exactKeys (value : Dict) (field : String) (required : List String) : Result Unit := do
  let missing := missingKeys value required
  let unknown ← sortedKeys (unknownKeys value required)
  if missing ≠ [] then fail s!"{field} missing fields: {joinNames missing}"
  else if unknown.isEmpty then return ()
  else
    let names ← joinTexts unknown
    fail s!"{field} contains unsupported fields: {names}"

def uint (value : Value) (field : String) (allowZero : Bool) : Result Nat :=
  let minimum : Nat := if allowZero then 0 else 1
  match value with
  | .int n =>
    if n < minimum ∨ (u64Max : Int) < n then
      fail s!"{field} must be between {minimum} and {u64Max}"
    else .ok n.toNat
  | _ => fail s!"{field} must be an integer"

def checkedAdd (left right : Nat) (field : String) : Result Nat :=
  if (u64Max : Int) - right < left then fail s!"arithmetic overflow while calculating {field}"
  else .ok (left + right)

def checkedMul (left right : Nat) (field : String) : Result Nat :=
  if left ≠ 0 ∧ u64Max / left < right then fail s!"arithmetic overflow while calculating {field}"
  else .ok (left * right)

def ceilDiv (numerator denominator : Nat) : Nat :=
  numerator / denominator + if numerator % denominator ≠ 0 then 1 else 0

def name (value : Value) (field : String) : Result Text :=
  match value with
  | .str text =>
    if nameOk text then .ok text else fail s!"{field} must match [a-z][a-z0-9-]\x7b0,62\x7d"
  | _ => fail s!"{field} must match [a-z][a-z0-9-]\x7b0,62\x7d"

def sha256 (value : Value) (field : String) : Result Text :=
  match value with
  | .str text =>
    if sha256Ok text then .ok text
    else fail s!"{field} must be 64 lowercase hex digits"
  | _ => fail s!"{field} must be 64 lowercase hex digits"

def normalizeMaxima (value : Value) (field : String) : Result Maxima := do
  let maxima ← object value field
  exactKeys maxima field (maximaKeys.map MaximaKey.name)
  collect (fun key => do uint (← maxima.item key.name) s!"{field}.{key.name}" false) maximaKeys

def MaximaKey.ofValue? (key : Value) : Option MaximaKey :=
  maximaKeys.find? fun k => key.isText k.name

/-- Overrides may only lower authorization; `None` leaves a maximum as it is. -/
@[grind =] def applyReductions (maxima : Maxima) : Dict → Maxima → Result Maxima
  | [], result => .ok result
  | (key, value) :: rest, result =>
    match MaximaKey.ofValue? key with
    | none => fail s!"unsupported maximum override {key.repr}"
    | some k =>
      match value with
      | .none => applyReductions maxima rest result
      | value => do
        let reduced ← uint value s!"--max-{k.name}" false
        if maxima k < reduced then
          fail s!"override for {k.name} ({reduced}) exceeds authorized maximum ({maxima k}); overrides may only lower authorization"
        else applyReductions maxima rest (Function.update result k reduced)

def normalizeWorkload (value : Value) : Result Workload := do
  let workload ← object value "workload"
  exactKeys workload "workload" (workloadKeys.map WorkloadKey.name)
  collect (fun key => do uint (← workload.item key.name) s!"workload.{key.name}" false) workloadKeys

structure Ramp where
  dimension : Dimension
  start : Nat
  step : Nat

def rampKeys : List String := ["dimension", "start", "step"]

def normalizeRamp (value : Value) : Result Ramp := do
  let ramp ← object value "ramp"
  exactKeys ramp "ramp" rampKeys
  let dimension ← ramp.item "dimension"
  match dimensions.find? fun d => dimension.isText d.name with
  | none =>
    fail "ramp.dimension must be callsPerSecond, concurrentCalls, or mediaPacketsPerSecond"
  | some dimension =>
    let start ← uint (← ramp.item "start") "ramp.start" false
    let step ← uint (← ramp.item "step") "ramp.step" false
    return { dimension, start, step }

@[grind =] def checkDimensions (maxima : Maxima) (workload : Workload) : List Dimension → Result Unit
  | [] => .ok ()
  | d :: rest =>
    if maxima (.dimension d) < workload (.dimension d) then
      fail s!"workload.{d.name} exceeds authorization hard maximum"
    else checkDimensions maxima workload rest

def validateConstraints (maxima : Maxima) (workload : Workload) (ramp : Ramp) : Result Unit := do
  checkDimensions maxima workload dimensions
  if maxima .durationSeconds < workload .callDurationSeconds then
    fail "workload.callDurationSeconds exceeds duration hard maximum"
  else if workload (.dimension ramp.dimension) ≠ ramp.start then
    fail "workload value for ramp.dimension must equal ramp.start"
  else if maxima (.dimension ramp.dimension) < ramp.start then
    fail "ramp.start exceeds its authorization hard maximum"
  else return ()

structure Normalized where
  name : Text
  sourceMaxima : Maxima
  maxima : Maxima
  workload : Workload
  ramp : Ramp

def manifestKeys : List String :=
  ["apiVersion", "kind", "metadata", "authorization", "workload", "ramp"]

def normalizeManifest (manifest : Value) (reductions : Dict) : Result Normalized := do
  let document ← object manifest "manifest"
  exactKeys document "manifest" manifestKeys
  if !(← document.item "apiVersion").isText manifestVersion then
    fail s!"apiVersion must be '{manifestVersion}'"
  else if !(← document.item "kind").isText "Envelope" then fail "kind must be 'Envelope'"
  else
    let metadata ← object (← document.item "metadata") "metadata"
    exactKeys metadata "metadata" ["name"]
    let name ← Envelope.name (← metadata.item "name") "metadata.name"
    let authorization ← object (← document.item "authorization") "authorization"
    exactKeys authorization "authorization" ["hardMaxima"]
    let sourceMaxima ← normalizeMaxima (← authorization.item "hardMaxima") "authorization.hardMaxima"
    let maxima ← applyReductions sourceMaxima reductions sourceMaxima
    let workload ← normalizeWorkload (← document.item "workload")
    let ramp ← normalizeRamp (← document.item "ramp")
    validateConstraints maxima workload ramp
    return { name, sourceMaxima, maxima, workload, ramp }

end Sippycup.Envelope

/-! Envelope compilation: level expansion, step budgets, the greedy ramp loop,
and validation of a frozen plan by recompilation. -/
namespace Sippycup.Envelope
open Sippycup.Python

/-- `ramp.start` never exceeds the maximum here, so the difference is exact. -/
def levels (start step maximum : Nat) : Result (List Nat) :=
  let count := ceilDiv (maximum - start) step + 1
  if maxPlanSteps < count then fail s!"ramp expansion exceeds planner limit ({maxPlanSteps})"
  else
    let expanded := (List.range count).map fun index => start + index * step
    let last := min (expanded.getLastD 0) maximum
    let clamped := expanded.dropLast ++ [last]
    if last ≠ maximum then .ok (clamped ++ [maximum]) else .ok clamped

structure StepBudget where
  calls : Nat
  mediaPackets : Nat
  callSeconds : Nat
  durationSeconds : Nat

def stepBudget (intensity : Dimension → Nat) (holdSeconds callDurationSeconds : Nat) :
    Result StepBudget := do
  let callsAtRate ← checkedMul (intensity .callsPerSecond) holdSeconds "step calls at CPS"
  let rotations := ceilDiv holdSeconds callDurationSeconds
  let callsAtConcurrency ←
    checkedMul (intensity .concurrentCalls) rotations "step calls at concurrency"
  let calls := max callsAtRate callsAtConcurrency
  let mediaPackets ← checkedMul (intensity .mediaPacketsPerSecond) holdSeconds "step media packets"
  let callSeconds ← checkedMul (intensity .concurrentCalls) holdSeconds "step call-seconds"
  return { calls, mediaPackets, callSeconds, durationSeconds := holdSeconds }

structure Totals where
  calls : Nat
  mediaPackets : Nat
  callSeconds : Nat
  rampDurationSeconds : Nat

structure PlanStep where
  index : Nat
  level : Nat
  startAtSeconds : Nat
  holdSeconds : Nat
  intensity : Dimension → Nat
  budget : StepBudget

inductive Reason where
  | authorizationCeiling | budgetExhausted
  deriving DecidableEq

def Reason.name : Reason → String
  | .authorizationCeiling => "authorization_ceiling"
  | .budgetExhausted => "budget_exhausted"

def intensityAt (workload : Workload) (ramp : Ramp) (level : Nat) (key : Dimension) : Nat :=
  if key = ramp.dimension then level else workload (.dimension key)

/-- The loop over the ramp levels; it leaves at the first level whose calls or
whose whole duration would exceed the remaining authorization. -/
@[grind =] def rampLoop (maxima : Maxima) (workload : Workload) (ramp : Ramp) (reservedTail : Nat) :
    List Nat → Totals → List PlanStep → Result (Totals × List PlanStep × Reason)
  | [], totals, steps => .ok (totals, steps, .authorizationCeiling)
  | level :: rest, totals, steps => do
    let intensity := intensityAt workload ramp level
    let budget ← stepBudget intensity (maxima .holdSeconds) (workload .callDurationSeconds)
    let nextCalls ← checkedAdd totals.calls budget.calls "total calls"
    let nextDuration ← checkedAdd totals.rampDurationSeconds budget.durationSeconds "ramp duration"
    let totalDuration ← checkedAdd nextDuration reservedTail "worst-case duration"
    if maxima .totalCalls < nextCalls ∨ maxima .durationSeconds < totalDuration then
      return (totals, steps, .budgetExhausted)
    else
      let nextMedia ← checkedAdd totals.mediaPackets budget.mediaPackets "total media packets"
      let nextCallSeconds ← checkedAdd totals.callSeconds budget.callSeconds "total call-seconds"
      let step : PlanStep :=
        { index := steps.length + 1, level, startAtSeconds := totals.rampDurationSeconds
          holdSeconds := maxima .holdSeconds, intensity, budget }
      rampLoop maxima workload ramp reservedTail rest
        { calls := nextCalls, mediaPackets := nextMedia, callSeconds := nextCallSeconds
          rampDurationSeconds := nextDuration } (steps ++ [step])

structure EnvelopePlan where
  name : Text
  manifestSha256 : Text
  sourceMaxima : Maxima
  hardMaxima : Maxima
  workload : Workload
  ramp : Ramp
  totals : Totals
  totalDurationSeconds : Nat
  reason : Reason
  ceilingReached : Bool
  steps : List PlanStep

def compileNormalized (normalized : Normalized) (manifestSha256 : Text) : Result EnvelopePlan := do
  let maxima := normalized.maxima
  let ramp := normalized.ramp
  let reservedTail ← checkedAdd (maxima .cooldownSeconds) (maxima .recoveryDeadlineSeconds)
    "cooldown and recovery duration"
  if maxima .durationSeconds ≤ reservedTail then
    fail "duration hard maximum must leave time for at least one ramp hold before cooldown and recovery"
  else
    let expanded ← levels ramp.start ramp.step (maxima (.dimension ramp.dimension))
    let (totals, steps, reason) ←
      rampLoop maxima normalized.workload ramp reservedTail expanded ⟨0, 0, 0, 0⟩ []
    match steps.getLast? with
    | none => fail "no ramp step fits the remaining total-call and duration budgets"
    | some final =>
      let reached := final.level == maxima (.dimension ramp.dimension)
      let totalDuration ← checkedAdd totals.rampDurationSeconds reservedTail "worst-case duration"
      return {
        name := normalized.name, manifestSha256, sourceMaxima := normalized.sourceMaxima
        hardMaxima := maxima, workload := normalized.workload, ramp, totals
        totalDurationSeconds := totalDuration
        reason := if reached then reason else .budgetExhausted
        ceilingReached := reached, steps }

/-- The reductions are the items of the caller's mapping, empty for `None`. -/
def compileEnvelopePlan (manifest manifestSha256 : Value) (reductions : Dict) :
    Result EnvelopePlan := do
  let digest ← sha256 manifestSha256 "manifest SHA-256"
  let normalized ← normalizeManifest manifest reductions
  compileNormalized normalized digest

section Encoding
open Dict (entry)

def nat (n : Nat) : Value := .int n

def maximaValue (maxima : Maxima) : Value :=
  .dict (maximaKeys.map fun key => entry key.name (nat (maxima key)))

def workloadValue (workload : Workload) : Value :=
  .dict (workloadKeys.map fun key => entry key.name (nat (workload key)))

def rampValue (ramp : Ramp) : Value :=
  .dict [entry "dimension" (.str ramp.dimension.name), entry "start" (nat ramp.start),
    entry "step" (nat ramp.step)]

def budgetValue (budget : StepBudget) : Value :=
  .dict [entry "calls" (nat budget.calls), entry "mediaPackets" (nat budget.mediaPackets),
    entry "callSeconds" (nat budget.callSeconds),
    entry "durationSeconds" (nat budget.durationSeconds)]

def stepValue (step : PlanStep) : Value :=
  .dict [entry "index" (nat step.index), entry "level" (nat step.level),
    entry "startAtSeconds" (nat step.startAtSeconds), entry "holdSeconds" (nat step.holdSeconds),
    entry "intensity" (.dict (dimensions.map fun d => entry d.name (nat (step.intensity d)))),
    entry "budget" (budgetValue step.budget)]

/-- The frozen document the compiler returns. -/
def EnvelopePlan.value (plan : EnvelopePlan) : Value :=
  .dict [entry "apiVersion" (.str planVersion), entry "kind" (.str "EnvelopePlan"),
    entry "metadata" (.dict [entry "name" (.str plan.name),
      entry "manifestSha256" (.str plan.manifestSha256)]),
    entry "authorization" (.dict [entry "sourceMaxima" (maximaValue plan.sourceMaxima),
      entry "hardMaxima" (maximaValue plan.hardMaxima)]),
    entry "workload" (workloadValue plan.workload), entry "ramp" (rampValue plan.ramp),
    entry "plannedWorstCase" (.dict [entry "calls" (nat plan.totals.calls),
      entry "mediaPackets" (nat plan.totals.mediaPackets),
      entry "callSeconds" (nat plan.totals.callSeconds),
      entry "rampDurationSeconds" (nat plan.totals.rampDurationSeconds),
      entry "cooldownSeconds" (nat (plan.hardMaxima .cooldownSeconds)),
      entry "recoveryDeadlineSeconds" (nat (plan.hardMaxima .recoveryDeadlineSeconds)),
      entry "totalDurationSeconds" (nat plan.totalDurationSeconds)]),
    entry "termination" (.dict [entry "reason" (.str plan.reason.name),
      entry "authorizedDimensionCeilingReached" (.bool plan.ceilingReached)]),
    entry "steps" (.list (plan.steps.map stepValue))]

end Encoding

/-- Acceptance is `==` with a recompilation: a number of the steps may be
written as an equal float or boolean. -/
def validateEnvelopePlan (value : Value) : Result Dict := do
  let plan ← object value "plan"
  exactKeys plan "plan"
    ["apiVersion", "kind", "metadata", "authorization", "workload", "ramp",
      "plannedWorstCase", "termination", "steps"]
  if !(← plan.item "apiVersion").isText planVersion || !(← plan.item "kind").isText "EnvelopePlan" then
    fail "unsupported envelope plan contract"
  else
    let metadata ← object (← plan.item "metadata") "plan.metadata"
    exactKeys metadata "plan.metadata" ["name", "manifestSha256"]
    let authorization ← object (← plan.item "authorization") "plan.authorization"
    exactKeys authorization "plan.authorization" ["sourceMaxima", "hardMaxima"]
    let name ← Envelope.name (← metadata.item "name") "plan.metadata.name"
    let sourceMaxima ←
      normalizeMaxima (← authorization.item "sourceMaxima") "plan.authorization.sourceMaxima"
    let maxima ← normalizeMaxima (← authorization.item "hardMaxima") "plan.authorization.hardMaxima"
    let workload ← normalizeWorkload (← plan.item "workload")
    let ramp ← normalizeRamp (← plan.item "ramp")
    let digest ← sha256 (← metadata.item "manifestSha256") "plan.metadata.manifestSha256"
    if maximaKeys.any fun key => decide (sourceMaxima key < maxima key) then
      fail "plan hard maxima expand source authorization"
    else
      validateConstraints maxima workload ramp
      let expected ← compileNormalized { name, sourceMaxima, maxima, workload, ramp } digest
      if !expected.value.eq (.dict plan) then
        fail "envelope plan differs from deterministic budget recompilation"
      else return plan

end Sippycup.Envelope
