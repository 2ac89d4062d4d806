import Sippycup.Machine.Probing
import Sippycup.Python.Sha256
import Sippycup.Python.Utf8
import Sippycup.Resilience.Migration

/-! Identities for concurrent calls: a plan gives each call a marker and an SSRC of its own, drawn from a
hash and moved on while they are taken, and an analysis looks for calls that show another's. -/
namespace Sippycup.Resilience.Isolation
open Sippycup.Python Sippycup.Ip Sippycup.Machine.Probing

def planVersion : String := "sippycup.dev/isolation-plan/v1"

def reportVersion : String := "sippycup.dev/isolation-report/v1"

def maxCalls : Nat := 4096

def maxObservations : Nat := 262144

def watermarkBits : Nat := 32

def claim : String := "Identity coverage only; this plan does not prove isolation."

/-- `f"{n:0{width}d}"`, and `f"{n:0{width}b}"` in base two -/
def zeroPadded (base width n : Nat) : Codes :=
  zeroDigits (width - (renderNumeral base n).length) ++ renderNumeral base n

section planning

structure PlannedCall where
  callId : Text
  ssrc : Nat
  marker : Text
  dtmf : Text
  sourcePort : Nat
  destinationPort : Nat
  deriving DecidableEq

structure IsolationPlan where
  seed : Text
  callCount : Int
  calls : List PlannedCall

/-- How planning ends without a plan; it is running still when a probe is out of fuel. -/
inductive Halt where
  | raised (error : Raised ResilienceError)
  | running
  deriving DecidableEq

def checked {α : Type} : Result α → Except Halt α
  | .ok a => .ok a
  | .error e => .error (.raised (.own e))

def settled {α : Type} : Option α → Except Halt α
  | some a => .ok a
  | none => .error .running

def identity (index : Nat) : Text := "call-" ++ ⟨zeroPadded 10 6 (index + 1)⟩

/-- The words of `hashlib.sha256(f"{seed}:{identity}".encode()).digest()` -/
def material (seed identity : Text) : Except Halt (List Nat) :=
  match Utf8.encode? (seed ++ ":" ++ identity).codes with
  | some bytes => .ok (Sha256.digestWords bytes)
  | none => .error (.raised (.builtin .unicodeEncodeError))

/-- Bytes `4 * place` to `4 * place + 4` of the digest, big-endian. -/
def word (material : List Nat) (place : Nat) : Nat := material.getD place 0

/-- `n or 1` -/
def orOne (n : Nat) : Nat := if n = 0 then 1 else n

def nextSsrc (ssrc : Nat) : Nat := orOne ((ssrc + 1) % 2 ^ 32)

def nextMarker (value : Nat) : Nat := (value + 1) % 2 ^ 32

def markerText (value : Nat) : Text := ⟨zeroPadded 2 32 value⟩

/-- Bytes 12 and 13 of the digest, as a residue. -/
def dtmfResidue (material : List Nat) : Nat := word material 3 / 2 ^ 16 % 10000

def dtmfText (residue : Nat) : Text := ⟨zeroPadded 10 4 residue⟩

/-- The call that comes after those that are planned. -/
def planCall (fuel : Nat) (seed : Text) (calls : List PlannedCall) : Except Halt PlannedCall := do
  let index := calls.length
  let material ← material seed (identity index)
  let ssrc ← settled (probe nextSsrc id (calls.map PlannedCall.ssrc) fuel (orOne (word material 0)))
  let value ← settled (probe nextMarker markerText (calls.map PlannedCall.marker) fuel (word material 1))
  return {
    callId := identity index
    ssrc := ssrc
    marker := markerText value
    dtmf := dtmfText (dtmfResidue material)
    sourcePort := 20000 + index * 2
    destinationPort := 20001 + index * 2 }

def planCalls (fuel : Nat) (seed : Text) : Nat → List PlannedCall → Except Halt (List PlannedCall)
  | 0, calls => .ok calls
  | remaining + 1, calls => do
    let call ← planCall fuel seed calls
    planCalls fuel seed remaining (calls ++ [call])

/-- The fuel bounds the turns of each of the two probes. -/
def planIsolation (fuel : Nat) (callCount seed : JsonValue) : Except Halt IsolationPlan := do
  let count ← checked (boundedInt callCount "callCount" 2 maxCalls)
  let seed ← checked (nonemptyString seed "seed" 128)
  let calls ← planCalls fuel seed count.toNat []
  return { seed := seed, callCount := count, calls := calls }

def PlannedCall.document (call : PlannedCall) : JsonValue :=
  .dict [("callId", .str call.callId), ("ssrc", .int call.ssrc), ("marker", .str call.marker), ("dtmf", .str call.dtmf),
    ("sourcePort", .int call.sourcePort), ("destinationPort", .int call.destinationPort)]

def IsolationPlan.document (plan : IsolationPlan) : JsonValue :=
  .dict [("apiVersion", .str planVersion), ("seed", .str plan.seed), ("callCount", .int plan.callCount),
    ("calls", .list (plan.calls.map PlannedCall.document)), ("networkExecutions", .int 0), ("claim", .str claim)]

end planning

section validation

/-- A call of a plan that was read back. -/
structure Call where
  callId : Text
  marker : Text
  ssrc : Int
  sourcePort : Int
  deriving DecidableEq

def planKeys : List Text := ["apiVersion", "seed", "callCount", "calls", "networkExecutions", "claim"]

def callKeys : List Text := ["callId", "ssrc", "marker", "dtmf", "sourcePort", "destinationPort"]

/-- `set(marker) - {"0", "1"}` is empty. -/
def isBinary (marker : Text) : Bool := marker.codes.all fun code => decide (code = 48 ∨ code = 49)

def readCall (index : Nat) (raw : JsonValue) : Result Call := do
  let name := s!"calls[{index}]"
  let call ← requireMapping raw name
  exactKeys call callKeys name
  let callId ← nonemptyString (call.find "callId") s!"{name}.callId" 128
  let marker ← nonemptyString (call.find "marker") s!"{name}.marker" 64
  require (decide (marker.length = watermarkBits) && isBinary marker)
    s!"{name}.marker must be a {watermarkBits}-bit watermark"
  let ssrc ← boundedInt (call.find "ssrc") s!"{name}.ssrc" 1 0xFFFFFFFF
  let sourcePort ← boundedInt (call.find "sourcePort") "sourcePort" 1024 65535
  let _ ← boundedInt (call.find "destinationPort") "destinationPort" 1024 65535
  return { callId := callId, marker := marker, ssrc := ssrc, sourcePort := sourcePort }

/-- The calls that follow those that were read. -/
def readCalls : List Call → List JsonValue → Result (List Call)
  | calls, [] => .ok calls
  | calls, raw :: rest => do
    let call ← readCall calls.length raw
    require (!((calls.map Call.callId).contains call.callId || (calls.map Call.marker).contains call.marker ||
      (calls.map Call.ssrc).contains call.ssrc)) "call IDs, markers, and SSRCs must be unique"
    readCalls (calls ++ [call]) rest

/-- `_validate_plan`, with the calls of the plan for its value. -/
def validatePlan (value : JsonValue) : Result (List Call) := do
  let plan ← requireMapping value "isolation plan"
  exactKeys plan planKeys "isolation plan"
  -- A value equals 0 when it equals `False`.
  require ((plan.find "apiVersion").isText planVersion && (plan.find "networkExecutions").isBool false)
    "unsupported or network-bearing isolation plan"
  let count ← boundedInt (plan.find "callCount") "callCount" 2 maxCalls
  match plan.find "calls" with
  | .list raws =>
    require (decide ((raws.length : Int) = count)) "isolation plan calls must match callCount"
    readCalls [] raws
  | _ => resilienceError "isolation plan calls must match callCount"

end validation

section analysis

structure Observation where
  callId : Text
  marker : Text
  ssrc : Int
  sourcePort : Int
  afterTeardown : Bool

inductive Contamination where
  | crossCallMarker (callId : Text) (owner : Option Text) (observation : Nat)
  | ssrcMisassociation (callId : Text) (owner : Option Text) (observation : Nat)
  | sourceTupleMismatch (callId : Text) (observation : Nat)
  | mediaAfterTeardown (callId : Text) (observation : Nat)
  | callUnobserved (callId : Text)
  deriving DecidableEq

def Contamination.code : Contamination → String
  | crossCallMarker .. => "cross_call_marker"
  | ssrcMisassociation .. => "ssrc_misassociation"
  | sourceTupleMismatch .. => "source_tuple_mismatch"
  | mediaAfterTeardown .. => "media_after_teardown"
  | callUnobserved _ => "call_unobserved"

def observationKeys : List Text := ["callId", "marker", "ssrc", "sourcePort", "afterTeardown"]

/-- The call under a key of a dict comprehension, where the last call with the key stands. -/
def lookup {κ : Type} [DecidableEq κ] (keyOf : Call → κ) (calls : List Call) (key : κ) : Option Call :=
  calls.reverse.find? fun call => decide (keyOf call = key)

def owner {κ : Type} [DecidableEq κ] (keyOf : Call → κ) (calls : List Call) (key : κ) : Option Text :=
  (lookup keyOf calls key).map Call.callId

/-- An observation with the call that it names. -/
def readObservation (calls : List Call) (index : Nat) (raw : JsonValue) : Result (Observation × Call) := do
  let name := s!"observations[{index}]"
  let item ← requireMapping raw name
  exactKeys item observationKeys name
  let callId ← nonemptyString (item.find "callId") "callId" 128
  match lookup Call.callId calls callId with
  | none => resilienceError s!"observation {index} names an unknown call"
  | some expected =>
    let marker ← nonemptyString (item.find "marker") "marker" 64
    let ssrc ← boundedInt (item.find "ssrc") "ssrc" 1 0xFFFFFFFF
    let sourcePort ← boundedInt (item.find "sourcePort") "sourcePort" 1024 65535
    let afterTeardown ← boolean (item.find "afterTeardown") "afterTeardown"
    return (⟨callId, marker, ssrc, sourcePort, afterTeardown⟩, expected)

def found (wrong : Bool) (contamination : Contamination) : List Contamination :=
  if wrong then [contamination] else []

def contaminations (calls : List Call) (index : Nat) (seen : Observation) (expected : Call) : List Contamination :=
  found (decide (owner Call.marker calls seen.marker ≠ some seen.callId))
      (.crossCallMarker seen.callId (owner Call.marker calls seen.marker) index) ++
    found (decide (owner Call.ssrc calls seen.ssrc ≠ some seen.callId ∨ seen.ssrc ≠ expected.ssrc))
      (.ssrcMisassociation seen.callId (owner Call.ssrc calls seen.ssrc) index) ++
    found (decide (seen.sourcePort ≠ expected.sourcePort)) (.sourceTupleMismatch seen.callId index) ++
    found seen.afterTeardown (.mediaAfterTeardown seen.callId index)

/-- The calls that were observed and the findings so far. -/
structure Analysis where
  observed : List Text
  findings : List Contamination

def observeFrom (calls : List Call) : Nat → List JsonValue → Analysis → Result Analysis
  | _, [], analysis => .ok analysis
  | index, raw :: rest, analysis => do
    let (seen, expected) ← readObservation calls index raw
    observeFrom calls (index + 1) rest
      { observed := analysis.observed ++ [seen.callId]
        findings := analysis.findings ++ contaminations calls index seen expected }

structure IsolationReport where
  passed : Bool
  plannedCalls : Nat
  observedCalls : Nat
  observations : Nat
  findings : List Contamination
  deriving DecidableEq

def unobserved (calls : List Call) (observed : List Text) : List Text :=
  sortTexts ((calls.map Call.callId).dedup.filter fun callId => decide (callId ∉ observed))

/-- Every finding is a failure, so that a report passes when it has none. -/
def analyzeIsolation (planValue observationsValue : JsonValue) : Result IsolationReport := do
  let calls ← validatePlan planValue
  match observationsValue with
  | .list observations =>
    require (decide (observations.length ≤ maxObservations)) s!"observations exceed {maxObservations}"
    let analysis ← observeFrom calls 0 observations ⟨[], []⟩
    let findings := analysis.findings ++ (unobserved calls analysis.observed).map .callUnobserved
    return {
      passed := findings.isEmpty
      plannedCalls := (calls.map Call.callId).dedup.length
      observedCalls := analysis.observed.dedup.length
      observations := observations.length
      findings := findings }
  | _ => resilienceError "observations must be an array"

def Call.cleanObservation (call : Call) : JsonValue :=
  .dict [("callId", .str call.callId), ("marker", .str call.marker), ("ssrc", .int call.ssrc),
    ("sourcePort", .int call.sourcePort), ("afterTeardown", .bool false)]

def cleanObservations (plan : JsonValue) : Result (List JsonValue) := do
  let calls ← validatePlan plan
  return calls.map Call.cleanObservation

end analysis
end Sippycup.Resilience.Isolation
