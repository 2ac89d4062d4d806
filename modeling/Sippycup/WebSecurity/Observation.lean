import Sippycup.WebSecurity.Contracts
import Sippycup.Python.Sha256

/-! The evidence validator's reading of a plan. -/
namespace Sippycup.WebSecurity
open Sippycup.Python Sippycup.Ip
open Sippycup.Webrtc (reject require readObject readArray exactKeys readInteger readEnum readItems)

/-- `value is False` -/
def isFalse : JsonValue → Bool
  | .bool b => !b
  | _ => false

/-- Of any version text of at most 32 characters. -/
def readPlanVersion (value : JsonValue) : Result Text :=
  match value with
  | .str t => do
    require (decide (t.length ≤ 32)) "$.adapter.version is invalid"
    return t
  | _ => reject "$.adapter.version is invalid"

structure PlanAuthorization where
  state : State
  reference : Option Identifier
  surfaces : List Surface
  blockers : List Blocker

def readBlocker (value : JsonValue) (path : String) : Result Blocker :=
  readEnum Blocker.name [.windowNotStarted, .windowExpired] value path

def readPlanAuthorization (executionClass : ExecutionClass) (value : JsonValue) : Result PlanAuthorization := do
  let authorization ← readObject value "$.authorization"
  exactKeys authorization "$.authorization" ["state", "reference", "surfaces", "blockers"]
  let state ← readEnum State.name [.notRequired, .ready, .blocked] (authorization.find "state") "$.authorization.state"
  let reference ← readOptionalIdentifier (authorization.find "reference") "$.authorization.reference"
  let surfaces ← readSurfaces (authorization.find "surfaces")
  let items ← readArray (authorization.find "blockers") "$.authorization.blockers"
  let blockers ← readItems readBlocker "$.authorization.blockers" 0 items
  require (!(state = .blocked && blockers.isEmpty)) "blocked authorization requires a blocker"
  require (!(state ≠ .blocked && !blockers.isEmpty)) "authorization blockers require blocked state"
  if executionClass = .approvedTarget then do
    require (state ≠ .notRequired) "approved_target authorization cannot be not-required"
    require (!(reference.isNone || surfaces.isEmpty))
      "approved_target requires an authorization reference and surfaces"
  else
    require (!(state ≠ .notRequired || reference.isSome || !surfaces.isEmpty))
      "offline_fixture/local_lab authorization must be not-required and empty"
  return ⟨state, reference, surfaces, blockers⟩

def readPlanDestinations (executionClass : ExecutionClass) (value : JsonValue) : Result (List Destination) := do
  let items ← readArray value "$.destinations"
  requireDestinations items
  readItems (readDestination executionClass []) "$.destinations" 0 items

def readPlanCase (used : List Identifier) (value : JsonValue) (path : String) : Result PlanCase := do
  let case_ ← readObject value path
  exactKeys case_ path ["id", "check", "routeId", "credentialRole", "credentialRef", "originClass", "expectedOutcome"]
  let id ← readIdentifier (case_.find "id") s!"{path}.id"
  require (!used.contains id) s!"{path}.id is duplicated"
  let check ← readEnum Check.name allChecks (case_.find "check") s!"{path}.check"
  let routeId ← readIdentifier (case_.find "routeId") s!"{path}.routeId"
  let credentialRole ← readOptionalIdentifier (case_.find "credentialRole") s!"{path}.credentialRole"
  let credentialRef ← readOptionalIdentifier (case_.find "credentialRef") s!"{path}.credentialRef"
  let originClass ← readOriginClass (case_.find "originClass") s!"{path}.originClass"
  let expectedOutcome ← readEnum Outcome.name outcomes (case_.find "expectedOutcome") s!"{path}.expectedOutcome"
  return ⟨⟨id, check, routeId, credentialRole, originClass, expectedOutcome⟩, credentialRef⟩

def validatePlan (document : JsonValue) : Result Plan := do
  let plan ← readObject document "$"
  exactKeys plan "$" ["apiVersion", "networkActivity", "executionClass", "adapter", "authorization",
    "destinations", "cases", "limits", "arbitraryRequestsAvailable"]
  require ((plan.find "apiVersion").isText planVersion) "$.apiVersion is unsupported"
  require (isFalse (plan.find "networkActivity")) "$.networkActivity must be false"
  let executionClass ←
    readEnum ExecutionClass.name executionClasses (plan.find "executionClass") "$.executionClass"
  let adapter ← readObject (plan.find "adapter") "$.adapter"
  exactKeys adapter "$.adapter" ["id", "version"]
  let adapterId ← readIdentifier (adapter.find "id") "$.adapter.id"
  let adapterVersion ← readPlanVersion (adapter.find "version")
  let authorization ← readPlanAuthorization executionClass (plan.find "authorization")
  let destinations ← readPlanDestinations executionClass (plan.find "destinations")
  let items ← readArray (plan.find "cases") "$.cases"
  let cases ← readFresh (fun case_ => case_.id) readPlanCase "$.cases" 0 [] items
  let limits ← readLimits (plan.find "limits")
  require (decide (cases.length ≤ limits.maxCases.val)) "$.cases exceeds $.limits.maxCases"
  require (!(executionClass = .approvedTarget &&
      !cases.all fun case_ => authorization.surfaces.contains case_.check.surface))
    "$.cases exceed authorized surfaces"
  require (isFalse (plan.find "arbitraryRequestsAvailable")) "$.arbitraryRequestsAvailable must be false"
  return ⟨executionClass, adapterId, adapterVersion, authorization.state, authorization.reference,
    authorization.surfaces, authorization.blockers, destinations, cases, limits⟩

end Sippycup.WebSecurity

/-! The oracle for web-security evidence: an observation is read, bound to a plan by
digest, and compared with it case by case and in its sums. -/
namespace Sippycup.WebSecurity
open Sippycup.Python
open Sippycup.Webrtc (reject require readObject readArray exactKeys readInteger readBoolean readEnum readDigest)

def observationVersion : Text := "sippycup.dev/web-security-observation/v1"

section observation

/-- A member of `_OBSERVED_OUTCOMES`. -/
inductive ObservedOutcome where
  | decided (outcome : Outcome)
  | unknown | error
  deriving DecidableEq

def ObservedOutcome.name : ObservedOutcome → Text
  | .decided outcome => outcome.name
  | .unknown => "unknown"
  | .error => "error"

def observedOutcomes : List ObservedOutcome := outcomes.map .decided ++ [.unknown, .error]

inductive ResponseClass where
  | none | success | redirect | clientError | serverError | networkError
  deriving DecidableEq

def ResponseClass.name : ResponseClass → Text
  | .none => "none"
  | .success => "2xx"
  | .redirect => "3xx"
  | .clientError => "4xx"
  | .serverError => "5xx"
  | .networkError => "network-error"

def responseClasses : List ResponseClass :=
  [.none, .success, .redirect, .clientError, .serverError, .networkError]

inductive SessionState where
  | none | preAuth | authenticated | expired | closed | unknown
  deriving DecidableEq

def SessionState.name : SessionState → Text
  | .none => "none"
  | .preAuth => "pre-auth"
  | .authenticated => "authenticated"
  | .expired => "expired"
  | .closed => "closed"
  | .unknown => "unknown"

def sessionStates : List SessionState := [.none, .preAuth, .authenticated, .expired, .closed, .unknown]

inductive Counter where
  | connections | httpRequests | wsMessages | authFailures | bytes | durationMs
  deriving DecidableEq

def Counter.name : Counter → String
  | .connections => "connections"
  | .httpRequests => "httpRequests"
  | .wsMessages => "wsMessages"
  | .authFailures => "authFailures"
  | .bytes => "bytes"
  | .durationMs => "durationMs"

/-- `_COUNTERS`, in an order of our own: the set's order decides only which error is raised first. -/
def allCounters : List Counter :=
  [.connections, .httpRequests, .wsMessages, .authFailures, .bytes, .durationMs]

abbrev Count := {n : Nat // 0 ≤ n ∧ n ≤ 16777216}

instance : Inhabited Count := ⟨⟨0, by decide⟩⟩

abbrev Counters := Counter → Count

def readCounters (value : JsonValue) (path : String) : Result Counters := do
  let counters ← readObject value path
  exactKeys counters path (allCounters.map fun counter => counter.name)
  collect (fun counter => readInteger (counters.find counter.name) s!"{path}.{counter.name}" 0 16777216) allCounters

structure CaseResult where
  sequence : Nat
  timeMs : Nat
  caseId : Identifier
  check : Check
  surface : Surface
  observedOutcome : ObservedOutcome
  responseClass : ResponseClass
  closeCode : Option Nat
  sessionState : SessionState
  counters : Counters

def readCloseCode (value : JsonValue) (path : String) : Result (Option Nat) :=
  match value with
  | .null => .ok none
  | value => do return some (← readInteger value path 1000 4999).val

/-- A result: the next in sequence, not earlier than the last, and of a new case. -/
def readResult (lastSequence lastTime : Int) (caseIds : List Identifier) (item : JsonValue) (path : String) :
    Result CaseResult := do
  let result ← readObject item path
  exactKeys result path ["sequence", "timeMs", "caseId", "check", "surface", "observedOutcome",
    "responseClass", "closeCode", "sessionState", "counters"]
  let sequence ← readInteger (result.find "sequence") s!"{path}.sequence" 1 256
  require (decide ((sequence.val : Int) = lastSequence + 1)) "$.results sequence must start at 1 and be contiguous"
  let timeMs ← readInteger (result.find "timeMs") s!"{path}.timeMs" 0 900000
  require (decide (lastTime ≤ (timeMs.val : Int))) "$.results timeMs must be nondecreasing"
  let caseId ← readIdentifier (result.find "caseId") s!"{path}.caseId"
  require (!caseIds.contains caseId) s!"{path}.caseId is duplicated"
  let check ← readEnum Check.name allChecks (result.find "check") s!"{path}.check"
  let surface ← readSurface (result.find "surface") s!"{path}.surface"
  let outcome ← readEnum ObservedOutcome.name observedOutcomes (result.find "observedOutcome") s!"{path}.observedOutcome"
  let response ← readEnum ResponseClass.name responseClasses (result.find "responseClass") s!"{path}.responseClass"
  let closeCode ← readCloseCode (result.find "closeCode") s!"{path}.closeCode"
  let session ← readEnum SessionState.name sessionStates (result.find "sessionState") s!"{path}.sessionState"
  let counters ← readCounters (result.find "counters") s!"{path}.counters"
  return ⟨sequence, timeMs, caseId, check, surface, outcome, response, closeCode, session, counters⟩

def readResults : Nat → Int → Int → List Identifier → List JsonValue → Result (List CaseResult)
  | _, _, _, _, [] => .ok []
  | index, lastSequence, lastTime, caseIds, item :: rest => do
    let result ← readResult lastSequence lastTime caseIds item s!"$.results[{index}]"
    return result :: (← readResults (index + 1) result.sequence result.timeMs (caseIds ++ [result.caseId]) rest)

structure Observation where
  networkActivity : Bool
  planDigest : Text
  results : List CaseResult
  totals : Counters
  openConnections : Nat
  liveSessions : Nat

def validateObservation (document : JsonValue) : Result Observation := do
  let observation ← readObject document "$"
  exactKeys observation "$" ["apiVersion", "networkActivity", "planDigest", "results", "totals", "cleanup"]
  require ((observation.find "apiVersion").isText observationVersion) "$.apiVersion is unsupported"
  let activity ← readBoolean (observation.find "networkActivity") "$.networkActivity"
  let digest ← readDigest (observation.find "planDigest") "$.planDigest"
  let items ← readArray (observation.find "results") "$.results"
  require (decide (items.length ≤ 256)) "$.results exceeds 256 entries"
  let results ← readResults 0 0 (-1) [] items
  let totals ← readCounters (observation.find "totals") "$.totals"
  let cleanup ← readObject (observation.find "cleanup") "$.cleanup"
  exactKeys cleanup "$.cleanup" ["openConnections", "liveSessions"]
  let openConnections ← readInteger (cleanup.find "openConnections") "$.cleanup.openConnections" 0 100000
  let liveSessions ← readInteger (cleanup.find "liveSessions") "$.cleanup.liveSessions" 0 100000
  return ⟨activity, digest, results, totals, openConnections, liveSessions⟩

end observation

section evaluation

/-- `plan_digest` -/
def planDigest (plan : JsonValue) : Text := sha256Hex plan.canonical

/-- Where a finding has a detail of its own, what the detail is written from. -/
inductive Finding where
  | unplannedCase (caseId : Identifier)
  | caseBindingMismatch (caseId : Identifier)
  | unexpectedOutcome (caseId : Identifier) (expected observed : Outcome)
  | denialLeftAuthenticatedSession (caseId : Identifier) (outcome : Outcome)
  | ceilingExceeded (counter : Counter) (value : Number) (limit : Nat)
  | requestRateExceeded (rate : Double) (limit : Nat)
  | trafficWhileBlocked
  | networkActivityMismatch
  | cleanupIncomplete (connections sessions : Nat)
  deriving DecidableEq

inductive Unknown where
  | caseMissing (caseId : Identifier)
  | caseUnknown (caseId : Identifier) (reason : ObservedOutcome)
  deriving DecidableEq

/-- Outcomes after which no authenticated session may be left. -/
def Outcome.denies (outcome : Outcome) : Bool := outcome ∈ [.denied, .rejected, .expired, .closed]

def CaseResult.findings (result : CaseResult) (case_ : PlanCase) : List Finding :=
  (if result.check ≠ case_.check ∨ result.surface ≠ case_.check.surface then
    [.caseBindingMismatch case_.id] else []) ++
  match result.observedOutcome with
  | .unknown | .error => []
  | .decided outcome =>
    (if outcome ≠ case_.expectedOutcome then
      [.unexpectedOutcome case_.id case_.expectedOutcome outcome] else []) ++
    if outcome.denies ∧ result.sessionState = .authenticated then
      [.denialLeftAuthenticatedSession case_.id outcome] else []

def CaseResult.unknowns (result : CaseResult) (case_ : PlanCase) : List Unknown :=
  match result.observedOutcome with
  | .decided _ => []
  | reason => [.caseUnknown case_.id reason]

namespace Observation
variable (observation : Observation) (plan : Plan)

/-- `observed.get(case_id)`; no two results have one case. -/
def resultOf (caseId : Identifier) : Option CaseResult :=
  observation.results.find? fun result => result.caseId = caseId

/-- Sorted by the identifiers, as `sorted(set(observed) - set(planned))` is. -/
def unplanned : List Identifier :=
  ((observation.results.map CaseResult.caseId).filter fun id => !(plan.cases.map fun case_ => case_.id).contains id)
    |>.insertionSort fun a b => a.val.le b.val = true

def caseFindings : List Finding :=
  plan.cases.flatMap fun case_ => (observation.resultOf case_.id).elim [] fun result => result.findings case_

def caseUnknowns : List Unknown :=
  plan.cases.flatMap fun case_ =>
    (observation.resultOf case_.id).elim [.caseMissing case_.id] fun result => result.unknowns case_

def summed (counter : Counter) : Nat := (observation.results.map fun result => (result.counters counter).val).sum

/-- `summed["durationMs"] / 1000`, correctly rounded. -/
def durationSeconds : Double := roundDouble ((observation.summed .durationMs : Rat) / 1000)

/-- `comparisons`: what is compared with the ceiling of a counter. -/
def compared : Counter → Number
  | .durationMs => .float observation.durationSeconds
  | counter => .int (observation.summed counter)

def ceilingOf (limits : Limits) : Counter → Nat
  | .connections => limits.maxConnections.val
  | .httpRequests => limits.maxHttpRequests.val
  | .wsMessages => limits.maxWsMessages.val
  | .authFailures => limits.maxAuthFailures.val
  | .bytes => limits.maxBytes.val
  | .durationMs => limits.maxDurationSeconds.val

def ceilingFindings : List Finding :=
  allCounters.flatMap fun counter =>
    if (Number.int (ceilingOf plan.limits counter)).lt (observation.compared counter) then
      [.ceilingExceeded counter (observation.compared counter) (ceilingOf plan.limits counter)] else []

/-- `max(1.0, summed["durationMs"] / 1000)` -/
def rateSeconds : Rat :=
  match observation.durationSeconds with
  | .finite seconds => max 1 seconds
  | _ => 1

/-- The requests are far below `2 ^ 53`, so only the quotient rounds. -/
def requestRate : Double :=
  roundDouble (((observation.summed .httpRequests + observation.summed .wsMessages : Nat) : Rat) / observation.rateSeconds)

def rateFindings : List Finding :=
  if (Number.int plan.limits.maxRequestsPerSecond.val).lt (.float observation.requestRate) then
    [.requestRateExceeded observation.requestRate plan.limits.maxRequestsPerSecond.val] else []

def traffic : Bool :=
  [Counter.connections, .httpRequests, .wsMessages, .bytes].any fun counter => decide (0 < observation.summed counter)

def closingFindings : List Finding :=
  (if plan.state = .blocked ∧ observation.traffic then [.trafficWhileBlocked] else []) ++
  (if observation.traffic ≠ observation.networkActivity then [.networkActivityMismatch] else []) ++
  if observation.openConnections ≠ 0 ∨ observation.liveSessions ≠ 0 then
    [.cleanupIncomplete observation.openConnections observation.liveSessions] else []

def findings : List Finding :=
  (observation.unplanned plan).map .unplannedCase ++ observation.caseFindings plan ++
    observation.ceilingFindings plan ++ observation.rateFindings plan ++ observation.closingFindings plan

/-- The totals must be the sums of the counters of the cases. -/
def requireTotals : List Counter → Result Unit
  | [] => .ok ()
  | counter :: rest => do
    require (decide ((observation.totals counter).val = observation.summed counter))
      s!"$.totals.{counter.name} does not match case counters"
    requireTotals rest

end Observation

inductive Status where
  | pass | fail | incomplete
  deriving DecidableEq

structure Report where
  status : Status
  observedNetworkActivity : Bool
  planDigest : Text
  casesPlanned : Nat
  casesObserved : Nat
  findings : List Finding
  unknowns : List Unknown
  totals : Counters

def evaluate (planDocument observationDocument : JsonValue) : Result Report := do
  let plan ← validatePlan planDocument
  let observation ← validateObservation observationDocument
  require (decide (observation.planDigest = planDigest planDocument)) "$.planDigest does not bind the supplied plan"
  observation.requireTotals allCounters
  let findings := observation.findings plan
  let unknowns := observation.caseUnknowns plan
  let status := if !findings.isEmpty then .fail else if !unknowns.isEmpty then .incomplete else .pass
  return {
    status
    observedNetworkActivity := observation.networkActivity
    planDigest := observation.planDigest
    casesPlanned := plan.cases.length
    casesObserved := observation.results.length
    findings
    unknowns
    totals := observation.totals }

end evaluation

end Sippycup.WebSecurity
