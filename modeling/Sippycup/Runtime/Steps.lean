import Sippycup.Runtime.Plan

/-! Validation of the plan's steps, and of the plan as a whole. -/
namespace Sippycup.Runtime
open Sippycup.Python Sippycup.Ip

/-- A member of a destination set: address, transport and port as written. -/
structure Endpoint where
  address : Value
  transport : Value
  port : Value

def Endpoint.same (a b : Endpoint) : Bool :=
  Value.eq a.address b.address && Value.eq a.transport b.transport && Value.eq a.port b.port

/-- A set: of equal members the first stays. -/
def endpointSet : List Endpoint → List Endpoint
  | [] => []
  | e :: rest => e :: (endpointSet rest).filter fun f => !Endpoint.same f e

def sameSet (a b : List Endpoint) : Bool :=
  decide ((endpointSet a).length = (endpointSet b).length) &&
    a.all fun e => b.any fun f => Endpoint.same e f

def Destination.endpoint (destination : Destination) : Endpoint :=
  ⟨.str destination.address.text, .str destination.transport, destination.port⟩

/-- `destination_index[target]` -/
def indexed (destinations : List Destination) (target : Text) : List Endpoint :=
  (destinations.filter fun d => decide (d.target = target)).map Destination.endpoint

def caseExpectationsVersion : String := "sippycup.dev/case-expectations/v1"

def caseExpectationFields : List String :=
  ["apiVersion", "finalStatus", "allowedProvisionalStatuses", "requireBidirectionalRtp",
    "maxSetupSeconds"]

def statusWithin (low high : Nat) (value : Value) : Bool :=
  isUint value true && decide (low ≤ natOf value ∧ natOf value ≤ high)

def checkProvisional (expectations : Dict) (step : Nat) : Result Unit :=
  match expectations.get? "allowedProvisionalStatuses" with
  | none => .ok ()
  | some value => do
    let statuses ← uniqueArray value s!"step {step} allowedProvisionalStatuses" true
    refuse (!statuses.all (statusWithin 100 199)) s!"step {step} provisional status is invalid"

def checkCaseExpectations (value : Value) (step : Nat) : Result Unit := do
  let expectations ← object value s!"step {step} expectations"
  if expectations.isEmpty then return ()
  else
    refuse (!(unknownKeys expectations caseExpectationFields).isEmpty)
      s!"step {step} expectations contain unsupported fields"
    refuse (!(expectations.getD "apiVersion" .none).isText caseExpectationsVersion)
      s!"step {step} expectations version is invalid"
    refuse ((expectations.get? "finalStatus").any fun v => !statusWithin 200 699 v)
      s!"step {step} finalStatus is invalid"
    checkProvisional expectations step
    refuse ((expectations.get? "requireBidirectionalRtp").any fun v => !isBool v)
      s!"step {step} RTP expectation is invalid"
    refuse ((expectations.get? "maxSetupSeconds").any fun v => !isUint v true)
      s!"step {step} setup deadline is invalid"

/-- Case, sequence, type and target of a step, checked in this order. -/
def checkIdentity (destinations : List Destination) (step : Dict) : Result Bool := do
  let sequence ← step.item "sequence"
  if !isName (← step.item "case") || !isUint sequence true then return false
  else if !(← inSet (← step.item "type") ["options", "call"]) then return false
  else
    let target ← step.item "target"
    if target.hashable then return destinations.any fun d => target.isText d.target
    else .error (.builtin .typeError)

def stepTypeOf (value : Value) : StepType := if value.isText "call" then .call else .options

def callsOf : StepType → Nat
  | .options => 0
  | .call => 1

def readBudget (value : Value) (type : StepType) (index : Nat) : Result Amounts := do
  let budget ← object value s!"steps[{index - 1}].budget"
  exactKeys budget s!"steps[{index - 1}].budget" (quantityNames totalKeys)
  let calls := budget.getD "calls" .none
  let positive := ["packets", "bytes", "durationSeconds"].all fun key =>
    isUint (budget.getD key .none) true
  refuse (!isUint calls false || !positive || decide (natOf calls ≠ callsOf type))
    s!"plan step {index} budget is invalid"
  return readAmounts budget totalKeys

/-- Adds a budget to the running sums, each checked against its maximum. -/
def addBudget (maxima budget : Amounts) : List Quantity → Amounts → Result Amounts
  | [], calculated => .ok calculated
  | key :: rest, calculated => do
    refuse (decide (maxima key < calculated key + budget key))
      "step budgets exceed authorization hardMaxima"
    addBudget maxima budget rest (Function.update calculated key (calculated key + budget key))

def familyOf (address : Value) : Option String := (ipAddress address).map fun a => s!"ipv{a.version}"

def checkGenerated (scope : Scope) (step destination : Dict) (addresses : List Value) (index : Nat) :
    Result Unit :=
  match step.get? "generated" with
  | none => .ok ()
  | some raw =>
    match scope.matrix with
    | none => fail "generated plan step requires a matrix"
    | some matrix => do
      let generated ← adopt "plan generated case"
        (Campaign.validateGeneratedCase raw matrix s!"steps[{index - 1}].generated")
      refuse (!Value.eq generated.value raw) "plan generated case is not canonical"
      refuse (!Value.eq (generated.factors .transport).value (destination.getD "transport" .none))
        "plan generated transport does not match step destination"
      let family := (generated.factors .addressFamily).value
      refuse (!addresses.all fun a => (familyOf a).any fun f => family.isText f)
        "plan generated addressFamily does not match step destination"

def stepKeys : List String :=
  ["index", "case", "sequence", "type", "target", "destination", "credentialRef", "budget",
    "expectations"]

/-- The frozen destination of a step: its addresses, as a set with the step's
transport and port, are those of its target. -/
def readStepDestination (destinations : List Destination) (step : Dict) (index : Nat) :
    Result (Dict × List Value) := do
  let destination ← object (← step.item "destination") s!"steps[{index - 1}].destination"
  exactKeys destination s!"steps[{index - 1}].destination" ["addresses", "port", "transport"]
  let addresses ← uniqueArray (← destination.item "addresses")
    s!"steps[{index - 1}].destination.addresses" false
  let transport ← destination.item "transport"
  let port ← destination.item "port"
  if !(transport.hashable && port.hashable && addresses.all Value.hashable) then
    .error (.builtin .typeError)
  else
    let endpoints := addresses.map fun address => ⟨address, transport, port⟩
    refuse (!sameSet endpoints (indexed destinations (textOf (step.getD "target" .none))))
      s!"plan step {index} destination is not frozen"
    return (destination, addresses)

def readStep (scope : Scope) (destinations : List Destination) (index : Nat) (value : Value)
    (calculated : Amounts) : Result (Step × Amounts) := do
  let step ← object value s!"steps[{index - 1}]"
  refuse (decide (missingKeys step stepKeys ≠ []) ||
      !(unknownKeys step (stepKeys ++ ["generated"])).isEmpty)
    s!"plan step {index} has invalid fields"
  refuse (!Value.eq (step.getD "index" .none) (.int index))
    "plan step indexes must be contiguous starting at 1"
  let identified ← checkIdentity destinations step
  refuse (!identified) s!"plan step {index} identity is invalid"
  let credential := step.getD "credentialRef" .none
  refuse (!Value.eq credential .none && !credential.isIn scope.credentials)
    s!"plan step {index} credential is unauthorized"
  let (destination, addresses) ← readStepDestination destinations step index
  let type := stepTypeOf (step.getD "type" .none)
  let budget ← readBudget (step.getD "budget" .none) type index
  let sums ← addBudget scope.maxima budget totalKeys calculated
  checkCaseExpectations (step.getD "expectations" .none) index
  checkGenerated scope step destination addresses index
  return ({
    index := step.getD "index" .none
    case_ := textOf (step.getD "case" .none)
    sequence := natOf (step.getD "sequence" .none)
    type
    target := textOf (step.getD "target" .none)
    credentialRef := credential.text?
    addresses := addresses.map textOf
    transport := textOf (destination.getD "transport" .none)
    port := destination.getD "port" .none
    budget }, sums)

/-- The steps from `index` on, with the sums of all their budgets. -/
def readSteps (scope : Scope) (destinations : List Destination) :
    Nat → List Value → Amounts → Result (List Step × Amounts)
  | _, [], calculated => .ok ([], calculated)
  | index, value :: rest, calculated => do
    let (step, sums) ← readStep scope destinations index value calculated
    let (steps, total) ← readSteps scope destinations (index + 1) rest sums
    return (step :: steps, total)

def checkAssumptions (plan : Dict) : Result Unit := do
  let assumptions ← uniqueArray (← plan.item "assumptions") "assumptions" true
  refuse (!assumptions.all fun item => !(textOf item).codes.isEmpty)
    "plan assumptions must be non-empty strings"

def checkPinned (networks : List Network) : List Value → Result Unit
  | [] => .ok ()
  | address :: rest =>
    match ipAddress address with
    | none => fail "resolutionPins values must be literal IPs"
    | some parsed => do
      refuse (!networks.any fun network => network.contains parsed)
        "resolutionPins address lies outside authorization"
      checkPinned networks rest

def hostOk (casing : Casing) (host : Value) : Bool :=
  match host with
  | .str text => !text.codes.isEmpty && decide ((casing.lower text).rstripDots = text)
  | _ => false

def checkPins (casing : Casing) (networks : List Network) : Dict → Result Unit
  | [] => .ok ()
  | (host, raw) :: rest => do
    refuse (!hostOk casing host) "resolutionPins contains an invalid hostname"
    let addresses ← uniqueArray raw s!"resolutionPins.{(textOf host).render}" false
    checkPinned networks addresses
    checkPins casing networks rest

def authorizationOf (scope : Scope) : Authorization where
  networks := scope.networks
  signalingPorts := scope.ports.map natOf
  transports := scope.transports.map textOf
  credentialRefs := scope.credentials.map textOf
  mediaPorts := scope.media
  hardMaxima := scope.maxima

def validateFields (casing : Casing) (plan : Dict) : Result Plan := do
  checkSize plan
  checkFields plan
  refuse (!(plan.getD "apiVersion" .none).isText "sippycup.dev/plan/v1")
    "plan apiVersion must be 'sippycup.dev/plan/v1'"
  refuse (!(plan.getD "kind" .none).isText "CampaignPlan") "plan kind must be 'CampaignPlan'"
  let (name, manifestSha256) ← readMetadata plan
  let scope ← readAuthorization plan
  let destinations ← readDestinations scope plan
  checkExpectations plan
  checkEvidence plan
  let plannedTotals ← readTotals scope.maxima plan
  let raw ← uniqueArray (← plan.item "steps") "steps" false
  let (steps, calculated) ← readSteps scope destinations 1 raw fun _ => 0
  refuse (totalKeys.any fun key => decide (calculated key ≠ plannedTotals key))
    "plannedTotals do not equal the sum of frozen step budgets"
  checkAssumptions plan
  let filter := captureFilter steps scope.media
  refuse (!(← plan.item "captureFilter").isText filter)
    "captureFilter is not the minimal filter for frozen steps"
  let pins ← object (← plan.item "resolutionPins") "resolutionPins"
  checkPins casing scope.networks pins
  return { name, manifestSha256, authorization := authorizationOf scope, matrix := scope.matrix,
           destinations, plannedTotals, steps, captureFilter := filter }

/-- `_validate_plan`, which returns the document it is given; here, the parts
of it that execution reads. -/
def validatePlan (casing : Casing) (value : Value) : Result Plan :=
  match value with
  | .dict plan => validateFields casing plan
  | _ => fail "plan must be an object"

end Sippycup.Runtime
