import Sippycup.Campaign.Authorization

/-! Cases of a campaign: how often each runs, against which target and within
which budget, and the numbered steps they expand to. -/
namespace Sippycup.Campaign
open Sippycup.Python Sippycup.Ip
open Sippycup.Runtime (Quantity Amounts totalKeys StepType)

def caseExpectationsVersion : String := "sippycup.dev/case-expectations/v1"

/-- Expectations of one case; the fields that the manifest leaves out are absent. -/
structure CaseExpectations where
  finalStatus : Option Nat
  allowedProvisionalStatuses : Option (List Nat)
  requireBidirectionalRtp : Option Bool
  maxSetupSeconds : Option Nat

def finalStatus (value : Value) (field : String) : Result Nat := do
  let status ← uint value s!"{field}.finalStatus" false
  if status < 200 ∨ 699 < status then fail s!"{field}.finalStatus must be between 200 and 699"
  else return status

def provisionalStatuses (value : Value) (field : String) : Result (List Nat) := do
  let raw ← uniqueList value s!"{field}.allowedProvisionalStatuses"
  let provisional ←
    eachItem (fun index v => uint v s!"{field}.allowedProvisionalStatuses[{index}]" false) 0 raw
  if provisional.any fun status => decide (status < 100 ∨ 199 < status) then
    fail s!"{field}.allowedProvisionalStatuses values must be between 100 and 199"
  else return sortNumbers provisional

def caseExpectations (value : Value) (field : String) : Result CaseExpectations := do
  let expectations ← mapping value field
  keys expectations field
    ["apiVersion", "finalStatus", "allowedProvisionalStatuses", "requireBidirectionalRtp",
      "maxSetupSeconds"]
  if !(field? expectations "apiVersion").isText caseExpectationsVersion then
    fail (s!"{field}.apiVersion must be " ++ (Text.ofString caseExpectationsVersion).repr)
  else
    let finalStatus ← optional expectations "finalStatus" fun v => finalStatus v field
    let allowedProvisionalStatuses ← optional expectations "allowedProvisionalStatuses" fun v =>
      provisionalStatuses v field
    let requireBidirectionalRtp ← optional expectations "requireBidirectionalRtp" fun v =>
      boolean v s!"{field}.requireBidirectionalRtp must be a boolean"
    let maxSetupSeconds ← optional expectations "maxSetupSeconds" fun v =>
      uint v s!"{field}.maxSetupSeconds" false
    return { finalStatus, allowedProvisionalStatuses, requireBidirectionalRtp, maxSetupSeconds }

structure Expectations where
  allowedSipStatuses : List Nat
  requireBidirectionalRtp : Bool

def readExpectations (manifest : Dict) : Result Expectations := do
  let expectations ← mapping (field? manifest "expectations") "expectations"
  keys expectations "expectations" ["allowedSipStatuses", "requireBidirectionalRtp"]
  let raw ← uniqueList (field? expectations "allowedSipStatuses") "expectations.allowedSipStatuses"
  let statuses ←
    eachItem (fun index v => uint v s!"expectations.allowedSipStatuses[{index}]" false) 0 raw
  if statuses.any fun status => decide (status < 100 ∨ 699 < status) then
    fail "allowed SIP statuses must be between 100 and 699"
  else
    let requireBidirectionalRtp ← boolean (field? expectations "requireBidirectionalRtp")
      "expectations.requireBidirectionalRtp must be a boolean"
    return { allowedSipStatuses := sortNumbers statuses, requireBidirectionalRtp }

/-- A case of the manifest with its target; the budget is that of one run. -/
structure Case where
  id : Text
  type : StepType
  target : Target
  count : Nat
  budget : Amounts
  expectations : Option CaseExpectations
  generated : Option Generated

def callsPerRun : StepType → Nat
  | .call => 1
  | .options => 0

def caseType (value : Value) (field : String) : Result StepType := do
  let type ← string value field
  if type = Text.ofString "options" then return .options
  else if type = Text.ofString "call" then return .call
  else fail s!"unsupported case type {type.repr}"

def caseTarget (targets : List Target) (id targetName : Text) : Result Target :=
  match targets.find? fun target => decide (target.name = targetName) with
  | some target => .ok target
  | none => fail s!"case {id.repr} references unknown target {targetName.repr}"

/-- The number of steps with those of one more case. -/
def planSteps (maxima : Amounts) (planned count : Nat) : Result Nat := do
  let planned ← checkedAdd planned count "generated step count"
  if maxima .packets < planned then
    fail "generated step count exceeds packet ceiling; refusing oversized plan"
  else if maxPlanSteps < planned then
    fail s!"generated step count exceeds planner limit ({maxPlanSteps})"
  else return planned

def readBudget (value : Value) (type : StepType) (field : String) : Result Amounts := do
  let budget ← mapping value field
  keys budget field ["packetsPerRun", "bytesPerRun", "durationSecondsPerRun"]
  let packets ← uint (field? budget "packetsPerRun") s!"{field}.packetsPerRun" false
  let bytes ← uint (field? budget "bytesPerRun") s!"{field}.bytesPerRun" false
  let duration ← uint (field? budget "durationSecondsPerRun") s!"{field}.durationSecondsPerRun" false
  return fun
    | .calls => callsPerRun type
    | .packets => packets
    | .bytes => bytes
    | .durationSeconds => duration
    | _ => 0

def contributions (id : Text) (count : Nat) (budget : Amounts) : Result Amounts :=
  collect (fun q => checkedMul count (budget q) s!"{id.render}.{q.name}") totalKeys

def addContributions (totals added : Amounts) : Result Amounts :=
  collect (fun q => checkedAdd (totals q) (added q) s!"total {q.name}") totalKeys

/-- `f"ipv{ipaddress.ip_address(address).version}" != family` for some address. -/
@[grind =] def otherFamily (family : Scalar) : List Text → Result Bool
  | [] => .ok false
  | address :: rest =>
    match ipAddress (.str address) with
    | none => .error (.builtin .valueError)
    | some parsed =>
      if family = .text (Text.ofString s!"ipv{parsed.version}") then otherFamily family rest
      else .ok true

def readGenerated (matrix : Option Matrix) (target : Target) (value : Value) (field : String) :
    Result Generated :=
  match matrix with
  | none => fail s!"{field} requires a top-level matrix"
  | some matrix => do
    let generated ← validateGeneratedCase value matrix field
    if generated.factors .transport ≠ .text target.transport then
      fail s!"{field} transport does not match its target"
    else if ← otherFamily (generated.factors .addressFamily) target.addresses then
      fail s!"{field} addressFamily does not match its target"
    else return generated

/-- What the cases read so far have used up. -/
structure Progress where
  seen : List Text
  planned : Nat
  totals : Amounts

def Progress.initial : Progress := ⟨[], 0, fun _ => 0⟩

def readCase (authorization : Authorization) (targets : List Target) (index : Nat) (progress : Progress)
    (raw : Value) : Result (Case × Progress) := do
  let field := s!"cases[{index}]"
  let case_ ← mapping raw field
  keys case_ field ["id", "type", "target", "count", "budget", "expectations", "generated"]
  let id ← name (field? case_ "id") s!"{field}.id"
  if id ∈ progress.seen then fail s!"duplicate case id {id.repr}"
  else
    let type ← caseType (field? case_ "type") s!"{field}.type"
    let targetName ← name (field? case_ "target") s!"{field}.target"
    let target ← caseTarget targets id targetName
    let count ← uint (field? case_ "count") s!"{field}.count" false
    let planned ← planSteps authorization.hardMaxima progress.planned count
    let budget ← readBudget (field? case_ "budget") type s!"{field}.budget"
    let added ← contributions id count budget
    let totals ← addContributions progress.totals added
    let expectations ← optional case_ "expectations" fun v => caseExpectations v s!"{field}.expectations"
    let generated ← optional case_ "generated" fun v =>
      readGenerated authorization.matrix target v s!"{field}.generated"
    return ({ id, type, target, count, budget, expectations, generated },
      { seen := id :: progress.seen, planned, totals })

@[grind =] def readCases (authorization : Authorization) (targets : List Target) :
    Nat → Progress → List Value → Result (List Case × Progress)
  | _, progress, [] => .ok ([], progress)
  | index, progress, raw :: rest => do
    let (case_, next) ← readCase authorization targets index progress raw
    let (others, last) ← readCases authorization targets (index + 1) next rest
    return (case_ :: others, last)

/-- One run of a case. -/
structure Step where
  index : Nat
  sequence : Nat
  case_ : Case

/-- The runs of the cases, numbered from `index + 1` on. -/
@[grind =] def stepsFrom : Nat → List Case → List Step
  | _, [] => []
  | index, case_ :: rest =>
    ((List.range case_.count).map fun run => ⟨index + run + 1, run + 1, case_⟩) ++
      stepsFrom (index + case_.count) rest

/-- The planned totals stay below the ceilings, checked in the order of the totals. -/
@[grind =] def checkTotals (maxima totals : Amounts) : List Quantity → Result Unit
  | [] => .ok ()
  | q :: rest =>
    if maxima q < totals q then
      fail s!"planned {q.name} ({totals q}) exceeds hard maximum ({maxima q})"
    else checkTotals maxima totals rest

end Sippycup.Campaign
