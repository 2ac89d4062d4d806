import Sippycup.Python.Checks
import Sippycup.Machine.Backtrack

/-! Campaign manifests: readers shared by the compiler, the matrix validator
and the covering generator. -/
namespace Sippycup.Campaign
open Sippycup.Python

structure ManifestError where
  message : String
  deriving DecidableEq

abbrev Result := Except (Raised ManifestError)

def fail {α : Type} (message : String) : Result α := .error (.own ⟨message⟩)

def u64Max : Nat := 2 ^ 64 - 1
def maxPlanSteps : Nat := 100000

@[grind =] def mapping (value : Value) (field : String) : Result Dict :=
  match value with
  | .dict entries => .ok entries
  | _ => fail s!"{field} must be a mapping"

@[grind =] def list (value : Value) (field : String) : Result (List Value) :=
  match value with
  | .list (item :: rest) => .ok (item :: rest)
  | _ => fail s!"{field} must be a non-empty list"

/-- The first item equal to an earlier one. -/
@[grind =] def firstDuplicate : List Value → List Value → Option Value
  | _, [] => none
  | seen, item :: rest => if item.isIn seen then some item else firstDuplicate (seen ++ [item]) rest

def uniqueList (value : Value) (field : String) : Result (List Value) := do
  let result ← list value field
  match firstDuplicate [] result with
  | some item => fail s!"{field} contains duplicate value {item.repr}"
  | none => return result

def keys (value : Dict) (field : String) (allowed : List String) : Result Unit := do
  let unknown ← sortedKeys (unknownKeys value allowed)
  if unknown.isEmpty then return ()
  else
    let names ← joinTexts unknown
    fail s!"{field} contains unsupported fields: {names}"

@[grind =] def string (value : Value) (field : String) : Result Text :=
  match value with
  | .str text =>
    if text.strip.codes.isEmpty then fail s!"{field} must be a non-empty string" else .ok text.strip
  | _ => fail s!"{field} must be a non-empty string"

def uint (value : Value) (field : String) (allowZero : Bool) : Result Nat :=
  let minimum : Nat := if allowZero then 0 else 1
  match value with
  | .int n =>
    if n < minimum ∨ (u64Max : Int) < n then
      fail s!"{field} must be between {minimum} and {u64Max}"
    else .ok n.toNat
  | _ => fail s!"{field} must be an integer"

def checkedAdd (left right : Nat) (field : String) : Result Nat :=
  if (u64Max : Int) - right < left then fail s!"arithmetic overflow while calculating {field}"
  else .ok (left + right)

def checkedMul (left right : Nat) (field : String) : Result Nat :=
  if left ≠ 0 ∧ u64Max / left < right then fail s!"arithmetic overflow while calculating {field}"
  else .ok (left * right)

def name (value : Value) (field : String) : Result Text := do
  let result ← string value field
  if nameOk result then return result
  else fail s!"{field} must match [a-z][a-z0-9-]\x7b0,62\x7d"

/-- `value.get(key)` -/
def field? (d : Dict) (key : String) : Value := d.getD key .none

/-- Reads a list item by item, numbering the fields. -/
@[grind =] def eachItem {α : Type} (read : Nat → Value → Result α) : Nat → List Value → Result (List α)
  | _, [] => .ok []
  | index, item :: rest => do
    let head ← read index item
    let tail ← eachItem read (index + 1) rest
    return head :: tail

theorem mapping_ok {value : Value} {field : String} {d : Dict} :
    mapping value field = .ok d ↔ value = .dict d := by
  cases value <;> simp [mapping, fail]

theorem uint_ok {value : Value} {field : String} {zero : Bool} {n : Nat} :
    uint value field zero = .ok n ↔ value = .int n ∧ n ≤ u64Max ∧ (zero = false → 0 < n) := by
  unfold uint fail
  cases value with
  | int m =>
    simp only [Value.int.injEq]
    cases zero
    · simp only [Bool.false_eq_true, if_false, forall_const]
      split
      · simp only [reduceCtorEq, false_iff]
        omega
      · simp only [Except.ok.injEq]
        omega
    · simp only [if_true, reduceCtorEq, false_imp_iff, and_true]
      split
      · simp only [reduceCtorEq, false_iff]
        omega
      · simp only [Except.ok.injEq]
        omega
  | _ => simp

end Sippycup.Campaign

/-! The case matrix: factor domains, constraints, mandatory cases and risk
weights, validated and normalized from an untrusted document. -/
namespace Sippycup.Campaign
open Sippycup.Python Sippycup.Backtrack

inductive Factor where
  | transport | addressFamily | codec | ptime | mediaProtection | dtmf | earlyMedia | holdReinvite
  | teardownInitiator | duration | nat | impairment
  deriving DecidableEq, Inhabited

def Factor.name : Factor → String
  | .transport => "transport"
  | .addressFamily => "addressFamily"
  | .codec => "codec"
  | .ptime => "ptime"
  | .mediaProtection => "mediaProtection"
  | .dtmf => "dtmf"
  | .earlyMedia => "earlyMedia"
  | .holdReinvite => "holdReinvite"
  | .teardownInitiator => "teardownInitiator"
  | .duration => "duration"
  | .nat => "nat"
  | .impairment => "impairment"

def matrixFactors : List Factor :=
  [.transport, .addressFamily, .codec, .ptime, .mediaProtection, .dtmf, .earlyMedia, .holdReinvite,
    .teardownInitiator, .duration, .nat, .impairment]

def factorNames : List String := matrixFactors.map Factor.name

/-- The enumerated values of a factor; the numeric factors have none. -/
def matrixEnums : Factor → Option (List String)
  | .transport => some ["udp", "tcp", "tls"]
  | .addressFamily => some ["ipv4", "ipv6"]
  | .codec => some ["pcmu", "pcma", "g722", "opus"]
  | .mediaProtection => some ["plain", "sdes-srtp", "dtls-srtp"]
  | .dtmf => some ["rfc4733", "sip-info", "inband", "none"]
  | .earlyMedia => some ["disabled", "183-sdp", "reliable"]
  | .holdReinvite => some ["disabled", "sendonly", "inactive"]
  | .teardownInitiator => some ["caller", "callee", "timeout"]
  | .nat => some ["none", "endpoint-nat", "symmetric-nat"]
  | .impairment => some ["none", "loss", "jitter", "latency", "reorder", "duplicate"]
  | .ptime | .duration => none

def numericAllowed (factor : Factor) (n : Int) : Bool :=
  match factor with
  | .ptime => [10, 20, 30, 40, 60].contains n
  | _ => decide (1 ≤ n ∧ n ≤ 3600)

def numericDescription : Factor → String
  | .ptime => "one of 10, 20, 30, 40, or 60"
  | _ => "an integer between 1 and 3600 seconds"

def maxMatrixDomain : Nat := 32
def maxSatStates : Nat := 1000000

inductive Scalar where
  | int (n : Int)
  | text (t : Text)
  deriving DecidableEq, Inhabited

def Scalar.value : Scalar → Value
  | .int n => .int n
  | .text t => .str t

/-- Order of the sort key `(str(type(item)), item)`. -/
def Scalar.le : Scalar → Scalar → Bool
  | .int m, .int n => decide (m ≤ n)
  | .int _, .text _ => true
  | .text _, .int _ => false
  | .text s, .text t => s.le t

def sortScalars (values : List Scalar) : List Scalar :=
  values.insertionSort fun a b => Scalar.le a b = true

def matrixValue (value : Value) (factor : Factor) (field : String) : Result Scalar :=
  match matrixEnums factor with
  | some choices => do
    let result ← string value field
    if choices.any fun choice => decide (result = Text.ofString choice) then return .text result
    else fail s!"{field} has unsupported value {result.repr}; choose from {joinNames choices}"
  | none =>
    match value with
    | .int n =>
      if numericAllowed factor n then .ok (.int n)
      else fail s!"{field} must be {numericDescription factor}"
    | _ => fail s!"{field} must be {numericDescription factor}"

abbrev Domains := Factor → List Scalar
abbrev Predicate := List (Factor × List Scalar)

def sortFactors (factors : List Factor) : List Factor :=
  factors.insertionSort fun a b => (Text.ofString a.name).le b.name = true

@[grind =] def selectValues (factor : Factor) (field : String) (domain : List Scalar) :
    Nat → List Scalar → List Value → Result (List Scalar)
  | _, selected, [] => .ok selected
  | index, selected, item :: rest => do
    let parsed ← matrixValue item factor s!"{field}.{factor.name}[{index}]"
    if parsed ∈ selected then
      fail s!"{field}.{factor.name} contains duplicate value {parsed.value.repr}"
    else if parsed ∉ domain then
      fail s!"{field}.{factor.name} selects {parsed.value.repr}, outside its declared domain"
    else selectValues factor field domain (index + 1) (selected ++ [parsed]) rest

/-- `raw if isinstance(raw, list) else [raw]` -/
def listed (raw : Value) : List Value :=
  match raw with
  | .list items => items
  | raw => [raw]

def predicateEntry (predicate : Dict) (field : String) (domains : Domains) (factor : Factor) :
    Result (Factor × List Scalar) := do
  let values := listed (← predicate.item factor.name)
  if values.isEmpty then fail s!"{field}.{factor.name} must select at least one value"
  else
    let selected ← selectValues factor field (domains factor) 0 [] values
    return (factor, sortScalars selected)

def matrixPredicate (value : Value) (field : String) (domains : Domains) : Result Predicate := do
  let predicate ← mapping value field
  if predicate.isEmpty then fail s!"{field} must reference at least one factor"
  else
    let unknown ← sortedKeys (unknownKeys predicate factorNames)
    if unknown.isEmpty then
      (sortFactors (matrixFactors.filter fun f => predicate.contains f.name)).mapM
        (predicateEntry predicate field domains)
    else
      let names ← joinTexts unknown
      fail s!"{field} references unsupported factor(s): {names}"

/-- `none` while a factor of the predicate is not assigned yet. -/
@[grind =] def predicateState (a : Assignment Factor Scalar) : Predicate → Bool → Option Bool
  | [], unknown => if unknown then none else some true
  | (factor, allowed) :: rest, unknown =>
    match a factor with
    | none => predicateState a rest true
    | some v => if v ∈ allowed then predicateState a rest unknown else some false

inductive Form where
  | require (predicate : Predicate)
  | exclude (predicate : Predicate)
  | implies (antecedent consequent : Predicate)
  deriving DecidableEq

structure Constraint where
  id : Text
  form : Form
  rationale : Option Text
  deriving DecidableEq

def constraintAllows (constraint : Constraint) (a : Assignment Factor Scalar) : Bool :=
  match constraint.form with
  | .require p => predicateState a p false ≠ some false
  | .exclude p => predicateState a p false ≠ some true
  | .implies p q => !(predicateState a p false = some true && predicateState a q false = some false)

def allAllow (constraints : List Constraint) (a : Assignment Factor Scalar) : Bool :=
  constraints.all fun constraint => constraintAllows constraint a

/-- Factors by domain size, then by name. -/
def searchOrder (domains : Domains) (factors : List Factor) : List Factor :=
  factors.insertionSort fun a b =>
    (domains a).length < (domains b).length ∨
      (domains a).length = (domains b).length ∧ (Text.ofString a.name).le b.name = true

def matrixSatisfiable (domains : Domains) (constraints : List Constraint) : Result Bool :=
  (countedSearch maxSatStates
    (.own ⟨s!"matrix satisfiability search exceeds {maxSatStates} states; reduce domains or add pruning constraints"⟩)
    (allAllow constraints) domains (searchOrder domains matrixFactors) (fun _ => none) 0).map
      Prod.fst

/-- Drops each constraint that the others do not need to conflict. -/
@[grind =] def minimalUnsatCore (domains : Domains) : List Constraint → List Constraint → Result (List Constraint)
  | kept, [] => .ok kept
  | kept, constraint :: rest => do
    if ← matrixSatisfiable domains (kept ++ rest) then
      minimalUnsatCore domains (kept ++ [constraint]) rest
    else minimalUnsatCore domains kept rest

structure MandatoryCase where
  id : Text
  values : Factor → Scalar
  rationale : Option Text

structure RiskWeight where
  id : Text
  condition : Predicate
  weight : Nat
  rationale : Text
  covering : Option (List Factor × Nat)

structure Matrix where
  factors : Domains
  constraints : List Constraint
  mandatoryCases : List MandatoryCase
  interactionStrength : Nat
  riskWeights : List RiskWeight

def matrixDomain (rawFactors : Dict) (factor : Factor) : Result (List Scalar) := do
  let field := s!"matrix.factors.{factor.name}"
  let raw ← uniqueList (← rawFactors.item factor.name) field
  if maxMatrixDomain < raw.length then
    fail s!"{field} exceeds the {maxMatrixDomain}-value domain limit"
  else
    let values ← eachItem (fun index item => matrixValue item factor s!"{field}[{index}]") 0 raw
    return sortScalars values

def matrixDomains (rawFactors : Dict) (authorized : List Value) : Result Domains := do
  let missing := missingKeys rawFactors factorNames
  let unsupported ← sortedKeys (unknownKeys rawFactors factorNames)
  if missing ≠ [] then fail s!"matrix.factors is missing required factors: {joinNames missing}"
  else if !unsupported.isEmpty then
    let names ← joinTexts unsupported
    fail s!"matrix.factors contains unsupported factors: {names}"
  else
    let domains ← collect (matrixDomain rawFactors) matrixFactors
    let unauthorized := (domains .transport).filter fun v => !v.value.isIn authorized
    if unauthorized.isEmpty then return domains
    else
      let names ← joinTexts (unauthorized.dedup.map Scalar.value)
      fail s!"matrix.factors.transport contains unauthorized transports: {names}"

def optional {α : Type} (d : Dict) (key : String) (read : Value → Result α) : Result (Option α) :=
  match d.get? key with
  | none => .ok none
  | some value => (read value).map some

def constraintForm (item : Dict) (field : String) (domains : Domains) : Result Form := do
  let forms := [item.contains "require", item.contains "exclude",
    item.contains "if" || item.contains "then"]
  if forms.count true ≠ 1 ∨
      ((item.contains "if" || item.contains "then") && !(item.contains "if" && item.contains "then")) then
    fail s!"{field} must contain exactly one logical form: require, exclude, or both if and then"
  else
    let predicate (key : String) : Result Predicate := do
      matrixPredicate (← item.item key) s!"{field}.{key}" domains
    if item.contains "require" then return .require (← predicate "require")
    else if item.contains "exclude" then return .exclude (← predicate "exclude")
    else
      let antecedent ← predicate "if"
      let consequent ← predicate "then"
      return .implies antecedent consequent

@[grind =] def matrixConstraints (domains : Domains) : Nat → List Text → List Value → Result (List Constraint)
  | _, _, [] => .ok []
  | index, seen, raw :: rest => do
    let field := s!"matrix.constraints[{index}]"
    let item ← mapping raw field
    keys item field ["id", "require", "exclude", "if", "then", "rationale"]
    let id ← name (field? item "id") s!"{field}.id"
    if id ∈ seen then fail s!"duplicate matrix constraint id {id.repr}"
    else
      let form ← constraintForm item field domains
      let rationale ← optional item "rationale" fun v => string v s!"{field}.rationale"
      let others ← matrixConstraints domains (index + 1) (id :: seen) rest
      return { id, form, rationale } :: others

/-- Reads one value for every factor; a list selects its least value. -/
def totalAssignment (rawValues : Dict) (field : String) (domains : Domains) :
    Result (Factor → Scalar) :=
  collect (fun factor => do
    let raw ← rawValues.item factor.name
    let predicate ← matrixPredicate (.dict [(.str factor.name, raw)]) field domains
    match predicate with
    | (_, v :: _) :: _ => return v
    | _ => .error (.builtin .indexError)) matrixFactors

def ofTotal (values : Factor → Scalar) : Assignment Factor Scalar := fun factor => some (values factor)

def violated (constraints : List Constraint) (a : Assignment Factor Scalar) : List Text :=
  (constraints.filter fun constraint => !constraintAllows constraint a).map Constraint.id

def joinIds (ids : List Text) : String := ", ".intercalate (ids.map Text.render)

def assignmentDetails (missing : List String) (extra : List Value) : Result String := do
  let absent := if missing = [] then [] else ["missing " ++ joinNames missing]
  if extra.isEmpty then return "; ".intercalate absent
  else
    let names ← joinTexts extra
    return "; ".intercalate (absent ++ ["unsupported " ++ names])

@[grind =] def mandatoryCases (domains : Domains) (constraints : List Constraint) :
    Nat → List Text → List Value → Result (List MandatoryCase)
  | _, _, [] => .ok []
  | index, seen, raw :: rest => do
    let field := s!"matrix.mandatoryCases[{index}]"
    let item ← mapping raw field
    keys item field ["id", "values", "rationale"]
    let id ← name (field? item "id") s!"{field}.id"
    if id ∈ seen then fail s!"duplicate mandatory case id {id.repr}"
    else
      let rawValues ← mapping (field? item "values") s!"{field}.values"
      let missing := missingKeys rawValues factorNames
      let extra ← sortedKeys (unknownKeys rawValues factorNames)
      if missing ≠ [] ∨ !extra.isEmpty then
        let details ← assignmentDetails missing extra
        fail s!"{field}.values must assign every factor ({details})"
      else
        let values ← totalAssignment rawValues s!"{field}.values" domains
        let broken := violated constraints (ofTotal values)
        if broken ≠ [] then fail s!"mandatory case {id.repr} violates constraint(s): {joinIds broken}"
        else
          let rationale ← optional item "rationale" fun v => string v s!"{field}.rationale"
          let others ← mandatoryCases domains constraints (index + 1) (id :: seen) rest
          return { id, values, rationale } :: others

def Factor.ofText? (text : Text) : Option Factor :=
  matrixFactors.find? fun f => decide (text = Text.ofString f.name)

def coveringFactors (item : Dict) (field : String) (strength : Nat) :
    Result (Option (List Factor × Nat)) := do
  if item.contains "coveringFactors" ≠ item.contains "interactionStrength" then
    fail s!"{field} must provide coveringFactors and interactionStrength together"
  else if !item.contains "coveringFactors" then return none
  else
    let raw ← uniqueList (← item.item "coveringFactors") s!"{field}.coveringFactors"
    let selected ← eachItem (fun index v => string v s!"{field}.coveringFactors[{index}]") 0 raw
    let unknown := (selected.filter fun t => (Factor.ofText? t).isNone).dedup
    if unknown ≠ [] then
      fail s!"{field}.coveringFactors references unsupported factor(s): {joinIds (sortTexts unknown)}"
    else
      let factors := sortFactors (selected.filterMap Factor.ofText?)
      let riskStrength ← uint (← item.item "interactionStrength") s!"{field}.interactionStrength" false
      if riskStrength ≤ strength ∨ factors.length < riskStrength then
        fail s!"{field}.interactionStrength must be greater than the matrix strength ({strength}) and no greater than its {factors.length} coveringFactors"
      else return some (factors, riskStrength)

@[grind =] def riskWeights (domains : Domains) (strength : Nat) :
    Nat → List Text → List Value → Result (List RiskWeight)
  | _, _, [] => .ok []
  | index, seen, raw :: rest => do
    let field := s!"matrix.riskWeights[{index}]"
    let item ← mapping raw field
    keys item field
      ["id", "when", "weight", "rationale", "coveringFactors", "interactionStrength"]
    let id ← name (field? item "id") s!"{field}.id"
    if id ∈ seen then fail s!"duplicate risk weight id {id.repr}"
    else
      let condition ← matrixPredicate (field? item "when") s!"{field}.when" domains
      let weight ← uint (field? item "weight") s!"{field}.weight" false
      let rationale ← string (field? item "rationale") s!"{field}.rationale"
      let covering ← coveringFactors item field strength
      let others ← riskWeights domains strength (index + 1) (id :: seen) rest
      return { id, condition, weight, rationale, covering } :: others

/-- `matrix.get(key, [])`, which must be a list. -/
def optionalList (matrix : Dict) (key : String) : Result (List Value) :=
  match matrix.getD key (.list []) with
  | .list items => .ok items
  | _ => fail s!"matrix.{key} must be a list"

def validateMatrix (value : Value) (authorized : List Value) : Result Matrix := do
  let matrix ← mapping value "matrix"
  keys matrix "matrix"
    ["factors", "constraints", "mandatoryCases", "interactionStrength", "riskWeights"]
  let rawFactors ← mapping (field? matrix "factors") "matrix.factors"
  let factors ← matrixDomains rawFactors authorized
  let unsorted ← matrixConstraints factors 0 [] (← optionalList matrix "constraints")
  let constraints := unsorted.insertionSort fun a b => a.id.le b.id = true
  if !(← matrixSatisfiable factors constraints) then
    let core ← minimalUnsatCore factors [] constraints
    fail s!"matrix constraints are unsatisfiable; minimal conflicting constraint set: {joinIds (core.map Constraint.id)}"
  else
    let cases ← mandatoryCases factors constraints 0 [] (← optionalList matrix "mandatoryCases")
    let strength ← uint (matrix.getD "interactionStrength" (.int 2)) "matrix.interactionStrength" false
    if matrixFactors.length < strength then
      fail s!"matrix.interactionStrength must be between 1 and {matrixFactors.length}"
    else
      let risks ← riskWeights factors strength 0 [] (← optionalList matrix "riskWeights")
      return {
        factors, constraints
        mandatoryCases := cases.insertionSort fun a b => a.id.le b.id = true
        interactionStrength := strength
        riskWeights := risks.insertionSort fun a b => a.id.le b.id = true }

end Sippycup.Campaign
