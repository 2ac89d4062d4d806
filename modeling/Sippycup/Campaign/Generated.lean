import Sippycup.Campaign.Matrix

/-! The matrix in its frozen form, as a document, and generated cases: one
value for every factor and a script of call actions. -/
namespace Sippycup.Campaign
open Sippycup.Python

def entryIf {α : Type} (name : String) (value : Option α) (encode : α → Value) : Dict :=
  match value with
  | none => []
  | some content => [Dict.entry name (encode content)]

def scalarsValue (values : List Scalar) : Value := .list (values.map Scalar.value)

def Predicate.value (predicate : Predicate) : Value :=
  .dict (predicate.map fun (factor, values) => (.str factor.name, scalarsValue values))

def Form.entries : Form → Dict
  | .require p => [Dict.entry "require" (Predicate.value p)]
  | .exclude p => [Dict.entry "exclude" (Predicate.value p)]
  | .implies p q => [Dict.entry "if" (Predicate.value p), Dict.entry "then" (Predicate.value q)]

def rationaleEntries (rationale : Option Text) : Dict := entryIf "rationale" rationale .str

def Constraint.value (constraint : Constraint) : Value :=
  .dict (Dict.entry "id" (.str constraint.id) ::
    (constraint.form.entries ++ rationaleEntries constraint.rationale))

/-- A dict with an item for every factor. -/
def factorsValue (value : Factor → Value) : Value :=
  .dict (matrixFactors.map fun factor => (.str factor.name, value factor))

def totalValue (values : Factor → Scalar) : Value := factorsValue fun factor => (values factor).value

def MandatoryCase.value (case_ : MandatoryCase) : Value :=
  .dict (Dict.entry "id" (.str case_.id) :: Dict.entry "values" (totalValue case_.values) ::
    rationaleEntries case_.rationale)

def coveringEntries (covering : Option (List Factor × Nat)) : Dict :=
  match covering with
  | none => []
  | some (factors, strength) =>
    [Dict.entry "coveringFactors" (.list (factors.map fun factor => .str factor.name)),
      Dict.entry "interactionStrength" (.int strength)]

def RiskWeight.value (risk : RiskWeight) : Value :=
  .dict (Dict.entry "id" (.str risk.id) :: Dict.entry "when" (Predicate.value risk.condition) ::
    Dict.entry "weight" (.int risk.weight) :: Dict.entry "rationale" (.str risk.rationale) ::
    coveringEntries risk.covering)

/-- The dict that `_validate_matrix` returns. -/
def Matrix.value (matrix : Matrix) : Value :=
  .dict [Dict.entry "factors" (factorsValue fun factor => scalarsValue (matrix.factors factor)),
    Dict.entry "constraints" (.list (matrix.constraints.map Constraint.value)),
    Dict.entry "mandatoryCases" (.list (matrix.mandatoryCases.map MandatoryCase.value)),
    Dict.entry "interactionStrength" (.int matrix.interactionStrength),
    Dict.entry "riskWeights" (.list (matrix.riskWeights.map RiskWeight.value))]

def matrixActions : List String :=
  ["dtmf", "hold", "resume", "reinvite", "failure", "recover", "hangup"]

structure Generated where
  row : Nat
  sequence : Nat
  factors : Factor → Scalar
  actions : List Text

def Generated.value (generated : Generated) : Value :=
  .dict [Dict.entry "row" (.int generated.row), Dict.entry "sequence" (.int generated.sequence),
    Dict.entry "factors" (totalValue generated.factors),
    Dict.entry "actions" (.list (generated.actions.map .str))]

/-- The actions before the hangup: holds and resumes alternate, and a failure
is followed by a recovery. -/
@[grind =] def checkActions (field : String) : Bool → Bool → List Text → Result Unit
  | _, _, [] => .ok ()
  | held, failed, action :: rest =>
    if failed then
      if action = Text.ofString "recover" then checkActions field held false rest
      else fail s!"{field}.actions requires recovery after failure"
    else if action = Text.ofString "hold" then
      if held then fail s!"{field}.actions cannot hold an already held call"
      else checkActions field true false rest
    else if action = Text.ofString "resume" then
      if held then checkActions field false false rest
      else fail s!"{field}.actions resume requires a prior hold"
    else if action = Text.ofString "failure" then checkActions field held true rest
    else if action = Text.ofString "recover" then
      fail s!"{field}.actions recover requires a prior failure"
    else checkActions field held false rest

def generatedActions (generated : Dict) (field : String) : Result (List Text) := do
  let raw ← list (field? generated "actions") s!"{field}.actions"
  let actions ← eachItem (fun index item => string item s!"{field}.actions[{index}]") 0 raw
  if actions.any fun action => !matrixActions.any fun known => decide (action = Text.ofString known) then
    fail s!"{field}.actions contains an unsupported action"
  else if actions.getLast? ≠ some (Text.ofString "hangup") ∨
      Text.ofString "hangup" ∈ actions.dropLast then
    fail s!"{field}.actions must end with one terminal hangup"
  else
    checkActions field false false actions.dropLast
    return actions

def validateGeneratedCase (value : Value) (matrix : Matrix) (field : String) : Result Generated := do
  let generated ← mapping value field
  keys generated field ["row", "sequence", "factors", "actions"]
  let row ← uint (field? generated "row") s!"{field}.row" false
  let sequence ← uint (field? generated "sequence") s!"{field}.sequence" false
  let rawFactors ← mapping (field? generated "factors") s!"{field}.factors"
  if missingKeys rawFactors factorNames ≠ [] ∨ !(unknownKeys rawFactors factorNames).isEmpty then
    fail s!"{field}.factors must assign every matrix factor exactly"
  else
    let factors ← totalAssignment rawFactors s!"{field}.factors" matrix.factors
    let broken := violated matrix.constraints (ofTotal factors)
    if broken ≠ [] then fail s!"{field}.factors violates: {joinIds broken}"
    else
      let actions ← generatedActions generated field
      return { row, sequence, factors, actions }

end Sippycup.Campaign
