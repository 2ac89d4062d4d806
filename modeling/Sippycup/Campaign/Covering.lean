import Mathlib.Data.List.Dedup
import Mathlib.Data.List.Sublists
import Sippycup.Campaign.Matrix
import Sippycup.Machine.Loop

/-! Constrained covering arrays: the requested factor tuples, their
classification by completion, and the loop that adds rows until every required
tuple is covered. Candidates and targets are ordered by a digest, which is left
open: no result depends on the order. -/
namespace Sippycup.Campaign
open Sippycup.Python Sippycup.Backtrack Sippycup.Loop

abbrev FactorTuple := List (Factor × Scalar)

structure ExcludedFactorTuple where
  values : FactorTuple
  reasons : List Text

structure CoveringArray where
  rows : List (Assignment Factor Scalar)
  requiredTuples : List FactorTuple
  excludedTuples : List ExcludedFactorTuple
  seed : Nat
  interactionStrength : Nat

def maxRequirements : Nat := 250000

/-- `json.dumps` of a domain value: the texts are plain ASCII without escapes. -/
def Scalar.json : Scalar → Text
  | .int n => toString n
  | .text t => "\"" ++ t ++ ("\"" : Text)

def tupleKey (item : FactorTuple) : List (Text × Text) :=
  item.map fun (factor, v) => (Text.ofString factor.name, v.json)

def tupleKeyValue (item : FactorTuple) : Value :=
  .list ((tupleKey item).map fun (factor, v) => .list [.str factor, .str v])

def tupleLe (a b : FactorTuple) : Prop :=
  (tupleKey a).map (fun (factor, v) => [factor.codes, v.codes]) ≤
    (tupleKey b).map fun (factor, v) => [factor.codes, v.codes]

instance (a b : FactorTuple) : Decidable (tupleLe a b) := inferInstanceAs (Decidable (_ ≤ _))

def assignmentCovers (row : Assignment Factor Scalar) (item : FactorTuple) : Bool :=
  item.all fun (factor, v) => decide (row factor = some v)

def compatible (a : Assignment Factor Scalar) (item : FactorTuple) : Bool :=
  item.all fun (factor, v) => decide (a factor = none ∨ a factor = some v)

/-- `dict(item)`: a factor that occurs twice keeps its last value. -/
def fixedBy (item : FactorTuple) : Assignment Factor Scalar :=
  item.foldl (fun a (factor, v) => Function.update a factor (some v)) fun _ => none

def requestedSubsets (matrix : Matrix) : List (List Factor) :=
  let risks := matrix.riskWeights.filterMap RiskWeight.covering
  let subsets := matrixFactors.sublistsLen matrix.interactionStrength ++
    risks.flatMap fun (factors, strength) => factors.sublistsLen strength
  subsets.dedup.insertionSort fun a b =>
    (a.map fun f => (Text.ofString f.name).codes) ≤ b.map fun f => (Text.ofString f.name).codes

/-- The product of the domains, as tuples. -/
@[grind =] def tuplesOf (domains : Domains) : List Factor → List FactorTuple
  | [] => [[]]
  | factor :: rest =>
    (domains factor).flatMap fun v => (tuplesOf domains rest).map fun item => (factor, v) :: item

def requestedTuples (matrix : Matrix) : List FactorTuple :=
  (requestedSubsets matrix).flatMap (tuplesOf matrix.factors)

section
variable {κ : Type} [LinearOrder κ] (stableKey : Nat → String → Value → κ)

/-- Domain values by how many uncovered tuples they leave open, then by digest. -/
def candidates (domains : Domains) (seed : Nat) (namespace_ : String) (uncovered : List FactorTuple)
    (a : Assignment Factor Scalar) (factor : Factor) : List Scalar :=
  let score (v : Scalar) : Nat :=
    (uncovered.filter fun item => compatible (Function.update a factor (some v)) item).length
  let key (v : Scalar) : κ := stableKey seed s!"{namespace_}:{factor.name}" v.value
  (domains factor).insertionSort fun v w => score w < score v ∨ score v = score w ∧ key v ≤ key w

def completeAssignment (matrix : Matrix) (fixed : Assignment Factor Scalar) (seed : Nat)
    (namespace_ : String) (uncovered : List FactorTuple) : Option (Assignment Factor Scalar) :=
  if allAllow matrix.constraints fixed then
    search (allAllow matrix.constraints)
      (candidates stableKey matrix.factors seed namespace_ uncovered)
      (searchOrder matrix.factors (matrixFactors.filter fun f => fixed f = none)) fixed
  else none

/-- Sorts the requested tuples into those that extend to a row and the rest. -/
@[grind =] def classify (matrix : Matrix) (seed : Nat) : List FactorTuple → List FactorTuple →
    List ExcludedFactorTuple → Result (List FactorTuple × List ExcludedFactorTuple)
  | [], required, excluded => .ok (required, excluded)
  | item :: rest, required, excluded =>
    if maxRequirements ≤ required.length + excluded.length then
      fail s!"covering model exceeds {maxRequirements} requested tuples"
    else
      match completeAssignment stableKey matrix (fixedBy item) seed "classify" [] with
      | some _ =>
        classify matrix seed rest (if item ∈ required then required else required ++ [item]) excluded
      | none =>
        let direct := violated matrix.constraints (fixedBy item)
        let reasons := if direct.isEmpty then [Text.ofString "not-extendable"] else direct
        classify matrix seed rest required (excluded ++ [⟨item, reasons⟩])

structure Cover where
  rows : List (Assignment Factor Scalar)
  uncovered : List FactorTuple
  rowNumber : Nat

@[grind =] def leastBy (key : FactorTuple → κ) : FactorTuple → List FactorTuple → FactorTuple
  | best, [] => best
  | best, item :: rest => leastBy key (if key item < key best then item else best) rest

/-- One round of `while uncovered`. -/
def coverTurn (matrix : Matrix) (seed : Nat) (c : Cover) : Result (Turn Cover) :=
  match c.uncovered with
  | [] => .ok (.leave c)
  | first :: rest =>
    let rowNumber := c.rowNumber + 1
    let target :=
      leastBy (fun item => stableKey seed s!"target:{rowNumber}" (tupleKeyValue item)) first rest
    match completeAssignment stableKey matrix (fixedBy target) seed s!"row:{rowNumber}" c.uncovered with
    | none => fail "internal error: permitted tuple cannot be completed"
    | some completed => .ok (.again {
        rows := c.rows ++ [completed]
        uncovered := c.uncovered.filter fun item => !assignmentCovers completed item
        rowNumber })

/-- `set(value)` -/
def setOf (value : Value) : Result (List Value) :=
  match value with
  | .list items => if items.all Value.hashable then .ok items else .error (.builtin .typeError)
  | .str t => .ok (t.codes.map fun code => .str ⟨[code]⟩)
  | .dict entries => .ok (entries.map Prod.fst)
  | _ => .error (.builtin .typeError)

/-- `value.get`, which only a dict has. -/
def getter (value : Value) : Result Dict :=
  match value with
  | .dict entries => .ok entries
  | _ => .error (.builtin .attributeError)

structure Prepared where
  matrix : Matrix
  seed : Nat
  required : List FactorTuple
  excluded : List ExcludedFactorTuple

/-- Everything before the loop: the matrix accepted and its tuples classified. -/
def prepareCovering (value seed : Value) : Result Prepared :=
  match seed with
  | .int n =>
    if n < 0 then fail "covering seed must be a non-negative integer"
    else do
      let factors ← getter ((← getter value).getD "factors" (.dict []))
      let authorized ← setOf (factors.getD "transport" (.list []))
      let matrix ← validateMatrix value authorized
      let (required, excluded) ← classify stableKey matrix n.toNat (requestedTuples matrix) [] []
      return { matrix, seed := n.toNat, required, excluded }
  | _ => fail "covering seed must be a non-negative integer"

def Prepared.start (prepared : Prepared) : Cover :=
  let rows := prepared.matrix.mandatoryCases.map fun item => ofTotal item.values
  { rows
    uncovered := prepared.required.filter fun item => !rows.any fun row => assignmentCovers row item
    rowNumber := 0 }

def Prepared.finish (prepared : Prepared) (c : Cover) : CoveringArray where
  rows := c.rows
  requiredTuples := prepared.required.insertionSort tupleLe
  excludedTuples := prepared.excluded.insertionSort fun a b => tupleLe a.values b.values
  seed := prepared.seed
  interactionStrength := prepared.matrix.interactionStrength

/-- `none` while the loop has not ended within the fuel. -/
def generateCoveringArray (value seed : Value) (fuel : Nat) : Option (Result CoveringArray) :=
  match prepareCovering stableKey value seed with
  | .error raised => some (.error raised)
  | .ok prepared =>
    (Loop.run (coverTurn stableKey prepared.matrix prepared.seed) fuel prepared.start).map
      fun result => result.map prepared.finish

end
end Sippycup.Campaign
