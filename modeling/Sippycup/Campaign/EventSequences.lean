import Mathlib.Data.List.Dedup
import Mathlib.Data.List.Sublists
import Sippycup.Campaign.Matrix
import Sippycup.Machine.Loop

/-! Sequences of call actions: the valid ones up to a length, the ordered action
tuples they contain, and a greedy selection that covers them. Equal scores are
told apart by a digest, which is left open: no result depends on it. -/
namespace Sippycup.Campaign
open Sippycup.Python Sippycup.Loop

inductive Action where
  | dtmf | hold | resume | reinvite | failure | recover | hangup
  deriving DecidableEq

namespace Action

def name : Action → Text
  | dtmf => "dtmf"
  | hold => "hold"
  | resume => "resume"
  | reinvite => "reinvite"
  | failure => "failure"
  | recover => "recover"
  | hangup => "hangup"

def supported : List Action := [dtmf, hold, resume, reinvite, failure, recover, hangup]

def named? (text : Text) : Option Action := supported.find? fun action => action.name = text

end Action

abbrev ActionTuple := List Action

/-- Tuples compare by the names of their actions. -/
def actionsLe (a b : ActionTuple) : Prop := a.map (Text.codes ∘ Action.name) ≤ b.map (Text.codes ∘ Action.name)

instance (a b : ActionTuple) : Decidable (actionsLe a b) := inferInstanceAs (Decidable (_ ≤ _))

structure SequenceCover where
  sequences : List ActionTuple
  requiredTuples : List ActionTuple
  excludedTuples : List ActionTuple
  seed : Nat
  interactionStrength : Nat
  maxActions : Nat
  deriving DecidableEq

def maxSequenceCandidates : Nat := 250000

/-- The loop of `_valid_action_sequence` from a state of the call on. -/
@[grind =] def validFrom : Bool → Bool → ActionTuple → Bool
  | _, _, [] => true
  | held, failed, action :: rest =>
    if action = .hangup then validFrom held failed rest
    else if failed then decide (action = .recover) && validFrom held false rest
    else match action with
      | .hold => !held && validFrom true false rest
      | .resume => held && validFrom false false rest
      | .dtmf | .reinvite => validFrom held false rest
      | .failure => validFrom held true rest
      | .recover | .hangup => false

def validActionSequence (sequence : ActionTuple) : Bool :=
  decide (sequence.getLast? = some .hangup) && !sequence.dropLast.contains .hangup &&
    validFrom false false sequence

def orderedSubsequences (sequence : ActionTuple) (strength : Nat) : List ActionTuple :=
  (sequence.sublistsLen strength).dedup

/-- `itertools.product(items, repeat=n)` -/
@[grind =] def product {α : Type} (items : List α) : Nat → List (List α)
  | 0 => [[]]
  | n + 1 => items.flatMap fun item => (product items n).map fun rest => item :: rest

/-- Appends the valid sequences over the given beginnings, within the limit. -/
@[grind =] def gatherCandidates : List ActionTuple → List ActionTuple → Result (List ActionTuple)
  | [], found => .ok found
  | beginning :: rest, found =>
    let sequence := beginning ++ [.hangup]
    let found := if validActionSequence sequence then found ++ [sequence] else found
    if maxSequenceCandidates < found.length then
      fail s!"sequence model exceeds {maxSequenceCandidates} valid candidates"
    else gatherCandidates rest found

structure SequenceModel where
  actions : List Action
  maxActions : Nat
  strength : Nat
  seed : Nat
  candidates : List ActionTuple
  required : List ActionTuple
  excluded : List ActionTuple

def readBounded (value : Value) (minimum maximum : Int) (message : String) : Result Nat :=
  match value with
  | .int n => if minimum ≤ n ∧ n ≤ maximum then .ok n.toNat else fail message
  | _ => fail message

def readSeed (value : Value) : Result Nat :=
  match value with
  | .int n => if n < 0 then fail "sequence seed must be a non-negative integer" else .ok n.toNat
  | _ => fail "sequence seed must be a non-negative integer"

/-- `sorted(set(actions))`, each action known and `hangup` among them. -/
def readActions (actions : List Text) : Result (List Action) :=
  let ordered := sortTexts actions.dedup
  if ordered.length ≠ actions.length then fail "sequence actions must be unique"
  else
    let unsupported := ordered.filter fun name => (Action.named? name).isNone
    if !unsupported.isEmpty then
      fail ("unsupported sequence actions: " ++ ", ".intercalate (unsupported.map Text.render))
    else
      let known := ordered.filterMap Action.named?
      if Action.hangup ∈ known then .ok known else fail "sequence actions must include hangup"

/-- Everything before the selection: the tuples that must be covered, and the rest. -/
def prepareSequences (actions : List Text) (maxActions strength seed : Value) : Result SequenceModel := do
  let seed ← readSeed seed
  let maxActions ← readBounded maxActions 1 7 "max_actions must be an integer between 1 and 7"
  let strength ← readBounded strength 1 maxActions
    "sequence interaction_strength must be between 1 and max_actions"
  let actions ← readActions actions
  let nonterminal := actions.filter fun action => action ≠ .hangup
  let found ← gatherCandidates ((List.range maxActions).flatMap (product nonterminal)) []
  let candidates := found.dedup.insertionSort actionsLe
  let long := candidates.filter fun item => strength ≤ item.length
  let required := (long.flatMap fun item => orderedSubsequences item strength).dedup
  let excluded := (product actions strength).dedup.filter fun item => item ∉ required
  return { actions, maxActions, strength, seed, candidates, required, excluded }

structure Selection where
  uncovered : List ActionTuple
  selected : List ActionTuple

section
variable {κ : Type} [LinearOrder κ] (stableKey : Nat → String → Value → κ)

/-- `json.dumps` sees a tuple as an array of its names. -/
def actionsValue (item : ActionTuple) : Value := .list (item.map fun action => .str action.name)

/-- The first maximum, by how much is newly covered and then by digest. -/
@[grind =] def bestScored : Nat × κ × ActionTuple → List (Nat × κ × ActionTuple) → Nat × κ × ActionTuple
  | best, [] => best
  | best, item :: rest =>
    bestScored (if best.1 < item.1 ∨ best.1 = item.1 ∧ best.2.1 < item.2.1 then item else best) rest

namespace SequenceModel
variable (model : SequenceModel)

def scored (s : Selection) (item : ActionTuple) : Nat × κ × ActionTuple :=
  (((orderedSubsequences item model.strength).filter fun tuple => tuple ∈ s.uncovered).length,
    stableKey model.seed s!"sequence:{s.selected.length}" (actionsValue item), item)

/-- One round of `while uncovered`. -/
def turn (s : Selection) : Result (Turn Selection) :=
  match s.uncovered with
  | [] => .ok (.leave s)
  | _ :: _ =>
    match model.candidates.map (model.scored stableKey s) with
    | [] => .error (.builtin .valueError)
    | first :: rest =>
      let (score, _, best) := bestScored first rest
      if score = 0 then fail "internal error: permitted action tuple is uncovered"
      else .ok (.again {
        uncovered := s.uncovered.filter fun tuple => tuple ∉ orderedSubsequences best model.strength
        selected := s.selected ++ [best] })

def finish (s : Selection) : SequenceCover where
  sequences := s.selected
  requiredTuples := model.required.insertionSort actionsLe
  excludedTuples := model.excluded.insertionSort actionsLe
  seed := model.seed
  interactionStrength := model.strength
  maxActions := model.maxActions

end SequenceModel

/-- `none` while the loop has not ended within the fuel. -/
def generateEventSequences (actions : List Text) (maxActions strength seed : Value) (fuel : Nat) :
    Option (Result SequenceCover) :=
  match prepareSequences actions maxActions strength seed with
  | .error raised => some (.error raised)
  | .ok model =>
    (Loop.run (model.turn stableKey) fuel { uncovered := model.required, selected := [] }).map
      fun result => result.map model.finish

end

end Sippycup.Campaign
