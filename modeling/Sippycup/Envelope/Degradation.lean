import Sippycup.Envelope.Simulate

/-! Degradation analysis: the observations of a run against the rules of a
policy, up to the first sample that stops the run, and the tested knee interval. -/
namespace Sippycup.Envelope
open Sippycup.Python

inductive Direction where
  | max | min
  deriving DecidableEq

/-- One metric's rule; `raw` is its dict as the policy has it. -/
structure Rule where
  direction : Direction
  soft : Number
  hard : Number
  changeDelta : Number
  consecutive : Nat
  required : Bool
  raw : Dict

structure Policy where
  staleAfterMs : Nat
  baselineSamples : Nat
  metrics : List (Value × Rule)

/-- `set(value) == {names}` -/
def keysAre (value : Dict) (names : List String) : Bool :=
  (missingKeys value names).isEmpty && (unknownKeys value names).isEmpty

/-- A positive integer, no boolean. -/
def positive? : Value → Option Nat
  | .int n => if 0 < n then some n.toNat else none
  | _ => none

/-- `not isinstance(v, bool) and isinstance(v, (int, float)) and math.isfinite(v)`;
an integer past the range of floats raises. -/
def finite? (value : Value) : Result (Option Number) :=
  match value with
  | .int n => if (Number.int n).toDouble?.isSome then .ok (some (.int n)) else .error (.builtin .overflowError)
  | .float (.finite q) => .ok (some (.float (.finite q)))
  | _ => .ok none

def adverse (direction : Direction) (value threshold : Number) : Bool :=
  match direction with
  | .max => threshold.lt value
  | .min => value.lt threshold

def ruleKeys : List String := ["direction", "soft", "hard", "consecutive", "changeDelta", "required"]

def threshold (name : String) (raw : Dict) (key : String) : Result Number := do
  match ← finite? (← raw.item key) with
  | some n => return n
  | none => fail ("policy metric " ++ name ++ " thresholds must be finite")

def direction? (value : Value) : Option Direction :=
  if value.isText "max" then some .max else if value.isText "min" then some .min else none

def ruleOf (name : String) (raw : Dict) : Result Rule := do
  if !keysAre raw ruleKeys then fail ("policy metric " ++ name ++ " has invalid fields")
  else
    let named ← raw.item "direction"
    let _ ← inSet named ["max", "min"]
    match direction? named, ← raw.item "required" with
    | some direction, .bool required =>
      match ← raw.item "consecutive" with
      | .int consecutive =>
        if consecutive < 2 then fail ("policy metric " ++ name ++ " consecutive must be >= 2")
        else
          let soft ← threshold name raw "soft"
          let hard ← threshold name raw "hard"
          let changeDelta ← threshold name raw "changeDelta"
          if changeDelta.lt (.int 0) then
            fail ("policy metric " ++ name ++ " changeDelta must be non-negative")
          else if adverse direction soft hard then
            fail ("policy metric " ++ name ++ " hard threshold is weaker than soft")
          else
            return { direction, soft, hard, changeDelta, consecutive := consecutive.toNat, required, raw }
      | _ => fail ("policy metric " ++ name ++ " consecutive must be >= 2")
    | _, _ => fail ("policy metric " ++ name ++ " direction/required is invalid")

def normalizeRule (name : String) (value : Value) : Result Rule :=
  match value with
  | .dict raw => ruleOf name raw
  | _ => fail ("policy metric " ++ name ++ " has invalid fields")

def policyOf (policy : Dict) : Result Policy := do
  if !keysAre policy ["staleAfterMs", "baselineSamples", "metrics"] then
    fail "policy must contain staleAfterMs, baselineSamples, and metrics"
  else
    match positive? (← policy.item "staleAfterMs"), positive? (← policy.item "baselineSamples") with
    | some staleAfterMs, some baselineSamples =>
      match ← policy.item "metrics" with
      | .dict (first :: rest) => do
        let metrics ← (first :: rest).mapM fun entry => do
          return (entry.1, ← normalizeRule entry.1.str'.render entry.2)
        return { staleAfterMs, baselineSamples, metrics }
      | _ => fail "policy.metrics must be a non-empty object"
    | _, _ => fail "policy time/sample bounds must be positive integers"

def normalizePolicy (value : Value) : Result Policy :=
  match value with
  | .dict policy => policyOf policy
  | _ => fail "policy must contain staleAfterMs, baselineSamples, and metrics"

def Double.half : Double → Double
  | .finite q => roundDouble (q / 2)
  | x => x

/-- `statistics.median` -/
def median (values : List Double) : Double :=
  let sorted := values.insertionSort fun a b => (Number.float a).le (.float b) = true
  let middle := values.length / 2
  if values.length % 2 = 1 then sorted.getD middle .nan
  else Double.half (Double.add (sorted.getD (middle - 1) .nan) (sorted.getD middle .nan))

/-- What the run keeps of one metric: its streak and its known values. -/
structure Track where
  name : Value
  rule : Rule
  streak : Nat
  history : List Double

def Track.initial (entry : Value × Rule) : Track := ⟨entry.1, entry.2, 0, []⟩

def baselineOf (baselineSamples : Nat) (history : List Double) : Option Double :=
  if (history.take baselineSamples).length = baselineSamples then some (median (history.take baselineSamples))
  else none

/-- `delta >= rule["changeDelta"] > 0` against the baseline. -/
def movedBy (rule : Rule) (value : Number) (baseline : Double) : Result Bool := do
  let delta ← overflow (match rule.direction with
    | .max => value.sub? (.float baseline)
    | .min => (Number.float baseline).sub? value)
  return rule.changeDelta.le delta && (Number.int 0).lt rule.changeDelta

def changed (rule : Rule) (value : Number) : Option Double → Result Bool
  | none => .ok false
  | some baseline => movedBy rule value baseline

inductive Citation where
  | absent (metric fact : Value)
  | read (metric fact : Value) (rule : Dict) (baseline : Option Double) (streak : Nat)

inductive Finding where
  | lacking | hard | repeated | none
  deriving DecidableEq

/-- `fact or unknown("missing", name, "not supplied")` -/
def factOr (name : Value) (fact : Option Value) : Value :=
  let given := fact.getD .none
  if given.truthy then given
  else .dict [Dict.entry "state" (.str "missing"), Dict.entry "source" name,
    Dict.entry "detail" (.str "not supplied")]

/-- `metrics.get(name)` -/
def factOf (metrics : Dict) (name : Value) : Option Value :=
  (metrics.find? fun entry => name.eq entry.1).map Prod.snd

/-- The dict of a fact whose state is known. -/
def knownFact (fact : Option Value) : Option Dict :=
  match fact with
  | some (.dict d) => if (Dict.getD d "state" .none).isText "known" then some d else none
  | _ => none

/-- `float(value)` -/
def toFloat (value : Number) : Result Double := overflow value.toDouble?

def Track.read (track : Track) (baselineSamples : Nat) (fact : Dict) : Result (Track × Citation × Finding) := do
  match ← finite? (fact.getD "value" .none) with
  | none => fail ("known metric " ++ track.name.str'.render ++ " must be finite")
  | some value =>
    let baseline := baselineOf baselineSamples track.history
    let changed ← changed track.rule value baseline
    let troubled := adverse track.rule.direction value track.rule.soft || changed
    let streak := if troubled then track.streak + 1 else 0
    let recorded ← toFloat value
    let next := { track with streak, history := track.history ++ [recorded] }
    let finding := if adverse track.rule.direction value track.rule.hard then Finding.hard
      else if track.rule.consecutive ≤ streak then .repeated else .none
    return (next, .read track.name (.dict fact) track.rule.raw baseline streak, finding)

def Track.observe (baselineSamples : Nat) (metrics : Dict) (track : Track) :
    Result (Track × Citation × Finding) :=
  let fact := factOf metrics track.name
  match knownFact fact with
  | none =>
    .ok ({ track with streak := 0 }, .absent track.name (factOr track.name fact),
      if track.rule.required then .lacking else .none)
  | some known => track.read baselineSamples known

inductive Classification where
  | hardStop | unknown | degraded | suspect | healthy
  deriving DecidableEq

inductive Action where
  | stop | backoff | continue
  deriving DecidableEq

def Classification.action : Classification → Action
  | .hardStop | .unknown => .stop
  | .degraded => .backoff
  | .suspect | .healthy => .continue

structure Decision where
  sampleIndex : Nat
  level : Value
  classification : Classification
  reasons : List Value
  citations : List Citation

def namesWith (readings : List (Track × Citation × Finding)) (finding : Finding) : List Value :=
  (readings.filter fun r => r.2.2 = finding).map fun r => r.1.name

def suspects (readings : List (Track × Citation × Finding)) : List Value :=
  (readings.filter fun r => 0 < r.1.streak).map fun r => r.1.name

/-- A hard threshold goes before missing data, and missing data before a streak. -/
def classify (readings : List (Track × Citation × Finding)) : Classification × List Value :=
  if namesWith readings .hard ≠ [] then (.hardStop, namesWith readings .hard)
  else if namesWith readings .lacking ≠ [] then (.unknown, namesWith readings .lacking)
  else if namesWith readings .repeated ≠ [] then (.degraded, namesWith readings .repeated)
  else if suspects readings ≠ [] then (.suspect, suspects readings)
  else (.healthy, [])

structure Scan where
  tracks : List Track
  previousAt : Int
  previousLevel : Int
  healthyLevels : List Value
  decisions : List Decision

def Scan.initial (policy : Policy) : Scan := ⟨policy.metrics.map Track.initial, -1, -1, [], []⟩

/-- The level and the metrics of an observation, which follows the order of the plan. -/
def readSample (tested : List Value) (scan : Scan) (d : Dict) : Result (Value × Int × Int × Dict) :=
  let level := d.getD "level" .none
  match d.getD "metrics" .none with
  | .dict metrics =>
    if level.isIn tested then
      let levelIndex : Int := tested.findIdx fun known => known.eq level
      match d.getD "atMs" .none with
      | .int atMs =>
        if atMs < scan.previousAt ∨ levelIndex < scan.previousLevel then
          fail "observations must follow monotonic plan level/time order"
        else .ok (level, atMs, levelIndex, metrics)
      | _ => fail "observations must follow monotonic plan level/time order"
    else fail "observation level/metrics are not in the frozen plan"
  | _ => fail "observation level/metrics are not in the frozen plan"

/-- `value.get`, which only a dict has. -/
def getter (value : Value) : Result Dict :=
  match value with
  | .dict d => .ok d
  | _ => .error (.builtin .attributeError)

/-- One observation: the decision about it, and what the run keeps. -/
def Scan.observe (tested : List Value) (baselineSamples index : Nat) (scan : Scan) (sample : Value) :
    Result (Decision × Scan) := do
  let (level, atMs, levelIndex, metrics) ← readSample tested scan (← getter sample)
  let readings ← scan.tracks.mapM (Track.observe baselineSamples metrics)
  let (classification, reasons) := classify readings
  let decision : Decision :=
    { sampleIndex := index, level, classification, reasons, citations := readings.map fun r => r.2.1 }
  return (decision,
    { tracks := readings.map Prod.fst, previousAt := atMs, previousLevel := levelIndex
      healthyLevels := if classification = .healthy then scan.healthyLevels ++ [level]
        else scan.healthyLevels
      decisions := scan.decisions ++ [decision] })

/-- The run up to the first decision that is not to continue. -/
def Scan.run (tested : List Value) (baselineSamples : Nat) :
    Nat → Scan → List Value → Result (Scan × Option Decision)
  | _, scan, [] => .ok (scan, none)
  | index, scan, sample :: rest => do
    let (decision, next) ← scan.observe tested baselineSamples index sample
    if decision.classification.action = .continue then next.run tested baselineSamples (index + 1) rest
    else return (next, some decision)

/-- `a < b`, of two levels. -/
def levelLt (a b : Value) : Bool :=
  match a.number?, b.number? with
  | some m, some n => m.lt n
  | _, _ => false

/-- `max(levels)`, the first of equal ones. -/
def maxLevel : List Value → Option Value
  | [] => none
  | first :: rest => some (rest.foldl (fun best level => if levelLt best level then level else best) first)

structure KneeInterval where
  lowerTestedHealthy : Option Value
  upperTestedDegraded : Option Value
  censoredByTestedCeiling : Bool

/-- The outcome is that of the trigger; without one the run is censored. -/
structure Analysis where
  interval : KneeInterval
  policy : Policy
  decisions : List Decision
  trigger : Option Decision

def kneeInterval (healthyLevels : List Value) : Option Decision → KneeInterval
  | none => ⟨maxLevel healthyLevels, none, true⟩
  | some trigger => ⟨maxLevel (healthyLevels.filter fun level => levelLt level trigger.level),
      some trigger.level, false⟩

def testedLevels (frozen : Dict) : Result (List Value) := do
  match ← frozen.item "steps" with
  | .list steps => steps.mapM fun step => do (← subscriptable step).item "level"
  | _ => .error (.builtin .typeError)

def analyzeDegradation (plan : Value) (observations : List Value) (policy : Value) : Result Analysis := do
  let frozen ← validateEnvelopePlan plan
  let configured ← normalizePolicy policy
  let tested ← testedLevels frozen
  if observations.isEmpty then fail "at least one observation is required"
  else
    let (scan, trigger) ←
      (Scan.initial configured).run tested configured.baselineSamples 0 observations
    return { interval := kneeInterval scan.healthyLevels trigger, policy := configured
             decisions := scan.decisions, trigger }

end Sippycup.Envelope
