import Sippycup.Chaos.Validate

/-! Chaos profiles: validation and normalisation of the reviewed settings. A
number is judged and rendered as the decimal of its own text. A profile comes
from YAML; its other scalars and keys that are no text are refused wherever
they stand, so a profile is a JSON document here. -/
namespace Sippycup.Chaos
open Sippycup.Python Sippycup.Ip

structure Delay (α : Type) where
  milliseconds : α
  jitter : Option α
  correlation : Option α
  distribution : Option Text
  deriving DecidableEq

inductive Loss (α : Type) where
  | random (percent : α) (correlation : Option α)
  | gemodel (start recovery badLoss goodLoss : α)
  deriving DecidableEq

/-- Duplication or corruption. -/
structure Effect (α : Type) where
  percent : α
  correlation : Option α
  deriving DecidableEq

structure Reorder (α : Type) where
  percent : α
  correlation : Option α
  gap : Option Int
  deriving DecidableEq

inductive RateBound where
  | latencyMilliseconds (n : Int)
  | limitBytes (n : Int)
  deriving DecidableEq

structure Rate where
  kbit : Int
  burstBytes : Int
  bound : RateBound
  deriving DecidableEq

/-- The settings of one direction, over the type its percentages and delays have. -/
structure Impairment (α : Type) where
  delay : Option (Delay α)
  loss : Option (Loss α)
  reorder : Option (Reorder α)
  duplicate : Option (Effect α)
  corrupt : Option (Effect α)
  queuePackets : Option Int
  rate : Option Rate
  mtu : Option Int
  deriving DecidableEq

section map
variable {α β : Type}

def Delay.map (f : α → β) (d : Delay α) : Delay β :=
  ⟨f d.milliseconds, d.jitter.map f, d.correlation.map f, d.distribution⟩

def Loss.map (f : α → β) : Loss α → Loss β
  | .random percent correlation => .random (f percent) (correlation.map f)
  | .gemodel start recovery bad good => .gemodel (f start) (f recovery) (f bad) (f good)

def Effect.map (f : α → β) (e : Effect α) : Effect β := ⟨f e.percent, e.correlation.map f⟩

def Reorder.map (f : α → β) (r : Reorder α) : Reorder β :=
  ⟨f r.percent, r.correlation.map f, r.gap⟩

def Impairment.map (f : α → β) (i : Impairment α) : Impairment β where
  delay := i.delay.map (Delay.map f)
  loss := i.loss.map (Loss.map f)
  reorder := i.reorder.map (Reorder.map f)
  duplicate := i.duplicate.map (Effect.map f)
  corrupt := i.corrupt.map (Effect.map f)
  queuePackets := i.queuePackets
  rate := i.rate
  mtu := i.mtu

end map

def integer (value : JsonValue) (field : String) (minimum maximum : Int) : Result Int :=
  match value with
  | .int n =>
    if minimum ≤ n ∧ n ≤ maximum then .ok n
    else profileError s!"{field} must be between {minimum} and {maximum}"
  | _ => profileError s!"{field} must be an integer"

def ranged (d : Decimal) (field : String) (maximum : Nat) : Result Decimal :=
  if 0 ≤ d.value ∧ d.value ≤ maximum then .ok d
  else profileError s!"{field} must be between 0 and {maximum}"

def decimal (value : JsonValue) (field : String) (maximum : Nat) : Result Decimal :=
  match value with
  | .int n =>
    if 10 ^ Json.maxStrDigits ≤ n.natAbs then .error (.builtin .valueError)
    else ranged (.ofInt n) field maximum
  | .float (.finite x) => ranged (.ofText x.repr) field maximum
  | _ => profileError s!"{field} must be a finite number"

def percentLimit : Nat := 100

def millisecondsLimit : Nat := 60000

/-- Fails with `message` unless the decimal is greater than zero. -/
def requirePositive (d : Decimal) (message : String) : Result Unit :=
  refuse (decide (d.value ≤ 0)) message

/-- Reads a setting if the dict has it. -/
def optional {α : Type} (d : JsonDict) (key : Text) (read : JsonValue → Result α) :
    Result (Option α) :=
  match d.get? key with
  | none => .ok none
  | some value => do return some (← read value)

def distributions : List Text := ["uniform", "normal", "pareto", "paretonormal"]

def readDistribution (field : String) (value : JsonValue) : Result Text :=
  let message := s!"{field}.distribution is not supported"
  match value with
  | .str t => if t ∈ distributions then .ok t else profileError message
  | value => if value.hashable then profileError message else .error (.builtin .typeError)

def readPercent (field : String) (value : JsonValue) : Result Decimal :=
  decimal value field percentLimit

def readJitter (delay : JsonDict) (field : String) (milliseconds : Decimal) :
    Result (Option Decimal) :=
  match delay.get? "jitterMilliseconds" with
  | some value => do
    let jitter ← decimal value s!"{field}.jitterMilliseconds" millisecondsLimit
    refuse (decide (jitter.value ≤ 0 ∨ milliseconds.value < jitter.value))
      s!"{field}.jitterMilliseconds must be greater than zero and no larger than milliseconds"
    return some jitter
  | none => do
    refuse (delay.contains "correlationPercent" || delay.contains "distribution")
      s!"{field} correlation/distribution requires jitterMilliseconds"
    return none

def delayKeys : List Text :=
  ["milliseconds", "jitterMilliseconds", "correlationPercent", "distribution"]

def normalizeDelay (field : String) (value : JsonValue) : Result (Delay Decimal) := do
  let delay ← expectMapping value field
  exactKeys delay field delayKeys ["milliseconds"]
  let milliseconds ← decimal (← delay.item "milliseconds") s!"{field}.milliseconds" millisecondsLimit
  requirePositive milliseconds s!"{field}.milliseconds must be greater than zero"
  let jitter ← readJitter delay field milliseconds
  let correlation ← optional delay "correlationPercent" (readPercent s!"{field}.correlationPercent")
  let distribution ← optional delay "distribution" (readDistribution field)
  return { milliseconds, jitter, correlation, distribution }

def randomKeys : List Text := ["model", "percent", "correlationPercent"]

def gemodelKeys : List Text :=
  ["model", "startPercent", "recoveryPercent", "badLossPercent", "goodLossPercent"]

def normalizeRandom (field : String) (loss : JsonDict) : Result (Loss Decimal) := do
  exactKeys loss field randomKeys ["model", "percent"]
  let percent ← readPercent s!"{field}.percent" (← loss.item "percent")
  requirePositive percent s!"{field}.percent must be greater than zero"
  let correlation ← optional loss "correlationPercent" (readPercent s!"{field}.correlationPercent")
  return .random percent correlation

def normalizeGemodel (field : String) (loss : JsonDict) : Result (Loss Decimal) := do
  exactKeys loss field gemodelKeys gemodelKeys
  let start ← readPercent s!"{field}.startPercent" (← loss.item "startPercent")
  let recovery ← readPercent s!"{field}.recoveryPercent" (← loss.item "recoveryPercent")
  let badLoss ← readPercent s!"{field}.badLossPercent" (← loss.item "badLossPercent")
  let goodLoss ← readPercent s!"{field}.goodLossPercent" (← loss.item "goodLossPercent")
  refuse (decide (start.value ≤ 0 ∨ recovery.value ≤ 0))
    s!"{field} startPercent and recoveryPercent must be greater than zero"
  return .gemodel start recovery badLoss goodLoss

def normalizeLoss (field : String) (value : JsonValue) : Result (Loss Decimal) := do
  let loss ← expectMapping value field
  let model := loss.find "model"
  if model.isText "random" then normalizeRandom field loss
  else if model.isText "gemodel" then normalizeGemodel field loss
  else profileError s!"{field}.model must be random or gemodel"

def normalizePercentEffect (field : String) (value : JsonValue) : Result (Effect Decimal) := do
  let effect ← expectMapping value field
  exactKeys effect field ["percent", "correlationPercent"] ["percent"]
  let percent ← readPercent s!"{field}.percent" (← effect.item "percent")
  requirePositive percent s!"{field}.percent must be greater than zero"
  let correlation ← optional effect "correlationPercent" (readPercent s!"{field}.correlationPercent")
  return { percent, correlation }

def normalizeReorder (field : String) (value : JsonValue) : Result (Reorder Decimal) := do
  let original ← expectMapping value field
  exactKeys original field ["percent", "correlationPercent", "gap"] ["percent"]
  let percent ← readPercent s!"{field}.percent" (← original.item "percent")
  requirePositive percent s!"{field}.percent must be greater than zero"
  let correlation ← optional original "correlationPercent"
    (readPercent s!"{field}.correlationPercent")
  let gap ← optional original "gap" fun value => integer value s!"{field}.gap" 1 1000000
  return { percent, correlation, gap }

def rateKeys : List Text := ["kbit", "burstBytes", "latencyMilliseconds", "limitBytes"]

def normalizeRate (field : String) (value : JsonValue) : Result Rate := do
  let rate ← expectMapping value field
  exactKeys rate field rateKeys ["kbit", "burstBytes"]
  refuse (rate.contains "latencyMilliseconds" == rate.contains "limitBytes")
    s!"{field} requires exactly one of latencyMilliseconds or limitBytes"
  let kbit ← integer (← rate.item "kbit") s!"{field}.kbit" 8 10000000
  let burstBytes ← integer (← rate.item "burstBytes") s!"{field}.burstBytes" 256 16777216
  match rate.get? "latencyMilliseconds" with
  | some latency => do
    let n ← integer latency s!"{field}.latencyMilliseconds" 1 60000
    return { kbit, burstBytes, bound := .latencyMilliseconds n }
  | none => do
    let n ← integer (← rate.item "limitBytes") s!"{field}.limitBytes" burstBytes 1073741824
    return { kbit, burstBytes, bound := .limitBytes n }

def impairmentKeys : List Text :=
  ["delay", "loss", "reorder", "duplicate", "corrupt", "queuePackets", "rate", "mtu"]

/-- Reordering needs a delay to reorder within. -/
def readReorder (impairment : JsonDict) (field : String) (delay : Option (Delay Decimal)) :
    Result (Option (Reorder Decimal)) :=
  optional impairment "reorder" fun value => do
    refuse delay.isNone s!"{field}.reorder requires a non-zero delay"
    normalizeReorder s!"{field}.reorder" value

def readQueue (impairment : JsonDict) (field : String) (netem : Bool) : Result (Option Int) :=
  optional impairment "queuePackets" fun value => do
    refuse (!netem)
      s!"{field}.queuePackets requires a netem impairment; it cannot stand alone or ambiguously replace a rate queue"
    integer value s!"{field}.queuePackets" 1 1000000

def normalizeImpairment (field : String) (value : JsonValue) : Result (Impairment Decimal) := do
  let impairment ← expectMapping value field
  exactKeys impairment field impairmentKeys []
  let delay ← optional impairment "delay" (normalizeDelay s!"{field}.delay")
  let loss ← optional impairment "loss" (normalizeLoss s!"{field}.loss")
  let reorder ← readReorder impairment field delay
  let duplicate ← optional impairment "duplicate" (normalizePercentEffect s!"{field}.duplicate")
  let corrupt ← optional impairment "corrupt" (normalizePercentEffect s!"{field}.corrupt")
  let queuePackets ← readQueue impairment field
    (delay.isSome || loss.isSome || reorder.isSome || duplicate.isSome || corrupt.isSome)
  let rate ← optional impairment "rate" (normalizeRate s!"{field}.rate")
  let mtu ← optional impairment "mtu" fun value => integer value s!"{field}.mtu" 1280 9000
  return { delay, loss, reorder, duplicate, corrupt, queuePackets, rate, mtu }

section json
open JsonDict (entry)

/-- `_json_number` -/
def jsonNumber (d : Decimal) : JsonValue :=
  if d.isIntegral then .int d.toInt else .float (.finite (.ofDecimal d))

def item? {α : Type} (key : String) (render : α → JsonValue) (value : Option α) : JsonDict :=
  match value with
  | none => []
  | some v => [entry key (render v)]

def Delay.toDict (d : Delay JsonValue) : JsonDict :=
  entry "milliseconds" d.milliseconds :: item? "jitterMilliseconds" id d.jitter ++
    item? "correlationPercent" id d.correlation ++ item? "distribution" .str d.distribution

def Loss.toDict : Loss JsonValue → JsonDict
  | .random percent correlation =>
    entry "model" (str "random") :: entry "percent" percent ::
      item? "correlationPercent" id correlation
  | .gemodel start recovery bad good =>
    [entry "model" (str "gemodel"), entry "startPercent" start, entry "recoveryPercent" recovery,
      entry "badLossPercent" bad, entry "goodLossPercent" good]

def Effect.toDict (e : Effect JsonValue) : JsonDict :=
  entry "percent" e.percent :: item? "correlationPercent" id e.correlation

def Reorder.toDict (r : Reorder JsonValue) : JsonDict :=
  entry "percent" r.percent :: item? "correlationPercent" id r.correlation ++ item? "gap" .int r.gap

def Rate.toDict (r : Rate) : JsonDict :=
  [entry "kbit" (.int r.kbit), entry "burstBytes" (.int r.burstBytes),
    match r.bound with
    | .latencyMilliseconds n => entry "latencyMilliseconds" (.int n)
    | .limitBytes n => entry "limitBytes" (.int n)]

def Impairment.toDict (i : Impairment JsonValue) : JsonDict :=
  item? "delay" (.dict ∘ Delay.toDict) i.delay ++ item? "loss" (.dict ∘ Loss.toDict) i.loss ++
    item? "reorder" (.dict ∘ Reorder.toDict) i.reorder ++
      item? "duplicate" (.dict ∘ Effect.toDict) i.duplicate ++
        item? "corrupt" (.dict ∘ Effect.toDict) i.corrupt ++
          item? "queuePackets" .int i.queuePackets ++ item? "rate" (.dict ∘ Rate.toDict) i.rate ++
            item? "mtu" .int i.mtu

/-- `_json_impairment` -/
def Impairment.json (i : Impairment Decimal) : JsonValue := .dict (i.map jsonNumber).toDict

end json

def profileVersion : String := "sippycup.dev/chaos-profile/v1"

def profileKeys : List Text :=
  ["apiVersion", "kind", "metadata", "seed", "durationSeconds", "direction", "directions"]

structure NormalizedProfile where
  metadata : JsonDict
  name : Text
  seed : Int
  durationSeconds : Int
  direction : Direction
  directions : List (Text × Impairment Decimal)

/-- One to 63 letters, digits, dots and hyphens, the first a letter or digit; what
counts as one is for the interpreter's tables to say. -/
def identifierOk (isAlnum : Nat → Bool) (name : Text) : Bool :=
  match name.codes with
  | [] => false
  | first :: _ => decide (name.length ≤ 63) && isAlnum first &&
      name.codes.all fun c => isAlnum c || [45, 46].contains c

def readName (isAlnum : Nat → Bool) (metadata : JsonDict) : Result Text := do
  match ← metadata.item "name" with
  | .str name =>
    refuse (!identifierOk isAlnum name) "profile.metadata.name is not a safe profile identifier"
    return name
  | _ => profileError "profile.metadata.name is not a safe profile identifier"

def descriptionOk : JsonValue → Bool
  | .str t => decide (1 ≤ t.length ∧ t.length ≤ 240)
  | _ => false

def checkDescription (metadata : JsonDict) : Result Unit :=
  match metadata.get? "description" with
  | none => .ok ()
  | some value => refuse (!descriptionOk value) "profile.metadata.description must be 1-240 characters"

def profileDirections : List Direction := [.egress, .ingress, .bidirectional, .asymmetric]

def readDirection (value : JsonValue) : Result Direction :=
  let message := "profile.direction must be egress, ingress, bidirectional, or asymmetric"
  match value with
  | .str t =>
    match profileDirections.find? fun d => Text.ofString d.value = t with
    | some d => .ok d
    | none => profileError message
  | value => if value.hashable then profileError message else .error (.builtin .typeError)

def normalizeDirections (directions : JsonDict) : List String → Result (List (Text × Impairment Decimal))
  | [] => .ok []
  | name :: rest => do
    let impairment ← normalizeImpairment s!"profile.directions.{name}" (← directions.item name)
    return (Text.ofString name, impairment) :: (← normalizeDirections directions rest)

/-- Normalised settings compare by the values of their decimals. -/
def sameSettings (directions : List (Text × Impairment Decimal)) : Bool :=
  match directions with
  | [(_, egress), (_, ingress)] => decide (egress.map Decimal.value = ingress.map Decimal.value)
  | _ => false

def checkSymmetry (direction : Direction) (directions : List (Text × Impairment Decimal)) :
    Result Unit :=
  match direction with
  | .bidirectional =>
    refuse (!sameSettings directions)
      "bidirectional profiles require identical egress and ingress settings; use asymmetric for different settings"
  | .asymmetric =>
    refuse (sameSettings directions) "asymmetric profiles require different egress and ingress settings"
  | _ => .ok ()

def validateProfile (isAlnum : Nat → Bool) (profile : JsonValue) : Result NormalizedProfile := do
  let document ← expectMapping profile "profile"
  exactKeys document "profile" profileKeys profileKeys
  refuse (!(document.find "apiVersion").isText profileVersion)
    s!"profile.apiVersion must be {profileVersion}"
  refuse (!(document.find "kind").isText "ChaosProfile") "profile.kind must be ChaosProfile"
  let metadata ← expectMapping (← document.item "metadata") "profile.metadata"
  exactKeys metadata "profile.metadata" ["name", "description"] ["name"]
  let name ← readName isAlnum metadata
  checkDescription metadata
  let seed ← integer (← document.item "seed") "profile.seed" 1 2147483647
  let durationSeconds ← integer (← document.item "durationSeconds") "profile.durationSeconds" 1 3600
  let direction ← readDirection (← document.item "direction")
  let directions ← expectMapping (← document.item "directions") "profile.directions"
  refuse (!directions.keys.all fun key => directionNames.contains key)
    "profile.directions may only contain egress and ingress"
  refuse (!direction.requested.all fun name => directions.contains name)
    (s!"profile.direction {direction.value} requires directions " ++
      ", ".intercalate direction.requested)
  refuse (!directions.keys.all fun key => direction.requested.any fun name => Text.ofString name = key)
    (s!"profile.direction {direction.value} requires directions " ++
      ", ".intercalate direction.requested)
  let normalized ← normalizeDirections directions direction.requested
  checkSymmetry direction normalized
  return { metadata, name, seed, durationSeconds, direction, directions := normalized }

end Sippycup.Chaos
