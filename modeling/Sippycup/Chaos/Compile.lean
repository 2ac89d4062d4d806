import Sippycup.Chaos.Profile

/-! Compilation of a profile against a frozen topology plan: a deterministic
list of commands that are not executed here. -/
namespace Sippycup.Chaos
open Sippycup.Python Sippycup.Ip

/-- Per-direction seed of the emulator. -/
def derivedSeed (seed : Int) (direction : Text) : Nat :=
  (Sha256.digestWords (intCodes seed ++ 58 :: direction.codes)).headD 0 % 2147483646 + 1

def renderInt (n : Int) : Text := ⟨intCodes n⟩

def renderNat (n : Nat) : Text := renderInt n

def renderNumber (d : Decimal) : Text := ⟨d.renderNumber⟩

def percentText (number : Text) : Text := number ++ "%"

def millisecondsText (number : Text) : Text := number ++ "ms"

section netem

def percentArgs (correlation : Option Text) : List Text := (correlation.map percentText).toList

def delayArgs (delay : Delay Text) : List Text :=
  [Text.ofString "delay", millisecondsText delay.milliseconds] ++
    match delay.jitter with
    | none => []
    | some jitter => [millisecondsText jitter] ++ percentArgs delay.correlation ++
        (delay.distribution.map fun d => [Text.ofString "distribution", d]).getD []

def lossArgs : Loss Text → List Text
  | .random percent correlation =>
    [Text.ofString "loss", Text.ofString "random", percentText percent] ++ percentArgs correlation
  | .gemodel start recovery bad good =>
    [Text.ofString "loss", Text.ofString "gemodel", percentText start, percentText recovery,
      percentText bad, percentText good]

def effectArgs (name : String) (effect : Effect Text) : List Text :=
  [Text.ofString name, percentText effect.percent] ++ percentArgs effect.correlation

def reorderArgs (reorder : Reorder Text) : List Text :=
  [Text.ofString "reorder", percentText reorder.percent] ++ percentArgs reorder.correlation ++
    (reorder.gap.map fun gap => [Text.ofString "gap", renderInt gap]).getD []

def limitArgs (packets : Int) : List Text := [Text.ofString "limit", renderInt packets]

def argsOf {α : Type} (render : α → List Text) (value : Option α) : List Text :=
  (value.map render).getD []

/-- The settings as arguments, without the seed. -/
def settingArgs (i : Impairment Text) : List Text :=
  argsOf limitArgs i.queuePackets ++ argsOf delayArgs i.delay ++ argsOf lossArgs i.loss ++
    argsOf (effectArgs "corrupt") i.corrupt ++ argsOf (effectArgs "duplicate") i.duplicate ++
      argsOf reorderArgs i.reorder

def netemArgs (i : Impairment Text) (seed : Nat) : List Text :=
  let args := settingArgs i
  if args.isEmpty then [] else args ++ [Text.ofString "seed", renderNat seed]

end netem

inductive Operation where
  | setMtu (mtu : Int)
  | addRoot
  | addFilter (protocol : Text) (priority : Nat) (selector network : Text)
  | addRate (rate : Rate)
  | addNetem (parent : Text) (args : List Text)
  deriving DecidableEq

def words (names : List String) : List Text := names.map Text.ofString

def RateBound.args : RateBound → List Text
  | .latencyMilliseconds n => [Text.ofString "latency", millisecondsText (renderInt n)]
  | .limitBytes n => [Text.ofString "limit", renderInt n]

def Operation.argv (interface : Text) : Operation → List Text
  | .setMtu mtu => words ["ip", "link", "set", "dev"] ++ interface :: Text.ofString "mtu" :: [renderInt mtu]
  | .addRoot => words ["tc", "qdisc", "add", "dev"] ++ interface ::
      words ["root", "handle", "1:", "prio", "bands", "3"]
  | .addFilter protocol priority selector network =>
    words ["tc", "filter", "add", "dev"] ++ interface :: Text.ofString "protocol" :: protocol ::
      words ["parent", "1:", "prio"] ++ renderNat priority :: Text.ofString "flower" :: selector ::
        network :: words ["flowid", "1:1"]
  | .addRate rate =>
    words ["tc", "qdisc", "add", "dev"] ++ interface ::
      words ["parent", "1:1", "handle", "10:", "tbf", "rate"] ++ (renderInt rate.kbit ++ "kbit") ::
        Text.ofString "burst" :: renderInt rate.burstBytes :: rate.bound.args
  | .addNetem parent args =>
    words ["tc", "qdisc", "add", "dev"] ++ interface :: Text.ofString "parent" :: parent ::
      words ["handle", "20:", "netem"] ++ args

def namespacePath (namespace_ : Text) : Text := Text.ofString "/run/netns/" ++ namespace_

/-- Enters the namespace, unless it is the host. -/
def wrap (namespace_ : Text) (argv : List Text) : List Text :=
  if namespace_ = hostNamespace then argv
  else Text.ofString "nsenter" :: (Text.ofString "--net=" ++ namespacePath namespace_) :: argv

structure PlanCommand where
  id : Text
  direction : Text
  namespace_ : Text
  interface : Text
  operation : Operation
  owns : Text
  deriving DecidableEq

def PlanCommand.argv (c : PlanCommand) : List Text := wrap c.namespace_ (c.operation.argv c.interface)

structure CompiledDirection where
  direction : Text
  attachment : JsonDict
  derivedSeed : Option Nat
  impairment : JsonValue
  targetFilters : List JsonDict
  commandIds : List Text

structure ImpairmentPlan where
  name : Text
  sourceSha256 : Text
  seed : Int
  durationSeconds : Int
  direction : Direction
  planSha256 : Text
  targetScopeSha256 : JsonValue
  snapshotSha256 : JsonValue
  dangerous : Bool
  owner : Text
  directions : List CompiledDirection
  commands : List PlanCommand

section json
open JsonDict (entry)

def PlanCommand.toDict (c : PlanCommand) : JsonDict :=
  [entry "id" (.str c.id), entry "direction" (.str c.direction),
    entry "namespace" (.str c.namespace_), entry "argv" (texts c.argv), entry "owns" (.str c.owns)]

def CompiledDirection.toDict (d : CompiledDirection) : JsonDict :=
  [entry "direction" (.str d.direction), entry "attachment" (.dict d.attachment),
    entry "derivedSeed" ((d.derivedSeed.map fun n => JsonValue.int n).getD .null),
    entry "impairment" d.impairment, entry "targetFilters" (.list (d.targetFilters.map .dict)),
    entry "commandIds" (texts d.commandIds)]

def impairmentPlanVersion : String := "sippycup.dev/chaos-impairment-plan/v1"

def ImpairmentPlan.toJson (p : ImpairmentPlan) : JsonValue :=
  .dict [entry "apiVersion" (str impairmentPlanVersion), entry "kind" (str "ChaosImpairmentPlan"),
    entry "noChange" (.bool true),
    entry "profile" (.dict [entry "name" (.str p.name), entry "sourceSha256" (.str p.sourceSha256),
      entry "seed" (.int p.seed), entry "durationSeconds" (.int p.durationSeconds),
      entry "direction" (str p.direction.value)]),
    entry "topology" (.dict [entry "planSha256" (.str p.planSha256),
      entry "targetScopeSha256" p.targetScopeSha256, entry "snapshotSha256" p.snapshotSha256,
      entry "dangerous" (.bool p.dangerous)]),
    entry "owner" (.str p.owner),
    entry "directions" (.list (p.directions.map fun d => .dict d.toDict)),
    entry "commands" (.list (p.commands.map fun c => .dict c.toDict)),
    entry "execution" (.dict [entry "performed" (.bool false),
      entry "requiresLifecycleApply" (.bool true),
      entry "expiresAfterSeconds" (.int p.durationSeconds)])]

def NormalizedProfile.toJson (p : NormalizedProfile) : JsonValue :=
  .dict [entry "apiVersion" (str profileVersion), entry "kind" (str "ChaosProfile"),
    entry "metadata" (.dict p.metadata), entry "seed" (.int p.seed),
    entry "durationSeconds" (.int p.durationSeconds), entry "direction" (str p.direction.value),
    entry "directions" (.dict (p.directions.map fun (name, i) => (name, i.json)))]

end json

/-- A dict that an earlier check has found in its place. -/
def subDict : JsonValue → JsonDict
  | .dict entries => entries
  | _ => []

/-- A text that an earlier check has found in its place. -/
def textAt (d : JsonDict) (key : Text) : Text := ((d.find key).text?).getD default

/-- `text.split(" ", 1)` of a text with a blank. -/
def splitBlank (t : Text) : Text × Text :=
  (⟨t.codes.takeWhile (· ≠ 32)⟩, ⟨(t.codes.dropWhile (· ≠ 32)).drop 1⟩)

/-- What the commands of one direction are compiled from. -/
structure Target where
  direction : Text
  attachment : JsonDict
  filters : List JsonDict
  owner : Text
  seed : Nat

namespace Target

def namespace_ (t : Target) : Text := textAt t.attachment "namespace"

def interface (t : Target) : Text := textAt t.attachment "interface"

def command (t : Target) (id : Text) (operation : Operation) (tag : Text) : PlanCommand where
  id := t.direction ++ id
  direction := t.direction
  namespace_ := t.namespace_
  interface := t.interface
  operation
  owns := t.owner ++ (Text.ofString ":" ++ t.direction ++ tag)

def mtuCommands (t : Target) (mtu : Option Int) : List PlanCommand :=
  (mtu.map fun mtu => t.command "-set-mtu" (.setMtu mtu) ":mtu").toList

def filterOperation (index : Nat) (target : JsonDict) : Operation :=
  let (selector, network) := splitBlank (textAt target "match")
  .addFilter (textAt target "tcProtocol") (100 + index) selector network

def filterCommands (t : Target) : Nat → List JsonDict → List PlanCommand
  | _, [] => []
  | index, target :: rest =>
    t.command (Text.ofString "-filter-" ++ renderNat (index + 1)) (filterOperation index target)
      (Text.ofString ":filter:" ++ renderNat (100 + index)) :: t.filterCommands (index + 1) rest

def rateCommands (t : Target) (rate : Option Rate) : List PlanCommand :=
  (rate.map fun rate => t.command "-rate" (.addRate rate) ":10:").toList

def netemCommands (t : Target) (rate : Option Rate) (args : List Text) : List PlanCommand :=
  if args.isEmpty then []
  else
    let parent : Text := if rate.isSome then Text.ofString "10:1" else Text.ofString "1:1"
    [t.command "-netem" (.addNetem parent args) ":20:"]

/-- The root class and what hangs below it; nothing without an emulator or a rate. -/
def shapingCommands (t : Target) (rate : Option Rate) (args : List Text) : List PlanCommand :=
  if args.isEmpty ∧ rate.isNone then []
  else t.command "-root" .addRoot ":1:" :: t.filterCommands 0 t.filters ++ t.rateCommands rate ++
    t.netemCommands rate args

def commands (t : Target) (i : Impairment Decimal) : List PlanCommand :=
  let args := netemArgs (i.map renderNumber) t.seed
  t.mtuCommands i.mtu ++ t.shapingCommands i.rate args

def compiled (t : Target) (i : Impairment Decimal) : CompiledDirection where
  direction := t.direction
  attachment := t.attachment
  derivedSeed := if (netemArgs (i.map renderNumber) t.seed).isEmpty then none else some t.seed
  impairment := i.json
  targetFilters := t.filters
  commandIds := (t.commands i).map PlanCommand.id

end Target

def checkMtu (plan : JsonDict) (dangerous : Bool) (mtu : Option Int) : Result Unit :=
  match mtu with
  | none => .ok ()
  | some _ => do
    refuse (dangerous || !(plan.find "topology").isText "disposable-router")
      "MTU impairments are only permitted on disposable-router interfaces dedicated to the run"
    let features := subDict ((subDict (plan.find "capabilities")).find "features")
    refuse (!(features.find "mtu").isText "available") "topology did not prove MTU capability"

structure Topology where
  plan : JsonDict
  targets : List JsonDict
  dangerous : Bool

def Topology.target (t : Topology) (owner : Text) (seed : Int) (direction : Text) : Target where
  direction
  attachment := subDict ((subDict (t.plan.find "attachments")).find direction)
  filters := t.targets.filter fun target => (target.find "direction").isText direction
  owner
  seed := derivedSeed seed direction

def compileDirection (topology : Topology) (owner : Text) (seed : Int) (direction : Text)
    (i : Impairment Decimal) : Result (CompiledDirection × List PlanCommand) := do
  let target := topology.target owner seed direction
  refuse target.filters.isEmpty s!"topology has no target filters for {direction.render}"
  checkMtu topology.plan topology.dangerous i.mtu
  return (target.compiled i, target.commands i)

def compileDirections (topology : Topology) (owner : Text) (seed : Int) :
    List (Text × Impairment Decimal) → Result (List CompiledDirection × List PlanCommand)
  | [] => .ok ([], [])
  | (direction, i) :: rest => do
    let (first, commands) ← compileDirection topology owner seed direction i
    let (others, more) ← compileDirections topology owner seed rest
    return (first :: others, commands ++ more)

def readDangerous (plan : JsonDict) : Result Bool :=
  match plan.find "dangerous" with
  | .bool dangerous => .ok dangerous
  | _ => profileError "topology dangerous flag is malformed"

/-- The given digest of the source, or else that of the normalised profile. -/
def readSource (source : JsonValue) (normalized : NormalizedProfile) : Result Text :=
  let malformed := profileError "profile source SHA-256 is malformed"
  if source.truthy then
    match source with
    | .str t => if sha256Ok t then .ok t else malformed
    | _ => malformed
  else .ok (digest normalized.toJson)

def shortDigest (t : Text) : Text := ⟨t.codes.take 8⟩

def ownerStem (topology : JsonValue) : Text :=
  Text.ofString "sippycup-" ++ shortDigest (digest topology) ++ "-"

def compileNormalized (topology : Topology) (normalized : NormalizedProfile) (source : JsonValue) :
    Result ImpairmentPlan := do
  let attachments := subDict (topology.plan.find "attachments")
  refuse (!normalized.directions.all fun d => attachments.contains d.1)
    "profile direction is not covered by the frozen topology attachments"
  let document := JsonValue.dict topology.plan
  let owner := ownerStem document ++ shortDigest (digest normalized.toJson)
  let (directions, commands) ←
    compileDirections topology owner normalized.seed normalized.directions
  let sourceSha256 ← readSource source normalized
  return {
    name := normalized.name, sourceSha256, seed := normalized.seed
    durationSeconds := normalized.durationSeconds, direction := normalized.direction
    planSha256 := digest document
    targetScopeSha256 := topology.plan.find "targetScopeSha256"
    snapshotSha256 := topology.plan.find "snapshotSha256"
    dangerous := topology.dangerous, owner, directions, commands }

/-- The flag is read between the two checks of the profile's directions. -/
def compileProfile (isAlnum : Nat → Bool) (topology profile source : JsonValue) :
    Result ImpairmentPlan := do
  let (plan, targets) ← validateTopology topology
  let normalized ← validateProfile isAlnum profile
  let dangerous ← readDangerous plan
  compileNormalized { plan, targets, dangerous } normalized source

end Sippycup.Chaos
