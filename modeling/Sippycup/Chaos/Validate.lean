import Sippycup.Chaos.Topology

/-! The profile compiler's own check of a topology plan, which is an untrusted
JSON document there: kind, snapshot digest, capabilities, target filters, scope
digest and attachments. -/
namespace Sippycup.Chaos
open Sippycup.Python Sippycup.Ip

def profileError {α : Type} (message : String) : Result α := .error (.own (.profile message))

/-- Fails with `message` where `bad` holds. -/
def refuse (bad : Bool) (message : String) : Result Unit :=
  if bad then profileError message else .ok ()

def expectMapping (value : JsonValue) (field : String) : Result JsonDict :=
  match value with
  | .dict entries => .ok entries
  | _ => profileError s!"{field} must be a mapping with string keys"

def exactKeys (value : JsonDict) (field : String) (allowed required : List Text) : Result Unit := do
  let unknown := value.keys.filter fun key => key ∉ allowed
  refuse (!unknown.isEmpty) s!"{field} contains unknown keys: {joinSorted unknown}"
  let missing := required.filter fun key => !value.contains key
  refuse (!missing.isEmpty) s!"{field} is missing required keys: {joinSorted missing}"

def directionNames : List Text := ["egress", "ingress"]

def isTrue : JsonValue → Bool
  | .bool b => b
  | _ => false

def isFalse : JsonValue → Bool
  | .bool b => !b
  | _ => false

def isEmptyList : JsonValue → Bool
  | .list [] => true
  | _ => false

/-- The pair of kind and flag is looked up in a set, which hashes both. -/
def readKind (plan : JsonDict) : Result TopologyKind :=
  let kind := plan.find "topology"
  let dangerous := plan.find "dangerous"
  if !(kind.hashable && dangerous.hashable) then .error (.builtin .typeError)
  else if kind.isText "disposable-router" && dangerous.isBool false then .ok .disposableRouter
  else if kind.isText "dangerous-host-network" && dangerous.isBool true then .ok .dangerousHostNetwork
  else profileError "topology kind and dangerous flag are inconsistent"

def requiredFeatures : TopologyKind → List Feature
  | .disposableRouter => [.iproute2, .tc, .netAdmin, .netem, .classifier, .sysAdmin, .pasta]
  | .dangerousHostNetwork => [.iproute2, .tc, .netAdmin, .netem, .classifier]

def checkFeatures (available : JsonDict) : List Feature → Result Unit
  | [] => .ok ()
  | f :: rest => do
    refuse (!(available.find f.key).isText "available") s!"topology capability {f.key} is not available"
    checkFeatures available rest

def notCanonical : String := "target filter network is not canonical CIDR"

def widened : String := "target filter was widened or is internally inconsistent"

/-- The network of a filter, under its own text. An integer reads as an address,
whose text it cannot equal. -/
def filterNetwork (value : JsonValue) : Result Network :=
  match value with
  | .str text =>
    match ipNetwork text with
    | .ok network => if network.text = text then .ok network else profileError widened
    | .error _ => profileError notCanonical
  | .int n => if 0 ≤ n ∧ n < 2 ^ 128 then profileError widened else profileError notCanonical
  | .bool _ => profileError widened
  | _ => profileError notCanonical

structure FilterMarker where
  direction : Text
  network : Text
  deriving DecidableEq

def filterKeys : List Text := ["direction", "family", "network", "tcProtocol", "match"]

def filterDirection (attachments : JsonDict) (value : JsonValue) : Result Text :=
  let message := "target filter direction has no topology attachment"
  match value with
  | .str direction =>
    if direction ∈ directionNames ∧ attachments.contains direction then .ok direction
    else profileError message
  | value => if value.hashable then profileError message else .error (.builtin .typeError)

def checkFilter (attachments : JsonDict) (index : Nat) (item : JsonValue) :
    Result (JsonDict × FilterMarker) := do
  let field := s!"topology.targetFilters[{index}]"
  let target ← expectMapping item field
  exactKeys target field filterKeys filterKeys
  let direction ← filterDirection attachments (← target.item "direction")
  let network ← filterNetwork (← target.item "network")
  let family ← target.item "family"
  let protocol ← target.item "tcProtocol"
  let match_ ← target.item "match"
  refuse (!(family.isText (familyOf network) && protocol.isText (protocolOf network) &&
    match_.isText (matchOf direction network.text))) widened
  return (target, ⟨direction, network.text⟩)

/-- Validated filters with their markers, given the markers seen before. -/
def checkFilters (attachments : JsonDict) :
    List FilterMarker → Nat → List JsonValue → Result (List (JsonDict × FilterMarker))
  | _, _, [] => .ok []
  | seen, index, item :: rest => do
    let (target, marker) ← checkFilter attachments index item
    refuse (decide (marker ∈ seen)) "topology plan contains duplicate target filters"
    return (target, marker) :: (← checkFilters attachments (marker :: seen) (index + 1) rest)

structure Attachment where
  direction : Text
  namespace_ : Text
  interface : Text
  hook : Text
  deriving DecidableEq

def attachmentKeys : List Text := ["namespace", "interface", "hook"]

def hooks : List Text := ["egress", "ingress", "egress-after-ingress-redirect"]

def malformedAttachment : String := "topology attachment is malformed"

def nonemptyText (value : JsonValue) : Result Text :=
  match value with
  | .str t => if t.codes.isEmpty then profileError malformedAttachment else .ok t
  | _ => profileError malformedAttachment

def readHook (value : JsonValue) : Result Text :=
  match value with
  | .str hook => if hook ∈ hooks then .ok hook else profileError malformedAttachment
  | value => if value.hashable then profileError malformedAttachment else .error (.builtin .typeError)

def hostNamespace : Text := "host"

def checkAttachment (direction : Text) (attachment : JsonValue) : Result Attachment := do
  refuse (decide (direction ∉ directionNames)) "topology contains an unsupported attachment direction"
  let field := s!"topology.attachments.{direction.render}"
  let value ← expectMapping attachment field
  exactKeys value field attachmentKeys attachmentKeys
  let namespace_ ← nonemptyText (← value.item "namespace")
  let interface ← nonemptyText (← value.item "interface")
  let hook ← readHook (← value.item "hook")
  refuse (decide (namespace_ ≠ hostNamespace) && !namespaceOk namespace_)
    "topology attachment namespace is unsafe"
  refuse (!interfaceOk interface) "topology attachment interface is unsafe"
  return { direction, namespace_, interface, hook }

def checkAttachments : JsonDict → Result (List Attachment)
  | [] => .ok []
  | (direction, attachment) :: rest => do
    let first ← checkAttachment direction attachment
    return first :: (← checkAttachments rest)

/-- Every attachment has a filter for every network, and there are no other filters. -/
def Covered (attachments : List Attachment) (markers : List FilterMarker) : Prop :=
  (∀ m ∈ markers, ∃ a ∈ attachments, a.direction = m.direction) ∧
    ∀ a ∈ attachments, ∀ m ∈ markers, FilterMarker.mk a.direction m.network ∈ markers

instance (attachments : List Attachment) (markers : List FilterMarker) :
    Decidable (Covered attachments markers) :=
  inferInstanceAs (Decidable (_ ∧ _))

/-- Names a comprehension collects into a set, which hashes them. -/
def hashedNames : List JsonValue → Result (List JsonValue)
  | [] => .ok []
  | name :: rest =>
    if name.hashable then do return name :: (← hashedNames rest) else .error (.builtin .typeError)

/-- Names of the namespaces that a snapshot records as absent. -/
def absentName : JsonValue → Option JsonValue
  | .dict item => if isFalse (JsonDict.find item "exists") then some (JsonDict.find item "name") else none
  | _ => none

def expectedAttachment (impairment direction : Text) : Attachment :=
  if direction = "egress" then ⟨direction, impairment, "imp-uplink0", "egress"⟩
  else ⟨direction, impairment, "imp-test0", "egress"⟩

def checkDisposable (plan snapshot : JsonDict) (attachments : List Attachment) : Result Unit := do
  let namespaces ← expectMapping (plan.find "namespaces") "topology.namespaces"
  match namespaces.find "impairment" with
  | .str impairment =>
    refuse (!namespaceOk impairment) "disposable topology impairment namespace is malformed"
    refuse (attachments.any fun a => a ≠ expectedAttachment impairment a.direction)
      "disposable topology attachment was modified"
    match snapshot.find "namespaces" with
    | .list items =>
      let names ← hashedNames (items.filterMap absentName)
      refuse (!names.any fun name => name.isText impairment)
        "disposable impairment namespace is not proven absent in snapshot"
    | _ => profileError "disposable topology namespace snapshot is malformed"
  | _ => profileError "disposable topology impairment namespace is malformed"

def deviceOf : JsonValue → Option JsonValue
  | .dict item => some (JsonDict.find item "dev")
  | _ => none

def checkHostEgress (snapshot : JsonDict) (attachment : Attachment) : Result Unit := do
  let host ← expectMapping (snapshot.find "host") "topology.snapshot.host"
  match host.find "qdiscs" with
  | .list items =>
    let devices ← hashedNames (items.filterMap deviceOf)
    refuse (decide (attachment.hook ≠ "egress") ||
      !devices.any fun device => device.isText attachment.interface)
      "host egress attachment is absent from the frozen snapshot"
  | _ => profileError "host qdisc snapshot is malformed"

def checkHost (snapshot : JsonDict) : List Attachment → Result Unit
  | [] => .ok ()
  | attachment :: rest => do
    refuse (decide (attachment.namespace_ ≠ hostNamespace)) "host topology attachment must remain in host"
    refuse (decide (attachment.direction = "ingress" ∧
      (attachment.interface ≠ ifbName ∨ attachment.hook ≠ "egress-after-ingress-redirect")))
      "host ingress attachment was modified"
    if attachment.direction = "egress" then
      checkHostEgress snapshot attachment
    checkHost snapshot rest

def checkKind (kind : TopologyKind) (plan snapshot : JsonDict) (attachments : List Attachment) :
    Result Unit :=
  match kind with
  | .disposableRouter => checkDisposable plan snapshot attachments
  | .dangerousHostNetwork => checkHost snapshot attachments

def filterItems (plan : JsonDict) : Result (List JsonValue) :=
  match plan.find "targetFilters" with
  | .list (item :: rest) => .ok (item :: rest)
  | _ => profileError "topology plan has no frozen target filters"

/-- `sorted(networks)` -/
def scopeTexts (markers : List FilterMarker) : List Text :=
  sortTexts (markers.map FilterMarker.network).dedup

def validateTopology (topology : JsonValue) : Result (JsonDict × List JsonDict) := do
  let plan ← expectMapping topology "topology plan"
  refuse (!(plan.find "apiVersion").isText planVersion) "topology plan has an unsupported apiVersion"
  refuse (!(plan.find "kind").isText "ChaosTopologyPlan") "topology plan has an unsupported kind"
  refuse (!(isTrue (plan.find "noChange") && isEmptyList (plan.find "mutationCommands")))
    "topology plan must be a no-change plan with no mutation commands"
  let kind ← readKind plan
  let snapshot ← expectMapping (plan.find "preMutationSnapshot") "topology.preMutationSnapshot"
  refuse (!(plan.find "snapshotSha256").isText (digest (.dict snapshot)))
    "topology pre-mutation snapshot digest does not match"
  let capabilities ← expectMapping (plan.find "capabilities") "topology.capabilities"
  let available ← expectMapping (capabilities.find "features") "topology.capabilities.features"
  checkFeatures available (requiredFeatures kind)
  let attachments ← expectMapping (plan.find "attachments") "topology.attachments"
  let items ← filterItems plan
  let filters ← checkFilters attachments [] 0 items
  let markers := filters.map Prod.snd
  refuse (!(plan.find "targetScopeSha256").isText (digest (texts (scopeTexts markers))))
    "topology target scope digest does not match its filters"
  let attached ← checkAttachments attachments
  refuse (!decide (Covered attached markers))
    "topology target filters are not complete for every attachment and target"
  checkKind kind plan snapshot attached
  return (plan, filters.map Prod.fst)

end Sippycup.Chaos
