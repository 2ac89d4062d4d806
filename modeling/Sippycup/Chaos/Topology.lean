import Sippycup.Ip.Block
import Sippycup.Python.JsonValue
import Sippycup.Python.Sha256

/-! Planning of a chaos topology: a request, the probed capabilities and a
snapshot of routes and qdiscs become a frozen plan that changes nothing. -/
namespace Sippycup.Chaos
open Sippycup.Python Sippycup.Ip

/-- Error classes of the package. -/
inductive Failure where
  | topology (message : String)
  | profile (message : String)
  | lifecycle (message : String)
  deriving DecidableEq

abbrev Result := Except (Python.Raised Failure)

def topologyError {α : Type} (message : String) : Result α := .error (.own (.topology message))

inductive FeatureState where
  | available | unavailable | unknown
  deriving DecidableEq

inductive Direction where
  | egress | ingress | bidirectional | asymmetric
  deriving DecidableEq

inductive TopologyKind where
  | disposableRouter | dangerousHostNetwork
  deriving DecidableEq

inductive Feature where
  | podman | iproute2 | tc | netAdmin | netem | ifb | classifier | mtu | sysAdmin | pasta
  deriving DecidableEq

def FeatureState.value : FeatureState → String
  | .available => "available"
  | .unavailable => "unavailable"
  | .unknown => "unknown"

def Direction.value : Direction → String
  | .egress => "egress"
  | .ingress => "ingress"
  | .bidirectional => "bidirectional"
  | .asymmetric => "asymmetric"

def TopologyKind.value : TopologyKind → String
  | .disposableRouter => "disposable-router"
  | .dangerousHostNetwork => "dangerous-host-network"

/-- Key of the feature in documents. -/
def Feature.key : Feature → String
  | .podman => "podman"
  | .iproute2 => "iproute2"
  | .tc => "tc"
  | .netAdmin => "netAdmin"
  | .netem => "netem"
  | .ifb => "ifb"
  | .classifier => "classifier"
  | .mtu => "mtu"
  | .sysAdmin => "sysAdmin"
  | .pasta => "pasta"

/-- Attribute of the feature, as messages name it. -/
def Feature.attribute : Feature → String
  | .netAdmin => "net_admin"
  | .sysAdmin => "sys_admin"
  | feature => feature.key

def features : List Feature :=
  [.podman, .iproute2, .tc, .netAdmin, .netem, .ifb, .classifier, .mtu, .sysAdmin, .pasta]

structure CapabilitySnapshot where
  executionMode : Text
  state : Feature → FeatureState
  evidence : List (Text × Text)

structure NamespaceSnapshot where
  name : Text
  present : Bool
  routes : JsonValue
  qdiscs : JsonValue

structure NetworkSnapshot where
  hostRoutes : JsonValue
  hostQdiscs : JsonValue
  namespaces : List NamespaceSnapshot

structure TopologyRequest where
  targets : List Text
  direction : Direction
  topology : TopologyKind
  namespacePrefix : Text
  dangerousConfirmation : Option Text
  requireMtu : Bool
  hostInterface : Option Text

section
open JsonDict (entry)

def str (s : String) : JsonValue := .str s

def CapabilitySnapshot.toDict (c : CapabilitySnapshot) : JsonDict :=
  [entry "executionMode" (.str c.executionMode),
    entry "features" (.dict (features.map fun f => entry f.key (str (c.state f).value))),
    entry "evidence" (.dict (JsonValue.sortEntries (c.evidence.map fun (k, v) => (k, .str v))))]

def NamespaceSnapshot.toDict (s : NamespaceSnapshot) : JsonDict :=
  [entry "name" (.str s.name), entry "exists" (.bool s.present), entry "routes" s.routes,
    entry "qdiscs" s.qdiscs]

def NetworkSnapshot.toDict (s : NetworkSnapshot) : JsonDict :=
  [entry "host" (.dict [entry "routes" s.hostRoutes, entry "qdiscs" s.hostQdiscs]),
    entry "namespaces" (.list (s.namespaces.map fun item => .dict item.toDict))]

end

/-- A first code point, then at most `limit` others. -/
def fullMatch (first rest : Nat → Bool) (limit : Nat) (codes : Codes) : Bool :=
  match codes with
  | [] => false
  | c :: cs => first c && cs.all rest && decide (cs.length ≤ limit)

def isAlnumCode (c : Nat) : Bool := isDigit c || isLower c || decide (65 ≤ c ∧ c ≤ 90)

/-- `[a-z][a-z0-9-]{0,30}` -/
def namespaceOk (name : Text) : Bool := fullMatch isLower isNameCode 30 name.codes

/-- `[A-Za-z0-9][A-Za-z0-9_.:-]{0,14}` -/
def interfaceOk (name : Text) : Bool :=
  fullMatch isAlnumCode (fun c => isAlnumCode c || [95, 46, 58, 45].contains c) 14 name.codes

def confirmationPrefix : Text := "dedicated-test-vm:"

/-- `dedicated-test-vm:[A-Za-z0-9][A-Za-z0-9_.-]{0,62}` -/
def confirmationOk (text : Text) : Bool :=
  confirmationPrefix.codes.isPrefixOf text.codes &&
    fullMatch isAlnumCode (fun c => isAlnumCode c || [95, 46, 45].contains c) 62
      (text.codes.drop confirmationPrefix.length)

def validName (value : Text) (field : String) : Result Unit :=
  if namespaceOk value then .ok ()
  else topologyError s!"{field} must match '[a-z][a-z0-9-]\x7b0,30\x7d'; got {value.repr}"

section
variable {width : Nat}

def Block.broadcast (block : Block width) : BitVec width :=
  block.address ||| (BitVec.allOnes width >>> block.prefixlen)

end

def isMulticast : Network → Bool
  | .v4 block => multicastV4 block.address && multicastV4 (Block.broadcast block)
  | .v6 block _ => multicastV6 block.address && multicastV6 (Block.broadcast block)

def isUnspecified : Network → Bool
  | .v4 block => decide (block.address = 0 ∧ Block.broadcast block = 0)
  | .v6 block _ => decide (block.address = 0 ∧ Block.broadcast block = 0)

def keyLe (a b : Nat × Nat × Nat) : Bool :=
  decide (a.1 < b.1 ∨ a.1 = b.1 ∧ (a.2.1 < b.2.1 ∨ a.2.1 = b.2.1 ∧ a.2.2 ≤ b.2.2))

/-- `networks[key] = network` -/
def putNetwork (networks : List Network) (network : Network) : List Network :=
  if networks.any fun n => n.key == network.key then
    networks.map fun n => if n.key = network.key then network else n
  else networks ++ [network]

def readTarget (value : Text) : Result Network := do
  match ipNetwork value with
  | .error _ =>
    topologyError s!"target {value.repr} must be a canonical literal CIDR, not a hostname"
  | .ok network =>
    if network.prefixlen = 0 then topologyError "default-route target filters are forbidden"
    else if isMulticast network || isUnspecified network then
      topologyError s!"target network {network.text.render} is not a unicast scope"
    else .ok network

def readTargets : List Network → List Text → Result (List Network)
  | networks, [] => .ok networks
  | networks, value :: rest => do
    let network ← readTarget value
    readTargets (putNetwork networks network) rest

/-- The target networks in numeric order. -/
def canonicalTargets (values : List Text) : Result (List Network) :=
  if values.isEmpty then topologyError "at least one frozen target CIDR is required"
  else do
    let networks ← readTargets [] values
    return networks.insertionSort fun a b => keyLe a.key b.key = true

def require (capabilities : CapabilitySnapshot) (names : List Feature) (context : String) :
    Result Unit :=
  let missing := names.filter fun f => capabilities.state f ≠ .available
  if missing.isEmpty then .ok ()
  else
    let details := missing.map fun f => s!"{f.attribute}={(capabilities.state f).value}"
    topologyError (s!"{context} is unsupported by the probed environment: " ++ ", ".intercalate details)

def requireMtu (request : TopologyRequest) (capabilities : CapabilitySnapshot) : Result Unit :=
  if request.requireMtu then require capabilities [.mtu] "MTU impairment" else .ok ()

/-- `sha256` of the canonical text. -/
def digest (value : JsonValue) : Text := sha256Hex value.canonical

structure NamespaceNames where
  test : Text
  impairment : Text
  uplink : Text

def NamespaceNames.values (names : NamespaceNames) : List Text :=
  [names.test, names.impairment, names.uplink]

def namespaceNames (stem : Text) : NamespaceNames :=
  { test := stem ++ "-test", impairment := stem ++ "-impair", uplink := stem ++ "-uplink" }

def Direction.shapesIngress (direction : Direction) : Bool := decide (direction ≠ .egress)

/-- Attachment directions, in the order of the plan. -/
def Direction.requested : Direction → List String
  | .egress => ["egress"]
  | .ingress => ["ingress"]
  | _ => ["egress", "ingress"]

def checkSnapshot (request : TopologyRequest) (names : NamespaceNames)
    (snapshot : NetworkSnapshot) : Result Unit :=
  let expected := if request.topology = .disposableRouter then names.values else []
  let actual := snapshot.namespaces.map NamespaceSnapshot.name
  if ¬ (actual ⊆ expected ∧ expected ⊆ actual) then
    topologyError "network snapshot must contain exactly the planned namespaces"
  else
    let occupied := (snapshot.namespaces.filter NamespaceSnapshot.present).map NamespaceSnapshot.name
    if occupied.isEmpty then .ok ()
    else
      let listed := ", ".intercalate ((sortTexts occupied).map Text.render)
      topologyError s!"refusing to reuse existing namespaces: {listed}"

/-- Iteration over a document; a dict gives its keys, a string its characters. -/
def iterate : JsonValue → Result (List JsonValue)
  | .list items => .ok items
  | .dict entries => .ok (entries.map fun e => .str e.1)
  | .str t => .ok (t.codes.map fun c => .str ⟨[c]⟩)
  | _ => .error (.builtin .typeError)

/-- `str(item.get("dev"))` of the dicts that have one. -/
def deviceText : JsonValue → Option Text
  | .dict item =>
    match JsonDict.find item "dev" with
    | .null => none
    | dev => some dev.toStr
  | _ => none

def hostDevices (qdiscs : JsonValue) : Result (List Text) := do
  return (← iterate qdiscs).filterMap deviceText

/-- What the two kinds of topology put into a plan. -/
structure Layout where
  dangerous : Bool
  privilegeBoundary : Text
  attachment : String → JsonDict
  ifbRequired : Bool
  namespaces : JsonDict
  interfaces : JsonDict
  outbound : List Text
  inbound : List Text

section
open JsonDict (entry)

def attachmentDict (namespace_ interface : Text) (hook : String) : JsonDict :=
  [entry "namespace" (.str namespace_), entry "interface" (.str interface), entry "hook" (str hook)]

def interfaceDict (namespace_ : Text) (name : Text) : JsonValue :=
  .dict [entry "namespace" (.str namespace_), entry "name" (.str name)]

def at_ (namespace_ : Text) (interface : String) : Text := namespace_ ++ ":" ++ interface

def disposableLayout (names : NamespaceNames) : Layout where
  dangerous := false
  privilegeBoundary :=
    "NET_ADMIN/SYS_ADMIN are confined to the isolated lifecycle controller; the traffic child drops both capabilities and host routes/qdiscs are read-only"
  attachment direction :=
    if direction = "egress" then attachmentDict names.impairment "imp-uplink0" "egress"
    else attachmentDict names.impairment "imp-test0" "egress"
  ifbRequired := false
  namespaces := [entry "test" (.str names.test), entry "impairment" (.str names.impairment),
    entry "uplink" (.str names.uplink)]
  interfaces := [entry "test" (interfaceDict names.test "test0"),
    entry "impairmentTest" (interfaceDict names.impairment "imp-test0"),
    entry "impairmentUplink" (interfaceDict names.impairment "imp-uplink0"),
    entry "uplink" (interfaceDict names.uplink "uplink0"),
    entry "uplinkExternal" (interfaceDict names.uplink "pasta0")]
  outbound := [at_ names.test "test0", at_ names.impairment "imp-test0",
    at_ names.impairment "imp-uplink0", at_ names.uplink "uplink0", at_ names.uplink "pasta0",
    "authorized-target"]
  inbound := ["authorized-target", at_ names.uplink "pasta0", at_ names.uplink "uplink0",
    at_ names.impairment "imp-uplink0", at_ names.impairment "imp-test0", at_ names.test "test0"]

def ifbName : Text := "ifb-sippycup"

def hostLayout (direction : Direction) (confirmation hostInterface : Text) : Layout where
  dangerous := true
  privilegeBoundary :=
    Text.ofString "DANGEROUS: NET_ADMIN and qdisc mutation occur in the host network namespace; operator confirmed "
      ++ confirmation
  attachment direction :=
    if direction = "egress" then attachmentDict "host" hostInterface "egress"
    else attachmentDict "host" ifbName "egress-after-ingress-redirect"
  ifbRequired := direction.shapesIngress
  namespaces := []
  interfaces := entry "hostUplink" (interfaceDict "host" hostInterface) ::
    if direction.shapesIngress then [entry "hostIngressIfb" (interfaceDict "host" ifbName)] else []
  outbound := [Text.ofString "host:" ++ hostInterface, "authorized-target"]
  inbound := Text.ofString "authorized-target" :: (Text.ofString "host:" ++ hostInterface) ::
    if direction.shapesIngress then [Text.ofString "host:ifb-sippycup"] else []

def planDisposable (request : TopologyRequest) (capabilities : CapabilitySnapshot)
    (names : NamespaceNames) : Result Layout := do
  require capabilities [.iproute2, .tc, .netAdmin, .sysAdmin, .netem, .classifier, .pasta]
    "disposable impairment routing"
  requireMtu request capabilities
  return disposableLayout names

def confirmed (request : TopologyRequest) : Result Text :=
  match request.dangerousConfirmation with
  | some confirmation =>
    if confirmationOk confirmation then .ok confirmation
    else topologyError
      "dangerous host-network mode requires --dangerous-confirmation dedicated-test-vm:NAME"
  | none => topologyError
      "dangerous host-network mode requires --dangerous-confirmation dedicated-test-vm:NAME"

def concreteInterface (request : TopologyRequest) : Result Text :=
  match request.hostInterface with
  | some name =>
    if interfaceOk name then .ok name
    else topologyError "dangerous host-network mode requires a concrete --host-interface"
  | none => topologyError "dangerous host-network mode requires a concrete --host-interface"

def requireIfb (request : TopologyRequest) (capabilities : CapabilitySnapshot)
    (devices : List Text) : Result Unit :=
  if request.direction.shapesIngress then do
    require capabilities [.ifb] "host-network ingress shaping"
    if ifbName ∈ devices then
      topologyError "refusing to reuse existing host IFB interface ifb-sippycup"
    else return ()
  else .ok ()

def planHost (request : TopologyRequest) (capabilities : CapabilitySnapshot)
    (snapshot : NetworkSnapshot) : Result Layout := do
  let confirmation ← confirmed request
  if capabilities.executionMode ≠ "rootful" then
    topologyError "dangerous host-network mode requires rootful execution"
  else
    let hostInterface ← concreteInterface request
    let devices ← hostDevices snapshot.hostQdiscs
    if hostInterface ∉ devices then
      topologyError
        s!"host interface {hostInterface.repr} is absent from the pre-mutation qdisc snapshot"
    else
      require capabilities [.iproute2, .tc, .netAdmin, .netem, .classifier]
        "dangerous host-network impairment"
      requireIfb request capabilities devices
      requireMtu request capabilities
      return hostLayout request.direction confirmation hostInterface

def familyOf (network : Network) : Text := if network.version = 4 then "ipv4" else "ipv6"

def protocolOf (network : Network) : Text := if network.version = 4 then "ip" else "ipv6"

def matchOf (direction : Text) (network : Text) : Text :=
  (if direction = "egress" then Text.ofString "dst_ip " else Text.ofString "src_ip ") ++ network

def targetFilter (network : Network) (direction : String) : JsonDict :=
  [entry "direction" (str direction), entry "family" (.str (familyOf network)),
    entry "network" (.str network.text), entry "tcProtocol" (.str (protocolOf network)),
    entry "match" (.str (matchOf direction network.text))]

def targetFilters (networks : List Network) (directions : List String) : List JsonDict :=
  networks.flatMap fun network => directions.map (targetFilter network)

def texts (values : List Text) : JsonValue := .list (values.map .str)

def planVersion : String := "sippycup.dev/chaos-topology-plan/v1"

def planAssumptions : List Text :=
  ["the lifecycle executor must compare post-cleanup routes and qdiscs byte-for-byte with preMutationSnapshot",
    "the profile compiler may attach only to the listed attachment points",
    "target filters are frozen literal CIDRs and must not be widened"]

def renderPlan (request : TopologyRequest) (capabilities : CapabilitySnapshot)
    (snapshot : NetworkSnapshot) (networks : List Network) (layout : Layout) : JsonDict :=
  let directions := request.direction.requested
  [entry "apiVersion" (str planVersion), entry "kind" (str "ChaosTopologyPlan"),
    entry "noChange" (.bool true), entry "dangerous" (.bool layout.dangerous),
    entry "topology" (str request.topology.value), entry "direction" (str request.direction.value),
    entry "packetPath"
      (.dict [entry "outbound" (texts layout.outbound), entry "inbound" (texts layout.inbound)]),
    entry "namespaces" (.dict layout.namespaces), entry "interfaces" (.dict layout.interfaces),
    entry "attachments" (.dict (directions.map fun d => entry d (.dict (layout.attachment d)))),
    entry "ifbRequired" (.bool layout.ifbRequired),
    entry "targetFilters" (.list ((targetFilters networks directions).map .dict)),
    entry "targetScopeSha256" (.str (digest (texts (networks.map Network.text)))),
    entry "capabilities" (.dict capabilities.toDict),
    entry "preMutationSnapshot" (.dict snapshot.toDict),
    entry "snapshotSha256" (.str (digest (.dict snapshot.toDict))),
    entry "privilegeBoundary" (.str layout.privilegeBoundary),
    entry "mutationCommands" (.list []), entry "assumptions" (texts planAssumptions)]

end

def planLayout (request : TopologyRequest) (capabilities : CapabilitySnapshot)
    (names : NamespaceNames) (snapshot : NetworkSnapshot) : Result Layout :=
  match request.topology with
  | .disposableRouter => planDisposable request capabilities names
  | .dangerousHostNetwork => planHost request capabilities snapshot

def planTopology (request : TopologyRequest) (capabilities : CapabilitySnapshot)
    (snapshot : NetworkSnapshot) : Result JsonDict := do
  validName request.namespacePrefix "namespace prefix"
  let networks ← canonicalTargets request.targets
  let names := namespaceNames request.namespacePrefix
  let _ ← names.values.mapM fun name => validName name "derived namespace name"
  checkSnapshot request names snapshot
  let layout ← planLayout request capabilities names snapshot
  return renderPlan request capabilities snapshot networks layout

end Sippycup.Chaos
