import Sippycup.Runtime.Document

/-! The head of a campaign manifest: its name, and what it authorizes. Reductions
may lower the ceilings and nothing else. -/
namespace Sippycup.Campaign
open Sippycup.Python Sippycup.Ip
open Sippycup.Runtime (Quantity Amounts MediaPorts ceilingKeys)

def apiVersion : String := "sippycup.dev/v1"
def kind : String := "Campaign"

def manifestKeys : List String :=
  ["apiVersion", "kind", "metadata", "authorization", "targets", "cases", "expectations", "evidence",
    "matrix"]

def supportedTransports : List String := ["udp", "tcp", "tls"]

def documentationNetworks : List (Block 32) :=
  [⟨0xC0000200#32, 24, by decide, by decide⟩, ⟨0xC6336400#32, 24, by decide, by decide⟩,
    ⟨0xCB007100#32, 24, by decide, by decide⟩]

/-- `int(network.broadcast_address)` -/
def broadcast (block : Block 32) : Nat := block.address.toNat + 2 ^ (32 - block.prefixlen) - 1

/-- `network.subnet_of(other)` -/
def subnetOf (block other : Block 32) : Bool :=
  decide (other.address.toNat ≤ block.address.toNat ∧ broadcast block ≤ broadcast other)

def documentationOnly : Network → Bool
  | .v4 block => documentationNetworks.any (subnetOf block)
  | .v6 _ _ => false

def campaignName (manifest : Dict) : Result Text := do
  let metadata ← mapping (field? manifest "metadata") "metadata"
  keys metadata "metadata" ["name"]
  name (field? metadata "name") "metadata.name"

def approvedNetwork (index : Nat) (value : Value) : Result Network := do
  let text ← string value s!"authorization.networks[{index}]"
  match ipNetwork text with
  | .error message => fail s!"invalid approved network {text.repr}: {message}"
  | .ok network =>
    if documentationOnly network then fail s!"documentation-only network {text.repr} is a placeholder"
    else return network

/-- Order of the sort key `(version, int(network_address), prefixlen)`. -/
def networkLe (a b : Network) : Prop :=
  [a.version, a.address.toNat, a.prefixlen] ≤ [b.version, b.address.toNat, b.prefixlen]

instance (a b : Network) : Decidable (networkLe a b) := inferInstanceAs (Decidable (_ ≤ _))

def approvedNetworks (authorization : Dict) : Result (List Network) := do
  let raw ← uniqueList (field? authorization "networks") "authorization.networks"
  let networks ← eachItem approvedNetwork 0 raw
  return networks.insertionSort networkLe

def sortNumbers (numbers : List Nat) : List Nat := numbers.insertionSort (· ≤ ·)

def signalingPorts (authorization : Dict) : Result (List Nat) := do
  let raw ← uniqueList (field? authorization "signalingPorts") "authorization.signalingPorts"
  let ports ← eachItem (fun index v => uint v s!"authorization.signalingPorts[{index}]" false) 0 raw
  if ports.any fun port => decide (65535 < port) then fail "signaling ports must be between 1 and 65535"
  else return sortNumbers ports.dedup

def mediaPorts (authorization : Dict) : Result MediaPorts := do
  let media ← mapping (field? authorization "mediaPorts") "authorization.mediaPorts"
  keys media "authorization.mediaPorts" ["start", "end"]
  let start ← uint (field? media "start") "authorization.mediaPorts.start" false
  let stop ← uint (field? media "end") "authorization.mediaPorts.end" false
  if stop < start ∨ 65535 < stop then
    fail "authorization.mediaPorts must be an ordered range within 1..65535"
  else return ⟨start, stop⟩

def approvedTransports (authorization : Dict) : Result (List Text) := do
  let raw ← uniqueList (field? authorization "transports") "authorization.transports"
  let names ← eachItem (fun index v => string v s!"authorization.transports[{index}]") 0 raw
  let unsupported := names.filter fun t => !supportedTransports.any fun s => decide (t = Text.ofString s)
  if unsupported.isEmpty then return sortTexts names.dedup
  else fail ("unsupported transports: " ++ joinSorted unsupported)

def campaignMatrix (manifest : Dict) (transports : List Text) : Result (Option Matrix) :=
  optional manifest "matrix" fun value => validateMatrix value (transports.map .str)

def credentialRefs (authorization : Dict) : Result (List Text) := do
  let value := authorization.getD "credentialRefs" (.list [])
  let raw ← if value.truthy then uniqueList value "authorization.credentialRefs" else .ok []
  let names ← eachItem (fun index v => name v s!"authorization.credentialRefs[{index}]") 0 raw
  return sortTexts names.dedup

def validateCeilings (value : Value) : Result Amounts := do
  let ceilings ← mapping value "authorization.ceilings"
  keys ceilings "authorization.ceilings" (ceilingKeys.map Quantity.name)
  let missing := ceilingKeys.filter fun q => !ceilings.contains q.name
  if missing.isEmpty then
    collect (fun q => do uint (← ceilings.item q.name) s!"authorization.ceilings.{q.name}" false)
      ceilingKeys
  else
    fail ("authorization.ceilings is missing required fields: " ++
      ", ".intercalate (missing.map Quantity.name))

/-- Overrides by name; `None` leaves a ceiling as it is. -/
abbrev Reductions := List (Text × Value)

def quantityNamed? (text : Text) : Option Quantity :=
  ceilingKeys.find? fun q => decide (Text.ofString q.name = text)

def reduceCeiling (ceilings result : Amounts) (key : Text) (value : Value) : Result Amounts := do
  let reduced ← uint value s!"--max-{key.render}" false
  match quantityNamed? key with
  | none => .error (.builtin .keyError)
  | some q =>
    if ceilings q < reduced then
      fail s!"override for {key.render} ({reduced}) exceeds authorized maximum ({ceilings q}); overrides may only reduce authorization"
    else return Function.update result q reduced

@[grind =] def applyReductions (ceilings : Amounts) : Reductions → Amounts → Result Amounts
  | [], result => .ok result
  | (_, .none) :: rest, result => applyReductions ceilings rest result
  | (key, value) :: rest, result => do
    applyReductions ceilings rest (← reduceCeiling ceilings result key value)

structure StopConditions where
  consecutiveFailures : Nat
  unexpectedResponse : Bool
  packetLossPercent : Number

def packetLoss (value : Value) : Result Number :=
  let message := "stopConditions.packetLossPercent must be between 0 and 100"
  match value with
  | .int n => if 0 ≤ n ∧ n ≤ 100 then .ok (.int n) else fail message
  | .float x =>
    if (Number.int 0).le (.float x) && (Number.float x).le (.int 100) then .ok (.float x)
    else fail message
  | _ => fail message

def boolean (value : Value) (message : String) : Result Bool :=
  match value with
  | .bool b => .ok b
  | _ => fail message

def stopConditions (authorization : Dict) : Result StopConditions := do
  let stops ← mapping (field? authorization "stopConditions") "authorization.stopConditions"
  keys stops "authorization.stopConditions"
    ["consecutiveFailures", "unexpectedResponse", "packetLossPercent"]
  let consecutiveFailures ←
    uint (field? stops "consecutiveFailures") "stopConditions.consecutiveFailures" false
  let unexpectedResponse ← boolean (field? stops "unexpectedResponse")
    "stopConditions.unexpectedResponse must be a boolean"
  let packetLossPercent ← packetLoss (field? stops "packetLossPercent")
  return { consecutiveFailures, unexpectedResponse, packetLossPercent }

structure Authorization where
  networks : List Network
  signalingPorts : List Nat
  mediaPorts : MediaPorts
  transports : List Text
  matrix : Option Matrix
  credentialRefs : List Text
  hardMaxima : Amounts
  stopConditions : StopConditions

def authorizationKeys : List String :=
  ["networks", "signalingPorts", "mediaPorts", "transports", "credentialRefs", "ceilings",
    "stopConditions"]

def authorizationOf (manifest : Dict) : Result Dict := do
  let authorization ← mapping (field? manifest "authorization") "authorization"
  keys authorization "authorization" authorizationKeys
  return authorization

def readAuthorization (manifest : Dict) (reductions : Reductions) : Result Authorization := do
  let authorization ← authorizationOf manifest
  let networks ← approvedNetworks authorization
  let signalingPorts ← signalingPorts authorization
  let mediaPorts ← mediaPorts authorization
  let transports ← approvedTransports authorization
  let matrix ← campaignMatrix manifest transports
  let credentialRefs ← credentialRefs authorization
  let ceilings ← validateCeilings (field? authorization "ceilings")
  let hardMaxima ← applyReductions ceilings reductions ceilings
  let stopConditions ← stopConditions authorization
  return { networks, signalingPorts, mediaPorts, transports, matrix, credentialRefs, hardMaxima
           stopConditions }

def checkHeader (manifest : Dict) : Result Unit := do
  keys manifest "manifest" manifestKeys
  if !(field? manifest "apiVersion").isText apiVersion then
    fail "apiVersion must be 'sippycup.dev/v1'"
  else if !(field? manifest "kind").isText kind then fail "kind must be 'Campaign'"
  else return ()

end Sippycup.Campaign

/-! Targets of a campaign: hosts, which are literal addresses or names that a
resolver answers, and the addresses that the plan freezes for them. -/
namespace Sippycup.Campaign
open Sippycup.Python Sippycup.Ip
open Sippycup.Runtime (addressKey keyLe)

def placeholderSuffix : Text := ".invalid"

def placeholderHosts : List String := ["example.com", "example.net", "example.org", "localhost"]

/-- The alternatives of `change[-_]?me|example|placeholder|todo|tbd`. -/
def placeholderWords : List Text :=
  ["changeme", "change-me", "change_me", "example", "placeholder", "todo", "tbd"]

/-- `[._-]` -/
def isSeparator (code : Nat) : Bool := [46, 95, 45].contains code

/-- `([._-]|$)`, where `$` also matches before a newline at the end. -/
def wordEnds : Codes → Bool
  | [] | [10] => true
  | code :: _ => isSeparator code

def wordStarts (codes : Codes) : Bool :=
  placeholderWords.any fun word => word.codes.isPrefixOf codes && wordEnds (codes.drop word.length)

@[grind =] def wordAfterSeparator : Codes → Bool
  | [] => false
  | code :: rest => isSeparator code && wordStarts rest || wordAfterSeparator rest

def isPlaceholder (casing : Casing) (value : Text) : Bool :=
  let lowered := (casing.lower value).rstripDots
  placeholderSuffix.codes.isSuffixOf lowered.codes ||
    (placeholderHosts.any fun host => decide (lowered = Text.ofString host)) ||
    wordStarts lowered.codes || wordAfterSeparator lowered.codes ||
    match parseAddress lowered.codes with
    | none => false
    | some address => documentationNetworks.any fun block => (Network.v4 block).contains address

abbrev Resolver := Text → Result (List Value)

/-- The order in which a set of texts is iterated. The language leaves it open:
it depends on the hashes of the texts, which differ from process to process. -/
structure SetOrder where
  order : List Text → List Text
  perm : ∀ items, (order items).Perm items.dedup

def SetOrder.insertion : SetOrder := ⟨List.dedup, fun _ => .refl _⟩

/-- `sorted(set(addresses), key=_address_sort_key)` -/
def SetOrder.sorted (order : SetOrder) (addresses : List Text) : List Text :=
  (order.order addresses).insertionSort fun a b => keyLe (addressKey a) (addressKey b) = true

def answerText (value : Value) : Result Text :=
  match value with
  | .str t => .ok t
  | _ => .error (.builtin .typeError)

/-- The answers of a resolver, frozen: a set hashes them, the sort key parses
them, and the assumption joins them. -/
def freezeAnswers (order : SetOrder) (answers : List Value) : Result (List Text) :=
  if !answers.all Value.hashable then .error (.builtin .typeError)
  else if answers.any fun answer => (ipAddress answer).isNone then .error (.builtin .valueError)
  else do
    let texts ← answers.mapM answerText
    return order.sorted texts

def resolveHost (order : SetOrder) (resolver : Resolver) (host : Text) : Result (List Text) :=
  match parseAddress host.codes with
  | some literal => .ok [literal.text]
  | none => do freezeAnswers order (← resolver host)

@[grind =] def checkAnswers (networks : List Network) (host : Text) : List Text → Result Unit
  | [] => .ok ()
  | answer :: rest =>
    match ipAddress (.str answer) with
    | none => .error (.builtin .valueError)
    | some address =>
      if networks.any fun network => network.contains address then checkAnswers networks host rest
      else fail s!"target {host.repr} resolved to {answer.render}, outside approved networks"

structure Target where
  name : Text
  host : Text
  addresses : List Text
  transport : Text
  port : Nat
  credentialRef : Option Text

def readHost (casing : Casing) (target : Dict) (field : String) : Result Text := do
  let text ← string (field? target "address") s!"{field}.address"
  let host := (casing.lower text).rstripDots
  if isPlaceholder casing host then fail s!"target address {host.repr} is a placeholder"
  else return host

def frozenAddresses (order : SetOrder) (resolver : Resolver) (networks : List Network) (host : Text) :
    Result (List Text) := do
  let answers ← resolveHost order resolver host
  if answers.isEmpty then fail s!"target {host.repr} resolved to no addresses"
  else
    checkAnswers networks host answers
    return answers

def readSignaling (authorization : Authorization) (target : Dict) (targetName : Text) (field : String) :
    Result (Text × Nat) := do
  let signaling ← mapping (field? target "signaling") s!"{field}.signaling"
  keys signaling s!"{field}.signaling" ["transport", "port"]
  let transport ← string (field? signaling "transport") s!"{field}.signaling.transport"
  let port ← uint (field? signaling "port") s!"{field}.signaling.port" false
  if transport ∉ authorization.transports then
    fail s!"target {targetName.repr} transport {transport.repr} is not authorized"
  else if port ∉ authorization.signalingPorts then
    fail s!"target {targetName.repr} signaling port {port} is not authorized"
  else return (transport, port)

def readCredential (authorization : Authorization) (target : Dict) (targetName : Text) (field : String) :
    Result (Option Text) :=
  match field? target "credentialRef" with
  | .none => .ok none
  | value => do
    let credential ← name value s!"{field}.credentialRef"
    if credential ∉ authorization.credentialRefs then
      fail s!"target {targetName.repr} uses unauthorized credential reference {credential.repr}"
    else return some credential

def readTarget (casing : Casing) (order : SetOrder) (resolver : Resolver) (authorization : Authorization)
    (seen : List Text) (index : Nat) (raw : Value) : Result Target := do
  let field := s!"targets[{index}]"
  let target ← mapping raw field
  keys target field ["name", "address", "signaling", "credentialRef"]
  let targetName ← name (field? target "name") s!"{field}.name"
  if targetName ∈ seen then fail s!"duplicate target name {targetName.repr}"
  else
    let host ← readHost casing target field
    let addresses ← frozenAddresses order resolver authorization.networks host
    let (transport, port) ← readSignaling authorization target targetName field
    let credentialRef ← readCredential authorization target targetName field
    return { name := targetName, host, addresses, transport, port, credentialRef }

@[grind =] def readTargets (casing : Casing) (order : SetOrder) (resolver : Resolver) (authorization : Authorization) :
    Nat → List Text → List Value → Result (List Target)
  | _, _, [] => .ok []
  | index, seen, raw :: rest => do
    let target ← readTarget casing order resolver authorization seen index raw
    let others ← readTargets casing order resolver authorization (index + 1) (target.name :: seen) rest
    return target :: others

/-- One frozen address of a target. -/
structure Destination where
  target : Text
  address : Text
  transport : Text
  port : Nat

def Target.destinations (target : Target) : List Destination :=
  target.addresses.map fun address =>
    { target := target.name, address, transport := target.transport, port := target.port }

end Sippycup.Campaign
