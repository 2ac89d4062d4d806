import Sippycup.Runtime.Document

/-! Validation of a frozen plan before it is executed. -/
namespace Sippycup.Runtime
open Sippycup.Python Sippycup.Ip

def maxPlanBytes : Nat := 8 * 1024 * 1024

def planKeys : List String :=
  ["apiVersion", "kind", "metadata", "authorization", "resolvedDestinations", "captureFilter",
    "expectations", "evidence", "plannedTotals", "steps", "assumptions", "resolutionPins"]

def checkSize (plan : Dict) : Result Unit :=
  match Json.encode (.dict plan) with
  | .error message => fail s!"plan is not finite JSON: {message}"
  | .ok encoded =>
    refuse (decide (maxPlanBytes < encoded.length)) s!"plan exceeds {maxPlanBytes} byte runtime limit"

def checkFields (plan : Dict) : Result Unit := do
  let missing := missingKeys plan planKeys
  let unsupported := unknownKeys plan (planKeys ++ ["matrix"])
  if missing = [] ∧ unsupported.isEmpty then return ()
  else
    let extra ← sortedKeys unsupported
    let details ← fieldDetails ": " missing extra
    fail s!"plan has invalid fields ({details})"

def readMetadata (plan : Dict) : Result (Text × Text) := do
  let metadata ← object (← plan.item "metadata") "metadata"
  exactKeys metadata "metadata" ["name", "manifestSha256"]
  let name ← metadata.item "name"
  refuse (!isName name) "plan metadata.name is invalid"
  let digest ← metadata.item "manifestSha256"
  refuse (!sha256Ok (textOf digest)) "plan metadata.manifestSha256 must be a SHA-256 digest"
  return (textOf name, textOf digest)

def readNetwork (value : Value) : Result Network :=
  match value with
  | .str text =>
    match ipNetwork text with
    | .ok network => .ok network
    | .error _ => fail s!"invalid authorized network {text.repr}"
  | _ => fail "authorization.networks values must be strings"

def readNetworks (authorization : Dict) : Result (List Network) := do
  let raw ← uniqueArray (← authorization.item "networks") "authorization.networks" false
  raw.mapM readNetwork

def isPort (value : Value) : Bool := isUint value true && decide (natOf value ≤ 65535)

def readPorts (authorization : Dict) : Result (List Value) := do
  let ports ← uniqueArray (← authorization.item "signalingPorts") "authorization.signalingPorts" false
  refuse (!ports.all isPort) "authorization signaling ports must be within 1..65535"
  return ports

def supportedTransports : List String := ["udp", "tcp", "tls"]

/-- `any(item not in SUPPORTED_TRANSPORTS for item in transports)` -/
def anyUnsupported : List Value → Result Bool
  | [] => .ok false
  | item :: rest => do
    if ← inSet item supportedTransports then anyUnsupported rest
    else return true

def readTransports (authorization : Dict) : Result (List Value) := do
  let transports ← uniqueArray (← authorization.item "transports") "authorization.transports" false
  refuse (← anyUnsupported transports) "authorization transports contain an unsupported value"
  return transports

/-- Exceptions of the compiler's validators inside the runtime's. -/
def adopt {α : Type} (subject : String) (result : Campaign.Result α) : Result α :=
  match result with
  | .ok a => .ok a
  | .error (.own error) => fail s!"{subject} is invalid: {error.message}"
  | .error (.builtin kind) => .error (.builtin kind)

def readMatrix (plan : Dict) (transports : List Value) : Result (Option Campaign.Matrix) :=
  match plan.get? "matrix" with
  | none => .ok none
  | some raw => do
    let matrix ← adopt "plan matrix" (Campaign.validateMatrix raw transports)
    refuse (!Value.eq matrix.value raw) "plan matrix is not in canonical frozen form"
    return some matrix

def readCredentials (authorization : Dict) : Result (List Value) := do
  let credentials ← uniqueArray (← authorization.item "credentialRefs")
    "authorization.credentialRefs" true
  refuse (!credentials.all isName) "authorization credentialRefs contain an invalid value"
  return credentials

def readMedia (authorization : Dict) : Result MediaPorts := do
  let media ← object (← authorization.item "mediaPorts") "authorization.mediaPorts"
  exactKeys media "authorization.mediaPorts" ["start", "end"]
  let start ← media.item "start"
  let stop ← media.item "end"
  refuse (!isUint start true || !isUint stop true || decide (natOf stop < natOf start) ||
      decide (65535 < natOf stop))
    "authorization mediaPorts must be an ordered port range"
  return ⟨natOf start, natOf stop⟩

/-- Reads the named quantities of a dict; the others are zero. -/
def readAmounts (d : Dict) (keys : List Quantity) : Amounts :=
  fun key => if key ∈ keys then natOf (d.getD key.name .none) else 0

def quantityNames (keys : List Quantity) : List String := keys.map Quantity.name

def readMaxima (authorization : Dict) : Result Amounts := do
  let maxima ← object (← authorization.item "hardMaxima") "authorization.hardMaxima"
  exactKeys maxima "authorization.hardMaxima" (quantityNames ceilingKeys)
  refuse (!maxima.all fun entry => isUint entry.2 true)
    "authorization hardMaxima values must be positive integers"
  return readAmounts maxima ceilingKeys

/-- A number from 0 to 100; `math.isfinite` raises on an integer that has no float. -/
def checkLoss (loss : Value) : Result Unit := do
  let message := "stopConditions.packetLossPercent must be finite within 0..100"
  match loss with
  | .int n =>
    if ((Number.int n).toDouble?).isNone then .error (.builtin .overflowError)
    else refuse (decide (n < 0 ∨ 100 < n)) message
  | .float (.finite q) => refuse (decide (q < 0 ∨ 100 < q)) message
  | _ => fail message

def checkStops (authorization : Dict) : Result Unit := do
  let stops ← object (← authorization.item "stopConditions") "authorization.stopConditions"
  exactKeys stops "authorization.stopConditions"
    ["consecutiveFailures", "unexpectedResponse", "packetLossPercent"]
  refuse (!isUint (← stops.item "consecutiveFailures") true)
    "stopConditions.consecutiveFailures must be positive"
  refuse (!isBool (← stops.item "unexpectedResponse"))
    "stopConditions.unexpectedResponse must be boolean"
  checkLoss (← stops.item "packetLossPercent")

/-- The authorization section; ports and transports stay as they are written. -/
structure Scope where
  networks : List Network
  ports : List Value
  transports : List Value
  matrix : Option Campaign.Matrix
  credentials : List Value
  media : MediaPorts
  maxima : Amounts

def authorizationKeys : List String :=
  ["networks", "signalingPorts", "mediaPorts", "transports", "credentialRefs", "hardMaxima",
    "stopConditions"]

def readAuthorization (plan : Dict) : Result Scope := do
  let authorization ← object (← plan.item "authorization") "authorization"
  exactKeys authorization "authorization" authorizationKeys
  let networks ← readNetworks authorization
  let ports ← readPorts authorization
  let transports ← readTransports authorization
  let matrix ← readMatrix plan transports
  let credentials ← readCredentials authorization
  let media ← readMedia authorization
  let maxima ← readMaxima authorization
  checkStops authorization
  return { networks, ports, transports, matrix, credentials, media, maxima }

def readDestination (scope : Scope) (index : Nat) (item : Value) : Result Destination := do
  let destination ← object item s!"resolvedDestinations[{index}]"
  exactKeys destination s!"resolvedDestinations[{index}]" ["target", "address", "transport", "port"]
  let target ← destination.item "target"
  refuse (!isName target) "resolved destination target is invalid"
  match ipAddress (← destination.item "address") with
  | none => fail "resolved destination address must be a literal IP"
  | some address =>
    refuse (!scope.networks.any fun network => network.contains address)
      "resolved destination lies outside authorization networks"
    let transport ← destination.item "transport"
    let port ← destination.item "port"
    refuse (!transport.isIn scope.transports || !port.isIn scope.ports)
      "resolved destination transport or port is unauthorized"
    return { target := textOf target, address, transport := textOf transport, port }

def readIndexed {α β : Type} (read : Nat → α → Result β) : Nat → List α → Result (List β)
  | _, [] => .ok []
  | index, item :: rest => do
    let head ← read index item
    let tail ← readIndexed read (index + 1) rest
    return head :: tail

def readDestinations (scope : Scope) (plan : Dict) : Result (List Destination) := do
  let raw ← uniqueArray (← plan.item "resolvedDestinations") "resolvedDestinations" false
  readIndexed (readDestination scope) 0 raw

def checkExpectations (plan : Dict) : Result Unit := do
  let expectations ← object (← plan.item "expectations") "expectations"
  exactKeys expectations "expectations" ["allowedSipStatuses", "requireBidirectionalRtp"]
  let statuses ← uniqueArray (← expectations.item "allowedSipStatuses")
    "expectations.allowedSipStatuses" false
  refuse (!statuses.all fun item => isUint item true && decide (100 ≤ natOf item ∧ natOf item ≤ 699))
    "allowedSipStatuses values must be within 100..699"
  refuse (!isBool (← expectations.item "requireBidirectionalRtp"))
    "requireBidirectionalRtp must be boolean"

/-- Neither absolute nor with a parent component, as `pathlib` splits a path. -/
def safeRelative (directory : Text) : Bool :=
  decide (directory.codes.head? ≠ some slash ∧ [dot, dot] ∉ directory.codes.splitOn slash)

def checkEvidence (plan : Dict) : Result Unit := do
  let evidence ← object (← plan.item "evidence") "evidence"
  exactKeys evidence "evidence" ["capture", "retainPayload", "directory"]
  refuse (!isBool (← evidence.item "capture") || !isBool (← evidence.item "retainPayload"))
    "evidence capture and retainPayload must be boolean"
  match ← evidence.item "directory" with
  | .str directory =>
    refuse (directory.codes.isEmpty || !safeRelative directory)
      "evidence directory must be a safe relative path"
  | _ => fail "evidence directory must be a safe relative path"

def readTotals (maxima : Amounts) (plan : Dict) : Result Amounts := do
  let totals ← object (← plan.item "plannedTotals") "plannedTotals"
  exactKeys totals "plannedTotals" (quantityNames totalKeys)
  refuse (!totals.all fun entry => isUint entry.2 false)
    "plannedTotals values must be non-negative integers"
  let amounts := readAmounts totals totalKeys
  refuse (totalKeys.any fun key => decide (maxima key < amounts key))
    "plannedTotals exceed authorization hardMaxima"
  return amounts

end Sippycup.Runtime
