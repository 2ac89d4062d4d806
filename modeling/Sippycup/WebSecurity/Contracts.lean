import Sippycup.Python.JsonEq
import Sippycup.Webrtc.Fields

/-! Profiles and adapters of bounded web-security checks, and the plan that is compiled from
them. Dates and URLs are read by functions of the standard library, which are parameters. -/
namespace Sippycup.WebSecurity
open Sippycup.Python Sippycup.Ip
open Sippycup.Webrtc (Rejects reject require readObject readArray exactKeys readInteger readBoolean readEnum readItems)

structure WebSecurityError where
  message : String
  deriving DecidableEq

instance : Rejects WebSecurityError := ⟨WebSecurityError.mk⟩

abbrev Result := Except (Raised WebSecurityError)

/-- An instant in microseconds, and whether its zone is UTC. -/
structure Datetime where
  microseconds : Int
  utc : Bool

structure SplitUrl where
  scheme : Text
  hostname : Option Text
  username : Option Text
  password : Option Text
  path : Text
  query : Text
  fragment : Text
  /-- Without a value, reading the port raises. -/
  port : Option (Option Int)

/-- `datetime.fromisoformat` and `urllib.parse.urlsplit`, without a value where they raise `ValueError`. -/
structure Library where
  fromisoformat : Text → Option Datetime
  urlsplit : Text → Option SplitUrl

def profileVersion : Text := "sippycup.dev/web-security-profile/v1"
def adapterVersion : Text := "sippycup.dev/web-security-adapter/v1"
def planVersion : Text := "sippycup.dev/web-security-plan/v1"

inductive Surface where
  | admin | websocket
  deriving DecidableEq

def Surface.name : Surface → Text
  | .admin => "admin"
  | .websocket => "websocket"

def surfaces : List Surface := [.admin, .websocket]

def Surface.scheme : Surface → Text
  | .admin => "https"
  | .websocket => "wss"

inductive Check where
  | adminAuthRequired | adminRoleBoundary | adminCsrf | adminSessionExpiry | adminObjectScope | adminRateLimit
  | websocketOrigin | websocketAuthRequired | websocketSessionExpiry | websocketReplay
  | websocketMessageAuthorization | websocketSizeLimit | websocketRateLimit | websocketStateMachine
  | websocketReconnect
  deriving DecidableEq

def Check.name : Check → Text
  | .adminAuthRequired => "admin.auth-required"
  | .adminRoleBoundary => "admin.role-boundary"
  | .adminCsrf => "admin.csrf"
  | .adminSessionExpiry => "admin.session-expiry"
  | .adminObjectScope => "admin.object-scope"
  | .adminRateLimit => "admin.rate-limit"
  | .websocketOrigin => "websocket.origin"
  | .websocketAuthRequired => "websocket.auth-required"
  | .websocketSessionExpiry => "websocket.session-expiry"
  | .websocketReplay => "websocket.replay"
  | .websocketMessageAuthorization => "websocket.message-authorization"
  | .websocketSizeLimit => "websocket.size-limit"
  | .websocketRateLimit => "websocket.rate-limit"
  | .websocketStateMachine => "websocket.state-machine"
  | .websocketReconnect => "websocket.reconnect"

def adminChecks : List Check :=
  [.adminAuthRequired, .adminRoleBoundary, .adminCsrf, .adminSessionExpiry, .adminObjectScope, .adminRateLimit]

def websocketChecks : List Check :=
  [.websocketOrigin, .websocketAuthRequired, .websocketSessionExpiry, .websocketReplay,
    .websocketMessageAuthorization, .websocketSizeLimit, .websocketRateLimit, .websocketStateMachine,
    .websocketReconnect]

def allChecks : List Check := adminChecks ++ websocketChecks

/-- `"admin" if check.startswith("admin.") else "websocket"` -/
def Check.surface (check : Check) : Surface := if check ∈ adminChecks then .admin else .websocket

inductive Operation where
  | login | sessionCheck | adminRead | adminWrite | wsConnect | wsMessage | wsClose
  deriving DecidableEq

def Operation.name : Operation → Text
  | .login => "login"
  | .sessionCheck => "session-check"
  | .adminRead => "admin-read"
  | .adminWrite => "admin-write"
  | .wsConnect => "ws-connect"
  | .wsMessage => "ws-message"
  | .wsClose => "ws-close"

def operations : List Operation :=
  [.login, .sessionCheck, .adminRead, .adminWrite, .wsConnect, .wsMessage, .wsClose]

/-- `operation.startswith("ws-")` -/
def Operation.isWs (operation : Operation) : Bool := operation ∈ [.wsConnect, .wsMessage, .wsClose]

inductive Outcome where
  | allowed | denied | rateLimited | expired | closed | rejected
  deriving DecidableEq

def Outcome.name : Outcome → Text
  | .allowed => "allowed"
  | .denied => "denied"
  | .rateLimited => "rate-limited"
  | .expired => "expired"
  | .closed => "closed"
  | .rejected => "rejected"

def outcomes : List Outcome := [.allowed, .denied, .rateLimited, .expired, .closed, .rejected]

inductive OriginClass where
  | allowed | disallowed
  deriving DecidableEq

def OriginClass.name : OriginClass → Text
  | .allowed => "allowed"
  | .disallowed => "disallowed"

def originClasses : List OriginClass := [.allowed, .disallowed]

inductive ExecutionClass where
  | offlineFixture | localLab | approvedTarget
  deriving DecidableEq

def ExecutionClass.name : ExecutionClass → Text
  | .offlineFixture => "offline_fixture"
  | .localLab => "local_lab"
  | .approvedTarget => "approved_target"

def executionClasses : List ExecutionClass := [.offlineFixture, .localLab, .approvedTarget]

inductive Provider where
  | env | fd | exec
  deriving DecidableEq

def Provider.name : Provider → Text
  | .env => "env"
  | .fd => "fd"
  | .exec => "exec"

section texts

def isUpper (code : Nat) : Bool := decide (65 ≤ code ∧ code ≤ 90)

def isIdCode (code : Nat) : Bool := isLower code || isDigit code || code = 46 || code = 45

/-- A full match of `[a-z][a-z0-9.-]{0,63}`. -/
def idOk (codes : Codes) : Bool :=
  match codes with
  | [] => false
  | first :: _ => decide (codes.length ≤ 64) && isLower first && codes.all isIdCode

/-- A full match of `[0-9]+\.[0-9]+\.[0-9]+`. -/
def versionOk (codes : Codes) : Bool :=
  match codes.splitOn dot with
  | [major, minor, patch] => [major, minor, patch].all fun part => !part.isEmpty && part.all isDigit
  | _ => false

def isAlnum (code : Nat) : Bool := isLower code || isUpper code || isDigit code

def isHostCode (code : Nat) : Bool := isAlnum code || code = 45

/-- `[A-Za-z0-9](?:[A-Za-z0-9-]{0,61}[A-Za-z0-9])?` -/
def labelOk (label : Codes) : Bool :=
  decide (label.length ≤ 63) && label.head?.any isAlnum && label.getLast?.any isAlnum && label.all isHostCode

/-- A full match of `_HOSTNAME`. -/
def hostnameOk (codes : Codes) : Bool :=
  decide (1 ≤ codes.length ∧ codes.length ≤ 253) && (codes.splitOn dot).all labelOk

/-- What follows a literal start. -/
def after? (start : String) (codes : Codes) : Option Codes :=
  if (Text.ofString start).codes.isPrefixOf codes then some (codes.drop (Text.ofString start).codes.length) else none

/-- `[A-Z][A-Z0-9_]{0,63}` -/
def envOk (codes : Codes) : Bool :=
  match codes with
  | [] => false
  | first :: _ =>
    decide (codes.length ≤ 64) && isUpper first && codes.all fun code => isUpper code || isDigit code || code = 95

/-- A decimal number from 3 to 255 without leading zeros. -/
def fdOk (codes : Codes) : Bool :=
  !codes.isEmpty && codes.all isDigit && decide (codes.length ≤ 3) && codes.head? ≠ some 48 &&
    decide (3 ≤ readNumeral 10 codes ∧ readNumeral 10 codes ≤ 255)

/-- The provider's pattern for its references. -/
def Provider.matches : Provider → Codes → Bool
  | .env, codes => (after? "env://" codes).any envOk
  | .fd, codes => (after? "fd://" codes).any fdOk
  | .exec, codes => (after? "exec://" codes).any idOk

end texts

abbrev Identifier := {t : Text // idOk t.codes = true}

section readers

/-- `value is None` -/
def isNull : JsonValue → Bool
  | .null => true
  | _ => false

def readIdentifier (value : JsonValue) (path : String) : Result Identifier :=
  match value with
  | .str t =>
    if ok : idOk t.codes = true then .ok ⟨t, ok⟩ else reject s!"{path} must be a bounded lowercase identifier"
  | _ => reject s!"{path} must be a bounded lowercase identifier"

/-- `_optional_identifier` -/
def readOptionalIdentifier (value : JsonValue) (path : String) : Result (Option Identifier) :=
  match value with
  | .null => .ok none
  | value => do return some (← readIdentifier value path)

def readVersion (value : JsonValue) (path : String) : Result {t : Text // versionOk t.codes = true} :=
  match value with
  | .str t => if ok : versionOk t.codes = true then .ok ⟨t, ok⟩ else reject s!"{path} must be semantic version X.Y.Z"
  | _ => reject s!"{path} must be semantic version X.Y.Z"

variable (library : Library)

/-- `_timestamp`, in microseconds. -/
def readTimestamp (value : JsonValue) (path : String) : Result Int :=
  match value with
  | .str t =>
    if t.codes.getLast? = some 90 then
      match library.fromisoformat (⟨t.codes.dropLast⟩ ++ ("+00:00" : Text)) with
      | none => reject s!"{path} must be a UTC RFC3339 timestamp"
      | some date => if date.utc then .ok date.microseconds else reject s!"{path} must be UTC"
    else reject s!"{path} must be a UTC RFC3339 timestamp"
  | _ => reject s!"{path} must be a UTC RFC3339 timestamp"

/-- `_origin` -/
def readOriginUrl (value : JsonValue) (path : String) : Result Text :=
  match value with
  | .str t => do
    require (decide (t.length ≤ 512)) s!"{path} must be a bounded HTTPS origin"
    let some parsed := library.urlsplit t | .error (.builtin .valueError)
    let some port := parsed.port | reject s!"{path} has an invalid port"
    require (parsed.scheme = "https" && parsed.hostname.any (fun host => !host.codes.isEmpty) &&
        parsed.username.isNone && parsed.password.isNone && (parsed.path = "" || parsed.path = "/") &&
        parsed.query.codes.isEmpty && parsed.fragment.codes.isEmpty &&
        port.all fun port => decide (1 ≤ port ∧ port ≤ 65535))
      s!"{path} must be an HTTPS origin without credentials or path"
    return t
  | _ => reject s!"{path} must be a bounded HTTPS origin"

end readers

section documents

def readSurface (value : JsonValue) (path : String) : Result Surface := readEnum Surface.name surfaces value path

/-- A list of surfaces that repeats none. -/
def readSurfaces (value : JsonValue) : Result (List Surface) := do
  let items ← readArray value "$.authorization.surfaces"
  let unique ← distinct items
  require unique "$.authorization.surfaces must be unique"
  readItems readSurface "$.authorization.surfaces" 0 items

/-- The window is there for approved targets only. -/
structure Authorization where
  reference : Option Identifier
  window : Option (Int × Int)
  surfaces : List Surface

/-- `_validate_authorization` -/
def readAuthorization (library : Library) (value : JsonValue) (executionClass : ExecutionClass) :
    Result Authorization := do
  let authorization ← readObject value "$.authorization"
  exactKeys authorization "$.authorization" ["required", "reference", "notBefore", "notAfter", "surfaces"]
  let required ← readBoolean (authorization.find "required") "$.authorization.required"
  let surfaces ← readSurfaces (authorization.find "surfaces")
  if executionClass = .approvedTarget then do
    require required "approved_target requires authorization.required=true"
    let reference ← readIdentifier (authorization.find "reference") "$.authorization.reference"
    let start ← readTimestamp library (authorization.find "notBefore") "$.authorization.notBefore"
    let finish ← readTimestamp library (authorization.find "notAfter") "$.authorization.notAfter"
    require (decide (start < finish)) "$.authorization.notAfter must follow notBefore"
    require (decide (finish - start ≤ 86400 * 1000000)) "authorization window cannot exceed 24 hours"
    require (!surfaces.isEmpty) "approved_target requires explicit authorized surfaces"
    return ⟨some reference, some (start, finish), surfaces⟩
  else do
    require (!(required || !surfaces.isEmpty ||
        ["reference", "notBefore", "notAfter"].any fun key => !isNull (authorization.find key)))
      "offline_fixture/local_lab cannot carry target authorization"
    return ⟨none, none, surfaces⟩

structure Destination where
  id : Identifier
  surface : Surface
  connectAddress : JsonValue
  port : {n : Nat // 1 ≤ n ∧ n ≤ 65535}
  tlsServerName : {t : Text // hostnameOk t.codes = true}

def readHostname (value : JsonValue) (path : String) : Result {t : Text // hostnameOk t.codes = true} :=
  match value with
  | .str t => if ok : hostnameOk t.codes = true then .ok ⟨t, ok⟩ else reject s!"{path} must be a DNS name"
  | _ => reject s!"{path} must be a DNS name"

/-- `ipaddress.ip_address`; nothing else that JSON holds has the text of an address. -/
def addressOf : JsonValue → Option Address
  | .str t => ipAddress (.str t)
  | .int n => ipAddress (.int n)
  | .bool b => ipAddress (.bool b)
  | _ => none

/-- A unicast address that the execution class may reach. -/
def requireReachable (executionClass : ExecutionClass) (value : JsonValue) (path : String) : Result Unit := do
  let some address := addressOf value | reject s!"{path}.connectAddress must be a literal IP"
  require (!(address.isMulticast || address.isUnspecified)) s!"{path}.connectAddress must be unicast"
  require (!(executionClass = .offlineFixture && !address.isLoopback))
    "offline_fixture destinations are loopback-only"
  require (!(executionClass = .localLab && !(address.isLoopback || address.isPrivate || address.isLinkLocal)))
    "local_lab destinations cannot use public addresses"

/-- A destination, whose identifier is none of those that are used. -/
def readDestination (executionClass : ExecutionClass) (used : List Identifier) (value : JsonValue) (path : String) :
    Result Destination := do
  let destination ← readObject value path
  exactKeys destination path ["id", "surface", "scheme", "connectAddress", "port", "tlsServerName"]
  let id ← readIdentifier (destination.find "id") s!"{path}.id"
  require (!used.contains id) s!"{path}.id is duplicated"
  let surface ← readSurface (destination.find "surface") s!"{path}.surface"
  require ((destination.find "scheme").isText surface.scheme) s!"{path}.scheme must be {surface.scheme.render}"
  requireReachable executionClass (destination.find "connectAddress") path
  let port ← readInteger (destination.find "port") s!"{path}.port" 1 65535
  let tlsServerName ← readHostname (destination.find "tlsServerName") s!"{path}.tlsServerName"
  return ⟨id, surface, destination.find "connectAddress", port, tlsServerName⟩

/-- Reads items in turn, each with what the ones before it have used. -/
def readFresh {α κ : Type} (key : α → κ) (read : List κ → JsonValue → String → Result α) (path : String) :
    Nat → List κ → List JsonValue → Result (List α)
  | _, _, [] => .ok []
  | index, used, item :: rest => do
    let first ← read used item s!"{path}[{index}]"
    return first :: (← readFresh key read path (index + 1) (used ++ [key first]) rest)

def requireDestinations (items : List JsonValue) : Result Unit :=
  require (!items.isEmpty && decide (items.length ≤ 8)) "$.destinations must contain 1 to 8 entries"

/-- `_validate_destinations` -/
def readDestinations (executionClass : ExecutionClass) (value : JsonValue) : Result (List Destination) := do
  let items ← readArray value "$.destinations"
  requireDestinations items
  readFresh Destination.id (readDestination executionClass) "$.destinations" 0 [] items

structure Credential where
  id : Identifier
  provider : Provider
  sourceRef : Text
  role : Identifier

def readCredential (used : List (Identifier × Identifier)) (value : JsonValue) (path : String) :
    Result Credential := do
  let credential ← readObject value path
  exactKeys credential path ["id", "provider", "sourceRef", "role"]
  let id ← readIdentifier (credential.find "id") s!"{path}.id"
  require (!(used.map Prod.fst).contains id) s!"{path}.id is duplicated"
  let provider ← readEnum Provider.name [.env, .fd, .exec] (credential.find "provider") s!"{path}.provider"
  let message := s!"{path}.sourceRef must be a bounded {provider.name.render} provider reference"
  let .str sourceRef := credential.find "sourceRef" | reject message
  require (provider.matches sourceRef.codes) message
  let role ← readIdentifier (credential.find "role") s!"{path}.role"
  require (!(used.map Prod.snd).contains role) s!"{path}.role must map to exactly one credential"
  return ⟨id, provider, sourceRef, role⟩

/-- `_validate_credentials` -/
def readCredentials (value : JsonValue) : Result (List Credential) := do
  let items ← readArray value "$.credentialRefs"
  require (decide (items.length ≤ 16)) "$.credentialRefs exceeds 16 entries"
  readFresh (fun credential => (credential.id, credential.role)) readCredential "$.credentialRefs" 0 [] items

structure Origin where
  id : Identifier
  value : Text
  classification : OriginClass

def readOrigin (library : Library) (used : List Identifier) (value : JsonValue) (path : String) : Result Origin := do
  let origin ← readObject value path
  exactKeys origin path ["id", "value", "classification"]
  let id ← readIdentifier (origin.find "id") s!"{path}.id"
  require (!used.contains id) s!"{path}.id is duplicated"
  let url ← readOriginUrl library (origin.find "value") s!"{path}.value"
  let classification ←
    readEnum OriginClass.name originClasses (origin.find "classification") s!"{path}.classification"
  return ⟨id, url, classification⟩

/-- `_validate_origins` -/
def readOrigins (library : Library) (value : JsonValue) : Result (List Origin) := do
  let items ← readArray value "$.origins"
  require (decide (items.length ≤ 16)) "$.origins exceeds 16 entries"
  readFresh Origin.id (readOrigin library) "$.origins" 0 [] items

def readChecks (value : JsonValue) : Result (List Check) := do
  let items ← readArray value "$.checks"
  let unique ← distinct items
  require (!items.isEmpty && unique) "$.checks must be non-empty and unique"
  readItems (readEnum Check.name allChecks) "$.checks" 0 items

/-- Each within its bounds of `LIMIT_BOUNDS`. -/
structure Limits where
  maxCases : {n : Nat // 1 ≤ n ∧ n ≤ 256}
  maxConnections : {n : Nat // 1 ≤ n ∧ n ≤ 64}
  maxHttpRequests : {n : Nat // 0 ≤ n ∧ n ≤ 1000}
  maxWsMessages : {n : Nat // 0 ≤ n ∧ n ≤ 10000}
  maxAuthFailures : {n : Nat // 0 ≤ n ∧ n ≤ 32}
  maxBytes : {n : Nat // 1 ≤ n ∧ n ≤ 16777216}
  maxDurationSeconds : {n : Nat // 1 ≤ n ∧ n ≤ 900}
  maxRequestsPerSecond : {n : Nat // 1 ≤ n ∧ n ≤ 100}

def readLimits (value : JsonValue) : Result Limits := do
  let limits ← readObject value "$.limits"
  exactKeys limits "$.limits" ["maxCases", "maxConnections", "maxHttpRequests", "maxWsMessages", "maxAuthFailures",
    "maxBytes", "maxDurationSeconds", "maxRequestsPerSecond"]
  return {
    maxCases := ← readInteger (limits.find "maxCases") "$.limits.maxCases" 1 256
    maxConnections := ← readInteger (limits.find "maxConnections") "$.limits.maxConnections" 1 64
    maxHttpRequests := ← readInteger (limits.find "maxHttpRequests") "$.limits.maxHttpRequests" 0 1000
    maxWsMessages := ← readInteger (limits.find "maxWsMessages") "$.limits.maxWsMessages" 0 10000
    maxAuthFailures := ← readInteger (limits.find "maxAuthFailures") "$.limits.maxAuthFailures" 0 32
    maxBytes := ← readInteger (limits.find "maxBytes") "$.limits.maxBytes" 1 16777216
    maxDurationSeconds := ← readInteger (limits.find "maxDurationSeconds") "$.limits.maxDurationSeconds" 1 900
    maxRequestsPerSecond :=
      ← readInteger (limits.find "maxRequestsPerSecond") "$.limits.maxRequestsPerSecond" 1 100 }

structure Profile where
  executionClass : ExecutionClass
  adapterId : Identifier
  adapterVersion : {t : Text // versionOk t.codes = true}
  authorization : Authorization
  destinations : List Destination
  credentialRefs : List Credential
  origins : List Origin
  checks : List Check
  limits : Limits

def validateProfile (library : Library) (document : JsonValue) : Result Profile := do
  let profile ← readObject document "$"
  exactKeys profile "$" ["apiVersion", "executionClass", "adapter", "authorization", "destinations",
    "credentialRefs", "origins", "checks", "limits"]
  require ((profile.find "apiVersion").isText profileVersion) "$.apiVersion is unsupported"
  let executionClass ←
    readEnum ExecutionClass.name executionClasses (profile.find "executionClass") "$.executionClass"
  let adapter ← readObject (profile.find "adapter") "$.adapter"
  exactKeys adapter "$.adapter" ["id", "version"]
  let adapterId ← readIdentifier (adapter.find "id") "$.adapter.id"
  let adapterVersion ← readVersion (adapter.find "version") "$.adapter.version"
  let authorization ← readAuthorization library (profile.find "authorization") executionClass
  let destinations ← readDestinations executionClass (profile.find "destinations")
  let credentialRefs ← readCredentials (profile.find "credentialRefs")
  let origins ← readOrigins library (profile.find "origins")
  let checks ← readChecks (profile.find "checks")
  require (checks.all fun check => (destinations.map Destination.surface).contains check.surface)
    "every selected check requires a matching destination"
  require (!(executionClass = .approvedTarget &&
      !checks.all fun check => authorization.surfaces.contains check.surface))
    "selected checks exceed independently authorized surfaces"
  require (!(checks.contains .websocketOrigin &&
      !originClasses.all fun classification => (origins.map Origin.classification).contains classification))
    "websocket.origin requires allowed and disallowed origin fixtures"
  let limits ← readLimits (profile.find "limits")
  return ⟨executionClass, adapterId, adapterVersion, authorization, destinations, credentialRefs, origins, checks,
    limits⟩

structure Route where
  id : Identifier
  surface : Surface
  operation : Operation

def readRoute (used : List Identifier) (value : JsonValue) (path : String) : Result Route := do
  let route ← readObject value path
  exactKeys route path ["id", "surface", "operation"]
  let id ← readIdentifier (route.find "id") s!"{path}.id"
  require (!used.contains id) s!"{path}.id is duplicated"
  let surface ← readSurface (route.find "surface") s!"{path}.surface"
  let operation ← readEnum Operation.name operations (route.find "operation") s!"{path}.operation"
  require (!(surface = .admin && operation.isWs)) s!"{path}.operation is incompatible with admin"
  require (!(surface = .websocket && !operation.isWs)) s!"{path}.operation is incompatible with websocket"
  return ⟨id, surface, operation⟩

structure Case where
  id : Identifier
  check : Check
  routeId : Identifier
  credentialRole : Option Identifier
  originClass : Option OriginClass
  expectedOutcome : Outcome
  deriving DecidableEq

/-- An origin class, or `None`. -/
def readOriginClass (value : JsonValue) (path : String) : Result (Option OriginClass) :=
  match value with
  | .null => .ok none
  | value => do return some (← readEnum OriginClass.name originClasses value path)

def readCase (checks : List Check) (routes : List Route) (used : List Identifier) (value : JsonValue)
    (path : String) : Result Case := do
  let case_ ← readObject value path
  exactKeys case_ path ["id", "check", "routeId", "credentialRole", "originClass", "expectedOutcome"]
  let id ← readIdentifier (case_.find "id") s!"{path}.id"
  require (!used.contains id) s!"{path}.id is duplicated"
  let check ← readEnum Check.name checks (case_.find "check") s!"{path}.check"
  let routeId ← readIdentifier (case_.find "routeId") s!"{path}.routeId"
  let some route := routes.find? fun route => route.id = routeId | reject s!"{path}.routeId is unknown"
  require (route.surface = check.surface) s!"{path} check and route surfaces differ"
  let credentialRole ← readOptionalIdentifier (case_.find "credentialRole") s!"{path}.credentialRole"
  let originClass ← readOriginClass (case_.find "originClass") s!"{path}.originClass"
  require (!(check = .websocketOrigin && originClass.isNone))
    s!"{path}.originClass is required for origin checks"
  let expectedOutcome ← readEnum Outcome.name outcomes (case_.find "expectedOutcome") s!"{path}.expectedOutcome"
  return ⟨id, check, routeId, credentialRole, originClass, expectedOutcome⟩

structure Adapter where
  id : Identifier
  version : {t : Text // versionOk t.codes = true}
  checks : List Check
  routes : List Route
  cases : List Case

def validateAdapter (document : JsonValue) : Result Adapter := do
  let adapter ← readObject document "$"
  exactKeys adapter "$" ["apiVersion", "id", "version", "checks", "routes", "cases"]
  require ((adapter.find "apiVersion").isText adapterVersion) "$.apiVersion is unsupported"
  let id ← readIdentifier (adapter.find "id") "$.id"
  let version ← readVersion (adapter.find "version") "$.version"
  let checks ← readChecks (adapter.find "checks")
  let routeItems ← readArray (adapter.find "routes") "$.routes"
  require (!routeItems.isEmpty && decide (routeItems.length ≤ 64)) "$.routes must contain 1 to 64 entries"
  let routes ← readFresh Route.id readRoute "$.routes" 0 [] routeItems
  let caseItems ← readArray (adapter.find "cases") "$.cases"
  require (!caseItems.isEmpty && decide (caseItems.length ≤ 256)) "$.cases must contain 1 to 256 entries"
  let cases ← readFresh Case.id (readCase checks routes) "$.cases" 0 [] caseItems
  return ⟨id, version, checks, routes, cases⟩

end documents

section compilation

inductive State where
  | notRequired | ready | blocked
  deriving DecidableEq

def State.name : State → Text
  | .notRequired => "not-required"
  | .ready => "ready"
  | .blocked => "blocked"

inductive Blocker where
  | windowNotStarted | windowExpired
  deriving DecidableEq

def Blocker.name : Blocker → Text
  | .windowNotStarted => "authorization-window-not-started"
  | .windowExpired => "authorization-window-expired"

structure PlanCase extends Case where
  credentialRef : Option Identifier
  deriving DecidableEq

structure Plan where
  executionClass : ExecutionClass
  adapterId : Identifier
  adapterVersion : Text
  state : State
  reference : Option Identifier
  surfaces : List Surface
  blockers : List Blocker
  destinations : List Destination
  cases : List PlanCase
  limits : Limits

/-- `role_refs` -/
def Profile.refOf (profile : Profile) (role : Identifier) : Option Identifier :=
  (profile.credentialRefs.find? fun credential => credential.role = role).map Credential.id

/-- Where the compile loop goes on without the case. -/
def Profile.skips (profile : Profile) (case_ : Case) : Bool :=
  !profile.checks.contains case_.check ||
    case_.credentialRole.any (fun role => (profile.refOf role).isNone) ||
    case_.originClass.any fun originClass => !(profile.origins.map Origin.classification).contains originClass

def Profile.compileCase (profile : Profile) (case_ : Case) : Option PlanCase :=
  if profile.skips case_ then none else some ⟨case_, case_.credentialRole.bind profile.refOf⟩

/-- The state of the authorization at a time, and what blocks it. -/
def Authorization.stateAt (authorization : Authorization) (now : Int) : State × List Blocker :=
  match authorization.window with
  | none => (.notRequired, [])
  | some (start, finish) =>
    if now < start then (.blocked, [.windowNotStarted])
    else if finish ≤ now then (.blocked, [.windowExpired])
    else (.ready, [])

/-- The plan at an aware time, in microseconds. -/
def compilePlan (library : Library) (now : Int) (profileDocument adapterDocument : JsonValue) : Result Plan := do
  let profile ← validateProfile library profileDocument
  let adapter ← validateAdapter adapterDocument
  require (profile.adapterId = adapter.id && profile.adapterVersion = adapter.version)
    "profile and adapter identity/version do not match"
  let unsupported := profile.checks.filter fun check => !adapter.checks.contains check
  require unsupported.isEmpty s!"adapter does not support: {joinSorted (unsupported.map Check.name)}"
  let cases := adapter.cases.filterMap profile.compileCase
  let uncovered := profile.checks.filter fun check => !(cases.map fun case_ => case_.check).contains check
  require uncovered.isEmpty s!"no applicable adapter cases for: {joinSorted (uncovered.map Check.name)}"
  require (decide (cases.length ≤ profile.limits.maxCases.val)) "applicable adapter cases exceed profile maxCases"
  let (state, blockers) := profile.authorization.stateAt now
  return {
    executionClass := profile.executionClass
    adapterId := profile.adapterId
    adapterVersion := profile.adapterVersion
    state
    reference := profile.authorization.reference
    surfaces := profile.authorization.surfaces
    blockers
    destinations := profile.destinations
    cases
    limits := profile.limits }

end compilation

section document

def optionalText (name : Option Text) : JsonValue := name.elim .null .str

def Destination.items (destination : Destination) : JsonDict :=
  [JsonDict.entry "id" (.str destination.id), JsonDict.entry "surface" (.str destination.surface.name),
    JsonDict.entry "scheme" (.str destination.surface.scheme),
    JsonDict.entry "connectAddress" destination.connectAddress,
    JsonDict.entry "port" (.int destination.port), JsonDict.entry "tlsServerName" (.str destination.tlsServerName)]

def PlanCase.items (case_ : PlanCase) : JsonDict :=
  [JsonDict.entry "id" (.str case_.id), JsonDict.entry "check" (.str case_.check.name),
    JsonDict.entry "routeId" (.str case_.routeId),
    JsonDict.entry "credentialRole" (optionalText (case_.credentialRole.map (·.val))),
    JsonDict.entry "originClass" (optionalText (case_.originClass.map OriginClass.name)),
    JsonDict.entry "expectedOutcome" (.str case_.expectedOutcome.name),
    JsonDict.entry "credentialRef" (optionalText (case_.credentialRef.map (·.val)))]

def Limits.items (limits : Limits) : JsonDict :=
  [JsonDict.entry "maxCases" (.int limits.maxCases.val),
    JsonDict.entry "maxConnections" (.int limits.maxConnections.val),
    JsonDict.entry "maxHttpRequests" (.int limits.maxHttpRequests.val),
    JsonDict.entry "maxWsMessages" (.int limits.maxWsMessages.val),
    JsonDict.entry "maxAuthFailures" (.int limits.maxAuthFailures.val),
    JsonDict.entry "maxBytes" (.int limits.maxBytes.val),
    JsonDict.entry "maxDurationSeconds" (.int limits.maxDurationSeconds.val),
    JsonDict.entry "maxRequestsPerSecond" (.int limits.maxRequestsPerSecond.val)]

def Plan.adapterItems (plan : Plan) : JsonDict :=
  [JsonDict.entry "id" (.str plan.adapterId), JsonDict.entry "version" (.str plan.adapterVersion)]

def Plan.authorizationItems (plan : Plan) : JsonDict :=
  [JsonDict.entry "state" (.str plan.state.name),
    JsonDict.entry "reference" (optionalText (plan.reference.map (·.val))),
    JsonDict.entry "surfaces" (.list (plan.surfaces.map fun surface => .str surface.name)),
    JsonDict.entry "blockers" (.list (plan.blockers.map fun blocker => .str blocker.name))]

/-- The plan that is returned, up to the order of the keys of what it copies. -/
def Plan.items (plan : Plan) : JsonDict :=
  [JsonDict.entry "apiVersion" (.str planVersion), JsonDict.entry "networkActivity" (.bool false),
    JsonDict.entry "executionClass" (.str plan.executionClass.name),
    JsonDict.entry "adapter" (.dict plan.adapterItems),
    JsonDict.entry "authorization" (.dict plan.authorizationItems),
    JsonDict.entry "destinations" (.list (plan.destinations.map fun destination => .dict destination.items)),
    JsonDict.entry "cases" (.list (plan.cases.map fun case_ => .dict case_.items)),
    JsonDict.entry "limits" (.dict plan.limits.items), JsonDict.entry "arbitraryRequestsAvailable" (.bool false)]

def Plan.document (plan : Plan) : JsonValue := .dict plan.items

end document

end Sippycup.WebSecurity
