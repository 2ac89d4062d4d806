import Sippycup.Campaign.Generated
import Sippycup.Ip.Block

/-! Frozen plans as the runtime reads them: an untrusted JSON document, its
readers, and the parts of a plan that execution uses. -/
namespace Sippycup.Runtime
open Sippycup.Python Sippycup.Ip

structure RuntimeError where
  message : String
  deriving DecidableEq

abbrev Result := Except (Raised RuntimeError)

def fail {α : Type} (message : String) : Result α := .error (.own ⟨message⟩)

/-- Fails with `message` where `bad` holds. -/
def refuse (bad : Bool) (message : String) : Result Unit := if bad then fail message else .ok ()

def object (value : Value) (field : String) : Result Dict :=
  match value with
  | .dict entries => .ok entries
  | _ => fail s!"{field} must be an object"

/-- Names what is missing, then what is unsupported. -/
def fieldDetails (separator : String) (missing : List String) (extra : List Value) : Result String := do
  let absent := if missing = [] then [] else ["missing" ++ separator ++ joinNames missing]
  if extra.isEmpty then return "; ".intercalate absent
  else
    let names ← joinTexts extra
    return "; ".intercalate (absent ++ ["unsupported" ++ separator ++ names])

def exactKeys (value : Dict) (field : String) (expected : List String) : Result Unit := do
  let missing := missingKeys value expected
  let extra ← sortedKeys (unknownKeys value expected)
  if missing = [] ∧ extra.isEmpty then return ()
  else
    let details ← fieldDetails " " missing extra
    fail s!"{field} fields are invalid: {details}"

def uniqueArray (value : Value) (field : String) (allowEmpty : Bool) : Result (List Value) :=
  match value with
  | .list items =>
    if items.isEmpty && !allowEmpty then fail s!"{field} must be a non-empty array"
    else if (Campaign.firstDuplicate [] items).isSome then fail s!"{field} contains a duplicate value"
    else .ok items
  | _ =>
    let qualifier := if allowEmpty then "an array" else "a non-empty array"
    fail s!"{field} must be {qualifier}"

def isUint (value : Value) (positive : Bool) : Bool :=
  match value with
  | .int n => decide ((if positive then 1 else 0) ≤ n) && decide (n ≤ (2 ^ 64 - 1 : Int))
  | _ => false

/-- The number that `isUint` has found. -/
def natOf (value : Value) : Nat :=
  match value with
  | .int n => n.toNat
  | _ => 0

def textOf (value : Value) : Text :=
  match value with
  | .str t => t
  | _ => default

def isName (value : Value) : Bool :=
  match value with
  | .str t => nameOk t
  | _ => false

def isBool (value : Value) : Bool :=
  match value with
  | .bool _ => true
  | _ => false

inductive Quantity where
  | calls | packets | bytes | durationSeconds | concurrentCalls | packetsPerSecond | callsPerSecond
  deriving DecidableEq, Inhabited

def Quantity.name : Quantity → String
  | .calls => "calls"
  | .packets => "packets"
  | .bytes => "bytes"
  | .durationSeconds => "durationSeconds"
  | .concurrentCalls => "concurrentCalls"
  | .packetsPerSecond => "packetsPerSecond"
  | .callsPerSecond => "callsPerSecond"

def ceilingKeys : List Quantity :=
  [.calls, .packets, .bytes, .durationSeconds, .concurrentCalls, .packetsPerSecond, .callsPerSecond]

/-- The quantities that steps use up. -/
def totalKeys : List Quantity := [.calls, .packets, .bytes, .durationSeconds]

abbrev Amounts := Quantity → Nat

structure MediaPorts where
  start : Nat
  stop : Nat
  deriving DecidableEq

structure Authorization where
  networks : List Network
  signalingPorts : List Nat
  transports : List Text
  credentialRefs : List Text
  mediaPorts : MediaPorts
  hardMaxima : Amounts

structure Destination where
  target : Text
  address : Address
  transport : Text
  port : Value

inductive StepType where
  | options | call
  deriving DecidableEq

structure Step where
  index : Value
  case_ : Text
  sequence : Nat
  type : StepType
  target : Text
  credentialRef : Option Text
  addresses : List Text
  transport : Text
  port : Value
  budget : Amounts

structure Plan where
  name : Text
  manifestSha256 : Text
  authorization : Authorization
  matrix : Option Campaign.Matrix
  destinations : List Destination
  plannedTotals : Amounts
  steps : List Step
  captureFilter : Text

theorem refuse_ok {bad : Bool} {message : String} {u : Unit} :
    refuse bad message = .ok u ↔ bad = false := by
  cases bad <;> simp [refuse, fail]

theorem object_ok {value : Value} {field : String} {d : Dict} :
    object value field = .ok d ↔ value = .dict d := by
  cases value <;> simp [object, fail]

theorem uniqueArray_ok {value : Value} {field : String} {allowEmpty : Bool} {items : List Value} :
    uniqueArray value field allowEmpty = .ok items ↔
      value = .list items ∧ (allowEmpty = false → items ≠ []) ∧
        Campaign.firstDuplicate [] items = none := by
  cases value with
  | list found =>
    simp only [uniqueArray, fail, Value.list.injEq]
    cases found with
    | nil =>
      cases allowEmpty
      · simp only [List.isEmpty_nil, Bool.not_false, Bool.and_self, if_true, reduceCtorEq, false_iff]
        rintro ⟨rfl, nonempty, _⟩
        exact nonempty trivial rfl
      · simp only [List.isEmpty_nil, Bool.not_true, Bool.and_false, Bool.false_eq_true, if_false,
          Campaign.firstDuplicate, Option.isSome_none, Except.ok.injEq]
        constructor
        · rintro rfl
          exact ⟨rfl, by simp, rfl⟩
        · exact fun same => same.1
    | cons item rest =>
      simp only [List.isEmpty_cons, Bool.false_and, Bool.false_eq_true, if_false]
      split
      · rename_i repeated
        simp only [reduceCtorEq, false_iff]
        rintro ⟨rfl, _, unique⟩
        rw [unique] at repeated
        cases repeated
      · rename_i unique
        simp only [Except.ok.injEq]
        constructor
        · rintro rfl
          exact ⟨rfl, by simp, by simpa using unique⟩
        · exact fun same => same.1
  | _ => simp [uniqueArray, fail]

theorem isUint_iff {value : Value} {positive : Bool} :
    isUint value positive = true ↔
      ∃ n : Nat, value = .int n ∧ (positive = true → 0 < n) ∧ n < 2 ^ 64 := by
  cases value with
  | int m =>
    simp only [isUint, Bool.and_eq_true, decide_eq_true_eq, Value.int.injEq]
    constructor
    · rintro ⟨low, high⟩
      refine ⟨m.toNat, ?_, ?_, ?_⟩
      · split at low <;> omega
      · rintro rfl
        simp only [if_true] at low
        omega
      · split at low <;> omega
    · rintro ⟨n, rfl, low, high⟩
      cases positive
      · simp only [Bool.false_eq_true, if_false]
        omega
      · have := low rfl
        simp only [if_true]
        omega
  | _ => simp [isUint]

theorem isUint_natOf {value : Value} {positive : Bool} (valid : isUint value positive = true) :
    value = .int (natOf value) ∧ (positive = true → 0 < natOf value) := by
  obtain ⟨n, rfl, low, _⟩ := isUint_iff.1 valid
  exact ⟨rfl, low⟩

theorem isName_textOf {value : Value} (valid : isName value = true) :
    value = .str (textOf value) ∧ nameOk (textOf value) = true := by
  cases value with
  | str t => exact ⟨rfl, valid⟩
  | _ => cases valid

end Sippycup.Runtime

/-! The capture filter: one clause for each address, with every signaling
transport and port that some step uses there, and the media port range. -/
namespace Sippycup.Runtime
open Sippycup.Python Sippycup.Ip

/-- A transport and a port, as a member of a set: ports compare as numbers. -/
abbrev Service := Text × Value

def Service.same (a b : Service) : Bool := decide (a.1 = b.1) && Value.eq a.2 b.2

def addService (services : List Service) (service : Service) : List Service :=
  if services.any fun s => Service.same service s then services else services ++ [service]

/-- Addresses in the order of their first use, each with its services. -/
abbrev Scopes := List (Text × List Service)

def addScope (scopes : Scopes) (address : Text) (service : Service) : Scopes :=
  match scopes with
  | [] => [(address, [service])]
  | (known, services) :: rest =>
    if known = address then (known, addService services service) :: rest
    else (known, services) :: addScope rest address service

def addStep (scopes : Scopes) (step : Step) : Scopes :=
  step.addresses.foldl (fun scopes address => addScope scopes address (step.transport, step.port)) scopes

def scopesOf (steps : List Step) : Scopes := steps.foldl addStep []

/-- `(version, int)` of an address text. -/
def addressKey (address : Text) : Nat × Nat :=
  match ipAddress (.str address) with
  | some found => found.key
  | none => (0, 0)

def keyLe (a b : Nat × Nat) : Bool := decide (a.1 < b.1 ∨ a.1 = b.1 ∧ a.2 ≤ b.2)

def portLe (a b : Value) : Bool :=
  match a.number?, b.number? with
  | some m, some n => m.le n
  | _, _ => true

def Service.le (a b : Service) : Bool := a.1.lt b.1 || (decide (a.1 = b.1) && portLe a.2 b.2)

def sortServices (services : List Service) : List Service :=
  services.insertionSort fun a b => Service.le a b = true

def serviceFilter (service : Service) : Text :=
  (if service.1 = Text.ofString "udp" then Text.ofString "udp port " else "tcp port ") ++ service.2.str'

def mediaFilter (media : MediaPorts) : Text := Text.ofString s!"udp portrange {media.start}-{media.stop}"

def scopeFilter (media : MediaPorts) (scope : Text × List Service) : Text :=
  Text.ofString "(host " ++ scope.1 ++ " and (" ++
    Text.join " or " ((sortServices scope.2).map serviceFilter ++ [mediaFilter media]) ++ "))"

def sortScopes (scopes : Scopes) : Scopes :=
  scopes.insertionSort fun a b => keyLe (addressKey a.1) (addressKey b.1) = true

def captureFilter (steps : List Step) (media : MediaPorts) : Text :=
  Text.join " or " ((sortScopes (scopesOf steps)).map (scopeFilter media))

end Sippycup.Runtime
