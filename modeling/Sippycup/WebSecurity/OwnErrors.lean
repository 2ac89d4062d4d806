import Sippycup.WebSecurity.Observation
import Sippycup.Webrtc.OwnErrors

/-! Which exceptions leave the validators of web-security documents: what cannot be hashed, and
origins that are no URL. Observations raise no exception but their own. -/
namespace Sippycup.WebSecurity
open Sippycup.Python
open Sippycup.Webrtc

section readers

theorem ownErrors_readIdentifier (value : JsonValue) (path : String) : OwnErrors (readIdentifier value path) := by
  unfold readIdentifier
  split
  · split
    · exact ownErrors_ok _
    · exact ownErrors_reject _
  · exact ownErrors_reject _

theorem ownErrors_readOptionalIdentifier (value : JsonValue) (path : String) :
    OwnErrors (readOptionalIdentifier value path) := by
  unfold readOptionalIdentifier
  split
  · exact ownErrors_ok _
  · exact ownErrors_bind.mpr ⟨ownErrors_readIdentifier _ _, fun _ _ => ownErrors_pure _⟩

theorem ownErrors_readVersion (value : JsonValue) (path : String) : OwnErrors (readVersion value path) := by
  unfold readVersion
  split
  · split
    · exact ownErrors_ok _
    · exact ownErrors_reject _
  · exact ownErrors_reject _

theorem ownErrors_readHostname (value : JsonValue) (path : String) : OwnErrors (readHostname value path) := by
  unfold readHostname
  split
  · split
    · exact ownErrors_ok _
    · exact ownErrors_reject _
  · exact ownErrors_reject _

theorem ownErrors_readOriginClass (value : JsonValue) (path : String) : OwnErrors (readOriginClass value path) := by
  unfold readOriginClass
  split
  · exact ownErrors_ok _
  · exact ownErrors_bind.mpr ⟨ownErrors_readEnum _ _ _ _, fun _ _ => ownErrors_pure _⟩

theorem ownErrors_readTimestamp (library : Library) (value : JsonValue) (path : String) :
    OwnErrors (readTimestamp library value path) := by
  unfold readTimestamp
  split
  · refine ownErrors_ite ?_ (ownErrors_reject _)
    split
    · exact ownErrors_reject _
    · exact ownErrors_ite (ownErrors_ok _) (ownErrors_reject _)
  · exact ownErrors_reject _

theorem ownErrors_requireReachable (executionClass : ExecutionClass) (value : JsonValue) (path : String) :
    OwnErrors (requireReachable executionClass value path) := by
  unfold requireReachable
  split
  · simp only [ownErrors_bind, ownErrors_require, implies_true, and_self]
  · exact ownErrors_reject _

theorem ownErrors_readDestination (executionClass : ExecutionClass) (used : List Identifier) (value : JsonValue)
    (path : String) : OwnErrors (readDestination executionClass used value path) := by
  simp only [readDestination, ownErrors_bind, ownErrors_readObject, ownErrors_exactKeys, ownErrors_readIdentifier,
    ownErrors_require, readSurface, ownErrors_readEnum, ownErrors_requireReachable, ownErrors_readInteger,
    ownErrors_readHostname, ownErrors_pure, implies_true, and_self]

theorem ownErrors_readCredential (used : List (Identifier × Identifier)) (value : JsonValue) (path : String) :
    OwnErrors (readCredential used value path) := by
  simp only [readCredential, ownErrors_bind, ownErrors_readObject, ownErrors_exactKeys, ownErrors_readIdentifier,
    ownErrors_require, ownErrors_readEnum, true_and]
  intro _ _ _ _ _ _ _ _ _ _
  split
  · simp only [ownErrors_bind, ownErrors_require, ownErrors_readIdentifier, ownErrors_pure, implies_true, and_self]
  · exact ownErrors_reject _

theorem ownErrors_readRoute (used : List Identifier) (value : JsonValue) (path : String) :
    OwnErrors (readRoute used value path) := by
  simp only [readRoute, ownErrors_bind, ownErrors_readObject, ownErrors_exactKeys, ownErrors_readIdentifier,
    ownErrors_require, readSurface, ownErrors_readEnum, ownErrors_pure, implies_true, and_self]

theorem ownErrors_readCase (checks : List Check) (routes : List Route) (used : List Identifier) (value : JsonValue)
    (path : String) : OwnErrors (readCase checks routes used value path) := by
  simp only [readCase, ownErrors_bind, ownErrors_readObject, ownErrors_exactKeys, ownErrors_readIdentifier,
    ownErrors_require, ownErrors_readEnum, true_and]
  intro _ _ _ _ _ _ _ _ _ _ _ _
  split
  · simp only [ownErrors_bind, ownErrors_require, ownErrors_readOptionalIdentifier, ownErrors_readOriginClass,
      ownErrors_readEnum, ownErrors_pure, implies_true, and_self]
  · exact ownErrors_reject _

theorem ownErrors_readPlanCase (used : List Identifier) (value : JsonValue) (path : String) :
    OwnErrors (readPlanCase used value path) := by
  simp only [readPlanCase, ownErrors_bind, ownErrors_readObject, ownErrors_exactKeys, ownErrors_readIdentifier,
    ownErrors_require, ownErrors_readEnum, ownErrors_readOptionalIdentifier, ownErrors_readOriginClass,
    ownErrors_pure, implies_true, and_self]

theorem ownErrors_readLimits (value : JsonValue) : OwnErrors (readLimits value) := by
  simp only [readLimits, ownErrors_bind, ownErrors_readObject, ownErrors_exactKeys, ownErrors_readInteger,
    ownErrors_pure, implies_true, and_self]

/-- Items in turn that must be fresh: each of them behind those before it. -/
theorem ownErrors_readFresh {α κ : Type} {key : α → κ} {read : List κ → JsonValue → String → Result α} {path : String}
    {safe : List κ → String → JsonValue → Prop} (own : ∀ used item at_, OwnErrors (read used item at_) ↔ safe used at_ item)
    (items : List JsonValue) (index : Nat) (used : List κ) :
    OwnErrors (readFresh key read path index used items) ↔ ∀ front item back, items = front ++ item :: back →
      After (readFresh key read path index used front) fun results =>
        safe (used ++ results.map key) (itemPath path (index + front.length)) item := by
  induction items generalizing index used with
  | nil => exact iff_of_true (ownErrors_ok _) fun front item back absurd_ => by simp at absurd_
  | cons first rest ih =>
    have shifted (front : List JsonValue) : index + (first :: front).length = index + 1 + front.length := by
      rw [List.length_cons]
      omega
    have longer (a : α) (results : List α) :
        used ++ (a :: results).map key = used ++ [key a] ++ results.map key := by
      rw [List.map_cons, List.append_assoc, List.singleton_append]
    rw [readFresh, ownErrors_bind, own]
    constructor
    · rintro ⟨here, later⟩ front item back split
      cases front with
      | nil =>
        rw [List.nil_append, List.cons.injEq] at split
        refine after_pure.mpr ?_
        rw [List.map_nil, List.append_nil]
        exact split.1 ▸ here
      | cons other front =>
        rw [List.cons_append, List.cons.injEq] at split
        obtain ⟨rfl, rfl⟩ := split
        rw [readFresh, after_bind]
        intro a passed
        rw [after_bind, shifted]
        intro others read_
        refine after_pure.mpr ?_
        rw [longer]
        exact (ih (index + 1) (used ++ [key a])).mp (ownErrors_bind.mp (later a passed)).1 front item back rfl others read_
    · intro each
      refine ⟨?_, fun a passed => ownErrors_bind.mpr ⟨?_, fun _ _ => ownErrors_pure _⟩⟩
      · have here := after_pure.mp (each [] first rest rfl)
        rwa [List.map_nil, List.append_nil] at here
      · refine (ih (index + 1) (used ++ [key a])).mpr fun front item back split others read_ => ?_
        show safe (used ++ [key a] ++ others.map key) _ item
        rw [← shifted, ← longer]
        refine each (first :: front) item back (by rw [split]; rfl) (a :: others) ?_
        rw [readFresh, passed, ok_bind, read_]
        rfl

theorem ownErrors_readEachFresh {α κ : Type} {key : α → κ} {read : List κ → JsonValue → String → Result α} {path : String}
    (own : ∀ used item at_, OwnErrors (read used item at_)) (items : List JsonValue) (index : Nat) (used : List κ) :
    OwnErrors (readFresh key read path index used items) :=
  (ownErrors_readFresh (fun used item at_ => iff_true_intro (own used item at_)) items index used).mpr
    fun _ _ _ _ _ _ => trivial

theorem ownErrors_readChecks (value : JsonValue) : OwnErrors (readChecks value) ↔ Hashed value := by
  rw [readChecks, ownErrors_then (ownErrors_readArray _ _), after_readArray]
  refine forall_congr' fun items => forall_congr' fun _ => ?_
  rw [ownErrors_bind, ownErrors_distinct]
  refine and_iff_left fun unique _ => ownErrors_bind.mpr ⟨ownErrors_require _ _, fun _ _ => ?_⟩
  exact ownErrors_readEach (fun item at_ => ownErrors_readEnum _ _ item at_) _ _

theorem ownErrors_readSurfaces (value : JsonValue) : OwnErrors (readSurfaces value) ↔ Hashed value := by
  rw [readSurfaces, ownErrors_then (ownErrors_readArray _ _), after_readArray]
  refine forall_congr' fun items => forall_congr' fun _ => ?_
  rw [ownErrors_bind, ownErrors_distinct]
  refine and_iff_left fun unique _ => ownErrors_bind.mpr ⟨ownErrors_require _ _, fun _ _ => ?_⟩
  exact ownErrors_readEach (fun item at_ => ownErrors_readEnum _ _ item at_) _ _

end readers

section adapter

/-- The adapter, where its checks are read. -/
def adapterHead (document : JsonValue) : Result JsonDict := do
  let adapter ← readObject document "$"
  exactKeys adapter "$" ["apiVersion", "id", "version", "checks", "routes", "cases"]
  require ((adapter.find "apiVersion").isText adapterVersion) "$.apiVersion is unsupported"
  let _ ← readIdentifier (adapter.find "id") "$.id"
  let _ ← readVersion (adapter.find "version") "$.version"
  return adapter

def AdapterSafe (document : JsonValue) : Prop :=
  After (adapterHead document) fun adapter => Hashed (adapter.find "checks")

theorem ownErrors_validateAdapter (document : JsonValue) :
    OwnErrors (validateAdapter document) ↔ AdapterSafe document := by
  rw [validateAdapter, AdapterSafe, adapterHead, ownErrors_then (ownErrors_readObject _ _), after_bind]
  refine after_congr fun adapter => ?_
  rw [ownErrors_then (ownErrors_exactKeys _ _ _), after_bind]
  refine after_congr fun _ => ?_
  rw [ownErrors_then (ownErrors_require _ _), after_bind]
  refine after_congr fun _ => ?_
  rw [ownErrors_then (ownErrors_readIdentifier _ _), after_bind]
  refine after_congr fun _ => ?_
  rw [ownErrors_then (ownErrors_readVersion _ _), after_bind]
  refine after_congr fun _ => ?_
  rw [after_pure, ownErrors_bind, ownErrors_readChecks]
  refine and_iff_left fun checks _ => ?_
  simp only [ownErrors_bind, ownErrors_readArray, ownErrors_require, ownErrors_readEachFresh ownErrors_readRoute,
    ownErrors_readEachFresh (ownErrors_readCase _ _), ownErrors_pure, implies_true, and_self]

end adapter

section plan

/-- The authorization of a plan, where its surfaces are read. -/
def planHead (document : JsonValue) : Result JsonDict := do
  let plan ← readObject document "$"
  exactKeys plan "$" ["apiVersion", "networkActivity", "executionClass", "adapter", "authorization",
    "destinations", "cases", "limits", "arbitraryRequestsAvailable"]
  require ((plan.find "apiVersion").isText planVersion) "$.apiVersion is unsupported"
  require (isFalse (plan.find "networkActivity")) "$.networkActivity must be false"
  let _ ← readEnum ExecutionClass.name executionClasses (plan.find "executionClass") "$.executionClass"
  let adapter ← readObject (plan.find "adapter") "$.adapter"
  exactKeys adapter "$.adapter" ["id", "version"]
  let _ ← readIdentifier (adapter.find "id") "$.adapter.id"
  let _ ← readPlanVersion (adapter.find "version")
  let authorization ← readObject (plan.find "authorization") "$.authorization"
  exactKeys authorization "$.authorization" ["state", "reference", "surfaces", "blockers"]
  let _ ← readEnum State.name [.notRequired, .ready, .blocked] (authorization.find "state") "$.authorization.state"
  let _ ← readOptionalIdentifier (authorization.find "reference") "$.authorization.reference"
  return authorization

def PlanSafe (document : JsonValue) : Prop :=
  After (planHead document) fun authorization => Hashed (authorization.find "surfaces")

theorem ownErrors_readPlanVersion (value : JsonValue) : OwnErrors (readPlanVersion value) := by
  unfold readPlanVersion
  split
  · simp only [ownErrors_bind, ownErrors_require, ownErrors_pure, implies_true, and_self]
  · exact ownErrors_reject _

theorem ownErrors_readBlockers (items : List JsonValue) (path : String) (index : Nat) :
    OwnErrors (readItems readBlocker path index items) :=
  ownErrors_readEach (fun item at_ => ownErrors_readEnum _ _ item at_) items index

theorem ownErrors_readPlanDestinations (executionClass : ExecutionClass) (value : JsonValue) :
    OwnErrors (readPlanDestinations executionClass value) := by
  simp only [readPlanDestinations, requireDestinations, ownErrors_bind, ownErrors_readArray, ownErrors_require,
    ownErrors_readEach (ownErrors_readDestination executionClass []), implies_true, and_self]

theorem ownErrors_validatePlan (document : JsonValue) : OwnErrors (validatePlan document) ↔ PlanSafe document := by
  rw [validatePlan, PlanSafe, planHead, ownErrors_then (ownErrors_readObject _ _), after_bind]
  refine after_congr fun plan => ?_
  rw [ownErrors_then (ownErrors_exactKeys _ _ _), after_bind]
  refine after_congr fun _ => ?_
  rw [ownErrors_then (ownErrors_require _ _), after_bind]
  refine after_congr fun _ => ?_
  rw [ownErrors_then (ownErrors_require _ _), after_bind]
  refine after_congr fun _ => ?_
  rw [ownErrors_then (ownErrors_readEnum _ _ _ _), after_bind]
  refine after_congr fun executionClass => ?_
  rw [ownErrors_then (ownErrors_readObject _ _), after_bind]
  refine after_congr fun adapter => ?_
  rw [ownErrors_then (ownErrors_exactKeys _ _ _), after_bind]
  refine after_congr fun _ => ?_
  rw [ownErrors_then (ownErrors_readIdentifier _ _), after_bind]
  refine after_congr fun _ => ?_
  rw [ownErrors_then (ownErrors_readPlanVersion _), after_bind]
  refine after_congr fun _ => ?_
  rw [readPlanAuthorization, bind_assoc, ownErrors_then (ownErrors_readObject _ _), after_bind]
  refine after_congr fun authorization => ?_
  rw [bind_assoc, ownErrors_then (ownErrors_exactKeys _ _ _), after_bind]
  refine after_congr fun _ => ?_
  rw [bind_assoc, ownErrors_then (ownErrors_readEnum _ _ _ _), after_bind]
  refine after_congr fun _ => ?_
  rw [bind_assoc, ownErrors_then (ownErrors_readOptionalIdentifier _ _), after_bind]
  refine after_congr fun _ => ?_
  rw [after_pure, bind_assoc, ownErrors_bind, ownErrors_readSurfaces]
  refine and_iff_left fun surfaces _ => ownErrors_bind.mpr ⟨?_, fun authorization _ => ?_⟩
  · simp only [ownErrors_bind, ownErrors_readArray, ownErrors_readBlockers, ownErrors_require, true_and]
    intro _ _ _ _ _ _ _ _
    split <;> simp only [ownErrors_bind, ownErrors_require, ownErrors_pure, implies_true, and_self]
  · simp only [ownErrors_bind, ownErrors_readPlanDestinations, ownErrors_readArray, ownErrors_require,
      ownErrors_readEachFresh ownErrors_readPlanCase, ownErrors_readLimits, ownErrors_pure, implies_true, and_self]

end plan

section profile
variable (library : Library)

/-- The authorization of a profile, where its surfaces are read. -/
def profileAuthorization (value : JsonValue) : Result JsonDict := do
  let authorization ← readObject value "$.authorization"
  exactKeys authorization "$.authorization" ["required", "reference", "notBefore", "notAfter", "surfaces"]
  let _ ← readBoolean (authorization.find "required") "$.authorization.required"
  return authorization

/-- The profile, where its authorization is read. -/
def profileHead (document : JsonValue) : Result (JsonDict × ExecutionClass) := do
  let profile ← readObject document "$"
  exactKeys profile "$" ["apiVersion", "executionClass", "adapter", "authorization", "destinations",
    "credentialRefs", "origins", "checks", "limits"]
  require ((profile.find "apiVersion").isText profileVersion) "$.apiVersion is unsupported"
  let executionClass ←
    readEnum ExecutionClass.name executionClasses (profile.find "executionClass") "$.executionClass"
  let adapter ← readObject (profile.find "adapter") "$.adapter"
  exactKeys adapter "$.adapter" ["id", "version"]
  let _ ← readIdentifier (adapter.find "id") "$.adapter.id"
  let _ ← readVersion (adapter.find "version") "$.adapter.version"
  return (profile, executionClass)

/-- An origin, where its value is read. -/
def originHead (used : List Identifier) (value : JsonValue) (path : String) : Result JsonDict := do
  let origin ← readObject value path
  exactKeys origin path ["id", "value", "classification"]
  let id ← readIdentifier (origin.find "id") s!"{path}.id"
  require (!used.contains id) s!"{path}.id is duplicated"
  return origin

/-- A text that is short enough to be split, and can be. -/
def Splits (value : JsonValue) : Prop :=
  ∀ text, value = .str text → text.length ≤ 512 → (library.urlsplit text).isSome = true

/-- The origins, where each of them is read. -/
def originsHead (value : JsonValue) : Result (List JsonValue) := do
  let items ← readArray value "$.origins"
  require (decide (items.length ≤ 16)) "$.origins exceeds 16 entries"
  return items

/-- Origins, each behind those before it. -/
def OriginsSafe (value : JsonValue) : Prop :=
  After (originsHead value) fun items => ∀ front item back, items = front ++ item :: back →
    After (readFresh Origin.id (readOrigin library) "$.origins" 0 [] front) fun origins =>
      After (originHead (origins.map Origin.id) item (itemPath "$.origins" front.length)) fun origin =>
        Splits library (origin.find "value")

/-- Surfaces and checks that can be put into a set, and origins that can be split. -/
def ProfileSafe (document : JsonValue) : Prop :=
  After (profileHead document) fun (profile, executionClass) =>
    (After (profileAuthorization (profile.find "authorization")) fun authorization =>
      Hashed (authorization.find "surfaces")) ∧
    After (readAuthorization library (profile.find "authorization") executionClass) fun _ =>
      After (readDestinations executionClass (profile.find "destinations")) fun _ =>
        After (readCredentials (profile.find "credentialRefs")) fun _ =>
          OriginsSafe library (profile.find "origins") ∧
          After (readOrigins library (profile.find "origins")) fun _ => Hashed (profile.find "checks")

theorem ownErrors_readAuthorization (value : JsonValue) (executionClass : ExecutionClass) :
    OwnErrors (readAuthorization library value executionClass) ↔
      After (profileAuthorization value) fun authorization => Hashed (authorization.find "surfaces") := by
  rw [readAuthorization, profileAuthorization, ownErrors_then (ownErrors_readObject _ _), after_bind]
  refine after_congr fun authorization => ?_
  rw [ownErrors_then (ownErrors_exactKeys _ _ _), after_bind]
  refine after_congr fun _ => ?_
  rw [ownErrors_then (ownErrors_readBoolean _ _), after_bind]
  refine after_congr fun _ => ?_
  rw [after_pure, ownErrors_bind, ownErrors_readSurfaces]
  refine and_iff_left fun _ _ => ownErrors_ite ?_ ?_
  · simp only [ownErrors_bind, ownErrors_require, ownErrors_readIdentifier, ownErrors_readTimestamp, ownErrors_pure,
      implies_true, and_self]
  · simp only [ownErrors_bind, ownErrors_require, ownErrors_pure, implies_true, and_self]

theorem ownErrors_readDestinations (executionClass : ExecutionClass) (value : JsonValue) :
    OwnErrors (readDestinations executionClass value) := by
  simp only [readDestinations, requireDestinations, ownErrors_bind, ownErrors_readArray, ownErrors_require,
    ownErrors_readEachFresh (ownErrors_readDestination executionClass), implies_true, and_self]

theorem ownErrors_readCredentials (value : JsonValue) : OwnErrors (readCredentials value) := by
  simp only [readCredentials, ownErrors_bind, ownErrors_readArray, ownErrors_require,
    ownErrors_readEachFresh ownErrors_readCredential, implies_true, and_self]

theorem ownErrors_readOriginUrl (value : JsonValue) (path : String) :
    OwnErrors (readOriginUrl library value path) ↔ Splits library value := by
  unfold readOriginUrl Splits
  cases value with
  | str text =>
    rw [ownErrors_then (ownErrors_require _ _)]
    simp only [After, require_ok, decide_eq_true_eq, forall_const, JsonValue.str.injEq, forall_eq']
    refine imp_congr_right fun _ => ?_
    cases library.urlsplit text with
    | none => simp
    | some parsed =>
      refine iff_of_true ?_ rfl
      dsimp only
      split
      · exact ownErrors_bind.mpr ⟨ownErrors_require _ _, fun _ _ => ownErrors_pure _⟩
      · exact ownErrors_reject _
  | _ => exact iff_of_true (ownErrors_reject _) fun text absurd_ => by cases absurd_

theorem ownErrors_readOrigin (used : List Identifier) (value : JsonValue) (path : String) :
    OwnErrors (readOrigin library used value path) ↔
      After (originHead used value path) fun origin => Splits library (origin.find "value") := by
  rw [readOrigin, originHead, ownErrors_then (ownErrors_readObject _ _), after_bind]
  refine after_congr fun origin => ?_
  rw [ownErrors_then (ownErrors_exactKeys _ _ _), after_bind]
  refine after_congr fun _ => ?_
  rw [ownErrors_then (ownErrors_readIdentifier _ _), after_bind]
  refine after_congr fun _ => ?_
  rw [ownErrors_then (ownErrors_require _ _), after_bind]
  refine after_congr fun _ => ?_
  rw [after_pure, ownErrors_bind, ownErrors_readOriginUrl]
  refine and_iff_left fun _ _ => ?_
  simp only [ownErrors_bind, ownErrors_readEnum, ownErrors_pure, implies_true, and_self]

theorem ownErrors_readOrigins (value : JsonValue) : OwnErrors (readOrigins library value) ↔ OriginsSafe library value := by
  rw [readOrigins, OriginsSafe, originsHead, ownErrors_then (ownErrors_readArray _ _), after_bind]
  refine after_congr fun items => ?_
  rw [ownErrors_then (ownErrors_require _ _), after_bind]
  refine after_congr fun _ => ?_
  rw [after_pure, ownErrors_readFresh (ownErrors_readOrigin library)]
  simp only [List.nil_append, Nat.zero_add]

theorem ownErrors_validateProfile (document : JsonValue) :
    OwnErrors (validateProfile library document) ↔ ProfileSafe library document := by
  rw [validateProfile, ProfileSafe, profileHead, ownErrors_then (ownErrors_readObject _ _), after_bind]
  refine after_congr fun profile => ?_
  rw [ownErrors_then (ownErrors_exactKeys _ _ _), after_bind]
  refine after_congr fun _ => ?_
  rw [ownErrors_then (ownErrors_require _ _), after_bind]
  refine after_congr fun _ => ?_
  rw [ownErrors_then (ownErrors_readEnum _ _ _ _), after_bind]
  refine after_congr fun executionClass => ?_
  rw [ownErrors_then (ownErrors_readObject _ _), after_bind]
  refine after_congr fun adapter => ?_
  rw [ownErrors_then (ownErrors_exactKeys _ _ _), after_bind]
  refine after_congr fun _ => ?_
  rw [ownErrors_then (ownErrors_readIdentifier _ _), after_bind]
  refine after_congr fun _ => ?_
  rw [ownErrors_then (ownErrors_readVersion _ _), after_bind]
  refine after_congr fun _ => ?_
  rw [after_pure, ownErrors_bind, ownErrors_readAuthorization]
  refine and_congr_right fun _ => after_congr fun authorization => ?_
  rw [ownErrors_then (ownErrors_readDestinations _ _)]
  refine after_congr fun destinations => ?_
  rw [ownErrors_then (ownErrors_readCredentials _)]
  refine after_congr fun credentials => ?_
  rw [ownErrors_bind, ownErrors_readOrigins]
  refine and_congr_right fun _ => after_congr fun origins => ?_
  rw [ownErrors_bind, ownErrors_readChecks]
  refine and_iff_left fun checks _ => ?_
  simp only [ownErrors_bind, ownErrors_require, ownErrors_readLimits, ownErrors_pure, implies_true, and_self]

end profile

section observation

theorem ownErrors_readCounters (value : JsonValue) (path : String) : OwnErrors (readCounters value path) := by
  refine ownErrors_bind.mpr ⟨ownErrors_readObject _ _, fun counters _ => ?_⟩
  refine ownErrors_bind.mpr ⟨ownErrors_exactKeys _ _ _, fun _ _ => ?_⟩
  exact ownErrors_collect fun counter _ => ownErrors_readInteger _ _ _ _

theorem ownErrors_readCloseCode (value : JsonValue) (path : String) : OwnErrors (readCloseCode value path) := by
  unfold readCloseCode
  split
  · exact ownErrors_ok _
  · exact ownErrors_bind.mpr ⟨ownErrors_readInteger _ _ _ _, fun _ _ => ownErrors_pure _⟩

theorem ownErrors_readResult (lastSequence lastTime : Int) (caseIds : List Identifier) (item : JsonValue)
    (path : String) : OwnErrors (readResult lastSequence lastTime caseIds item path) := by
  simp only [readResult, ownErrors_bind, ownErrors_readObject, ownErrors_exactKeys, ownErrors_readInteger,
    ownErrors_require, ownErrors_readIdentifier, readSurface, ownErrors_readEnum, ownErrors_readCloseCode,
    ownErrors_readCounters, ownErrors_pure, implies_true, and_self]

theorem ownErrors_readResults (items : List JsonValue) (index : Nat) (lastSequence lastTime : Int)
    (caseIds : List Identifier) : OwnErrors (readResults index lastSequence lastTime caseIds items) := by
  induction items generalizing index lastSequence lastTime caseIds with
  | nil => exact ownErrors_ok _
  | cons first rest ih =>
    simp only [readResults, ownErrors_bind, ownErrors_readResult, ih, ownErrors_pure, implies_true, and_self]

theorem ownErrors_validateObservation (document : JsonValue) : OwnErrors (validateObservation document) := by
  simp only [validateObservation, ownErrors_bind, ownErrors_readObject, ownErrors_exactKeys, ownErrors_require,
    ownErrors_readBoolean, ownErrors_readDigest, ownErrors_readArray, ownErrors_readResults, ownErrors_readCounters,
    ownErrors_readInteger, ownErrors_pure, implies_true, and_self]

end observation

section validators

/-- One of the strict validators, with what it is given beside the document. -/
inductive Validator where
  | scenario (library : Contracts.Library) (adapterCapabilities : List Text)
  | result (library : Contracts.Library)
  | policy
  | iceObservation (maxEvents : Nat)
  | profile (library : Library)
  | adapter
  | plan
  | observation

/-- No exception of the language escapes the validator. -/
def Validator.rejectsOwn (document : JsonValue) : Validator → Prop
  | .scenario library adapterCapabilities =>
    OwnErrors (Contracts.validateScenario library document adapterCapabilities)
  | .result library => OwnErrors (Contracts.validateResult library document)
  | .policy => OwnErrors (IceTurn.validatePolicy document)
  | .iceObservation maxEvents => OwnErrors (IceTurn.validateObservation document maxEvents)
  | .profile library => OwnErrors (validateProfile library document)
  | .adapter => OwnErrors (validateAdapter document)
  | .plan => OwnErrors (validatePlan document)
  | .observation => OwnErrors (validateObservation document)

/-- What is put into a set can be hashed, what is joined is text, an integer that becomes a float
fits, and a text that is split is a URL. -/
def Validator.Safe (document : JsonValue) : Validator → Prop
  | .scenario library adapterCapabilities => Contracts.ScenarioSafe library adapterCapabilities document
  | .result _ => Contracts.ResultSafe document
  | .policy => IceTurn.PolicySafe document
  | .profile library => ProfileSafe library document
  | .adapter => AdapterSafe document
  | .plan => PlanSafe document
  | .iceObservation _ | .observation => True

/-- A validator rejects with its own error exactly when the document is safe for it. -/
theorem rejects_with_own_error_iff (validator : Validator) (document : JsonValue) :
    validator.rejectsOwn document ↔ validator.Safe document := by
  cases validator with
  | scenario library adapterCapabilities =>
    exact Contracts.ownErrors_validateScenario library adapterCapabilities document
  | result library => exact Contracts.ownErrors_validateResult library document
  | policy => exact IceTurn.ownErrors_validatePolicy document
  | iceObservation maxEvents => exact iff_true_intro (IceTurn.ownErrors_validateObservation document maxEvents)
  | profile library => exact ownErrors_validateProfile library document
  | adapter => exact ownErrors_validateAdapter document
  | plan => exact ownErrors_validatePlan document
  | observation => exact iff_true_intro (ownErrors_validateObservation document)

/-- An adapter whose only check is a list. -/
def nestedChecks : JsonValue :=
  .dict [("apiVersion", .str adapterVersion), ("id", .str "adapter"), ("version", .str "1.0.0"),
    ("checks", .list [.list []]), ("routes", .list []), ("cases", .list [])]

theorem nested_checks_escape : validateAdapter nestedChecks = .error (.builtin .typeError) ∧
    ¬ ∀ (validator : Validator) (document : JsonValue), validator.rejectsOwn document := by
  have escapes : validateAdapter nestedChecks = .error (.builtin .typeError) := rfl
  refine ⟨escapes, fun all => ?_⟩
  exact all .adapter nestedChecks .typeError escapes

end validators

end Sippycup.WebSecurity
