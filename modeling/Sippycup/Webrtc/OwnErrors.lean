import Sippycup.Webrtc.Contracts
import Sippycup.Webrtc.IceTurn

/-! Which exceptions leave the strict validators. A validator raises its own error unless it comes
to put into a set what cannot be hashed, joins names that are no text, or converts a number that no
float can hold; each is said of the document behind the checks that come before it. -/
namespace Sippycup.Webrtc
open Sippycup.Python

section readers
variable {ε α β : Type}

/-- What holds where a check is passed, of what was read. -/
def After (check : Except ε α) (holds : α → Prop) : Prop := ∀ a, check = .ok a → holds a

theorem after_ok {a : α} {holds : α → Prop} : After (.ok a : Except ε α) holds ↔ holds a := by
  simp [After]

theorem after_pure {a : α} {holds : α → Prop} : After (pure a : Except ε α) holds ↔ holds a := after_ok

theorem after_bind {check : Except ε α} {next : α → Except ε β} {holds : β → Prop} :
    After (check >>= next) holds ↔ After check fun a => After (next a) holds := by
  cases check <;> simp [After, bind, Except.bind]

theorem after_congr {check : Except ε α} {holds also : α → Prop} (same : ∀ a, holds a ↔ also a) :
    After check holds ↔ After check also := by
  simp only [After, same]

/-- The rule of sequence: the first part, and behind it the second. -/
theorem ownErrors_then {check : Except (Raised ε) α} {next : α → Except (Raised ε) β} (own : OwnErrors check) :
    OwnErrors (check >>= next) ↔ After check fun a => OwnErrors (next a) := by
  rw [ownErrors_bind]
  exact and_iff_right own

/-- An array whose items can be put into a set. -/
def Hashed (value : JsonValue) : Prop := ∀ items, value = .list items → ∀ item ∈ items, item.hashable = true

/-- An array whose items can be put into a set, and are text unless one is repeated. -/
def Named (value : JsonValue) : Prop :=
  Hashed value ∧ ∀ items, value = .list items → items.Pairwise (fun a b => a.eq b = false) →
    ∀ item ∈ items, item.text?.isSome = true

variable [Rejects ε]

@[simp] theorem ownErrors_reject (message : String) : OwnErrors (reject message : Except (Raised ε) α) :=
  ownErrors_own _

@[simp] theorem ownErrors_require (holds : Bool) (message : String) :
    OwnErrors (require holds message : Except (Raised ε) Unit) := by
  unfold require
  exact ownErrors_ite (ownErrors_ok _) (ownErrors_reject _)

@[simp] theorem ownErrors_readObject (value : JsonValue) (path : String) :
    OwnErrors (readObject value path : Except (Raised ε) JsonDict) := by
  cases value <;> simp [readObject]

@[simp] theorem ownErrors_readArray (value : JsonValue) (path : String) :
    OwnErrors (readArray value path : Except (Raised ε) (List JsonValue)) := by
  cases value <;> simp [readArray]

@[simp] theorem ownErrors_readBoolean (value : JsonValue) (path : String) :
    OwnErrors (readBoolean value path : Except (Raised ε) Bool) := by
  cases value <;> simp [readBoolean]

@[simp] theorem ownErrors_exactKeys (value : JsonDict) (path : String) (required : List Text) :
    OwnErrors (exactKeys value path required : Except (Raised ε) Unit) := by
  simp [exactKeys, ownErrors_bind]

@[simp] theorem ownErrors_readInteger (value : JsonValue) (path : String) (minimum maximum : Nat) :
    OwnErrors (readInteger value path minimum maximum : Except (Raised ε) _) := by
  unfold readInteger
  split
  · split
    · exact ownErrors_ok _
    · exact ownErrors_reject _
  · exact ownErrors_reject _
  · exact ownErrors_reject _

@[simp] theorem ownErrors_readEnum {κ : Type} (name : κ → Text) (allowed : List κ) (value : JsonValue) (path : String) :
    OwnErrors (readEnum name allowed value path : Except (Raised ε) κ) := by
  unfold readEnum
  split
  · exact ownErrors_ok _
  · exact ownErrors_reject _

@[simp] theorem ownErrors_readDigest (value : JsonValue) (path : String) :
    OwnErrors (readDigest value path : Except (Raised ε) Text) := by
  unfold readDigest
  split
  · exact ownErrors_ite (ownErrors_ok _) (ownErrors_reject _)
  · exact ownErrors_reject _

@[simp] theorem ownErrors_readBounded (value : JsonValue) (path : String) (maximum : Nat) :
    OwnErrors (readBounded value path maximum : Except (Raised ε) Text) := by
  unfold readBounded
  split
  · exact ownErrors_ite (ownErrors_ok _) (ownErrors_reject _)
  · exact ownErrors_reject _

omit [Rejects ε] in
theorem ownErrors_distinct {items : List JsonValue} :
    OwnErrors (distinct items : Except (Raised ε) Bool) ↔ ∀ item ∈ items, item.hashable = true := by
  unfold distinct
  by_cases hashed : items.all JsonValue.hashable = true
  · rw [if_pos hashed]
    exact iff_of_true (ownErrors_ok _) (List.all_eq_true.mp hashed)
  · rw [if_neg hashed]
    exact iff_of_false (ownErrors_builtin _) (hashed ∘ List.all_eq_true.mpr)

theorem after_readArray {value : JsonValue} {path : String} {holds : List JsonValue → Prop} :
    After (readArray value path : Except (Raised ε) _) holds ↔ ∀ items, value = .list items → holds items := by
  simp [After]

def itemPath (path : String) (index : Nat) : String := s!"{path}[{index}]"

omit [Rejects ε] in
/-- Items in turn: each of them behind those before it. -/
theorem ownErrors_readItems {read : JsonValue → String → Except (Raised ε) α} {path : String}
    {safe : String → JsonValue → Prop} (own : ∀ item at_, OwnErrors (read item at_) ↔ safe at_ item)
    (items : List JsonValue) (index : Nat) :
    OwnErrors (readItems read path index items) ↔ ∀ front item back, items = front ++ item :: back →
      After (readItems read path index front) fun _ => safe (itemPath path (index + front.length)) item := by
  induction items generalizing index with
  | nil => exact iff_of_true (ownErrors_ok _) fun front item back absurd_ => by simp at absurd_
  | cons first rest ih =>
    have shifted (front : List JsonValue) : index + (first :: front).length = index + 1 + front.length := by
      rw [List.length_cons]
      omega
    rw [readItems, ownErrors_bind, own]
    constructor
    · rintro ⟨here, later⟩ front item back split
      cases front with
      | nil =>
        rw [List.nil_append, List.cons.injEq] at split
        exact fun _ _ => split.1 ▸ here
      | cons other front =>
        rw [List.cons_append, List.cons.injEq] at split
        obtain ⟨rfl, rfl⟩ := split
        rw [readItems, after_bind]
        intro a passed
        rw [after_bind, shifted]
        exact fun others read_ _ _ =>
          (ih (index + 1)).mp (ownErrors_bind.mp (later a passed)).1 front item back rfl others read_
    · intro each
      refine ⟨each [] first rest rfl [] rfl, fun a passed => ownErrors_bind.mpr ⟨?_, fun _ _ => ownErrors_pure _⟩⟩
      refine (ih (index + 1)).mpr fun front item back split others read_ => ?_
      rw [← shifted]
      refine each (first :: front) item back (by rw [split]; rfl) (a :: others) ?_
      rw [readItems, passed, ok_bind, read_]
      rfl

omit [Rejects ε] in
theorem ownErrors_readEach {read : JsonValue → String → Except (Raised ε) α} {path : String}
    (own : ∀ item at_, OwnErrors (read item at_)) (items : List JsonValue) (index : Nat) :
    OwnErrors (readItems read path index items) :=
  (ownErrors_readItems (fun item at_ => iff_true_intro (own item at_)) items index).mpr
    fun _ _ _ _ _ _ => trivial

end readers

namespace Contracts
variable (library : Library)

section readers
variable {value : JsonValue} {path : String}

@[simp] theorem ownErrors_readString (value : JsonValue) (path : String) : OwnErrors (readString value path) := by
  unfold readString
  split
  · exact ownErrors_ite (ownErrors_reject _) (ownErrors_ok _)
  · exact ownErrors_reject _

@[simp] theorem ownErrors_readMember {κ : Type} (name : κ → Text) (all : List κ) (value : JsonValue) (path : String) :
    OwnErrors (readMember name all value path) := by
  refine ownErrors_bind.mpr ⟨ownErrors_readString _ _, fun text _ => ?_⟩
  split
  · exact ownErrors_ok _
  · exact ownErrors_reject _

theorem ownErrors_readUnique : OwnErrors (readUnique value path) ↔ Hashed value := by
  rw [readUnique, ownErrors_then (ownErrors_readArray _ _), after_readArray]
  refine forall_congr' fun items => forall_congr' fun _ => ?_
  rw [ownErrors_bind, ownErrors_distinct]
  refine and_iff_left fun unique _ => ownErrors_bind.mpr ⟨ownErrors_require _ _, fun _ _ => ?_⟩
  exact ownErrors_pure _

theorem readUnique_ok {items : List JsonValue} :
    readUnique value path = .ok items ↔ value = .list items ∧ (∀ item ∈ items, item.hashable = true) ∧
      items.Pairwise fun a b => a.eq b = false := by
  cases value with
  | list entries =>
    simp only [readUnique, readArray, ok_bind, distinct, List.all_eq_true]
    by_cases hashed : ∀ item ∈ entries, item.hashable = true
    · rw [if_pos hashed]
      by_cases unique : entries.Pairwise fun a b => a.eq b = false
      · simp only [ok_bind, unique, decide_true, require, if_true, pure_ok, JsonValue.list.injEq]
        constructor
        · rintro rfl
          exact ⟨rfl, hashed, unique⟩
        · exact And.left
      · simp only [ok_bind, unique, decide_false, require, reject]
        refine iff_of_false (fun absurd_ => by cases absurd_) ?_
        rintro ⟨same, _, pairwise⟩
        exact unique (JsonValue.list.inj same ▸ pairwise)
    · rw [if_neg hashed]
      refine iff_of_false (fun absurd_ => by cases absurd_) ?_
      rintro ⟨same, all, _⟩
      exact hashed (JsonValue.list.inj same ▸ all)
  | _ => simp [readUnique, readArray, reject, bind, Except.bind]

theorem mapM_text?_isSome {items : List JsonValue} :
    (items.mapM JsonValue.text?).isSome = true ↔ ∀ item ∈ items, item.text?.isSome = true := by
  induction items with
  | nil => simp
  | cons first rest ih =>
    rw [List.mapM_cons]
    cases text : first.text? with
    | none => simp [text]
    | some t =>
      simp only [List.mem_cons, forall_eq_or_imp, text, Option.isSome_some, true_and, ← ih]
      cases rest.mapM JsonValue.text? <;> simp

/-- Supported names are text, so that only those that are not decide whether joining raises. -/
theorem unsupported_text {supported : List Text} {items : List JsonValue} :
    (∀ item ∈ items.filter fun item => !supported.any fun name => item.isText name, item.text?.isSome = true) ↔
      ∀ item ∈ items, item.text?.isSome = true := by
  refine ⟨fun all item member => ?_, fun all item member => all item (List.mem_filter.mp member).1⟩
  cases known : supported.any fun name => item.isText name with
  | false => exact all item (List.mem_filter.mpr ⟨member, by simp [known]⟩)
  | true =>
    obtain ⟨name, _, same⟩ := List.any_eq_true.mp known
    rw [JsonValue.isText_iff.1 same]
    rfl

theorem ownErrors_readSupported {supported : List Text} :
    OwnErrors (readSupported supported value path) ↔ Named value := by
  rw [readSupported, ownErrors_bind, ownErrors_readUnique]
  refine and_congr_right fun hashed => ?_
  simp only [readUnique_ok]
  refine forall_congr' fun items => ?_
  refine (forall_congr' fun _ => (?_ : _ ↔ ∀ item ∈ items, item.text?.isSome = true)).trans
    ⟨fun all same pairwise => all ⟨same, hashed items same, pairwise⟩, fun all both => all both.1 both.2.2⟩
  rw [← @unsupported_text supported, ← mapM_text?_isSome]
  split
  · rename_i none
    simp [none]
  · rename_i none
    simp [none]
  · rename_i names _ some_
    simp [some_]

@[simp] theorem ownErrors_readTimestamp (value : JsonValue) (path : String) :
    OwnErrors (readTimestamp library value path) := by
  refine ownErrors_bind.mpr ⟨ownErrors_readString _ _, fun text _ => ?_⟩
  split
  · exact ownErrors_reject _
  · exact ownErrors_reject _
  · exact ownErrors_ok _

mutual
theorem ownErrors_scanForSecrets (value : JsonValue) (path : String) : OwnErrors (scanForSecrets library value path) := by
  cases value with
  | dict entries => rw [scanForSecrets]; exact ownErrors_scanEntries entries path
  | list items => rw [scanForSecrets]; exact ownErrors_scanItems items 0 path
  | str text => rw [scanForSecrets]; exact ownErrors_require _ _
  | _ => simp [scanForSecrets]

theorem ownErrors_scanEntries (entries : List (Text × JsonValue)) (path : String) :
    OwnErrors (scanEntries library entries path) := by
  cases entries with
  | nil => rw [scanEntries]; exact ownErrors_ok _
  | cons first rest =>
    rw [scanEntries]
    refine ownErrors_bind.mpr ⟨ownErrors_require _ _, fun _ _ => ownErrors_bind.mpr ⟨?_, fun _ _ => ?_⟩⟩
    · exact ownErrors_scanForSecrets first.2 _
    · exact ownErrors_scanEntries rest path

theorem ownErrors_scanItems (items : List JsonValue) (index : Nat) (path : String) :
    OwnErrors (scanItems library items index path) := by
  cases items with
  | nil => rw [scanItems]; exact ownErrors_ok _
  | cons first rest =>
    rw [scanItems]
    refine ownErrors_bind.mpr ⟨ownErrors_scanForSecrets first _, fun _ _ => ?_⟩
    exact ownErrors_scanItems rest (index + 1) path
end

end readers

section scenario

/-- The authorization, where its flag is read. -/
def authorizationHead (value : JsonValue) : Result JsonDict := do
  let authorization ← readObject value "$.authorization"
  exactKeys authorization "$.authorization" ["required", "approvalRef", "validFrom", "validUntil", "negativeTests"]
  let _ ← readBoolean (authorization.find "required") "$.authorization.required"
  return authorization

theorem ownErrors_validateAuthorization (value : JsonValue) (executionClass : ExecutionClass) :
    OwnErrors (validateAuthorization library value executionClass) ↔
      After (authorizationHead value) fun authorization => Named (authorization.find "negativeTests") := by
  rw [validateAuthorization, authorizationHead, ownErrors_then (ownErrors_readObject _ _), after_bind]
  refine after_congr fun authorization => ?_
  rw [ownErrors_then (ownErrors_exactKeys _ _ _), after_bind]
  refine after_congr fun _ => ?_
  rw [ownErrors_then (ownErrors_readBoolean _ _), after_bind]
  refine after_congr fun required => ?_
  rw [after_pure, ownErrors_bind, ownErrors_readSupported]
  refine and_iff_left fun _ _ => ownErrors_ite ?_ (ownErrors_require _ _)
  simp only [ownErrors_bind, ownErrors_require, ownErrors_readString, ownErrors_readTimestamp, implies_true, and_self]

theorem ownErrors_readDestination (executionClass : ExecutionClass) (value : JsonValue) (path : String) :
    OwnErrors (readDestination executionClass value path) := by
  simp only [readDestination, ownErrors_bind, ownErrors_readObject, ownErrors_exactKeys, ownErrors_readMember,
    ownErrors_readString, true_and]
  intro _ _ _ _ _ _ text _
  split
  · simp only [ownErrors_bind, ownErrors_readInteger, ownErrors_readMember, ownErrors_require, ownErrors_pure,
      implies_true, and_self]
  · exact ownErrors_reject _

theorem ownErrors_validateDestinations (value : JsonValue) (executionClass : ExecutionClass) :
    OwnErrors (validateDestinations value executionClass) := by
  have each (items : List JsonValue) (index : Nat) (seen : List Destination) :
      OwnErrors (readDestinations executionClass index seen items) := by
    induction items generalizing index seen with
    | nil => exact ownErrors_ok _
    | cons first rest ih =>
      simp only [readDestinations, ownErrors_bind, ownErrors_readDestination, ownErrors_require, ih, implies_true,
        and_self]
  simp only [validateDestinations, ownErrors_bind, ownErrors_readArray, ownErrors_require, each, implies_true, and_self]

theorem ownErrors_validateCredentials (value : JsonValue) : OwnErrors (validateCredentials value) ↔ Hashed value := by
  rw [validateCredentials, ownErrors_bind, ownErrors_readUnique]
  refine and_iff_left fun items _ => ownErrors_bind.mpr ⟨ownErrors_readEach (fun item at_ => ?_) _ _, fun _ _ => ?_⟩
  · simp only [readCredential, ownErrors_bind, ownErrors_readString, ownErrors_require, ownErrors_pure, implies_true,
      and_self]
  · exact ownErrors_pure _

theorem ownErrors_validateLimits (value : JsonValue) : OwnErrors (validateLimits value) := by
  simp only [validateLimits, ownErrors_bind, ownErrors_readObject, ownErrors_exactKeys, ownErrors_readInteger,
    ownErrors_require, ownErrors_pure, implies_true, and_self]

theorem ownErrors_validateNegotiation (value : JsonValue) (required : List Text) :
    OwnErrors (validateNegotiation value required) := by
  have flags (entries : List (Text × JsonValue)) : OwnErrors (readFlags entries) := by
    induction entries with
    | nil => exact ownErrors_ok _
    | cons first rest ih => simp only [readFlags, ownErrors_bind, ownErrors_readBoolean, ih, implies_true, and_self]
  simp only [validateNegotiation, ownErrors_bind, ownErrors_readObject, ownErrors_exactKeys, flags, ownErrors_require,
    implies_true, and_self]

theorem ownErrors_validateRetention (value : JsonValue) (executionClass : ExecutionClass) :
    OwnErrors (validateRetention value executionClass) := by
  simp only [validateRetention, ownErrors_bind, ownErrors_readObject, ownErrors_exactKeys, ownErrors_readBoolean,
    ownErrors_require, implies_true, and_self]

theorem ownErrors_readHead (document : JsonValue) : OwnErrors (readHead document) := by
  simp only [readHead, ownErrors_bind, ownErrors_readObject, ownErrors_exactKeys, ownErrors_require,
    ownErrors_readString, ownErrors_readMember, ownErrors_pure, implies_true, and_self]

/-- Where the names of a scenario come to be looked at: the capabilities of its adapter, the
negative tests of its authorization, and the references to credentials. -/
def ScenarioSafe (adapterCapabilities : List Text) (document : JsonValue) : Prop :=
  After (readHead document) fun (scenario, executionClass, adapter) =>
    Named (adapter.find "requiredCapabilities") ∧
    After (readSupported capabilities (adapter.find "requiredCapabilities") "$.adapter.requiredCapabilities") fun required =>
      (∀ name ∈ required, name ∈ adapterCapabilities) →
        (After (authorizationHead (scenario.find "authorization")) fun authorization =>
          Named (authorization.find "negativeTests")) ∧
        (After (validateAuthorization library (scenario.find "authorization") executionClass) fun _ =>
          After (validateDestinations (scenario.find "destinations") executionClass) fun _ =>
            Hashed (scenario.find "credentialRefs"))

theorem ownErrors_validateScenario (adapterCapabilities : List Text) (document : JsonValue) :
    OwnErrors (validateScenario library document adapterCapabilities) ↔
      ScenarioSafe library adapterCapabilities document := by
  rw [validateScenario, ScenarioSafe, ownErrors_then (ownErrors_readHead _)]
  refine after_congr fun ⟨scenario, executionClass, adapter⟩ => ?_
  rw [ownErrors_bind, ownErrors_readSupported]
  refine and_congr_right fun _ => forall_congr' fun required => forall_congr' fun _ => ?_
  rw [ownErrors_then (ownErrors_require _ _)]
  have provided : (required.filter fun name => !adapterCapabilities.contains name).isEmpty = true ↔
      ∀ name ∈ required, name ∈ adapterCapabilities := by
    simp [List.isEmpty_iff, List.filter_eq_nil_iff]
  simp only [After, require_ok, provided, forall_const]
  refine imp_congr_right fun _ => ?_
  rw [ownErrors_bind, ownErrors_validateAuthorization]
  refine and_congr_right fun _ => forall_congr' fun _ => forall_congr' fun _ => ?_
  rw [ownErrors_then (ownErrors_validateDestinations _ _)]
  refine after_congr fun _ => ?_
  rw [ownErrors_bind, ownErrors_validateCredentials]
  refine and_iff_left fun _ _ => ?_
  simp only [ownErrors_bind, ownErrors_validateLimits, ownErrors_validateNegotiation, ownErrors_validateRetention,
    ownErrors_scanForSecrets, ownErrors_pure, implies_true, and_self]

end scenario

section result

/-- An assertion, where its verdict is read. -/
def assertionHead (item : JsonValue) (path : String) : Result (JsonDict × Verdict) := do
  let assertion ← readObject item path
  exactKeys assertion path ["id", "verdict", "unknownReason", "evidenceRefs"]
  let _ ← readString (assertion.find "id") s!"{path}.id"
  let verdict ←
    readMember Verdict.name [.pass, .fail, .unknown, .notApplicable] (assertion.find "verdict") s!"{path}.verdict"
  return (assertion, verdict)

/-- A reason that can be looked up where the verdict is unknown, and references that can be hashed. -/
def AssertionSafe (path : String) (item : JsonValue) : Prop :=
  After (assertionHead item path) fun (assertion, verdict) =>
    (verdict = .unknown → (assertion.find "unknownReason").hashable = true) ∧
      After (checkReason verdict (assertion.find "unknownReason") path) fun _ => Hashed (assertion.find "evidenceRefs")

theorem ownErrors_checkReason (verdict : Verdict) (reason : JsonValue) (path : String) :
    OwnErrors (checkReason verdict reason path) ↔ (verdict = .unknown → reason.hashable = true) := by
  unfold checkReason
  by_cases unknown : verdict = .unknown
  · rw [if_pos unknown, ownErrors_bind]
    unfold JsonValue.inSet
    cases hashed : reason.hashable <;> simp [unknown]
  · rw [if_neg unknown]
    exact iff_of_true (ownErrors_require _ _) fun absurd_ => absurd absurd_ unknown

theorem ownErrors_readAssertion (item : JsonValue) (path : String) :
    OwnErrors (readAssertion item path) ↔ AssertionSafe path item := by
  rw [readAssertion, AssertionSafe, assertionHead, ownErrors_then (ownErrors_readObject _ _), after_bind]
  refine after_congr fun assertion => ?_
  rw [ownErrors_then (ownErrors_exactKeys _ _ _), after_bind]
  refine after_congr fun _ => ?_
  rw [ownErrors_then (ownErrors_readString _ _), after_bind]
  refine after_congr fun _ => ?_
  rw [ownErrors_then (ownErrors_readMember _ _ _ _), after_bind]
  refine after_congr fun verdict => ?_
  rw [after_pure, ownErrors_bind, ownErrors_checkReason]
  refine and_congr_right fun _ => forall_congr' fun _ => forall_congr' fun _ => ?_
  rw [ownErrors_bind, ownErrors_readUnique]
  refine and_iff_left fun items _ => ownErrors_bind.mpr ⟨ownErrors_readEach ownErrors_readString _ _, fun _ _ => ?_⟩
  exact ownErrors_pure _

theorem ownErrors_readSummary (value : JsonValue) : OwnErrors (readSummary value) := by
  have each (entries : List (Text × JsonValue)) : OwnErrors (readEachCount entries) := by
    induction entries with
    | nil => exact ownErrors_ok _
    | cons first rest ih =>
      simp only [readEachCount, ownErrors_bind, ownErrors_readInteger, ih, ownErrors_pure, implies_true, and_self]
  simp only [readSummary, ownErrors_bind, ownErrors_readObject, ownErrors_exactKeys, each, ownErrors_require,
    ownErrors_pure, implies_true, and_self]

theorem ownErrors_readEvents (items : List JsonValue) (index : Nat) (lastSequence : Int) :
    OwnErrors (readEvents index lastSequence items) := by
  induction items generalizing index lastSequence with
  | nil => exact ownErrors_ok _
  | cons first rest ih =>
    simp only [readEvents, ownErrors_bind, ownErrors_readObject, ownErrors_exactKeys, ownErrors_readInteger,
      ownErrors_require, ownErrors_readString, ih, implies_true, and_self]

theorem ownErrors_readPrologue (document : JsonValue) : OwnErrors (readPrologue document) := by
  simp only [readPrologue, ownErrors_bind, ownErrors_readObject, ownErrors_exactKeys, ownErrors_require,
    ownErrors_readString, ownErrors_readMember, ownErrors_readBoolean, ownErrors_readSummary, ownErrors_readArray,
    ownErrors_readEvents, ownErrors_pure, implies_true, and_self]

theorem ownErrors_checkCounts (counts : Counts) (status : Status) (assertions : List Assertion) :
    OwnErrors (checkCounts counts status assertions) := by
  simp only [checkCounts, ownErrors_bind, ownErrors_require, implies_true, and_self]

theorem ownErrors_checkEvidence (value : JsonValue) (assertions : List Assertion) :
    OwnErrors (checkEvidence value assertions) := by
  have each (items : List JsonValue) (index : Nat) (ids : List Text) : OwnErrors (readArtifacts index ids items) := by
    induction items generalizing index ids with
    | nil => exact ownErrors_ok _
    | cons first rest ih =>
      simp only [readArtifacts, ownErrors_bind, ownErrors_readObject, ownErrors_exactKeys, ownErrors_readString,
        ownErrors_require, ih, implies_true, and_self]
  simp only [checkEvidence, ownErrors_bind, ownErrors_readArray, each, ownErrors_require, implies_true, and_self]

/-- The redactions, where they are counted. -/
def redactionsHead (value : JsonValue) : Result JsonDict := do
  let redactions ← readObject value "$.redactions"
  exactKeys redactions "$.redactions" ["count", "classes"]
  let _ ← readInteger (redactions.find "count") "$.redactions.count" 0 1000000
  return redactions

theorem ownErrors_validateRedactions (value : JsonValue) : OwnErrors (validateRedactions value) ↔
    After (redactionsHead value) fun redactions => Hashed (redactions.find "classes") := by
  rw [validateRedactions, redactionsHead, ownErrors_then (ownErrors_readObject _ _), after_bind]
  refine after_congr fun redactions => ?_
  rw [ownErrors_then (ownErrors_exactKeys _ _ _), after_bind]
  refine after_congr fun _ => ?_
  rw [ownErrors_then (ownErrors_readInteger _ _ _ _), after_bind]
  refine after_congr fun _ => ?_
  rw [after_pure, ownErrors_bind, ownErrors_readUnique]
  refine and_iff_left fun items _ => ownErrors_bind.mpr ⟨ownErrors_readEach ownErrors_readString _ _, fun _ _ => ?_⟩
  exact ownErrors_pure _

/-- Each assertion behind those before it, and the classes of redactions behind them all. -/
def ResultSafe (document : JsonValue) : Prop :=
  After (readPrologue document) fun (result, status, counts, items) =>
    (∀ front item back, items = front ++ item :: back →
      After (readItems readAssertion "$.assertions" 0 front) fun _ =>
        AssertionSafe (itemPath "$.assertions" front.length) item) ∧
    After (readItems readAssertion "$.assertions" 0 items) fun assertions =>
      After (checkCounts counts status assertions) fun _ =>
        After (checkEvidence (result.find "evidence") assertions) fun _ =>
          After (redactionsHead (result.find "redactions")) fun redactions => Hashed (redactions.find "classes")

theorem ownErrors_validateResult (document : JsonValue) :
    OwnErrors (validateResult library document) ↔ ResultSafe document := by
  rw [validateResult, ResultSafe, ownErrors_then (ownErrors_readPrologue _)]
  refine after_congr fun ⟨result, status, counts, items⟩ => ?_
  rw [ownErrors_bind]
  refine and_congr ?_ (after_congr fun assertions => ?_)
  · rw [ownErrors_readItems fun item at_ => ownErrors_readAssertion item at_]
    simp only [Nat.zero_add]
  · rw [ownErrors_then (ownErrors_checkCounts _ _ _)]
    refine after_congr fun _ => ?_
    rw [ownErrors_then (ownErrors_checkEvidence _ _)]
    refine after_congr fun _ => ?_
    rw [ownErrors_bind, ownErrors_validateRedactions]
    refine and_iff_left fun _ _ => ?_
    simp only [ownErrors_bind, ownErrors_scanForSecrets, ownErrors_pure, implies_true, and_self]

end result

end Contracts

namespace IceTurn

/-- An integer that a float can hold, or no integer. -/
def Convertible (value : JsonValue) : Prop := ∀ n, value = .int n → (Number.int n).toDouble?.isSome = true

theorem ownErrors_readChosen {κ : Type} {name : κ → Text} {all : List κ} {value : JsonValue} {path : String} :
    OwnErrors (readChosen name all value path) ↔ Hashed value := by
  rw [readChosen, ownErrors_then (ownErrors_readArray _ _), after_readArray]
  refine forall_congr' fun items => forall_congr' fun _ => ?_
  rw [ownErrors_bind, ownErrors_distinct]
  refine and_iff_left fun unique _ => ownErrors_bind.mpr ⟨ownErrors_require _ _, fun _ _ => ?_⟩
  exact ownErrors_readEach (fun item at_ => ownErrors_readEnum name all item at_) _ _

theorem ownErrors_readNumber {value : JsonValue} {path : String} {minimum maximum : Nat} :
    OwnErrors (readNumber value path minimum maximum) ↔ Convertible value := by
  have within (d : Double) (number : Number) : OwnErrors (if ((Number.int minimum).le (.float d) &&
      (Number.float d).le (.int maximum)) = true then .ok number
      else reject s!"{path} must be between {minimum}.0 and {maximum}.0" : Result Number) :=
    ownErrors_ite (ownErrors_ok _) (ownErrors_reject _)
  unfold readNumber Convertible
  cases value with
  | int n =>
    simp only [JsonValue.int.injEq, forall_eq']
    cases (Number.int n).toDouble? with
    | none => simp
    | some d => exact iff_of_true (within d _) rfl
  | float x => exact iff_of_true (within x.double _) fun n absurd_ => by cases absurd_
  | _ => exact iff_of_true (ownErrors_reject _) fun n absurd_ => by cases absurd_

theorem ownErrors_readServer (value : JsonValue) (path : String) : OwnErrors (readServer value path) := by
  simp only [readServer, ownErrors_bind, ownErrors_readObject, ownErrors_exactKeys, ownErrors_readEnum, true_and]
  intro _ _ _ _ role _
  split
  · simp only [ownErrors_bind, ownErrors_require, ownErrors_readInteger, ownErrors_readEnum, ownErrors_pure,
      implies_true, and_self]
  · exact ownErrors_reject _

theorem ownErrors_readServers (items : List JsonValue) (index : Nat) (seen : List Server) :
    OwnErrors (readServers index seen items) := by
  induction items generalizing index seen with
  | nil => exact ownErrors_ok _
  | cons first rest ih =>
    simp only [readServers, ownErrors_bind, ownErrors_readServer, ownErrors_require, ih, implies_true, and_self]

theorem ownErrors_readPeerNetworks (value : JsonValue) : OwnErrors (readPeerNetworks value) := by
  have each (item : JsonValue) (at_ : String) : OwnErrors (readNetwork item at_) := by
    unfold readNetwork
    split
    · exact ownErrors_ok _
    · exact ownErrors_reject _
  simp only [readPeerNetworks, ownErrors_bind, ownErrors_readArray, ownErrors_require,
    ownErrors_readEach each, ownErrors_pure, implies_true, and_self]

theorem ownErrors_readIcePolicy (value : JsonValue) : OwnErrors (readIcePolicy value) := by
  simp only [readIcePolicy, ownErrors_bind, ownErrors_readObject, ownErrors_exactKeys, ownErrors_readBoolean,
    ownErrors_readInteger, ownErrors_pure, implies_true, and_self]

theorem ownErrors_readLimits (value : JsonValue) : OwnErrors (readLimits value) := by
  simp only [readLimits, ownErrors_bind, ownErrors_readObject, ownErrors_exactKeys, ownErrors_readInteger,
    ownErrors_pure, implies_true, and_self]

def candidatesHead (value : JsonValue) : Result JsonDict := do
  let candidates ← readObject value "$.candidatePolicy"
  exactKeys candidates "$.candidatePolicy" ["allowedTypes", "allowAddressExposure", "requireMdnsForPrivateHost"]
  return candidates

theorem ownErrors_readCandidatePolicy (value : JsonValue) : OwnErrors (readCandidatePolicy value) ↔
    After (candidatesHead value) fun candidates => Hashed (candidates.find "allowedTypes") := by
  rw [readCandidatePolicy, candidatesHead, ownErrors_then (ownErrors_readObject _ _), after_bind]
  refine after_congr fun candidates => ?_
  rw [ownErrors_then (ownErrors_exactKeys _ _ _), after_bind]
  refine after_congr fun _ => ?_
  rw [after_pure, ownErrors_bind, ownErrors_readChosen]
  refine and_iff_left fun _ _ => ?_
  simp only [ownErrors_bind, ownErrors_readBoolean, ownErrors_pure, implies_true, and_self]

/-- The TURN policy, where its lifetimes are read. -/
def turnHead (value : JsonValue) : Result JsonDict := do
  let turn ← readObject value "$.turn"
  exactKeys turn "$.turn" ["requireLongTermCredentials", "maxCredentialLifetimeSeconds",
    "maxAllocationLifetimeSeconds", "allowedTransports", "maxAmplificationRatio",
    "requirePermissionBeforeData", "requireChannelBindingForChannelData"]
  let _ ← readBoolean (turn.find "requireLongTermCredentials") "$.turn.requireLongTermCredentials"
  let _ ← readInteger (turn.find "maxCredentialLifetimeSeconds") "$.turn.maxCredentialLifetimeSeconds" 1 86400
  let _ ← readInteger (turn.find "maxAllocationLifetimeSeconds") "$.turn.maxAllocationLifetimeSeconds" 1 3600
  return turn

def TurnSafe (turn : JsonDict) : Prop :=
  Hashed (turn.find "allowedTransports") ∧
    After (readChosen Transport.name transports (turn.find "allowedTransports") "$.turn.allowedTransports") fun _ =>
      Convertible (turn.find "maxAmplificationRatio")

theorem ownErrors_readTurnPolicy (value : JsonValue) :
    OwnErrors (readTurnPolicy value) ↔ After (turnHead value) TurnSafe := by
  rw [readTurnPolicy, turnHead, ownErrors_then (ownErrors_readObject _ _), after_bind]
  refine after_congr fun turn => ?_
  rw [ownErrors_then (ownErrors_exactKeys _ _ _), after_bind]
  refine after_congr fun _ => ?_
  rw [ownErrors_then (ownErrors_readBoolean _ _), after_bind]
  refine after_congr fun _ => ?_
  rw [bind_assoc, ownErrors_then (ownErrors_readInteger _ _ _ _), after_bind]
  refine after_congr fun _ => ?_
  rw [pure_bind, bind_assoc, ownErrors_then (ownErrors_readInteger _ _ _ _), after_bind]
  refine after_congr fun _ => ?_
  rw [pure_bind, after_pure, TurnSafe, ownErrors_bind, ownErrors_readChosen]
  refine and_congr_right fun _ => after_congr fun _ => ?_
  rw [ownErrors_bind, ownErrors_readNumber]
  refine and_iff_left fun _ _ => ?_
  simp only [ownErrors_bind, ownErrors_readBoolean, ownErrors_pure, implies_true, and_self]

/-- The policy, behind its types of candidates and before its TURN policy. -/
def policyHead (document : JsonValue) : Result JsonDict := do
  let policy ← readObject document "$"
  exactKeys policy "$" ["apiVersion", "candidatePolicy", "approvedServers", "approvedPeerNetworks", "ice", "turn",
    "limits"]
  require ((policy.find "apiVersion").isText policyVersion) "$.apiVersion is unsupported"
  return policy

def policyMiddle (policy : JsonDict) : Result Unit := do
  let _ ← readCandidatePolicy (policy.find "candidatePolicy")
  let servers ← readArray (policy.find "approvedServers") "$.approvedServers"
  require (decide (servers.length ≤ 32)) "$.approvedServers exceeds 32 entries"
  let _ ← readServers 0 [] servers
  let _ ← readPeerNetworks (policy.find "approvedPeerNetworks")
  let _ ← readIcePolicy (policy.find "ice")

/-- Types of candidates and transports that can be put into a set, and a ratio that a float can hold. -/
def PolicySafe (document : JsonValue) : Prop :=
  After (policyHead document) fun policy =>
    (After (candidatesHead (policy.find "candidatePolicy")) fun candidates => Hashed (candidates.find "allowedTypes")) ∧
    After (policyMiddle policy) fun _ => After (turnHead (policy.find "turn")) TurnSafe

theorem ownErrors_validatePolicy (document : JsonValue) : OwnErrors (validatePolicy document) ↔ PolicySafe document := by
  rw [validatePolicy, PolicySafe, policyHead, ownErrors_then (ownErrors_readObject _ _), after_bind]
  refine after_congr fun policy => ?_
  rw [ownErrors_then (ownErrors_exactKeys _ _ _), after_bind]
  refine after_congr fun _ => ?_
  rw [ownErrors_then (ownErrors_require _ _), after_bind]
  refine after_congr fun _ => ?_
  rw [after_pure, ownErrors_bind, ownErrors_readCandidatePolicy, policyMiddle, after_bind]
  refine and_congr_right fun _ => after_congr fun _ => ?_
  rw [ownErrors_then (ownErrors_readArray _ _), after_bind]
  refine after_congr fun servers => ?_
  rw [ownErrors_then (ownErrors_require _ _), after_bind]
  refine after_congr fun _ => ?_
  rw [ownErrors_then (ownErrors_readServers _ _ _), after_bind]
  refine after_congr fun _ => ?_
  rw [ownErrors_then (ownErrors_readPeerNetworks _), after_bind]
  refine after_congr fun _ => ?_
  rw [ownErrors_then (ownErrors_readIcePolicy _), after_bind]
  refine after_congr fun _ => ?_
  rw [after_pure, ownErrors_bind, ownErrors_readTurnPolicy]
  refine and_iff_left fun _ _ => ?_
  simp only [ownErrors_bind, ownErrors_readLimits, ownErrors_pure, implies_true, and_self]

section observation

theorem ownErrors_readAddress (value : JsonValue) (path : String) : OwnErrors (readAddress value path) := by
  unfold readAddress
  split
  · exact ownErrors_ok _
  · exact ownErrors_reject _

theorem ownErrors_readEvidence (kind : EventKind) (data : JsonDict) (path : String) :
    OwnErrors (readEvidence kind data path) := by
  cases kind <;>
    simp only [readEvidence, ownErrors_bind, ownErrors_readEnum, ownErrors_readBoolean, ownErrors_readInteger,
      ownErrors_readDigest, ownErrors_readBounded, ownErrors_readAddress, ownErrors_pure, implies_true, and_self]

theorem ownErrors_readEvents (items : List JsonValue) (index lastTime : Nat) :
    OwnErrors (readEvents index lastTime items) := by
  induction items generalizing index lastTime with
  | nil => exact ownErrors_ok _
  | cons first rest ih =>
    simp only [readEvents, ownErrors_bind, ownErrors_readObject, ownErrors_exactKeys, ownErrors_readInteger,
      ownErrors_require, ownErrors_readEnum, ownErrors_readEvidence, ih, ownErrors_pure, implies_true, and_self]

theorem ownErrors_validateObservation (document : JsonValue) (maxEvents : Nat) :
    OwnErrors (validateObservation document maxEvents) := by
  simp only [validateObservation, ownErrors_bind, ownErrors_readObject, ownErrors_exactKeys, ownErrors_require,
    ownErrors_readBoolean, ownErrors_readArray, ownErrors_readEvents, ownErrors_pure, implies_true, and_self]

end observation

end IceTurn

end Sippycup.Webrtc
