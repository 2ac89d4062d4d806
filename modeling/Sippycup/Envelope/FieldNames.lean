import Sippycup.Envelope.Authority

/-! Which exceptions compilation can raise. Every refusal is the module's own
error except one: a field-name check that meets an unknown name which is not
text fails while sorting or joining the names it wants to report. -/
namespace Sippycup.Envelope
open Sippycup.Python

theorem ownErrors_fail {α : Type} (message : String) : OwnErrors (fail message : Result α) :=
  ownErrors_own _

theorem ownErrors_guard {α : Type} {condition : Bool} {message : String} {next : Result α} :
    OwnErrors (if (!condition) = true then fail message else next) ↔
      (condition = true → OwnErrors next) := by
  cases condition <;> simp [ownErrors_fail]

/-- The names a field check would report can be sorted and joined. -/
def readableNames (value : Dict) (required : List String) : Bool :=
  let unknown := unknownKeys value required
  (unknown.all fun k => unknown.all fun l => k.orderClass == l.orderClass) &&
    (!(missingKeys value required).isEmpty || unknown.all fun k => k.text?.isSome)

theorem sortedKeys_spec (keys : List Value) :
    (∃ sorted, (sortedKeys keys : Result (List Value)) = .ok sorted ∧ sorted.Perm keys ∧
      keys.all (fun k => keys.all fun l => k.orderClass == l.orderClass) = true) ∨
    (sortedKeys keys : Result (List Value)) = .error (.builtin .typeError) ∧
      keys.all (fun k => keys.all fun l => k.orderClass == l.orderClass) = false := by
  cases keys with
  | nil => exact .inl ⟨[], rfl, .refl _, rfl⟩
  | cons key rest =>
    simp only [sortedKeys]
    have uniform : (key :: rest).all (fun k => (key :: rest).all fun l =>
        k.orderClass == l.orderClass) = rest.all fun k => k.orderClass == key.orderClass := by
      rw [Bool.eq_iff_iff]
      simp only [List.all_eq_true, beq_iff_eq]
      constructor
      · intro all k member
        exact all k (List.mem_cons_of_mem key member) key List.mem_cons_self
      · intro all k hk l hl
        have same : ∀ m ∈ key :: rest, m.orderClass = key.orderClass := by
          intro m member
          rcases List.mem_cons.mp member with rfl | later
          · rfl
          · exact all m later
        exact (same k hk).trans (same l hl).symm
    rw [uniform]
    split
    · rename_i all
      exact .inl ⟨_, rfl, List.perm_insertionSort _ _, all⟩
    · rename_i mixed
      exact .inr ⟨rfl, Bool.not_eq_true _ ▸ mixed⟩

theorem exactKeys_ok {value : Dict} {field : String} {required : List String}
    (result : exactKeys value field required = .ok ()) : missingKeys value required = [] := by
  obtain ⟨unknown, _, result⟩ := bind_ok.mp result
  by_contra missing
  rw [if_pos missing] at result
  cases result

theorem ownErrors_exactKeys {value : Dict} {field : String} {required : List String} :
    OwnErrors (exactKeys value field required) ↔ readableNames value required = true := by
  unfold exactKeys readableNames
  rw [ownErrors_bind]
  rcases sortedKeys_spec (unknownKeys value required) with ⟨sorted, ok, perm, uniform⟩ |
    ⟨raised, mixed⟩
  · simp only [ok, ownErrors_ok, true_and, Except.ok.injEq, forall_eq', uniform, Bool.true_and]
    by_cases missing : missingKeys value required = []
    · simp only [missing, ne_eq, not_true_eq_false, if_false, List.isEmpty_nil, Bool.not_true,
        Bool.false_or, List.all_eq_true]
      split
      · rename_i none
        rw [List.isEmpty_iff] at none
        subst none
        simp [List.nil_perm.mp perm]
      · rw [ownErrors_bind, ownErrors_joinTexts]
        simp only [ownErrors_fail, implies_true, and_true, perm.mem_iff]
    · have some : (missingKeys value required).isEmpty = false := by
        simpa [List.isEmpty_iff] using missing
      simp [missing, some, ownErrors_fail]
  · simp [raised, mixed]

theorem contains_of_exactKeys {value : Dict} {field : String} {required : List String}
    (result : exactKeys value field required = .ok ()) {name : String} (member : name ∈ required) :
    value.contains name = true := by
  have missing := exactKeys_ok result
  by_contra absent
  have : name ∈ missingKeys value required := by
    simpa [missingKeys, member] using absent
  simp [missing] at this

theorem ownErrors_uint {value : Value} {field : String} {zero : Bool} :
    OwnErrors (uint value field zero) := by
  unfold uint
  cases value with
  | int n => exact ownErrors_ite (ownErrors_fail _) (ownErrors_ok _)
  | _ => exact ownErrors_fail _

theorem ownErrors_name {value : Value} {field : String} : OwnErrors (name value field) := by
  unfold name
  cases value with
  | str t => exact ownErrors_ite (ownErrors_ok _) (ownErrors_fail _)
  | _ => exact ownErrors_fail _

theorem ownErrors_sha256 {value : Value} {field : String} : OwnErrors (sha256 value field) := by
  unfold sha256
  cases value with
  | str t => exact ownErrors_ite (ownErrors_ok _) (ownErrors_fail _)
  | _ => exact ownErrors_fail _

theorem ownErrors_checkedAdd {left right : Nat} {field : String} :
    OwnErrors (checkedAdd left right field) :=
  ownErrors_ite (ownErrors_fail _) (ownErrors_ok _)

theorem ownErrors_checkedMul {left right : Nat} {field : String} :
    OwnErrors (checkedMul left right field) :=
  ownErrors_ite (ownErrors_fail _) (ownErrors_ok _)

theorem ownErrors_applyReductions {maxima result : Maxima} {reductions : Dict} :
    OwnErrors (applyReductions maxima reductions result) := by
  induction reductions generalizing result with
  | nil => simp [applyReductions]
  | cons entry rest ih =>
    obtain ⟨key, value⟩ := entry
    simp only [applyReductions]
    split
    · exact ownErrors_fail _
    · split
      · exact ih
      · rw [ownErrors_bind]
        refine ⟨ownErrors_uint, fun reduced _ => ?_⟩
        split
        · exact ownErrors_fail _
        · exact ih

theorem ownErrors_checkDimensions {maxima : Maxima} {workload : Workload} {keys : List Dimension} :
    OwnErrors (checkDimensions maxima workload keys) := by
  induction keys with
  | nil => simp [checkDimensions]
  | cons d rest ih =>
    simp only [checkDimensions]
    split
    · exact ownErrors_fail _
    · exact ih

theorem ownErrors_validateConstraints {maxima : Maxima} {workload : Workload} {ramp : Ramp} :
    OwnErrors (validateConstraints maxima workload ramp) := by
  refine ownErrors_bind.mpr ⟨ownErrors_checkDimensions, fun _ _ => ?_⟩
  exact ownErrors_ite (ownErrors_fail _)
    (ownErrors_ite (ownErrors_fail _) (ownErrors_ite (ownErrors_fail _) (ownErrors_pure _)))

theorem ownErrors_rampLoop {maxima : Maxima} {workload : Workload} {ramp : Ramp} {tail : Nat}
    {expanded : List Nat} {totals : Totals} {steps : List PlanStep} :
    OwnErrors (rampLoop maxima workload ramp tail expanded totals steps) := by
  induction expanded generalizing totals steps with
  | nil => simp [rampLoop]
  | cons level rest ih =>
    simp only [rampLoop, stepBudget, ownErrors_bind, ownErrors_checkedMul, ownErrors_checkedAdd,
      ownErrors_pure, true_and, implies_true, and_true]
    intros
    split
    · exact ownErrors_pure _
    · simp only [ownErrors_bind, ownErrors_checkedAdd, true_and]
      exact fun _ _ _ _ => ih

theorem ownErrors_compileNormalized {n : Normalized} {digest : Text} :
    OwnErrors (compileNormalized n digest) := by
  refine ownErrors_bind.mpr ⟨ownErrors_checkedAdd, fun tail _ => ?_⟩
  split
  · exact ownErrors_fail _
  · refine ownErrors_bind.mpr ⟨?_, fun expanded _ => ?_⟩
    · exact ownErrors_ite (ownErrors_fail _) (ownErrors_ite (ownErrors_ok _) (ownErrors_ok _))
    · refine ownErrors_bind.mpr ⟨ownErrors_rampLoop, fun result _ => ?_⟩
      dsimp only
      split
      · exact ownErrors_fail _
      · refine ownErrors_bind.mpr ⟨ownErrors_checkedAdd, fun _ _ => ?_⟩
        exact ownErrors_pure _

/-- If `value` is a mapping, its unknown names can be reported and, once it has
exactly the required names, `next` holds of it. -/
def Names (value : Value) (field : String) (required : List String) (next : Dict → Prop) : Prop :=
  ∀ d, value = .dict d →
    readableNames d required = true ∧ (exactKeys d field required = .ok () → next d)

theorem ownErrors_names {α : Type} {value : Value} {field : String} {required : List String}
    {next : Dict → Prop} {f : Dict → Result α}
    (same : ∀ d, exactKeys d field required = .ok () → (OwnErrors (f d) ↔ next d)) :
    OwnErrors (do
      let d ← object value field
      exactKeys d field required
      f d) ↔ Names value field required next := by
  rw [ownErrors_bind]
  cases value with
  | dict d =>
    simp only [object, ownErrors_ok, true_and, Except.ok.injEq, forall_eq', ownErrors_bind,
      ownErrors_exactKeys, Names, Value.dict.injEq, and_congr_right_iff]
    intro _
    constructor
    · exact fun own exact => (same d exact).mp (own () exact)
    · exact fun own _ exact => (same d exact).mpr (own exact)
  | _ => simp [object, fail, Names]

theorem ownErrors_normalizeMaxima {value : Value} {field : String} :
    OwnErrors (normalizeMaxima value field) ↔
      Names value field (maximaKeys.map MaximaKey.name) fun _ => True := by
  refine ownErrors_names fun d exact => iff_true_intro ?_
  refine ownErrors_collect fun key member => ?_
  refine ownErrors_bind.mpr ⟨?_, fun _ _ => ownErrors_uint⟩
  exact ownErrors_item.mpr (contains_of_exactKeys exact (List.mem_map_of_mem member))

theorem ownErrors_normalizeWorkload {value : Value} :
    OwnErrors (normalizeWorkload value) ↔
      Names value "workload" (workloadKeys.map WorkloadKey.name) fun _ => True := by
  refine ownErrors_names fun d exact => iff_true_intro ?_
  refine ownErrors_collect fun key member => ?_
  refine ownErrors_bind.mpr ⟨?_, fun _ _ => ownErrors_uint⟩
  exact ownErrors_item.mpr (contains_of_exactKeys exact (List.mem_map_of_mem member))

theorem ownErrors_normalizeRamp {value : Value} :
    OwnErrors (normalizeRamp value) ↔ Names value "ramp" rampKeys fun _ => True := by
  refine ownErrors_names fun d exact => iff_true_intro ?_
  have present (name : String) (member : name ∈ rampKeys) :=
    contains_of_exactKeys exact member
  refine ownErrors_bind.mpr ⟨ownErrors_item.mpr (present _ (by decide)), fun dimension _ => ?_⟩
  split
  · exact ownErrors_fail _
  · simp only [ownErrors_bind, ownErrors_item, ownErrors_uint, ownErrors_pure, implies_true,
      and_true, true_and]
    exact ⟨present _ (by decide), fun _ _ _ _ => present _ (by decide)⟩

/-- Every mapping whose names compilation checks, each behind the checks that
come before it, has reportable unknown names. -/
def FieldNamesReadable (manifest digest : Value) (reductions : Dict) : Prop :=
  ∀ d, sha256 digest "manifest SHA-256" = .ok d →
  Names manifest "manifest" manifestKeys fun document =>
  (document.getD "apiVersion" .none).isText manifestVersion = true →
  (document.getD "kind" .none).isText "Envelope" = true →
  Names (document.getD "metadata" .none) "metadata" ["name"] fun metadata =>
  ∀ text, name (metadata.getD "name" .none) "metadata.name" = .ok text →
  Names (document.getD "authorization" .none) "authorization" ["hardMaxima"] fun authorization =>
  let hardMaxima := authorization.getD "hardMaxima" .none
  Names hardMaxima "authorization.hardMaxima" (maximaKeys.map MaximaKey.name) (fun _ => True) ∧
  ∀ source maxima, normalizeMaxima hardMaxima "authorization.hardMaxima" = .ok source →
  applyReductions source reductions source = .ok maxima →
  Names (document.getD "workload" .none) "workload" (workloadKeys.map WorkloadKey.name)
    (fun _ => True) ∧
  ∀ workload, normalizeWorkload (document.getD "workload" .none) = .ok workload →
  Names (document.getD "ramp" .none) "ramp" rampKeys fun _ => True

theorem ownErrors_compileEnvelopePlan {manifest digest : Value} {reductions : Dict} :
    OwnErrors (compileEnvelopePlan manifest digest reductions) ↔
      FieldNamesReadable manifest digest reductions := by
  unfold compileEnvelopePlan FieldNamesReadable
  simp only [ownErrors_bind, ownErrors_sha256, true_and, ownErrors_compileNormalized, implies_true,
    and_true]
  refine forall₂_congr fun d _ => ownErrors_names fun document exact => ?_
  have read (key : String) (member : key ∈ manifestKeys) :
      (document.item key : Result Value) = .ok (document.getD key .none) :=
    Dict.item_of_contains (contains_of_exactKeys exact member)
  simp only [read "apiVersion" (by decide), read "kind" (by decide), read "metadata" (by decide),
    read "authorization" (by decide), read "workload" (by decide), read "ramp" (by decide),
    ok_bind, ownErrors_guard]
  refine imp_congr_right fun _ => imp_congr_right fun _ => ownErrors_names fun metadata exact => ?_
  rw [Dict.item_of_contains (contains_of_exactKeys exact List.mem_cons_self), ok_bind,
    ownErrors_bind]
  simp only [ownErrors_name, true_and]
  refine forall₂_congr fun text _ => ownErrors_names fun authorization exact => ?_
  rw [Dict.item_of_contains (contains_of_exactKeys exact List.mem_cons_self), ok_bind]
  simp only [ownErrors_bind, ownErrors_normalizeMaxima, ownErrors_applyReductions,
    ownErrors_normalizeWorkload, ownErrors_normalizeRamp, ownErrors_validateConstraints,
    ownErrors_pure, implies_true, and_true, true_and]
  exact and_congr_right fun _ =>
    ⟨fun own source maxima read lowered => own source read maxima lowered,
      fun own source read maxima lowered => own source maxima read lowered⟩

/-- What a call owes its caller: a plan within authority, or the module's own error. -/
def CompilesWithinAuthority (manifest digest : Value) (reductions : Dict) : Prop :=
  match compileEnvelopePlan manifest digest reductions with
  | .ok plan => plan.WithinAuthority
  | .error (.own _) => True
  | .error (.builtin _) => False

theorem compileEnvelopePlan_ok {manifest digest : Value} {reductions : Dict} {plan : EnvelopePlan}
    (result : compileEnvelopePlan manifest digest reductions = .ok plan) :
    plan.WithinAuthority := by
  obtain ⟨_, _, result⟩ := bind_ok.mp result
  obtain ⟨normalized, checked, compiled⟩ := bind_ok.mp result
  exact (compileNormalized_ok (normalizeManifest_ok checked) compiled).1

/-- Compilation never exceeds authority, for any manifest and reductions; it
raises only its own error exactly while unknown field names are reportable. -/
theorem compile_within_authority_iff (manifest digest : Value) (reductions : Dict) :
    CompilesWithinAuthority manifest digest reductions ↔
      FieldNamesReadable manifest digest reductions := by
  rw [← ownErrors_compileEnvelopePlan]
  unfold CompilesWithinAuthority
  cases result : compileEnvelopePlan manifest digest reductions with
  | ok plan => simp [compileEnvelopePlan_ok result]
  | error raised => cases raised <;> simp

/-- A complete manifest with one more field, whose name is the number 1. -/
def numberedManifest : Value :=
  .dict [(.int 1, .none), Dict.entry "apiVersion" .none, Dict.entry "kind" .none,
    Dict.entry "metadata" .none, Dict.entry "authorization" .none, Dict.entry "workload" .none,
    Dict.entry "ramp" .none]

def zeroDigest : Value := .str ⟨List.replicate 64 48⟩

theorem numbered_manifest_escapes :
    compileEnvelopePlan numberedManifest zeroDigest [] = .error (.builtin .typeError) ∧
      ¬ CompilesWithinAuthority numberedManifest zeroDigest [] := by
  have raised : compileEnvelopePlan numberedManifest zeroDigest [] =
      .error (.builtin .typeError) := by rfl
  exact ⟨raised, by simp [CompilesWithinAuthority, raised]⟩

end Sippycup.Envelope
