import Sippycup.Envelope.Verify

/-! Verification is exact: it accepts what was compiled from the manifest, and
nothing else but documents equal to it. -/
namespace Sippycup.Envelope
open Sippycup.Python

section value
open Dict (entry)

theorem stepValue_eq_self (step : PlanStep) : (stepValue step).eq (stepValue step) = true := by
  have intensity := @amounts_eq_self _ dimensions Dimension.name step.intensity (by decide)
  have budget : (budgetValue step.budget).eq (budgetValue step.budget) = true := by
    refine @Value.eq_display _ ["calls", "mediaPackets", "callSeconds", "durationSeconds"]
      ⟨rfl, by decide⟩ ?_
    simp only [List.forall_mem_cons, List.not_mem_nil, false_imp_iff, implies_true, and_true, entry]
    exact ⟨Value.eq_int_self _, Value.eq_int_self _, Value.eq_int_self _, Value.eq_int_self _⟩
  refine @Value.eq_display _
    ["index", "level", "startAtSeconds", "holdSeconds", "intensity", "budget"]
    ⟨rfl, by decide⟩ ?_
  simp only [List.forall_mem_cons, List.not_mem_nil, false_imp_iff, implies_true, and_true, entry]
  exact ⟨Value.eq_int_self _, Value.eq_int_self _, Value.eq_int_self _, Value.eq_int_self _, intensity,
    budget⟩

def planKeys : List String :=
  ["apiVersion", "kind", "metadata", "authorization", "workload", "ramp", "plannedWorstCase", "termination",
    "steps"]

namespace EnvelopePlan
variable (plan : EnvelopePlan)

def metadataItems : Dict :=
  [entry "name" (.str plan.name), entry "manifestSha256" (.str plan.manifestSha256)]

def authorizationItems : Dict :=
  [entry "sourceMaxima" (maximaValue plan.sourceMaxima), entry "hardMaxima" (maximaValue plan.hardMaxima)]

/-- The items of the frozen document. -/
@[grind =] def items : Dict :=
  match plan.value with
  | .dict items => items
  | _ => []

theorem value_items : plan.value = .dict plan.items := rfl

theorem items_display : plan.items.Display planKeys := ⟨rfl, by decide⟩

theorem metadata_display : plan.metadataItems.Display ["name", "manifestSha256"] := ⟨rfl, by decide⟩

theorem authorization_display : plan.authorizationItems.Display ["sourceMaxima", "hardMaxima"] :=
  ⟨rfl, by decide⟩

theorem value_eq_self : plan.value.eq plan.value = true := by
  have metadata : Value.eq (.dict plan.metadataItems) (.dict plan.metadataItems) = true := by
    refine Value.eq_display plan.metadata_display ?_
    simp only [metadataItems, List.forall_mem_cons, List.not_mem_nil, false_imp_iff, implies_true, and_true,
      entry]
    exact ⟨Value.eq_str_self _, Value.eq_str_self _⟩
  have authorization :
      Value.eq (.dict plan.authorizationItems) (.dict plan.authorizationItems) = true := by
    refine Value.eq_display plan.authorization_display ?_
    simp only [authorizationItems, List.forall_mem_cons, List.not_mem_nil, false_imp_iff, implies_true,
      and_true, entry]
    exact ⟨amounts_eq_self maximaKeys_distinct, amounts_eq_self maximaKeys_distinct⟩
  have ramp : (rampValue plan.ramp).eq (rampValue plan.ramp) = true := by
    refine @Value.eq_display _ rampKeys ⟨rfl, by decide⟩ ?_
    simp only [List.forall_mem_cons, List.not_mem_nil, false_imp_iff, implies_true, and_true, entry]
    exact ⟨Value.eq_str_self _, Value.eq_int_self _, Value.eq_int_self _⟩
  refine Value.eq_display plan.items_display ?_
  simp only [List.forall_mem_cons, List.not_mem_nil, false_imp_iff, implies_true, and_true, entry]
  refine ⟨Value.eq_str_self _, Value.eq_str_self _, metadata, authorization,
    amounts_eq_self workloadKeys_distinct, ramp, ?_, ?_, ?_⟩
  · refine @Value.eq_display _
      ["calls", "mediaPackets", "callSeconds", "rampDurationSeconds", "cooldownSeconds",
        "recoveryDeadlineSeconds", "totalDurationSeconds"] ⟨rfl, by decide⟩ ?_
    simp only [List.forall_mem_cons, List.not_mem_nil, false_imp_iff, implies_true, and_true]
    exact ⟨Value.eq_int_self _, Value.eq_int_self _, Value.eq_int_self _, Value.eq_int_self _,
      Value.eq_int_self _, Value.eq_int_self _, Value.eq_int_self _⟩
  · refine @Value.eq_display _ ["reason", "authorizedDimensionCeilingReached"]
      ⟨rfl, by decide⟩ ?_
    simp only [List.forall_mem_cons, List.not_mem_nil, false_imp_iff, implies_true, and_true]
    exact ⟨Value.eq_str_self _, Value.eq_bool_self _⟩
  · exact Value.eq_list_self (List.forall_mem_map.mpr fun step _ => stepValue_eq_self step)

end EnvelopePlan
end value

theorem name_ok {value : Value} {field : String} {t : Text} :
    name value field = .ok t ↔ value = .str t ∧ nameOk t = true := by
  cases value with
  | str u =>
    rw [name, Value.str.injEq]
    split
    · rename_i valid
      rw [Except.ok.injEq]
      exact ⟨fun same => ⟨same, same ▸ valid⟩, And.left⟩
    · rename_i invalid
      constructor
      · intro ok
        cases ok
      · rintro ⟨rfl, valid⟩
        exact absurd valid invalid
  | _ => simp [name, fail]

theorem sha256_ok {value : Value} {field : String} {t : Text} :
    sha256 value field = .ok t ↔ value = .str t ∧ sha256Ok t = true := by
  cases value with
  | str u =>
    rw [sha256, Value.str.injEq]
    split
    · rename_i valid
      rw [Except.ok.injEq]
      exact ⟨fun same => ⟨same, same ▸ valid⟩, And.left⟩
    · rename_i invalid
      constructor
      · intro ok
        cases ok
      · rintro ⟨rfl, valid⟩
        exact absurd valid invalid
  | _ => simp [sha256, fail]

theorem normalizeRamp_start {value : Value} {ramp : Ramp} (result : normalizeRamp value = .ok ramp) :
    0 < ramp.start ∧ ramp.start ≤ u64Max := by
  obtain ⟨entries, _, result⟩ := bind_ok.mp result
  obtain ⟨_, _, result⟩ := bind_ok.mp result
  obtain ⟨dimension, _, result⟩ := bind_ok.mp result
  split at result
  · cases result
  · simp only [bind_ok, pure_ok] at result
    obtain ⟨_, _, start, number, _, _, _, _, rfl⟩ := result
    obtain ⟨_, bounded, positive⟩ := uint_ok.1 number
    exact ⟨positive rfl, bounded⟩

/-- A plan compiled from checked sections is valid. -/
theorem validate_compiled {plan : EnvelopePlan} {manifest digest : Value} {reductions : Dict}
    (ok : compileEnvelopePlan manifest digest reductions = .ok plan) :
    validateEnvelopePlan plan.value = .ok plan.items := by
  obtain ⟨text, isDigest, ok⟩ := bind_ok.mp ok
  obtain ⟨n, normalized, compiled⟩ := bind_ok.mp ok
  have checked := normalizeManifest_ok normalized
  obtain ⟨document, _, reads, _⟩ := normalizeManifest_iff.1 normalized
  obtain ⟨rfl, rfl⟩ := compileNormalized_sections compiled
  obtain ⟨metadata, _, _, nameValue, _, named⟩ := reads.metadata
  obtain ⟨authorization, _, _, maximaValue, _, readSource⟩ := reads.authorization
  obtain ⟨workloadValue, _, readWorkload⟩ := reads.workload
  have nameOk : name (.str plan.name) "plan.metadata.name" = .ok plan.name :=
    name_ok.2 ⟨rfl, (name_ok.1 named).2⟩
  have digestOk : sha256 (.str plan.manifestSha256) "plan.metadata.manifestSha256" =
      .ok plan.manifestSha256 :=
    sha256_ok.2 ⟨rfl, (sha256_ok.1 isDigest).2⟩
  have source := normalizeMaxima_value (normalizeMaxima_ok readSource) "plan.authorization.sourceMaxima"
  have hard := normalizeMaxima_value (fun key => ⟨checked.positive key, checked.bounded key⟩)
    "plan.authorization.hardMaxima"
  have workload := normalizeWorkload_value (normalizeWorkload_ok readWorkload)
  obtain ⟨rampValue, _, readRamp⟩ := reads.ramp
  have ramp := normalizeRamp_value (normalizeRamp_start readRamp) (normalizeRamp_ok readRamp)
  have lowered : ¬ (maximaKeys.any fun key =>
      decide (plan.sourceMaxima key < plan.hardMaxima key)) = true := by
    simp only [List.any_eq_true, decide_eq_true_eq, not_exists, not_and, Nat.not_lt]
    exact fun key _ => checked.reduced key
  refine bind_ok.mpr ⟨plan.items, rfl, ?_⟩
  refine bind_ok.mpr ⟨(), exactKeys_display plan.items_display "plan", ?_⟩
  refine bind_ok.mpr ⟨.str planVersion, rfl, bind_ok.mpr ⟨.str "EnvelopePlan", rfl, ?_⟩⟩
  rw [Value.isText_str, Value.isText_str, decide_eq_true rfl, decide_eq_true rfl, Bool.not_true,
    Bool.or_false, if_neg Bool.false_ne_true]
  refine bind_ok.mpr ⟨.dict plan.metadataItems, rfl, bind_ok.mpr ⟨_, rfl, ?_⟩⟩
  refine bind_ok.mpr ⟨(), exactKeys_display plan.metadata_display _, ?_⟩
  refine bind_ok.mpr ⟨.dict plan.authorizationItems, rfl, bind_ok.mpr ⟨_, rfl, ?_⟩⟩
  refine bind_ok.mpr ⟨(), exactKeys_display plan.authorization_display _, ?_⟩
  refine bind_ok.mpr ⟨_, rfl, bind_ok.mpr ⟨_, nameOk, ?_⟩⟩
  refine bind_ok.mpr ⟨_, rfl, bind_ok.mpr ⟨_, source, ?_⟩⟩
  refine bind_ok.mpr ⟨_, rfl, bind_ok.mpr ⟨_, hard, ?_⟩⟩
  refine bind_ok.mpr ⟨_, rfl, bind_ok.mpr ⟨_, workload, ?_⟩⟩
  refine bind_ok.mpr ⟨_, rfl, bind_ok.mpr ⟨_, ramp, ?_⟩⟩
  refine bind_ok.mpr ⟨_, rfl, bind_ok.mpr ⟨_, digestOk, ?_⟩⟩
  rw [if_neg lowered]
  refine bind_ok.mpr ⟨(), reads.constraints, bind_ok.mpr ⟨plan, compiled, ?_⟩⟩
  rw [← plan.value_items, plan.value_eq_self, Bool.not_true, if_neg Bool.false_ne_true]
  rfl

section
variable {load : List Nat → Result Value} {bytes : List Nat} {manifest : Dict} {label : String}

/-- The plan is the manifest's own, reduced to its maxima. -/
theorem compileEnvelopePlan_again {digest : Text} {reductions : Dict} {plan : EnvelopePlan}
    (ok : compileEnvelopePlan (.dict manifest) (.str digest) reductions = .ok plan) :
    compileEnvelopePlan (.dict manifest) (.str digest)
      (amounts maximaKeys MaximaKey.name plan.hardMaxima) = .ok plan := by
  obtain ⟨text, isDigest, ok⟩ := bind_ok.mp ok
  obtain ⟨n, normalized, compiled⟩ := bind_ok.mp ok
  have kept : n.maxima = plan.hardMaxima := by rw [(compileNormalized_sections compiled).1]
  rw [← kept]
  exact bind_ok.mpr ⟨text, isDigest, bind_ok.mpr ⟨n, normalizeManifest_again normalized, compiled⟩⟩

theorem readDocument_ok :
    readDocument load bytes label = .ok manifest ↔
      bytes.length ≤ maxDocumentBytes ∧ load bytes = .ok (.dict manifest) := by
  rw [readDocument]
  split
  · rename_i large
    constructor
    · intro ok
      cases ok
    · exact fun both => absurd both.1 (Nat.not_le.mpr large)
  · rename_i small
    rw [parseDocument, bind_ok]
    simp only [object_ok]
    constructor
    · rintro ⟨_, loaded, rfl⟩
      exact ⟨Nat.not_lt.1 small, loaded⟩
    · rintro ⟨_, loaded⟩
      exact ⟨_, loaded, rfl⟩

/-- A plan compiled from a manifest that was read is verified with its bytes. -/
theorem verify_compiled {reductions : Dict} {plan : EnvelopePlan}
    (read : readDocument load bytes label = .ok manifest)
    (ok : compileEnvelopePlan (.dict manifest) (.str (sha256Hex bytes)) reductions = .ok plan) :
    verifyEnvelopePlan load plan.value bytes = .ok plan.items := by
  obtain ⟨small, loaded⟩ := readDocument_ok.1 read
  have recorded : plan.manifestSha256 = sha256Hex bytes := by
    obtain ⟨text, isDigest, compiled⟩ := bind_ok.mp ok
    obtain ⟨n, _, compiled⟩ := bind_ok.mp compiled
    rw [← (compileNormalized_sections compiled).2]
    exact (Value.str.inj (sha256_ok.1 isDigest).1).symm
  refine bind_ok.mpr ⟨_, validate_compiled ok, ?_⟩
  rw [if_neg (Nat.not_lt.2 small)]
  refine bind_ok.mpr ⟨plan.metadataItems, rfl, bind_ok.mpr ⟨.str plan.manifestSha256, rfl, ?_⟩⟩
  rw [Value.isText_str, decide_eq_true recorded, Bool.not_true, if_neg Bool.false_ne_true]
  refine bind_ok.mpr ⟨manifest, bind_ok.mpr ⟨_, loaded, rfl⟩, ?_⟩
  refine bind_ok.mpr ⟨plan.authorizationItems, rfl, bind_ok.mpr ⟨_, rfl, ?_⟩⟩
  refine bind_ok.mpr ⟨plan, compileEnvelopePlan_again ok, ?_⟩
  rw [← plan.value_items, plan.value_eq_self, Bool.not_true, if_neg Bool.false_ne_true]
  rfl

end

/-- `document["authorization"]["hardMaxima"][key]`, of a manifest and of a plan alike. -/
def declaredMaximum (document : Dict) (key : MaximaKey) : Option Value :=
  match document.get? "authorization" with
  | some (.dict authorization) =>
    match Dict.get? authorization "hardMaxima" with
    | some (.dict maxima) => Dict.get? maxima key.name
    | _ => none
  | _ => none

theorem declaredMaximum_eq {document authorization maxima : Dict} {key : MaximaKey}
    (found : document.get? "authorization" = some (.dict authorization))
    (declared : authorization.get? "hardMaxima" = some (.dict maxima)) :
    declaredMaximum document key = maxima.get? key.name := by
  rw [declaredMaximum, found]
  dsimp only
  rw [declared]

theorem nat_eq_int {m n : Nat} (same : (nat m).eq (.int n) = true) : m = n := by
  obtain ⟨_, number, equal⟩ := Value.eq_int.mp same
  obtain rfl := Option.some.inj number
  simp only [Number.eq, Int.natCast_inj, decide_eq_true_eq] at equal
  exact equal

/-- A valid document has the maxima of any plan that equals it. -/
theorem declared_of_eq {plan : EnvelopePlan} {value : Value} {document : Dict}
    (valid : validateEnvelopePlan value = .ok document)
    (same : plan.value.eq (.dict document) = true) (key : MaximaKey) :
    declaredMaximum document key = some (nat (plan.hardMaxima key)) := by
  obtain ⟨_, _, accepts⟩ := validateEnvelopePlan_ok valid
  obtain ⟨authorization, maxima, found, declared, each⟩ := accepts.maxima
  rw [declaredMaximum_eq found declared, each key]
  obtain ⟨_, isDict, items⟩ := Value.eq_dict same
  obtain rfl := Value.dict.inj isDict
  obtain ⟨_, sameFound, same⟩ := items "authorization" (.dict plan.authorizationItems) rfl
  obtain rfl := Option.some.inj (found.symm.trans sameFound)
  obtain ⟨_, isDict, items⟩ := Value.eq_dict same
  obtain rfl := Value.dict.inj isDict
  obtain ⟨_, sameDeclared, same⟩ := items "hardMaxima" (maximaValue plan.hardMaxima) rfl
  obtain rfl := Option.some.inj (declared.symm.trans sameDeclared)
  obtain ⟨_, isDict, items⟩ := Value.eq_dict same
  obtain rfl := Value.dict.inj isDict
  obtain ⟨_, sameKey, same⟩ := items key.name (nat (plan.hardMaxima key))
    (amounts_get? maximaKeys_distinct (mem_maximaKeys key))
  obtain rfl := Option.some.inj ((each key).symm.trans sameKey)
  rw [nat_eq_int same]
  rfl

/-- The manifest declares maxima that its plans never exceed. -/
theorem declared_of_compiled {manifest : Dict} {digest : Value} {reductions : Dict} {plan : EnvelopePlan}
    (ok : compileEnvelopePlan (.dict manifest) digest reductions = .ok plan) (key : MaximaKey) :
    ∃ reviewed : Nat, declaredMaximum manifest key = some (nat reviewed) ∧
      plan.hardMaxima key ≤ reviewed := by
  obtain ⟨text, _, ok⟩ := bind_ok.mp ok
  obtain ⟨n, normalized, compiled⟩ := bind_ok.mp ok
  have checked := normalizeManifest_ok normalized
  have kept : n.maxima = plan.hardMaxima := by rw [(compileNormalized_sections compiled).1]
  obtain ⟨_, same, reads, _⟩ := normalizeManifest_iff.1 normalized
  obtain rfl := Value.dict.inj same
  obtain ⟨authorization, found, _, value, declared, readMaxima⟩ := reads.authorization
  obtain ⟨maxima, rfl, each⟩ := normalizeMaxima_reads readMaxima
  refine ⟨n.sourceMaxima key, ?_, kept ▸ checked.reduced key⟩
  rw [declaredMaximum_eq found declared, each key]
  rfl

/-- The plan of a manifest under given maxima. -/
def PlanOf (manifest : Dict) (bytes : List Nat) (plan : EnvelopePlan) : Prop :=
  compileEnvelopePlan (.dict manifest) (.str (sha256Hex bytes))
    (amounts maximaKeys MaximaKey.name plan.hardMaxima) = .ok plan

theorem verify_ok {load : List Nat → Result Value} {bytes : List Nat} {value : Value} {document : Dict}
    (ok : verifyEnvelopePlan load value bytes = .ok document) :
    validateEnvelopePlan value = .ok document ∧ ∃ manifest plan,
      load bytes = .ok (.dict manifest) ∧ PlanOf manifest bytes plan ∧
        plan.value.eq (.dict document) = true := by
  obtain ⟨validated, valid, ok⟩ := bind_ok.mp ok
  split at ok
  · cases ok
  · obtain ⟨metadata, _, ok⟩ := bind_ok.mp ok
    obtain ⟨recorded, _, ok⟩ := bind_ok.mp ok
    split at ok
    · cases ok
    · obtain ⟨manifest, parsed, ok⟩ := bind_ok.mp ok
      obtain ⟨loaded, load_, isDict⟩ := bind_ok.mp parsed
      obtain rfl := object_ok.1 isDict
      obtain ⟨authorization, _, ok⟩ := bind_ok.mp ok
      obtain ⟨reductions, _, ok⟩ := bind_ok.mp ok
      obtain ⟨plan, compiled, ok⟩ := bind_ok.mp ok
      split at ok
      · cases ok
      · rename_i same
        obtain rfl := pure_ok.mp ok
        exact ⟨valid, manifest, plan, load_, compileEnvelopePlan_again compiled, by simpa using same⟩

/-- Verification with the bytes of a manifest accepts the plans compiled from it,
and only documents that equal one. -/
structure VerifiesExactly (load : List Nat → Result Value) (bytes : List Nat) : Prop where
  /-- Whatever compiles is verified, under any reductions. -/
  accepts : ∀ label manifest reductions plan, readDocument load bytes label = .ok manifest →
    compileEnvelopePlan (.dict manifest) (.str (sha256Hex bytes)) reductions = .ok plan →
    verifyEnvelopePlan load plan.value bytes = .ok plan.items
  /-- Whatever is verified equals the plan of the manifest under its own maxima,
  none of them above the reviewed one. -/
  only : ∀ value document, verifyEnvelopePlan load value bytes = .ok document →
    value = .dict document ∧ ∃ manifest plan, load bytes = .ok (.dict manifest) ∧
      PlanOf manifest bytes plan ∧ plan.value.eq value = true ∧
      (∀ key, declaredMaximum document key = some (nat (plan.hardMaxima key))) ∧
      ∀ key, ∃ reviewed : Nat, declaredMaximum manifest key = some (nat reviewed) ∧
        plan.hardMaxima key ≤ reviewed
  /-- Nothing else varies: documents with the same maxima equal the same plan. -/
  determined : ∀ value document value' document', verifyEnvelopePlan load value bytes = .ok document →
    verifyEnvelopePlan load value' bytes = .ok document' →
    (∀ key, declaredMaximum document key = declaredMaximum document' key) →
    ∃ plan : EnvelopePlan, plan.value.eq value = true ∧ plan.value.eq value' = true

theorem verifiesExactly (load : List Nat → Result Value) (bytes : List Nat) :
    VerifiesExactly load bytes where
  accepts _ _ _ _ read ok := verify_compiled read ok
  only := by
    intro value document ok
    obtain ⟨valid, manifest, plan, loaded, compiled, same⟩ := verify_ok ok
    obtain ⟨rfl, _⟩ := validateEnvelopePlan_ok valid
    exact ⟨rfl, manifest, plan, loaded, compiled, same, declared_of_eq valid same,
      declared_of_compiled compiled⟩
  determined := by
    intro value document value' document' ok ok' agree
    obtain ⟨valid, manifest, plan, loaded, compiled, same⟩ := verify_ok ok
    obtain ⟨valid', manifest', plan', loaded', compiled', same'⟩ := verify_ok ok'
    obtain ⟨rfl, _⟩ := validateEnvelopePlan_ok valid
    obtain ⟨rfl, _⟩ := validateEnvelopePlan_ok valid'
    obtain rfl := Value.dict.inj (Except.ok.inj (loaded.symm.trans loaded'))
    have maxima : plan.hardMaxima = plan'.hardMaxima := by
      funext key
      have equal := agree key
      rw [declared_of_eq valid same, declared_of_eq valid' same', nat, nat, Option.some.injEq,
        Value.int.injEq, Int.natCast_inj] at equal
      exact equal
    rw [PlanOf, maxima] at compiled
    obtain rfl := Except.ok.inj (compiled.symm.trans compiled')
    exact ⟨plan, same, same'⟩

theorem envelope_verification_exact :
    (∀ manifest digest reductions plan, compileEnvelopePlan manifest digest reductions = .ok plan →
      validateEnvelopePlan plan.value = .ok plan.items) ∧
      ∀ load bytes, VerifiesExactly load bytes :=
  ⟨fun _ _ _ _ ok => validate_compiled ok, verifiesExactly⟩

end Sippycup.Envelope
