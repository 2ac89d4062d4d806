import Sippycup.Chaos.Validate

/-! What acceptance of a topology plan says about the document, check by check. -/
namespace Sippycup.Chaos
open Sippycup.Python Sippycup.Ip

theorem refuse_ok {bad : Bool} {message : String} {u : Unit} :
    refuse bad message = .ok u ↔ bad = false := by
  cases bad <;> simp [refuse, profileError]

theorem expectMapping_ok {value : JsonValue} {field : String} {d : JsonDict} :
    expectMapping value field = .ok d ↔ value = .dict d := by
  cases value <;> simp [expectMapping, profileError]

theorem isTrue_iff {value : JsonValue} : isTrue value = true ↔ value = .bool true := by
  cases value <;> simp [isTrue]

theorem isEmptyList_iff {value : JsonValue} : isEmptyList value = true ↔ value = .list [] := by
  cases value with
  | list items => cases items <;> simp [isEmptyList]
  | _ => simp [isEmptyList]

theorem checkFeatures_ok {available : JsonDict} {required : List Feature} {u : Unit} :
    checkFeatures available required = .ok u ↔
      ∀ f ∈ required, available.find f.key = .str "available" := by
  induction required with
  | nil => simp [checkFeatures]
  | cons f rest ih =>
    simp only [checkFeatures, bind_ok, refuse_ok, Bool.not_eq_false', JsonValue.isText_iff,
      exists_and_left, exists_const, ih, List.forall_mem_cons]

/-- The parts of a topology plan that passed every check. -/
structure AcceptedTopology (plan : JsonDict) where
  kind : TopologyKind
  snapshot : JsonDict
  attachments : JsonDict
  filters : List (JsonDict × FilterMarker)
  attached : List Attachment
  version : plan.find "apiVersion" = .str planVersion
  document : plan.find "kind" = .str "ChaosTopologyPlan"
  noChange : plan.find "noChange" = .bool true
  noCommands : plan.find "mutationCommands" = .list []
  kindRead : readKind plan = .ok kind
  frozen : plan.find "preMutationSnapshot" = .dict snapshot
  snapshotDigest : plan.find "snapshotSha256" = .str (digest (.dict snapshot))
  capable : ∃ capabilities available : JsonDict, plan.find "capabilities" = .dict capabilities ∧
    capabilities.find "features" = .dict available ∧
      ∀ f ∈ requiredFeatures kind, available.find f.key = .str "available"
  attachmentsRead : plan.find "attachments" = .dict attachments
  filtersChecked : ∃ items, filterItems plan = .ok items ∧
    checkFilters attachments [] 0 items = .ok filters
  scopeDigest : plan.find "targetScopeSha256" =
    .str (digest (texts (scopeTexts (filters.map Prod.snd))))
  attachmentsChecked : checkAttachments attachments = .ok attached
  covered : Covered attached (filters.map Prod.snd)
  kindChecked : checkKind kind plan snapshot attached = .ok ()

theorem validateTopology_ok {topology : JsonValue} {plan : JsonDict} {targets : List JsonDict} :
    validateTopology topology = .ok (plan, targets) ↔
      topology = .dict plan ∧ ∃ a : AcceptedTopology plan, targets = a.filters.map Prod.fst := by
  simp only [validateTopology, bind_ok, refuse_ok, expectMapping_ok, Bool.not_eq_false',
    JsonValue.isText_iff, Bool.and_eq_true, isTrue_iff, isEmptyList_iff, checkFeatures_ok,
    decide_eq_true_eq, exists_and_left, exists_const, pure_ok, Prod.mk.injEq]
  constructor
  · rintro ⟨d, rfl, version, document, ⟨noChange, noCommands⟩, kind, kindRead, snapshot, frozen,
      snapshotDigest, capabilities, read, available, features, capable, attachments,
      attachmentsRead, items, itemsRead, filters, filtersChecked, scopeDigest, attached,
      attachmentsChecked, covered, ⟨⟩, kindChecked, rfl, rfl⟩
    exact ⟨rfl, ⟨kind, snapshot, attachments, filters, attached, version, document, noChange,
      noCommands, kindRead, frozen, snapshotDigest, ⟨capabilities, available, read, features, capable⟩,
      attachmentsRead, ⟨items, itemsRead, filtersChecked⟩, scopeDigest, attachmentsChecked, covered,
      kindChecked⟩, rfl⟩
  · rintro ⟨rfl, a, rfl⟩
    obtain ⟨capabilities, available, read, features, capable⟩ := a.capable
    obtain ⟨items, itemsRead, filtersChecked⟩ := a.filtersChecked
    exact ⟨plan, rfl, a.version, a.document, ⟨a.noChange, a.noCommands⟩, a.kind, a.kindRead,
      a.snapshot, a.frozen, a.snapshotDigest, capabilities, read, available, features, capable,
      a.attachments, a.attachmentsRead, items, itemsRead, a.filters, filtersChecked, a.scopeDigest,
      a.attached, a.attachmentsChecked, a.covered, (), a.kindChecked, rfl, rfl⟩

theorem hashedNames_ok {values names : List JsonValue} :
    hashedNames values = .ok names ↔ (∀ v ∈ values, v.hashable = true) ∧ names = values := by
  induction values generalizing names with
  | nil =>
    constructor
    · rintro ⟨⟩
      exact ⟨fun v absent => absurd absent List.not_mem_nil, rfl⟩
    · rintro ⟨-, rfl⟩
      rfl
  | cons v rest ih =>
    rw [hashedNames]
    by_cases hashable : v.hashable = true
    · simp only [hashable, if_true, bind_ok, ih, pure_ok, List.forall_mem_cons, true_and]
      constructor
      · rintro ⟨_, ⟨others, rfl⟩, rfl⟩
        exact ⟨others, rfl⟩
      · rintro ⟨others, rfl⟩
        exact ⟨rest, ⟨others, rfl⟩, rfl⟩
    · simp [hashable]

theorem any_isText {values : List JsonValue} {t : Text} :
    (values.any fun v => v.isText t) = true ↔ JsonValue.str t ∈ values := by
  simp [List.any_eq_true, JsonValue.isText_iff]

/-- The interface is the text of some device, and every device can be hashed. -/
def RecordsDevice (qdiscs : JsonValue) (interface : Text) : Prop :=
  ∃ items, qdiscs = .list items ∧ (∀ device ∈ items.filterMap deviceOf, device.hashable = true) ∧
    JsonValue.str interface ∈ items.filterMap deviceOf

/-- The namespace is recorded as absent, and every absent one has a name that can be hashed. -/
def RecordsAbsence (namespaces : JsonValue) (name : Text) : Prop :=
  ∃ items, namespaces = .list items ∧ (∀ n ∈ items.filterMap absentName, n.hashable = true) ∧
    JsonValue.str name ∈ items.filterMap absentName

theorem checkHostEgress_ok {snapshot : JsonDict} {a : Attachment} {u : Unit} :
    checkHostEgress snapshot a = .ok u ↔
      a.hook = "egress" ∧ ∃ host : JsonDict, snapshot.find "host" = .dict host ∧
        RecordsDevice (host.find "qdiscs") a.interface := by
  simp only [checkHostEgress, bind_ok, expectMapping_ok, RecordsDevice]
  constructor
  · rintro ⟨host, found, checked⟩
    split at checked
    · rename_i items qdiscs
      obtain ⟨devices, hashed, checked⟩ := bind_ok.mp checked
      obtain ⟨hashable, rfl⟩ := hashedNames_ok.1 hashed
      simp only [refuse_ok, Bool.or_eq_false_iff, decide_eq_false_iff_not, not_not,
        Bool.not_eq_false', any_isText] at checked
      exact ⟨checked.1, host, found, items, qdiscs, hashable, checked.2⟩
    · cases checked
  · rintro ⟨hook, host, found, items, qdiscs, hashable, inside⟩
    refine ⟨host, found, ?_⟩
    rw [qdiscs]
    refine bind_ok.mpr ⟨_, hashedNames_ok.2 ⟨hashable, rfl⟩, refuse_ok.2 ?_⟩
    simp only [hook, any_isText.2 inside, ne_eq, not_true_eq_false, decide_false, Bool.not_true,
      Bool.or_self]

/-- What the host kind asks of one attachment. -/
structure HostAttachment (snapshot : JsonDict) (a : Attachment) : Prop where
  inHost : a.namespace_ = hostNamespace
  ingress : a.direction = "ingress" →
    a.interface = ifbName ∧ a.hook = "egress-after-ingress-redirect"
  egress : a.direction = "egress" → checkHostEgress snapshot a = .ok ()

theorem checkHost_ok {snapshot : JsonDict} {attachments : List Attachment} {u : Unit} :
    checkHost snapshot attachments = .ok u ↔ ∀ a ∈ attachments, HostAttachment snapshot a := by
  induction attachments with
  | nil => simp [checkHost]
  | cons a rest ih =>
    simp only [checkHost, bind_ok, refuse_ok, decide_eq_false_iff_not, not_not, exists_const,
      List.forall_mem_cons]
    rw [← ih]
    constructor
    · rintro ⟨inHost, ingress, checked⟩
      push Not at ingress
      split at checked
      · rename_i egress
        obtain ⟨⟨⟩, first, others⟩ := bind_ok.mp checked
        exact ⟨⟨inHost, ingress, fun _ => first⟩, others⟩
      · rename_i other
        exact ⟨⟨inHost, ingress, fun egress => absurd egress other⟩, checked⟩
    · rintro ⟨⟨inHost, ingress, egress⟩, others⟩
      refine ⟨inHost, by push Not; exact ingress, ?_⟩
      split
      · rename_i named
        rw [egress named]
        exact others
      · exact others

theorem checkDisposable_ok {plan snapshot : JsonDict} {attachments : List Attachment} {u : Unit} :
    checkDisposable plan snapshot attachments = .ok u ↔
      ∃ (namespaces : JsonDict) (impairment : Text), plan.find "namespaces" = .dict namespaces ∧
        namespaces.find "impairment" = .str impairment ∧ namespaceOk impairment = true ∧
          (∀ a ∈ attachments, a = expectedAttachment impairment a.direction) ∧
            RecordsAbsence (snapshot.find "namespaces") impairment := by
  simp only [checkDisposable, bind_ok, expectMapping_ok, RecordsAbsence]
  constructor
  · rintro ⟨namespaces, found, checked⟩
    split at checked
    · rename_i impairment named
      simp only [bind_ok, refuse_ok, Bool.not_eq_false', exists_const, List.any_eq_false,
        decide_eq_true_eq, ne_eq, not_not] at checked
      obtain ⟨safe, unmodified, checked⟩ := checked
      split at checked
      · rename_i items listed
        obtain ⟨names, hashed, checked⟩ := bind_ok.mp checked
        obtain ⟨hashable, rfl⟩ := hashedNames_ok.1 hashed
        rw [refuse_ok, Bool.not_eq_false', any_isText] at checked
        exact ⟨namespaces, impairment, found, named, safe, unmodified, items, listed, hashable, checked⟩
      · cases checked
    · cases checked
  · rintro ⟨namespaces, impairment, found, named, safe, unmodified, items, listed, hashable, absent⟩
    refine ⟨namespaces, found, ?_⟩
    rw [named]
    simp only [bind_ok, refuse_ok, Bool.not_eq_false', exists_const, List.any_eq_false,
      decide_eq_true_eq, ne_eq, not_not, listed]
    refine ⟨safe, unmodified, _, hashedNames_ok.2 ⟨hashable, rfl⟩, any_isText.2 absent⟩

end Sippycup.Chaos
