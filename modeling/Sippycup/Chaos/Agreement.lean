import Mathlib.Data.List.ProdSigma
import Mathlib.Data.List.Dedup
import Sippycup.Chaos.AcceptedTopology

/-! Whether the profile compiler accepts the plans that the topology planner
writes. Both digest the target networks as an ordered list: the planner in
numeric order, the compiler in the order of their texts. -/
namespace Sippycup.Chaos
open Sippycup.Python Sippycup.Ip

theorem putNetwork_keys (networks : List Network) (network : Network) :
    (putNetwork networks network).map Network.key =
      if network.key ∈ networks.map Network.key then networks.map Network.key
      else networks.map Network.key ++ [network.key] := by
  have known : (networks.any fun n => n.key == network.key) = true ↔
      network.key ∈ networks.map Network.key := by
    simp only [List.any_eq_true, beq_iff_eq, List.mem_map]
  rw [putNetwork]
  by_cases present : network.key ∈ networks.map Network.key
  · rw [if_pos (known.mpr present), if_pos present, List.map_map]
    apply List.map_congr_left
    intro n _
    by_cases same : n.key = network.key
    · simp [same]
    · simp [same]
  · rw [if_neg (mt known.mp present), if_neg present, List.map_append]
    rfl

theorem readTargets_keys {networks result : List Network} {values : List Text}
    (distinct : (networks.map Network.key).Nodup)
    (read : readTargets networks values = .ok result) :
    (result.map Network.key).Nodup ∧ (networks ≠ [] ∨ values ≠ [] → result ≠ []) := by
  induction values generalizing networks with
  | nil =>
    cases read
    exact ⟨distinct, fun given => given.elim id (absurd rfl)⟩
  | cons value rest ih =>
    rw [readTargets] at read
    obtain ⟨network, _, read⟩ := bind_ok.mp read
    have keys := putNetwork_keys networks network
    have nonempty : putNetwork networks network ≠ [] := by
      rw [ne_eq, ← List.map_eq_nil_iff (f := Network.key), keys]
      split
      · rename_i member
        exact List.ne_nil_of_mem member
      · simp
    have stillDistinct : ((putNetwork networks network).map Network.key).Nodup := by
      rw [keys]
      split
      · exact distinct
      · rename_i fresh
        exact List.Nodup.append distinct (List.nodup_singleton _) (by simpa using fresh)
    obtain ⟨unique, full⟩ := ih stillDistinct read
    exact ⟨unique, fun _ => full (.inl nonempty)⟩

theorem canonicalTargets_ok {values : List Text} {networks : List Network}
    (canonical : canonicalTargets values = .ok networks) :
    networks ≠ [] ∧ (networks.map Network.text).Nodup := by
  rw [canonicalTargets] at canonical
  split at canonical
  · cases canonical
  · rename_i some_
    obtain ⟨read, readOk, same⟩ := bind_ok.mp canonical
    obtain rfl := pure_ok.mp same
    obtain ⟨distinct, full⟩ := readTargets_keys (by simp) readOk
    have perm := List.perm_insertionSort (fun a b : Network => keyLe a.key b.key = true) read
    constructor
    · intro empty
      rw [empty] at perm
      exact full (.inr (by simpa using some_)) perm.symm.eq_nil
    · apply List.Nodup.map
      · intro m n same
        exact network_text_injective same
      · exact perm.nodup_iff.mpr (List.Nodup.of_map _ distinct)

theorem requested_nodup (direction : Direction) : direction.requested.Nodup := by
  cases direction <;> decide

theorem requested_named (direction : Direction) :
    ∀ d ∈ direction.requested, d = "egress" ∨ d = "ingress" := by
  cases direction <;> decide

theorem requested_ne_nil (direction : Direction) : direction.requested ≠ [] := by
  cases direction <;> decide

theorem contains_map_entry {names : List String} {f : String → JsonValue} {name : String}
    (member : name ∈ names) :
    JsonDict.contains (names.map fun n => JsonDict.entry n (f n)) name = true := by
  induction names with
  | nil => cases member
  | cons first rest ih =>
    rw [List.map_cons, JsonDict.contains, JsonDict.get?_entry]
    split
    · rfl
    · rename_i other
      exact ih ((List.mem_cons.mp member).resolve_left (Ne.symm other))

theorem exactKeys_targetFilter (network : Network) (direction field : String) :
    exactKeys (targetFilter network direction) field filterKeys filterKeys = .ok () := by
  simp [exactKeys, targetFilter, JsonDict.keys, filterKeys, JsonDict.entry, JsonDict.contains, refuse]

theorem checkFilter_target {attachments : JsonDict} {index : Nat} {network : Network}
    {direction : String} (named : direction = "egress" ∨ direction = "ingress")
    (attached : attachments.contains direction = true) :
    checkFilter attachments index (.dict (targetFilter network direction)) =
      .ok (targetFilter network direction, ⟨direction, network.text⟩) := by
  have member : Text.ofString direction ∈ directionNames := by
    rcases named with rfl | rfl <;> decide
  simp only [checkFilter, expectMapping, ok_bind, exactKeys_targetFilter]
  simp [JsonDict.item, targetFilter, filterDirection, str, member, attached, filterNetwork,
    ipNetwork_text, refuse, matchOf, pure, Except.pure]

/-- The filters of a plan pass one by one, as long as no marker comes back. -/
theorem checkFilters_targets {attachments : JsonDict} {seen : List FilterMarker} {index : Nat}
    {pairs : List (Network × String)}
    (named : ∀ p ∈ pairs, p.2 = "egress" ∨ p.2 = "ingress")
    (attached : ∀ p ∈ pairs, attachments.contains p.2 = true)
    (fresh : ∀ p ∈ pairs, FilterMarker.mk p.2 p.1.text ∉ seen) (distinct : pairs.Nodup) :
    checkFilters attachments seen index (pairs.map fun p => .dict (targetFilter p.1 p.2)) =
      .ok (pairs.map fun p => (targetFilter p.1 p.2, ⟨p.2, p.1.text⟩)) := by
  induction pairs generalizing seen index with
  | nil => rfl
  | cons p rest ih =>
    obtain ⟨first, others⟩ := List.nodup_cons.mp distinct
    have new := fresh p List.mem_cons_self
    have later : ∀ q ∈ rest, FilterMarker.mk q.2 q.1.text ∉ FilterMarker.mk p.2 p.1.text :: seen := by
      intro q member again
      rcases List.mem_cons.mp again with same | again
      · obtain ⟨direction, network⟩ := FilterMarker.mk.inj same
        have equal : q = p := Prod.ext (network_text_injective network) (Text.ofString_inj.mp direction)
        exact first (equal ▸ member)
      · exact fresh q (List.mem_cons_of_mem p member) again
    rw [List.map_cons, checkFilters,
      checkFilter_target (named p List.mem_cons_self) (attached p List.mem_cons_self)]
    simp only [ok_bind, new, decide_false, refuse, Bool.false_eq_true, if_false]
    rw [ih (fun q m => named q (List.mem_cons_of_mem p m))
      (fun q m => attached q (List.mem_cons_of_mem p m)) later others]
    rfl

theorem targetFilters_eq (networks : List Network) (directions : List String) :
    targetFilters networks directions =
      (networks ×ˢ directions).map fun p => targetFilter p.1 p.2 := by
  simp only [targetFilters, SProd.sprod, List.product, List.map_flatMap, List.map_map]
  rfl

theorem scopeTexts_planned {networks : List Network} {directions : List String}
    (some_ : directions ≠ []) (distinct : (networks.map Network.text).Nodup) :
    scopeTexts ((networks ×ˢ directions).map fun p => ⟨p.2, p.1.text⟩) =
      sortTexts (networks.map Network.text) := by
  apply sortTexts_eq_of_perm
  apply (List.perm_ext_iff_of_nodup (List.nodup_dedup _) distinct).mpr
  intro t
  obtain ⟨d, inside⟩ := List.exists_mem_of_ne_nil directions some_
  simp only [List.mem_dedup, List.mem_map]
  constructor
  · rintro ⟨marker, ⟨p, member, rfl⟩, rfl⟩
    exact ⟨p.1, (List.mem_product.mp member).1, rfl⟩
  · rintro ⟨network, member, rfl⟩
    exact ⟨_, ⟨(network, d), List.mem_product.mpr ⟨member, inside⟩, rfl⟩, rfl⟩

theorem require_ok {capabilities : CapabilitySnapshot} {names : List Feature} {context : String}
    {u : Unit} :
    require capabilities names context = .ok u ↔ ∀ f ∈ names, capabilities.state f = .available := by
  rw [require]
  split
  · rename_i none
    simpa using none
  · rename_i some_
    simp only [topologyError, reduceCtorEq, false_iff]
    simpa using some_

theorem find_feature (state : Feature → FeatureState) (f : Feature) :
    JsonDict.find (features.map fun f => JsonDict.entry f.key (str (state f).value)) f.key =
      str (state f).value := by
  cases f <;> simp [JsonDict.find, features, Feature.key]

theorem nonempty_of_fullMatch {first rest : Nat → Bool} {limit : Nat} {codes : Codes}
    (matched : fullMatch first rest limit codes = true) : codes ≠ [] := by
  rintro rfl
  cases matched

theorem nonemptyText_str {t : Text} (full : t.codes ≠ []) : nonemptyText (.str t) = .ok t := by
  rw [nonemptyText, if_neg (by simpa using full)]

theorem exactKeys_attachmentDict (namespace_ interface : Text) (hook field : String) :
    exactKeys (attachmentDict namespace_ interface hook) field attachmentKeys attachmentKeys =
      .ok () := by
  simp [exactKeys, attachmentDict, JsonDict.keys, attachmentKeys, JsonDict.entry, JsonDict.contains,
    refuse]

theorem checkAttachment_dict {direction hook : String} {namespace_ interface : Text}
    (named : direction = "egress" ∨ direction = "ingress")
    (inside : namespace_ = hostNamespace ∨ namespaceOk namespace_ = true)
    (safe : interfaceOk interface = true) (known : Text.ofString hook ∈ hooks) :
    checkAttachment direction (.dict (attachmentDict namespace_ interface hook)) =
      .ok ⟨direction, namespace_, interface, hook⟩ := by
  have member : Text.ofString direction ∈ directionNames := by
    rcases named with rfl | rfl <;> decide
  have full : namespace_.codes ≠ [] := by
    rcases inside with rfl | inside
    · decide
    · exact nonempty_of_fullMatch inside
  have unsafe_ : (decide (namespace_ ≠ hostNamespace) && !namespaceOk namespace_) = false := by
    rcases inside with rfl | inside
    · simp
    · simp [inside]
  simp only [checkAttachment, member, not_true_eq_false, decide_false, refuse, Bool.false_eq_true,
    if_false, ok_bind, expectMapping, exactKeys_attachmentDict]
  simp only [JsonDict.item, attachmentDict, JsonDict.get?_entry, String.reduceEq, if_true, if_false,
    ok_bind, nonemptyText_str full, nonemptyText_str (nonempty_of_fullMatch safe), str, readHook,
    known, unsafe_, safe, Bool.not_true, Bool.false_eq_true]
  rfl

theorem checkAttachments_map {directions : List String} {f : String → JsonDict}
    {g : String → Attachment}
    (checked : ∀ d ∈ directions, checkAttachment d (.dict (f d)) = .ok (g d)) :
    checkAttachments (directions.map fun d => JsonDict.entry d (.dict (f d))) =
      .ok (directions.map g) := by
  induction directions with
  | nil => rfl
  | cons d rest ih =>
    rw [List.map_cons, JsonDict.entry, checkAttachments, checked d List.mem_cons_self, ok_bind,
      ih fun e member => checked e (List.mem_cons_of_mem d member)]
    rfl

theorem covered_product (networks : List Network) {directions : List String}
    {g : String → Attachment} (named : ∀ d ∈ directions, (g d).direction = d) :
    Covered (directions.map g) ((networks ×ˢ directions).map fun p => ⟨p.2, p.1.text⟩) := by
  constructor
  · intro m member
    obtain ⟨p, inside, rfl⟩ := List.mem_map.mp member
    have direction := (List.mem_product.mp inside).2
    exact ⟨g p.2, List.mem_map_of_mem direction, named p.2 direction⟩
  · intro a attached m member
    obtain ⟨d, inside, rfl⟩ := List.mem_map.mp attached
    obtain ⟨p, paired, rfl⟩ := List.mem_map.mp member
    apply List.mem_map.mpr
    refine ⟨(p.1, d), List.mem_product.mpr ⟨(List.mem_product.mp paired).1, inside⟩, ?_⟩
    rw [named d inside]

/-- A layout whose attachments pass their check in every direction it may be asked for. -/
structure SoundLayout (kind : TopologyKind) (layout : Layout) (attached : String → Attachment) :
    Prop where
  dangerous : layout.dangerous = decide (kind = .dangerousHostNetwork)
  checked : ∀ d, d = "egress" ∨ d = "ingress" →
    checkAttachment d (.dict (layout.attachment d)) = .ok (attached d)
  named : ∀ d : String, (attached d).direction = d

variable {request : TopologyRequest} {capabilities : CapabilitySnapshot}
  {snapshot : NetworkSnapshot} {networks : List Network} {layout : Layout}
  {attached : String → Attachment}

def plannedTargets (request : TopologyRequest) (networks : List Network) : List JsonDict :=
  targetFilters networks request.direction.requested

@[simp] theorem str_isText (s : String) (t : Text) :
    (str s).isText t = decide (Text.ofString s = t) := rfl

theorem plannedFilters_checked (request : TopologyRequest) {attachments : JsonDict}
    (distinct : (networks.map Network.text).Nodup)
    (attached : ∀ d ∈ request.direction.requested, attachments.contains d = true) :
    checkFilters attachments [] 0 ((plannedTargets request networks).map .dict) =
      .ok ((networks ×ˢ request.direction.requested).map fun p =>
        (targetFilter p.1 p.2, ⟨p.2, p.1.text⟩)) := by
  rw [plannedTargets, targetFilters_eq, List.map_map]
  apply checkFilters_targets
  · exact fun p member => requested_named _ p.2 (List.mem_product.mp member).2
  · exact fun p member => attached p.2 (List.mem_product.mp member).2
  · exact fun p _ absent => absurd absent List.not_mem_nil
  · exact List.Nodup.product (List.Nodup.of_map _ distinct) (requested_nodup _)

theorem filterItems_planned {plan : JsonDict} (some_ : networks ≠ [])
    (found : plan.find "targetFilters" = .list ((plannedTargets request networks).map .dict)) :
    filterItems plan = .ok ((plannedTargets request networks).map .dict) := by
  rw [filterItems, found]
  split
  · rename_i item rest same
    rw [JsonValue.list.inj same]
  · rename_i other
    obtain ⟨network, member⟩ := List.exists_mem_of_ne_nil networks some_
    obtain ⟨d, inside⟩ := List.exists_mem_of_ne_nil _ (requested_ne_nil request.direction)
    have target : targetFilter network d ∈ plannedTargets request networks := by
      rw [plannedTargets, targetFilters_eq]
      exact List.mem_map.mpr ⟨(network, d), List.mem_product.mpr ⟨member, inside⟩, rfl⟩
    obtain ⟨item, rest, split⟩ := List.exists_cons_of_ne_nil (List.ne_nil_of_mem target)
    rw [split, List.map_cons] at other
    exact absurd rfl (other _ _)

theorem readKind_planned {plan : JsonDict} {kind : TopologyKind}
    (named : plan.find "topology" = str kind.value)
    (flagged : plan.find "dangerous" = .bool (decide (kind = .dangerousHostNetwork))) :
    readKind plan = .ok kind := by
  rw [readKind, named, flagged]
  cases kind <;> simp [str, TopologyKind.value, JsonValue.hashable, JsonValue.isBool]

/-- The validator accepts what the planner renders up to the scope digest and the checks of the
kind of topology. -/
theorem renderPlan_accepted_iff (sound : SoundLayout request.topology layout attached)
    (some_ : networks ≠ []) (distinct : (networks.map Network.text).Nodup)
    (capable : ∀ f ∈ requiredFeatures request.topology, capabilities.state f = .available) :
    validateTopology (.dict (renderPlan request capabilities snapshot networks layout)) =
        .ok (renderPlan request capabilities snapshot networks layout,
          plannedTargets request networks) ↔
      digest (texts (networks.map Network.text)) =
          digest (texts (sortTexts (networks.map Network.text))) ∧
        checkKind request.topology (renderPlan request capabilities snapshot networks layout)
          snapshot.toDict (request.direction.requested.map attached) = .ok () := by
  have filters := plannedFilters_checked request distinct
    fun d member => contains_map_entry (f := fun d => .dict (layout.attachment d)) member
  have attachments := checkAttachments_map
    fun d member => sound.checked d (requested_named request.direction d member)
  have items : filterItems (renderPlan request capabilities snapshot networks layout) =
      .ok ((plannedTargets request networks).map .dict) := by
    apply filterItems_planned some_
    simp [renderPlan, JsonDict.find, plannedTargets]
  have kind : readKind (renderPlan request capabilities snapshot networks layout) =
      .ok request.topology := by
    apply readKind_planned
    · simp [renderPlan, JsonDict.find]
    · simp [renderPlan, JsonDict.find, sound.dangerous]
  have available : ∀ f ∈ requiredFeatures request.topology,
      JsonDict.find (features.map fun f => JsonDict.entry f.key (str (capabilities.state f).value))
        f.key = .str "available" := by
    intro f member
    rw [find_feature, capable f member]
    rfl
  have markers : ((networks ×ˢ request.direction.requested).map fun p =>
      (targetFilter p.1 p.2, FilterMarker.mk p.2 p.1.text)).map Prod.snd =
        (networks ×ˢ request.direction.requested).map fun p => FilterMarker.mk p.2 p.1.text := by
    rw [List.map_map]
    rfl
  have targets : ((networks ×ˢ request.direction.requested).map fun p =>
      (targetFilter p.1 p.2, FilterMarker.mk p.2 p.1.text)).map Prod.fst =
        plannedTargets request networks := by
    rw [List.map_map, plannedTargets, targetFilters_eq]
    rfl
  have found : ∀ key value, (renderPlan request capabilities snapshot networks layout).get? key =
      some value → (renderPlan request capabilities snapshot networks layout).find key = value := by
    intro key value present
    rw [JsonDict.find, present]
    rfl
  have version := found "apiVersion" (str planVersion) (by simp [renderPlan])
  have document := found "kind" (str "ChaosTopologyPlan") (by simp [renderPlan])
  have noChange := found "noChange" (.bool true) (by simp [renderPlan])
  have noCommands := found "mutationCommands" (.list []) (by simp [renderPlan])
  have frozen := found "preMutationSnapshot" (.dict snapshot.toDict) (by simp [renderPlan])
  have snapshotDigest := found "snapshotSha256" (.str (digest (.dict snapshot.toDict)))
    (by simp [renderPlan])
  have capabilities_ := found "capabilities" (.dict capabilities.toDict) (by simp [renderPlan])
  have attached_ := found "attachments" (.dict (request.direction.requested.map fun d =>
    JsonDict.entry d (.dict (layout.attachment d)))) (by simp [renderPlan])
  have scope := found "targetScopeSha256" (.str (digest (texts (networks.map Network.text))))
    (by simp [renderPlan])
  have features_ : capabilities.toDict.find "features" = .dict (features.map fun f =>
      JsonDict.entry f.key (str (capabilities.state f).value)) := by
    simp [CapabilitySnapshot.toDict, JsonDict.find]
  generalize renderPlan request capabilities snapshot networks layout = plan at *
  have covered := covered_product networks fun d (_ : d ∈ request.direction.requested) => sound.named d
  have checked := (checkFeatures_ok (u := ())).mpr available
  simp only [validateTopology, expectMapping, ok_bind, version, document, noChange, noCommands,
    frozen, snapshotDigest, capabilities_, attached_, scope, features_, kind, items, filters,
    attachments, checked, markers, targets, scopeTexts_planned (requested_ne_nil _) distinct, covered,
    str_isText, JsonValue.isText_str, isTrue, isEmptyList, decide_true, Bool.not_true, Bool.and_true, refuse,
    Bool.false_eq_true, if_false]
  by_cases same : digest (texts (networks.map Network.text)) =
    digest (texts (sortTexts (networks.map Network.text)))
  · simp only [same, decide_true, Bool.not_true, Bool.false_eq_true, if_false, ok_bind, bind_ok,
      pure_ok, and_true, true_and]
    exact ⟨fun found => found.elim fun _ checked => checked, fun checked => ⟨(), checked⟩⟩
  · simp only [same, decide_false, Bool.not_false, if_true, profileError, false_and, iff_false]
    exact fun impossible => by cases impossible

def hostAttachment (hostInterface : Text) (direction : String) : Attachment :=
  if direction = "egress" then ⟨direction, hostNamespace, hostInterface, "egress"⟩
  else ⟨direction, hostNamespace, ifbName, "egress-after-ingress-redirect"⟩

theorem hostLayout_sound (direction : Direction) (confirmation : Text) {hostInterface : Text}
    (safe : interfaceOk hostInterface = true) :
    SoundLayout .dangerousHostNetwork (hostLayout direction confirmation hostInterface)
      (hostAttachment hostInterface) where
  dangerous := rfl
  checked d named := by
    by_cases egress : d = "egress"
    · simp only [hostLayout, hostAttachment, egress, if_true]
      exact checkAttachment_dict (.inl rfl) (.inl rfl) safe (by decide)
    · simp only [hostLayout, hostAttachment, egress, if_false]
      exact checkAttachment_dict named (.inl rfl) (by decide) (by decide)
  named d := by
    by_cases egress : d = "egress" <;> simp [hostAttachment, egress]

theorem disposableLayout_sound {names : NamespaceNames} (safe : namespaceOk names.impairment = true) :
    SoundLayout .disposableRouter (disposableLayout names)
      (fun d => expectedAttachment names.impairment d) where
  dangerous := rfl
  checked d named := by
    by_cases egress : d = "egress"
    · simp only [disposableLayout, expectedAttachment, egress, if_true]
      exact checkAttachment_dict (.inl rfl) (.inr safe) (by decide) (by decide)
    · simp only [disposableLayout, expectedAttachment, egress, if_false, Text.ofString_inj]
      exact checkAttachment_dict named (.inr safe) (by decide) (by decide)
  named d := by
    by_cases egress : d = "egress" <;> simp [expectedAttachment, egress]

theorem checkSnapshot_ok {names : NamespaceNames} {u : Unit}
    (checked : checkSnapshot request names snapshot = .ok u) :
    (request.topology = .disposableRouter →
      names.values ⊆ snapshot.namespaces.map NamespaceSnapshot.name) ∧
        ∀ item ∈ snapshot.namespaces, item.present = false := by
  simp only [checkSnapshot] at checked
  by_cases planned : snapshot.namespaces.map NamespaceSnapshot.name ⊆
      (if request.topology = .disposableRouter then names.values else []) ∧
    (if request.topology = .disposableRouter then names.values else []) ⊆
      snapshot.namespaces.map NamespaceSnapshot.name
  · rw [if_neg (not_not.mpr planned)] at checked
    by_cases occupied : ((snapshot.namespaces.filter NamespaceSnapshot.present).map
        NamespaceSnapshot.name).isEmpty = true
    · constructor
      · intro disposable
        have same := planned.2
        rwa [if_pos disposable] at same
      · simpa using occupied
    · rw [if_neg occupied] at checked
      cases checked
  · rw [if_pos planned] at checked
    cases checked

theorem checkDisposable_planned (capabilities : CapabilitySnapshot) (networks : List Network)
    {names : NamespaceNames} (kind : request.topology = .disposableRouter)
    (safe : namespaceOk names.impairment = true)
    (checked : checkSnapshot request names snapshot = .ok ()) :
    checkDisposable (renderPlan request capabilities snapshot networks (disposableLayout names))
      snapshot.toDict
      (request.direction.requested.map fun d : String => expectedAttachment names.impairment d) =
        .ok () := by
  obtain ⟨planned, absent⟩ := checkSnapshot_ok checked
  apply checkDisposable_ok.2
  refine ⟨(disposableLayout names).namespaces, names.impairment, ?_, ?_, safe, ?_, ?_⟩
  · simp [renderPlan, JsonDict.find]
  · simp [disposableLayout, JsonDict.find]
  · intro a member
    obtain ⟨d, _, rfl⟩ := List.mem_map.mp member
    rw [(disposableLayout_sound safe).named d]
  · let listed := snapshot.namespaces.map fun item => JsonValue.dict item.toDict
    have items : listed.filterMap absentName =
        snapshot.namespaces.map fun item => .str item.name := by
      rw [List.filterMap_map, ← List.filterMap_eq_map]
      apply List.filterMap_congr
      intro item member
      simp [absentName, NamespaceSnapshot.toDict, JsonDict.find, isFalse, absent item member]
    refine ⟨listed, ?_, ?_, ?_⟩
    · simp [NetworkSnapshot.toDict, JsonDict.find]
      rfl
    · rw [items]
      intro n member
      obtain ⟨item, _, rfl⟩ := List.mem_map.mp member
      rfl
    · rw [items]
      obtain ⟨item, member, same⟩ := List.mem_map.mp
        (planned kind (a := names.impairment) (by simp [NamespaceNames.values]))
      exact List.mem_map.mpr ⟨item, member, by rw [same]⟩

theorem checkHost_planned {hostInterface : Text} :
    checkHost snapshot.toDict (request.direction.requested.map (hostAttachment hostInterface)) =
        .ok () ↔
      ("egress" ∈ request.direction.requested → RecordsDevice snapshot.hostQdiscs hostInterface) := by
  have egress : checkHostEgress snapshot.toDict (hostAttachment hostInterface "egress") = .ok () ↔
      RecordsDevice snapshot.hostQdiscs hostInterface := by
    rw [checkHostEgress_ok]
    simp [hostAttachment, NetworkSnapshot.toDict, JsonDict.find]
  rw [checkHost_ok]
  constructor
  · intro checked requested
    exact egress.mp ((checked _ (List.mem_map_of_mem requested)).egress rfl)
  · intro recorded a member
    obtain ⟨d, requested, rfl⟩ := List.mem_map.mp member
    rcases requested_named _ d requested with rfl | rfl
    · exact ⟨rfl, fun ingress => absurd (Text.ofString_inj.mp ingress) (by decide), fun _ => egress.mpr (recorded requested)⟩
    · exact ⟨rfl, fun _ => ⟨rfl, rfl⟩, fun egress => absurd (Text.ofString_inj.mp egress) (by decide)⟩

/-- The validator accepts the plan, with the filters the plan has. -/
def Agrees (plan : JsonDict) : Prop :=
  ∃ filters, validateTopology (.dict plan) = .ok (plan, filters) ∧
    plan.find "targetFilters" = .list (filters.map .dict)

/-- The target networks, in numeric order, are in the order of their texts as well; or one digest
stands for both orders. -/
def ScopeOrdered (request : TopologyRequest) : Prop :=
  ∀ networks, canonicalTargets request.targets = .ok networks →
    sortTexts (networks.map Network.text) = networks.map Network.text ∨
      digest (texts (networks.map Network.text)) =
        digest (texts (sortTexts (networks.map Network.text)))

/-- An interface shaped in the host is recorded under its own name. -/
def EgressRecorded (request : TopologyRequest) (snapshot : NetworkSnapshot) : Prop :=
  request.topology = .dangerousHostNetwork → "egress" ∈ request.direction.requested →
    ∀ name ∈ request.hostInterface, RecordsDevice snapshot.hostQdiscs name

theorem agrees_iff {plan : JsonDict} {targets : List JsonDict}
    (written : plan.find "targetFilters" = .list (targets.map .dict)) :
    Agrees plan ↔ validateTopology (.dict plan) = .ok (plan, targets) := by
  constructor
  · rintro ⟨filters, accepted, same⟩
    rw [written] at same
    have dicts := JsonValue.list.inj same
    rw [List.map_injective_iff.mpr (fun _ _ equal => JsonValue.dict.inj equal) dicts]
    exact accepted
  · exact fun accepted => ⟨targets, accepted, written⟩

theorem scopeOrdered_iff (canonical : canonicalTargets request.targets = .ok networks) :
    ScopeOrdered request ↔ digest (texts (networks.map Network.text)) =
      digest (texts (sortTexts (networks.map Network.text))) := by
  constructor
  · intro ordered
    rcases ordered networks canonical with sorted | collide
    · rw [sorted]
    · exact collide
  · intro collide other same
    rw [canonical] at same
    cases same
    exact .inr collide

theorem validName_ok {value : Text} {field : String} {u : Unit} :
    validName value field = .ok u ↔ namespaceOk value = true := by
  rw [validName]
  split
  · rename_i safe
    simp [safe]
  · rename_i unsafe_
    simp [topologyError, unsafe_]

theorem concreteInterface_ok {name : Text} (concrete : concreteInterface request = .ok name) :
    request.hostInterface = some name ∧ interfaceOk name = true := by
  rw [concreteInterface] at concrete
  split at concrete
  · rename_i given found
    split at concrete
    · cases concrete
      exact ⟨found, by assumption⟩
    · cases concrete
  · cases concrete

theorem planHost_ok (laid : planHost request capabilities snapshot = .ok layout) :
    ∃ confirmation name, request.hostInterface = some name ∧ interfaceOk name = true ∧
      layout = hostLayout request.direction confirmation name ∧
        ∀ f ∈ requiredFeatures .dangerousHostNetwork, capabilities.state f = .available := by
  rw [planHost] at laid
  obtain ⟨confirmation, _, laid⟩ := bind_ok.mp laid
  split at laid
  · cases laid
  obtain ⟨name, concrete, laid⟩ := bind_ok.mp laid
  obtain ⟨devices, _, laid⟩ := bind_ok.mp laid
  split at laid
  · cases laid
  obtain ⟨_, required, laid⟩ := bind_ok.mp laid
  obtain ⟨_, _, laid⟩ := bind_ok.mp laid
  obtain ⟨_, _, laid⟩ := bind_ok.mp laid
  obtain rfl := pure_ok.mp laid
  obtain ⟨found, safe⟩ := concreteInterface_ok concrete
  exact ⟨confirmation, name, found, safe, rfl, require_ok.1 required⟩

theorem planDisposable_ok {names : NamespaceNames}
    (laid : planDisposable request capabilities names = .ok layout) :
    layout = disposableLayout names ∧
      ∀ f ∈ requiredFeatures .disposableRouter, capabilities.state f = .available := by
  rw [planDisposable] at laid
  obtain ⟨_, required, laid⟩ := bind_ok.mp laid
  obtain ⟨_, _, laid⟩ := bind_ok.mp laid
  obtain rfl := pure_ok.mp laid
  refine ⟨rfl, fun f member => require_ok.1 required f ?_⟩
  have same : requiredFeatures .disposableRouter ⊆
      [.iproute2, .tc, .netAdmin, .sysAdmin, .netem, .classifier, .pasta] := by decide
  exact same member

/-- The two sides agree on a plan exactly when numeric and textual order of its targets agree and
the snapshot records a shaped host interface. -/
theorem planTopology_agrees_iff {plan : JsonDict}
    (planned : planTopology request capabilities snapshot = .ok plan) :
    Agrees plan ↔ ScopeOrdered request ∧ EgressRecorded request snapshot := by
  rw [planTopology] at planned
  obtain ⟨⟨⟩, _, planned⟩ := bind_ok.mp planned
  obtain ⟨networks, canonical, planned⟩ := bind_ok.mp planned
  obtain ⟨_, named, planned⟩ := bind_ok.mp planned
  obtain ⟨⟨⟩, checked, planned⟩ := bind_ok.mp planned
  obtain ⟨layout, laid, rendered⟩ := bind_ok.mp planned
  obtain rfl := pure_ok.mp rendered
  obtain ⟨some_, distinct⟩ := canonicalTargets_ok canonical
  have written : (renderPlan request capabilities snapshot networks layout).find "targetFilters" =
      .list ((plannedTargets request networks).map .dict) := by
    simp [renderPlan, JsonDict.find, plannedTargets]
  rw [agrees_iff written, scopeOrdered_iff canonical]
  rw [planLayout] at laid
  split at laid
  · rename_i kind
    have safe : namespaceOk (namespaceNames request.namespacePrefix).impairment = true := by
      cases mapM_ok named with
      | cons _ rest =>
        cases rest with
        | cons second _ => exact validName_ok.mp second
    obtain ⟨rfl, capable⟩ := planDisposable_ok laid
    have sound := disposableLayout_sound safe
    rw [← kind] at sound capable
    have ready := checkDisposable_planned capabilities networks kind safe checked
    rw [renderPlan_accepted_iff sound some_ distinct capable, kind]
    simp [checkKind, ready, EgressRecorded, kind]
  · rename_i kind
    obtain ⟨confirmation, name, found, safe, rfl, capable⟩ := planHost_ok laid
    have sound := hostLayout_sound request.direction confirmation safe
    rw [← kind] at sound capable
    rw [renderPlan_accepted_iff sound some_ distinct capable, kind, checkKind, checkHost_planned]
    simp [EgressRecorded, kind, found]

def examplePlanning (targets : List Text) : Result JsonDict :=
  planTopology
    { targets, direction := .egress, topology := .dangerousHostNetwork
      namespacePrefix := "sippycup-chaos", requireMtu := false
      dangerousConfirmation := some (Text.ofString "dedicated-test-vm:lab")
      hostInterface := some (Text.ofString "eth0") }
    { executionMode := "rootful", state := fun _ => .available, evidence := [] }
    { hostRoutes := .list [], hostQdiscs := .list [.dict [("dev", .str "eth0")]], namespaces := [] }

/-- A plan was made and the validator does not accept it. -/
def Disagrees (planned : Result JsonDict) : Prop :=
  ∃ plan, planned = .ok plan ∧ ∀ filters, validateTopology (.dict plan) ≠ .ok (plan, filters)

def refused (planned : Result JsonDict) : Bool :=
  match planned with
  | .ok plan => !(validateTopology (.dict plan)).isOk
  | .error _ => false

theorem disagrees_of_refused {planned : Result JsonDict} (unaccepted : refused planned = true) :
    Disagrees planned := by
  unfold refused at unaccepted
  split at unaccepted
  · rename_i plan
    refine ⟨plan, rfl, fun filters accepted => ?_⟩
    rw [accepted] at unaccepted
    cases unaccepted
  · cases unaccepted

theorem numeric_order_is_refused :
    Disagrees (examplePlanning ["9.0.0.0/8", "10.0.0.0/8"]) :=
  disagrees_of_refused (by decide +kernel)

theorem single_target_agrees :
    ∃ plan, examplePlanning ["10.0.0.0/8"] = .ok plan ∧ Agrees plan := by
  obtain ⟨plan, planned⟩ := isOk_iff.mp
    (show (examplePlanning ["10.0.0.0/8"]).isOk = true by decide +kernel)
  refine ⟨plan, planned, (planTopology_agrees_iff planned).mpr ⟨?_, ?_⟩⟩
  · intro networks canonical
    have one : (canonicalTargets ["10.0.0.0/8"]).map List.length = .ok 1 := by decide +kernel
    rw [canonical] at one
    obtain ⟨network, rfl⟩ := List.length_eq_one_iff.mp (Except.ok.inj one)
    exact .inl rfl
  · intro _ _ name named
    obtain rfl := Option.some.inj named
    exact ⟨_, rfl, by simp [deviceOf, JsonDict.find, JsonValue.hashable],
      by simp [deviceOf, JsonDict.find]⟩

end Sippycup.Chaos
