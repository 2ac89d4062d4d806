import Sippycup.Learn.Walk

/-! What a normalized pack is made of: every dict has each key once, and the bounds
of its windows are integers or null. -/
namespace Sippycup.Learn
open Sippycup.Python
open JsonValue (Proper proper_dict proper_list parts_induction proper_find)

section normalized
variable {names names' : Names} {field : Text}

theorem proper_sortKeys {value : JsonValue} (proper : value.Proper) : value.sortKeys.Proper := by
  induction value using parts_induction with
  | scalar value noList noDict =>
    cases value with
    | list items => exact absurd rfl (noList items)
    | dict entries => exact absurd rfl (noDict entries)
    | _ => exact proper
  | list items ih =>
    rw [sortKeys_list, proper_list]
    intro sorted member
    obtain ⟨item, listed, rfl⟩ := List.mem_map.mp member
    exact ih item listed (proper_list.mp proper item listed)
  | dict entries ih =>
    obtain ⟨unique, inner⟩ := proper_dict.1 proper
    rw [sortKeys_dict_items, proper_dict, keys_sortedItems]
    refine ⟨((List.perm_insertionSort _ entries).map Prod.fst).nodup_iff.mpr unique, ?_⟩
    intro sorted member
    obtain ⟨entry, listed, rfl⟩ := List.mem_map.mp member
    have own := (List.perm_insertionSort _ entries).mem_iff.mp listed
    exact ih entry own (inner entry own)

theorem mem_normalizeItems {items outputs : List JsonValue}
    (run : normalizeItems names field items = .ok (outputs, names')) {output : JsonValue}
    (member : output ∈ outputs) :
    ∃ item ∈ items, ∃ before after, normalizeSorted before field item = .ok (output, after) := by
  induction items generalizing names outputs with
  | nil =>
    obtain ⟨rfl, -⟩ := Prod.mk.inj (Except.ok.inj run)
    cases member
  | cons item rest ih =>
    obtain ⟨first, between, others, head, tail, rfl⟩ := normalizeItems_cons_ok run
    rcases List.mem_cons.mp member with rfl | later
    · exact ⟨item, List.mem_cons_self, names, between, head⟩
    · obtain ⟨found, inside, rest⟩ := ih tail later
      exact ⟨found, List.mem_cons_of_mem _ inside, rest⟩

/-- A value in the output comes from the one under the same key. -/
theorem mem_normalizeEntries {entries output : JsonDict}
    (run : normalizeEntries names entries = .ok (output, names')) {entry : Text × JsonValue}
    (member : entry ∈ output) :
    ∃ value, (entry.1, value) ∈ entries ∧
      ∃ before after, normalizeSorted before entry.1 value = .ok (entry.2, after) := by
  induction entries generalizing names output with
  | nil =>
    obtain ⟨rfl, -⟩ := Prod.mk.inj (Except.ok.inj run)
    cases member
  | cons held rest ih =>
    obtain ⟨key, value⟩ := held
    obtain ⟨first, between, others, head, tail, rfl⟩ := normalizeEntries_cons_ok run
    rcases List.mem_cons.mp member with rfl | later
    · exact ⟨value, List.mem_cons_self, names, between, head⟩
    · obtain ⟨found, inside, rest⟩ := ih tail later
      exact ⟨found, List.mem_cons_of_mem _ inside, rest⟩

theorem proper_placeholderValue (kind name : Text) : (placeholderValue kind name).Proper :=
  proper_dict.2 ⟨placeholderValue_keys kind name, by simp [JsonDict.entry, Proper]⟩

theorem proper_normalized {value output : JsonValue} (proper : value.Proper)
    (run : normalizeSorted names field value = .ok (output, names')) : output.Proper := by
  induction value using parts_induction generalizing names names' field output with
  | scalar value noList noDict =>
    cases value with
    | list items => exact absurd rfl (noList items)
    | dict entries => exact absurd rfl (noDict entries)
    | _ =>
      simp only [normalizeSorted] at run
      obtain ⟨rfl, -⟩ := Prod.mk.inj (Except.ok.inj run)
      split <;> trivial
  | list items ih =>
    obtain ⟨outputs, inner, rfl⟩ := normalizeSorted_list_ok run
    rw [proper_list]
    intro item member
    obtain ⟨source, listed, before, after, head⟩ := mem_normalizeItems inner member
    exact ih source listed (proper_list.mp proper source listed) head
  | dict entries ih =>
    obtain ⟨unique, inner⟩ := proper_dict.1 proper
    rcases normalizeSorted_dict_ok run with ⟨kind, raw, -, -, rfl, -⟩ | ⟨-, outputs, entriesRun, rfl⟩
    · exact proper_placeholderValue _ _
    · rw [proper_dict, normalizeEntries_keys entriesRun]
      refine ⟨unique, fun entry member => ?_⟩
      obtain ⟨value, listed, before, after, head⟩ := mem_normalizeEntries entriesRun member
      exact ih _ listed (inner _ listed) head

end normalized

section stripped

theorem stripEntries_sublist (entries : JsonDict) :
    (JsonDict.keys (stripEntries entries)).Sublist entries.keys := by
  induction entries with
  | nil => exact .slnil
  | cons entry rest ih =>
    obtain ⟨key, value⟩ := entry
    rw [stripEntries]
    split
    · exact ih.cons key
    · exact ih.cons_cons key

theorem mem_stripEntries {entries : JsonDict} {entry : Text × JsonValue}
    (member : entry ∈ stripEntries entries) :
    ∃ value, (entry.1, value) ∈ entries ∧ entry.2 = stripSorted entry.1 value := by
  induction entries with
  | nil => cases member
  | cons held rest ih =>
    obtain ⟨key, value⟩ := held
    rw [stripEntries] at member
    split at member
    · obtain ⟨found, inside, is⟩ := ih member
      exact ⟨found, List.mem_cons_of_mem _ inside, is⟩
    · rcases List.mem_cons.mp member with rfl | later
      · exact ⟨value, List.mem_cons_self, rfl⟩
      · obtain ⟨found, inside, is⟩ := ih later
        exact ⟨found, List.mem_cons_of_mem _ inside, is⟩

theorem stripItems_eq (field : Text) (items : List JsonValue) :
    stripItems field items = items.map (stripSorted field) := by
  induction items with
  | nil => rfl
  | cons item rest ih => rw [stripItems, ih, List.map_cons]

theorem proper_stripSorted {value : JsonValue} (proper : value.Proper) (field : Text) :
    (stripSorted field value).Proper := by
  induction value using parts_induction generalizing field with
  | scalar value noList noDict =>
    cases value with
    | list items => exact absurd rfl (noList items)
    | dict entries => exact absurd rfl (noDict entries)
    | _ =>
      simp only [stripSorted, stripScalar]
      repeat' split
      all_goals trivial
  | list items ih =>
    rw [stripSorted, stripItems_eq, proper_list]
    intro stripped member
    obtain ⟨item, listed, rfl⟩ := List.mem_map.mp member
    exact ih item listed (proper_list.mp proper item listed) field
  | dict entries ih =>
    obtain ⟨unique, inner⟩ := proper_dict.1 proper
    rw [stripSorted, proper_dict]
    refine ⟨(stripEntries_sublist entries).nodup unique, fun entry member => ?_⟩
    obtain ⟨value, listed, is⟩ := mem_stripEntries member
    rw [is]
    exact ih _ listed (inner _ listed) _

theorem proper_stripEvidence {value : JsonValue} (proper : value.Proper) :
    (stripEvidence value).Proper := proper_stripSorted (proper_sortKeys proper) ""

/-- A dict display whose values are fields, or stripped fields, of a document. -/
theorem proper_display (keys : List String) (values : List JsonValue)
    (unique : (keys.map Text.ofString).Nodup) (each : ∀ value ∈ values, value.Proper) :
    (JsonValue.dict (List.zipWith JsonDict.entry keys values)).Proper := by
  rw [proper_dict]
  constructor
  · refine List.Nodup.sublist ?_ unique
    clear unique each
    induction keys generalizing values with
    | nil => exact .slnil
    | cons key rest ih =>
      cases values with
      | nil => exact List.nil_sublist _
      | cons value values => exact (ih values).cons_cons _
  · intro entry member
    clear unique
    induction keys generalizing values with
    | nil => cases member
    | cons key rest ih =>
      cases values with
      | nil => cases member
      | cons value values =>
        obtain ⟨head, tail⟩ := List.forall_mem_cons.mp each
        rcases List.mem_cons.mp member with rfl | later
        · exact head
        · exact ih values tail later

theorem proper_projectOracleDialog {item : JsonDict} (proper : Proper (.dict item)) :
    (projectOracleDialog item).Proper := by
  refine proper_display ["state", "complete"] [item.find "state", stripEvidence (item.find "complete")]
    (by decide) ?_
  simp only [List.forall_mem_cons]
  exact ⟨proper_find proper _, proper_stripEvidence (proper_find proper _),
    fun _ member => absurd member (List.not_mem_nil)⟩

theorem proper_projectStream {item : JsonDict} (proper : Proper (.dict item)) :
    (projectStream item).Proper := by
  refine proper_display ["direction", "correlation", "flow", "encrypted", "metrics"]
    [item.find "direction", item.find "correlation", stripEvidence (item.find "flow"),
      item.find "encrypted", stripEvidence (item.find "metrics")] (by decide) ?_
  simp only [List.forall_mem_cons]
  exact ⟨proper_find proper _, proper_find proper _, proper_stripEvidence (proper_find proper _),
    proper_find proper _, proper_stripEvidence (proper_find proper _),
    fun _ member => absurd member (List.not_mem_nil)⟩

theorem proper_projectAssertion {item : JsonDict} (proper : Proper (.dict item)) :
    (projectAssertion item).Proper := by
  refine proper_display ["verdict", "applicability", "observed"]
    [item.find "verdict", item.find "applicability", stripEvidence (item.find "observed")] (by decide) ?_
  simp only [List.forall_mem_cons]
  exact ⟨proper_find proper _, proper_find proper _, proper_stripEvidence (proper_find proper _),
    fun _ member => absurd member (List.not_mem_nil)⟩

theorem proper_projectDialog {dialog : JsonDict} (proper : Proper (.dict dialog)) :
    (projectDialog dialog).Proper := by
  refine proper_display ["state", "teardownInitiator"]
    [dialog.find "state", dialog.find "teardownInitiator"] (by decide) ?_
  simp only [List.forall_mem_cons]
  exact ⟨proper_find proper _, proper_find proper _, fun _ member => absurd member (List.not_mem_nil)⟩

end stripped

section windows
variable {names names' : Names} {field : Text}

theorem fieldOf_eq {d : JsonDict} {key : Text} : fieldOf (.dict d) key = d.find key := rfl

theorem proper_fieldOf {value : JsonValue} (proper : value.Proper) (key : Text) :
    (fieldOf value key).Proper := by
  cases value with
  | dict d => exact proper_find proper key
  | _ => trivial

/-- Bounds of the window of a normalized transaction. -/
def Bounded (transaction : JsonValue) : Prop :=
  ∀ name ∈ timingFields, IsBound (fieldOf (fieldOf transaction "timingWindowMs") name)

/-- Where a dict keeps its shape, a lookup in the output is of the normalized value. -/
theorem find_normalizeEntries {entries output : JsonDict} (unique : entries.keys.Nodup)
    (run : normalizeEntries names (sortedItems entries) = .ok (output, names')) (key : Text) :
    output.find key = .null ∨ ∃ before after,
      normalizeSorted before key (entries.find key).sortKeys = .ok (output.find key, after) := by
  rcases held : output.get? key with _ | value
  · left
    rw [JsonDict.find, held]
    rfl
  · right
    have is : output.find key = value := by
      rw [JsonDict.find, held]
      rfl
    obtain ⟨source, listed, before, after, head⟩ := mem_normalizeEntries run (JsonDict.mem_of_get? held)
    have sorted : (sortedItems entries).get? key = some source := by
      refine JsonDict.get?_of_mem ?_ listed
      rw [keys_sortedItems]
      exact ((List.perm_insertionSort _ entries).map Prod.fst).nodup_iff.mpr unique
    rw [get?_sortedItems] at sorted
    obtain ⟨own, found, rfl⟩ := Option.map_eq_some_iff.mp sorted
    refine ⟨before, after, ?_⟩
    rw [is, JsonDict.find, found]
    exact head

theorem normalize_bound {value output : JsonValue} (bound : IsBound value) (plain : endsWithPort field = false)
    (run : normalizeSorted names field value.sortKeys = .ok (output, names')) : output = value := by
  obtain rfl | ⟨n, rfl⟩ := bound
  · exact (Prod.mk.inj (Except.ok.inj run)).1.symm
  · simp only [JsonValue.sortKeys, normalizeSorted, ephemeralPort, plain, Bool.false_and] at run
    exact (Prod.mk.inj (Except.ok.inj run)).1.symm

theorem bounded_normalized {transaction window : JsonDict} {output : JsonValue}
    (has : HasWindow transaction window)
    (run : normalizeSorted names "" (comparedTransaction transaction).sortKeys = .ok (output, names')) :
    Bounded output := by
  intro name member
  have plain : ∀ name ∈ timingFields, endsWithPort name = false ∧ name ≠ "type" ∧ name ≠ "name" := by decide
  obtain ⟨noPort, notType, notName⟩ := plain name member
  have keys : (["method", "direction", "flow", "timingWindowMs", "requestHasSdp", "responses"].map
    Text.ofString).Nodup := by decide
  rw [comparedTransaction_eq] at run
  rcases run_dict_ok run with ⟨kind, raw, kinded, -, -, -⟩ | ⟨-, output, entriesRun, rfl⟩
  · rw [plain_of_absent rfl] at kinded
    cases kinded
  · rcases find_normalizeEntries (by exact keys) entriesRun "timingWindowMs" with null | ⟨before, after, inner⟩
    · rw [fieldOf_eq, null]
      exact .inl rfl
    · have held : JsonDict.find [
          JsonDict.entry "method" (transaction.find "method"),
          JsonDict.entry "direction" (transaction.find "direction"),
          JsonDict.entry "flow" (transaction.find "flow"),
          JsonDict.entry "timingWindowMs" (transaction.find "timingWindowMs"),
          JsonDict.entry "requestHasSdp" (transaction.find "requestHasSdp"),
          JsonDict.entry "responses" (.list
            (((objects? (getArray transaction "responses")).getD []).map projectResponse))]
          "timingWindowMs" = .dict window := has.find
      rw [held] at inner
      rw [fieldOf_eq]
      rcases run_dict_ok inner with ⟨kind, raw, -, -, is, -⟩ | ⟨-, bounds, boundsRun, is⟩
      · rw [is]
        left
        show JsonDict.find [JsonDict.entry "type" _, JsonDict.entry "name" _] name = .null
        rw [JsonDict.find, JsonDict.entry, JsonDict.entry, JsonDict.get?_cons, if_neg (Ne.symm notType),
          JsonDict.get?_cons, if_neg (Ne.symm notName)]
        rfl
      · rw [is, fieldOf_eq]
        rcases find_normalizeEntries has.unique boundsRun name with null | ⟨_, _, boundRun⟩
        · rw [null]
          exact .inl rfl
        · have bound : IsBound (window.find name) := by
            rw [JsonDict.find]
            cases looked : window.get? name with
            | none => exact .inl rfl
            | some value => exact has.bounds name member value looked
          rw [normalize_bound bound noPort boundRun]
          exact bound

theorem HasWindow.shift {transaction window : JsonDict} (has : HasWindow transaction window) (by_ : Int) :
    HasWindow (shiftTransaction by_ transaction)
      (window.map fun entry => (entry.1, shiftField by_ entry.1 entry.2)) where
  find := by rw [find_shiftTransaction, has.find, shiftWindow_dict]
  unique := by simpa [JsonDict.keys, Function.comp_def] using has.unique
  bounds := by
    intro field member value held
    rw [JsonDict.get?_map (shiftField by_)] at held
    obtain ⟨old, before, rfl⟩ := Option.map_eq_some_iff.mp held
    rw [shiftField, if_pos member]
    obtain rfl | ⟨n, rfl⟩ := has.bounds field member old before
    · exact .inl rfl
    · exact .inr ⟨_, rfl⟩

end windows

section packs

/-- What holds of the parts of a normalized pack. -/
structure WellFormed (pack : NormalizedPack) : Prop where
  dialog : pack.model.dialog.Proper
  transactions : ∀ item ∈ pack.model.transactions, item.Proper ∧ Bounded item
  sdpRevisions : ∀ item ∈ pack.model.sdpRevisions, item.Proper
  mediaPackets : ∀ item ∈ pack.model.mediaPackets, item.Proper
  dialogs : ∀ item ∈ pack.oracle.dialogs, item.Proper
  streams : ∀ item ∈ pack.oracle.streams, item.Proper
  unique : pack.oracle.assertions.keys.Nodup
  assertions : ∀ entry ∈ pack.oracle.assertions, entry.2.Proper ∧ isNull entry.2 = false

theorem proper_items {items outputs : List JsonValue} {names names' : Names}
    (run : normalizeItems names "" (items.map JsonValue.sortKeys) = .ok (outputs, names'))
    (proper : ∀ item ∈ items, item.Proper) : ∀ output ∈ outputs, output.Proper := by
  intro output member
  obtain ⟨sorted, inside, before, after, head⟩ := mem_normalizeItems run member
  obtain ⟨item, listed, rfl⟩ := List.mem_map.mp inside
  exact proper_normalized (proper_sortKeys (proper item listed)) head

theorem readObjects_proper {value : JsonValue} {message : String} {items : List JsonDict}
    (proper : value.Proper) (read : readObjects value message = .ok items) :
    ∀ item ∈ items, Proper (.dict item) := by
  rw [readObjects_ok read, proper_list] at proper
  exact fun item member => proper _ (List.mem_map_of_mem member)

theorem readAssertions_ok {items : List JsonDict} {named : JsonDict}
    (read : readAssertions items = .ok named) :
    named.keys.Nodup ∧ ∀ entry ∈ named, ∃ item ∈ items, entry.2 = projectAssertion item := by
  rw [readAssertions] at read
  split at read
  · rename_i unique
    obtain rfl := Except.ok.inj read
    refine ⟨unique.1, fun entry member => ?_⟩
    obtain ⟨item, listed, is⟩ := List.mem_filterMap.mp member
    refine ⟨item, listed, ?_⟩
    rw [namedAssertion?] at is
    split at is
    · exact congrArg Prod.snd (Option.some.inj is).symm
    · cases is
  · cases read

theorem proper_item {d : JsonDict} {key : Text} {value : JsonValue} (proper : Proper (.dict d))
    (read : (d.item key : Result JsonValue) = .ok value) : value.Proper :=
  (proper_dict.1 proper).2 _ (JsonDict.mem_of_get? (JsonDict.item_ok.mp read))

theorem wellFormed {pack : Pack} {normalized : NormalizedPack} (proper : Proper (.dict pack.model))
    (proper' : Proper (.dict pack.oracle)) (run : normalizePack pack = .ok normalized) :
    WellFormed normalized := by
  obtain ⟨model, modelRun, run⟩ := bind_ok.mp run
  obtain ⟨oracle, oracleRun, done⟩ := bind_ok.mp run
  obtain rfl := Except.ok.inj done
  obtain ⟨parts, read, partsRun⟩ := bind_ok.mp modelRun
  have from_ := readModel_ok read
  have parted := properParts proper from_
  obtain ⟨origin, packetOrigin, first, second, third, made⟩ := normalizeParts_ok partsRun
  have windows := made.windows parted.transactions
  obtain ⟨dialogValue, dialogsItem, rest⟩ := bind_ok.mp oracleRun
  obtain ⟨dialogs, dialogsRead, rest⟩ := bind_ok.mp rest
  obtain ⟨streamsValue, streamsItem, rest⟩ := bind_ok.mp rest
  obtain ⟨streams, streamsRead, rest⟩ := bind_ok.mp rest
  obtain ⟨assertionsValue, assertionsItem, rest⟩ := bind_ok.mp rest
  obtain ⟨assertions, assertionsRead, rest⟩ := bind_ok.mp rest
  obtain ⟨named, namedRead, rest⟩ := bind_ok.mp rest
  obtain ⟨verdict, -, done⟩ := bind_ok.mp rest
  obtain rfl := Except.ok.inj done
  have sorted : ∀ {items : List JsonValue} {item : JsonValue}, item ∈ sortByText items → item ∈ items :=
    fun member => (List.perm_insertionSort _ _).mem_iff.mp member
  exact {
    dialog := by
      rw [made.dialog]
      exact proper_projectDialog ((proper_dict.1 proper).2 _ (JsonDict.mem_of_get? from_.dialog))
    transactions := by
      intro output member
      obtain ⟨value, inside, before, after, head⟩ := mem_normalizeItems made.transactions member
      rw [List.map_map, List.map_map] at inside
      obtain ⟨transaction, listed, rfl⟩ := List.mem_map.mp inside
      obtain ⟨window, has⟩ := windows transaction listed
      refine ⟨proper_normalized (proper_sortKeys (proper_comparedTransaction
        (proper_shiftTransaction _ (parted.transactions transaction listed)))) head, ?_⟩
      exact bounded_normalized (has.shift (-origin)) head
    sdpRevisions := proper_items made.revisions fun item member => by
      obtain ⟨revision, listed, rfl⟩ := List.mem_map.mp member
      exact proper_projectRevision (parted.sdpRevisions revision listed)
    mediaPackets := proper_items made.packets fun item member => by
      obtain ⟨packet, listed, rfl⟩ := List.mem_map.mp member
      exact proper_projectPacket _ (parted.mediaPackets packet listed)
    dialogs := fun item member => by
      obtain ⟨dialog, listed, rfl⟩ := List.mem_map.mp (sorted member)
      exact proper_projectOracleDialog (readObjects_proper (proper_item proper' dialogsItem) dialogsRead
        dialog listed)
    streams := fun item member => by
      obtain ⟨stream, listed, rfl⟩ := List.mem_map.mp (sorted member)
      exact proper_projectStream (readObjects_proper (proper_item proper' streamsItem) streamsRead
        stream listed)
    unique := (readAssertions_ok namedRead).1
    assertions := fun entry member => by
      obtain ⟨item, listed, is⟩ := (readAssertions_ok namedRead).2 entry member
      rw [is]
      exact ⟨proper_projectAssertion (readObjects_proper (proper_item proper' assertionsItem)
        assertionsRead item listed), rfl⟩ }

end packs

end Sippycup.Learn
