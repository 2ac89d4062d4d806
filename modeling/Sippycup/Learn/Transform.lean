import Sippycup.Learn.Invariance

/-! A model renamed and shifted: its semantic model stays the same. -/
namespace Sippycup.Learn
open Sippycup.Python

/-- Fields of a dialog that are compared as they stand. -/
def dialogFields : List Text := ["state", "teardownInitiator"]

def renameDialog (ρ : Renaming) : JsonValue → JsonValue
  | .dict dialog =>
    .dict (dialog.map fun entry => (entry.1, if entry.1 ∈ dialogFields then entry.2 else rename ρ entry.2))
  | value => rename ρ value

def mapObjects (f : JsonDict → JsonDict) : JsonValue → JsonValue
  | .list items => .list (items.map fun item => match item with | .dict d => .dict (f d) | value => value)
  | value => value

/-- Placeholders renamed by `ρ`, timing windows shifted by `c` and packet offsets by `d`. -/
def transformPart (ρ : Renaming) (c d : Int) (key : Text) (value : JsonValue) : JsonValue :=
  if key = "dialog" then renameDialog ρ value
  else if key = "transactions" then mapObjects (shiftTransaction c) (rename ρ value)
  else if key = "mediaPackets" then mapObjects (shiftPacket d) (rename ρ value)
  else rename ρ value

def transformModel (ρ : Renaming) (c d : Int) (model : JsonDict) : JsonDict :=
  model.map fun entry => (entry.1, transformPart ρ c d entry.1 entry.2)

def transformParts (ρ : Renaming) (c d : Int) (parts : ModelParts) : ModelParts where
  dialog := parts.dialog.map fun entry =>
    (entry.1, if entry.1 ∈ dialogFields then entry.2 else rename ρ entry.2)
  transactions := parts.transactions.map fun transaction => shiftTransaction c (renameDict ρ transaction)
  sdpRevisions := parts.sdpRevisions.map (renameDict ρ)
  mediaPackets := parts.mediaPackets.map fun packet => shiftPacket d (renameDict ρ packet)

section read
variable {ρ : Renaming} {c d : Int}

theorem objects?_mapObjects (f : JsonDict → JsonDict) (value : JsonValue) :
    objects? (mapObjects f value) = (objects? value).map (List.map f) := by
  cases value with
  | list items =>
    rw [mapObjects, objects?, objects?]
    induction items with
    | nil => rfl
    | cons item rest ih =>
      rw [List.map_cons, List.mapM_cons, List.mapM_cons, ih]
      cases item with
      | dict entries =>
        cases rest.mapM fun item => match item with | .dict d => some d | _ => none <;> rfl
      | _ => rfl
  | _ => rfl

theorem item_map (f : Text → JsonValue → JsonValue) (model : JsonDict) (key : Text) :
    (JsonDict.item (model.map fun entry => (entry.1, f entry.1 entry.2)) key : Result JsonValue) =
      (model.item key).map (f key) := by
  rw [JsonDict.item, JsonDict.get?_map f key, JsonDict.item]
  cases model.get? key <;> rfl

theorem readObjects_map {f : JsonDict → JsonDict} {value other : JsonValue}
    (same : objects? other = (objects? value).map (List.map f)) (message : String) :
    readObjects other message = (readObjects value message).map (List.map f) := by
  rw [readObjects, readObjects, same]
  cases objects? value <;> rfl

theorem objects?_transform (f : JsonDict → JsonDict) (value : JsonValue) :
    objects? (mapObjects f (rename ρ value)) =
      (objects? value).map (List.map fun item => f (renameDict ρ item)) := by
  rw [objects?_mapObjects, objects?_rename, Option.map_map]
  congr 1
  funext items
  exact List.map_map

theorem readModel_transform (model : JsonDict) :
    readModel (transformModel ρ c d model) = (readModel model).map (transformParts ρ c d) := by
  have item : ∀ key, (JsonDict.item (transformModel ρ c d model) key : Result JsonValue) =
      (model.item key).map (transformPart ρ c d key) := item_map (transformPart ρ c d) model
  have packets : getArray (transformModel ρ c d model) "mediaPackets" =
      mapObjects (shiftPacket d) (rename ρ (getArray model "mediaPackets")) := by
    rw [getArray, transformModel, JsonDict.get?_map (transformPart ρ c d), getArray]
    cases model.get? "mediaPackets" <;> rfl
  have dialog : transformPart ρ c d "dialog" = renameDialog ρ := rfl
  have transactions : transformPart ρ c d "transactions" =
      fun value => mapObjects (shiftTransaction c) (rename ρ value) := rfl
  have revisions : transformPart ρ c d "sdpRevisions" = rename ρ := rfl
  rw [readModel, readModel, item, item, item, packets, dialog, transactions, revisions]
  rcases (model.item "dialog" : Result JsonValue) with raised | value
  · rfl
  cases value with
  | dict entries =>
    simp only [Except.map, renameDialog, ok_bind, pure_bind]
    rcases (model.item "transactions" : Result JsonValue) with raised | first
    · rfl
    rcases (model.item "sdpRevisions" : Result JsonValue) with raised | second
    · rfl
    simp only [ok_bind]
    rw [readObjects_map (objects?_transform (shiftTransaction c) first),
      readObjects_map (objects?_rename second),
      readObjects_map (objects?_transform (shiftPacket d) (getArray model "mediaPackets"))]
    rcases readObjects first _ with raised | first
    · rfl
    rcases readObjects second _ with raised | second
    · rfl
    rcases readObjects (getArray model "mediaPackets") _ with raised | packets <;> rfl
  | list items =>
    simp only [Except.map, renameDialog, rename_list, ok_bind]
    rfl
  | _ => rfl

end read

section normalize
variable {ρ : Renaming} {scope : Text → Text → Prop} {c d : Int}

theorem inScope_find {entries : JsonDict} (inside : InScope scope (.dict entries)) {key : Text}
    (notType : key ≠ "type") (notName : key ≠ "name") : InScope scope (entries.find key) := by
  rw [JsonDict.find]
  rcases held : entries.get? key with _ | value
  · exact fun entry member => absurd member (List.not_mem_nil)
  · have member := JsonDict.mem_of_get? held
    rcases kinded : placeholderKind? entries with _ | kind
    · exact (inScope_plain kinded).mp inside _ member
    · rcases keys_of_kind kinded member with is | is
      · exact absurd is notType
      · exact absurd is notName

theorem inScope_getArray {entries : JsonDict} (inside : InScope scope (.dict entries)) {key : Text}
    (notType : key ≠ "type") (notName : key ≠ "name") : InScope scope (getArray entries key) := by
  have found := inScope_find inside notType notName
  rw [JsonDict.find] at found
  rw [getArray]
  rcases held : entries.get? key with _ | value
  · exact fun entry member => absurd member (List.not_mem_nil)
  · rw [held] at found
    exact found

theorem objects?_some {value : JsonValue} {items : List JsonDict} (read : objects? value = some items) :
    value = .list (items.map JsonValue.dict) := by
  cases value with
  | list values =>
    rw [objects?] at read
    refine congrArg JsonValue.list ?_
    induction values generalizing items with
    | nil =>
      cases read
      rfl
    | cons value rest ih =>
      simp only [List.mapM_cons, bind, Option.bind_eq_some_iff, pure, Option.some.injEq] at read
      obtain ⟨first, head, others, tail, rfl⟩ := read
      cases value with
      | dict entries =>
        obtain rfl := Option.some.inj head
        rw [List.map_cons, ← ih tail]
      | _ => cases head
  | _ => cases read

theorem inScope_objects {value : JsonValue} {items : List JsonDict} (inside : InScope scope value)
    (read : objects? value = some items) : ∀ item ∈ items, InScope scope (.dict item) := by
  rw [objects?_some read, inScope_list] at inside
  exact fun item member => inside _ (List.mem_map_of_mem member)

/-- A dict display without a type holds the placeholders of its values. -/
theorem inScope_display {entries : JsonDict} (absent : entries.contains "type" = false)
    (each : ∀ entry ∈ entries, InScope scope entry.2) : InScope scope (.dict entries) :=
  (inScope_plain (plain_of_absent absent)).mpr each

theorem inScope_projectResponse {response : JsonDict} (inside : InScope scope (.dict response)) :
    InScope scope (projectResponse response) := by
  refine inScope_display (by simp [JsonDict.contains]) ?_
  simp only [List.forall_mem_cons, JsonDict.entry]
  exact ⟨inScope_find inside (by decide) (by decide), inScope_find inside (by decide) (by decide),
    fun _ member => absurd member (List.not_mem_nil)⟩

theorem inScope_projectTransaction {transaction : JsonDict} {responses : List JsonDict}
    (inside : InScope scope (.dict transaction))
    (read : objects? (getArray transaction "responses") = some responses) :
    InScope scope (projectTransaction transaction responses) := by
  have field : ∀ {key : Text}, key ≠ "type" → key ≠ "name" → InScope scope (JsonDict.find _ key) :=
    fun notType notName => inScope_find inside notType notName
  refine inScope_display (by simp [JsonDict.contains]) ?_
  simp only [List.forall_mem_cons, JsonDict.entry]
  refine ⟨field (by decide) (by decide), field (by decide) (by decide), field (by decide) (by decide),
    field (by decide) (by decide), field (by decide) (by decide), ?_,
    fun _ member => absurd member (List.not_mem_nil)⟩
  rw [inScope_list]
  intro item member
  obtain ⟨response, listed, rfl⟩ := List.mem_map.mp member
  exact inScope_projectResponse
    (inScope_objects (inScope_getArray inside (by decide) (by decide)) read response listed)

theorem inScope_projectRevision {revision : JsonDict} (inside : InScope scope (.dict revision)) :
    InScope scope (projectRevision revision) := by
  have field : ∀ {key : Text}, key ≠ "type" → key ≠ "name" → InScope scope (JsonDict.find _ key) :=
    fun notType notName => inScope_find inside notType notName
  refine inScope_display (by simp [JsonDict.contains]) ?_
  simp only [List.forall_mem_cons, JsonDict.entry]
  exact ⟨field (by decide) (by decide), field (by decide) (by decide), field (by decide) (by decide),
    field (by decide) (by decide), fun _ member => absurd member (List.not_mem_nil)⟩

theorem inScope_projectPacket (origin : Int) {packet : JsonDict} (inside : InScope scope (.dict packet)) :
    InScope scope (projectPacket origin packet) := by
  have field : ∀ {key : Text}, key ≠ "type" → key ≠ "name" → InScope scope (JsonDict.find _ key) :=
    fun notType notName => inScope_find inside notType notName
  refine inScope_display (by simp [JsonDict.contains]) ?_
  simp only [List.forall_mem_cons, JsonDict.entry]
  exact ⟨field (by decide) (by decide), field (by decide) (by decide), field (by decide) (by decide),
    field (by decide) (by decide), inScope_shiftInt _ (field (by decide) (by decide)),
    fun _ member => absurd member (List.not_mem_nil)⟩

theorem inScope_shiftTransaction (by_ : Int) {transaction : JsonDict}
    (inside : InScope scope (.dict transaction)) :
    InScope scope (.dict (shiftTransaction by_ transaction)) := by
  refine inScope_map (f := shiftOwnWindow by_) (fun _ => rfl) (fun _ => rfl) (fun key value inner => ?_) inside
  rw [shiftOwnWindow]
  split
  · exact inScope_shiftWindow by_ inner
  · exact inner

theorem normalizeTransactions_mirrors (injective : InjectiveOn scope ρ) (index : Nat)
    {transactions : List JsonDict}
    (inside : ∀ transaction ∈ transactions, InScope scope (.dict transaction))
    {names : Names} (within : names.Within scope) :
    Mirrors scope ρ (normalizeTransactions names index transactions)
      (normalizeTransactions (names.renamed ρ) index (transactions.map (renameDict ρ))) := by
  induction transactions generalizing index names with
  | nil => exact mirrors_pure within _
  | cons transaction rest ih =>
    obtain ⟨head, tail⟩ := List.forall_mem_cons.mp inside
    rw [List.map_cons, normalizeTransactions, normalizeTransactions,
      getArray_renameDict (by decide) (by decide), readObjects_map (objects?_rename _), readObjects]
    rcases read : objects? (getArray transaction "responses") with _ | responses
    · rfl
    · have projected := inScope_projectTransaction head read
      rw [Except.map, ok_bind, ok_bind, projectTransaction_rename, ← rename_sortKeys]
      refine mirrors_bind (normalizeSorted_mirrors injective _ (inScope_sortKeys projected) names
        within "") fun first names within => ?_
      refine mirrors_bind (ih (index + 1) tail within) fun others names within => ?_
      exact mirrors_pure within _

theorem normalizeDisplays_mirrors (injective : InjectiveOn scope ρ) {displays : List JsonValue}
    (inside : ∀ display ∈ displays, InScope scope display) {names : Names} (within : names.Within scope) :
    Mirrors scope ρ (normalizeItems names "" (displays.map JsonValue.sortKeys))
      (normalizeItems (names.renamed ρ) "" ((displays.map (rename ρ)).map JsonValue.sortKeys)) := by
  have sorted : (displays.map (rename ρ)).map JsonValue.sortKeys =
      (displays.map JsonValue.sortKeys).map (rename ρ) := by
    rw [List.map_map, List.map_map]
    exact List.map_congr_left fun display _ => (rename_sortKeys display).symm
  rw [sorted]
  refine normalizeItems_mirrors "" (fun item member names within field => ?_) within
  obtain ⟨display, listed, rfl⟩ := List.mem_map.mp member
  exact normalizeSorted_mirrors injective _ (inScope_sortKeys (inside display listed)) names within field

end normalize

section model
variable {ρ : Renaming} {scope : Text → Text → Prop} {c d : Int}

/-- What the parts of a model have in common with the model. -/
structure PartsOf (scope : Text → Text → Prop) (parts : ModelParts) : Prop where
  transactions : ∀ transaction ∈ parts.transactions, InScope scope (.dict transaction)
  proper : ∀ transaction ∈ parts.transactions, (JsonValue.dict transaction).Proper
  revisions : ∀ revision ∈ parts.sdpRevisions, InScope scope (.dict revision)
  packets : ∀ packet ∈ parts.mediaPackets, InScope scope (.dict packet)

theorem projectDialog_transform (dialog : JsonDict) :
    projectDialog (dialog.map fun entry =>
      (entry.1, if entry.1 ∈ dialogFields then entry.2 else rename ρ entry.2)) = projectDialog dialog := by
  have field : ∀ key ∈ dialogFields, JsonDict.find (dialog.map fun entry =>
      (entry.1, if entry.1 ∈ dialogFields then entry.2 else rename ρ entry.2)) key = dialog.find key := by
    intro key member
    rw [JsonDict.find_map (fun key value => if key ∈ dialogFields then value else rename ρ value) key
      (if_pos member), if_pos member]
  rw [projectDialog, projectDialog, field "state" (by decide), field "teardownInitiator" (by decide)]

theorem normalizeParts_transform (injective : InjectiveOn scope ρ) {parts : ModelParts}
    (from_ : PartsOf scope parts) :
    normalizeParts (transformParts ρ c d parts) = normalizeParts parts := by
  have none : Names.Within scope fun _ => [] := fun _ _ member => absurd member (List.not_mem_nil)
  rw [normalizeParts, normalizeParts, transformParts, normalizeTiming_transform c from_.proper,
    packetOffsets_transform, projectDialog_transform]
  rcases timed : normalizeTiming parts.transactions with raised | transactions
  · rfl
  have shifted : ∀ transaction ∈ transactions, InScope scope (.dict transaction) := by
    rw [normalizeTiming] at timed
    obtain ⟨starts, -, done⟩ := bind_ok.mp timed
    obtain rfl := Except.ok.inj done
    intro transaction member
    obtain ⟨old, listed, rfl⟩ := List.mem_map.mp member
    exact inScope_shiftTransaction _ (from_.transactions old listed)
  rw [Except.map, ok_bind, ok_bind]
  refine mirrors_run (normalizeTransactions_mirrors injective 0 shifted none) fun first names within => ?_
  have revisions : (parts.sdpRevisions.map (renameDict ρ)).map (fun revision => (projectRevision revision).sortKeys) =
      ((parts.sdpRevisions.map projectRevision).map (rename ρ)).map JsonValue.sortKeys := by
    simp only [List.map_map]
    exact List.map_congr_left fun revision _ => congrArg JsonValue.sortKeys (projectRevision_rename revision)
  have displayed : parts.sdpRevisions.map (fun revision => (projectRevision revision).sortKeys) =
      (parts.sdpRevisions.map projectRevision).map JsonValue.sortKeys := by
    rw [List.map_map]
    rfl
  rw [revisions, displayed]
  refine mirrors_run (normalizeDisplays_mirrors injective (fun display member => ?_) within)
    fun second names within => ?_
  · obtain ⟨revision, listed, rfl⟩ := List.mem_map.mp member
    exact inScope_projectRevision (from_.revisions revision listed)
  rcases read : packetOffsets parts.mediaPackets with raised | offsets
  · rfl
  have packets : (parts.mediaPackets.map fun packet => shiftPacket d (renameDict ρ packet)).map
      (fun packet => (projectPacket (originOf (offsets.map (· + d))) packet).sortKeys) =
      ((parts.mediaPackets.map (projectPacket (originOf offsets))).map (rename ρ)).map
        JsonValue.sortKeys := by
    have moved := projectPackets_transform (ρ := ρ) d read
    rw [List.map_map] at moved ⊢
    rw [List.map_map, List.map_map]
    refine List.map_congr_left fun packet member => congrArg JsonValue.sortKeys ?_
    exact List.map_inj_left.mp moved packet member
  have counted : parts.mediaPackets.map
      (fun packet => (projectPacket (originOf offsets) packet).sortKeys) =
      (parts.mediaPackets.map (projectPacket (originOf offsets))).map JsonValue.sortKeys := by
    rw [List.map_map]
    rfl
  simp only [Except.map, ok_bind]
  rw [packets, counted]
  refine mirrors_run (normalizeDisplays_mirrors injective (fun display member => ?_) within)
    fun third names within => rfl
  obtain ⟨packet, listed, rfl⟩ := List.mem_map.mp member
  exact inScope_projectPacket _ (from_.packets packet listed)

/-- Names of placeholders anywhere in a model. -/
def modelNames (model : JsonDict) (kind raw : Text) : Prop :=
  (kind, raw) ∈ placeholders (.dict model)

theorem readObjects_ok {value : JsonValue} {message : String} {items : List JsonDict}
    (read : readObjects value message = .ok items) : value = .list (items.map JsonValue.dict) := by
  rw [readObjects] at read
  split at read
  · rename_i found
    rw [← Except.ok.inj read]
    exact objects?_some found
  · cases read

/-- Where the parts of a model stand in it. -/
structure ReadFrom (model : JsonDict) (parts : ModelParts) : Prop where
  dialog : model.get? "dialog" = some (.dict parts.dialog)
  transactions : model.get? "transactions" = some (.list (parts.transactions.map JsonValue.dict))
  revisions : model.get? "sdpRevisions" = some (.list (parts.sdpRevisions.map JsonValue.dict))
  packets : getArray model "mediaPackets" = .list (parts.mediaPackets.map JsonValue.dict)

theorem readModel_ok {model : JsonDict} {parts : ModelParts} (read : readModel model = .ok parts) :
    ReadFrom model parts := by
  rw [readModel] at read
  obtain ⟨value, dialogRead, read⟩ := bind_ok.mp read
  cases value with
  | dict dialog =>
    simp only [pure_bind] at read
    obtain ⟨first, transactionsRead, read⟩ := bind_ok.mp read
    obtain ⟨second, revisionsRead, read⟩ := bind_ok.mp read
    obtain ⟨transactions, firstObjects, read⟩ := bind_ok.mp read
    obtain ⟨revisions, secondObjects, read⟩ := bind_ok.mp read
    obtain ⟨packets, thirdObjects, done⟩ := bind_ok.mp read
    obtain rfl := Except.ok.inj done
    exact {
      dialog := JsonDict.item_ok.mp dialogRead
      transactions := (JsonDict.item_ok.mp transactionsRead).trans
        (congrArg Option.some (readObjects_ok firstObjects))
      revisions := (JsonDict.item_ok.mp revisionsRead).trans
        (congrArg Option.some (readObjects_ok secondObjects))
      packets := readObjects_ok thirdObjects }
  | _ => cases read

theorem readModel_parts {model : JsonDict} {parts : ModelParts} (proper : (JsonValue.dict model).Proper)
    (read : ReadFrom model parts) : PartsOf (modelNames model) parts := by
  have inside : InScope (modelNames model) (.dict model) := fun _ member => member
  have objects : ∀ {key : Text} {items : List JsonDict}, key ≠ "type" → key ≠ "name" →
      getArray model key = .list (items.map JsonValue.dict) →
      ∀ item ∈ items, InScope (modelNames model) (.dict item) := by
    intro key items notType notName is item member
    have held := inScope_getArray inside notType notName
    rw [is, inScope_list] at held
    exact held _ (List.mem_map_of_mem member)
  have array : ∀ {key : Text} {value : JsonValue}, model.get? key = some value →
      getArray model key = value := by
    intro key value held
    rw [getArray, held]
    rfl
  refine ⟨objects (by decide) (by decide) (array read.transactions), fun transaction member => ?_,
    objects (by decide) (by decide) (array read.revisions), objects (by decide) (by decide) read.packets⟩
  have held := (JsonValue.proper_dict.1 proper).2 _ (JsonDict.mem_of_get? read.transactions)
  exact JsonValue.proper_list.mp held _ (List.mem_map_of_mem member)

/-- A renaming that merges no names, and a shift of both clocks, do not change a semantic model. -/
theorem semanticModel_transform {model : JsonDict} (proper : (JsonValue.dict model).Proper)
    (injective : InjectiveOn (modelNames model) ρ) :
    semanticModel (transformModel ρ c d model) = semanticModel model := by
  rw [semanticModel, semanticModel, readModel_transform]
  rcases read : readModel model with raised | parts
  · rfl
  · exact normalizeParts_transform injective (readModel_parts proper (readModel_ok read))

end model

end Sippycup.Learn
