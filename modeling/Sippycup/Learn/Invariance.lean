import Sippycup.Learn.Renaming
import Sippycup.Python.JsonText

/-! The semantic model is unchanged by a renaming of placeholders and by a shift
of either clock. -/
namespace Sippycup.Learn
open Sippycup.Python

section sorting
variable {ρ : Renaming} {scope : Text → Text → Prop}

theorem sortItems_eq (items : List JsonValue) :
    JsonValue.sortItems items = items.map JsonValue.sortKeys := by
  induction items with
  | nil => rfl
  | cons item rest ih => rw [JsonValue.sortItems, ih, List.map_cons]

theorem sortKeys_list (items : List JsonValue) :
    (JsonValue.list items).sortKeys = .list (items.map JsonValue.sortKeys) := by
  rw [JsonValue.sortKeys, sortItems_eq]

theorem sortKeys_dict (entries : JsonDict) :
    (JsonValue.dict entries).sortKeys =
      .dict (JsonValue.sortEntries (entries.map fun entry => (entry.1, entry.2.sortKeys))) := by
  rw [JsonValue.sortKeys, JsonValue.sortEach_eq]

/-- Sorting by keys commutes with changing values under their keys. -/
theorem sortEntries_map (f : Text → JsonValue → JsonValue) (entries : JsonDict) :
    JsonValue.sortEntries (entries.map fun entry => (entry.1, f entry.1 entry.2)) =
      (JsonValue.sortEntries entries).map fun entry => (entry.1, f entry.1 entry.2) := by
  rw [JsonValue.sortEntries, JsonValue.sortEntries]
  exact (List.map_insertionSort (fun a b : Text × JsonValue => a.1.le b.1 = true)
    (fun a b : Text × JsonValue => a.1.le b.1 = true) (fun entry => (entry.1, f entry.1 entry.2))
    entries fun _ _ _ _ => Iff.rfl).symm

theorem placeholderKind_sorted (entries : JsonDict) :
    placeholderKind? (JsonValue.sortEntries (entries.map fun entry => (entry.1, entry.2.sortKeys))) =
      placeholderKind? entries := by
  have lookup : ∀ key, (JsonValue.sortEntries (entries.map fun entry => (entry.1, entry.2.sortKeys))).get? key =
      (entries.get? key).map JsonValue.sortKeys := fun key => by
    rw [JsonDict.get?_sortEntries]
    exact JsonDict.get?_map (fun _ => JsonValue.sortKeys) key
  have keys : (JsonDict.keys (JsonValue.sortEntries
      (entries.map fun entry => (entry.1, entry.2.sortKeys)))).Perm entries.keys := by
    refine ((List.perm_insertionSort _ _).map Prod.fst).trans (.of_eq ?_)
    simp [JsonDict.keys, Function.comp_def]
  have shape : placeholderShape (JsonValue.sortEntries
      (entries.map fun entry => (entry.1, entry.2.sortKeys))) = placeholderShape entries := by
    rw [placeholderShape, placeholderShape, JsonDict.contains, JsonDict.contains, JsonDict.contains,
      JsonDict.contains, lookup, lookup, Option.isSome_map, Option.isSome_map]
    congr 1
    rw [Bool.eq_iff_iff, List.all_eq_true, List.all_eq_true]
    exact forall_congr' fun key => by rw [keys.mem_iff]
  refine Option.ext fun kind => ?_
  rw [placeholderKind_some, placeholderKind_some, shape, JsonDict.find, lookup, JsonDict.find]
  refine and_congr_right fun _ => and_congr_left fun _ => ?_
  cases entries.get? "type" with
  | none => rfl
  | some value => cases value <;> simp [JsonValue.sortKeys]

theorem renameName_sortKeys (f : Text → Text) (key : Text) (value : JsonValue) :
    renameName f key value.sortKeys = (renameName f key value).sortKeys := by
  cases value with
  | str raw =>
    simp only [JsonValue.sortKeys, renameName]
    split <;> rfl
  | _ => simp [JsonValue.sortKeys, renameName]

theorem rename_sortKeys (value : JsonValue) : rename ρ value.sortKeys = (rename ρ value).sortKeys := by
  induction value using JsonValue.parts_induction with
  | scalar value noList noDict =>
    cases value with
    | list items => exact absurd rfl (noList items)
    | dict entries => exact absurd rfl (noDict entries)
    | _ => rfl
  | list items ih =>
    rw [sortKeys_list, rename_list, rename_list, sortKeys_list, List.map_map, List.map_map]
    exact congrArg JsonValue.list (List.map_congr_left ih)
  | dict entries ih =>
    rw [sortKeys_dict, rename_dict, rename_dict, sortKeys_dict, renameDict, placeholderKind_sorted,
      renameDict]
    congr 1
    split
    · rename_i kind is
      rw [← sortEntries_map (fun key => renameName (ρ kind) key), List.map_map, List.map_map]
      refine congrArg JsonValue.sortEntries (List.map_congr_left fun entry _ => ?_)
      exact congrArg (Prod.mk entry.1) (renameName_sortKeys _ _ _)
    · rw [← sortEntries_map (fun _ => rename ρ), List.map_map, List.map_map]
      refine congrArg JsonValue.sortEntries (List.map_congr_left fun entry member => ?_)
      exact congrArg (Prod.mk entry.1) (ih entry member)

theorem inScope_sortKeys {value : JsonValue} (inside : InScope scope value) :
    InScope scope value.sortKeys := by
  induction value using JsonValue.parts_induction with
  | scalar value noList noDict =>
    cases value with
    | list items => exact absurd rfl (noList items)
    | dict entries => exact absurd rfl (noDict entries)
    | _ => exact inside
  | list items ih =>
    have each := inScope_list.1 inside
    rw [sortKeys_list, inScope_list]
    intro sorted member
    obtain ⟨item, listed, rfl⟩ := List.mem_map.mp member
    exact ih item listed (each item listed)
  | dict entries ih =>
    rw [sortKeys_dict]
    rcases kinded : placeholderKind? entries with _ | kind
    · have each := (inScope_plain kinded).mp inside
      rw [inScope_plain ((placeholderKind_sorted entries).trans kinded)]
      intro sorted member
      obtain ⟨entry, listed, rfl⟩ := List.mem_map.mp ((List.perm_insertionSort _ _).mem_iff.mp member)
      exact ih entry listed (each entry listed)
    · intro entry member
      have sorted := (placeholderKind_sorted entries).trans kinded
      simp only [placeholders, sorted, JsonDict.find, JsonDict.get?_sortEntries,
        JsonDict.get?_map (fun _ => JsonValue.sortKeys)] at member
      refine inside entry ?_
      simp only [placeholders, kinded, JsonDict.find]
      cases held : entries.get? "name" with
      | none => simpa [held] using member
      | some value =>
        rw [held] at member
        cases value with
        | str raw => simpa [JsonValue.sortKeys, JsonValue.text?] using member
        | _ => simp [JsonValue.sortKeys, JsonValue.text?] at member

end sorting

section projections
variable {ρ : Renaming} {scope : Text → Text → Prop}

theorem objects?_rename (value : JsonValue) :
    objects? (rename ρ value) = (objects? value).map fun items => items.map (renameDict ρ) := by
  cases value with
  | list items =>
    rw [rename_list, objects?, objects?]
    induction items with
    | nil => rfl
    | cons item rest ih =>
      rw [List.map_cons, List.mapM_cons, List.mapM_cons, ih]
      cases item with
      | dict entries =>
        rw [rename_dict]
        generalize (List.mapM _ rest : Option (List JsonDict)) = read
        cases read <;> rfl
      | _ => rfl
  | dict entries => rfl
  | _ => rfl

theorem getArray_renameDict {d : JsonDict} {key : Text} (notType : key ≠ "type") (notName : key ≠ "name") :
    getArray (renameDict ρ d) key = rename ρ (getArray d key) := by
  rw [getArray, get?_renameDict notType notName, getArray]
  cases d.get? key with
  | none => rfl
  | some value => rfl

theorem rename_display {entries : JsonDict} (absent : entries.contains "type" = false) :
    rename ρ (.dict entries) = .dict (entries.map fun entry => (entry.1, rename ρ entry.2)) := by
  rw [rename_dict, renameDict, plain_of_absent absent]

theorem projectResponse_rename (response : JsonDict) :
    projectResponse (renameDict ρ response) = rename ρ (projectResponse response) := by
  rw [projectResponse, projectResponse, rename_display (by simp [JsonDict.contains])]
  simp [find_renameDict, JsonDict.entry]

theorem projectTransaction_rename (transaction : JsonDict) (responses : List JsonDict) :
    projectTransaction (renameDict ρ transaction) (responses.map (renameDict ρ)) =
      rename ρ (projectTransaction transaction responses) := by
  rw [projectTransaction, projectTransaction, rename_display (by simp [JsonDict.contains])]
  simp [find_renameDict, JsonDict.entry, projectResponse_rename, Function.comp_def]

theorem projectRevision_rename (revision : JsonDict) :
    projectRevision (renameDict ρ revision) = rename ρ (projectRevision revision) := by
  rw [projectRevision, projectRevision, rename_display (by simp [JsonDict.contains])]
  simp [find_renameDict, JsonDict.entry]

theorem shiftInt_rename (by_ : Int) (value : JsonValue) :
    shiftInt by_ (rename ρ value) = rename ρ (shiftInt by_ value) := by
  cases value with
  | list items => simp [shiftInt]
  | dict entries => simp [shiftInt]
  | _ => rfl

theorem projectPacket_rename (origin : Int) (packet : JsonDict) :
    projectPacket origin (renameDict ρ packet) = rename ρ (projectPacket origin packet) := by
  rw [projectPacket, projectPacket, rename_display (by simp [JsonDict.contains])]
  simp [find_renameDict, JsonDict.entry, shiftInt_rename]

end projections

section clocks
variable {ρ : Renaming} {scope : Text → Text → Prop} {f : Text → JsonValue → JsonValue}
  {entries : JsonDict}

/-- Kind and placeholders depend on two keys; a change under other keys keeps them. -/
theorem placeholderKind_map (typed : ∀ value, f "type" value = value) :
    placeholderKind? (entries.map fun entry => (entry.1, f entry.1 entry.2)) =
      placeholderKind? entries := by
  have keys : JsonDict.keys (entries.map fun entry => (entry.1, f entry.1 entry.2)) = entries.keys := by
    simp [JsonDict.keys, Function.comp_def]
  have shape : placeholderShape (entries.map fun entry => (entry.1, f entry.1 entry.2)) =
      placeholderShape entries := by
    have contains : ∀ key, JsonDict.contains
        (entries.map fun entry => (entry.1, f entry.1 entry.2)) key = entries.contains key := by
      intro key
      rw [Bool.eq_iff_iff, JsonDict.contains_iff, JsonDict.contains_iff, keys]
    rw [placeholderShape, placeholderShape, contains, contains, keys]
  refine Option.ext fun kind => ?_
  rw [placeholderKind_some, placeholderKind_some, shape, JsonDict.find_map f "type" (typed .null), typed]

theorem keys_of_kind {kind : Text} (is : placeholderKind? entries = some kind) {entry : Text × JsonValue}
    (member : entry ∈ entries) : entry.1 = "type" ∨ entry.1 = "name" := by
  obtain ⟨shape, -, -⟩ := placeholderKind_some.1 is
  simp only [placeholderShape, Bool.and_eq_true, List.all_eq_true, Bool.or_eq_true,
    decide_eq_true_eq] at shape
  exact shape.2 entry.1 (List.mem_map_of_mem member)

theorem renameDict_map (typed : ∀ value, f "type" value = value)
    (named : ∀ value, f "name" value = value)
    (commutes : ∀ key value, rename ρ (f key value) = f key (rename ρ value)) :
    renameDict ρ (entries.map fun entry => (entry.1, f entry.1 entry.2)) =
      (renameDict ρ entries).map fun entry => (entry.1, f entry.1 entry.2) := by
  rw [renameDict, placeholderKind_map typed, renameDict]
  split
  · rename_i kind is
    rw [List.map_map, List.map_map]
    refine List.map_congr_left fun entry member => ?_
    simp only [Function.comp_apply]
    rcases keys_of_kind is member with key | key <;> simp only [key, typed, named]
  · rw [List.map_map, List.map_map]
    exact List.map_congr_left fun entry _ => congrArg (Prod.mk entry.1) (commutes entry.1 entry.2)

theorem inScope_map (typed : ∀ value, f "type" value = value) (named : ∀ value, f "name" value = value)
    (each : ∀ key value, InScope scope value → InScope scope (f key value))
    (inside : InScope scope (.dict entries)) :
    InScope scope (.dict (entries.map fun entry => (entry.1, f entry.1 entry.2))) := by
  rcases kinded : placeholderKind? entries with _ | kind
  · have old := (inScope_plain kinded).mp inside
    rw [inScope_plain ((placeholderKind_map typed).trans kinded)]
    intro changed member
    obtain ⟨entry, listed, rfl⟩ := List.mem_map.mp member
    exact each entry.1 entry.2 (old entry listed)
  · intro entry member
    refine inside entry ?_
    simp only [placeholders, placeholderKind_map typed, kinded, JsonDict.find_map f "name" (named .null),
      named] at member
    simpa only [placeholders, kinded] using member

theorem shiftInt_add (a b : Int) (value : JsonValue) :
    shiftInt a (shiftInt b value) = shiftInt (b + a) value := by
  cases value with
  | int n => rw [shiftInt, shiftInt, shiftInt, Int.add_assoc]
  | _ => rfl

theorem inScope_shiftInt (by_ : Int) {value : JsonValue} (inside : InScope scope value) :
    InScope scope (shiftInt by_ value) := by
  cases value with
  | int n => exact fun entry member => absurd member (List.not_mem_nil)
  | _ => exact inside

/-- `shiftInt` under some keys. -/
def shiftField (by_ : Int) (key : Text) (value : JsonValue) : JsonValue :=
  if key ∈ timingFields then shiftInt by_ value else value

theorem shiftField_rename (by_ : Int) (key : Text) (value : JsonValue) :
    rename ρ (shiftField by_ key value) = shiftField by_ key (rename ρ value) := by
  rw [shiftField, shiftField]
  split
  · exact (shiftInt_rename by_ value).symm
  · rfl

theorem shiftWindow_dict (by_ : Int) (window : JsonDict) :
    shiftWindow by_ (.dict window) =
      .dict (window.map fun entry => (entry.1, shiftField by_ entry.1 entry.2)) := rfl

theorem rename_shiftWindow (by_ : Int) (value : JsonValue) :
    rename ρ (shiftWindow by_ value) = shiftWindow by_ (rename ρ value) := by
  cases value with
  | dict window =>
    rw [shiftWindow_dict, rename_dict, rename_dict, shiftWindow_dict]
    exact congrArg JsonValue.dict (renameDict_map (fun _ => rfl) (fun _ => rfl) (shiftField_rename by_))
  | list items => rw [shiftWindow, rename_list, shiftWindow] <;> simp
  | _ => rfl

theorem shiftWindow_add (a b : Int) (value : JsonValue) :
    shiftWindow a (shiftWindow b value) = shiftWindow (b + a) value := by
  cases value with
  | dict window =>
    rw [shiftWindow_dict, shiftWindow_dict, shiftWindow_dict, List.map_map]
    refine congrArg JsonValue.dict (List.map_congr_left fun entry _ => congrArg (Prod.mk entry.1) ?_)
    simp only [shiftField]
    split
    · exact shiftInt_add a b entry.2
    · rfl
  | _ => rfl

theorem inScope_shiftWindow (by_ : Int) {value : JsonValue} (inside : InScope scope value) :
    InScope scope (shiftWindow by_ value) := by
  cases value with
  | dict window =>
    rw [shiftWindow_dict]
    refine inScope_map (fun _ => rfl) (fun _ => rfl) (fun key value inner => ?_) inside
    rw [shiftField]
    split
    · exact inScope_shiftInt by_ inner
    · exact inner
  | _ => exact inside

/-- `shiftWindow` under the one key that a transaction has its window under. -/
def shiftOwnWindow (by_ : Int) (key : Text) (value : JsonValue) : JsonValue :=
  if key = "timingWindowMs" then shiftWindow by_ value else value

theorem shiftTransaction_eq (by_ : Int) (transaction : JsonDict) :
    shiftTransaction by_ transaction =
      transaction.map fun entry => (entry.1, shiftOwnWindow by_ entry.1 entry.2) := rfl

theorem renameDict_shiftTransaction (by_ : Int) (transaction : JsonDict) :
    renameDict ρ (shiftTransaction by_ transaction) =
      shiftTransaction by_ (renameDict ρ transaction) := by
  refine renameDict_map (f := shiftOwnWindow by_) (fun _ => rfl) (fun _ => rfl) fun key value => ?_
  rw [shiftOwnWindow, shiftOwnWindow]
  split
  · exact rename_shiftWindow by_ value
  · rfl

theorem shiftTransaction_add (a b : Int) (transaction : JsonDict) :
    shiftTransaction a (shiftTransaction b transaction) = shiftTransaction (b + a) transaction := by
  rw [shiftTransaction_eq, shiftTransaction_eq, shiftTransaction_eq, List.map_map]
  refine List.map_congr_left fun entry _ => congrArg (Prod.mk entry.1) ?_
  simp only [shiftOwnWindow]
  split
  · exact shiftWindow_add a b entry.2
  · rfl

theorem find_shiftTransaction (by_ : Int) (transaction : JsonDict) :
    (shiftTransaction by_ transaction).find "timingWindowMs" =
      shiftWindow by_ (transaction.find "timingWindowMs") := by
  rw [shiftTransaction_eq, JsonDict.find_map (shiftOwnWindow by_) "timingWindowMs" rfl]
  rfl

theorem find_shiftTransaction_of_ne (by_ : Int) (transaction : JsonDict) {key : Text}
    (other : key ≠ "timingWindowMs") :
    (shiftTransaction by_ transaction).find key = transaction.find key := by
  rw [shiftTransaction_eq, JsonDict.find_map (shiftOwnWindow by_) key (by rw [shiftOwnWindow, if_neg other]),
    shiftOwnWindow, if_neg other]

theorem getArray_shiftTransaction (by_ : Int) (transaction : JsonDict) :
    getArray (shiftTransaction by_ transaction) "responses" = getArray transaction "responses" := by
  rw [getArray, shiftTransaction_eq, JsonDict.get?_map (shiftOwnWindow by_), getArray]
  cases transaction.get? "responses" <;> rfl

end clocks

section timing
variable {ρ : Renaming}

theorem integer_transform (by_ : Int) (value : JsonValue) (field : String) :
    integer? (shiftInt by_ (rename ρ value)) field = (integer? value field).map (List.map (· + by_)) := by
  cases value with
  | list items => rw [rename_list]; rfl
  | dict entries => rw [rename_dict]; rfl
  | _ => rfl

theorem windowStarts_transform (by_ : Int) (index : Nat) (transaction : JsonDict) :
    windowStarts index (shiftTransaction by_ (renameDict ρ transaction)) =
      (windowStarts index transaction).map (List.map (· + by_)) := by
  rw [windowStarts, windowStarts, find_shiftTransaction, find_renameDict (by decide) (by decide)]
  cases transaction.find "timingWindowMs" with
  | dict window =>
    have bound : ∀ field : Text, field ∈ timingFields → field ≠ "type" → field ≠ "name" →
        JsonDict.find ((renameDict ρ window).map fun entry => (entry.1, shiftField by_ entry.1 entry.2)) field =
          shiftInt by_ (rename ρ (JsonDict.find window field)) := by
      intro field timing notType notName
      rw [JsonDict.find_map (shiftField by_) field (by rw [shiftField, if_pos timing]; rfl), shiftField,
        if_pos timing, find_renameDict notType notName]
    rw [rename_dict, shiftWindow_dict]
    simp only [bound "earliest" (by decide) (by decide) (by decide),
      bound "latest" (by decide) (by decide) (by decide), integer_transform]
    rcases integer? (JsonDict.find window "earliest") _ with raised | earliest
    · rfl
    · rcases integer? (JsonDict.find window "latest") _ with raised | latest
      · rfl
      · exact congrArg Except.ok (List.map_append).symm
  | list items => rw [rename_list]; rfl
  | _ => rfl

theorem timingStarts_transform (by_ : Int) (index : Nat) (transactions : List JsonDict) :
    timingStarts index (transactions.map fun transaction => shiftTransaction by_ (renameDict ρ transaction)) =
      (timingStarts index transactions).map (List.map (· + by_)) := by
  induction transactions generalizing index with
  | nil => rfl
  | cons transaction rest ih =>
    rw [List.map_cons, timingStarts, timingStarts, windowStarts_transform, ih]
    rcases windowStarts index transaction with raised | starts
    · rfl
    · rcases timingStarts (index + 1) rest with raised | others
      · rfl
      · exact congrArg Except.ok (List.map_append).symm

/-- The origin moves with the values, unless there are none. -/
theorem originOf_map_add (by_ : Int) {values : List Int} (some : values ≠ []) :
    originOf (values.map (· + by_)) = originOf values + by_ := by
  obtain ⟨least, is⟩ := Option.ne_none_iff_exists'.mp (List.min?_eq_none_iff.not.mpr some)
  have moved : (values.map (· + by_)).min? = Option.some (least + by_) := by
    rw [List.min?_eq_some_iff] at is ⊢
    refine ⟨List.mem_map_of_mem is.1, fun value member => ?_⟩
    obtain ⟨old, listed, rfl⟩ := List.mem_map.mp member
    exact Int.add_le_add_right (is.2 old listed) by_
  rw [originOf, originOf, is, moved]
  rfl

theorem integer_nil {value : JsonValue} {field : String} (none : integer? value field = .ok []) :
    value = .null := by
  cases value with
  | null => rfl
  | int n => cases none
  | _ => cases none

/-- Without bounds there is nothing to shift. -/
theorem shiftTransaction_of_nil (by_ : Int) {index : Nat} {transaction : JsonDict}
    (proper : (JsonValue.dict transaction).Proper) (none : windowStarts index transaction = .ok []) :
    shiftTransaction by_ transaction = transaction := by
  rw [JsonValue.proper_dict] at proper
  rw [shiftTransaction_eq]
  refine (List.map_congr_left fun entry member => ?_).trans (List.map_id _)
  refine congrArg (Prod.mk entry.1) ?_
  rw [shiftOwnWindow]
  split
  · rename_i own
    have held : transaction.find "timingWindowMs" = entry.2 := by
      rw [JsonDict.find, ← own, JsonDict.get?_of_mem proper.1 member]
      rfl
    rw [windowStarts, held] at none
    cases is : entry.2 with
    | dict window =>
      rw [is] at none
      have unique : JsonDict.keys window |>.Nodup := by
        have inner := proper.2 entry member
        rw [is, JsonValue.proper_dict] at inner
        exact inner.1
      obtain ⟨earliest, first, others⟩ := bind_ok.mp none
      obtain ⟨latest, second, done⟩ := bind_ok.mp others
      obtain ⟨rfl, rfl⟩ := List.append_eq_nil_iff.mp (Except.ok.inj done)
      rw [shiftWindow_dict]
      refine congrArg JsonValue.dict ((List.map_congr_left fun bound inside => ?_).trans (List.map_id _))
      refine congrArg (Prod.mk bound.1) ?_
      have looked : JsonDict.find window bound.1 = bound.2 := by
        rw [JsonDict.find, JsonDict.get?_of_mem unique inside]
        rfl
      rw [shiftField]
      split
      · rename_i timing
        have null : bound.2 = .null := by
          simp only [timingFields, List.mem_cons, List.not_mem_nil, or_false] at timing
          rcases timing with key | key
          · rw [← looked, key]
            exact integer_nil first
          · rw [← looked, key]
            exact integer_nil second
        rw [null]
        rfl
      · rfl
    | _ => rfl
  · rfl

theorem timingStarts_nil {index : Nat} {transactions : List JsonDict}
    (none : timingStarts index transactions = .ok []) :
    ∀ transaction ∈ transactions, ∃ index, windowStarts index transaction = .ok [] := by
  induction transactions generalizing index with
  | nil => exact fun _ member => absurd member (List.not_mem_nil)
  | cons transaction rest ih =>
    rw [timingStarts] at none
    obtain ⟨starts, first, next⟩ := bind_ok.mp none
    obtain ⟨others, second, done⟩ := bind_ok.mp next
    obtain ⟨rfl, rfl⟩ := List.append_eq_nil_iff.mp (Except.ok.inj done)
    exact List.forall_mem_cons.mpr ⟨⟨index, first⟩, ih second⟩

/-- Windows counted from their origin do not see a shift of all of them. -/
theorem normalizeTiming_transform (by_ : Int) {transactions : List JsonDict}
    (proper : ∀ transaction ∈ transactions, (JsonValue.dict transaction).Proper) :
    normalizeTiming (transactions.map fun transaction => shiftTransaction by_ (renameDict ρ transaction)) =
      (normalizeTiming transactions).map (List.map (renameDict ρ)) := by
  rw [normalizeTiming, normalizeTiming, timingStarts_transform]
  rcases held : timingStarts 0 transactions with raised | starts
  · rfl
  · refine congrArg Except.ok ?_
    rw [List.map_map, List.map_map]
    refine List.map_congr_left fun transaction member => ?_
    simp only [Function.comp_apply]
    rw [shiftTransaction_add, renameDict_shiftTransaction]
    by_cases some : starts = []
    · subst some
      obtain ⟨index, none⟩ := timingStarts_nil held transaction member
      have fixed := fun by_ => shiftTransaction_of_nil by_ (proper transaction member) none
      rw [← renameDict_shiftTransaction, ← renameDict_shiftTransaction, fixed, fixed]
    · rw [originOf_map_add by_ some]
      congr 1
      omega

end timing

section packets
variable {ρ : Renaming}

/-- `shiftInt` under the one key that a packet has its offset under. -/
def shiftOffset (by_ : Int) (key : Text) (value : JsonValue) : JsonValue :=
  if key = "offsetMs" then shiftInt by_ value else value

def shiftPacket (by_ : Int) (packet : JsonDict) : JsonDict :=
  packet.map fun entry => (entry.1, shiftOffset by_ entry.1 entry.2)

theorem find_shiftPacket (by_ : Int) (packet : JsonDict) :
    (shiftPacket by_ packet).find "offsetMs" = shiftInt by_ (packet.find "offsetMs") := by
  rw [shiftPacket, JsonDict.find_map (shiftOffset by_) "offsetMs" rfl]
  rfl

theorem find_shiftPacket_of_ne (by_ : Int) (packet : JsonDict) {key : Text} (other : key ≠ "offsetMs") :
    (shiftPacket by_ packet).find key = packet.find key := by
  rw [shiftPacket, JsonDict.find_map (shiftOffset by_) key (by rw [shiftOffset, if_neg other]),
    shiftOffset, if_neg other]

theorem packetOffsets_transform (by_ : Int) (packets : List JsonDict) :
    packetOffsets (packets.map fun packet => shiftPacket by_ (renameDict ρ packet)) =
      (packetOffsets packets).map (List.map (· + by_)) := by
  induction packets with
  | nil => rfl
  | cons packet rest ih =>
    rw [List.map_cons, packetOffsets, packetOffsets, find_shiftPacket,
      find_renameDict (by decide) (by decide), integer_transform, ih]
    rcases integer? (packet.find "offsetMs") _ with raised | offset
    · rfl
    · rcases packetOffsets rest with raised | others
      · rfl
      · exact congrArg Except.ok (List.map_append).symm

theorem packetOffsets_nil {packets : List JsonDict} (none : packetOffsets packets = .ok []) :
    ∀ packet ∈ packets, packet.find "offsetMs" = .null := by
  induction packets with
  | nil => exact fun _ member => absurd member (List.not_mem_nil)
  | cons packet rest ih =>
    rw [packetOffsets] at none
    obtain ⟨offset, first, next⟩ := bind_ok.mp none
    obtain ⟨others, second, done⟩ := bind_ok.mp next
    obtain ⟨rfl, rfl⟩ := List.append_eq_nil_iff.mp (Except.ok.inj done)
    exact List.forall_mem_cons.mpr ⟨integer_nil first, ih second⟩

theorem projectPacket_shift (origin by_ : Int) (packet : JsonDict) :
    projectPacket (origin + by_) (shiftPacket by_ packet) = projectPacket origin packet := by
  rw [projectPacket, projectPacket, find_shiftPacket, shiftInt_add]
  have other : ∀ key : Text, key ≠ "offsetMs" → (shiftPacket by_ packet).find key = packet.find key :=
    fun _ => find_shiftPacket_of_ne by_ packet
  rw [other "ssrc" (by decide), other "sequence" (by decide), other "timestamp" (by decide),
    other "payloadType" (by decide)]
  rw [show by_ + -(origin + by_) = -origin by omega]

/-- Packets counted from their origin do not see a shift of all of them. -/
theorem projectPackets_transform (by_ : Int) {packets : List JsonDict} {offsets : List Int}
    (read : packetOffsets packets = .ok offsets) :
    (packets.map fun packet => shiftPacket by_ (renameDict ρ packet)).map
        (projectPacket (originOf (offsets.map (· + by_)))) =
      packets.map fun packet => rename ρ (projectPacket (originOf offsets) packet) := by
  rw [List.map_map]
  refine List.map_congr_left fun packet member => ?_
  simp only [Function.comp_apply]
  rw [← projectPacket_rename]
  by_cases some : offsets = []
  · subst some
    -- Without offsets no packet has one to shift.
    have null : (renameDict ρ packet).find "offsetMs" = .null := by
      rw [find_renameDict (by decide) (by decide), packetOffsets_nil read packet member]
      rfl
    have fixed : projectPacket 0 (shiftPacket by_ (renameDict ρ packet)) =
        projectPacket (0 + by_) (shiftPacket by_ (renameDict ρ packet)) := by
      rw [projectPacket, projectPacket, find_shiftPacket, null]
      rfl
    exact fixed.trans (projectPacket_shift 0 by_ _)
  · rw [originOf_map_add by_ some, projectPacket_shift]

end packets

end Sippycup.Learn
