import Sippycup.Python.JsonValue

/-! `==` on JSON documents: numbers by value across their types, dicts without
order. A float is compared by the binary value nearest to the text that shows it. -/
namespace Sippycup.Python

def Shortest.value (x : Shortest) : Rat :=
  let magnitude : Rat :=
    if 0 ≤ x.exponent then x.digits * 10 ^ x.exponent.toNat
    else x.digits / 10 ^ (-x.exponent).toNat
  if x.negative then -magnitude else magnitude

def PyFloat.double : PyFloat → Double
  | .finite x => roundDouble x.value
  | .infinite negative => .infinite negative
  | .nan => .nan

namespace JsonValue

/-- Numeric value; a `bool` is the integer 0 or 1. -/
def number? : JsonValue → Option Number
  | .bool b => some (.int (if b then 1 else 0))
  | .int n => some (.int n)
  | .float x => some (.float x.double)
  | _ => none

def scalarEq (a b : JsonValue) : Bool :=
  match a.number?, b.number? with
  | some m, some n => m.eq n
  | _, _ => false

mutual
@[grind =] def eq : JsonValue → JsonValue → Bool
  | .null, b => match b with | .null => true | _ => false
  | .bool a, b => scalarEq (.bool a) b
  | .int a, b => scalarEq (.int a) b
  | .float a, b => scalarEq (.float a) b
  | .str a, b => b.isText a
  | .list xs, b => match b with | .list ys => eqItems xs ys | _ => false
  | .dict xs, b => match b with
    | .dict ys => decide (xs.length = ys.length) && eqEntries xs ys
    | _ => false

@[grind =] def eqItems : List JsonValue → List JsonValue → Bool
  | [], ys => ys.isEmpty
  | x :: xs, ys => match ys with
    | [] => false
    | y :: ys => eq x y && eqItems xs ys

@[grind =] def eqEntries : List (Text × JsonValue) → JsonDict → Bool
  | [], _ => true
  | (key, value) :: rest, ys =>
    (match ys.get? key with
      | some other => eq value other
      | none => false) && eqEntries rest ys
end

end JsonValue

/-- `len(values) == len(set(values))`: a set hashes what it holds. -/
def distinct {ε : Type} (values : List JsonValue) : Except (Raised ε) Bool :=
  if values.all JsonValue.hashable then .ok (decide (values.Pairwise fun a b => a.eq b = false))
  else .error (.builtin .typeError)

/-- `set(value) == {names}` -/
def keysAre (value : JsonDict) (names : List String) : Bool :=
  (names.all fun name => value.contains name) &&
    value.keys.all fun key => names.any fun name => decide (Text.ofString name = key)

example : (JsonValue.dict [("a", .list [.null])]).eq (.dict [("a", .list [.null])]) = true := by
  simp [JsonValue.eq, JsonValue.eqItems, JsonValue.eqEntries]

namespace JsonValue

mutual
/-- Every dict has each key once, as a dict of the language does. -/
@[grind =] def Proper : JsonValue → Prop
  | .list items => ProperItems items
  | .dict entries => (JsonDict.keys entries).Nodup ∧ ProperEntries entries
  | _ => True

@[grind =] def ProperItems : List JsonValue → Prop
  | [] => True
  | item :: rest => Proper item ∧ ProperItems rest

@[grind =] def ProperEntries : List (Text × JsonValue) → Prop
  | [] => True
  | (_, value) :: rest => Proper value ∧ ProperEntries rest
end

theorem proper_list {items : List JsonValue} :
    Proper (.list items) ↔ ∀ item ∈ items, item.Proper := by
  rw [Proper]
  induction items with
  | nil => simp [ProperItems]
  | cons item rest ih => rw [ProperItems, ih, List.forall_mem_cons]

theorem properEntries_iff {entries : JsonDict} :
    ProperEntries entries ↔ ∀ entry ∈ entries, entry.2.Proper := by
  induction entries with
  | nil => simp [ProperEntries]
  | cons entry rest ih =>
    obtain ⟨key, value⟩ := entry
    rw [ProperEntries, ih, List.forall_mem_cons]

theorem proper_dict {entries : JsonDict} :
    Proper (.dict entries) ↔ entries.keys.Nodup ∧ ∀ entry ∈ entries, entry.2.Proper := by
  rw [Proper, properEntries_iff]

/-- Documents by their parts: what holds of the parts of each document holds of all. -/
theorem parts_induction {P : JsonValue → Prop} (scalar : ∀ v, (∀ items, v ≠ .list items) →
    (∀ entries, v ≠ .dict entries) → P v) (list : ∀ items, (∀ item ∈ items, P item) → P (.list items))
    (dict : ∀ entries : JsonDict, (∀ entry ∈ entries, P entry.2) → P (.dict entries)) :
    ∀ v, P v := by
  intro v
  cases v with
  | list items => exact list items fun item _ => parts_induction scalar list dict item
  | dict entries =>
    refine dict entries fun entry member => ?_
    have : sizeOf entry.2 < 1 + sizeOf entries := by
      have inside := List.sizeOf_lt_of_mem member
      obtain ⟨key, value⟩ := entry
      simp only [Prod.mk.sizeOf_spec] at inside ⊢
      omega
    exact parts_induction scalar list dict entry.2
  | _ => exact scalar _ (fun _ same => by cases same) (fun _ same => by cases same)

end JsonValue

namespace JsonDict
variable {d : JsonDict} {key : Text} {value : JsonValue}

theorem mem_of_get? (found : d.get? key = some value) : (key, value) ∈ d := by
  induction d with
  | nil => cases found
  | cons entry rest ih =>
    obtain ⟨name, other⟩ := entry
    rw [get?_cons] at found
    split at found
    · rename_i same
      cases found
      exact same ▸ List.mem_cons_self
    · exact List.mem_cons_of_mem _ (ih found)

theorem get?_eq_none : d.get? key = none ↔ key ∉ d.keys := by
  rw [← contains_iff, contains]
  cases d.get? key <;> simp

theorem get?_of_mem (unique : d.keys.Nodup) (member : (key, value) ∈ d) : d.get? key = some value := by
  induction d with
  | nil => cases member
  | cons entry rest ih =>
    obtain ⟨name, other⟩ := entry
    rw [keys, List.map_cons, List.nodup_cons] at unique
    rw [get?_cons]
    rcases List.mem_cons.mp member with same | later
    · cases same
      exact if_pos rfl
    · rw [if_neg]
      · exact ih unique.2 later
      · rintro rfl
        exact unique.1 (List.mem_map.mpr ⟨_, later, rfl⟩)

/-- Values changed under their keys. -/
theorem get?_map (f : Text → JsonValue → JsonValue) (key : Text) :
    get? (d.map fun entry => (entry.1, f entry.1 entry.2)) key = (d.get? key).map (f key) := by
  induction d with
  | nil => rfl
  | cons entry rest ih =>
    obtain ⟨name, other⟩ := entry
    rw [List.map_cons, get?_cons, get?_cons, ih]
    split
    · rename_i same
      rw [same]
      rfl
    · rfl

theorem find_map (f : Text → JsonValue → JsonValue) (key : Text) (null : f key .null = .null) :
    find (d.map fun entry => (entry.1, f entry.1 entry.2)) key = f key (d.find key) := by
  rw [find, get?_map, find]
  cases d.get? key with
  | none => exact null.symm
  | some value => rfl

theorem get?_orderedInsert (name : Text) (value : JsonValue) (key : Text) :
    get? (d.orderedInsert (fun a b => a.1.le b.1 = true) (name, value)) key =
      if name = key then some value else d.get? key := by
  induction d with
  | nil => rfl
  | cons entry rest ih =>
    obtain ⟨other, held⟩ := entry
    rw [List.orderedInsert_cons]
    split
    · rfl
    · rename_i later
      rw [get?_cons, ih, get?_cons]
      -- An item that goes before the new one has another key.
      have apart : other ≠ name := by
        rintro rfl
        exact later (decide_eq_true le_rfl)
      split
      · rename_i same
        rw [if_neg]
        rintro rfl
        exact apart same
      · rfl

/-- Sorting by keys is stable, so lookups stay as they are. -/
@[simp] theorem get?_sortEntries (key : Text) : (JsonValue.sortEntries d).get? key = d.get? key := by
  induction d with
  | nil => rfl
  | cons entry rest ih =>
    obtain ⟨name, value⟩ := entry
    rw [JsonValue.sortEntries, List.insertionSort_cons, get?_orderedInsert, get?_cons]
    split
    · rfl
    · exact ih

end JsonDict

namespace JsonValue

theorem proper_find {d : JsonDict} (proper : Proper (.dict d)) (key : Text) : Proper (d.find key) := by
  rw [JsonDict.find]
  cases held : d.get? key with
  | none => exact trivial
  | some value => exact (proper_dict.1 proper).2 _ (JsonDict.mem_of_get? held)

theorem eqItems_iff {xs ys : List JsonValue} :
    eqItems xs ys = true ↔ List.Forall₂ (fun x y => x.eq y = true) xs ys := by
  induction xs generalizing ys with
  | nil => cases ys <;> simp [eqItems]
  | cons x xs ih =>
    cases ys with
    | nil => simp [eqItems]
    | cons y ys => rw [eqItems, Bool.and_eq_true, ih, List.forall₂_cons]

theorem eqEntries_iff {xs ys : JsonDict} :
    eqEntries xs ys = true ↔ ∀ x ∈ xs, ∃ value, ys.get? x.1 = some value ∧ x.2.eq value = true := by
  induction xs with
  | nil => simp [eqEntries]
  | cons x xs ih =>
    obtain ⟨key, value⟩ := x
    rw [eqEntries, Bool.and_eq_true, ih, List.forall_mem_cons]
    refine and_congr_left fun _ => ?_
    cases ys.get? key <;> simp

theorem eq_list {xs ys : List JsonValue} :
    (JsonValue.list xs).eq (.list ys) = true ↔ List.Forall₂ (fun x y => x.eq y = true) xs ys := by
  rw [eq, eqItems_iff]

/-- Values of a dict's key: absent on both sides, or equal. -/
def SameEntry (a b : Option JsonValue) : Prop := Option.Rel (fun x y => x.eq y = true) a b

/-- Two dicts are equal when every lookup agrees. -/
theorem eq_dict {xs ys : JsonDict} (left : xs.keys.Nodup) (right : ys.keys.Nodup) :
    (JsonValue.dict xs).eq (.dict ys) = true ↔ ∀ key, SameEntry (xs.get? key) (ys.get? key) := by
  rw [eq, Bool.and_eq_true, decide_eq_true_eq, eqEntries_iff]
  constructor
  · rintro ⟨size, entries⟩ key
    have within : xs.keys ⊆ ys.keys := by
      intro name member
      obtain ⟨x, inside, rfl⟩ := List.mem_map.mp member
      obtain ⟨value, found, -⟩ := entries x inside
      exact JsonDict.mem_keys_of_get? found
    have sizes : ys.keys.length ≤ xs.keys.length := by
      simp only [JsonDict.keys, List.length_map]
      exact size.ge
    have perm : xs.keys.Perm ys.keys := (List.subperm_of_subset left within).perm_of_length_le sizes
    rcases found : xs.get? key with _ | value
    · have absent : ys.get? key = none := by
        rw [JsonDict.get?_eq_none] at found ⊢
        exact fun member => found (perm.mem_iff.mpr member)
      rw [absent]
      exact .none
    · obtain ⟨other, same, equal⟩ := entries (key, value) (JsonDict.mem_of_get? found)
      rw [same]
      exact .some equal
  · intro agree
    have keys : ∀ key, key ∈ xs.keys ↔ key ∈ ys.keys := by
      intro key
      have related := agree key
      rw [← JsonDict.contains_iff, ← JsonDict.contains_iff, JsonDict.contains, JsonDict.contains]
      generalize xs.get? key = first, ys.get? key = second at related
      cases related <;> simp
    refine ⟨?_, fun x member => ?_⟩
    · have perm : xs.keys.Perm ys.keys := (List.perm_ext_iff_of_nodup left right).mpr keys
      simpa only [JsonDict.keys, List.length_map] using perm.length_eq
    · have related := agree x.1
      rw [JsonDict.get?_of_mem left member] at related
      rcases other : ys.get? x.1 with _ | value <;> rw [other] at related
      · cases related
      · cases related with
        | some equal => exact ⟨value, rfl, equal⟩

theorem eq_list_left {xs : List JsonValue} {b : JsonValue} (equal : (JsonValue.list xs).eq b = true) :
    ∃ ys, b = .list ys := by
  cases b with
  | list ys => exact ⟨ys, rfl⟩
  | _ => simp [eq] at equal

theorem eq_dict_left {xs : JsonDict} {b : JsonValue} (equal : (JsonValue.dict xs).eq b = true) :
    ∃ ys, b = .dict ys := by
  cases b with
  | dict ys => exact ⟨ys, rfl⟩
  | _ => simp [eq] at equal

/-- A value without parts is equal to such values only. -/
theorem eq_scalar_left {a b : JsonValue} (noList : ∀ items, a ≠ .list items)
    (noDict : ∀ entries, a ≠ .dict entries) (equal : a.eq b = true) :
    (∀ items, b ≠ .list items) ∧ ∀ entries, b ≠ .dict entries := by
  constructor
  · rintro items rfl
    cases a with
    | list xs => exact noList xs rfl
    | dict xs => exact noDict xs rfl
    | _ => simp [eq, scalarEq, number?, isText] at equal
  · rintro entries rfl
    cases a with
    | list xs => exact noList xs rfl
    | dict xs => exact noDict xs rfl
    | _ => simp [eq, scalarEq, number?, isText] at equal

end JsonValue

theorem isSome_of_sameEntry {a b : Option JsonValue} (same : JsonValue.SameEntry a b) :
    a.isSome = b.isSome := by
  cases same <;> rfl

theorem eq_str_right {value : JsonValue} {text : Text} (equal : value.eq (.str text) = true) :
    value = .str text := by
  cases value with
  | str other =>
    rw [JsonValue.eq, JsonValue.isText_str, decide_eq_true_eq] at equal
    rw [equal]
  | _ => simp [JsonValue.eq, JsonValue.scalarEq, JsonValue.number?] at equal

theorem eq_str_left {value : JsonValue} {text : Text} (equal : (JsonValue.str text).eq value = true) :
    value = .str text := JsonValue.isText_iff.1 equal

theorem sameEntry_str_left {held : Option JsonValue} {text : Text}
    (same : JsonValue.SameEntry (some (.str text)) held) : held = some (.str text) := by
  cases same with
  | some equal => rw [eq_str_left equal]

theorem sameEntry_str_right {held : Option JsonValue} {text : Text}
    (same : JsonValue.SameEntry held (some (.str text))) : held = some (.str text) := by
  cases same with
  | some equal => rw [eq_str_right equal]

end Sippycup.Python

/-! Changing a document in place: the value under a key, or the item at an index. Where the path does not
exist the document stays, and the source would raise. -/
namespace Sippycup.Python

/-- `d[key] = f(d[key])` -/
def JsonDict.edit (d : JsonDict) (key : Text) (f : JsonValue → JsonValue) : JsonDict :=
  d.map fun entry => (entry.1, if entry.1 = key then f entry.2 else entry.2)

def JsonValue.editKey (key : Text) (f : JsonValue → JsonValue) : JsonValue → JsonValue
  | .dict d => .dict (JsonDict.edit d key f)
  | value => value

def JsonValue.editItems (f : List JsonValue → List JsonValue) : JsonValue → JsonValue
  | .list items => .list (f items)
  | value => value

def JsonValue.editItem (index : Nat) (f : JsonValue → JsonValue) : JsonValue → JsonValue :=
  editItems fun items => items.modify index f

/-- `d[key] = value` -/
def JsonValue.setKey (key : Text) (value : JsonValue) : JsonValue → JsonValue := editKey key fun _ => value

namespace JsonDict
variable {d : JsonDict} {key name : Text} {f : JsonValue → JsonValue}

theorem get?_edit : (d.edit key f).get? name = if name = key then (d.get? name).map f else d.get? name := by
  rw [edit, get?_map fun name value => if name = key then f value else value]
  split
  · rfl
  · exact Option.map_id'

@[simp] theorem keys_edit : (d.edit key f).keys = d.keys := by
  unfold edit keys
  rw [List.map_map]
  rfl

@[simp] theorem contains_edit : (d.edit key f).contains name = d.contains name := by
  unfold contains
  rw [get?_edit]
  split
  · exact Option.isSome_map
  · rfl

theorem find_edit_other (other : name ≠ key) : (d.edit key f).find name = d.find name := by
  rw [find, get?_edit, if_neg other, find]

theorem find_edit_self (present : d.contains key = true) : (d.edit key f).find key = f (d.find key) := by
  obtain ⟨value, found⟩ := Option.isSome_iff_exists.mp present
  rw [find, get?_edit, if_pos rfl, find, found]
  rfl

end JsonDict

end Sippycup.Python
