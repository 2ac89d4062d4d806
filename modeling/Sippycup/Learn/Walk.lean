import Sippycup.Learn.Compare
import Sippycup.Learn.Identity

/-! What the walk over two documents passes over: keys that hold null on one side
and are absent on the other. -/
namespace Sippycup.Learn
open Sippycup.Python Sippycup.Machine
open JsonValue (Proper proper_dict proper_list parts_induction proper_find)

mutual
/-- A document without the keys that hold null. -/
@[grind =] def prune : JsonValue → JsonValue
  | .list items => .list (pruneItems items)
  | .dict entries => .dict (pruneEntries entries)
  | value => value

@[grind =] def pruneItems : List JsonValue → List JsonValue
  | [] => []
  | item :: rest => prune item :: pruneItems rest

@[grind =] def pruneEntries : List (Text × JsonValue) → List (Text × JsonValue)
  | [] => []
  | (key, value) :: rest =>
    if isNull value then pruneEntries rest else (key, prune value) :: pruneEntries rest
end

/-- Equal but for keys that hold null. -/
def Agrees (left right : JsonValue) : Prop := (prune left).eq (prune right) = true

section pruned
variable {xs ys : JsonDict}

theorem isNull_iff {value : JsonValue} : isNull value = true ↔ value = .null := by
  cases value <;> simp [isNull]

@[simp] theorem prune_list (items : List JsonValue) : prune (.list items) = .list (items.map prune) := by
  rw [prune]
  refine congrArg JsonValue.list ?_
  induction items with
  | nil => rfl
  | cons item rest ih => rw [pruneItems, ih, List.map_cons]

theorem prune_scalar {value : JsonValue} (noList : ∀ items, value ≠ .list items)
    (noDict : ∀ entries, value ≠ .dict entries) : prune value = value := by
  cases value with
  | list items => exact absurd rfl (noList items)
  | dict entries => exact absurd rfl (noDict entries)
  | _ => rfl

/-- What is left of the value under a key. -/
def prunedEntry (held : Option JsonValue) : Option JsonValue :=
  held.bind fun value => if isNull value then none else some (prune value)

theorem pruneEntries_sublist (d : JsonDict) : (JsonDict.keys (pruneEntries d)).Sublist d.keys := by
  induction d with
  | nil => exact .slnil
  | cons entry rest ih =>
    obtain ⟨key, value⟩ := entry
    rw [pruneEntries]
    split
    · exact ih.cons key
    · exact ih.cons_cons key

theorem get?_pruneEntries (unique : xs.keys.Nodup) (key : Text) :
    JsonDict.get? (pruneEntries xs) key = prunedEntry (xs.get? key) := by
  induction xs with
  | nil => rfl
  | cons entry rest ih =>
    obtain ⟨name, value⟩ := entry
    obtain ⟨absent, unique⟩ := List.nodup_cons.mp unique
    have tail := ih unique
    rw [pruneEntries, JsonDict.get?_cons]
    by_cases null : isNull value = true
    · rw [if_pos null, tail]
      split
      · rename_i same
        have gone : JsonDict.get? rest key = none := JsonDict.get?_eq_none.mpr (same ▸ absent)
        rw [gone, prunedEntry, prunedEntry, Option.bind_none, Option.bind_some, if_pos null]
      · rfl
    · rw [if_neg null, JsonDict.get?_cons]
      split
      · rw [prunedEntry, Option.bind_some, if_neg null]
      · exact tail

theorem agrees_null_left {value : JsonValue} : Agrees .null value ↔ isNull value = true := by
  cases value <;> simp [Agrees, prune, JsonValue.eq, isNull]

theorem agrees_null_right {value : JsonValue} : Agrees value .null ↔ isNull value = true := by
  cases value <;> simp [Agrees, prune, JsonValue.eq, isNull, JsonValue.scalarEq, JsonValue.number?,
    JsonValue.isText]

theorem prunedEntry_null {value : JsonValue} (null : isNull value = true) :
    prunedEntry (some value) = none := by
  rw [prunedEntry, Option.bind_some, if_pos null]

theorem prunedEntry_some {value : JsonValue} (some_ : isNull value = false) :
    prunedEntry (some value) = some (prune value) := by
  rw [prunedEntry, Option.bind_some, some_]
  rfl

theorem prunedEntry_getD (held : Option JsonValue) :
    prunedEntry held = prunedEntry (some (held.getD .null)) := by
  cases held <;> rfl

/-- Absent and null are the same. -/
theorem sameEntry_pruned {a b : Option JsonValue} :
    JsonValue.SameEntry (prunedEntry a) (prunedEntry b) ↔ Agrees (a.getD .null) (b.getD .null) := by
  rw [prunedEntry_getD a, prunedEntry_getD b]
  generalize a.getD .null = x, b.getD .null = y
  rcases left : isNull x <;> rcases right : isNull y
  · rw [prunedEntry_some left, prunedEntry_some right]
    constructor
    · intro same
      cases same with
      | some equal => exact equal
    · exact fun equal => .some equal
  · rw [prunedEntry_some left, prunedEntry_null right, isNull_iff.1 right, agrees_null_right, left]
    constructor
    · intro same
      cases same
    · exact nofun
  · rw [prunedEntry_null left, prunedEntry_some right, isNull_iff.1 left, agrees_null_left, right]
    constructor
    · intro same
      cases same
    · exact nofun
  · rw [prunedEntry_null left, prunedEntry_null right, isNull_iff.1 left, agrees_null_left, right]
    exact ⟨fun _ => rfl, fun _ => .none⟩

theorem agrees_dict (left : xs.keys.Nodup) (right : ys.keys.Nodup) :
    Agrees (.dict xs) (.dict ys) ↔ ∀ key, Agrees (xs.find key) (ys.find key) := by
  rw [Agrees, prune, prune, JsonValue.eq_dict ((pruneEntries_sublist xs).nodup left)
    ((pruneEntries_sublist ys).nodup right)]
  refine forall_congr' fun key => ?_
  rw [get?_pruneEntries left, get?_pruneEntries right, sameEntry_pruned]
  rfl

theorem agrees_list {xs ys : List JsonValue} :
    Agrees (.list xs) (.list ys) ↔ List.Forall₂ Agrees xs ys := by
  rw [Agrees, prune_list, prune_list, JsonValue.eq_list, List.forall₂_map_left_iff,
    List.forall₂_map_right_iff]
  rfl

/-- Equal documents agree. -/
theorem agrees_of_eq {left right : JsonValue} (proper : left.Proper) (proper' : right.Proper)
    (equal : left.eq right = true) : Agrees left right := by
  induction left using parts_induction generalizing right with
  | scalar left noList noDict =>
    obtain ⟨noList', noDict'⟩ := JsonValue.eq_scalar_left noList noDict equal
    rw [Agrees, prune_scalar noList noDict, prune_scalar noList' noDict']
    exact equal
  | list items ih =>
    obtain ⟨items', rfl⟩ := JsonValue.eq_list_left equal
    rw [JsonValue.eq_list] at equal
    rw [agrees_list]
    exact forall₂_imp_of_mem equal fun x inside y inside' same =>
      ih x inside (proper_list.mp proper x inside) (proper_list.mp proper' y inside') same
  | dict entries ih =>
    obtain ⟨entries', rfl⟩ := JsonValue.eq_dict_left equal
    obtain ⟨unique, inner⟩ := proper_dict.1 proper
    obtain ⟨unique', inner'⟩ := proper_dict.1 proper'
    rw [JsonValue.eq_dict unique unique'] at equal
    rw [agrees_dict unique unique']
    intro key
    have agree := equal key
    rw [JsonDict.find, JsonDict.find]
    rcases left : entries.get? key with _ | value <;> rcases right : JsonDict.get? entries' key with _ | other <;>
      rw [left, right] at agree
    · exact agrees_null_left.2 rfl
    · cases agree
    · cases agree
    · cases agree with
      | some same =>
        have member := JsonDict.mem_of_get? left
        exact ih _ member (inner _ member) (inner' _ (JsonDict.mem_of_get? right)) same

end pruned

section walk
variable {path : Text} {refs : Refs} {xs ys : JsonDict}

theorem byKey_nil {parts : List (Text × List Change)} :
    byKey parts = [] ↔ ∀ part ∈ parts, part.2 = [] := by
  rw [byKey, List.flatMap_eq_nil_iff]
  exact forall_congr' fun part => by rw [(List.perm_insertionSort _ parts).mem_iff]

theorem walkEntries_nil {entries : JsonDict} :
    (∀ part ∈ walkEntries path refs entries ys, part.2 = []) ↔
      ∀ entry ∈ entries, walkChanges (child path entry.1) refs entry.2 (ys.find entry.1) = [] := by
  induction entries with
  | nil => exact ⟨fun _ _ member => absurd member (List.not_mem_nil),
      fun _ _ member => absurd member (List.not_mem_nil)⟩
  | cons entry rest ih =>
    obtain ⟨key, value⟩ := entry
    rw [walkEntries, List.forall_mem_cons, List.forall_mem_cons, ih]

theorem addedChanges_nil : (∀ part ∈ addedChanges path refs xs ys, part.2 = []) ↔
    ∀ entry ∈ ys, entry.1 ∉ xs.keys → isNull entry.2 = true := by
  have null : ∀ value, JsonValue.null.eq value = isNull value := by
    intro value
    cases value <;> rfl
  rw [addedChanges, List.forall_mem_map]
  constructor
  · intro silent entry member absent
    have kept : entry ∈ ys.filter fun entry => !xs.contains entry.1 := by
      rw [List.mem_filter, Bool.not_eq_true', Bool.eq_false_iff, ne_eq, JsonDict.contains_iff]
      exact ⟨member, absent⟩
    have silent := silent entry kept
    by_contra some_
    rw [null, if_neg some_] at silent
    cases silent
  · intro nulls entry kept
    rw [List.mem_filter, Bool.not_eq_true', Bool.eq_false_iff, ne_eq, JsonDict.contains_iff] at kept
    rw [null, if_pos (nulls entry kept.1 kept.2)]

theorem walkItems_nil {index : Nat} {items items' : List JsonValue} (sizes : items.length = items'.length)
    {R : JsonValue → JsonValue → Prop} (each : ∀ item ∈ items, ∀ item' ∈ items', ∀ path,
      walkChanges path refs item item' = [] ↔ R item item') :
    walkItems path refs index items items' = [] ↔ List.Forall₂ R items items' := by
  induction items generalizing items' index with
  | nil =>
    obtain rfl := List.length_eq_zero_iff.mp sizes.symm
    exact ⟨fun _ => .nil, fun _ => rfl⟩
  | cons item rest ih =>
    cases items' with
    | nil => cases sizes
    | cons item' rest' =>
      rw [walkItems, List.append_eq_nil_iff, List.forall₂_cons,
        each item List.mem_cons_self item' List.mem_cons_self]
      refine and_congr_right fun _ => ih (Nat.succ.inj sizes) fun x inside y inside' => ?_
      exact each x (List.mem_cons_of_mem _ inside) y (List.mem_cons_of_mem _ inside')

theorem eq_prune_scalar {left right : JsonValue} (noList : ∀ items, left ≠ .list items)
    (noDict : ∀ entries, left ≠ .dict entries) : left.eq (prune right) = left.eq right := by
  have apart : ∀ {other : JsonValue}, (∃ items, other = .list items) ∨ (∃ entries, other = .dict entries) →
      left.eq other = false := by
    intro other form
    rw [Bool.eq_false_iff]
    intro equal
    obtain ⟨plainList, plainDict⟩ := JsonValue.eq_scalar_left noList noDict equal
    obtain ⟨items, is⟩ | ⟨entries, is⟩ := form
    · exact plainList items is
    · exact plainDict entries is
  cases right with
  | list items => rw [prune_list, apart (.inl ⟨_, rfl⟩), apart (.inl ⟨_, rfl⟩)]
  | dict entries => rw [prune, apart (.inr ⟨_, rfl⟩), apart (.inr ⟨_, rfl⟩)]
  | _ => rfl

theorem not_agrees_list {items : List JsonValue} {right : JsonValue}
    (noList : ∀ items, right ≠ .list items) : ¬ Agrees (.list items) right := by
  intro agrees
  rw [Agrees, prune_list] at agrees
  obtain ⟨ys, is⟩ := JsonValue.eq_list_left agrees
  cases right with
  | list items => exact noList items rfl
  | _ => cases is

theorem not_agrees_dict {entries : JsonDict} {right : JsonValue}
    (noDict : ∀ entries, right ≠ .dict entries) : ¬ Agrees (.dict entries) right := by
  intro agrees
  rw [Agrees, prune] at agrees
  obtain ⟨ys, is⟩ := JsonValue.eq_dict_left agrees
  cases right with
  | dict entries => exact noDict entries rfl
  | _ => cases is

theorem walkChanges_list (items : List JsonValue) (right : JsonValue) :
    walkChanges path refs (.list items) right =
      if (JsonValue.list items).eq right then []
      else match right with
        | .list ys =>
          if items.length = ys.length then walkItems path refs 0 items ys
          else [change path (.list items) (.list ys) refs]
        | right => [change path (.list items) right refs] := rfl

theorem walkChanges_dict (entries : JsonDict) (right : JsonValue) :
    walkChanges path refs (.dict entries) right =
      if (JsonValue.dict entries).eq right then []
      else match right with
        | .dict ys => byKey (walkEntries path refs entries ys ++ addedChanges path refs entries ys)
        | right => [change path (.dict entries) right refs] := rfl

/-- The walk finds nothing exactly in documents that agree. -/
theorem walkChanges_nil {left right : JsonValue} (proper : left.Proper) (proper' : right.Proper)
    (path : Text) (refs : Refs) : walkChanges path refs left right = [] ↔ Agrees left right := by
  induction left using parts_induction generalizing right path with
  | scalar left noList noDict =>
    have plain : walkChanges path refs left right =
        if left.eq right then [] else [change path left right refs] := by
      cases left with
      | list items => exact absurd rfl (noList items)
      | dict entries => exact absurd rfl (noDict entries)
      | _ => rfl
    rw [plain, Agrees, prune_scalar noList noDict, eq_prune_scalar noList noDict]
    by_cases equal : left.eq right = true
    · rw [if_pos equal]
      exact ⟨fun _ => equal, fun _ => rfl⟩
    · rw [if_neg equal]
      exact ⟨fun changed => (by cases changed), fun same => absurd same equal⟩
  | list items ih =>
    rw [walkChanges_list]
    by_cases equal : (JsonValue.list items).eq right = true
    · rw [if_pos equal]
      exact ⟨fun _ => agrees_of_eq proper proper' equal, fun _ => rfl⟩
    · rw [if_neg equal]
      cases right with
      | list items' =>
        rw [agrees_list]
        by_cases sizes : items.length = items'.length
        · simp only [if_pos sizes]
          exact walkItems_nil sizes fun item member item' member' path =>
            ih item member (proper_list.mp proper item member) (proper_list.mp proper' item' member') path
        · simp only [if_neg sizes]
          exact ⟨fun changed => (by cases changed), fun each => absurd each.length_eq sizes⟩
      | _ => exact ⟨fun changed => (by cases changed), fun agrees => absurd agrees (not_agrees_list fun _ => JsonValue.noConfusion)⟩
  | dict entries ih =>
    rw [walkChanges_dict]
    by_cases equal : (JsonValue.dict entries).eq right = true
    · rw [if_pos equal]
      exact ⟨fun _ => agrees_of_eq proper proper' equal, fun _ => rfl⟩
    · rw [if_neg equal]
      cases right with
      | dict entries' =>
        obtain ⟨unique, inner⟩ := proper_dict.1 proper
        obtain ⟨unique', inner'⟩ := proper_dict.1 proper'
        have found : ∀ entry ∈ entries, entries.find entry.1 = entry.2 := by
          intro entry member
          rw [JsonDict.find, JsonDict.get?_of_mem unique member]
          rfl
        have found' : ∀ entry ∈ entries', JsonDict.find entries' entry.1 = entry.2 := by
          intro entry member
          rw [JsonDict.find, JsonDict.get?_of_mem unique' member]
          rfl
        have each : ∀ entry ∈ entries, (walkChanges (child path entry.1) refs entry.2
            (JsonDict.find entries' entry.1) = [] ↔
              Agrees (entries.find entry.1) (JsonDict.find entries' entry.1)) := by
          intro entry member
          rw [found entry member]
          exact ih entry member (inner entry member) (proper_find proper' entry.1) _
        rw [agrees_dict unique unique', byKey_nil, List.forall_mem_append, walkEntries_nil, addedChanges_nil]
        constructor
        · rintro ⟨silent, nulls⟩ key
          by_cases own : key ∈ entries.keys
          · obtain ⟨entry, member, rfl⟩ := List.mem_map.mp own
            exact (each entry member).mp (silent entry member)
          · have absent : entries.find key = .null := by
              rw [JsonDict.find, JsonDict.get?_eq_none.mpr own]
              rfl
            rw [absent, agrees_null_left]
            by_cases other : key ∈ JsonDict.keys entries'
            · obtain ⟨entry, member, rfl⟩ := List.mem_map.mp other
              rw [found' entry member]
              exact nulls entry member own
            · rw [JsonDict.find, JsonDict.get?_eq_none.mpr other]
              rfl
        · intro agree
          refine ⟨fun entry member => (each entry member).mpr (agree entry.1), fun entry member absent => ?_⟩
          have here := agree entry.1
          rw [found' entry member, JsonDict.find, JsonDict.get?_eq_none.mpr absent] at here
          exact agrees_null_left.1 here
      | _ => exact ⟨fun changed => (by cases changed), fun agrees => absurd agrees (not_agrees_dict fun _ => JsonValue.noConfusion)⟩

end walk

end Sippycup.Learn
