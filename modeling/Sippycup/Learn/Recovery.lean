import Mathlib.GroupTheory.GroupAction.MultipleTransitivity
import Sippycup.Learn.Transform

/-! What numbering by first use forgets: of two documents that are normalized to
equal ones, the first is the second under a renaming of its placeholders. -/
namespace Sippycup.Learn
open Sippycup.Python

mutual
/-- No number stands where a port above the privileged ones would. -/
@[grind =] def NoPorts (field : Text) : JsonValue → Prop
  | .list items => NoPortsItems field items
  | .dict entries => NoPortsEntries entries
  | value => ephemeralPort field value = false

@[grind =] def NoPortsItems (field : Text) : List JsonValue → Prop
  | [] => True
  | item :: rest => NoPorts field item ∧ NoPortsItems field rest

@[grind =] def NoPortsEntries : List (Text × JsonValue) → Prop
  | [] => True
  | (key, value) :: rest => NoPorts key value ∧ NoPortsEntries rest
end

theorem noPorts_list {field : Text} {items : List JsonValue} :
    NoPorts field (.list items) ↔ ∀ item ∈ items, NoPorts field item := by
  rw [NoPorts]
  induction items with
  | nil => simp [NoPortsItems]
  | cons item rest ih => rw [NoPortsItems, ih, List.forall_mem_cons]

theorem noPorts_dict {field : Text} {entries : JsonDict} :
    NoPorts field (.dict entries) ↔ ∀ entry ∈ entries, NoPorts entry.1 entry.2 := by
  rw [NoPorts]
  induction entries with
  | nil => simp [NoPortsEntries]
  | cons entry rest ih =>
    obtain ⟨key, value⟩ := entry
    rw [NoPortsEntries, ih, List.forall_mem_cons]

section correspondence

/-- As many names of each kind on both sides, each of them once. -/
def Corresponds (names others : Names) : Prop :=
  ∀ kind, (names kind).Nodup ∧ (others kind).Nodup ∧ (names kind).length = (others kind).length

/-- Names with the same number are renamed to each other. -/
def Maps (ρ : Renaming) (names others : Names) : Prop :=
  ∀ kind, (names kind).map (ρ kind) = others kind

/-- Two computations between corresponding names, where a renaming that agrees with
the names they end in agrees with those they start from and has a property. -/
structure Explains (names others names' others' : Names) (claim : Renaming → Prop) : Prop where
  corresponds : Corresponds names' others'
  explain : ∀ ρ, Maps ρ names' others' → Maps ρ names others ∧ claim ρ

variable {names others : Names} {kind raw other : Text}

theorem Explains.refl (corresponds : Corresponds names others) {claim : Renaming → Prop}
    (holds : ∀ ρ, claim ρ) : Explains names others names others claim :=
  ⟨corresponds, fun ρ maps => ⟨maps, holds ρ⟩⟩

theorem Explains.trans {n₁ m₁ n₂ m₂ n₃ m₃ : Names} {first second both : Renaming → Prop}
    (one : Explains n₁ m₁ n₂ m₂ first) (two : Explains n₂ m₂ n₃ m₃ second)
    (combine : ∀ ρ, first ρ → second ρ → both ρ) : Explains n₁ m₁ n₃ m₃ both := by
  refine ⟨two.corresponds, fun ρ maps => ?_⟩
  obtain ⟨between, later⟩ := two.explain ρ maps
  obtain ⟨start, earlier⟩ := one.explain ρ between
  exact ⟨start, combine ρ earlier later⟩

theorem Explains.imp {n₁ m₁ n₂ m₂ : Names} {claim other : Renaming → Prop}
    (explains : Explains n₁ m₁ n₂ m₂ claim) (weaker : ∀ ρ, claim ρ → other ρ) :
    Explains n₁ m₁ n₂ m₂ other :=
  ⟨explains.corresponds, fun ρ maps => (explains.explain ρ maps).imp_right (weaker ρ)⟩

theorem idxOf_of_label {kind' : Text}
    (same : placeholderValue kind (names.label kind raw) = placeholderValue kind' (others.label kind' other)) :
    kind = kind' ∧ (names kind).idxOf raw = (others kind').idxOf other := by
  simp only [placeholderValue, JsonDict.entry, JsonValue.dict.injEq, List.cons.injEq, Prod.mk.injEq,
    JsonValue.str.injEq, true_and, and_true] at same
  obtain ⟨rfl, labels⟩ := same
  refine ⟨rfl, ?_⟩
  have codes := congrArg Text.codes labels
  simp only [Names.label] at codes
  have numbers := JsonText.intCodes_injective (List.append_cancel_left codes)
  omega

/-- A name of the same number on both sides is recorded on both. -/
theorem explains_add (corresponds : Corresponds names others)
    (same : (names kind).idxOf raw = (others kind).idxOf other) :
    Explains names others (names.add kind raw) (others.add kind other) fun ρ => ρ kind raw = other := by
  obtain ⟨unique, unique', size⟩ := corresponds kind
  have member : raw ∈ names kind ↔ other ∈ others kind := by
    rw [← List.idxOf_lt_length_iff, ← List.idxOf_lt_length_iff, same, size]
  by_cases known : raw ∈ names kind
  · rw [Names.add, if_pos known, Names.add, if_pos (member.mp known)]
    refine ⟨corresponds, fun ρ maps => ⟨maps, ?_⟩⟩
    have at_ := List.idxOf_lt_length_of_mem known
    have at' := List.idxOf_lt_length_of_mem (member.mp known)
    have mapped : ((names kind).map (ρ kind))[(names kind).idxOf raw]? =
        (others kind)[(others kind).idxOf other]? := by rw [maps kind, same]
    rw [List.getElem?_map, List.getElem?_eq_getElem at_, List.getElem?_eq_getElem at',
      List.getElem_idxOf at_, List.getElem_idxOf at'] at mapped
    exact Option.some.inj mapped
  · have fresh : other ∉ others kind := member.not.mp known
    rw [Names.add, if_neg known, Names.add, if_neg fresh]
    constructor
    · intro kind'
      by_cases is : kind' = kind
      · subst is
        rw [Function.update_self, Function.update_self]
        rw [← List.concat_eq_append, ← List.concat_eq_append, List.length_concat, List.length_concat, size]
        exact ⟨unique.concat known, unique'.concat fresh, rfl⟩
      · rw [Function.update_of_ne is, Function.update_of_ne is]
        exact corresponds kind'
    · intro ρ maps
      have own := maps kind
      rw [Function.update_self, Function.update_self, List.map_append] at own
      obtain ⟨old, new⟩ := List.append_inj own (by rw [List.length_map, size])
      refine ⟨fun kind' => ?_, by simpa using new⟩
      by_cases is : kind' = kind
      · rw [is, old]
      · have others' := maps kind'
        rwa [Function.update_of_ne is, Function.update_of_ne is] at others'

/-- Corresponding names are mapped to each other by a permutation of all names. -/
theorem exists_maps (corresponds : Corresponds names others) :
    ∃ ρ : Renaming, (∀ kind, Function.Injective (ρ kind)) ∧ Maps ρ names others := by
  have each : ∀ kind, ∃ σ : Equiv.Perm Text, (names kind).map σ = others kind := by
    intro kind
    obtain ⟨unique, unique', size⟩ := corresponds kind
    have transitive := MulAction.isMultiplyPretransitive_iff.mp
      (Equiv.Perm.isMultiplyPretransitive Text (names kind).length)
    obtain ⟨σ, moves⟩ := transitive
      ⟨(names kind).get, List.nodup_iff_injective_get.mp unique⟩
      ⟨fun i => (others kind).get (i.cast size),
        fun i j equal => Fin.cast_injective size (List.nodup_iff_injective_get.mp unique' equal)⟩
    refine ⟨σ, List.ext_getElem (by rw [List.length_map, size]) fun i first second => ?_⟩
    have at_ : i < (names kind).length := by rwa [List.length_map] at first
    have pointwise := DFunLike.congr_fun moves ⟨i, at_⟩
    rw [List.getElem_map]
    exact pointwise
  choose σ maps using each
  exact ⟨fun kind => σ kind, fun kind => (σ kind).injective, maps⟩

end correspondence

section outcomes
variable {names after : Names} {field : Text} {value result : JsonValue} {entries output : JsonDict}

theorem normalizeSorted_scalar (noList : ∀ items, value ≠ .list items)
    (noDict : ∀ entries, value ≠ .dict entries) (noPort : NoPorts field value) :
    normalizeSorted names field value = .ok (value, names) := by
  cases value with
  | list items => exact absurd rfl (noList items)
  | dict entries => exact absurd rfl (noDict entries)
  | _ =>
    simp only [NoPorts] at noPort
    simp only [normalizeSorted, noPort]
    rfl

theorem normalizeSorted_list_ok {items : List JsonValue}
    (run : normalizeSorted names field (.list items) = .ok (result, after)) :
    ∃ output, normalizeItems names field items = .ok (output, after) ∧ result = .list output := by
  rw [normalizeSorted] at run
  obtain ⟨⟨output, names⟩, inner, done⟩ := bind_ok.mp run
  obtain ⟨rfl, rfl⟩ := Prod.mk.inj (Except.ok.inj done)
  exact ⟨output, inner, rfl⟩

/-- A dict is a named placeholder, or its values are normalized in their order. -/
theorem normalizeSorted_dict_ok
    (run : normalizeSorted names field (.dict entries) = .ok (result, after)) :
    (∃ kind raw, placeholderKind? entries = some kind ∧ entries.find "name" = .str raw ∧
      result = placeholderValue kind (names.label kind raw) ∧ after = names.add kind raw) ∨
    (placeholderKind? entries = none ∧
      ∃ output, normalizeEntries names entries = .ok (output, after) ∧ result = .dict output) := by
  rw [normalizeSorted] at run
  rcases kinded : placeholderKind? entries with _ | kind
  · right
    refine ⟨rfl, ?_⟩
    obtain ⟨none | ⟨raised, error⟩, -⟩ := placeholder_of_plain (ρ := fun _ raw => raw) kinded
    · rw [none, ok_bind] at run
      obtain ⟨⟨output, names⟩, inner, done⟩ := bind_ok.mp run
      obtain ⟨rfl, rfl⟩ := Prod.mk.inj (Except.ok.inj done)
      exact ⟨output, inner, rfl⟩
    · rw [error] at run
      cases run
  · left
    rw [placeholder_of_kind kinded] at run
    rcases named : JsonDict.find entries "name" with _ | _ | _ | _ | raw | _ | _
    case str =>
      rw [named] at run
      obtain ⟨rfl, rfl⟩ := Prod.mk.inj (Except.ok.inj run)
      exact ⟨kind, raw, rfl, rfl, rfl, rfl⟩
    all_goals
      rw [named] at run
      cases run

theorem normalizeEntries_cons_ok {key : Text} {rest : JsonDict}
    (run : normalizeEntries names ((key, value) :: rest) = .ok (output, after)) :
    ∃ first between others, normalizeSorted names key value = .ok (first, between) ∧
      normalizeEntries between rest = .ok (others, after) ∧ output = (key, first) :: others := by
  rw [normalizeEntries] at run
  obtain ⟨⟨first, between⟩, head, next⟩ := bind_ok.mp run
  obtain ⟨⟨others, names⟩, tail, done⟩ := bind_ok.mp next
  obtain ⟨rfl, rfl⟩ := Prod.mk.inj (Except.ok.inj done)
  exact ⟨first, between, others, head, tail, rfl⟩

theorem normalizeItems_cons_ok {rest : List JsonValue} {items : List JsonValue}
    (run : normalizeItems names field (value :: rest) = .ok (items, after)) :
    ∃ first between others, normalizeSorted names field value = .ok (first, between) ∧
      normalizeItems between field rest = .ok (others, after) ∧ items = first :: others := by
  rw [normalizeItems] at run
  obtain ⟨⟨first, between⟩, head, next⟩ := bind_ok.mp run
  obtain ⟨⟨others, names⟩, tail, done⟩ := bind_ok.mp next
  obtain ⟨rfl, rfl⟩ := Prod.mk.inj (Except.ok.inj done)
  exact ⟨first, between, others, head, tail, rfl⟩

theorem normalizeEntries_keys (run : normalizeEntries names entries = .ok (output, after)) :
    output.keys = entries.keys := by
  induction entries generalizing names output with
  | nil =>
    obtain ⟨rfl, rfl⟩ := Prod.mk.inj (Except.ok.inj run)
    rfl
  | cons entry rest ih =>
    obtain ⟨key, value⟩ := entry
    obtain ⟨first, between, others, -, tail, rfl⟩ := normalizeEntries_cons_ok run
    exact congrArg (List.cons key) (ih tail)

/-- A text in the output of a document without ports was there before. -/
theorem normalizeSorted_str_ok {text : Text} (noPort : NoPorts field value)
    (run : normalizeSorted names field value = .ok (.str text, after)) : value = .str text := by
  cases value with
  | list items =>
    obtain ⟨output, -, is⟩ := normalizeSorted_list_ok run
    cases is
  | dict entries =>
    rcases normalizeSorted_dict_ok run with ⟨kind, raw, -, -, is, -⟩ | ⟨-, output, -, is⟩ <;> cases is
  | _ =>
    rw [normalizeSorted_scalar (fun _ => JsonValue.noConfusion) (fun _ => JsonValue.noConfusion)
      noPort] at run
    exact (Prod.mk.inj (Except.ok.inj run)).1

theorem normalizeEntries_str_ok {key text : Text} (noPorts : ∀ entry ∈ entries, NoPorts entry.1 entry.2)
    (run : normalizeEntries names entries = .ok (output, after))
    (held : output.get? key = some (.str text)) : entries.get? key = some (.str text) := by
  induction entries generalizing names output with
  | nil =>
    obtain ⟨rfl, rfl⟩ := Prod.mk.inj (Except.ok.inj run)
    cases held
  | cons entry rest ih =>
    obtain ⟨name, value⟩ := entry
    obtain ⟨first, between, others, head, tail, rfl⟩ := normalizeEntries_cons_ok run
    obtain ⟨noPort, others⟩ := List.forall_mem_cons.mp noPorts
    rw [JsonDict.get?_cons] at held ⊢
    split
    · rename_i same
      rw [if_pos same] at held
      rw [Option.some.inj held] at head
      exact congrArg some (normalizeSorted_str_ok noPort head)
    · rename_i other
      rw [if_neg other] at held
      exact ih others tail held

end outcomes

section lookups
variable {xs ys : JsonDict}

theorem keys_sortEntries (d : JsonDict) :
    JsonDict.keys (JsonValue.sortEntries d) = sortTexts d.keys :=
  List.map_insertionSort (fun a b : Text × JsonValue => a.1.le b.1 = true)
    (fun a b : Text => a.le b = true) Prod.fst d fun _ _ _ _ => Iff.rfl

/-- Keys in order are determined by which keys there are. -/
theorem sortEntries_keys (left : xs.keys.Nodup) (right : ys.keys.Nodup)
    (same : ∀ key, key ∈ xs.keys ↔ key ∈ ys.keys) :
    JsonDict.keys (JsonValue.sortEntries xs) = JsonDict.keys (JsonValue.sortEntries ys) := by
  rw [keys_sortEntries, keys_sortEntries]
  exact sortTexts_eq_of_perm ((List.perm_ext_iff_of_nodup left right).mpr same)

theorem forall₂_of_lookups (keys : xs.keys = ys.keys) (unique : xs.keys.Nodup)
    (agree : ∀ key, JsonValue.SameEntry (xs.get? key) (ys.get? key)) :
    List.Forall₂ (fun x y => x.2.eq y.2 = true) xs ys := by
  induction xs generalizing ys with
  | nil =>
    cases ys with
    | nil => exact .nil
    | cons y ys => cases keys
  | cons x xs ih =>
    cases ys with
    | nil => cases keys
    | cons y ys =>
      obtain ⟨key, value⟩ := x
      obtain ⟨name, other⟩ := y
      obtain ⟨same, rest⟩ := List.cons.inj keys
      obtain rfl : key = name := same
      obtain ⟨absent, unique⟩ := List.nodup_cons.mp unique
      have first := agree key
      simp only [JsonDict.get?_cons, if_true] at first
      refine .cons ?_ (ih rest unique fun looked => ?_)
      · cases first with
        | some equal => exact equal
      · by_cases is : key = looked
        · subst is
          have left : JsonDict.get? xs key = none := JsonDict.get?_eq_none.mpr absent
          have right : JsonDict.get? ys key = none := by
            rw [JsonDict.get?_eq_none, JsonDict.keys, ← rest]
            exact absent
          rw [left, right]
          exact .none
        · have later := agree looked
          simpa only [JsonDict.get?_cons, if_neg is] using later

theorem lookups_of_forall₂ {R : JsonValue → JsonValue → Prop}
    (each : List.Forall₂ (fun x y => x.1 = y.1 ∧ R x.2 y.2) xs ys) (key : Text) :
    Option.Rel R (xs.get? key) (ys.get? key) := by
  induction each with
  | nil => exact .none
  | @cons x y xs ys head _ ih =>
    obtain ⟨name, value⟩ := x
    obtain ⟨name', other⟩ := y
    obtain ⟨rfl, related⟩ := head
    rw [JsonDict.get?_cons, JsonDict.get?_cons]
    split
    · exact .some related
    · exact ih

end lookups

section recover
variable {ρ : Renaming} {names others names' others' : Names} {field kind name : Text}
  {entries output : JsonDict}

theorem noPorts_sortKeys {value : JsonValue} {field : Text} (noPort : NoPorts field value) :
    NoPorts field value.sortKeys := by
  induction value using JsonValue.parts_induction generalizing field with
  | scalar value noList noDict =>
    cases value with
    | list items => exact absurd rfl (noList items)
    | dict entries => exact absurd rfl (noDict entries)
    | _ => exact noPort
  | list items ih =>
    have each := noPorts_list.1 noPort
    rw [sortKeys_list, noPorts_list]
    intro sorted member
    obtain ⟨item, listed, rfl⟩ := List.mem_map.mp member
    exact ih item listed (each item listed)
  | dict entries ih =>
    have each := noPorts_dict.1 noPort
    rw [sortKeys_dict, noPorts_dict]
    intro sorted member
    obtain ⟨entry, listed, rfl⟩ := List.mem_map.mp ((List.perm_insertionSort _ _).mem_iff.mp member)
    exact ih entry listed (each entry listed)

/-- The items of a dict in the order in which they are normalized. -/
def sortedItems (entries : JsonDict) : JsonDict :=
  (JsonValue.sortEntries entries).map fun entry => (entry.1, entry.2.sortKeys)

theorem sortKeys_dict_items (entries : JsonDict) :
    (JsonValue.dict entries).sortKeys = .dict (sortedItems entries) := by
  rw [sortKeys_dict, sortEntries_map fun _ => JsonValue.sortKeys, sortedItems]

theorem placeholderKind_items (entries : JsonDict) :
    placeholderKind? (sortedItems entries) = placeholderKind? entries := by
  rw [sortedItems, ← sortEntries_map fun _ => JsonValue.sortKeys, placeholderKind_sorted]

theorem get?_sortedItems (entries : JsonDict) (key : Text) :
    (sortedItems entries).get? key = (entries.get? key).map JsonValue.sortKeys := by
  rw [sortedItems, JsonDict.get?_map fun _ => JsonValue.sortKeys, JsonDict.get?_sortEntries]

theorem keys_sortedItems (entries : JsonDict) :
    (sortedItems entries).keys = JsonDict.keys (JsonValue.sortEntries entries) := by
  simp [sortedItems, JsonDict.keys, Function.comp_def]

theorem mem_keys_sorted {key : Text} :
    key ∈ JsonDict.keys (JsonValue.sortEntries entries) ↔ key ∈ entries.keys :=
  ((List.perm_insertionSort _ entries).map Prod.fst).mem_iff

theorem sortKeys_str {value : JsonValue} {text : Text} (sorted : value.sortKeys = .str text) :
    value = .str text := by
  cases value with
  | str other => exact sorted
  | _ => simp [JsonValue.sortKeys] at sorted

theorem run_dict_ok {result : JsonValue}
    (run : normalizeSorted names field (JsonValue.dict entries).sortKeys = .ok (result, names')) :
    (∃ kind raw, placeholderKind? entries = some kind ∧ entries.get? "name" = some (.str raw) ∧
      result = placeholderValue kind (names.label kind raw) ∧ names' = names.add kind raw) ∨
    (placeholderKind? entries = none ∧ ∃ output,
      normalizeEntries names (sortedItems entries) = .ok (output, names') ∧ result = .dict output) := by
  rw [sortKeys_dict_items] at run
  rcases normalizeSorted_dict_ok run with ⟨kind, raw, kinded, named, is, added⟩ | ⟨plain, output, inner, is⟩
  · rw [placeholderKind_items] at kinded
    refine .inl ⟨kind, raw, kinded, ?_, is, added⟩
    rw [JsonDict.find, get?_sortedItems] at named
    cases held : entries.get? "name" with
    | none => rw [held] at named; cases named
    | some value =>
      rw [held] at named
      exact congrArg some (sortKeys_str named)
  · rw [placeholderKind_items] at plain
    exact .inr ⟨plain, output, inner, is⟩

/-- What is not a placeholder is not normalized to one. -/
theorem not_placeholder (plain : placeholderKind? entries = none)
    (noPorts : NoPorts field (.dict entries))
    (run : normalizeEntries names (sortedItems entries) = .ok (output, names'))
    (known : kind ∈ placeholderTypes) (keys : ∀ key, (output.get? key).isSome =
      (JsonDict.get? [JsonDict.entry "type" (.str kind), JsonDict.entry "name" (.str name)] key).isSome)
    (typed : output.get? "type" = some (.str kind)) : False := by
  have sorted : NoPorts field (.dict (sortedItems entries)) :=
    sortKeys_dict_items entries ▸ noPorts_sortKeys noPorts
  have type : (sortedItems entries).get? "type" = some (.str kind) :=
    normalizeEntries_str_ok (noPorts_dict.1 sorted) run typed
  have same : ∀ key, key ∈ (sortedItems entries).keys ↔ key = "type" ∨ key = "name" := by
    intro key
    have held := keys key
    rw [← normalizeEntries_keys run, ← JsonDict.contains_iff, JsonDict.contains, held]
    simp only [JsonDict.get?_cons, JsonDict.entry, JsonDict.get?_nil]
    split
    · rename_i is
      simp [is]
    · rename_i notType
      split
      · rename_i is
        simp [is]
      · rename_i notName
        simp [Ne.symm notType, Ne.symm notName]
  have shape : placeholderShape (sortedItems entries) = true := by
    simp only [placeholderShape, Bool.and_eq_true, JsonDict.contains_iff, List.all_eq_true, Bool.or_eq_true,
      decide_eq_true_eq]
    exact ⟨⟨(same _).mpr (.inl rfl), (same _).mpr (.inr rfl)⟩, fun key member => (same key).mp member⟩
  have is : placeholderKind? (sortedItems entries) = some kind :=
    placeholderKind_some.2 ⟨shape, by rw [JsonDict.find, type]; rfl, known⟩
  rw [placeholderKind_items, plain] at is
  cases is

/-- Documents that are normalized to equal ones, from corresponding names. -/
structure Twins (names others names' others' : Names) (field : Text) (value other : JsonValue) : Prop where
  proper : value.Proper
  proper' : other.Proper
  noPorts : NoPorts field value
  noPorts' : NoPorts field other
  equal : ∃ result result', normalizeSorted names field value.sortKeys = .ok (result, names') ∧
    normalizeSorted others field other.sortKeys = .ok (result', others') ∧ result.eq result' = true

/-- The first of two such documents is the second, renamed. -/
def Recovered (value : JsonValue) : Prop :=
  ∀ {names others names' others' field} other, Corresponds names others →
    Twins names others names' others' field value other →
    Explains names others names' others' fun ρ => (rename ρ value).eq other = true

theorem items_explained {items outputs outputs' : List JsonValue} (each : ∀ item ∈ items, Recovered item)
    (proper : ∀ item ∈ items, item.Proper) (noPorts : ∀ item ∈ items, NoPorts field item)
    {items' : List JsonValue} (proper' : ∀ item ∈ items', item.Proper)
    (noPorts' : ∀ item ∈ items', NoPorts field item) (corresponds : Corresponds names others)
    (run : normalizeItems names field (items.map JsonValue.sortKeys) = .ok (outputs, names'))
    (run' : normalizeItems others field (items'.map JsonValue.sortKeys) = .ok (outputs', others'))
    (equal : List.Forall₂ (fun x y => x.eq y = true) outputs outputs') :
    Explains names others names' others' fun ρ =>
      List.Forall₂ (fun x y => (rename ρ x).eq y = true) items items' := by
  induction items generalizing items' names others outputs outputs' with
  | nil =>
    obtain ⟨rfl, rfl⟩ := Prod.mk.inj (Except.ok.inj run)
    obtain rfl := List.forall₂_nil_left_iff.mp equal
    cases items' with
    | nil =>
      obtain ⟨-, rfl⟩ := Prod.mk.inj (Except.ok.inj run')
      exact .refl corresponds fun _ => .nil
    | cons item' rest' =>
      obtain ⟨first, between, tail, -, -, is⟩ := normalizeItems_cons_ok run'
      cases is
  | cons item rest ih =>
    obtain ⟨first, between, tail, head, later, rfl⟩ := normalizeItems_cons_ok run
    cases items' with
    | nil =>
      obtain ⟨rfl, -⟩ := Prod.mk.inj (Except.ok.inj run')
      cases equal
    | cons item' rest' =>
      obtain ⟨first', between', tail', head', later', rfl⟩ := normalizeItems_cons_ok run'
      obtain ⟨same, others⟩ := List.forall₂_cons.mp equal
      obtain ⟨itemRecovered, each⟩ := List.forall_mem_cons.mp each
      obtain ⟨itemProper, proper⟩ := List.forall_mem_cons.mp proper
      obtain ⟨itemProper', proper'⟩ := List.forall_mem_cons.mp proper'
      obtain ⟨itemNoPorts, noPorts⟩ := List.forall_mem_cons.mp noPorts
      obtain ⟨itemNoPorts', noPorts'⟩ := List.forall_mem_cons.mp noPorts'
      have one := itemRecovered item' corresponds
        ⟨itemProper, itemProper', itemNoPorts, itemNoPorts', first, first', head, head', same⟩
      have two := ih each proper noPorts proper' noPorts' one.corresponds later later' others
      exact one.trans two fun ρ head tail => .cons head tail

/-- Items of two dicts with the same keys, in the same order. -/
theorem entries_explained {entries outputs outputs' : JsonDict} (each : ∀ entry ∈ entries, Recovered entry.2)
    (proper : ∀ entry ∈ entries, entry.2.Proper) (noPorts : ∀ entry ∈ entries, NoPorts entry.1 entry.2)
    {entries' : JsonDict} (keys : entries.keys = entries'.keys)
    (proper' : ∀ entry ∈ entries', entry.2.Proper)
    (noPorts' : ∀ entry ∈ entries', NoPorts entry.1 entry.2) (corresponds : Corresponds names others)
    (run : normalizeEntries names (entries.map fun entry => (entry.1, entry.2.sortKeys)) =
      .ok (outputs, names'))
    (run' : normalizeEntries others (entries'.map fun entry => (entry.1, entry.2.sortKeys)) =
      .ok (outputs', others'))
    (equal : List.Forall₂ (fun x y => x.2.eq y.2 = true) outputs outputs') :
    Explains names others names' others' fun ρ =>
      List.Forall₂ (fun x y => x.1 = y.1 ∧ (rename ρ x.2).eq y.2 = true) entries entries' := by
  induction entries generalizing entries' names others outputs outputs' with
  | nil =>
    cases entries' with
    | nil =>
      obtain ⟨-, rfl⟩ := Prod.mk.inj (Except.ok.inj run)
      obtain ⟨-, rfl⟩ := Prod.mk.inj (Except.ok.inj run')
      exact .refl corresponds fun _ => .nil
    | cons entry' rest' => cases keys
  | cons entry rest ih =>
    cases entries' with
    | nil => cases keys
    | cons entry' rest' =>
      obtain ⟨key, value⟩ := entry
      obtain ⟨key', value'⟩ := entry'
      obtain ⟨same, tailKeys⟩ := List.cons.inj keys
      obtain rfl : key = key' := same
      obtain ⟨first, between, tail, head, later, rfl⟩ := normalizeEntries_cons_ok run
      obtain ⟨first', between', tail', head', later', rfl⟩ := normalizeEntries_cons_ok run'
      obtain ⟨same, others⟩ := List.forall₂_cons.mp equal
      obtain ⟨itemRecovered, each⟩ := List.forall_mem_cons.mp each
      obtain ⟨itemProper, proper⟩ := List.forall_mem_cons.mp proper
      obtain ⟨itemProper', proper'⟩ := List.forall_mem_cons.mp proper'
      obtain ⟨itemNoPorts, noPorts⟩ := List.forall_mem_cons.mp noPorts
      obtain ⟨itemNoPorts', noPorts'⟩ := List.forall_mem_cons.mp noPorts'
      have one := itemRecovered value' corresponds
        ⟨itemProper, itemProper', itemNoPorts, itemNoPorts', first, first', head, head', same⟩
      have two := ih each proper noPorts tailKeys proper' noPorts' one.corresponds later later' others
      exact one.trans two fun ρ head tail => .cons ⟨rfl, head⟩ tail

theorem placeholder_explained {entries entries' : JsonDict} {kind raw raw' : Text} {ρ : Renaming}
    (unique : entries.keys.Nodup) (unique' : entries'.keys.Nodup)
    (kinded : placeholderKind? entries = some kind) (kinded' : placeholderKind? entries' = some kind)
    (named : entries.get? "name" = some (.str raw)) (named' : entries'.get? "name" = some (.str raw'))
    (renamed : ρ kind raw = raw') : (rename ρ (.dict entries)).eq (.dict entries') = true := by
  have unfolded : renameDict ρ entries =
      entries.map fun entry => (entry.1, renameName (ρ kind) entry.1 entry.2) := by
    rw [renameDict, kinded]
  have looked : ∀ {d : JsonDict}, placeholderKind? d = some kind →
      d.get? "type" = some (.str kind) ∧ ∀ key : Text, key ≠ "type" → key ≠ "name" → d.get? key = none := by
    intro d is
    obtain ⟨shape, typed, -⟩ := placeholderKind_some.1 is
    constructor
    · rw [JsonDict.find] at typed
      cases held : d.get? "type" with
      | none => rw [held] at typed; cases typed
      | some value => rw [held] at typed; exact congrArg some typed
    · intro key notType notName
      rw [JsonDict.get?_eq_none]
      intro member
      obtain ⟨entry, listed, rfl⟩ := List.mem_map.mp member
      exact (keys_of_kind is listed).elim notType notName
  rw [rename_dict, JsonValue.eq_dict (by rwa [keys_renameDict]) unique']
  intro key
  rw [unfolded, JsonDict.get?_map fun key => renameName (ρ kind) key]
  obtain ⟨typed, absent⟩ := looked kinded
  obtain ⟨typed', absent'⟩ := looked kinded'
  by_cases isType : key = "type"
  · rw [isType, typed, typed']
    exact .some (by simp [renameName, JsonValue.eq])
  · by_cases isName : key = "name"
    · rw [isName, named, named']
      exact .some (by simp [renameName, JsonValue.eq, renamed])
    · rw [absent key isType isName, absent' key isType isName]
      exact .none

theorem run_scalar {value result : JsonValue} (noList : ∀ items, value ≠ .list items)
    (noDict : ∀ entries, value ≠ .dict entries) (noPort : NoPorts field value)
    (run : normalizeSorted names field value.sortKeys = .ok (result, names')) :
    result = value ∧ names' = names := by
  have fixed : value.sortKeys = value := by
    cases value with
    | list items => exact absurd rfl (noList items)
    | dict entries => exact absurd rfl (noDict entries)
    | _ => rfl
  rw [fixed, normalizeSorted_scalar noList noDict noPort] at run
  obtain ⟨rfl, rfl⟩ := Prod.mk.inj (Except.ok.inj run)
  exact ⟨rfl, rfl⟩

theorem run_list {items : List JsonValue} {result : JsonValue}
    (run : normalizeSorted names field (JsonValue.list items).sortKeys = .ok (result, names')) :
    ∃ outputs, normalizeItems names field (items.map JsonValue.sortKeys) = .ok (outputs, names') ∧
      result = .list outputs := by
  rw [sortKeys_list] at run
  exact normalizeSorted_list_ok run

theorem run_dict {result : JsonValue}
    (run : normalizeSorted names field (JsonValue.dict entries).sortKeys = .ok (result, names')) :
    ∃ output, result = .dict output := by
  rcases run_dict_ok run with ⟨kind, raw, -, -, is, -⟩ | ⟨-, output, -, is⟩
  · exact ⟨_, is⟩
  · exact ⟨output, is⟩

theorem placeholderValue_keys (kind name : Text) :
    (JsonDict.keys [JsonDict.entry "type" (.str kind), JsonDict.entry "name" (.str name)]).Nodup := by
  have distinct : [Text.ofString "type", Text.ofString "name"].Nodup := by decide
  exact distinct

theorem placeholderValue_eq {kind kind' name name' : Text}
    (equal : (placeholderValue kind name).eq (placeholderValue kind' name') = true) :
    placeholderValue kind name = placeholderValue kind' name' := by
  have agree := (JsonValue.eq_dict (placeholderValue_keys _ _) (placeholderValue_keys _ _)).mp equal
  have typed : JsonValue.SameEntry (some (.str kind)) (some (.str kind')) := agree "type"
  have named : JsonValue.SameEntry (some (.str name)) (some (.str name')) := agree "name"
  cases typed with
  | some kinds =>
    cases named with
    | some names =>
      obtain rfl := JsonValue.str.inj (eq_str_right kinds)
      obtain rfl := JsonValue.str.inj (eq_str_right names)
      rfl

theorem output_keys {output : JsonDict} (unique : entries.keys.Nodup)
    (run : normalizeEntries names (sortedItems entries) = .ok (output, names')) : output.keys.Nodup := by
  rw [normalizeEntries_keys run, keys_sortedItems]
  exact ((List.perm_insertionSort _ entries).map Prod.fst).nodup_iff.mpr unique

/-- Dicts that are no placeholders are compared item by item. -/
theorem plain_explained {entries entries' outputs outputs' : JsonDict}
    (each : ∀ entry ∈ entries, Recovered entry.2) (plain : placeholderKind? entries = none)
    (proper : (JsonValue.dict entries).Proper) (proper' : (JsonValue.dict entries').Proper)
    (noPorts : NoPorts field (.dict entries)) (noPorts' : NoPorts field (.dict entries'))
    (corresponds : Corresponds names others)
    (run : normalizeEntries names (sortedItems entries) = .ok (outputs, names'))
    (run' : normalizeEntries others (sortedItems entries') = .ok (outputs', others'))
    (equal : (JsonValue.dict outputs).eq (.dict outputs') = true) :
    Explains names others names' others' fun ρ => (rename ρ (.dict entries)).eq (.dict entries') = true := by
  obtain ⟨unique, inner⟩ := JsonValue.proper_dict.1 proper
  obtain ⟨unique', inner'⟩ := JsonValue.proper_dict.1 proper'
  have agree := (JsonValue.eq_dict (output_keys unique run) (output_keys unique' run')).mp equal
  have keys : JsonDict.keys (JsonValue.sortEntries entries) =
      JsonDict.keys (JsonValue.sortEntries entries') := by
    refine sortEntries_keys unique unique' fun key => ?_
    rw [← @mem_keys_sorted entries, ← @mem_keys_sorted entries', ← keys_sortedItems, ← keys_sortedItems,
      ← normalizeEntries_keys run, ← normalizeEntries_keys run', ← JsonDict.contains_iff,
      ← JsonDict.contains_iff, JsonDict.contains, JsonDict.contains, isSome_of_sameEntry (agree key)]
  have outputKeys : outputs.keys = outputs'.keys := by
    rw [normalizeEntries_keys run, normalizeEntries_keys run', keys_sortedItems, keys_sortedItems, keys]
  have member {d : JsonDict} {entry : Text × JsonValue} (listed : entry ∈ JsonValue.sortEntries d) :
      entry ∈ d := (List.perm_insertionSort _ d).mem_iff.mp listed
  refine (entries_explained (fun entry listed => each entry (member listed))
    (fun entry listed => inner entry (member listed))
    (fun entry listed => noPorts_dict.1 noPorts entry (member listed)) keys
    (fun entry listed => inner' entry (member listed))
    (fun entry listed => noPorts_dict.1 noPorts' entry (member listed)) corresponds run run'
    (forall₂_of_lookups outputKeys (output_keys unique run) agree)).imp fun ρ same => ?_
  rw [rename_dict, JsonValue.eq_dict (by rwa [keys_renameDict]) unique']
  intro key
  have related := lookups_of_forall₂ (R := fun x y => (rename ρ x).eq y = true) same key
  rw [JsonDict.get?_sortEntries, JsonDict.get?_sortEntries] at related
  rw [get?_renameDict_none plain]
  generalize entries.get? key = held, JsonDict.get? entries' key = held' at related
  cases related with
  | none => exact .none
  | some equal => exact .some equal

theorem recovered (value : JsonValue) : Recovered value := by
  induction value using JsonValue.parts_induction with
  | scalar value noList noDict =>
    intro names others names' others' field other corresponds twins
    obtain ⟨result, result', run, run', equal⟩ := twins.equal
    obtain ⟨rfl, rfl⟩ := run_scalar noList noDict twins.noPorts run
    obtain ⟨plainList, plainDict⟩ := JsonValue.eq_scalar_left noList noDict equal
    have noList' : ∀ items, other ≠ .list items := by
      rintro items rfl
      obtain ⟨outputs, -, is⟩ := run_list run'
      exact plainList outputs is
    have noDict' : ∀ entries, other ≠ .dict entries := by
      rintro entries rfl
      obtain ⟨output, is⟩ := run_dict run'
      exact plainDict output is
    obtain ⟨rfl, rfl⟩ := run_scalar noList' noDict' twins.noPorts' run'
    exact .refl corresponds fun ρ => by rw [rename_scalar noList noDict]; exact equal
  | list items ih =>
    intro names others names' others' field other corresponds twins
    obtain ⟨result, result', run, run', equal⟩ := twins.equal
    obtain ⟨outputs, inner, rfl⟩ := run_list run
    obtain ⟨outputs', rfl⟩ := JsonValue.eq_list_left equal
    cases other with
    | list items' =>
      obtain ⟨_, inner', is⟩ := run_list run'
      obtain rfl := JsonValue.list.inj is
      refine (items_explained ih (JsonValue.proper_list.mp twins.proper) (noPorts_list.1 twins.noPorts)
        (JsonValue.proper_list.mp twins.proper') (noPorts_list.1 twins.noPorts') corresponds inner inner'
        (JsonValue.eq_list.mp equal)).imp fun ρ same => ?_
      rw [rename_list, JsonValue.eq_list, List.forall₂_map_left_iff]
      exact same
    | dict entries' =>
      obtain ⟨output, is⟩ := run_dict run'
      cases is
    | _ =>
      obtain ⟨is, -⟩ := run_scalar (fun _ => JsonValue.noConfusion) (fun _ => JsonValue.noConfusion)
        twins.noPorts' run'
      cases is
  | dict entries ih =>
    intro names others names' others' field other corresponds twins
    obtain ⟨result, result', run, run', equal⟩ := twins.equal
    obtain ⟨output, is⟩ := run_dict run
    obtain ⟨output', is'⟩ := JsonValue.eq_dict_left (is ▸ equal)
    cases other with
    | list items' =>
      obtain ⟨outputs, -, is⟩ := run_list run'
      cases is.symm.trans is'
    | dict entries' =>
      have unique := (JsonValue.proper_dict.1 twins.proper).1
      have unique' := (JsonValue.proper_dict.1 twins.proper').1
      rcases run_dict_ok run with ⟨kind, raw, kinded, named, rfl, rfl⟩ | ⟨plain, output, inner, rfl⟩ <;>
        rcases run_dict_ok run' with ⟨kind', raw', kinded', named', rfl, rfl⟩ | ⟨plain', output', inner', rfl⟩
      · obtain ⟨rfl, numbers⟩ := idxOf_of_label (placeholderValue_eq equal)
        exact (explains_add corresponds numbers).imp fun ρ renamed =>
          placeholder_explained unique unique' kinded kinded' named named' renamed
      · exfalso
        have agree := (JsonValue.eq_dict (placeholderValue_keys _ _) (output_keys unique' inner')).mp equal
        refine not_placeholder plain' twins.noPorts' inner' (placeholderKind_some.1 kinded).2.2
          (fun key => (isSome_of_sameEntry (agree key)).symm) ?_
        exact sameEntry_str_left (agree "type")
      · exfalso
        have agree := (JsonValue.eq_dict (output_keys unique inner) (placeholderValue_keys _ _)).mp equal
        refine not_placeholder plain twins.noPorts inner (placeholderKind_some.1 kinded').2.2
          (fun key => isSome_of_sameEntry (agree key)) ?_
        exact sameEntry_str_right (agree "type")
      · exact plain_explained ih plain twins.proper twins.proper' twins.noPorts twins.noPorts' corresponds
          inner inner' equal
    | _ =>
      obtain ⟨same, -⟩ := run_scalar (fun _ => JsonValue.noConfusion) (fun _ => JsonValue.noConfusion)
        twins.noPorts' run'
      cases same.symm.trans is'

end recover

end Sippycup.Learn
