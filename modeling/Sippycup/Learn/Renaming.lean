import Sippycup.Learn.Normalize

/-! Renaming placeholders, each kind by a map of its own: numbering by first use
does not see it as long as no two names of a kind are merged. -/
namespace Sippycup.Learn
open Sippycup.Python

abbrev Renaming := Text → Text → Text

/-- Kind of a typed placeholder, whatever its name is. -/
def placeholderKind? (entries : JsonDict) : Option Text :=
  if placeholderShape entries then
    match entries.find "type" with
    | .str kind => if kind ∈ placeholderTypes then some kind else none
    | _ => none
  else none

def renameName (f : Text → Text) (key : Text) : JsonValue → JsonValue
  | .str raw => if key = "name" then .str (f raw) else .str raw
  | value => value

mutual
@[grind =] def rename (ρ : Renaming) : JsonValue → JsonValue
  | .list items => .list (renameItems ρ items)
  | .dict entries => .dict (match placeholderKind? entries with
    | some kind => entries.map fun entry => (entry.1, renameName (ρ kind) entry.1 entry.2)
    | none => renameEntries ρ entries)
  | value => value

@[grind =] def renameItems (ρ : Renaming) : List JsonValue → List JsonValue
  | [] => []
  | item :: rest => rename ρ item :: renameItems ρ rest

@[grind =] def renameEntries (ρ : Renaming) : List (Text × JsonValue) → List (Text × JsonValue)
  | [] => []
  | (key, value) :: rest => (key, rename ρ value) :: renameEntries ρ rest
end

def renameDict (ρ : Renaming) (entries : JsonDict) : JsonDict :=
  match placeholderKind? entries with
  | some kind => entries.map fun entry => (entry.1, renameName (ρ kind) entry.1 entry.2)
  | none => entries.map fun entry => (entry.1, rename ρ entry.2)

mutual
/-- Kind and name of every placeholder. -/
@[grind =] def placeholders : JsonValue → List (Text × Text)
  | .list items => placeholdersItems items
  | .dict entries =>
    match placeholderKind? entries with
    | some kind => (JsonDict.find entries "name").text?.toList.map fun raw => (kind, raw)
    | none => placeholdersEntries entries
  | _ => []

@[grind =] def placeholdersItems : List JsonValue → List (Text × Text)
  | [] => []
  | item :: rest => placeholders item ++ placeholdersItems rest

@[grind =] def placeholdersEntries : List (Text × JsonValue) → List (Text × Text)
  | [] => []
  | (_, value) :: rest => placeholders value ++ placeholdersEntries rest
end

section shapes
variable {ρ : Renaming} {entries : JsonDict} {kind : Text}

theorem renameItems_eq (items : List JsonValue) : renameItems ρ items = items.map (rename ρ) := by
  induction items with
  | nil => rfl
  | cons item rest ih => rw [renameItems, ih, List.map_cons]

theorem renameEntries_eq (entries : JsonDict) :
    renameEntries ρ entries = entries.map fun entry => (entry.1, rename ρ entry.2) := by
  induction entries with
  | nil => rfl
  | cons entry rest ih =>
    obtain ⟨key, value⟩ := entry
    rw [renameEntries, ih, List.map_cons]

@[simp] theorem rename_list (items : List JsonValue) :
    rename ρ (.list items) = .list (items.map (rename ρ)) := by
  rw [rename, renameItems_eq]

@[simp] theorem rename_dict (entries : JsonDict) :
    rename ρ (.dict entries) = .dict (renameDict ρ entries) := by
  rw [rename, renameDict]
  cases placeholderKind? entries with
  | none => exact congrArg JsonValue.dict (renameEntries_eq entries)
  | some kind => rfl

theorem rename_scalar {value : JsonValue} (noList : ∀ items, value ≠ .list items)
    (noDict : ∀ entries, value ≠ .dict entries) : rename ρ value = value := by
  cases value with
  | list items => exact absurd rfl (noList items)
  | dict entries => exact absurd rfl (noDict entries)
  | _ => rfl

theorem placeholdersItems_eq (items : List JsonValue) :
    placeholdersItems items = items.flatMap placeholders := by
  induction items with
  | nil => rfl
  | cons item rest ih => rw [placeholdersItems, ih, List.flatMap_cons]

theorem placeholdersEntries_eq (entries : JsonDict) :
    placeholdersEntries entries = entries.flatMap fun entry => placeholders entry.2 := by
  induction entries with
  | nil => rfl
  | cons entry rest ih =>
    obtain ⟨key, value⟩ := entry
    rw [placeholdersEntries, ih, List.flatMap_cons]

theorem keys_renameDict (entries : JsonDict) : (renameDict ρ entries).keys = entries.keys := by
  unfold renameDict
  split <;> simp [JsonDict.keys, Function.comp_def]

theorem contains_renameDict (entries : JsonDict) (key : Text) :
    (renameDict ρ entries).contains key = entries.contains key := by
  rw [Bool.eq_iff_iff, JsonDict.contains_iff, JsonDict.contains_iff, keys_renameDict]

theorem shape_renameDict (entries : JsonDict) :
    placeholderShape (renameDict ρ entries) = placeholderShape entries := by
  rw [placeholderShape, placeholderShape, contains_renameDict, contains_renameDict, keys_renameDict]

theorem placeholderKind_some :
    placeholderKind? entries = some kind ↔
      placeholderShape entries = true ∧ entries.find "type" = .str kind ∧ kind ∈ placeholderTypes := by
  unfold placeholderKind?
  split
  · rename_i shape
    split
    · rename_i other is
      rw [Option.ite_none_right_eq_some, Option.some.injEq, is, JsonValue.str.injEq]
      constructor
      · rintro ⟨known, rfl⟩
        exact ⟨shape, rfl, known⟩
      · rintro ⟨-, rfl, known⟩
        exact ⟨known, rfl⟩
    · rename_i other
      constructor
      · rintro ⟨⟩
      · rintro ⟨-, is, -⟩
        exact absurd is (other kind)
  · rename_i other
    constructor
    · rintro ⟨⟩
    · rintro ⟨shape, -⟩
      exact absurd shape other

theorem placeholderKind_renameDict (entries : JsonDict) :
    placeholderKind? (renameDict ρ entries) = placeholderKind? entries := by
  refine Option.ext fun kind => ?_
  rw [placeholderKind_some, placeholderKind_some, shape_renameDict]
  refine and_congr_right fun shape => and_congr_left fun known => ?_
  rw [renameDict]
  split
  · rw [JsonDict.find_map (f := fun key => renameName _ key) "type" rfl]
    cases JsonDict.find entries "type" <;> simp [renameName]
  · rw [JsonDict.find_map (f := fun _ => rename ρ) "type" rfl]
    cases JsonDict.find entries "type" <;> simp [rename]

/-- A field that no placeholder has is renamed as a document of its own. -/
theorem get?_renameDict {key : Text} (notType : key ≠ "type") (notName : key ≠ "name") :
    (renameDict ρ entries).get? key = (entries.get? key).map (rename ρ) := by
  rw [renameDict]
  split
  · rename_i kind is
    obtain ⟨shape, -, -⟩ := placeholderKind_some.1 is
    have absent : entries.get? key = none := by
      simp only [placeholderShape, Bool.and_eq_true, List.all_eq_true, Bool.or_eq_true,
        decide_eq_true_eq] at shape
      rw [JsonDict.get?_eq_none]
      intro member
      rcases shape.2 key member with rfl | rfl
      · exact notType rfl
      · exact notName rfl
    rw [JsonDict.get?_map, absent]
    rfl
  · exact JsonDict.get?_map (fun _ => rename ρ) key

theorem find_renameDict {key : Text} (notType : key ≠ "type") (notName : key ≠ "name") :
    (renameDict ρ entries).find key = rename ρ (entries.find key) := by
  rw [JsonDict.find, get?_renameDict notType notName, JsonDict.find]
  cases entries.get? key <;> rfl

theorem plain_of_absent (absent : entries.contains "type" = false) : placeholderKind? entries = none := by
  rw [placeholderKind?, placeholderShape, absent]
  rfl

theorem get?_renameDict_none {key : Text} (plain : placeholderKind? entries = none) :
    (renameDict ρ entries).get? key = (entries.get? key).map (rename ρ) := by
  rw [renameDict, plain]
  exact JsonDict.get?_map (fun _ => rename ρ) key

theorem find_renameDict_name (is : placeholderKind? entries = some kind) :
    (renameDict ρ entries).find "name" = renameName (ρ kind) "name" (entries.find "name") := by
  rw [renameDict, is]
  exact JsonDict.find_map (f := fun key => renameName (ρ kind) key) "name" rfl

end shapes

section placeholder
variable {ρ : Renaming} {entries : JsonDict} {kind : Text}

theorem inSet_rename (value : JsonValue) (names : List Text) :
    ((rename ρ value).inSet names : Result Bool) = value.inSet names := by
  cases value <;> simp [JsonValue.inSet, rename, JsonValue.hashable, JsonValue.isText]

theorem placeholder_of_kind (is : placeholderKind? entries = some kind) :
    placeholder? entries = match entries.find "name" with
      | .str raw => .ok (some (kind, raw))
      | _ => fail "schema" "placeholder name must be a string" := by
  obtain ⟨shape, typed, known⟩ := placeholderKind_some.1 is
  have inside : ((JsonValue.str kind).inSet placeholderTypes : Result Bool) = .ok true := by
    simp only [JsonValue.inSet, JsonValue.hashable, if_true, Except.ok.injEq, List.any_eq_true]
    exact ⟨kind, known, by simp⟩
  rw [placeholder?, if_pos shape, typed, inside, ok_bind, if_pos rfl]
  cases JsonDict.find entries "name" <;> rfl

/-- Otherwise there is no placeholder, or its type cannot be looked up. -/
theorem placeholder_of_plain (plain : placeholderKind? entries = none) :
    (placeholder? entries = .ok none ∨ ∃ raised, placeholder? entries = .error raised) ∧
      placeholder? (renameDict ρ entries) = placeholder? entries := by
  have typed : (renameDict ρ entries).find "type" = rename ρ (entries.find "type") := by
    rw [JsonDict.find, get?_renameDict_none plain, JsonDict.find]
    cases entries.get? "type" <;> rfl
  unfold placeholder?
  rw [shape_renameDict, typed, inSet_rename]
  split
  · rename_i shape
    rcases looked : ((entries.find "type").inSet placeholderTypes : Result Bool) with raised | known
    · exact ⟨.inr ⟨raised, rfl⟩, rfl⟩
    · cases known with
      | false => exact ⟨.inl rfl, rfl⟩
      | true =>
        -- A type that is known makes the dict a placeholder.
        exfalso
        unfold JsonValue.inSet at looked
        split at looked
        · obtain ⟨kind, known, same⟩ := List.any_eq_true.mp (Except.ok.inj looked)
          have is := placeholderKind_some.2 ⟨shape, JsonValue.isText_iff.1 same, known⟩
          rw [plain] at is
          cases is
        · cases looked
  · exact ⟨.inl rfl, rfl⟩

end placeholder

section numbering

/-- Every name of a kind is within a scope. -/
def Names.Within (scope : Text → Text → Prop) (names : Names) : Prop :=
  ∀ kind, ∀ raw ∈ names kind, scope kind raw

def Names.renamed (ρ : Renaming) (names : Names) : Names := fun kind => (names kind).map (ρ kind)

/-- No two names of a kind in a scope are merged. -/
def InjectiveOn (scope : Text → Text → Prop) (ρ : Renaming) : Prop :=
  ∀ kind a b, scope kind a → scope kind b → ρ kind a = ρ kind b → a = b

variable {scope : Text → Text → Prop} {ρ : Renaming} {names : Names} {kind raw : Text}

theorem mem_map_renamed (injective : InjectiveOn scope ρ) (within : names.Within scope)
    (inside : scope kind raw) : ρ kind raw ∈ (names kind).map (ρ kind) ↔ raw ∈ names kind := by
  rw [List.mem_map]
  constructor
  · rintro ⟨other, member, same⟩
    exact injective kind other raw (within kind other member) inside same ▸ member
  · intro member
    exact ⟨raw, member, rfl⟩

theorem idxOf_map_renamed (injective : InjectiveOn scope ρ) (inside : scope kind raw) {xs : List Text}
    (within : ∀ x ∈ xs, scope kind x) : (xs.map (ρ kind)).idxOf (ρ kind raw) = xs.idxOf raw := by
  induction xs with
  | nil => rfl
  | cons x rest ih =>
    obtain ⟨first, others⟩ := List.forall_mem_cons.mp within
    rw [List.map_cons, List.idxOf_cons, List.idxOf_cons, ih others]
    by_cases same : x = raw
    · rw [same, beq_self_eq_true, beq_self_eq_true]
    · have apart : ρ kind x ≠ ρ kind raw := fun equal => same (injective kind x raw first inside equal)
      rw [beq_false_of_ne same, beq_false_of_ne apart]

theorem label_renamed (injective : InjectiveOn scope ρ) (within : names.Within scope)
    (inside : scope kind raw) :
    (names.renamed ρ).label kind (ρ kind raw) = names.label kind raw := by
  rw [Names.label, Names.label, Names.renamed, idxOf_map_renamed injective inside (within kind)]

theorem add_renamed (injective : InjectiveOn scope ρ) (within : names.Within scope)
    (inside : scope kind raw) :
    (names.renamed ρ).add kind (ρ kind raw) = (names.add kind raw).renamed ρ := by
  have member : ρ kind raw ∈ names.renamed ρ kind ↔ raw ∈ names kind :=
    mem_map_renamed injective within inside
  unfold Names.add
  simp only [member]
  split
  · rfl
  · funext other
    by_cases same : other = kind
    · subst same
      simp [Names.renamed]
    · simp [Names.renamed, Function.update_of_ne same]

theorem add_within (within : names.Within scope) (inside : scope kind raw) :
    (names.add kind raw).Within scope := by
  unfold Names.add
  split
  · exact within
  · intro other name member
    by_cases same : other = kind
    · subst same
      rw [Function.update_self] at member
      rcases List.mem_append.mp member with old | new
      · exact within other name old
      · rw [List.mem_singleton.mp new]
        exact inside
    · rw [Function.update_of_ne same] at member
      exact within other name member

/-- A second computation that differs from the first in its names only, which it renames. -/
def Mirrors {α : Type} (scope : Text → Text → Prop) (ρ : Renaming)
    (first second : Result (α × Names)) : Prop :=
  match first with
  | .ok (value, names) => names.Within scope ∧ second = .ok (value, names.renamed ρ)
  | .error raised => second = .error raised

theorem mirrors_bind {α β : Type} {first second : Result (α × Names)}
    {f g : α × Names → Result (β × Names)} (mirrors : Mirrors scope ρ first second)
    (next : ∀ value names, Names.Within scope names →
      Mirrors scope ρ (f (value, names)) (g (value, names.renamed ρ))) :
    Mirrors scope ρ (first >>= f) (second >>= g) := by
  unfold Mirrors at mirrors
  split at mirrors
  · obtain ⟨within, rfl⟩ := mirrors
    exact next _ _ within
  · subst mirrors
    rfl

/-- What follows may use the names, as long as it does not see the renaming. -/
theorem mirrors_run {α β : Type} {first second : Result (α × Names)} {f g : α × Names → Result β}
    (mirrors : Mirrors scope ρ first second)
    (next : ∀ value names, Names.Within scope names →
      g (value, names.renamed ρ) = f (value, names)) :
    (second >>= g) = (first >>= f) := by
  unfold Mirrors at mirrors
  split at mirrors
  · obtain ⟨within, rfl⟩ := mirrors
    exact next _ _ within
  · subst mirrors
    rfl

theorem mirrors_pure {α : Type} (within : names.Within scope) (value : α) :
    Mirrors scope ρ (pure (value, names)) (pure (value, names.renamed ρ)) := ⟨within, rfl⟩

end numbering

section normalize
variable {scope : Text → Text → Prop} {ρ : Renaming}

/-- Names of a document are within a scope. -/
def InScope (scope : Text → Text → Prop) (value : JsonValue) : Prop :=
  ∀ entry ∈ placeholders value, scope entry.1 entry.2

theorem inScope_list {items : List JsonValue} :
    InScope scope (.list items) ↔ ∀ item ∈ items, InScope scope item := by
  simp only [InScope, placeholders, placeholdersItems_eq, List.mem_flatMap]
  constructor
  · exact fun all item member entry inside => all entry ⟨item, member, inside⟩
  · rintro each entry ⟨item, member, inside⟩
    exact each item member entry inside

theorem inScope_plain {entries : JsonDict} (plain : placeholderKind? entries = none) :
    InScope scope (.dict entries) ↔ ∀ entry ∈ entries, InScope scope entry.2 := by
  simp only [InScope, placeholders, plain, placeholdersEntries_eq, List.mem_flatMap]
  constructor
  · exact fun all item member entry inside => all entry ⟨item, member, inside⟩
  · rintro each entry ⟨item, member, inside⟩
    exact each item member entry inside

theorem inScope_placeholder {entries : JsonDict} {kind raw : Text}
    (is : placeholderKind? entries = some kind) (named : entries.find "name" = .str raw) :
    InScope scope (.dict entries) ↔ scope kind raw := by
  simp [InScope, placeholders, is, named, JsonValue.text?]

theorem normalizeItems_mirrors (field : Text) {items : List JsonValue}
    (each : ∀ item ∈ items, ∀ names, Names.Within scope names → ∀ field,
      Mirrors scope ρ (normalizeSorted names field item)
        (normalizeSorted (names.renamed ρ) field (rename ρ item)))
    {names : Names} (within : names.Within scope) :
    Mirrors scope ρ (normalizeItems names field items)
      (normalizeItems (names.renamed ρ) field (items.map (rename ρ))) := by
  induction items generalizing names with
  | nil => exact mirrors_pure within _
  | cons item rest ih =>
    obtain ⟨head, tail⟩ := List.forall_mem_cons.mp each
    rw [List.map_cons, normalizeItems, normalizeItems]
    refine mirrors_bind (head names within field) fun first names within => ?_
    refine mirrors_bind (ih tail within) fun others names within => ?_
    exact mirrors_pure within _

theorem normalizeEntries_mirrors {entries : JsonDict}
    (each : ∀ entry ∈ entries, ∀ names, Names.Within scope names → ∀ field,
      Mirrors scope ρ (normalizeSorted names field entry.2)
        (normalizeSorted (names.renamed ρ) field (rename ρ entry.2)))
    {names : Names} (within : names.Within scope) :
    Mirrors scope ρ (normalizeEntries names entries)
      (normalizeEntries (names.renamed ρ) (entries.map fun entry => (entry.1, rename ρ entry.2))) := by
  induction entries generalizing names with
  | nil => exact mirrors_pure within _
  | cons entry rest ih =>
    obtain ⟨head, tail⟩ := List.forall_mem_cons.mp each
    rw [List.map_cons, normalizeEntries, normalizeEntries]
    refine mirrors_bind (head names within entry.1) fun first names within => ?_
    refine mirrors_bind (ih tail within) fun others names within => ?_
    exact mirrors_pure within _

/-- The renamed document is normalized to the same, and its names are the renamed ones. -/
theorem normalizeSorted_mirrors (injective : InjectiveOn scope ρ) :
    ∀ value, InScope scope value → ∀ names, Names.Within scope names → ∀ field,
      Mirrors scope ρ (normalizeSorted names field value)
        (normalizeSorted (names.renamed ρ) field (rename ρ value)) := by
  intro value
  induction value using JsonValue.parts_induction with
  | scalar value noList noDict =>
    intro _ names within field
    rw [rename_scalar noList noDict]
    cases value with
    | list items => exact absurd rfl (noList items)
    | dict entries => exact absurd rfl (noDict entries)
    | _ => exact mirrors_pure within _
  | list items ih =>
    intro inside names within field
    have each := inScope_list.1 inside
    rw [rename_list, normalizeSorted, normalizeSorted]
    refine mirrors_bind (normalizeItems_mirrors field (fun item member =>
      ih item member (each item member)) within) fun items names within => ?_
    exact mirrors_pure within _
  | dict entries ih =>
    intro inside names within field
    rw [rename_dict, normalizeSorted, normalizeSorted]
    rcases kinded : placeholderKind? entries with _ | kind
    · obtain ⟨outcome, same⟩ := placeholder_of_plain (ρ := ρ) kinded
      rw [same]
      rcases outcome with none | ⟨raised, error⟩
      · rw [none, ok_bind, ok_bind, renameDict, kinded]
        have each := (inScope_plain kinded).mp inside
        refine mirrors_bind (normalizeEntries_mirrors (fun entry member =>
          ih entry member (each entry member)) within) fun entries names within => ?_
        exact mirrors_pure within _
      · rw [error]
        rfl
    · rw [placeholder_of_kind kinded,
        placeholder_of_kind ((placeholderKind_renameDict entries).trans kinded),
        find_renameDict_name kinded]
      rcases named : JsonDict.find entries "name" with _ | _ | _ | _ | raw | _ | _
      case str =>
        have inner := (inScope_placeholder kinded named).mp inside
        simp only [renameName, if_true, ok_bind]
        rw [label_renamed injective within inner, add_renamed injective within inner]
        exact mirrors_pure (add_within within inner) _
      all_goals rfl

end normalize

end Sippycup.Learn
