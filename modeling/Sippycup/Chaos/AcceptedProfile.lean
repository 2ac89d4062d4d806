import Sippycup.Chaos.NegativeZero

/-! What acceptance of a profile says about the document. -/
namespace Sippycup.Chaos
open Sippycup.Python Sippycup.Ip

def requestedNames (direction : Direction) : List Text := direction.requested.map Text.ofString

/-- The settings of one direction, read from the dict of directions. -/
def ReadsDirection (directions : JsonDict) (name : String) (d : Text × Impairment Decimal) : Prop :=
  d.1 = Text.ofString name ∧ ∃ e, directions.get? name = some (.dict e) ∧ ReadsImpairment e d.2

def ReadsDirections (directions : JsonDict) (names : List String)
    (ds : List (Text × Impairment Decimal)) : Prop :=
  List.Forall₂ (ReadsDirection directions) names ds

theorem normalizeDirections_ok {directions : JsonDict} {names : List String}
    {ds : List (Text × Impairment Decimal)} :
    normalizeDirections directions names = .ok ds ↔ ReadsDirections directions names ds := by
  rw [ReadsDirections]
  induction names generalizing ds with
  | nil =>
    rw [normalizeDirections, List.forall₂_nil_left_iff]
    exact ⟨fun same => (Except.ok.inj same).symm, fun same => congrArg Except.ok same.symm⟩
  | cons name rest ih =>
    simp only [normalizeDirections, bind_ok, pure_ok, JsonDict.item_ok, normalizeImpairment_ok, ih]
    constructor
    · rintro ⟨_, found, i, ⟨e, rfl, reads⟩, others, read, rfl⟩
      exact .cons ⟨rfl, e, found, reads⟩ read
    · rintro (_ | ⟨first, read⟩)
      rename_i d others
      obtain ⟨named, e, found, reads⟩ := first
      exact ⟨_, found, d.2, ⟨e, rfl, reads⟩, others, read, by rw [← named]⟩

theorem ReadsDirections.names {directions : JsonDict} {names : List String}
    {ds : List (Text × Impairment Decimal)} (reads : ReadsDirections directions names ds) :
    ds.map Prod.fst = names.map Text.ofString := by
  induction reads with
  | nil => rfl
  | cons first _ ih => rw [List.map_cons, List.map_cons, ih, first.1]

theorem ReadsDirections.mem {directions : JsonDict} {names : List String}
    {ds : List (Text × Impairment Decimal)} (reads : ReadsDirections directions names ds) :
    ∀ d ∈ ds, ∃ e, directions.get? d.1 = some (.dict e) ∧ ReadsImpairment e d.2 := by
  induction reads with
  | nil => exact fun d absent => nomatch absent
  | cons first _ ih =>
    refine List.forall_mem_cons.mpr ⟨?_, ih⟩
    rw [first.1]
    exact first.2

theorem requested_known (direction : Direction) :
    ∀ name ∈ requestedNames direction, name ∈ directionNames := by
  cases direction <;> decide

theorem readDirection_ok {value : JsonValue} {direction : Direction} :
    readDirection value = .ok direction ↔ value = .str (Text.ofString direction.value) := by
  constructor
  · intro read
    rw [readDirection.eq_def] at read
    cases value with
    | str t =>
      simp only at read
      split at read
      · rename_i found
        obtain rfl := Except.ok.inj read
        have named := List.find?_some found
        exact congrArg JsonValue.str (of_decide_eq_true named).symm
      · cases read
    | _ => cases read
  · rintro rfl
    cases direction <;> rfl

/-- The parts of a profile that passed every check. -/
structure ReadsProfile (isAlnum : Nat → Bool) (document : JsonDict) (n : NormalizedProfile) :
    Prop where
  keys : ∀ k ∈ document.keys, k ∈ profileKeys
  version : document.get? "apiVersion" = some (.str profileVersion)
  kind : document.get? "kind" = some (.str "ChaosProfile")
  metadata : document.get? "metadata" = some (.dict n.metadata)
  metadataKeys : ∀ k ∈ n.metadata.keys, k ∈ (["name", "description"] : List Text)
  name : n.metadata.get? "name" = some (.str n.name)
  identifier : identifierOk isAlnum n.name = true
  description : checkDescription n.metadata = .ok ()
  seed : document.get? "seed" = some (.int n.seed)
  seedBound : 1 ≤ n.seed ∧ n.seed ≤ 2147483647
  duration : document.get? "durationSeconds" = some (.int n.durationSeconds)
  durationBound : 1 ≤ n.durationSeconds ∧ n.durationSeconds ≤ 3600
  direction : document.get? "direction" = some (.str (Text.ofString n.direction.value))
  directions : ∃ directions : JsonDict, document.get? "directions" = some (.dict directions) ∧
    (∀ k ∈ directions.keys, k ∈ requestedNames n.direction) ∧
      ReadsDirections directions n.direction.requested n.directions
  symmetric : checkSymmetry n.direction n.directions = .ok ()

theorem readName_ok {isAlnum : Nat → Bool} {metadata : JsonDict} {name : Text} :
    readName isAlnum metadata = .ok name ↔
      metadata.get? "name" = some (.str name) ∧ identifierOk isAlnum name = true := by
  simp only [readName, bind_ok, JsonDict.item_ok]
  constructor
  · rintro ⟨value, found, read⟩
    split at read
    · simp only [bind_ok, refuse_ok, pure_ok, Bool.not_eq_false', exists_const] at read
      obtain ⟨safe, rfl⟩ := read
      exact ⟨found, safe⟩
    · cases read
  · rintro ⟨found, safe⟩
    refine ⟨_, found, ?_⟩
    simp [safe, refuse, pure, Except.pure]

theorem requested_all {directions : JsonDict} {direction : Direction} :
    (directions.keys.all fun key => direction.requested.any fun name => Text.ofString name = key) =
        true ↔
      ∀ k ∈ directions.keys, k ∈ requestedNames direction := by
  simp [List.all_eq_true, List.any_eq_true, requestedNames]

theorem validateProfile_ok {isAlnum : Nat → Bool} {profile : JsonValue} {n : NormalizedProfile} :
    validateProfile isAlnum profile = .ok n ↔
      ∃ document, profile = .dict document ∧ ReadsProfile isAlnum document n := by
  simp only [validateProfile, bind_ok, pure_ok, expectMapping_ok, exactKeys_ok, refuse_ok,
    Bool.not_eq_false', find_isText, JsonDict.item_ok, readName_ok, integer_ok, readDirection_ok,
    normalizeDirections_ok, exists_const, requested_all]
  constructor
  · rintro ⟨document, rfl, ⟨keys, -⟩, version, kind, _, foundMetadata, metadata, rfl,
      ⟨metadataKeys, -⟩, name, ⟨foundName, identifier⟩, ⟨⟩, description, _, foundSeed, seed,
      ⟨rfl, seedBound⟩, _, foundDuration, duration, ⟨rfl, durationBound⟩, _, foundDirection,
      direction, rfl, _, foundDirections, directions, rfl, -, -, requested, ds, reads, ⟨⟩,
      symmetric, rfl⟩
    exact ⟨document, rfl, keys, version, kind, foundMetadata, metadataKeys, foundName, identifier,
      description, foundSeed, seedBound, foundDuration, durationBound, foundDirection,
      ⟨directions, foundDirections, requested, reads⟩, symmetric⟩
  · rintro ⟨document, rfl, reads⟩
    obtain ⟨directions, foundDirections, requested, read⟩ := reads.directions
    refine ⟨document, rfl, ⟨reads.keys, ?_⟩, reads.version, reads.kind, _, reads.metadata,
      n.metadata, rfl, ⟨reads.metadataKeys, ?_⟩, n.name, ⟨reads.name, reads.identifier⟩, (),
      reads.description, _, reads.seed, n.seed, ⟨rfl, reads.seedBound⟩, _, reads.duration,
      n.durationSeconds, ⟨rfl, reads.durationBound⟩, _, reads.direction, n.direction, rfl, _,
      foundDirections, directions, rfl, ?_, ?_, requested, n.directions, read, (),
      reads.symmetric, rfl⟩
    · simp [profileKeys, JsonDict.contains, reads.version, reads.kind, reads.metadata, reads.seed,
        reads.duration, reads.direction, foundDirections]
    · simp [JsonDict.contains, reads.name]
    · rw [List.all_eq_true]
      intro key member
      exact List.contains_iff_mem.mpr (requested_known _ key (requested key member))
    · rw [List.all_eq_true]
      intro name member
      have named : Text.ofString name ∈ n.directions.map Prod.fst := by
        rw [read.names]
        exact List.mem_map_of_mem member
      obtain ⟨d, inside, same⟩ := List.mem_map.mp named
      obtain ⟨e, found, -⟩ := read.mem d inside
      rw [same] at found
      simp [JsonDict.contains, found]

/-- The value at a path of keys. -/
def valueAt : JsonValue → List Text → Option JsonValue
  | value, [] => some value
  | .dict entries, key :: rest => (JsonDict.get? entries key).bind fun value => valueAt value rest
  | _, _ :: _ => none

/-- Some percentage or delay of the profile is the float `-0.0`. -/
def SetsNegativeZero (profile : JsonValue) : Prop :=
  ∃ direction group key : Text,
    valueAt profile ["directions", direction, group, key] = some negativeZero

theorem valueAt_eq {value result : JsonValue} {key : Text} {rest : List Text} :
    valueAt value (key :: rest) = some result ↔
      ∃ (d : JsonDict) (next : JsonValue), value = .dict d ∧ d.get? key = some next ∧ valueAt next rest = some result := by
  cases value with
  | dict entries => simp [valueAt, Option.bind_eq_some_iff]
  | _ => simp [valueAt]

theorem setsNegativeZero_iff {isAlnum : Nat → Bool} {document : JsonDict} {n : NormalizedProfile}
    (reads : ReadsProfile isAlnum document n) :
    SetsNegativeZero (.dict document) ↔
      ∃ d ∈ n.directions, ∃ x ∈ d.2.numbers, x.IsNegativeZero := by
  obtain ⟨directions, foundDirections, requested, read⟩ := reads.directions
  constructor
  · rintro ⟨direction, group, key, set⟩
    obtain ⟨_, _, same, found, set⟩ := valueAt_eq.1 set
    obtain rfl := JsonValue.dict.inj same
    obtain rfl := Option.some.inj (foundDirections.symm.trans found)
    obtain ⟨_, _, same, found, set⟩ := valueAt_eq.1 set
    obtain rfl := JsonValue.dict.inj same
    obtain ⟨e, settings, rfl, foundGroup, set⟩ := valueAt_eq.1 set
    obtain ⟨f, value, rfl, held, set⟩ := valueAt_eq.1 set
    obtain rfl := Option.some.inj set
    have named := requested direction (JsonDict.mem_keys_of_get? found)
    rw [requestedNames, ← read.names] at named
    obtain ⟨d, member, rfl⟩ := List.mem_map.mp named
    obtain ⟨e', found', inside⟩ := read.mem d member
    obtain rfl := JsonValue.dict.inj (Option.some.inj (found.symm.trans found'))
    exact ⟨d, member, inside.zero.mp ⟨group, f, foundGroup, key, held⟩⟩
  · rintro ⟨d, member, zero⟩
    obtain ⟨e, found, inside⟩ := read.mem d member
    obtain ⟨group, f, foundGroup, key, held⟩ := inside.zero.mpr zero
    refine ⟨d.1, group, key, ?_⟩
    refine valueAt_eq.2 ⟨_, _, rfl, foundDirections, ?_⟩
    refine valueAt_eq.2 ⟨_, _, rfl, found, ?_⟩
    refine valueAt_eq.2 ⟨_, _, rfl, foundGroup, ?_⟩
    exact valueAt_eq.2 ⟨_, _, rfl, held, rfl⟩

end Sippycup.Chaos
