import Sippycup.Evidence.Pack
import Sippycup.Machine.HashChain
import Sippycup.Machine.Pointwise

/-! Verified packs: what an archive without errors holds, and that its content
identity determines the artifacts. -/
namespace Sippycup.Evidence
open Sippycup.Python Sippycup.Ip Sippycup.Machine

section names

/-- A relative path without dot segments, control characters and backslashes. -/
structure SafeName (t : Text) : Prop where
  parts : ∀ part ∈ t.codes.splitOn slash, part ≠ [] ∧ part ≠ [dot] ∧ part ≠ [dot, dot]
  codes : ∀ code ∈ t.codes, 32 ≤ code ∧ code ≠ 92 ∧ code ≠ 127

theorem isSafe_iff {t : Text} : isSafe t = true ↔ SafeName t := by
  rw [isSafe, Bool.and_eq_true, List.all_eq_true, List.all_eq_true]
  constructor
  · rintro ⟨codes, parts⟩
    refine ⟨fun part member => ?_, fun code member => ?_⟩
    · have one := parts part member
      rw [isSafePart, Bool.not_eq_true', decide_eq_false_iff_not, not_or, not_or] at one
      exact one
    · have one := codes code member
      rw [isSafeCode, Bool.not_eq_true', decide_eq_false_iff_not, not_or, not_or] at one
      exact ⟨Nat.le_of_not_lt one.2.1, one.1, one.2.2⟩
  · rintro ⟨parts, codes⟩
    refine ⟨fun code member => ?_, fun part member => ?_⟩
    · obtain ⟨printed, slash, delete⟩ := codes code member
      rw [isSafeCode, Bool.not_eq_true', decide_eq_false_iff_not, not_or, not_or]
      exact ⟨slash, Nat.not_lt.2 printed, delete⟩
    · rw [isSafePart, Bool.not_eq_true', decide_eq_false_iff_not, not_or, not_or]
      exact parts part member

theorem safeRelative_ok {value : JsonValue} {t : Text} (ok : safeRelative value = .ok t) :
    value = .str t ∧ SafeName t := by
  unfold safeRelative at ok
  split at ok
  · split at ok
    · rename_i u safe
      cases ok
      have named := isSafe_iff.1 safe
      have same : asPosix u.codes = u.codes :=
        asPosix_self fun part member => ⟨(named.parts part member).1, (named.parts part member).2.1⟩
      rw [same]
      exact ⟨rfl, named⟩
    · cases ok
  · cases ok

end names

section checks

theorem memberErrors_nil {names : List Text} {members : List Member} (none_ : memberErrors names members = []) :
    (∀ m ∈ members, m.isFile = true ∧ SafeName m.name ∧ m.name ∉ names) ∧
      (members.map Member.name).Nodup := by
  induction members generalizing names with
  | nil => exact ⟨fun _ member => absurd member List.not_mem_nil, List.nodup_nil⟩
  | cons m rest ih =>
    rw [memberErrors] at none_
    split at none_
    · cases none_
    · rename_i name safe
      obtain ⟨same, named⟩ := safeRelative_ok safe
      obtain rfl := JsonValue.str.inj same
      simp only [List.append_eq_nil_iff, require_nil, decide_eq_true_eq] at none_
      obtain ⟨⟨⟨fresh, file⟩, -⟩, later⟩ := none_
      obtain ⟨each, distinct⟩ := ih later
      refine ⟨List.forall_mem_cons.mpr ⟨⟨file, named, fresh⟩, fun m member => ?_⟩, ?_⟩
      · obtain ⟨file, named, other⟩ := each m member
        exact ⟨file, named, fun inside => other (List.mem_cons_of_mem _ inside)⟩
      · refine List.nodup_cons.mpr ⟨fun inside => ?_, distinct⟩
        obtain ⟨other, member, same⟩ := List.mem_map.mp inside
        exact (each other member).2.2 (same ▸ List.mem_cons_self)

theorem manifestFromArchive_ok {members : List Member} {d : JsonDict}
    (ok : manifestFromArchive members = .ok (some d, [])) :
    (∃ m raw, m ∈ members ∧ m.name = packName ∧ m.content = .ok raw ∧ Json.loadsBytes raw = .ok (.dict d)) ∧
      memberErrors [] members = [] ∧ packErrors d members = [] := by
  unfold manifestFromArchive at ok
  dsimp only at ok
  split at ok
  · rename_i m found
    split at ok
    · cases ok
    split at ok
    · cases ok
    obtain ⟨raw, read, ok⟩ := bind_ok.mp ok
    have inside : m ∈ members.filter fun m => decide (m.name = Text.ofString packName) :=
      found ▸ List.mem_singleton.mpr rfl
    obtain ⟨member, named⟩ := List.mem_filter.mp inside
    split at ok
    · cases ok
    · cases ok
    · rename_i entries loaded
      split at ok
      · obtain ⟨rfl, none_⟩ := Prod.mk.inj (pure_ok.mp ok) |>.imp Option.some.inj id
        obtain ⟨first, second⟩ := List.append_eq_nil_iff.mp none_
        exact ⟨⟨m, raw, member, of_decide_eq_true named, read, loaded⟩, first, second⟩
      · cases ok
    · cases ok
  · cases ok

theorem inspect_ok {members : List Member} {d : JsonDict} (ok : inspect members = .ok (some d, [])) :
    manifestFromArchive members = .ok (some d, []) ∧ ∃ artifacts, d.find "artifacts" = .list artifacts ∧
      artifactErrors d artifacts members = .ok [] := by
  unfold inspect at ok
  split at ok
  · cases ok
  obtain ⟨⟨manifest, errors⟩, first, ok⟩ := bind_ok.mp ok
  cases manifest with
  | none => cases ok
  | some found =>
    dsimp only at ok
    split at ok
    · rename_i artifacts listed
      obtain ⟨more, second, ok⟩ := bind_ok.mp ok
      obtain ⟨same, none_⟩ := Prod.mk.inj (pure_ok.mp ok)
      obtain rfl := Option.some.inj same
      obtain ⟨rfl, rfl⟩ := List.append_eq_nil_iff.mp none_
      exact ⟨first, artifacts, listed, second⟩
    · obtain ⟨-, none_⟩ := Prod.mk.inj (pure_ok.mp ok)
      exact absurd none_ (List.append_ne_nil_of_right_ne_nil _ (List.cons_ne_nil _ _))

theorem verifyContent_ok {archive : Reading (List Member)} {d : JsonDict}
    (ok : verifyContent archive = .ok (some d, [])) :
    ∃ members, archive = .ok members ∧ inspect members = .ok (some d, []) := by
  unfold verifyContent at ok
  split at ok
  · rename_i manifest errors whole
    obtain ⟨members, listed, inspected⟩ := bind_ok.mp whole
    obtain ⟨rfl, none_⟩ := Prod.mk.inj (Except.ok.inj ok)
    have nothing : errors = [] := by
      have perm : (sortTexts errors.dedup).Perm errors.dedup := List.perm_insertionSort _ _
      rw [none_] at perm
      cases errors with
      | nil => rfl
      | cons e rest =>
        have inside : e ∈ (e :: rest).dedup := List.mem_dedup.mpr List.mem_cons_self
        rw [perm.nil_eq.symm] at inside
        cases inside
    exact ⟨members, listed, nothing ▸ inspected⟩
  · cases ok
  · cases ok

/-- A declared item has the six fields and a path of its own. -/
structure Declares (entry : Text × JsonDict) : Prop where
  keys : keysAre entry.2 artifactKeys = true
  path : entry.2.find "path" = .str entry.1
  free : entry.1 ≠ Text.ofString packName

theorem declare_ok {declared found : List (Text × JsonDict)} {items : List JsonValue}
    (ok : declare declared items = .ok ([], found)) :
    ∃ entries, found = declared ++ entries ∧ items = entries.map (fun entry => .dict entry.2) ∧
      (∀ entry ∈ entries, Declares entry) ∧
      ((declared.map Prod.fst).Nodup → (found.map Prod.fst).Nodup) := by
  induction items generalizing declared with
  | nil =>
    cases ok
    exact ⟨[], (List.append_nil _).symm, rfl, nofun, id⟩
  | cons item rest ih =>
    unfold declare at ok
    split at ok
    · rename_i d
      split at ok
      · obtain ⟨⟨errors, later⟩, -, ok⟩ := bind_ok.mp ok
        cases ok
      rename_i keys
      split at ok
      · obtain ⟨⟨errors, later⟩, -, ok⟩ := bind_ok.mp ok
        cases ok
      rename_i relative safe
      split at ok
      · obtain ⟨⟨errors, later⟩, -, ok⟩ := bind_ok.mp ok
        cases ok
      rename_i fresh
      rw [not_or] at fresh
      obtain ⟨invalid, -, ok⟩ := bind_ok.mp ok
      obtain ⟨⟨errors, later⟩, onward, ok⟩ := bind_ok.mp ok
      obtain ⟨none_, rfl⟩ := Prod.mk.inj (pure_ok.mp ok)
      obtain ⟨-, rfl⟩ := List.append_eq_nil_iff.mp none_
      obtain ⟨entries, rfl, rfl, each, distinct⟩ := ih onward
      refine ⟨(relative, d) :: entries, List.append_assoc _ _ _, rfl,
        List.forall_mem_cons.mpr ⟨⟨by simpa using keys, (safeRelative_ok safe).1, fresh.1⟩, each⟩,
        fun before => distinct ?_⟩
      rw [List.map_append, List.nodup_append]
      exact ⟨before, List.nodup_singleton _, fun a inside b last same => fresh.2 (by
        have last : b = relative := List.mem_singleton.mp last
        rwa [← last, ← same])⟩
    · obtain ⟨⟨errors, later⟩, -, ok⟩ := bind_ok.mp ok
      cases ok

theorem mapM_pathOf {entries : List (Text × JsonDict)} (each : ∀ entry ∈ entries, Declares entry) :
    (entries.map fun entry => JsonValue.dict entry.2).mapM pathOf? = some (entries.map Prod.fst) := by
  induction entries with
  | nil => rfl
  | cons entry rest ih =>
    obtain ⟨first, others⟩ := List.forall_mem_cons.mp each
    have path : pathOf? (.dict entry.2) = some entry.1 := by
      rw [pathOf?, first.path]
      rfl
    rw [List.map_cons, List.mapM_cons, path, ih others]
    rfl

/-- A declared artifact describes the member with its name. -/
def Describes (item : JsonValue) (m : Member) : Prop :=
  ∃ d : JsonDict, ∃ data, item = .dict d ∧ keysAre d artifactKeys = true ∧ d.find "path" = .str m.name ∧
    m.content = .ok data ∧ d.find "size" = .int data.length ∧ d.find "sha256" = .str (sha256Hex data)

theorem memberErrorsOf_ok {relative : Text} {d : JsonDict} {m : Member}
    (ok : memberErrorsOf relative d m = .ok []) :
    ∃ data, m.content = .ok data ∧ d.find "size" = .int data.length ∧
      d.find "sha256" = .str (sha256Hex data) := by
  unfold memberErrorsOf at ok
  split at ok
  · rename_i expected sized
    split at ok
    · cases ok
    split at ok
    · cases ok
    obtain ⟨data, read, ok⟩ := bind_ok.mp ok
    split at ok
    · cases ok
    · rename_i same
      rw [not_or, not_not, Bool.not_eq_true, Bool.not_eq_false'] at same
      exact ⟨data, read, by rw [sized, same.1], JsonValue.isText_iff.1 same.2⟩
  · cases ok

theorem contentErrors_ok {members : List Member} {common : List (Text × JsonDict)}
    (ok : contentErrors members common = .ok []) :
    ∀ entry ∈ common, ∀ m, named? members entry.1 = some m → memberErrorsOf entry.1 entry.2 m = .ok [] := by
  induction common with
  | nil => exact nofun
  | cons entry rest ih =>
    obtain ⟨relative, item⟩ := entry
    rw [contentErrors] at ok
    obtain ⟨errors, first, ok⟩ := bind_ok.mp ok
    obtain ⟨others, later, ok⟩ := bind_ok.mp ok
    obtain ⟨rfl, rfl⟩ := List.append_eq_nil_iff.mp (pure_ok.mp ok)
    refine List.forall_mem_cons.mpr ⟨fun m found => ?_, ih later⟩
    rw [checkContent, found] at first
    exact first

/-- What the embedded evidence manifest must hold. -/
structure Embedded (manifest : JsonDict) (artifacts : List JsonValue) (members : List Member)
    (raw : List Nat) (inventory missing : List JsonValue) : Prop where
  held : ∃ m, named? members manifestName = some m ∧ m.content = .ok raw
  loaded : ∃ evidence : JsonDict, Json.loadsBytes raw = .ok (.dict evidence) ∧
    evidence.find "apiVersion" = .str manifestVersion ∧ evidence.find "artifacts" = .list inventory ∧ evidence.find "missingExpected" = .list missing ∧
    evidence.find "contentIdentity" = .str (contentIdentity inventory missing)
  identity : manifest.find "contentIdentity" = .str (contentIdentity inventory missing)
  inventory : (JsonValue.list artifacts).eq (.list (.dict (evidenceRecord raw) :: inventory)) = true

theorem evidenceOf?_some {value : JsonValue} {evidence : JsonDict} {inventory missing : List JsonValue}
    (some_ : evidenceOf? value = some (evidence, inventory, missing)) :
    value = .dict evidence ∧ evidence.find "apiVersion" = .str manifestVersion ∧
      evidence.find "artifacts" = .list inventory ∧ evidence.find "missingExpected" = .list missing := by
  unfold evidenceOf? at some_
  split at some_
  · split at some_
    · rename_i version
      split at some_
      · rename_i listed absent
        cases some_
        exact ⟨rfl, JsonValue.isText_iff.1 version, listed, absent⟩
      · cases some_
    · cases some_
  · cases some_

theorem evidenceErrors_ok {manifest : JsonDict} {artifacts : List JsonValue} {members : List Member}
    (ok : evidenceErrors manifest artifacts members = .ok []) :
    ∃ raw inventory missing, Embedded manifest artifacts members raw inventory missing := by
  unfold evidenceErrors at ok
  cases found : named? members manifestName with
  | none =>
    rw [found] at ok
    cases ok
  | some m =>
  rw [found] at ok
  dsimp only at ok
  split at ok
  · cases ok
  obtain ⟨raw, read, ok⟩ := bind_ok.mp ok
  split at ok
  · cases ok
  · cases ok
  rename_i value loaded
  split at ok
  · cases ok
  rename_i evidence inventory missing parts
  have none_ := pure_ok.mp ok
  simp only [List.append_eq_nil_iff, require_nil] at none_
  obtain ⟨⟨own, identity⟩, same⟩ := none_
  obtain ⟨rfl, version, listed, absent⟩ := evidenceOf?_some parts
  exact ⟨raw, inventory, missing, {
    held := ⟨m, found, read⟩
    loaded := ⟨evidence, loaded, version, listed, absent, JsonValue.isText_iff.1 own⟩
    identity := JsonValue.isText_iff.1 identity
    inventory := same }⟩

/-- What the archive holds when nothing is wrong with it. -/
structure Contents (members : List Member) (manifest : JsonDict) (items : List JsonValue)
    (raw : List Nat) (inventory missing : List JsonValue) : Prop where
  declared : manifest.find "artifacts" = .list items
  layout : ∃ pack evidence others data, members = pack :: evidence :: others ∧ pack.name = packName ∧
    pack.content = .ok data ∧ Json.loadsBytes data = .ok (.dict manifest) ∧
    evidence.name = manifestName ∧ evidence.content = .ok raw ∧
    List.Forall₂ Describes items (evidence :: others)
  files : ∀ m ∈ members, m.isFile = true
  names : ∀ m ∈ members, SafeName m.name
  distinct : (members.map Member.name).Nodup
  embedded : ∃ evidence : JsonDict, Json.loadsBytes raw = .ok (.dict evidence) ∧
    evidence.find "apiVersion" = .str manifestVersion ∧ evidence.find "artifacts" = .list inventory ∧ evidence.find "missingExpected" = .list missing ∧
    evidence.find "contentIdentity" = .str (contentIdentity inventory missing)
  listed : (JsonValue.list items).eq (.list (.dict (evidenceRecord raw) :: inventory)) = true
  identity : manifest.find "contentIdentity" = .str (contentIdentity inventory missing)

theorem named?_some {members : List Member} {name : Text} {m : Member}
    (found : named? members name = some m) : m ∈ members ∧ m.name = name := by
  have inside := List.mem_reverse.mp (List.mem_of_find?_eq_some found)
  have same := List.find?_some found
  exact ⟨(List.mem_filter.mp inside).1, of_decide_eq_true same⟩

/-- Where names are distinct, a member is found by its name. -/
theorem named?_member {members : List Member} (distinct : (members.map Member.name).Nodup) {m : Member}
    (member : m ∈ members) (file : m.isFile = true) (other : m.name ≠ Text.ofString packName) :
    named? members m.name = some m := by
  have inside : m ∈ (actual members).reverse :=
    List.mem_reverse.mpr (List.mem_filter.mpr ⟨member, by rw [decide_eq_true other, file]; rfl⟩)
  cases found : named? members m.name with
  | none => exact absurd (List.find?_eq_none.mp found m inside) (by simp)
  | some n =>
    obtain ⟨listed, same⟩ := named?_some found
    exact congrArg some (List.inj_on_of_nodup_map distinct listed member same)

theorem lookup_of_mem {entries : List (Text × JsonDict)} (distinct : (entries.map Prod.fst).Nodup)
    {entry : Text × JsonDict} (member : entry ∈ entries) : entries.lookup entry.1 = some entry.2 := by
  induction entries with
  | nil => cases member
  | cons first rest ih =>
    obtain ⟨name, item⟩ := first
    obtain ⟨fresh, distinct⟩ := List.nodup_cons.mp distinct
    rcases List.mem_cons.mp member with rfl | later
    · exact List.lookup_cons_self
    · have other : (entry.1 == name) = false :=
        beq_eq_false_iff_ne.mpr fun same => fresh (List.mem_map.mpr ⟨entry, later, same⟩)
      rw [List.lookup_cons, other]
      exact ih distinct later

theorem mem_sortTexts {texts : List Text} {t : Text} : t ∈ sortTexts texts ↔ t ∈ texts :=
  (List.perm_insertionSort _ _).mem_iff

/-- Entries and members under one name describe each other. -/
theorem describes_of_checked {members : List Member} {entries : List (Text × JsonDict)}
    (distinct : (members.map Member.name).Nodup) (files : ∀ m ∈ members, m.isFile = true)
    (declares : ∀ entry ∈ entries, Declares entry) (keys : (entries.map Prod.fst).Nodup)
    (checked : contentErrors members
      ((sortTexts ((entries.map Prod.fst).filter fun name => name ∈ (actual members).map Member.name)).filterMap
        fun name => (entries.lookup name).map fun item => (name, item)) = .ok [])
    {entry : Text × JsonDict} (inside : entry ∈ entries) {m : Member} (member : m ∈ members)
    (same : entry.1 = m.name) : Describes (.dict entry.2) m := by
  have declared := declares entry inside
  have other : m.name ≠ Text.ofString packName := same ▸ declared.free
  have found := named?_member distinct member (files m member) other
  have held : m.name ∈ (actual members).map Member.name :=
    List.mem_map_of_mem (List.mem_filter.mpr ⟨member, by rw [decide_eq_true other, files m member]; rfl⟩)
  have listed : entry.1 ∈ (entries.map Prod.fst).filter fun name => name ∈ (actual members).map Member.name :=
    List.mem_filter.mpr ⟨List.mem_map_of_mem inside, decide_eq_true (same ▸ held)⟩
  have looked : (entries.lookup entry.1).map (fun item => (entry.1, item)) = some (entry.1, entry.2) := by
    rw [lookup_of_mem keys inside]
    rfl
  have clean := contentErrors_ok checked _ (List.mem_filterMap.mpr ⟨entry.1, mem_sortTexts.2 listed, looked⟩) m (same ▸ found)
  obtain ⟨data, read, size, digest⟩ := memberErrorsOf_ok clean
  exact ⟨entry.2, data, rfl, declared.keys, by rw [declared.path, same], read, size, digest⟩

/-- The first declared artifact is the evidence manifest. -/
theorem record_path {item : JsonDict} {raw : List Nat} (proper : (JsonValue.dict item).Proper)
    (same : (JsonValue.dict item).eq (.dict (evidenceRecord raw)) = true) :
    item.find "path" = .str manifestName := by
  have distinct : (JsonDict.keys (evidenceRecord raw)).Nodup := by
    change (artifactKeys.map Text.ofString).Nodup
    decide
  have agree := (JsonValue.eq_dict (JsonValue.proper_dict.1 proper).1 distinct).mp same "path"
  have held : JsonDict.get? (evidenceRecord raw) "path" = some (.str manifestName) := rfl
  rw [held] at agree
  rw [JsonDict.find, sameEntry_str_right agree]
  rfl

theorem inspect_contents {members : List Member} {d : JsonDict} (ok : inspect members = .ok (some d, [])) :
    ∃ items raw inventory missing, Contents members d items raw inventory missing := by
  obtain ⟨manifested, items, listed, checked⟩ := inspect_ok ok
  obtain ⟨⟨pack, data, packed, packNamed, packRead, packLoaded⟩, none_, fields⟩ :=
    manifestFromArchive_ok manifested
  obtain ⟨each, distinct⟩ := memberErrors_nil none_
  have files : ∀ m ∈ members, m.isFile = true := fun m member => (each m member).1
  -- the loop over the declared artifacts
  obtain ⟨⟨invalid, entries⟩, declared, checked⟩ := bind_ok.mp checked
  dsimp only at checked
  obtain ⟨content, checkedContent, checked⟩ := bind_ok.mp checked
  obtain ⟨embedded, checkedEvidence, checked⟩ := bind_ok.mp checked
  have nothing := pure_ok.mp checked
  simp only [List.append_eq_nil_iff, List.map_eq_nil_iff] at nothing
  obtain ⟨⟨⟨⟨rfl, -⟩, -⟩, rfl⟩, rfl⟩ := nothing
  obtain ⟨_, rfl, rfl, declares, -⟩ := declare_ok declared
  obtain ⟨raw, inventory, missing, embedded⟩ := evidenceErrors_ok checkedEvidence
  -- the order of the members
  have order : members.map Member.name = Text.ofString packName :: entries.map Prod.fst := by
    simp only [packErrors, List.append_eq_nil_iff] at fields
    have ordered := fields.1.1.2
    rw [listed, orderErrors, mapM_pathOf declares] at ordered
    simpa using ordered
  cases members with
  | nil => cases packed
  | cons first rest =>
    obtain ⟨firstNamed, later⟩ := List.cons.inj order
    have keys : (entries.map Prod.fst).Nodup := by
      rw [← later]
      exact (List.nodup_cons.mp distinct).2
    have one : first = pack :=
      List.inj_on_of_nodup_map distinct List.mem_cons_self packed (firstNamed.trans packNamed.symm)
    subst one
    have described : List.Forall₂ Describes (entries.map fun entry => .dict entry.2) rest := by
      rw [List.forall₂_map_left_iff]
      refine forall₂_imp_of_mem (forall₂_of_map later.symm) fun entry inside m member same => ?_
      exact describes_of_checked distinct files declares keys checkedContent inside
        (List.mem_cons_of_mem _ member) same
    -- the evidence manifest comes first
    obtain ⟨m, held, read⟩ := embedded.held
    obtain ⟨inside, named⟩ := named?_some held
    have proper := JsonValue.proper_find (Json.loadsBytes_proper packLoaded) "artifacts"
    rw [listed, JsonValue.proper_list] at proper
    have same := JsonValue.eq_list.mp embedded.inventory
    cases entries with
    | nil => cases same
    | cons entry others =>
      obtain ⟨recorded, -⟩ := List.forall₂_cons.mp same
      cases rest with
      | nil => cases described
      | cons evidence others =>
        have path := record_path (proper _ List.mem_cons_self) recorded
        rw [(declares entry List.mem_cons_self).path] at path
        have evidenceNamed : evidence.name = Text.ofString manifestName :=
          (List.cons.inj later).1.trans (JsonValue.str.inj path)
        have one : evidence = m := List.inj_on_of_nodup_map distinct
          (List.mem_cons_of_mem _ List.mem_cons_self) inside (evidenceNamed.trans named.symm)
        subst one
        exact ⟨_, raw, inventory, missing, {
          declared := listed
          layout := ⟨first, evidence, others, data, rfl, packNamed, packRead, packLoaded, evidenceNamed,
            read, described⟩
          files := files
          names := fun m member => (each m member).2.1
          distinct := distinct
          embedded := embedded.loaded
          listed := embedded.inventory
          identity := embedded.identity }⟩

end checks

section identity

/-- What verification hashes: the artifacts, and the text of the inventory. -/
def hashed (members : List Member) : List (List Nat) :=
  (members.drop 1).filterMap (fun m => m.content.toOption) ++ members.filterMap fun m =>
    if m.name = Text.ofString manifestName then
      match m.content.toOption.bind fun raw => (Json.loadsBytes raw).toOption with
      | some value => (evidenceOf? value).map fun parts => identityText parts.2.1 parts.2.2
      | none => none
    else none

/-- An artifact under its name. -/
def stored (m : Member) : Text × Option (List Nat) := (m.name, m.content.toOption)

theorem units_injective {t u : Text} (left : Decoded t) (right : Decoded u) (same : t.units = u.units) : t = u :=
  Text.ext (unpaired_injective left right (congrArg Text.codes same))

theorem sha256Hex_decoded (data : List Nat) : Decoded (sha256Hex data) := by
  have digits := (Bool.and_eq_true _ _ ▸ sha256Hex_ok data).2
  intro code member
  have one := List.all_eq_true.mp digits code member
  simp only [isHexCode, isDigit, Bool.or_eq_true, decide_eq_true_eq] at one
  exact ⟨decide_eq_false (by omega), by omega⟩

/-- What an inventory's item and a member's declaration have in common. -/
structure Lists (item : JsonValue) (m : Member) (d : JsonDict) (data : List Nat) : Prop where
  dict : item = .dict d
  keys : ∀ key ∈ d.keys, key.units = key
  path : d.get? "path" = some (.str m.name)
  content : m.content = .ok data
  digest : d.get? "sha256" = some (.str (sha256Hex data))

theorem artifactKey_units {d : JsonDict} (keys : keysAre d artifactKeys = true) :
    ∀ key ∈ d.keys, key.units = key := by
  intro key member
  unfold keysAre at keys
  have all := List.all_eq_true.mp (Bool.and_eq_true _ _ ▸ keys).2
  obtain ⟨name, listed, same⟩ := List.any_eq_true.mp (all key member)
  rw [← of_decide_eq_true same]
  have ascii : ∀ name ∈ artifactKeys, (Text.ofString name).units = Text.ofString name := by decide
  exact ascii name listed

theorem get?_of_find {d : JsonDict} {key t : Text} (held : d.find key = .str t) : d.get? key = some (.str t) := by
  unfold JsonDict.find at held
  cases found : d.get? key with
  | none => rw [found] at held; cases held
  | some value =>
    rw [found] at held
    exact congrArg some held

theorem lists_of_equal {declared item : JsonValue} {m : Member} (described : Describes declared m)
    (proper : declared.Proper) (proper' : item.Proper) (same : declared.eq item = true) :
    ∃ d data, Lists item m d data := by
  obtain ⟨e, data, rfl, keys, path, content, -, digest⟩ := described
  obtain ⟨d, rfl⟩ := JsonValue.eq_dict_left same
  have agree := (JsonValue.eq_dict (JsonValue.proper_dict.1 proper).1 (JsonValue.proper_dict.1 proper').1).mp same
  have within : ∀ key ∈ JsonDict.keys d, key ∈ JsonDict.keys e := by
    intro key member
    rw [← JsonDict.contains_iff, JsonDict.contains] at member ⊢
    rwa [isSome_of_sameEntry (agree key)]
  refine ⟨d, data, rfl, fun key member => artifactKey_units keys key (within key member), ?_, content, ?_⟩
  · have held := agree "path"
    rw [get?_of_find path] at held
    exact sameEntry_str_left held
  · have held := agree "sha256"
    rw [get?_of_find digest] at held
    exact sameEntry_str_left held

theorem same_text {d d' : JsonDict} {key t u : Text} (same : JsonValue.Same (.dict d) (.dict d'))
    (keys : ∀ key ∈ d.keys, key.units = key) (keys' : ∀ key ∈ d'.keys, key.units = key)
    (held : d.get? key = some (.str t)) (held' : d'.get? key = some (.str u)) (left : Decoded t)
    (right : Decoded u) : t = u := by
  have lookup := same.get? keys keys' key
  rw [held, held'] at lookup
  exact units_injective left right (JsonValue.same_str.mp (Option.some.inj lookup))

/-- One item of two inventories stands for one artifact. -/
theorem stored_eq {item item' : JsonValue} {m m' : Member} {d d' : JsonDict} {data data' : List Nat}
    {texts : List (List Nat)} (first : Lists item m d data) (second : Lists item' m' d' data')
    (same : item.Same item') (free : CollisionFree sha256Hex texts) (inside : data ∈ texts)
    (inside' : data' ∈ texts) : stored m = stored m' := by
  obtain ⟨rfl, keys, path, content, digest⟩ := first
  obtain ⟨rfl, keys', path', content', digest'⟩ := second
  have names := same_text same keys keys' path path' m.decoded m'.decoded
  have digests := same_text same keys keys' digest digest' (sha256Hex_decoded _) (sha256Hex_decoded _)
  obtain rfl := free _ inside _ inside' digests
  rw [stored, stored, names, content, content']

theorem Contents.hashed_identity {members : List Member} {d : JsonDict} {items inventory missing : List JsonValue}
    {raw : List Nat} (c : Contents members d items raw inventory missing) :
    identityText inventory missing ∈ hashed members := by
  obtain ⟨pack, evidence, others, data, rfl, -, -, -, named, read, -⟩ := c.layout
  obtain ⟨document, loaded, version, listed, absent, -⟩ := c.embedded
  refine List.mem_append_right _ (List.mem_filterMap.mpr ⟨evidence, by simp, ?_⟩)
  have parts : evidenceOf? (.dict document) = some (document, inventory, missing) := by
    rw [evidenceOf?, version, JsonValue.isText_iff.2 rfl, if_pos rfl, listed, absent]
  have value : (evidence.content.toOption.bind fun raw => (Json.loadsBytes raw).toOption) =
      some (.dict document) := by
    rw [read]
    exact congrArg Except.toOption loaded
  rw [if_pos named, value]
  dsimp only
  rw [parts]
  rfl

theorem hashed_content {members : List Member} {m : Member} {data : List Nat}
    (member : m ∈ members.drop 1) (read : m.content = .ok data) : data ∈ hashed members :=
  List.mem_append_left _ (List.mem_filterMap.mpr ⟨m, member, by rw [read]; rfl⟩)

theorem lists_of_described {items inventory : List JsonValue} {members : List Member}
    (same : List.Forall₂ (fun x y => x.eq y = true) items inventory)
    (described : List.Forall₂ Describes items members) (proper : ∀ item ∈ items, item.Proper)
    (proper' : ∀ item ∈ inventory, item.Proper) :
    List.Forall₂ (fun item m => ∃ d data, Lists item m d data) inventory members := by
  induction same generalizing members with
  | nil =>
    cases described
    exact .nil
  | cons one _ ih =>
    cases described with
    | cons first later =>
      obtain ⟨head, others⟩ := List.forall_mem_cons.mp proper
      obtain ⟨head', others'⟩ := List.forall_mem_cons.mp proper'
      exact .cons (lists_of_equal first head head' one) (ih later others others')

/-- The inventory describes the artifacts after the evidence manifest. -/
theorem Contents.lists {members : List Member} {d : JsonDict} {items inventory missing : List JsonValue}
    {raw : List Nat} (c : Contents members d items raw inventory missing) :
    List.Forall₂ (fun item m => ∃ d data, Lists item m d data) inventory (members.drop 2) := by
  obtain ⟨pack, evidence, others, data, rfl, -, -, loaded, -, -, described⟩ := c.layout
  obtain ⟨document, read, -, listed, -, -⟩ := c.embedded
  have proper := JsonValue.proper_find (Json.loadsBytes_proper loaded) "artifacts"
  have proper' := JsonValue.proper_find (Json.loadsBytes_proper read) "artifacts"
  rw [c.declared, JsonValue.proper_list] at proper
  rw [listed, JsonValue.proper_list] at proper'
  have same := JsonValue.eq_list.mp c.listed
  cases described with
  | cons first later =>
    obtain ⟨-, same⟩ := List.forall₂_cons.mp same
    have others := (List.forall_mem_cons.mp proper).2
    exact lists_of_described same later others proper'

/-- Inventories of one text list the same artifacts. -/
theorem stored_of_same {inventory inventory' : List JsonValue} {xs ys : List Member} {texts : List (List Nat)}
    (free : CollisionFree sha256Hex texts) (same : List.Forall₂ JsonValue.Same inventory inventory')
    (listed : List.Forall₂ (fun item m => ∃ d data, Lists item m d data) inventory xs)
    (listed' : List.Forall₂ (fun item m => ∃ d data, Lists item m d data) inventory' ys)
    (inside : ∀ m ∈ xs, ∀ data, m.content = .ok data → data ∈ texts)
    (inside' : ∀ m ∈ ys, ∀ data, m.content = .ok data → data ∈ texts) : xs.map stored = ys.map stored := by
  induction same generalizing xs ys with
  | nil =>
    cases listed
    cases listed'
    rfl
  | cons one _ ih =>
    cases listed with
    | cons first later =>
      cases listed' with
      | cons first' later' =>
        obtain ⟨d, data, first⟩ := first
        obtain ⟨d', data', first'⟩ := first'
        obtain ⟨head, tail⟩ := List.forall_mem_cons.mp inside
        obtain ⟨head', tail'⟩ := List.forall_mem_cons.mp inside'
        rw [List.map_cons, List.map_cons, ih later later' tail tail',
          stored_eq first first' one free (head _ first.content) (head' _ first'.content)]

theorem same_inventories {inventory inventory' missing missing' : List JsonValue}
    (same : identityText inventory missing = identityText inventory' missing') :
    List.Forall₂ JsonValue.Same inventory inventory' := by
  have ascii : ∀ name ∈ ["schema", "artifacts", "missingExpected"],
      (Text.ofString name).units = Text.ofString name := by decide
  have keys (xs ys : List JsonValue) : ∀ key ∈ JsonDict.keys [("schema", .str manifestVersion),
      ("artifacts", .list xs), ("missingExpected", .list ys)], key.units = key :=
    List.forall_mem_map.mpr fun name member => by
      simp only [List.mem_cons, List.not_mem_nil, or_false] at member
      rcases member with rfl | rfl | rfl <;> exact ascii _ (by simp)
  have lookup := (JsonValue.canonical_injective same).get? (keys _ _) (keys _ _) "artifacts"
  exact JsonValue.same_list.mp (Option.some.inj lookup)

/-- A verified archive holds the declared artifacts and nothing else, and two verified archives
of one content identity hold the same artifacts. -/
theorem pack_verification_sound (members : List Member) (manifest : JsonDict)
    (ok : verifyContent (.ok members) = .ok (some manifest, [])) :
    (∃ items raw inventory missing, Contents members manifest items raw inventory missing) ∧
      ∀ members' manifest', verifyContent (.ok members') = .ok (some manifest', []) →
        manifest.find "contentIdentity" = manifest'.find "contentIdentity" →
        CollisionFree sha256Hex (hashed members ++ hashed members') →
        (members.drop 2).map stored = (members'.drop 2).map stored := by
  obtain ⟨_, ⟨⟩, inspected⟩ := verifyContent_ok ok
  obtain ⟨items, raw, inventory, missing, contents⟩ := inspect_contents inspected
  refine ⟨⟨items, raw, inventory, missing, contents⟩, fun members' manifest' ok' same free => ?_⟩
  obtain ⟨_, ⟨⟩, inspected'⟩ := verifyContent_ok ok'
  obtain ⟨items', raw', inventory', missing', contents'⟩ := inspect_contents inspected'
  rw [contents.identity, contents'.identity] at same
  have digests : sha256Hex (identityText inventory missing) = sha256Hex (identityText inventory' missing') :=
    Text.ext (List.append_cancel_left (congrArg Text.codes (JsonValue.str.inj same)))
  have texts := free _ (List.mem_append_left _ contents.hashed_identity) _
    (List.mem_append_right _ contents'.hashed_identity) digests
  have within (m : Member) (xs : List Member) (member : m ∈ xs.drop 2) (data : List Nat)
      (read : m.content = .ok data) : data ∈ hashed xs := by
    rw [show 2 = 1 + 1 from rfl, ← List.drop_drop] at member
    exact hashed_content (List.mem_of_mem_drop member) read
  exact stored_of_same free (same_inventories texts) contents.lists contents'.lists
    (fun m member data read => List.mem_append_left _ (within m _ member data read))
    (fun m member data read => List.mem_append_right _ (within m _ member data read))

end identity

section sample

/-- Text in pieces. -/
def pieces (parts : List String) : Text := ⟨parts.flatMap fun part => (Text.ofString part).codes⟩

def sampleIdentity : List String :=
  ["sha256:11193927908f4f6668b271435efdfa93", "5d463cfe2cd1f8c16676063ef5715127"]

/-- The manifest of an evidence root without artifacts. -/
def sampleEvidence : Text :=
  pieces (["\x7b\"apiVersion\":\"", manifestVersion, "\",\"artifacts\":[],", "\"contentIdentity\":\""] ++
    sampleIdentity ++ ["\",\"missingExpected\":[]\x7d"])

def samplePack : Text :=
  pieces (["\x7b\"apiVersion\":\"", packVersion, "\",\"kind\":\"PortableEvidencePack\",",
      "\"contentIdentity\":\""] ++ sampleIdentity ++ ["\",\"artifacts\":[\x7b\"path\":\"", manifestName,
      "\",\"mediaType\":\"application/json\",", "\"size\":178,\"sha256\":\"",
      "c1e7e4b5371aa7897330292972bdca94", "bdfd15ddd3e80b7f3c2ad3bb84010102",
      "\",\"provenance\":\"evidence-inventory\",", "\"sensitivity\":\"internal\"\x7d],",
      "\"supplyChain\":\x7b\"imageDigest\":\""] ++ sampleIdentity ++
    ["\",\"sbom\":\x7b\"format\":\"SPDX\",", "\"spdxVersion\":\"SPDX-2.3\",",
      "\"packages\":[1]\x7d\x7d\x7d"])

def sampleMember (name : String) (decoded : Decoded name) (data : Text) : Member where
  name := name
  decoded := decoded
  isFile := true
  mode := 0o600
  uid := 0
  gid := 0
  uname := ""
  gname := ""
  mtime := .int 0
  size := data.codes.length
  content := .ok data.codes

def sampleArchive : List Member :=
  [sampleMember "pack-manifest.json" (by decide) samplePack,
    sampleMember "evidence-manifest.json" (by decide) sampleEvidence]

/-- Whether verification returned a manifest and no errors. -/
def isClean : Except Builtin (Option JsonDict × List Text) → Bool
  | .ok (some _, []) => true
  | _ => false

theorem isClean_ok {result : Except Builtin (Option JsonDict × List Text)} (clean : isClean result = true) :
    ∃ manifest, result = .ok (some manifest, []) := by
  unfold isClean at clean
  split at clean
  · exact ⟨_, rfl⟩
  · cases clean

theorem sample_contents : ∃ manifest, verifyContent (.ok sampleArchive) = .ok (some manifest, []) ∧
    ∃ items raw inventory missing, Contents sampleArchive manifest items raw inventory missing := by
  have accepted : isClean (verifyContent (.ok sampleArchive)) = true := by decide +kernel
  have found := isClean_ok accepted
  exact found.imp fun manifest ok => ⟨ok, (pack_verification_sound sampleArchive manifest ok).1⟩

end sample

end Sippycup.Evidence
