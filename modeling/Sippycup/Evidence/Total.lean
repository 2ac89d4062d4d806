import Sippycup.Evidence.Sound
import Sippycup.Webrtc.OwnErrors

/-! Which archives the pack verifier gives an answer for. The reader of documents is a parameter here,
since it may give up on a document that is too deep or holds too long a number; an answer also fails where
text cannot be decoded, and where a sensitivity that is no text is looked up in a set. -/
namespace Sippycup.Evidence.Total
open Sippycup.Python Sippycup.Ip Sippycup.Evidence
open Sippycup.Webrtc (After after_ok after_pure after_bind after_congr ownErrors_then)

section reading
variable (loads : List Nat → Json.Scan JsonValue)

/-- `_manifest_from_archive` -/
def manifestFromArchive (members : List Member) : Reading (Option JsonDict × List Text) := do
  let errors := memberErrors [] members
  let refuse (message : Text) : Reading (Option JsonDict × List Text) := .ok (none, errors ++ [message])
  match members.filter fun m => m.name = Text.ofString packName with
  | [m] =>
    if !m.isFile then refuse "archive must contain one regular pack-manifest.json"
    else if (maxManifestBytes : Int) < m.size then refuse "pack manifest exceeds 4 MiB"
    else
      match loads (← m.content) with
      | .error (.own message) => refuse ("invalid pack manifest JSON: " ++ message)
      | .error (.builtin kind) => .error (.builtin kind)
      | .ok (.dict d) =>
        if (JsonDict.find d "apiVersion").isText packVersion then
          return (some d, errors ++ packErrors d members)
        else refuse "unsupported pack manifest"
      | .ok _ => refuse "unsupported pack manifest"
  | _ => refuse "archive must contain one regular pack-manifest.json"

def evidenceErrors (manifest : JsonDict) (artifacts : List JsonValue) (members : List Member) :
    Reading (List Text) := do
  match named? members manifestName with
  | none => return ["embedded evidence manifest is missing or excessive"]
  | some m =>
    if (maxManifestBytes : Int) < m.size then
      return ["embedded evidence manifest is missing or excessive"]
    else
      let raw ← m.content
      match loads raw with
      | .error (.own message) => return ["invalid embedded evidence manifest: " ++ message]
      | .error (.builtin kind) => .error (.builtin kind)
      | .ok value =>
        match evidenceOf? value with
        | none => return ["embedded evidence manifest has invalid structure"]
        | some (evidence, inventory, missing) =>
          let identity := contentIdentity inventory missing
          let records := JsonValue.dict (evidenceRecord raw) :: inventory
          return require ((evidence.find "contentIdentity").isText identity)
              "embedded evidence content identity differs" ++
            require ((manifest.find "contentIdentity").isText identity) "pack content identity differs" ++
            require ((JsonValue.list artifacts).eq (.list records))
              "pack artifact inventory differs from embedded evidence"

def artifactErrors (manifest : JsonDict) (artifacts : List JsonValue) (members : List Member) :
    Reading (List Text) := do
  let (invalid, declared) ← declare [] artifacts
  let names := (actual members).map Member.name
  let missing := sortTexts ((declared.map Prod.fst).filter fun name => name ∉ names)
  let extra := sortTexts (names.dedup.filter fun name => name ∉ declared.map Prod.fst)
  let common := (sortTexts ((declared.map Prod.fst).filter fun name => name ∈ names)).filterMap fun name =>
    (declared.lookup name).map fun item => (name, item)
  let content ← contentErrors members common
  let embedded ← evidenceErrors loads manifest artifacts members
  return invalid ++ missing.map (fun name => Text.ofString "missing declared artifact: " ++ name) ++
    extra.map (fun name => Text.ofString "undeclared archive member: " ++ name) ++ content ++ embedded

def inspect (members : List Member) : Reading (Option JsonDict × List Text) := do
  if maxMembers < members.length then return (none, ["archive contains too many members"])
  else
    let (manifest, errors) ← manifestFromArchive loads members
    match manifest with
    | none => return (none, errors)
    | some d =>
      match d.find "artifacts" with
      | .list artifacts => return (some d, errors ++ (← artifactErrors loads d artifacts members))
      | _ => return (some d, errors ++ [Text.ofString "pack manifest artifacts must be an array"])

/-- `_verify_content` -/
def verifyContent (archive : Reading (List Member)) : Except Builtin (Option JsonDict × List Text) :=
  match archive >>= inspect loads with
  | .ok (manifest, errors) => .ok (manifest, sortTexts errors.dedup)
  | .error (.own message) => .ok (none, ["invalid evidence archive: " ++ message])
  | .error (.builtin kind) => .error kind

end reading

section conditions
variable (loads : List Nat → Json.Scan JsonValue)

/-- The pack manifest that is read: the only member of its name, regular and of at most 4 MiB. -/
def packManifest? (members : List Member) : Option Member :=
  match members.filter fun m => m.name = Text.ofString packName with
  | [m] => if !m.isFile ∨ (maxManifestBytes : Int) < m.size then none else some m
  | _ => none

def evidenceManifest? (members : List Member) : Option Member :=
  (named? members manifestName).filter fun m => decide (m.size ≤ maxManifestBytes)

/-- The reader does not give up on what a member holds. -/
def Read (member : Option Member) : Prop :=
  ∀ m, member = some m → After m.content fun raw => OwnErrors (loads raw)

/-- What an item declares, where it has the fields of an artifact and a safe path. -/
def declared? (item : JsonValue) : Option (Text × JsonDict) :=
  match item with
  | .dict d =>
    if !keysAre d artifactKeys then none
    else
      match safeRelative (JsonDict.find d "path") with
      | .ok relative => some (relative, d)
      | .error _ => none
  | _ => none

/-- A sensitivity that can be looked up in a set, where it is looked up. -/
def SensitivitySafe (d : JsonDict) : Prop :=
  isNamed (d.find "mediaType") = true → isNamed (d.find "provenance") = true → (d.find "sensitivity").hashable = true

/-- The first item for each path but that of the pack manifest has a sensitivity that can be looked up. -/
def DeclarationsSafe (taken : List Text) (items : List JsonValue) : Prop :=
  ∀ front item back relative d, items = front ++ item :: back → declared? item = some (relative, d) →
    relative ≠ Text.ofString packName → relative ∉ taken →
    (∀ earlier ∈ front, (declared? earlier).map Prod.fst ≠ some relative) → SensitivitySafe d

/-- Archives that the verifier answers for. -/
def PackSafe (members : List Member) : Prop :=
  members.length ≤ maxMembers →
    Read loads (packManifest? members) ∧
      After (manifestFromArchive loads members) fun (manifest, _) =>
        ∀ d, manifest = some d → ∀ artifacts, d.find "artifacts" = .list artifacts →
          DeclarationsSafe [] artifacts ∧ Read loads (evidenceManifest? members)

end conditions

section declarations

theorem ownErrors_metadataInvalid (d : JsonDict) : OwnErrors (metadataInvalid d) ↔ SensitivitySafe d := by
  unfold metadataInvalid SensitivitySafe
  cases isNamed (d.find "mediaType") with
  | false => simp
  | true =>
    cases isNamed (d.find "provenance") with
    | false => simp
    | true =>
      cases hashed : (d.find "sensitivity").hashable <;> simp [JsonValue.inSet, hashed]

/-- Nothing is read from the archive. -/
def Unread {α : Type} (reading : Reading α) : Prop := ∀ message, reading ≠ .error (.own message)

theorem unread_bind {α β : Type} {first : Reading α} {next : α → Reading β} (unread : Unread first)
    (later : ∀ a, Unread (next a)) : Unread (first >>= next) := by
  cases first with
  | ok a => exact later a
  | error raised =>
    cases raised with
    | own message => exact absurd rfl (unread message)
    | builtin kind => exact fun message same => by cases same

theorem unread_pure {α : Type} (a : α) : Unread (pure a) := fun message same => by cases same

theorem Unread.total {α : Type} {reading : Reading α} (unread : Unread reading) (own : OwnErrors reading) :
    ∃ a, reading = .ok a := by
  rcases reading with (message | kind) | a
  · exact absurd rfl (unread message)
  · exact absurd rfl (own kind)
  · exact ⟨a, rfl⟩

theorem metadataInvalid_unread (d : JsonDict) : Unread (metadataInvalid d) := by
  unfold metadataInvalid
  split
  · exact unread_pure true
  · refine unread_bind ?_ fun _ => unread_pure _
    unfold JsonValue.inSet
    split
    · exact unread_pure _
    · exact fun message same => by cases same

theorem declare_unread (declared : List (Text × JsonDict)) (items : List JsonValue) :
    Unread (declare declared items) := by
  induction items generalizing declared with
  | nil => exact unread_pure _
  | cons item rest ih =>
    cases item with
    | dict d =>
      rw [declare]
      split
      · exact unread_bind (ih declared) fun _ => unread_pure _
      split
      · exact unread_bind (ih declared) fun _ => unread_pure _
      split
      · exact unread_bind (ih declared) fun _ => unread_pure _
      · exact unread_bind (metadataInvalid_unread d) fun _ => unread_bind (ih _) fun _ => unread_pure _
    | _ => exact unread_bind (ih declared) fun _ => unread_pure _

theorem declarationsSafe_cons {taken : List Text} {item : JsonValue} {rest : List JsonValue} :
    DeclarationsSafe taken (item :: rest) ↔
      (∀ relative d, declared? item = some (relative, d) → relative ≠ Text.ofString packName → relative ∉ taken →
        SensitivitySafe d) ∧
      DeclarationsSafe (taken ++ ((declared? item).map Prod.fst).toList) rest := by
  constructor
  · intro safe
    constructor
    · exact fun relative d declares other free => safe [] item rest relative d rfl declares other free (by simp)
    · intro front later back relative d split declares other free fresh
      rw [List.mem_append, not_or] at free
      refine safe (item :: front) later back relative d (by rw [split, List.cons_append]) declares other free.1 ?_
      refine List.forall_mem_cons.mpr ⟨fun same => free.2 ?_, fresh⟩
      rw [same]
      exact List.mem_singleton_self relative
  · rintro ⟨first, later⟩ front item' back relative d split declares other free fresh
    cases front with
    | nil =>
      obtain ⟨rfl, rfl⟩ := List.cons.inj split
      exact first relative d declares other free
    | cons item'' front =>
      obtain ⟨rfl, behind⟩ := List.cons.inj split
      obtain ⟨unlike, fresh⟩ := List.forall_mem_cons.mp fresh
      refine later front item' back relative d behind declares other ?_ fresh
      rw [List.mem_append, not_or]
      exact ⟨free, fun inside => unlike (Option.mem_toList.mp inside)⟩

theorem declarationsSafe_perm {taken taken' : List Text} (same : ∀ relative, relative ≠ Text.ofString packName →
    (relative ∈ taken ↔ relative ∈ taken')) (items : List JsonValue) :
    DeclarationsSafe taken items ↔ DeclarationsSafe taken' items := by
  unfold DeclarationsSafe
  constructor
  · intro safe front item back relative d split declares other free
    exact safe front item back relative d split declares other (mt (same relative other).mp free)
  · intro safe front item back relative d split declares other free
    exact safe front item back relative d split declares other (mt (same relative other).mpr free)

/-- An item that declares nothing, and one of a path that is taken, leave the rest to be checked. -/
theorem declarationsSafe_skip {taken : List Text} {item : JsonValue} {rest : List JsonValue}
    (skip : ∀ relative d, declared? item = some (relative, d) → relative = Text.ofString packName ∨ relative ∈ taken) :
    DeclarationsSafe taken (item :: rest) ↔ DeclarationsSafe taken rest := by
  rw [declarationsSafe_cons, declarationsSafe_perm]
  · refine and_iff_right fun relative d declares other free => ?_
    exact absurd (skip relative d declares) (not_or.mpr ⟨other, free⟩)
  · intro relative other
    rw [List.mem_append]
    refine ⟨fun inside => inside.elim id fun declares => ?_, .inl⟩
    obtain ⟨⟨_, d⟩, found, rfl⟩ := Option.map_eq_some_iff.mp (Option.mem_toList.mp declares)
    exact (skip _ d found).resolve_left other

theorem ownErrors_declare (declared : List (Text × JsonDict)) (items : List JsonValue) :
    OwnErrors (declare declared items) ↔ DeclarationsSafe (declared.map Prod.fst) items := by
  induction items generalizing declared with
  | nil => exact iff_of_true (ownErrors_ok _) fun front item back _ _ split => absurd split (by simp)
  | cons item rest ih =>
    have skipped (message : Text) (skip : ∀ relative d, declared? item = some (relative, d) →
        relative = Text.ofString packName ∨ relative ∈ declared.map Prod.fst) :
        OwnErrors (do
          let (errors, declared) ← declare declared rest
          return (message :: errors, declared) : Reading _) ↔
          DeclarationsSafe (declared.map Prod.fst) (item :: rest) := by
      rw [ownErrors_bind, ih, declarationsSafe_skip skip]
      exact and_iff_left fun _ _ => ownErrors_pure _
    cases item with
    | dict d =>
      rw [declare]
      split
      · rename_i keys
        exact skipped _ fun relative d' declares => by simp [declared?, keys] at declares
      rename_i keys
      split
      · rename_i message unsafe_
        exact skipped _ fun relative d' declares => by simp [declared?, keys, unsafe_] at declares
      rename_i relative safe
      have declares : declared? (.dict d) = some (relative, d) := by simp [declared?, keys, safe]
      split
      · rename_i taken
        refine skipped _ fun relative' d' declares' => ?_
        cases declares.symm.trans declares'
        exact taken
      · rename_i free
        obtain ⟨other, free⟩ := not_or.mp free
        rw [ownErrors_bind, ownErrors_metadataInvalid, declarationsSafe_cons, declares]
        constructor
        · rintro ⟨first, later⟩
          obtain ⟨invalid, checked⟩ := (metadataInvalid_unread d).total ((ownErrors_metadataInvalid d).mpr first)
          constructor
          · intro relative' d' same _ _
            cases same
            exact first
          · have later := (ih _).mp (ownErrors_bind.mp (later invalid checked)).1
            rwa [List.map_append] at later
        · rintro ⟨first, later⟩
          refine ⟨first relative d rfl other free, fun _ _ => ownErrors_bind.mpr ⟨(ih _).mpr ?_, fun _ _ => ?_⟩⟩
          · rwa [List.map_append]
          · exact ownErrors_pure _
    | _ => exact skipped _ fun relative d declares => by cases declares

end declarations

section members
variable {loads : List Nat → Json.Scan JsonValue} {members : List Member}

/-- Members whose bytes can be read. -/
def Readable (members : List Member) : Prop := ∀ m ∈ members, ∃ raw, m.content = .ok raw

theorem memberErrorsOf_total (relative : Text) (item : JsonDict) {m : Member} {raw : List Nat} (holds : m.content = .ok raw) :
    ∃ errors, memberErrorsOf relative item m = .ok errors := by
  unfold memberErrorsOf
  rw [holds]
  split
  · split
    · exact ⟨_, rfl⟩
    split
    · exact ⟨_, rfl⟩
    · rw [show (Except.ok raw : Reading _) = pure raw from rfl, pure_bind]
      split
      · exact ⟨_, rfl⟩
      · exact ⟨_, rfl⟩
  · exact ⟨_, rfl⟩

theorem contentErrors_total (readable : Readable members) (common : List (Text × JsonDict)) :
    ∃ errors, contentErrors members common = .ok errors := by
  induction common with
  | nil => exact ⟨[], rfl⟩
  | cons entry rest ih =>
    obtain ⟨relative, item⟩ := entry
    have first : ∃ errors, checkContent members relative item = .ok errors := by
      unfold checkContent
      split
      · rename_i m found
        obtain ⟨raw, holds⟩ := readable m (named?_some found).1
        exact memberErrorsOf_total relative item holds
      · exact ⟨[], rfl⟩
    obtain ⟨errors, checked⟩ := first
    obtain ⟨others, later⟩ := ih
    exact ⟨errors ++ others, by rw [contentErrors, checked, later]; rfl⟩

theorem ownErrors_evidenceErrors (readable : Readable members) (manifest : JsonDict) (artifacts : List JsonValue) :
    OwnErrors (evidenceErrors loads manifest artifacts members) ↔ Read loads (evidenceManifest? members) := by
  unfold evidenceErrors Read evidenceManifest?
  cases found : named? members manifestName with
  | none => simp
  | some m =>
    obtain ⟨raw, holds⟩ := readable m (named?_some found).1
    by_cases large : (maxManifestBytes : Int) < m.size
    · simp [large, Option.filter]
    · have small : m.size ≤ maxManifestBytes := Int.not_lt.1 large
      simp only [if_neg large, holds, Option.filter, small, decide_true, if_true, Option.some.injEq, forall_eq',
        after_ok, ownErrors_bind, ownErrors_ok, true_and, Except.ok.injEq]
      rcases loads raw with (message | kind) | value
      · simp
      · simp
      · refine iff_of_true ?_ (ownErrors_ok _)
        dsimp only
        split
        · exact ownErrors_pure _
        · exact ownErrors_pure _

theorem ownErrors_manifestFromArchive (readable : Readable members) :
    OwnErrors (manifestFromArchive loads members) ↔ Read loads (packManifest? members) := by
  unfold manifestFromArchive Read packManifest?
  dsimp only
  split
  · rename_i m only
    have member : m ∈ members := (List.mem_filter.mp (only ▸ List.mem_singleton_self m)).1
    obtain ⟨raw, holds⟩ := readable m member
    by_cases irregular : (!m.isFile) = true
    · simp [irregular]
    by_cases large : (maxManifestBytes : Int) < m.size
    · rw [if_neg irregular, if_pos large, if_pos (.inr large)]
      exact iff_of_true (ownErrors_ok _) fun m found => by cases found
    · simp only [if_neg irregular, if_neg large, holds, not_or.mpr ⟨irregular, large⟩, if_false, Option.some.injEq,
        forall_eq', after_ok, ownErrors_bind, ownErrors_ok, true_and, Except.ok.injEq]
      rcases loads raw with (message | kind) | value
      · simp
      · simp
      · refine iff_of_true ?_ (ownErrors_ok _)
        cases value with
        | dict d => exact ownErrors_ite (ownErrors_pure _) (ownErrors_ok _)
        | _ => exact ownErrors_ok _
  · exact iff_of_true (ownErrors_ok _) fun m found => by cases found

theorem ownErrors_artifactErrors (readable : Readable members) (manifest : JsonDict) (artifacts : List JsonValue) :
    OwnErrors (artifactErrors loads manifest artifacts members) ↔
      DeclarationsSafe [] artifacts ∧ Read loads (evidenceManifest? members) := by
  rw [artifactErrors, ownErrors_bind, ownErrors_declare]
  refine and_congr_right fun safe => ?_
  obtain ⟨⟨invalid, declared⟩, checked⟩ := (declare_unread [] artifacts).total ((ownErrors_declare [] artifacts).mpr safe)
  have rest (common : List (Text × JsonDict)) (errors : List Text → List Text → List Text) :
      OwnErrors (do
        let content ← contentErrors members common
        let embedded ← evidenceErrors loads manifest artifacts members
        return errors content embedded : Reading (List Text)) ↔ Read loads (evidenceManifest? members) := by
    obtain ⟨content, read⟩ := contentErrors_total readable common
    rw [read, ok_bind, ownErrors_bind, ownErrors_evidenceErrors readable]
    exact and_iff_left fun _ _ => ownErrors_pure _
  simp only [checked, Except.ok.injEq, forall_eq']
  exact rest _ fun content embedded => invalid ++ _ ++ _ ++ content ++ embedded

theorem ownErrors_inspect (readable : Readable members) : OwnErrors (inspect loads members) ↔ PackSafe loads members := by
  unfold inspect PackSafe
  by_cases many : maxMembers < members.length
  · rw [if_pos many]
    exact iff_of_true (ownErrors_pure _) fun few => absurd few (Nat.not_le.mpr many)
  · rw [if_neg many, ownErrors_bind, ownErrors_manifestFromArchive readable, imp_iff_right (Nat.not_lt.1 many)]
    refine and_congr_right fun _ => after_congr fun ⟨manifest, errors⟩ => ?_
    cases manifest with
    | none => simp
    | some d =>
      simp only [Option.some.injEq, forall_eq']
      cases d.find "artifacts" with
      | list artifacts =>
        simp only [ownErrors_bind, ownErrors_artifactErrors readable, ownErrors_pure, implies_true, and_true,
          JsonValue.list.injEq, forall_eq']
      | _ => simp

theorem verifyContent_ok_iff (archive : Reading (List Member)) :
    (∃ answer, verifyContent loads archive = .ok answer) ↔ OwnErrors (archive >>= inspect loads) := by
  unfold verifyContent
  rcases archive >>= inspect loads with (message | kind) | ⟨manifest, errors⟩
  · simp
  · simp
  · simp

variable (loads members)

/-- The verifier answers for an archive of readable members exactly where the reader does not give up on
the manifests that it comes to, and each sensitivity that it looks up can be hashed. -/
theorem pack_verifier_answers_iff (readable : Readable members) :
    (∃ answer, verifyContent loads (.ok members) = .ok answer) ↔ PackSafe loads members := by
  rw [verifyContent_ok_iff]
  exact ownErrors_inspect readable

/-- An archive that holds a pack manifest of these bytes alone. -/
theorem packName_decoded : Decoded "pack-manifest.json" := by decide

def manifestOnly (raw : List Nat) : List Member := [sampleMember "pack-manifest.json" packName_decoded ⟨raw⟩]

theorem manifestOnly_readable (raw : List Nat) : Readable (manifestOnly raw) := by
  intro m member
  obtain rfl := List.mem_singleton.mp member
  exact ⟨raw, rfl⟩

/-- A manifest that is a list is answered for. -/
theorem list_manifest_answered : ∃ answer, verifyContent Json.loadsBytes (.ok (manifestOnly [91, 93])) = .ok answer := by
  have held : packManifest? (manifestOnly [91, 93]) = (manifestOnly [91, 93]).head? := by rfl
  have refused : ∃ errors, manifestFromArchive Json.loadsBytes (manifestOnly [91, 93]) = .ok (none, errors) := ⟨_, rfl⟩
  obtain ⟨errors, refused⟩ := refused
  refine (pack_verifier_answers_iff Json.loadsBytes _ (manifestOnly_readable _)).mpr fun _ => ⟨fun m found => ?_, ?_⟩
  · rw [held] at found
    cases found
    exact after_ok.mpr (ownErrors_ok (JsonValue.list []))
  · rw [refused, after_ok]
    intro d found
    cases found

/-- A manifest that is no text: what escapes is the error of decoding. -/
theorem undecodable_manifest_escapes :
    Readable (manifestOnly [0xFF]) ∧
      verifyContent Json.loadsBytes (.ok (manifestOnly [0xFF])) = .error .valueError :=
  ⟨manifestOnly_readable _, rfl⟩

end members
end Sippycup.Evidence.Total
