import Sippycup.Evidence.Inventory

/-! The inventory is complete exactly where nothing hides from it: a nested file under the name of the
manifest, a link under that name, or what stands in a directory that cannot be listed. -/
namespace Sippycup.Evidence.Inventory
open Sippycup.Python Sippycup.Ip

/-- A node at a path, through directories that allow it. -/
inductive Reaches (through : Bool → Prop) : Node → Path → Node → Prop
  | entry {listed : Bool} {entries : List (Text × Node)} {name : Text} {node : Node} (passes : through listed)
      (member : (name, node) ∈ entries) : Reaches through (.directory listed entries) [name] node
  | inside {listed : Bool} {entries : List (Text × Node)} {name : Text} {directory node : Node} {path : Path}
      (passes : through listed) (member : (name, directory) ∈ entries) (further : Reaches through directory path node) :
      Reaches through (.directory listed entries) (name :: path) node

/-- A node stands at a path. -/
def At : Node → Path → Node → Prop := Reaches fun _ => True

/-- A node stands at a path whose directories can all be listed. -/
def Listed : Node → Path → Node → Prop := Reaches (· = true)

def Node.isFile : Node → Bool
  | .file _ => true
  | _ => false

def Node.isLink : Node → Bool
  | .link _ => true
  | _ => false

/-- The artifacts are the regular files, without the manifest of the root, and there is no link. -/
structure Complete (root : Node) (artifacts : List Artifact) : Prop where
  files : ∃ paths : List Path, artifacts.map Artifact.path = paths.map posix ∧
    paths.Pairwise (fun a b => pathKey a < pathKey b) ∧
      ∀ path, path ∈ paths ↔ (∃ node, At root path node ∧ node.isFile = true) ∧ path ≠ [manifestName]
  once : (artifacts.map Artifact.path).Nodup
  linkless : ∀ path node, At root path node → node.isLink = false

/-- No regular file but the manifest of the root, and no link, is called like the manifest or stands where
it cannot be listed. -/
def NothingHidden (root : Node) : Prop :=
  ∀ path node, At root path node → node.isFile = true ∧ path ≠ [manifestName] ∨ node.isLink = true →
    path.getLastD "" ≠ manifestName ∧ Listed root path node

theorem Listed.at {root node : Node} {path : Path} (listed : Listed root path node) : At root path node := by
  induction listed with
  | entry _ member => exact .entry trivial member
  | inside _ member _ ih => exact .inside trivial member ih

section traversal

mutual
theorem mem_rglob : ∀ (root : Node) {path : Path} {node : Node}, (path, node) ∈ root.rglob ↔ Listed root path node
  | .file _, _, _ | .link _, _, _ | .special, _, _ => by
    constructor
    · intro none
      cases none
    · intro none
      cases none
  | .directory false _, _, _ => by
    constructor
    · intro none
      cases none
    · intro reached
      cases reached with
      | entry passes _ | inside passes _ _ => cases passes
  | .directory true entries, path, node => by
    rw [Node.rglob, mem_rglobEntries entries]
    constructor
    · rintro ⟨name, child, member, ⟨rfl, rfl⟩ | ⟨rest, rfl, further⟩⟩
      · exact .entry rfl member
      · exact .inside rfl member further
    · intro reached
      cases reached with
      | entry _ member => exact ⟨_, _, member, .inl ⟨rfl, rfl⟩⟩
      | inside _ member further => exact ⟨_, _, member, .inr ⟨_, rfl, further⟩⟩

theorem mem_rglobEntries : ∀ (entries : List (Text × Node)) {path : Path} {node : Node},
    (path, node) ∈ rglobEntries entries ↔ ∃ name child, (name, child) ∈ entries ∧
      (path = [name] ∧ node = child ∨ ∃ rest, path = name :: rest ∧ Listed child rest node)
  | [], _, _ => by simp [rglobEntries]
  | (name, child) :: entries, path, node => by
    rw [rglobEntries, List.cons_append, List.mem_cons, List.mem_append, mem_rglobEntries entries]
    constructor
    · rintro (here | inside | later)
      · cases here
        exact ⟨name, child, List.mem_cons_self .., .inl ⟨rfl, rfl⟩⟩
      · obtain ⟨⟨rest, deep⟩, member, same⟩ := List.mem_map.mp inside
        cases same
        exact ⟨name, child, List.mem_cons_self .., .inr ⟨rest, rfl, (mem_rglob child).mp member⟩⟩
      · obtain ⟨other, node', member, found⟩ := later
        exact ⟨other, node', List.mem_cons_of_mem _ member, found⟩
    · rintro ⟨other, node', member, found⟩
      rcases List.mem_cons.mp member with here | later
      · cases here
        rcases found with ⟨rfl, rfl⟩ | ⟨rest, rfl, further⟩
        · exact .inl rfl
        · exact .inr (.inl (List.mem_map.mpr ⟨(rest, node), (mem_rglob child).mpr further, rfl⟩))
      · exact .inr (.inr ⟨other, node', later, found⟩)
end

theorem rglobEntries_head {entries : List (Text × Node)} {path : Path} {node : Node}
    (member : (path, node) ∈ rglobEntries entries) : ∃ name ∈ entries.map Prod.fst, path.head? = some name := by
  obtain ⟨name, child, there, ⟨rfl, -⟩ | ⟨rest, rfl, -⟩⟩ := (mem_rglobEntries entries).mp member
  · exact ⟨name, List.mem_map_of_mem there, rfl⟩
  · exact ⟨name, List.mem_map_of_mem there, rfl⟩

theorem rglob_ne_nil {root node : Node} {path : Path} (member : (path, node) ∈ root.rglob) : path ≠ [] := by
  cases (mem_rglob root).mp member with
  | entry | inside => exact List.cons_ne_nil _ _

mutual
theorem rglob_nodup : ∀ (root : Node), root.Proper → (root.rglob.map Prod.fst).Nodup
  | .file _, _ | .link _, _ | .special, _ | .directory false _, _ => List.nodup_nil
  | .directory true entries, proper => rglobEntries_nodup entries proper.1 proper.2

theorem rglobEntries_nodup : ∀ (entries : List (Text × Node)), (entries.map Prod.fst).Nodup → ProperEntries entries →
    ((rglobEntries entries).map Prod.fst).Nodup
  | [], _, _ => List.nodup_nil
  | (name, child) :: entries, distinct, proper => by
    obtain ⟨fresh, distinct⟩ := List.nodup_cons.mp distinct
    have deeper := (rglob_nodup child proper.1.2).map (List.cons_injective (a := name))
    have later := rglobEntries_nodup entries distinct proper.2
    rw [rglobEntries, List.cons_append, List.map_cons, List.map_append, List.map_map, List.nodup_cons]
    have front : ∀ path ∈ (rglobEntries entries).map Prod.fst, path.head? ≠ some name := by
      intro path member same
      obtain ⟨⟨_, node⟩, there, rfl⟩ := List.mem_map.mp member
      obtain ⟨other, listed, head⟩ := rglobEntries_head there
      rw [head] at same
      exact fresh (Option.some.inj same ▸ listed)
    constructor
    · intro again
      rcases List.mem_append.mp again with inside | elsewhere
      · obtain ⟨⟨rest, node⟩, there, same⟩ := List.mem_map.mp inside
        exact rglob_ne_nil there (List.cons.inj same).2
      · exact front _ elsewhere rfl
    · rw [List.map_map] at deeper
      refine List.nodup_append.mpr ⟨deeper, later, fun a inside b elsewhere same => ?_⟩
      obtain ⟨found, -, rfl⟩ := List.mem_map.mp inside
      exact front b elsewhere (same ▸ rfl)
end

theorem properEntries_mem {entries : List (Text × Node)} (proper : ProperEntries entries) {name : Text} {child : Node}
    (member : (name, child) ∈ entries) : IsName name ∧ child.Proper := by
  induction entries with
  | nil => cases member
  | cons entry rest ih =>
    rcases List.mem_cons.mp member with here | later
    · cases here
      exact proper.1
    · exact ih proper.2 later

theorem at_names_nil {through : Bool → Prop} {root node : Node} {path : Path} (reached : Reaches through root path node) :
    path ≠ [] := by
  cases reached with
  | entry | inside => exact List.cons_ne_nil _ _

theorem at_names {root node : Node} {path : Path} (proper : root.Proper) (reached : At root path node) :
    path ≠ [] ∧ ∀ name ∈ path, IsName name := by
  induction reached with
  | entry _ member =>
    refine ⟨List.cons_ne_nil _ _, fun name inside => ?_⟩
    rw [List.mem_singleton.mp inside]
    exact (properEntries_mem proper.2 member).1
  | inside _ member _ ih =>
    obtain ⟨named, child⟩ := properEntries_mem proper.2 member
    exact ⟨List.cons_ne_nil _ _, List.forall_mem_cons.mpr ⟨named, (ih child).2⟩⟩

/-- One node stands at a path. -/
theorem at_unique {root a b : Node} {path : Path} (proper : root.Proper) (left : At root path a)
    (right : At root path b) : a = b := by
  have same : ∀ {entries : List (Text × Node)} {name : Text} {c d : Node}, (entries.map Prod.fst).Nodup →
      (name, c) ∈ entries → (name, d) ∈ entries → c = d := fun distinct one two =>
    (Prod.ext_iff.mp (List.inj_on_of_nodup_map distinct one two rfl)).2
  induction left with
  | entry _ member =>
    cases right with
    | entry _ other => exact same proper.1 member other
    | inside _ _ further => exact absurd rfl (at_names_nil further)
  | inside _ member further ih =>
    cases right with
    | entry _ _ => exact absurd rfl (at_names_nil further)
    | inside _ other deeper =>
      cases same proper.1 member other
      exact ih (properEntries_mem proper.2 member).2 deeper

/-- A path is read off its text. -/
theorem posix_injective {a b : Path} (left : a ≠ [] ∧ ∀ name ∈ a, IsName name)
    (right : b ≠ [] ∧ ∀ name ∈ b, IsName name) (same : posix a = posix b) : a = b := by
  have parts : ∀ {path : Path}, path ≠ [] ∧ (∀ name ∈ path, IsName name) →
      (posix path).codes.splitOn slash = path.map Text.codes := by
    intro path names
    refine List.splitOn_intercalate slash ?_ (fun none => names.1 (List.map_eq_nil_iff.mp none))
    intro part member
    obtain ⟨name, inside, rfl⟩ := List.mem_map.mp member
    exact (names.2 name inside).2.1
  have codes : a.map Text.codes = b.map Text.codes := by
    rw [← parts left, same, parts right]
  exact List.map_injective_iff.mpr (fun _ _ => Text.ext) codes

end traversal

section inventory
variable {around : Surroundings} {retain : Bool} {artifacts : List Artifact}

def isArtifact (found : Path × Node) : Bool := decide (found.1.getLastD "" ≠ manifestName) && found.2.isFile

/-- The loop records the files that are not called like the manifest, and meets no link but under that name. -/
theorem inventory_ok {found : List (Path × Node)} (listed : around.inventory retain found = .ok artifacts) :
    artifacts.map Artifact.path = (found.filter isArtifact).map (fun entry => posix entry.1) ∧
      ∀ entry ∈ found, entry.1.getLastD "" ≠ manifestName → entry.2.isLink = false := by
  induction found generalizing artifacts with
  | nil =>
    cases listed
    exact ⟨rfl, List.forall_mem_nil _⟩
  | cons entry rest ih =>
    obtain ⟨path, node⟩ := entry
    rw [Surroundings.inventory.eq_def] at listed
    dsimp only at listed
    rw [List.forall_mem_cons]
    split at listed
    · rename_i named
      obtain ⟨paths, links⟩ := ih listed
      have skipped : isArtifact (path, node) = false := by
        rw [isArtifact, decide_eq_false (not_not.mpr named), Bool.false_and]
      rw [List.filter_cons_of_neg (by rw [skipped]; exact Bool.false_ne_true)]
      exact ⟨paths, fun other => absurd named other, links⟩
    · rename_i other
      cases node with
      | link target => cases listed
      | file content =>
        cases content with
        | none => cases listed
        | some content =>
          obtain ⟨later, recorded, same⟩ := bind_ok.mp listed
          cases same
          obtain ⟨paths, links⟩ := ih recorded
          have taken : isArtifact (path, .file (some content)) = true := by
            rw [isArtifact, decide_eq_true other]
            rfl
          rw [List.filter_cons_of_pos taken, List.map_cons, List.map_cons, paths]
          exact ⟨rfl, fun _ => rfl, links⟩
      | directory listable entries | special =>
        obtain ⟨paths, links⟩ := ih listed
        rw [List.filter_cons_of_neg (by simp [isArtifact, Node.isFile])]
        exact ⟨paths, fun _ => rfl, links⟩

theorem mem_sortPaths {found : List (Path × Node)} {entry : Path × Node} : entry ∈ sortPaths found ↔ entry ∈ found :=
  (List.perm_insertionSort _ _).mem_iff

theorem pathKey_injective : Function.Injective pathKey :=
  List.map_injective_iff.mpr fun _ _ => Text.ext

/-- Distinct paths are sorted strictly. -/
theorem sortPaths_strict {found : List (Path × Node)} (distinct : (found.map Prod.fst).Nodup) :
    ((sortPaths found).map Prod.fst).Pairwise fun a b => pathKey a < pathKey b := by
  have unique : ((sortPaths found).map Prod.fst).Nodup :=
    ((List.perm_insertionSort _ found).map Prod.fst).nodup_iff.mpr distinct
  have sorted : ((sortPaths found).map Prod.fst).Pairwise fun a b => pathKey a ≤ pathKey b :=
    List.pairwise_map.mpr (List.pairwise_insertionSort (fun a b : Path × Node => pathKey a.1 ≤ pathKey b.1) found)
  exact (sorted.and unique).imp fun both => lt_of_le_of_ne both.1 fun same => both.2 (pathKey_injective same)

theorem buildEvidenceManifest_ok {root : Node} {createdAt : Option Text} {manifest : EvidenceManifest}
    (made : buildEvidenceManifest around root createdAt = .ok manifest) :
    ∃ retain, around.inventory retain (sortPaths root.rglob) = .ok manifest.artifacts := by
  cases root with
  | directory listed entries =>
    simp only [buildEvidenceManifest, bind_ok, pure_ok] at made
    obtain ⟨plan, -, retain, -, artifacts, listed, findings, -, state, -, rfl⟩ := made
    exact ⟨retain, listed⟩
  | file | link | special => cases made

/-- A manifest that is built is complete exactly when nothing hides in the directory. -/
theorem inventory_complete_iff (around : Surroundings) (root : Node) (createdAt : Option Text)
    (manifest : EvidenceManifest) (proper : root.Proper)
    (made : buildEvidenceManifest around root createdAt = .ok manifest) :
    Complete root manifest.artifacts ↔ NothingHidden root := by
  obtain ⟨retain, listed⟩ := buildEvidenceManifest_ok made
  obtain ⟨recorded, links⟩ := inventory_ok listed
  have kept : ∀ path, path ∈ ((sortPaths root.rglob).filter isArtifact).map Prod.fst ↔
      ∃ node, Listed root path node ∧ node.isFile = true ∧ path.getLastD "" ≠ manifestName := by
    intro path
    simp only [List.mem_map, List.mem_filter, mem_sortPaths, isArtifact, Bool.and_eq_true, decide_eq_true_eq]
    constructor
    · rintro ⟨⟨_, node⟩, ⟨member, other, file⟩, rfl⟩
      exact ⟨node, (mem_rglob root).mp member, file, other⟩
    · rintro ⟨node, reached, file, other⟩
      exact ⟨(path, node), ⟨(mem_rglob root).mpr reached, other, file⟩, rfl⟩
  constructor
  · rintro ⟨⟨paths, same, -, files⟩, -, linkless⟩ path node reached hidden
    rcases hidden with ⟨file, other⟩ | link
    · have inside := (files path).mpr ⟨⟨node, reached, file⟩, other⟩
      have text : posix path ∈ ((sortPaths root.rglob).filter isArtifact).map fun entry => posix entry.1 := by
        rw [← recorded, same]
        exact List.mem_map_of_mem inside
      obtain ⟨entry, member, written⟩ := List.mem_map.mp text
      obtain ⟨found, there, -, named⟩ := (kept entry.1).mp (List.mem_map_of_mem member)
      have here : entry.1 = path := posix_injective (at_names proper there.at) (at_names proper reached) written
      rw [here] at there named
      rw [at_unique proper reached there.at]
      exact ⟨named, there⟩
    · rw [linkless path node reached] at link
      cases link
  · intro visible
    have strict : (((sortPaths root.rglob).filter isArtifact).map Prod.fst).Pairwise fun a b => pathKey a < pathKey b :=
      (sortPaths_strict (rglob_nodup root proper)).sublist (List.filter_sublist.map Prod.fst)
    constructor
    · refine ⟨_, by rw [recorded, List.map_map]; rfl, strict, fun path => ?_⟩
      rw [kept]
      constructor
      · rintro ⟨node, reached, file, other⟩
        exact ⟨⟨node, reached.at, file⟩, fun same => other (same ▸ rfl)⟩
      · rintro ⟨⟨node, reached, file⟩, other⟩
        obtain ⟨named, there⟩ := visible path node reached (.inl ⟨file, other⟩)
        exact ⟨node, there, file, named⟩
    · rw [recorded, ← Function.comp_def posix Prod.fst, ← List.map_map]
      refine List.Nodup.map_on ?_ (strict.imp fun less same => less.ne (congrArg pathKey same))
      intro a left b right same
      obtain ⟨_, reachedA, -⟩ := (kept a).mp left
      obtain ⟨_, reachedB, -⟩ := (kept b).mp right
      exact posix_injective (at_names proper reachedA.at) (at_names proper reachedB.at) same
    · intro path node reached
      by_contra link
      have link : node.isLink = true := by simpa using link
      obtain ⟨named, there⟩ := visible path node reached (.inr link)
      have member := mem_sortPaths.mpr ((mem_rglob root).mpr there)
      exact absurd link (by rw [links _ member named]; exact Bool.false_ne_true)

/-- Surroundings that know no media type and find nothing. -/
def plainSurroundings : Surroundings where
  guessType _ := none
  casing := Casing.ascii
  utcNow := "2026-01-01T00:00:00.000000Z"
  privacyFindings _ _ := .ok []

def plainRun : Node := .directory true [("versions", .file (some [49, 10]))]

theorem plain_run_is_complete : ∃ manifest, buildEvidenceManifest plainSurroundings plainRun none = .ok manifest ∧
    Complete plainRun manifest.artifacts := by
  have proper : plainRun.Proper := ⟨List.nodup_singleton _, ⟨by decide, trivial⟩, trivial⟩
  have visible : NothingHidden plainRun := by
    intro path node reached _
    cases reached with
    | entry _ member =>
      cases List.mem_singleton.mp member
      exact ⟨by decide, .entry rfl member⟩
    | inside _ member further =>
      cases List.mem_singleton.mp member
      cases further
  have made : ∃ manifest, buildEvidenceManifest plainSurroundings plainRun none = .ok manifest := ⟨_, rfl⟩
  obtain ⟨manifest, made⟩ := made
  exact ⟨manifest, made, (inventory_complete_iff _ _ _ manifest proper made).mpr visible⟩

def nestedRun : Node := .directory true [("media", .directory true [(manifestName, .file (some [49, 10]))])]

/-- A file below a directory of the run is passed over for its name. -/
theorem nested_manifest_is_skipped : ¬ ∀ around root createdAt manifest, Node.Proper root →
    buildEvidenceManifest around root createdAt = .ok manifest → Complete root manifest.artifacts := by
  intro complete
  have proper : nestedRun.Proper := ⟨List.nodup_singleton _, ⟨by decide, List.nodup_singleton _, ⟨by decide, trivial⟩,
    trivial⟩, trivial⟩
  have made : ∃ manifest, buildEvidenceManifest plainSurroundings nestedRun none = .ok manifest ∧
      manifest.artifacts = [] := ⟨_, rfl, rfl⟩
  obtain ⟨manifest, made, none⟩ := made
  obtain ⟨⟨paths, same, -, files⟩, -, -⟩ := complete _ _ _ manifest proper made
  have there : (["media", manifestName] : Path) ∈ paths :=
    (files _).mpr ⟨⟨.file (some [49, 10]), .inside trivial (List.mem_singleton_self _)
      (.entry trivial (List.mem_singleton_self _)), rfl⟩, by decide⟩
  rw [none, List.map_nil, eq_comm, List.map_eq_nil_iff] at same
  rw [same] at there
  cases there

end inventory
end Sippycup.Evidence.Inventory
