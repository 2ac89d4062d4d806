import Sippycup.Machine.Effect
import Sippycup.Python.Text

/-! Several files published together: each is staged in a temporary file, then all are linked under
their names, and what was linked is undone when any of it fails. -/
namespace Sippycup.Campaign.Outputs
open Sippycup.Python Sippycup.Machine

structure Path where
  parent : Text
  name : Text
  deriving DecidableEq

def Path.text (path : Path) : Text := path.parent ++ "/" ++ path.name

abbrev Content := List UInt8

/-- The content of every file. -/
abbrev Files := Path → Option Content

inductive Failure where
  | manifest (message : Text)
  | os (message : String)

/-- What the operating system answers to each operation, and to each removal; and the random part
of the names of temporary files. -/
structure Outside where
  failure : Nat → Option String
  removal : Nat → Option String
  random : Nat → Text

/-- The files, the operations and removals so far, and the variables `staged` and `linked`. -/
structure State where
  files : Files
  operations : Nat
  removals : Nat
  staged : List (Path × Path)
  linked : List Path

def State.start (files : Files) : State := ⟨files, 0, 0, [], []⟩

def State.counted (s : State) : State := { s with operations := s.operations + 1 }

def State.put (s : State) (path : Path) (content : Option Content) : State :=
  { s with files := Function.update s.files path content }

section program
variable (outside : Outside)

/-- An operation that may fail, without effect. -/
def operate : Eff State Failure Unit := fun s =>
  match outside.failure s.operations with
  | some message => (.error (.os message), s.counted)
  | none => (.ok (), s.counted)

def temporaryOf (path : Path) (random : Text) : Path :=
  { path with name := Text.ofString "." ++ path.name ++ "." ++ random ++ ".tmp" }

/-- `tempfile.mkstemp`: never the name of a file that exists. -/
def mkstemp (path : Path) : Eff State Failure Path := do
  operate outside
  let s ← Eff.get
  let temporary := temporaryOf path (outside.random s.operations)
  if (s.files temporary).isSome then Eff.raise (.os "No usable temporary file name found")
  else
    Eff.modify fun s => s.put temporary (some [])
    return temporary

/-- `os.fdopen`, `write`, `flush`, `os.fsync` and `close`. -/
def fill (temporary : Path) (content : Content) : Eff State Failure Unit := do
  operate outside
  operate outside
  operate outside
  Eff.modify fun s => s.put temporary (some content)
  operate outside
  operate outside

def stage (output : Path × Content) : Eff State Failure Unit := do
  let temporary ← mkstemp outside output.1
  Eff.modify fun s => { s with staged := s.staged ++ [(output.1, temporary)] }
  fill outside temporary output.2

def link (pair : Path × Path) : Eff State Failure Unit := do
  operate outside
  let s ← Eff.get
  if (s.files pair.1).isSome then
    Eff.raise (.manifest (Text.ofString "refusing to overwrite existing output " ++ pair.1.text))
  else
    match s.files pair.2 with
    | none => Eff.raise (.os "No such file or directory")
    | some content =>
      Eff.modify fun s => s.put pair.1 (some content)
      Eff.modify fun s => { s with linked := s.linked ++ [pair.1] }

/-- `unlink(missing_ok=True)` -/
def unlink (path : Path) : Eff State Failure Unit := fun s =>
  let next := { s with removals := s.removals + 1 }
  match outside.removal s.removals with
  | some message => (.error (.os message), next)
  | none => (.ok (), next.put path none)

def publish (outputs : List (Path × Content)) : Eff State Failure Unit := do
  Eff.forEach (stage outside) outputs
  let s ← Eff.get
  Eff.forEach (link outside) s.staged

def undo (failure : Failure) : Eff State Failure Unit := do
  let s ← Eff.get
  Eff.forEach (unlink outside) s.linked
  Eff.raise failure

def removeStaged : Eff State Failure Unit := do
  let s ← Eff.get
  Eff.forEach (fun pair => unlink outside pair.2) s.staged

/-- `_write_outputs_atomic` -/
def writeOutputsAtomic (outputs : List (Path × Content)) : Eff State Failure Unit :=
  Eff.ensuring (Eff.rescue (publish outside outputs) (undo outside)) (removeStaged outside)

end program

section invariants
variable {outside : Outside} {files : Files}

/-- The files made are those listed, under names that were free; nothing else is changed. -/
structure Undoable (files : Files) (s : State) : Prop where
  untouched : ∀ path, path ∉ s.staged.map Prod.snd → path ∉ s.linked → s.files path = files path
  free : ∀ path, path ∈ s.staged.map Prod.snd ∨ path ∈ s.linked → files path = none

/-- No operation has failed. -/
def Quiet (outside : Outside) (s : State) : Prop := ∀ n < s.operations, outside.failure n = none

/-- An output with its path and temporary file. -/
abbrev Item := (Path × Content) × (Path × Path)

/-- Each output of the plan is staged in full, and those linked are under their names. -/
structure Progress (outside : Outside) (files : Files) (plan linked : List Item) (s : State) : Prop where
  undoable : Undoable files s
  quiet : Quiet outside s
  staged : s.staged = plan.map Prod.snd
  linkedPaths : s.linked = linked.map fun item => item.1.1
  held : ∀ item ∈ plan, item.2.1 = item.1.1 ∧ s.files item.2.2 = some item.1.2
  published : ∀ item ∈ linked, s.files item.1.1 = some item.1.2
  apart : ∀ item ∈ linked, ∀ other ∈ plan, item.1.1 ≠ other.2.2

theorem triple_operate {P : State → Prop} {Q : Unit → State → Prop} {E : Failure → State → Prop}
    (passed : ∀ s, P s → outside.failure s.operations = none → Q () s.counted)
    (failed : ∀ s failure, P s → E failure s.counted) : Eff.Triple P (operate outside) Q E := by
  intro s holds
  rw [operate]
  cases answer : outside.failure s.operations with
  | none =>
    refine ⟨?_, ?_⟩
    · rintro ⟨⟩ t ⟨⟩
      exact passed s holds answer
    · rintro e t ⟨⟩
  | some message =>
    refine ⟨?_, ?_⟩
    · rintro a t ⟨⟩
    · rintro e t ⟨⟩
      exact failed s _ holds

theorem Quiet.counted {s : State} (quiet : Quiet outside s) (answer : outside.failure s.operations = none) :
    Quiet outside s.counted := by
  intro n before
  rcases Nat.lt_succ_iff_lt_or_eq.mp before with earlier | rfl
  · exact quiet n earlier
  · exact answer

theorem Progress.counted {plan linked : List Item} {s : State} (progress : Progress outside files plan linked s)
    (answer : outside.failure s.operations = none) : Progress outside files plan linked s.counted :=
  { progress with undoable := ⟨progress.undoable.untouched, progress.undoable.free⟩, quiet := progress.quiet.counted answer }

/-- The plan, and one more output whose temporary file is made. -/
structure Opened (outside : Outside) (files : Files) (plan : List Item) (path temporary : Path) (s : State) :
    Prop where
  undoable : Undoable files s
  quiet : Quiet outside s
  staged : s.staged = plan.map Prod.snd ++ [(path, temporary)]
  unlinked : s.linked = []
  held : ∀ item ∈ plan, item.2.1 = item.1.1 ∧ s.files item.2.2 = some item.1.2
  other : ∀ item ∈ plan, item.2.2 ≠ temporary

theorem Opened.counted {plan : List Item} {path temporary : Path} {s : State}
    (opened : Opened outside files plan path temporary s) (answer : outside.failure s.operations = none) :
    Opened outside files plan path temporary s.counted :=
  { opened with undoable := ⟨opened.undoable.untouched, opened.undoable.free⟩, quiet := opened.quiet.counted answer }

theorem triple_mkstemp (plan : List Item) (path : Path) :
    Eff.Triple (Progress outside files plan []) (mkstemp outside path)
      (fun temporary s => Opened outside files plan path temporary { s with staged := s.staged ++ [(path, temporary)] })
      fun _ => Undoable files := by
  refine Eff.triple_bind (Q := fun _ => Progress outside files plan [])
    (triple_operate (fun s progress answer => progress.counted answer)
      fun s _ progress => ⟨progress.undoable.untouched, progress.undoable.free⟩) fun _ => ?_
  apply Eff.triple_reading
  intro s progress
  dsimp only
  generalize temporaryOf path (outside.random s.operations) = temporary
  split
  · apply Eff.triple_raising
    rintro _ rfl
    exact progress.undoable
  · rename_i missing
    have missing : s.files temporary = none := Option.not_isSome_iff_eq_none.mp missing
    have other : ∀ item ∈ plan, item.2.2 ≠ temporary := by
      intro item member same
      rw [← same, (progress.held item member).2] at missing
      cases missing
    have unlinked : s.linked = [] := progress.linkedPaths
    refine Eff.triple_bind (Q := fun _ t => t = s.put temporary (some []))
      (Eff.triple_modifying fun _ same => same ▸ rfl) fun _ => Eff.triple_returning ?_
    rintro _ rfl
    have listed : ∀ p, p ∈ (s.staged ++ [(path, temporary)]).map Prod.snd ↔ p ∈ s.staged.map Prod.snd ∨ p = temporary := by
      intro p
      rw [List.map_append, List.mem_append, List.map_singleton, List.mem_singleton]
    refine ⟨⟨fun p unstaged _ => ?_, fun p made => ?_⟩, progress.quiet, ?_, unlinked, fun item member => ?_, other⟩
    · obtain ⟨before, different⟩ := not_or.mp (mt (listed p).mpr unstaged)
      refine (Function.update_of_ne different _ _).trans (progress.undoable.untouched p before ?_)
      rw [unlinked]
      exact List.not_mem_nil
    · rcases made with staged | linked
      · rcases (listed p).mp staged with before | rfl
        · exact progress.undoable.free p (.inl before)
        · refine (progress.undoable.untouched p ?_ ?_).symm.trans missing
          · intro inside
            rw [progress.staged, List.map_map] at inside
            obtain ⟨item, member, same⟩ := List.mem_map.mp inside
            exact other item member same
          · rw [unlinked]
            exact List.not_mem_nil
      · exact progress.undoable.free p (.inr linked)
    · exact congrArg (· ++ [(path, temporary)]) progress.staged
    · obtain ⟨named, content⟩ := progress.held item member
      exact ⟨named, (Function.update_of_ne (other item member) _ _).trans content⟩

/-- The temporary file gets the content; one more output is staged. -/
theorem Opened.filled {plan : List Item} {path temporary : Path} {content : Content} {s : State}
    (opened : Opened outside files plan path temporary s) :
    Progress outside files (plan ++ [((path, content), (path, temporary))]) [] (s.put temporary (some content)) where
  undoable := by
    refine ⟨fun p unstaged unlinked => ?_, opened.undoable.free⟩
    have different : p ≠ temporary := by
      rintro rfl
      refine unstaged (?_ : p ∈ s.staged.map Prod.snd)
      rw [opened.staged, List.map_append]
      exact List.mem_append_right _ List.mem_cons_self
    exact (Function.update_of_ne different _ _).trans (opened.undoable.untouched p unstaged unlinked)
  quiet := opened.quiet
  staged := by
    rw [List.map_append]
    exact opened.staged
  linkedPaths := opened.unlinked
  held := by
    refine List.forall_mem_append.mpr ⟨fun item member => ?_, List.forall_mem_singleton.mpr ⟨rfl, Function.update_self ..⟩⟩
    obtain ⟨named, held⟩ := opened.held item member
    exact ⟨named, (Function.update_of_ne (opened.other item member) _ _).trans held⟩
  published := nofun
  apart := nofun

theorem triple_stage (plan : List Item) (output : Path × Content) :
    Eff.Triple (Progress outside files plan []) (stage outside output)
      (fun _ s => ∃ item : Item, item.1 = output ∧ Progress outside files (plan ++ [item]) [] s)
      fun _ => Undoable files := by
  refine Eff.triple_bind (triple_mkstemp plan output.1) fun temporary => ?_
  refine Eff.triple_bind (Q := fun _ => Opened outside files plan output.1 temporary)
    (Eff.triple_modifying fun _ opened => opened) fun _ => ?_
  have waits : Eff.Triple (Opened outside files plan output.1 temporary) (operate outside)
      (fun _ => Opened outside files plan output.1 temporary) fun _ => Undoable files :=
    triple_operate (fun s opened answer => opened.counted answer)
      fun s _ opened => ⟨opened.undoable.untouched, opened.undoable.free⟩
  have staged : Eff.Triple (Progress outside files (plan ++ [(output, (output.1, temporary))]) []) (operate outside)
      (fun _ => Progress outside files (plan ++ [(output, (output.1, temporary))]) []) fun _ => Undoable files :=
    triple_operate (fun s progress answer => progress.counted answer)
      fun s _ progress => ⟨progress.undoable.untouched, progress.undoable.free⟩
  refine Eff.triple_bind waits fun _ => Eff.triple_bind waits fun _ => Eff.triple_bind waits fun _ => ?_
  refine Eff.triple_bind
    (Q := fun _ => Progress outside files (plan ++ [(output, (output.1, temporary))]) [])
    (Eff.triple_modifying fun s opened => opened.filled) fun _ => ?_
  refine Eff.triple_bind staged fun _ => Eff.triple_consequence staged (fun _ => id) ?_ fun _ _ => id
  exact fun _ s progress => ⟨_, rfl, progress⟩

theorem triple_stages (outputs : List (Path × Content)) :
    Eff.Triple (Progress outside files [] []) (Eff.forEach (stage outside) outputs)
      (fun _ s => ∃ plan : List Item, plan.map Prod.fst = outputs ∧ Progress outside files plan [] s)
      fun _ => Undoable files := by
  refine Eff.triple_consequence (Eff.triple_forEach (P := fun done s =>
    ∃ plan : List Item, plan.map Prod.fst = done ∧ Progress outside files plan [] s) ?_)
    (fun s progress => ⟨[], rfl, progress⟩) (fun _ _ => id) fun _ _ => id
  intro before output after _
  refine Eff.triple_exists fun plan => Eff.triple_fact fun same => ?_
  refine Eff.triple_consequence (triple_stage plan output) (fun _ => id) ?_ fun _ _ => id
  rintro _ s ⟨item, rfl, progress⟩
  exact ⟨plan ++ [item], by rw [List.map_append, same, List.map_singleton], progress⟩

/-- One more output of the plan is linked. -/
theorem Progress.link {plan linked : List Item} {item : Item} {s : State}
    (progress : Progress outside files plan linked s) (missing : s.files item.1.1 = none) :
    Progress outside files plan (linked ++ [item])
      { s.put item.1.1 (some item.1.2) with linked := s.linked ++ [item.1.1] } where
  undoable := by
    have unstaged : item.1.1 ∉ s.staged.map Prod.snd := by
      rw [progress.staged, List.map_map]
      intro inside
      obtain ⟨other, listed, same⟩ := List.mem_map.mp inside
      rw [← same, Function.comp_apply, (progress.held other listed).2] at missing
      cases missing
    have unlinked : item.1.1 ∉ s.linked := by
      rw [progress.linkedPaths]
      intro inside
      obtain ⟨other, listed, same⟩ := List.mem_map.mp inside
      rw [← same, progress.published other listed] at missing
      cases missing
    refine ⟨fun path outside_ unlinked' => ?_, fun path made => ?_⟩
    · obtain ⟨before, different⟩ := not_or.mp (mt List.mem_append.mpr unlinked')
      have different : path ≠ item.1.1 := fun same => different (List.mem_singleton.mpr same)
      exact (Function.update_of_ne different _ _).trans (progress.undoable.untouched path outside_ before)
    · rcases made with staged | linked
      · exact progress.undoable.free path (.inl staged)
      · rcases List.mem_append.mp linked with before | here
        · exact progress.undoable.free path (.inr before)
        · rw [List.mem_singleton.mp here, ← progress.undoable.untouched item.1.1 unstaged unlinked]
          exact missing
  quiet := progress.quiet
  staged := progress.staged
  linkedPaths := by
    rw [List.map_append, ← progress.linkedPaths]
    rfl
  held := fun other listed => by
    obtain ⟨named, held⟩ := progress.held other listed
    have different : other.2.2 ≠ item.1.1 := by
      intro same
      rw [same, missing] at held
      cases held
    exact ⟨named, (Function.update_of_ne different _ _).trans held⟩
  published := by
    refine List.forall_mem_append.mpr ⟨fun other listed => ?_, List.forall_mem_singleton.mpr (Function.update_self ..)⟩
    have held := progress.published other listed
    have different : other.1.1 ≠ item.1.1 := by
      intro same
      rw [same, missing] at held
      cases held
    exact (Function.update_of_ne different _ _).trans held
  apart := by
    refine List.forall_mem_append.mpr ⟨progress.apart, List.forall_mem_singleton.mpr fun other listed same => ?_⟩
    rw [same, (progress.held other listed).2] at missing
    cases missing

theorem triple_link {plan linked : List Item} {item : Item} (member : item ∈ plan) :
    Eff.Triple (Progress outside files plan linked) (link outside item.2)
      (fun _ => Progress outside files plan (linked ++ [item])) fun _ => Undoable files := by
  refine Eff.triple_bind (Q := fun _ => Progress outside files plan linked)
    (triple_operate (fun s progress answer => progress.counted answer)
      fun s _ progress => ⟨progress.undoable.untouched, progress.undoable.free⟩) fun _ => ?_
  apply Eff.triple_reading
  intro s progress
  obtain ⟨named, held⟩ := progress.held item member
  split
  · apply Eff.triple_raising
    rintro _ rfl
    exact progress.undoable
  · rename_i missing
    have missing : s.files item.1.1 = none := named ▸ Option.not_isSome_iff_eq_none.mp missing
    rw [held]
    refine Eff.triple_bind (Q := fun _ t => t = s.put item.1.1 (some item.1.2))
      (Eff.triple_modifying fun _ same => by rw [same, named]) fun _ => Eff.triple_modifying ?_
    rintro _ rfl
    rw [named]
    exact progress.link missing

/-- From no file made to every output published, or to files that can all be removed again. -/
theorem triple_publish (outputs : List (Path × Content)) :
    Eff.Triple (Progress outside files [] []) (publish outside outputs)
      (fun _ s => ∃ plan : List Item, plan.map Prod.fst = outputs ∧ Progress outside files plan plan s)
      fun _ => Undoable files := by
  refine Eff.triple_bind (triple_stages outputs) fun _ => ?_
  refine Eff.triple_reading fun s ⟨plan, same, progress⟩ => ?_
  have each : Eff.Triple (Progress outside files plan []) (Eff.forEach (fun item : Item => link outside item.2) plan)
      (fun _ => Progress outside files plan plan) fun _ => Undoable files :=
    Eff.triple_forEach fun before item after split =>
      triple_link (split ▸ List.mem_append_right _ List.mem_cons_self)
  rw [progress.staged, Eff.forEach_map]
  refine Eff.triple_consequence each ?_ (fun _ t published => ⟨plan, same, published⟩) fun _ _ => id
  rintro _ rfl
  exact progress

end invariants

section removal
variable {outside : Outside} {files : Files}

/-- The files without some of them. -/
def without (files : Files) (paths : List Path) : Files := fun path => if path ∈ paths then none else files path

/-- Where removals succeed, so does the loop over them. -/
theorem forEach_unlink (removes : ∀ n, outside.removal n = none) (paths : List Path) (s : State) :
    Eff.forEach (unlink outside) paths s =
      (.ok (), { s with files := without s.files paths, removals := s.removals + paths.length }) := by
  induction paths generalizing s with
  | nil =>
    have same : without s.files [] = s.files := funext fun _ => if_neg List.not_mem_nil
    rw [same]
    rfl
  | cons path rest ih =>
    have first : unlink outside path s = (.ok (), ({ s with removals := s.removals + 1 } : State).put path none) := by
      rw [unlink, removes]
    have onward : Eff.forEach (unlink outside) (path :: rest) s =
        Eff.bind (unlink outside path) (fun _ => Eff.forEach (unlink outside) rest) s := rfl
    have both : without (Function.update s.files path none) rest = without s.files (path :: rest) := by
      funext p
      by_cases inside : p ∈ rest
      · rw [without, if_pos inside, without, if_pos (List.mem_cons_of_mem _ inside)]
      · rw [without, if_neg inside, without]
        by_cases same : p = path
        · rw [same, Function.update_self, if_pos List.mem_cons_self]
        · rw [Function.update_of_ne same, if_neg fun member => (List.mem_cons.mp member).elim same inside]
    rw [onward, Eff.bind, first]
    dsimp only
    rw [ih]
    simp only [State.put, both, List.length_cons, Nat.add_assoc, Nat.add_comm 1]

theorem removeStaged_ok (removes : ∀ n, outside.removal n = none) (s : State) :
    ∃ t : State, removeStaged outside s = (.ok (), t) ∧ t.files = without s.files (s.staged.map Prod.snd) ∧
      t.operations = s.operations := by
  have unfolded : removeStaged outside s = Eff.forEach (fun pair => unlink outside pair.2) s.staged s := rfl
  rw [unfolded, ← Eff.forEach_map (unlink outside) Prod.snd, forEach_unlink removes]
  exact ⟨_, rfl, rfl, rfl⟩

theorem undo_raises (removes : ∀ n, outside.removal n = none) (failure : Failure) (s : State) :
    undo outside failure s = (.error failure, { s with
      files := without s.files s.linked, removals := s.removals + s.linked.length }) := by
  have unfolded : undo outside failure s =
      Eff.bind (Eff.forEach (unlink outside) s.linked) (fun _ => Eff.raise failure) s := rfl
  rw [unfolded, Eff.bind, forEach_unlink removes]
  rfl

/-- Without the files made, all is as before. -/
theorem Undoable.removed {s : State} (undoable : Undoable files s) :
    without (without s.files s.linked) (s.staged.map Prod.snd) = files := by
  funext path
  rw [without, without]
  split
  · rename_i staged
    exact (undoable.free path (.inl staged)).symm
  · rename_i unstaged
    split
    · rename_i linked
      exact (undoable.free path (.inr linked)).symm
    · rename_i unlinked
      exact undoable.untouched path unstaged unlinked

/-- Without the temporary files, the outputs are what has changed. -/
theorem Progress.complete {plan : List Item} {s : State} (progress : Progress outside files plan plan s) :
    (∀ output ∈ plan.map Prod.fst, files output.1 = none ∧
      without s.files (s.staged.map Prod.snd) output.1 = some output.2) ∧
      (∀ path ∉ (plan.map Prod.fst).map Prod.fst, without s.files (s.staged.map Prod.snd) path = files path) ∧
      ∀ n < s.operations, outside.failure n = none := by
  have linked : s.linked = (plan.map Prod.fst).map Prod.fst := by
    rw [progress.linkedPaths, List.map_map]
    rfl
  refine ⟨fun output member => ?_, fun path other => ?_, progress.quiet⟩
  · obtain ⟨item, listed, rfl⟩ := List.mem_map.mp member
    have published : item.1.1 ∈ s.linked := linked ▸ List.mem_map_of_mem member
    have unstaged : item.1.1 ∉ s.staged.map Prod.snd := by
      rw [progress.staged, List.map_map]
      intro inside
      obtain ⟨clash, among, same⟩ := List.mem_map.mp inside
      exact progress.apart item listed clash among same.symm
    refine ⟨progress.undoable.free _ (.inr published), ?_⟩
    rw [without, if_neg unstaged]
    exact progress.published item listed
  · rw [without]
    split
    · rename_i staged
      exact (progress.undoable.free path (.inl staged)).symm
    · rename_i unstaged
      exact progress.undoable.untouched path unstaged (linked ▸ other)

end removal

/-- However the operations fail, as long as removals do not: either every output is published under a
name that was free, and nothing else is changed; or the call raises, and all files are as before. -/
theorem writeOutputsAtomic_atomic {outside : Outside} (removes : ∀ n, outside.removal n = none) (files : Files)
    (outputs : List (Path × Content)) :
    ∃ result t, writeOutputsAtomic outside outputs (State.start files) = (result, t) ∧
      match result with
      | .ok () =>
        (∀ output ∈ outputs, files output.1 = none ∧ t.files output.1 = some output.2) ∧
          (∀ path ∉ outputs.map Prod.fst, t.files path = files path) ∧
          ∀ n < t.operations, outside.failure n = none
      | .error _ => t.files = files := by
  have start : Progress outside files [] [] (State.start files) :=
    ⟨⟨fun _ _ _ => rfl, fun _ made => by rcases made with made | made <;> cases made⟩, nofun, rfl, rfl, nofun, nofun, nofun⟩
  obtain ⟨published, failed⟩ := triple_publish outputs (State.start files) start
  rw [writeOutputsAtomic, Eff.ensuring, Eff.rescue]
  rcases ran : publish outside outputs (State.start files) with ⟨failure | ⟨⟩, s⟩
  · have undoable := failed failure s ran
    dsimp only
    rw [undo_raises removes]
    obtain ⟨t, last, left, -⟩ := removeStaged_ok removes { s with
      files := without s.files s.linked, removals := s.removals + s.linked.length }
    refine ⟨.error failure, t, by dsimp only; rw [last], ?_⟩
    dsimp only
    rw [left]
    exact undoable.removed
  · obtain ⟨plan, rfl, progress⟩ := published () s ran
    dsimp only
    obtain ⟨t, last, left, counted⟩ := removeStaged_ok removes s
    refine ⟨.ok (), t, by rw [last], ?_⟩
    dsimp only
    rw [left, counted]
    exact progress.complete

/-- The operating system fails at one operation. -/
def failingAt (operation : Nat) : Outside where
  failure n := if n = operation then some "Input/output error" else none
  removal _ := none
  random _ := "k3v9"

def twoOutputs : List (Path × Content) := [(⟨"work", "plan.json"⟩, [123]), (⟨"work", "report.md"⟩, [35])]

/-- The second of two links fails, and the first one is undone. -/
theorem second_link_undone : ∃ t, writeOutputsAtomic (failingAt 13) twoOutputs (State.start fun _ => none) =
    (.error (.os "Input/output error"), t) ∧ t.files = fun _ => none := by
  obtain ⟨result, t, ran, outcome⟩ :=
    @writeOutputsAtomic_atomic (failingAt 13) (fun _ => rfl) (fun _ => none) twoOutputs
  have failed : (writeOutputsAtomic (failingAt 13) twoOutputs (State.start fun _ => none)).1 =
      .error (.os "Input/output error") := by
    rfl
  rw [ran] at failed ⊢
  dsimp only at failed
  subst failed
  exact ⟨t, rfl, outcome⟩

end Sippycup.Campaign.Outputs
