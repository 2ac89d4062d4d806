import Sippycup.Machine.Loop
import Sippycup.Webrtc.Cases
import Sippycup.Webrtc.Needed

/-! Minimizing a transcript: revisions are deleted one at a time from the end while the finding stays, and then
sections of what is left. Each trial is a document of its own, as the source copies the candidate before it deletes. -/
namespace Sippycup.Webrtc.Sdp
open Sippycup.Python

section documents

/-- `value[key]` -/
def fieldOf (key : Text) : JsonValue → JsonValue
  | .dict d => JsonDict.find d key
  | _ => .null

def itemsOf : JsonValue → List JsonValue
  | .list items => items
  | _ => []

def renumber (items : List JsonValue) : List JsonValue :=
  items.mapIdx fun index item => JsonValue.setKey "sequence" (.int (.ofNat (index + 1))) item

/-- `del trial["revisions"][index]`, with the others numbered anew. -/
def deleteRevision (index : Nat) : Edit :=
  JsonValue.editKey "revisions" (JsonValue.editItems fun items => renumber (items.eraseIdx index))

/-- `del revision["media"][index]`, with its mid taken out of the bundle. -/
def removeSection (index : Nat) (revision : JsonValue) : JsonValue :=
  let removed := fieldOf "mid" ((itemsOf (fieldOf "media" revision)).getD index .null)
  JsonValue.editKey "bundleMids" (JsonValue.editItems fun mids => mids.filter fun mid => !mid.eq removed)
    (JsonValue.editKey "media" (JsonValue.editItems fun items => items.eraseIdx index) revision)

def deleteSection (revision index : Nat) : Edit := editRevision revision (removeSection index)

def revisionItems (document : JsonValue) : List JsonValue := itemsOf (fieldOf "revisions" document)

def sectionCount (document : JsonValue) (revision : Nat) : Nat :=
  (itemsOf (fieldOf "media" ((revisionItems document).getD revision .null))).length

end documents

section minimize
variable (policyDocument : JsonValue) (findingCode : String)

def Report.names (report : Report) : List String := report.findings.map fun finding => finding.code.name

/-- `preserves` -/
def preserves (document : JsonValue) : Result Bool :=
  match evaluate policyDocument document with
  | .ok report => .ok (decide (findingCode ∈ report.names))
  | .error (.own _) => .ok false
  | .error (.builtin kind) => .error (.builtin kind)

/-- The last of the first `count` revisions whose deletion preserves the finding, deleted. -/
@[grind =] def deleteLast (candidate : JsonValue) : Nat → Result (Option JsonValue)
  | 0 => return none
  | index + 1 => do
    let trial := deleteRevision index candidate
    if ← preserves policyDocument findingCode trial then return some trial else deleteLast candidate index

/-- One turn of `while changed`. -/
def deletionTurn (candidate : JsonValue) : Result (Loop.Turn JsonValue) := do
  match ← deleteLast policyDocument findingCode candidate (revisionItems candidate).length with
  | some trial => return .again trial
  | none => return .leave candidate

/-- The sections of one revision from the last on, while more than one is left. -/
@[grind =] def trimRevision (revision : Nat) : Nat → JsonValue → Result JsonValue
  | 0, candidate => return candidate
  | index + 1, candidate =>
    if sectionCount candidate revision ≤ 1 then return candidate
    else do
      let trial := deleteSection revision index candidate
      if ← preserves policyDocument findingCode trial then trimRevision revision index trial
      else trimRevision revision index candidate

def trimSections (candidate : JsonValue) : Result JsonValue :=
  (List.range (revisionItems candidate).length).foldlM
    (fun current revision => trimRevision policyDocument findingCode revision (sectionCount candidate revision) current)
    candidate

def minimizedVersion : Text := "sippycup.dev/sdp-minimized/v1"

structure Minimized where
  apiVersion : Text := minimizedVersion
  networkActivity : Bool := false
  findingCode : String
  transcript : JsonValue
  report : Report

/-- The checks before the search. -/
def checkPresent (transcriptDocument : JsonValue) : Result Unit := do
  let _ ← validatePolicy policyDocument
  let _ ← validateTranscript transcriptDocument policyDocument
  let report ← evaluate policyDocument transcriptDocument
  require (decide (findingCode ∈ report.names)) s!"finding is not present: {findingCode}"

/-- `minimize_failure`; `none` means that the fuel of its loop ran out. -/
def minimizeFailure (fuel : Nat) (transcriptDocument : JsonValue) : Option (Result Minimized) :=
  match checkPresent policyDocument findingCode transcriptDocument with
  | .error raised => some (.error raised)
  | .ok () =>
    (Loop.run (deletionTurn policyDocument findingCode) fuel transcriptDocument).map fun deleted => do
      let candidate ← trimSections policyDocument findingCode (← deleted)
      let report ← evaluate policyDocument candidate
      return { findingCode, transcript := candidate, report }

end minimize

section names

def FindingCode.all : List FindingCode :=
  descriptionCodes ++ unopenedCodes ++ openedCodes ++ pairCodes ++ restartCodes ++ [.retryWithoutRollback]

/-- Every code has a name of its own. -/
theorem FindingCode.name_injective {code other : FindingCode} (same : code.name = other.name) : code = other := by
  have found (code : FindingCode) :
      FindingCode.all.find? (fun other => decide (other.name = code.name)) = some code := by
    cases code <;> rfl
  have first := found code
  rw [same, found other] at first
  exact (Option.some.inj first).symm

end names

section numbered
variable {policy : Policy} {standing : Standing} {revision : Revision} {code : FindingCode}

/-- The revision without its number. -/
def Revision.unnumbered (revision : Revision) : Revision := { revision with sequence := 0 }

abbrev unnumberedPair (pair : Revision × Revision) : Revision × Revision := (pair.1.unnumbered, pair.2.unnumbered)

def Standing.unnumbered (standing : Standing) : Standing :=
  ⟨standing.pending.map Revision.unnumbered,
    standing.stable.map unnumberedPair, standing.rollbackRequired⟩

theorem step_unnumbered (allowGlare : Bool) (standing : Standing) (revision : Revision) :
    standing.unnumbered.step allowGlare revision.unnumbered = (standing.step allowGlare revision).unnumbered := by
  unfold Standing.step
  rw [show revision.unnumbered.kind = revision.kind from rfl,
    show standing.unnumbered.pending = standing.pending.map Revision.unnumbered from rfl]
  cases revision.kind with
  | rollback => rfl
  | offer =>
    cases pending : standing.pending with
    | none => simp [Standing.unnumbered]
    | some offer =>
      by_cases same : offer.actor = revision.actor
      · simp [Standing.unnumbered, Revision.unnumbered, same]
      · cases allowGlare <;> simp [Standing.unnumbered, Revision.unnumbered, same, pending]
  | answer =>
    cases pending : standing.pending with
    | none => simp [Standing.unnumbered, pending]
    | some offer =>
      by_cases same : revision.actor = offer.actor <;> simp [Standing.unnumbered, Revision.unnumbered, same]

theorem run_unnumbered (allowGlare : Bool) (standing : Standing) (revisions : List Revision) :
    standing.unnumbered.run allowGlare (revisions.map Revision.unnumbered) =
      (standing.run allowGlare revisions).unnumbered := by
  induction revisions generalizing standing with
  | nil => rfl
  | cons revision rest ih =>
    rw [List.map_cons, Standing.run, Standing.run, List.foldl_cons, List.foldl_cons, step_unnumbered]
    exact ih _

theorem checkMids_unnumbered (index : Nat) (stable : Option (Revision × Revision)) (offer answer : Revision)
    (mids : List Text) :
    policy.checkMids index (stable.map unnumberedPair) offer.unnumbered answer.unnumbered mids =
      policy.checkMids index stable offer answer mids := by
  have each (mid : Text) : policy.checkMid index (stable.map unnumberedPair) offer.unnumbered answer.unnumbered mid =
      policy.checkMid index stable offer answer mid := by cases stable <;> rfl
  induction mids with
  | nil => rfl
  | cons mid rest ih => rw [Policy.checkMids, Policy.checkMids, each, ih]

theorem checkPair_unnumbered (index : Nat) (stable : Option (Revision × Revision)) (offer answer : Revision) :
    policy.checkPair index (stable.map unnumberedPair) offer.unnumbered answer.unnumbered =
      policy.checkPair index stable offer answer := by
  unfold Policy.checkPair
  dsimp only
  rw [checkMids_unnumbered]
  rfl

theorem found_unnumbered (index : Nat) :
    policy.found standing.unnumbered index revision.unnumbered = policy.found standing index revision := by
  unfold Policy.found
  rw [show revision.unnumbered.kind = revision.kind from rfl]
  cases revision.kind with
  | rollback =>
    unfold Policy.rollbackFound Standing.unnumbered
    cases standing.pending <;> rfl
  | offer =>
    unfold Policy.offerFound Standing.unnumbered
    cases standing.pending <;> rfl
  | answer =>
    have answered : policy.answerFound standing.unnumbered index revision.unnumbered =
        policy.answerFound standing index revision := by
      unfold Policy.answerFound Standing.unnumbered
      cases standing.pending with
      | none => rfl
      | some offer =>
        dsimp only [Option.map_some]
        rw [checkPair_unnumbered]
        rfl
    dsimp only
    rw [answered]
    rfl

theorem produces_unnumbered {revisions : List Revision} :
    Produces policy code (revisions.map Revision.unnumbered) ↔ Produces policy code revisions := by
  have emits (before : List Revision) (revision : Revision) :
      Emits policy (stand policy (before.map Revision.unnumbered)) revision.unnumbered code ↔
        Emits policy (stand policy before) revision code := by
    have same := run_unnumbered policy.negotiation.allowGlare .start before
    rw [show Standing.start.unnumbered = Standing.start from rfl] at same
    unfold Emits stand
    rw [same, found_unnumbered]
  constructor
  · rintro ⟨_, _, _, split, reported⟩
    obtain ⟨before, others, rfl, rfl, tail⟩ := List.map_eq_append_iff.mp split
    obtain ⟨revision, rest, rfl, rfl, rfl⟩ := List.map_eq_cons_iff.mp tail
    exact ⟨before, revision, rest, rfl, (emits before revision).mp reported⟩
  · rintro ⟨before, revision, rest, rfl, reported⟩
    exact ⟨before.map Revision.unnumbered, revision.unnumbered, rest.map Revision.unnumbered, by simp,
      (emits before revision).mpr reported⟩

theorem produces_alike {revisions others : List Revision}
    (alike : revisions.map Revision.unnumbered = others.map Revision.unnumbered) :
    Produces policy code revisions ↔ Produces policy code others := by
  rw [← produces_unnumbered, alike, produces_unnumbered]

end numbered

section edits
variable {policyDocument document : JsonValue} {policy : Policy} {transcript : Transcript} {index place : Nat}
  {revision : Revision}

theorem revisionItems_read (valid : validatePolicy policyDocument = .ok policy)
    (accepted : validateTranscript document policyDocument = .ok transcript) :
    readRevisions policy.limits 0 (revisionItems document) = .ok transcript.revisions := by
  obtain ⟨d, rfl, -, read⟩ := (validateTranscript_ok valid).mp accepted
  obtain ⟨items, list, -, revisions⟩ := read.revisions
  rw [revisionItems, fieldOf, list]
  exact revisions

theorem revisionItems_length (valid : validatePolicy policyDocument = .ok policy)
    (accepted : validateTranscript document policyDocument = .ok transcript) :
    (revisionItems document).length = transcript.revisions.length :=
  (readRevisions_ok.mp (revisionItems_read valid accepted)).1

theorem sectionCount_ok (valid : validatePolicy policyDocument = .ok policy)
    (accepted : validateTranscript document policyDocument = .ok transcript)
    (at_ : transcript.revisions[index]? = some revision) : sectionCount document index = revision.media.length := by
  obtain ⟨long, each⟩ := readRevisions_ok.mp (revisionItems_read valid accepted)
  have inside : index < (revisionItems document).length := long ▸ (List.getElem?_eq_some_iff.mp at_).1
  have found := List.getElem?_eq_getElem inside
  obtain ⟨d, object, -, read⟩ := readRevision_ok.1 (each index _ revision found at_)
  obtain ⟨items, list, rolled, described⟩ := read.media
  rw [sectionCount, List.getD_eq_getElem?_getD, found, Option.getD_some, object, fieldOf, list, itemsOf]
  by_cases rolls : revision.kind = .rollback
  · rw [(rolled rolls).2.2.1, revision.bare rolls]
    rfl
  · exact (readItems_forall₂ (described rolls).2.2.1).length_eq

/-- A transcript without one of its revisions is read: the others, with new numbers. -/
theorem deleteRevision_ok (index : Nat) (valid : validatePolicy policyDocument = .ok policy)
    (accepted : validateTranscript document policyDocument = .ok transcript) : ∃ other,
      validateTranscript (deleteRevision index document) policyDocument = .ok other ∧
        other.revisions.map Revision.unnumbered = (transcript.revisions.eraseIdx index).map Revision.unnumbered := by
  obtain ⟨items, read, few, edited⟩ := editRevisions_ok valid accepted
  obtain ⟨long, each⟩ := readRevisions_ok.mp read
  let numbered (i : Nat) (revision : Revision) : Revision := { revision with sequence := i + 1 }
  have erased : (items.eraseIdx index).length = (transcript.revisions.eraseIdx index).length := by
    rw [List.length_eraseIdx, List.length_eraseIdx, long]
  refine ⟨⟨transcript.networkActivity, (transcript.revisions.eraseIdx index).mapIdx numbered⟩,
    (edited _ _).mpr ⟨rfl, ?_, readRevisions_ok.mpr ⟨?_, ?_⟩⟩, ?_⟩
  · rw [renumber, List.length_mapIdx, List.length_eraseIdx]
    split <;> omega
  · rw [renumber, List.length_mapIdx, List.length_mapIdx, erased]
  · intro i item revision found at_
    rw [renumber, List.getElem?_mapIdx] at found
    rw [List.getElem?_mapIdx] at at_
    obtain ⟨item, old, rfl⟩ := Option.map_eq_some_iff.mp found
    obtain ⟨revision, place, rfl⟩ := Option.map_eq_some_iff.mp at_
    obtain ⟨j, later, old, place⟩ : ∃ j, i ≤ j ∧ items[j]? = some item ∧ transcript.revisions[j]? = some revision := by
      rw [List.getElem?_eraseIdx] at old place
      by_cases before : i < index
      · rw [if_pos before] at old place
        exact ⟨i, Nat.le_refl i, old, place⟩
      · rw [if_neg before] at old place
        exact ⟨i + 1, Nat.le_succ i, old, place⟩
    have own := each j item revision old place
    rw [Nat.zero_add] at own ⊢
    obtain ⟨_, -, -, fields⟩ := readRevision_ok.1 own
    obtain ⟨sequence, -, same, -⟩ := fields.sequence
    have bounded := sequence.property.2
    exact readRevision_at own i (by omega)
  · refine List.ext_getElem? fun i => ?_
    rw [List.getElem?_map, List.getElem?_mapIdx, List.getElem?_map, Option.map_map]
    rfl

theorem forall₂_eraseIdx {α β : Type} {R : α → β → Prop} {xs : List α} {ys : List β} (related : List.Forall₂ R xs ys)
    (index : Nat) : List.Forall₂ R (xs.eraseIdx index) (ys.eraseIdx index) := by
  induction related generalizing index with
  | nil => exact .nil
  | cons head tail ih =>
    cases index with
    | zero => exact tail
    | succ index => exact .cons head (ih index)

/-- Tokens of which some are left out are read. -/
theorem filteredTokens_ok {value : JsonValue} {path : String} {maximum : Nat} {tokens : List Text}
    (found : uniqueTokens value path maximum = .ok tokens) (keep : JsonValue → Bool) :
    uniqueTokens (JsonValue.editItems (fun items => items.filter keep) value) path maximum =
      .ok (tokens.filter fun token => keep (.str token)) := by
  obtain ⟨items, rfl, few, each, distinct⟩ := uniqueTokens_ok.mp found
  refine uniqueTokens_ok.mpr ⟨items.filter keep, rfl, (List.length_filter_le _ _).trans few, ?_, distinct.filter _⟩
  clear few distinct found
  induction each with
  | nil => exact .nil
  | cons head tail ih =>
    obtain ⟨at_, read⟩ := head
    have same := (readToken_ok.mp read).1
    subst same
    rw [List.filter_cons, List.filter_cons]
    split
    · exact .cons ⟨at_, read⟩ ih
    · exact ih

/-- A revision without one of its sections is read. -/
theorem removeSection_ok {limits : Limits} {item : JsonValue} (found : readRevision limits index item = .ok revision)
    (several : 1 < revision.media.length) (place : Nat) (inside : place < revision.media.length) :
    ∃ changed, readRevision limits index (removeSection place item) = .ok changed ∧
      changed.media = revision.media.eraseIdx place := by
  obtain ⟨d, rfl, keys, read⟩ := readRevision_ok.1 found
  have described : revision.kind ≠ .rollback := by
    intro rolls
    rw [revision.bare rolls] at several
    cases several
  obtain ⟨items, list, -, sections⟩ := read.media
  obtain ⟨some, few, media, digest, digest', hash⟩ := sections described
  obtain ⟨sequence, sequence', contiguous, same⟩ := read.sequence
  obtain ⟨generation, generation', same'⟩ := read.generation
  let removed := fieldOf "mid" ((itemsOf (fieldOf "media" (.dict d))).getD place .null)
  have unique : ((revision.media.eraseIdx place).map Section.mid).Nodup :=
    revision.unique.sublist ((List.eraseIdx_sublist _ _).map _)
  have long := (readItems_forall₂ media).length_eq
  let shorter := d.edit "media" (JsonValue.editItems fun items => items.eraseIdx place)
  have shorter_media : shorter.find "media" = .list (items.eraseIdx place) := by
    rw [JsonDict.find_edit_self (exactKeys_contains keys (by decide)), list]
    rfl
  have shorter_other {name : Text} (other : name ≠ "media") : shorter.find name = d.find name :=
    JsonDict.find_edit_other other
  have shorter_keys : (exactKeys shorter s!"$.revisions[{index}]" revisionKeys : Result Unit) = .ok () :=
    exactKeys_edit.trans keys
  refine ⟨{ revision with
      bundleMids := revision.bundleMids.filter fun mid => !(JsonValue.str mid).eq removed
      media := revision.media.eraseIdx place, unique, bare := fun rolls => absurd rolls described },
    readRevision_ok.2 ⟨_, rfl, exactKeys_edit.trans shorter_keys, ?_⟩, rfl⟩
  rw [find_edit (exactKeys_contains shorter_keys (by decide))]
  have value {name : Text} (notBundle : name ≠ "bundleMids") (notMedia : name ≠ "media") :
      updated shorter.find "bundleMids" (JsonValue.editItems (fun mids => mids.filter fun mid => !mid.eq removed)
        (shorter.find "bundleMids")) name = d.find name := by
    rw [updated, if_neg notBundle, shorter_other notMedia]
  refine ⟨⟨sequence, ?_, contiguous, same⟩, ?_, ?_, ⟨generation, ?_, same'⟩, ?_, items.eraseIdx place, ?_,
    fun rolls => absurd rolls described, fun _ => ⟨?_, ?_, ?_, digest, ?_, hash⟩⟩
  · rw [value (by decide) (by decide)]
    exact sequence'
  · rw [value (by decide) (by decide)]
    exact read.kind
  · rw [value (by decide) (by decide)]
    exact read.actor
  · rw [value (by decide) (by decide)]
    exact generation'
  · rw [updated, if_pos rfl, shorter_other (by decide)]
    exact filteredTokens_ok read.bundle _
  · rw [updated, if_neg (by decide), shorter_media]
  · intro empty
    have none_ := congrArg List.length empty
    rw [List.length_eraseIdx_of_lt (long ▸ inside), List.length_nil] at none_
    omega
  · rw [List.length_eraseIdx]
    split <;> omega
  · exact (readItems_ok pathFree_section).mpr (forall₂_eraseIdx (readItems_forall₂ media) place)
  · rw [value (by decide) (by decide)]
    exact digest'

/-- A transcript without one of the sections of a revision is read. -/
theorem deleteSection_ok (valid : validatePolicy policyDocument = .ok policy)
    (accepted : validateTranscript document policyDocument = .ok transcript)
    (at_ : transcript.revisions[index]? = some revision) (several : 1 < revision.media.length)
    (inside : place < revision.media.length) : ∃ other changed,
      validateTranscript (deleteSection index place document) policyDocument = .ok other ∧
        other.revisions = transcript.revisions.set index changed ∧ changed.media = revision.media.eraseIdx place := by
  obtain ⟨d, keys, read, edited⟩ := editRevision_ok valid accepted at_
  obtain ⟨changed, found, media⟩ := removeSection_ok (readRevision_ok.2 ⟨d, rfl, keys, read⟩) several place inside
  exact ⟨⟨transcript.networkActivity, transcript.revisions.set index changed⟩, changed, (edited _ _).mpr ⟨changed, found, rfl, rfl⟩, rfl, media⟩

end edits

section search
variable {policyDocument document : JsonValue} {policy : Policy} {code : FindingCode} {transcript : Transcript}

/-- The oracle judges every revision. -/
def Allowed (policy : Policy) (revisions : List Revision) : Prop :=
  ∀ revision ∈ revisions, ∀ sect ∈ revision.media, sect.kind ∈ policy.media.allowedKinds

/-- A transcript that is read, judged and still reports the code. -/
structure Failing (policyDocument : JsonValue) (policy : Policy) (code : FindingCode) (document : JsonValue)
    (transcript : Transcript) : Prop where
  accepted : validateTranscript document policyDocument = .ok transcript
  allowed : Allowed policy transcript.revisions
  produces : Produces policy code transcript.revisions

theorem mem_names {report : Report} : code.name ∈ report.names ↔ ∃ finding ∈ report.findings, finding.code = code := by
  rw [Report.names, List.mem_map]
  exact ⟨fun ⟨finding, member, same⟩ => ⟨finding, member, FindingCode.name_injective same⟩,
    fun ⟨finding, member, same⟩ => ⟨finding, member, congrArg _ same⟩⟩

theorem evaluate_allowed (code : FindingCode) (valid : validatePolicy policyDocument = .ok policy)
    (accepted : validateTranscript document policyDocument = .ok transcript) (allowed : Allowed policy transcript.revisions) :
    ∃ report, evaluate policyDocument document = .ok report ∧
      (code.name ∈ report.names ↔ Produces policy code transcript.revisions) := by
  obtain ⟨progress, followed⟩ := (Policy.follow_total .start 0).mpr allowed
  have evaluated := (evaluate_ok valid accepted).mpr ⟨progress, followed, rfl⟩
  exact ⟨_, evaluated, mem_names.trans (evaluate_produces valid accepted evaluated code)⟩

theorem preserves_ok (code : FindingCode) (valid : validatePolicy policyDocument = .ok policy)
    (accepted : validateTranscript document policyDocument = .ok transcript) (allowed : Allowed policy transcript.revisions) :
    ∃ kept, preserves policyDocument code.name document = .ok kept ∧
      (kept = true ↔ Produces policy code transcript.revisions) := by
  obtain ⟨report, evaluated, reports⟩ := evaluate_allowed code valid accepted allowed
  refine ⟨decide (code.name ∈ report.names), ?_, ?_⟩
  · rw [preserves, evaluated]
  · rw [decide_eq_true_eq]
    exact reports

theorem Allowed.alike {revisions others : List Revision} (allowed : Allowed policy revisions)
    (alike : others.map Revision.unnumbered ⊆ revisions.map Revision.unnumbered) : Allowed policy others := by
  intro other member
  obtain ⟨revision, inside, same⟩ := List.mem_map.mp (alike (List.mem_map_of_mem member))
  have media : revision.unnumbered.media = other.unnumbered.media := congrArg Revision.media same
  rw [show other.media = revision.media from media.symm]
  exact allowed revision inside

/-- The deletion of one revision, tried. -/
theorem deleteRevision_tried (valid : validatePolicy policyDocument = .ok policy)
    (failing : Failing policyDocument policy code document transcript) (index : Nat) : ∃ other kept,
      preserves policyDocument code.name (deleteRevision index document) = .ok kept ∧
        (kept = true ↔ Produces policy code (transcript.revisions.eraseIdx index)) ∧
        (kept = true → Failing policyDocument policy code (deleteRevision index document) other) ∧
        other.revisions.length = (transcript.revisions.eraseIdx index).length := by
  obtain ⟨other, accepted, alike⟩ := deleteRevision_ok index valid failing.accepted
  have allowed : Allowed policy other.revisions := by
    refine failing.allowed.alike ?_
    rw [alike]
    exact List.map_subset _ (List.eraseIdx_sublist _ _).subset
  obtain ⟨kept, tried, still⟩ := preserves_ok code valid accepted allowed
  refine ⟨other, kept, tried, still.trans (produces_alike alike), fun yes => ⟨accepted, allowed, still.mp yes⟩, ?_⟩
  have same := congrArg List.length alike
  rwa [List.length_map, List.length_map] at same

theorem deleteLast_ok (valid : validatePolicy policyDocument = .ok policy)
    (failing : Failing policyDocument policy code document transcript) {count : Nat}
    (inside : count ≤ transcript.revisions.length) :
    (∃ trial other, deleteLast policyDocument code.name document count = .ok (some trial) ∧
      Failing policyDocument policy code trial other ∧ other.revisions.length < transcript.revisions.length) ∨
    deleteLast policyDocument code.name document count = .ok none ∧
      ∀ index, index < count → ¬ Produces policy code (transcript.revisions.eraseIdx index) := by
  induction count with
  | zero => exact .inr ⟨rfl, fun index impossible => absurd impossible (Nat.not_lt_zero index)⟩
  | succ index ih =>
    obtain ⟨other, kept, tried, still, next, long⟩ := deleteRevision_tried valid failing index
    rw [deleteLast, tried, ok_bind]
    cases kept with
    | true =>
      refine .inl ⟨_, other, rfl, next rfl, ?_⟩
      rw [long, List.length_eraseIdx_of_lt inside]
      omega
    | false =>
      rcases ih (by omega) with found | ⟨nothing, none_⟩
      · exact .inl found
      · refine .inr ⟨nothing, fun i before => ?_⟩
        rcases Nat.lt_succ_iff_lt_or_eq.mp before with earlier | rfl
        · exact none_ i earlier
        · exact fun produces => absurd (still.mpr produces) (by decide)

/-- The loop ends, with as many revisions as the finding takes. -/
theorem deletions_end (valid : validatePolicy policyDocument = .ok policy)
    (failing : Failing policyDocument policy code document transcript) {fuel : Nat}
    (enough : transcript.revisions.length < fuel) : ∃ candidate,
      Loop.run (deletionTurn policyDocument code.name) fuel document = some (.ok candidate) ∧
        ∃ other, Failing policyDocument policy code candidate other ∧ other.revisions.length = need code := by
  refine Loop.run_succeeds (P := fun candidate => ∃ other, Failing policyDocument policy code candidate other)
    (fun candidate => (revisionItems candidate).length) ⟨transcript, failing⟩ ?_
    (by rwa [revisionItems_length valid failing.accepted])
  rintro candidate ⟨other, still⟩
  have long := revisionItems_length valid still.accepted
  rcases deleteLast_ok valid still (Nat.le_refl _) with ⟨trial, next, found, failing', shorter⟩ | ⟨nothing, none_⟩
  · refine .inr ⟨trial, ?_, ⟨next, failing'⟩, ?_⟩
    · rw [deletionTurn, long, found]
      rfl
    · rwa [long, revisionItems_length valid failing'.accepted]
  · refine .inl ⟨candidate, ?_, other, still, ?_⟩
    · rw [deletionTurn, long, nothing]
      rfl
    · refine Nat.le_antisymm ?_ (need_le still.produces)
      by_contra more
      obtain ⟨index, inside, produces⟩ := produces_shrinks still.produces (Nat.lt_of_not_le more)
      exact none_ index inside produces

theorem allowed_set {revisions : List Revision} {index place : Nat} {revision changed : Revision}
    (allowed : Allowed policy revisions) (at_ : revisions[index]? = some revision)
    (media : changed.media = revision.media.eraseIdx place) : Allowed policy (revisions.set index changed) := by
  intro other member sect inside
  rcases List.mem_or_eq_of_mem_set member with old | rfl
  · exact allowed other old sect inside
  · rw [media] at inside
    exact allowed revision (List.mem_of_getElem? at_) sect (List.mem_of_mem_eraseIdx inside)

/-- Trimming one revision keeps the finding, the number of revisions, and the other revisions. -/
theorem trimRevision_ok (valid : validatePolicy policyDocument = .ok policy) {index count : Nat} {revision : Revision}
    (failing : Failing policyDocument policy code document transcript)
    (at_ : transcript.revisions[index]? = some revision) (inside : count ≤ revision.media.length) :
    ∃ candidate other, trimRevision policyDocument code.name index count document = .ok candidate ∧
      Failing policyDocument policy code candidate other ∧ other.revisions.length = transcript.revisions.length ∧
      ∀ j, j ≠ index → other.revisions[j]? = transcript.revisions[j]? := by
  induction count generalizing document transcript revision with
  | zero => exact ⟨document, transcript, rfl, failing, rfl, fun _ _ => rfl⟩
  | succ place ih =>
    rw [trimRevision, sectionCount_ok valid failing.accepted at_]
    split
    · exact ⟨document, transcript, rfl, failing, rfl, fun _ _ => rfl⟩
    · rename_i several
      obtain ⟨trial, changed, accepted, revisions, media⟩ := deleteSection_ok valid failing.accepted at_
        (Nat.lt_of_not_le several) inside
      have allowed : Allowed policy trial.revisions := by
        rw [revisions]
        exact allowed_set failing.allowed at_ media
      obtain ⟨kept, tried, still⟩ := preserves_ok code valid accepted allowed
      dsimp only
      rw [tried, ok_bind]
      cases kept with
      | false => exact ih failing at_ (Nat.le_of_succ_le inside)
      | true =>
        have here : trial.revisions[index]? = some changed := by
          rw [revisions, List.getElem?_set_self (List.getElem?_eq_some_iff.mp at_).1]
        have shorter : place ≤ changed.media.length := by
          rw [media, List.length_eraseIdx_of_lt inside]
          omega
        obtain ⟨candidate, other, trimmed, failing', long, others⟩ := ih ⟨accepted, allowed, still.mp rfl⟩ here shorter
        refine ⟨candidate, other, trimmed, failing', ?_, fun j apart => ?_⟩
        · rw [long, revisions, List.length_set]
        · rw [others j apart, revisions, List.getElem?_set_ne (Ne.symm apart)]

theorem trimSections_from (valid : validatePolicy policyDocument = .ok policy) {original : JsonValue} {start : Transcript}
    (read : validateTranscript original policyDocument = .ok start) (places : List Nat) (distinct : places.Nodup)
    (failing : Failing policyDocument policy code document transcript)
    (within : ∀ j ∈ places, j < start.revisions.length ∧ transcript.revisions[j]? = start.revisions[j]?) :
    ∃ candidate other, places.foldlM (fun current revision =>
        trimRevision policyDocument code.name revision (sectionCount original revision) current) document = .ok candidate ∧
      Failing policyDocument policy code candidate other ∧ other.revisions.length = transcript.revisions.length := by
  induction places generalizing document transcript with
  | nil => exact ⟨document, transcript, rfl, failing, rfl⟩
  | cons index rest ih =>
    obtain ⟨fresh, distinct⟩ := List.nodup_cons.mp distinct
    obtain ⟨here, same⟩ := within index List.mem_cons_self
    have at_ := List.getElem?_eq_getElem here
    obtain ⟨next, other, trimmed, failing', long, others⟩ := trimRevision_ok valid failing (same.trans at_)
      (Nat.le_of_eq (sectionCount_ok valid read at_))
    obtain ⟨candidate, last, folded, failing'', long'⟩ := ih distinct failing' fun j later => by
      obtain ⟨before, same⟩ := within j (List.mem_cons_of_mem _ later)
      refine ⟨before, (others j ?_).trans same⟩
      rintro rfl
      exact fresh later
    refine ⟨candidate, last, ?_, failing'', long'.trans long⟩
    rw [List.foldlM_cons, trimmed, ok_bind]
    exact folded

theorem trimSections_ok (valid : validatePolicy policyDocument = .ok policy)
    (failing : Failing policyDocument policy code document transcript) : ∃ candidate other,
      trimSections policyDocument code.name document = .ok candidate ∧
        Failing policyDocument policy code candidate other ∧ other.revisions.length = transcript.revisions.length := by
  refine trimSections_from valid failing.accepted _ List.nodup_range failing fun j listed => ⟨?_, rfl⟩
  rw [← revisionItems_length valid failing.accepted]
  exact List.mem_range.mp listed

/-- For every finding of a report the search ends with a transcript that is read and reports it, and no revision of
which can be deleted with the finding kept. -/
theorem minimizeFailure_minimal (valid : validatePolicy policyDocument = .ok policy)
    (accepted : validateTranscript document policyDocument = .ok transcript) {report : Report}
    (evaluated : evaluate policyDocument document = .ok report) {finding : Finding} (reported : finding ∈ report.findings) :
    ∃ result other, (∀ fuel, transcript.revisions.length < fuel →
        minimizeFailure policyDocument finding.code.name fuel document = some (.ok result)) ∧
      validateTranscript result.transcript policyDocument = .ok other ∧
      evaluate policyDocument result.transcript = .ok result.report ∧ finding.code.name ∈ result.report.names ∧
      ∀ index, index < other.revisions.length →
        preserves policyDocument finding.code.name (deleteRevision index result.transcript) = .ok false := by
  obtain ⟨progress, followed, same⟩ := (evaluate_ok valid accepted).mp evaluated
  have failing : Failing policyDocument policy finding.code document transcript :=
    ⟨accepted, (Policy.follow_total .start 0).mp ⟨progress, followed⟩,
      (evaluate_produces valid accepted evaluated finding.code).mp ⟨finding, reported, rfl⟩⟩
  have present : checkPresent policyDocument finding.code.name document = .ok () := by
    have listed : finding.code.name ∈ report.names := mem_names.mpr ⟨finding, reported, rfl⟩
    rw [checkPresent, valid, ok_bind, accepted, ok_bind, evaluated, ok_bind, decide_eq_true listed]
    rfl
  obtain ⟨deleted, ran, other, failing', long⟩ := deletions_end valid failing (Nat.lt_succ_self _)
  obtain ⟨candidate, last, trimmed, failing'', long'⟩ := trimSections_ok valid failing'
  obtain ⟨final, judged, reports⟩ := evaluate_allowed finding.code valid failing''.accepted failing''.allowed
  refine ⟨{ findingCode := finding.code.name, transcript := candidate, report := final }, last, fun fuel enough => ?_,
    failing''.accepted, judged, reports.mpr failing''.produces, fun index inside => ?_⟩
  · rw [minimizeFailure, present, Loop.run_mono ran enough]
    dsimp only [Option.map_some]
    rw [ok_bind, trimmed, ok_bind, judged]
    rfl
  · obtain ⟨_, kept, tried, still, -⟩ := deleteRevision_tried valid failing'' index
    cases kept with
    | false => exact tried
    | true =>
      have needed := need_le (still.mp rfl)
      rw [List.length_eraseIdx_of_lt inside, long', long] at needed
      omega

end search

section examples

/-- Two answers and no offer. -/
def answeredTwice : JsonValue :=
  exampleTranscript [
    exampleRevision 1 "answer" "remote" (exampleSection "audio" "active"),
    exampleRevision 2 "answer" "local" (exampleSection "audio" "active")]

theorem answeredTwice_accepted : (validateTranscript answeredTwice examplePolicy).isOk = true := by decide +kernel

theorem answeredTwice_reported :
    (evaluate examplePolicy answeredTwice).toOption.map (fun report => report.findings.map Finding.code) =
      some [.answerWithoutOffer, .answerWithoutOffer] := by decide +kernel

theorem answeredTwice_minimized : ∃ report finding result other, evaluate examplePolicy answeredTwice = .ok report ∧
    finding ∈ report.findings ∧
    (∃ transcript, validateTranscript answeredTwice examplePolicy = .ok transcript ∧
      ∀ fuel, transcript.revisions.length < fuel →
        minimizeFailure examplePolicy finding.code.name fuel answeredTwice = some (.ok result)) ∧
    validateTranscript result.transcript examplePolicy = .ok other ∧
    evaluate examplePolicy result.transcript = .ok result.report ∧ finding.code.name ∈ result.report.names ∧
    ∀ index, index < other.revisions.length →
      preserves examplePolicy finding.code.name (deleteRevision index result.transcript) = .ok false := by
  obtain ⟨policy, valid⟩ := isOk_iff.mp examplePolicy_valid
  obtain ⟨transcript, accepted⟩ := isOk_iff.mp answeredTwice_accepted
  obtain ⟨report, evaluated, codes⟩ := toOption_map answeredTwice_reported
  obtain ⟨finding, rest, split, -, -⟩ := List.map_eq_cons_iff.mp codes
  have reported : finding ∈ report.findings := by
    rw [split]
    exact List.mem_cons_self
  obtain ⟨result, other, ends, minimal⟩ := minimizeFailure_minimal valid accepted evaluated reported
  exact ⟨report, finding, result, other, evaluated, reported, ⟨transcript, accepted, ends⟩, minimal⟩

end examples

end Sippycup.Webrtc.Sdp
