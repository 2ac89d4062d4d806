import Sippycup.Webrtc.Negotiation

/-! The pass of the oracle apart from its findings: which offer is pending, which pair was completed last
and who has to roll back. A code is reported for a transcript where some revision emits it as the pass
stands before that revision. -/
namespace Sippycup.Webrtc.Sdp
open Sippycup.Python

/-- What the pass keeps between two revisions beside its findings. -/
structure Standing where
  pending : Option Revision
  stable : Option (Revision × Revision)
  rollbackRequired : List Actor

def Standing.start : Standing := ⟨none, none, []⟩

def Progress.standing (progress : Progress) : Standing :=
  ⟨progress.pending, progress.stable, progress.rollbackRequired⟩

def Standing.step (allowGlare : Bool) (standing : Standing) (revision : Revision) : Standing :=
  match revision.kind, standing.pending with
  | .rollback, _ =>
    { standing with
      pending := none
      rollbackRequired := standing.rollbackRequired.filter fun other => other ≠ revision.actor }
  | .offer, none => { standing with pending := some revision }
  | .offer, some pending =>
    if pending.actor = revision.actor then { standing with pending := some revision }
    else
      let rollbackRequired := pending.actor :: revision.actor :: standing.rollbackRequired
      if allowGlare then { standing with pending := some revision, rollbackRequired }
      else { standing with rollbackRequired }
  | .answer, none => standing
  | .answer, some pending =>
    if revision.actor = pending.actor then { standing with pending := none }
    else { standing with pending := none, stable := some (pending, revision) }

abbrev Standing.run (allowGlare : Bool) (standing : Standing) (revisions : List Revision) : Standing :=
  revisions.foldl (Standing.step allowGlare) standing

namespace Policy
variable (policy : Policy)

/-- What an offer adds to its own description's findings. -/
def offerFound (standing : Standing) (index : Nat) (revision : Revision) : List Finding :=
  let actor := revision.actor
  failIf (standing.rollbackRequired.contains actor && policy.negotiation.requireRollbackBeforeRetry)
      .retryWithoutRollback index actor.name ++
    match standing.pending with
    | none => []
    | some pending =>
      if pending.actor = actor then [⟨.offerWhilePending, index, actor.name⟩]
      else failIf (!policy.negotiation.allowGlare) .glare index (pending.actor.name ++ ("->" : Text) ++ actor.name)

def answerFound (standing : Standing) (index : Nat) (revision : Revision) : Result (List Finding) :=
  match standing.pending with
  | none => .ok [⟨.answerWithoutOffer, index, revision.actor.name⟩]
  | some pending =>
    if revision.actor = pending.actor then .ok [⟨.answerByOfferer, index, revision.actor.name⟩]
    else policy.checkPair index standing.stable pending revision

def rollbackFound (standing : Standing) (index : Nat) (revision : Revision) : List Finding :=
  match standing.pending with
  | none => [⟨.rollbackWithoutPendingOffer, index, revision.actor.name⟩]
  | some pending => failIf (revision.actor ≠ pending.actor) .rollbackByWrongActor index revision.actor.name

/-- The findings that a step adds. -/
def found (standing : Standing) (index : Nat) (revision : Revision) : Result (List Finding) :=
  match revision.kind with
  | .rollback => .ok (rollbackFound standing index revision)
  | .offer => do return (← policy.checkDescription index revision) ++ policy.offerFound standing index revision
  | .answer => do
    return (← policy.checkDescription index revision) ++ (← policy.answerFound standing index revision)

variable {policy} {progress after : Progress} {index : Nat} {revision : Revision}

theorem offer_standing (policy : Policy) (progress : Progress) (index : Nat) (revision : Revision) :
    (policy.offer progress index revision).findings =
      progress.findings ++ policy.offerFound progress.standing index revision ∧
    (revision.kind = .offer → (policy.offer progress index revision).standing =
      progress.standing.step policy.negotiation.allowGlare revision) := by
  have pending_eq : progress.standing.pending = progress.pending := rfl
  unfold offer offerFound Standing.step
  rw [pending_eq]
  rcases open_ : progress.pending with _ | pending
  · refine ⟨?_, fun kind => ?_⟩
    · simp [Progress.add, open_, Progress.standing]
    · simp [Progress.add, open_, kind, Progress.standing]
  · by_cases same : pending.actor = revision.actor
    · refine ⟨?_, fun kind => ?_⟩
      · simp [Progress.add, open_, Progress.standing, same]
      · simp [Progress.add, open_, kind, Progress.standing, same]
    · refine ⟨?_, fun kind => ?_⟩
      · cases policy.negotiation.allowGlare <;> simp [Progress.add, open_, Progress.standing, same, failIf]
      · cases policy.negotiation.allowGlare <;> simp [Progress.add, open_, kind, Progress.standing, same]

theorem answer_standing (answered : policy.answer progress index revision = .ok after) :
    ∃ found, policy.answerFound progress.standing index revision = .ok found ∧
      after.findings = progress.findings ++ found ∧
      (revision.kind = .answer → after.standing =
        progress.standing.step policy.negotiation.allowGlare revision) := by
  have pending_eq : progress.standing.pending = progress.pending := rfl
  unfold answer at answered
  unfold answerFound Standing.step
  rw [pending_eq]
  rcases open_ : progress.pending with _ | pending <;> rw [open_] at answered
  · obtain rfl := pure_ok.mp answered
    refine ⟨_, rfl, rfl, fun kind => ?_⟩
    simp [Progress.add, kind, Progress.standing, open_]
  · dsimp only at answered ⊢
    by_cases same : revision.actor = pending.actor
    · rw [if_pos same] at answered ⊢
      obtain rfl := pure_ok.mp answered
      refine ⟨_, rfl, rfl, fun kind => ?_⟩
      simp [Progress.add, kind, Progress.standing, same]
    · rw [if_neg same] at answered ⊢
      obtain ⟨found, paired, eq⟩ := bind_ok.mp answered
      obtain rfl := pure_ok.mp eq
      refine ⟨found, paired, rfl, fun kind => ?_⟩
      simp [Progress.add, kind, Progress.standing, same]

theorem rollback_standing (policy : Policy) (progress : Progress) (index : Nat) (revision : Revision) :
    (progress.rollback index revision.actor).findings =
      progress.findings ++ rollbackFound progress.standing index revision ∧
    (revision.kind = .rollback → (progress.rollback index revision.actor).standing =
      progress.standing.step policy.negotiation.allowGlare revision) := by
  have pending_eq : progress.standing.pending = progress.pending := rfl
  unfold Progress.rollback rollbackFound Standing.step
  rw [pending_eq]
  refine ⟨?_, fun kind => ?_⟩
  · cases progress.pending <;> rfl
  · simp [kind, Progress.standing, Progress.add]

theorem step_standing (stepped : policy.step progress index revision = .ok after) :
    ∃ found, policy.found progress.standing index revision = .ok found ∧
      after.findings = progress.findings ++ found ∧
      after.standing = progress.standing.step policy.negotiation.allowGlare revision := by
  unfold step at stepped
  unfold found
  rcases kind : revision.kind with _ | _ | _ <;> rw [kind] at stepped
  · obtain ⟨described, checked, same⟩ := bind_ok.mp stepped
    obtain rfl := pure_ok.mp same
    obtain ⟨findings, standing⟩ := offer_standing policy (progress.add described) index revision
    refine ⟨_, by rw [checked]; rfl, ?_, standing kind⟩
    rw [findings, findings_add, List.append_assoc]
    rfl
  · obtain ⟨described, checked, answered⟩ := bind_ok.mp stepped
    obtain ⟨found, paired, findings, standing⟩ := answer_standing answered
    have paired' : policy.answerFound progress.standing index revision = .ok found := paired
    refine ⟨described ++ found, by rw [checked, ok_bind, paired']; rfl, ?_, standing kind⟩
    rw [findings, findings_add, List.append_assoc]
  · obtain rfl := pure_ok.mp stepped
    obtain ⟨findings, standing⟩ := rollback_standing policy progress index revision
    exact ⟨_, rfl, findings, standing kind⟩

/-- A run's findings are those that its revisions add, each as the pass stands before it. -/
theorem follow_found {revisions : List Revision} (followed : policy.follow progress index revisions = .ok after)
    (finding : Finding) : finding ∈ after.findings ↔ finding ∈ progress.findings ∨
      ∃ before revision rest found, revisions = before ++ revision :: rest ∧
        policy.found (progress.standing.run policy.negotiation.allowGlare before) (index + before.length) revision =
          .ok found ∧ finding ∈ found := by
  induction revisions generalizing progress index with
  | nil =>
    cases followed
    simp
  | cons first rest ih =>
    obtain ⟨next, stepped, followed⟩ := bind_ok.mp followed
    obtain ⟨found, added, findings, standing⟩ := step_standing stepped
    rw [ih followed, findings, List.mem_append, standing, or_assoc]
    refine or_congr_right ?_
    constructor
    · rintro (now | ⟨before, revision, after, found', rfl, added', member⟩)
      · exact ⟨[], first, rest, found, rfl, added, now⟩
      · refine ⟨first :: before, revision, after, found', rfl, ?_, member⟩
        rw [List.length_cons, ← Nat.add_assoc, Nat.add_right_comm]
        exact added'
    · rintro ⟨before, revision, after, found', split, added', member⟩
      cases before with
      | nil =>
        obtain ⟨rfl, rfl⟩ := List.cons.inj split
        have same : found = found' := Except.ok.inj (added.symm.trans added')
        exact .inl (same ▸ member)
      | cons head before =>
        obtain ⟨rfl, rfl⟩ := List.cons.inj split
        refine .inr ⟨before, revision, after, found', rfl, ?_, member⟩
        rw [List.length_cons, ← Nat.add_assoc, Nat.add_right_comm] at added'
        exact added'

end Policy

section reindexed
variable (policy : Policy) (index j : Nat)

def Finding.moved (index : Nat) (finding : Finding) : Finding := { finding with revision := index }

/-- The same findings, of another revision. -/
def Moved (index : Nat) (found found' : Result (List Finding)) : Prop :=
  found' = found.map (List.map (Finding.moved index))

@[simp] theorem failIf_moved (bad : Bool) (code : FindingCode) (detail : Text) :
    (failIf bad code index detail).map (Finding.moved j) = failIf bad code j detail := by
  cases bad <;> rfl

theorem Moved.append {j : Nat} {a b : List Finding} {found found' : Result (List Finding)} (moved : Moved j found found')
    (same : b = a.map (Finding.moved j)) :
    Moved j (do return a ++ (← found)) (do return b ++ (← found')) := by
  unfold Moved at *
  rw [moved, same]
  cases found with
  | error e => rfl
  | ok findings => exact congrArg Except.ok List.map_append.symm

theorem checkFeedback_moved (mid : Text) (codec : Codec) :
    (policy.checkFeedback index mid codec).map (Finding.moved j) = policy.checkFeedback j mid codec := by
  unfold Policy.checkFeedback
  exact failIf_moved ..

theorem checkFingerprint_moved (sect : Section) :
    (policy.checkFingerprint index sect).map (Finding.moved j) = policy.checkFingerprint j sect := by
  unfold Policy.checkFingerprint
  cases sect.fingerprint <;> exact failIf_moved ..

theorem checkSection_moved (kind : RevisionKind) (sect : Section) :
    Moved j (policy.checkSection index kind sect) (policy.checkSection j kind sect) := by
  unfold Moved Policy.checkSection
  cases policy.codecsFor sect.kind with
  | error e => rfl
  | ok names =>
    simp only [ok_bind, pure, Except.pure, Except.map, List.map_append, failIf_moved, checkFingerprint_moved,
      List.map_flatMap, checkFeedback_moved]

theorem checkSections_moved (kind : RevisionKind) (sections : List Section) :
    Moved j (policy.checkSections index kind sections) (policy.checkSections j kind sections) := by
  induction sections with
  | nil => rfl
  | cons sect rest ih =>
    have first := checkSection_moved policy index j kind sect
    unfold Policy.checkSections
    rw [show policy.checkSection j kind sect = _ from first]
    cases policy.checkSection index kind sect with
    | error e => rfl
    | ok findings => exact Moved.append ih rfl

theorem checkDescription_moved (revision : Revision) :
    Moved j (policy.checkDescription index revision) (policy.checkDescription j revision) := by
  unfold Policy.checkDescription
  refine Moved.append (checkSections_moved policy index j revision.kind revision.media) ?_
  simp only [List.map_append, failIf_moved]

theorem checkRestart_moved (changed : Bool) (side mid : Text) (old? : Option Section) (new : Section) :
    (policy.checkRestart index changed side mid old? new).map (Finding.moved j) =
      policy.checkRestart j changed side mid old? new := by
  unfold Policy.checkRestart
  cases old? with
  | none => rfl
  | some old => simp only [List.map_append, failIf_moved]

theorem checkAnswered_moved (offer answer : Section) :
    Moved j (policy.checkAnswered index offer answer) (policy.checkAnswered j offer answer) := by
  unfold Moved Policy.checkAnswered
  cases policy.codecsFor answer.kind with
  | error e => rfl
  | ok names => simp only [ok_bind, pure, Except.pure, Except.map, List.map_append, failIf_moved]

theorem checkMid_moved (stable : Option (Revision × Revision)) (offer answer : Revision) (mid : Text) :
    Moved j (policy.checkMid index stable offer answer mid) (policy.checkMid j stable offer answer mid) := by
  unfold Policy.checkMid
  split
  · rename_i offered answered _ _
    have compared := checkAnswered_moved policy index j offered answered
    rw [show policy.checkAnswered j offered answered = _ from compared]
    cases policy.checkAnswered index offered answered with
    | error e => rfl
    | ok findings =>
      cases stable with
      | none => rfl
      | some pair =>
        simp only [Moved, ok_bind, pure, Except.pure, Except.map, List.map_append, checkRestart_moved]
  · rfl

theorem checkMids_moved (stable : Option (Revision × Revision)) (offer answer : Revision) (mids : List Text) :
    Moved j (policy.checkMids index stable offer answer mids) (policy.checkMids j stable offer answer mids) := by
  induction mids with
  | nil => rfl
  | cons mid rest ih =>
    have first := checkMid_moved policy index j stable offer answer mid
    unfold Policy.checkMids
    rw [show policy.checkMid j stable offer answer mid = _ from first]
    cases policy.checkMid index stable offer answer mid with
    | error e => rfl
    | ok findings => exact Moved.append ih rfl

theorem checkPair_moved (stable : Option (Revision × Revision)) (offer answer : Revision) :
    Moved j (policy.checkPair index stable offer answer) (policy.checkPair j stable offer answer) := by
  have mids := checkMids_moved policy index j stable offer answer
    (sortTexts (answer.mids.filter offer.mids.contains))
  unfold Policy.checkPair
  dsimp only
  rw [show policy.checkMids j stable offer answer _ = _ from mids]
  cases policy.checkMids index stable offer answer (sortTexts (answer.mids.filter offer.mids.contains)) with
  | error e => rfl
  | ok findings => simp only [Moved, ok_bind, pure, Except.pure, Except.map, List.map_append, failIf_moved]

/-- The findings of a step do not depend on its place in the transcript. -/
theorem found_moved (standing : Standing) (revision : Revision) :
    Moved j (policy.found standing index revision) (policy.found standing j revision) := by
  have described := checkDescription_moved policy index j revision
  unfold Policy.found
  cases revision.kind with
  | rollback =>
    unfold Policy.rollbackFound
    cases standing.pending with
    | none => rfl
    | some pending => exact congrArg Except.ok (failIf_moved ..).symm
  | offer =>
    rw [show policy.checkDescription j revision = _ from described]
    cases policy.checkDescription index revision with
    | error e => rfl
    | ok findings =>
      have added : policy.offerFound standing j revision =
          (policy.offerFound standing index revision).map (Finding.moved j) := by
        unfold Policy.offerFound
        rw [List.map_append, failIf_moved]
        cases standing.pending with
        | none => rfl
        | some pending =>
          dsimp only
          split
          · rfl
          · rw [failIf_moved]
      simp only [Moved, ok_bind, pure, Except.pure, Except.map, List.map_append, added]
  | answer =>
    have answered : Moved j (policy.answerFound standing index revision) (policy.answerFound standing j revision) := by
      unfold Policy.answerFound
      cases standing.pending with
      | none => rfl
      | some pending =>
        dsimp only
        split
        · rfl
        · exact checkPair_moved ..
    rw [show policy.checkDescription j revision = _ from described]
    cases policy.checkDescription index revision with
    | error e => rfl
    | ok findings => exact Moved.append answered rfl

end reindexed

section produces

/-- A revision reports a code as the pass stands before it. -/
def Emits (policy : Policy) (standing : Standing) (revision : Revision) (code : FindingCode) : Prop :=
  ∃ found, policy.found standing 0 revision = .ok found ∧ ∃ finding ∈ found, finding.code = code

abbrev stand (policy : Policy) (revisions : List Revision) : Standing :=
  Standing.start.run policy.negotiation.allowGlare revisions

/-- Some revision of the transcript reports the code. -/
def Produces (policy : Policy) (code : FindingCode) (revisions : List Revision) : Prop :=
  ∃ before revision rest, revisions = before ++ revision :: rest ∧ Emits policy (stand policy before) revision code

variable {policy : Policy} {code : FindingCode}

theorem emits_iff {standing : Standing} {revision : Revision} (index : Nat) : Emits policy standing revision code ↔
    ∃ found, policy.found standing index revision = .ok found ∧ ∃ finding ∈ found, finding.code = code := by
  constructor
  · rintro ⟨found, added, finding, member, rfl⟩
    have moved := found_moved policy 0 index standing revision
    rw [Moved, added] at moved
    exact ⟨_, moved, finding.moved index, List.mem_map_of_mem member, rfl⟩
  · rintro ⟨found, added, finding, member, rfl⟩
    have moved := found_moved policy index 0 standing revision
    rw [Moved, added] at moved
    exact ⟨_, moved, finding.moved 0, List.mem_map_of_mem member, rfl⟩

theorem follow_produces {revisions : List Revision} {after : Progress}
    (followed : policy.follow .start 0 revisions = .ok after) :
    (∃ finding ∈ after.findings, finding.code = code) ↔ Produces policy code revisions := by
  constructor
  · rintro ⟨finding, member, rfl⟩
    rcases (Policy.follow_found followed finding).mp member with
      empty | ⟨before, revision, rest, found, split, added, inside⟩
    · cases empty
    · exact ⟨before, revision, rest, split, (emits_iff _).mpr ⟨found, added, finding, inside, rfl⟩⟩
  · rintro ⟨before, revision, rest, split, emits⟩
    obtain ⟨found, added, finding, inside, same⟩ := (emits_iff (0 + before.length)).mp emits
    exact ⟨finding, (Policy.follow_found followed finding).mpr
      (.inr ⟨before, revision, rest, found, split, added, inside⟩), same⟩

/-- What a report lists, over the revisions of its transcript. -/
theorem evaluate_produces {policyDocument transcriptDocument : JsonValue} {transcript : Transcript} {report : Report}
    (valid : validatePolicy policyDocument = .ok policy)
    (accepted : validateTranscript transcriptDocument policyDocument = .ok transcript)
    (evaluated : evaluate policyDocument transcriptDocument = .ok report) (code : FindingCode) :
    (∃ finding ∈ report.findings, finding.code = code) ↔ Produces policy code transcript.revisions := by
  obtain ⟨progress, followed, rfl⟩ := (evaluate_ok valid accepted).mp evaluated
  exact follow_produces followed

theorem found_total (standing : Standing) (index : Nat) {revision : Revision}
    (allowed : ∀ sect ∈ revision.media, sect.kind ∈ policy.media.allowedKinds) :
    ∃ found, policy.found standing index revision = .ok found := by
  obtain ⟨after, stepped⟩ := (Policy.step_total
    ⟨[], standing.pending, standing.stable, standing.rollbackRequired, 0⟩ index).mpr allowed
  obtain ⟨found, added, -⟩ := Policy.step_standing stepped
  exact ⟨found, added⟩

end produces

section codes
variable {policy : Policy} {index : Nat}

/-- The codes of a description on its own. -/
def descriptionCodes : List FindingCode :=
  [.bundleIncomplete, .bundleUnknownMid, .mediaKindDisallowed, .protocolDisallowed, .rtcpMuxRequired,
    .trickleRequired, .endOfCandidatesMissing, .fingerprintMissing, .fingerprintAlgorithmDisallowed,
    .noAllowedCodec, .rtcpFeedbackMissing, .extmapDisallowed]

/-- The codes of an answer beside its offer. -/
def pairCodes : List FindingCode :=
  [.answerMidMismatch, .answerBundleExpanded, .answerKindChanged, .answerProtocolChanged,
    .directionIncompatible, .dtlsRoleInvalid, .answerWithoutCodec, .answerCodecNotOffered,
    .offerAnswerGenerationMismatch]

/-- The codes of a completed pair beside the one completed before. -/
def restartCodes : List FindingCode :=
  [.partialIceRestart, .restartReusedCredentials, .credentialsChangedWithoutGeneration]

def Within (codes : List FindingCode) (found : List Finding) : Prop := ∀ finding ∈ found, finding.code ∈ codes

theorem Within.append {codes : List FindingCode} {found found' : List Finding} (left : Within codes found)
    (right : Within codes found') : Within codes (found ++ found') := by
  intro finding member
  rcases List.mem_append.mp member with first | second
  · exact left finding first
  · exact right finding second

theorem within_failIf {codes : List FindingCode} {bad : Bool} {code : FindingCode} {detail : Text}
    (known : code ∈ codes) : Within codes (failIf bad code index detail) := by
  intro finding member
  cases bad with
  | false => cases member
  | true =>
    rw [List.mem_singleton.mp member]
    exact known

theorem checkSection_codes {kind : RevisionKind} {sect : Section} {found : List Finding}
    (checked : policy.checkSection index kind sect = .ok found) : Within descriptionCodes found := by
  obtain ⟨names, -, same⟩ := bind_ok.mp checked
  obtain rfl := pure_ok.mp same
  have fingerprint : Within descriptionCodes (policy.checkFingerprint index sect) := by
    unfold Policy.checkFingerprint
    split <;> exact within_failIf (by decide)
  have feedback : Within descriptionCodes
      ((sect.codecNames names).flatMap (policy.checkFeedback index sect.mid)) := by
    intro finding member
    obtain ⟨codec, -, inside⟩ := List.mem_flatMap.mp member
    exact within_failIf (by decide) finding inside
  have extmaps : Within descriptionCodes (sect.extmaps.flatMap fun extmap =>
      failIf (!policy.media.allowedExtmapUris.contains extmap.uri) .extmapDisallowed index
        (detailOf sect.mid extmap.uri)) := by
    intro finding member
    obtain ⟨extmap, -, inside⟩ := List.mem_flatMap.mp member
    exact within_failIf (by decide) finding inside
  refine (((Within.append ?_ fingerprint).append (within_failIf (by decide))).append feedback).append extmaps
  refine ((((within_failIf ?_).append (within_failIf ?_)).append (within_failIf ?_)).append
    (within_failIf ?_)).append (within_failIf ?_) <;> decide

theorem checkSections_codes {kind : RevisionKind} {sections : List Section} {found : List Finding}
    (checked : policy.checkSections index kind sections = .ok found) : Within descriptionCodes found := by
  induction sections generalizing found with
  | nil =>
    cases checked
    exact fun finding member => by cases member
  | cons sect rest ih =>
    obtain ⟨first, head, checked⟩ := bind_ok.mp checked
    obtain ⟨others, tail, same⟩ := bind_ok.mp checked
    obtain rfl := pure_ok.mp same
    exact (checkSection_codes head).append (ih tail)

theorem checkDescription_codes {revision : Revision} {found : List Finding}
    (checked : policy.checkDescription index revision = .ok found) : Within descriptionCodes found := by
  obtain ⟨sections, inner, same⟩ := bind_ok.mp checked
  obtain rfl := pure_ok.mp same
  refine ((within_failIf ?_).append (within_failIf ?_)).append (checkSections_codes inner) <;> decide

theorem checkAnswered_codes {offered answered : Section} {found : List Finding}
    (checked : policy.checkAnswered index offered answered = .ok found) : Within pairCodes found := by
  obtain ⟨names, -, same⟩ := bind_ok.mp checked
  obtain rfl := pure_ok.mp same
  refine (((((within_failIf ?_).append (within_failIf ?_)).append (within_failIf ?_)).append
    (within_failIf ?_)).append (within_failIf ?_)).append (within_failIf ?_) <;> decide

theorem checkRestart_codes {changed : Bool} {side mid : Text} {old? : Option Section} {new : Section} :
    Within restartCodes (policy.checkRestart index changed side mid old? new) := by
  unfold Policy.checkRestart
  cases old? with
  | none => exact fun finding member => by cases member
  | some old => exact ((within_failIf (by decide)).append (within_failIf (by decide))).append (within_failIf (by decide))

theorem mem_checkMids {stable : Option (Revision × Revision)} {offer answer : Revision} {mids : List Text}
    {found : List Finding} (checked : policy.checkMids index stable offer answer mids = .ok found)
    (finding : Finding) : finding ∈ found ↔
      ∃ mid ∈ mids, ∃ part, policy.checkMid index stable offer answer mid = .ok part ∧ finding ∈ part := by
  induction mids generalizing found with
  | nil =>
    cases checked
    simp
  | cons mid rest ih =>
    obtain ⟨first, head, checked⟩ := bind_ok.mp checked
    obtain ⟨others, tail, same⟩ := bind_ok.mp checked
    obtain rfl := pure_ok.mp same
    rw [List.mem_append, ih tail, List.exists_mem_cons_iff]
    refine or_congr_left ⟨fun member => ⟨first, head, member⟩, ?_⟩
    rintro ⟨part, head', member⟩
    rw [Except.ok.inj (head.symm.trans head')]
    exact member

end codes

section standing
variable {allowGlare : Bool}

/-- What the pass keeps is of the transcript: a pending offer, and a pair of two actors. -/
structure Standing.Of (standing : Standing) (revisions : List Revision) : Prop where
  pending : ∀ offer, standing.pending = some offer → offer ∈ revisions ∧ offer.kind = .offer
  stable : ∀ offer answer, standing.stable = some (offer, answer) →
    offer ∈ revisions ∧ answer ∈ revisions ∧ answer.actor ≠ offer.actor

theorem Standing.Of.step {standing : Standing} {revisions : List Revision} (of : standing.Of revisions)
    (revision : Revision) : (standing.step allowGlare revision).Of (revisions ++ [revision]) := by
  have kept : standing.Of (revisions ++ [revision]) := by
    refine ⟨fun offer found => ?_, fun offer answer found => ?_⟩
    · obtain ⟨member, kind⟩ := of.pending offer found
      exact ⟨List.mem_append_left _ member, kind⟩
    · obtain ⟨offered, answered, distinct⟩ := of.stable offer answer found
      exact ⟨List.mem_append_left _ offered, List.mem_append_left _ answered, distinct⟩
  have last : revision ∈ revisions ++ [revision] := by simp
  have opens (kind : revision.kind = .offer) (offer : Revision) (found : some revision = some offer) :
      offer ∈ revisions ++ [revision] ∧ offer.kind = .offer := by
    obtain rfl := Option.some.inj found
    exact ⟨last, kind⟩
  have closes (offer : Revision) (found : (none : Option Revision) = some offer) :
      offer ∈ revisions ++ [revision] ∧ offer.kind = .offer := by cases found
  unfold Standing.step
  split
  · exact ⟨closes, kept.stable⟩
  · rename_i kind _
    exact ⟨opens kind, kept.stable⟩
  · rename_i pending kind _
    split
    · exact ⟨opens kind, kept.stable⟩
    · dsimp only
      split
      · exact ⟨opens kind, kept.stable⟩
      · exact ⟨kept.pending, kept.stable⟩
  · exact kept
  · rename_i pending kind open_
    split
    · exact ⟨closes, kept.stable⟩
    · rename_i other
      refine ⟨closes, fun offer answer found => ?_⟩
      obtain ⟨rfl, rfl⟩ := Prod.mk.inj (Option.some.inj found)
      exact ⟨(kept.pending _ open_).1, last, other⟩

theorem run_of (allowGlare : Bool) (revisions : List Revision) : (Standing.start.run allowGlare revisions).Of revisions := by
  induction revisions using List.reverseRecOn with
  | nil => exact ⟨nofun, nofun⟩
  | append_singleton revisions revision ih =>
    rw [Standing.run, List.foldl_concat]
    exact ih.step revision

end standing

section pairs
variable {policy : Policy} {index : Nat} {offer answer : Revision} {mid : Text} {offered answered : Section}

/-- What a pair as a whole adds to the findings about its sections. -/
def pairHead (index : Nat) (offer answer : Revision) : List Finding :=
  failIf (!(answer.mids.all offer.mids.contains && offer.mids.all answer.mids.contains)) .answerMidMismatch index
      "answer mids differ from offer" ++
    failIf (!answer.bundleMids.all offer.bundleMids.contains) .answerBundleExpanded index "answer expanded BUNDLE" ++
    failIf (answer.generation ≠ offer.generation) .offerAnswerGenerationMismatch index "generation"

/-- What a section adds beside the pair completed before. -/
def Policy.restartFound (policy : Policy) (index : Nat) (stable : Option (Revision × Revision)) (answer : Revision)
    (mid : Text) (offered answered : Section) : List Finding :=
  match stable with
  | none => []
  | some (oldOffer, oldAnswer) =>
    let changed := decide (answer.generation ≠ oldAnswer.generation)
    policy.checkRestart index changed "offer" mid (oldOffer.find? mid) offered ++
      policy.checkRestart index changed "answer" mid (oldAnswer.find? mid) answered

structure Paired (offer answer : Revision) (mid : Text) (offered answered : Section) : Prop where
  offered : offer.find? mid = some offered
  answered : answer.find? mid = some answered

theorem Paired.common (paired : Paired offer answer mid offered answered) :
    mid ∈ sortTexts (answer.mids.filter offer.mids.contains) := by
  have inside {revision : Revision} {sect : Section} (found : revision.find? mid = some sect) : mid ∈ revision.mids := by
    unfold Revision.find? at found
    have same : sect.mid = mid := by simpa using List.find?_some found
    exact List.mem_map.mpr ⟨sect, List.mem_of_find?_eq_some found, same⟩
  refine (List.perm_insertionSort _ _).mem_iff.mpr (List.mem_filter.mpr ⟨inside paired.answered, ?_⟩)
  rw [List.contains_eq_mem]
  exact decide_eq_true (inside paired.offered)

theorem mem_checkMid {stable : Option (Revision × Revision)} {found : List Finding}
    (checked : policy.checkMid index stable offer answer mid = .ok found) (finding : Finding) : finding ∈ found ↔
      ∃ offered answered, Paired offer answer mid offered answered ∧
        ((∃ part, policy.checkAnswered index offered answered = .ok part ∧ finding ∈ part) ∨
          finding ∈ policy.restartFound index stable answer mid offered answered) := by
  unfold Policy.checkMid at checked
  split at checked
  · rename_i offered answered inOffer inAnswer
    obtain ⟨part, compared, checked⟩ := bind_ok.mp checked
    have split : found = part ++ policy.restartFound index stable answer mid offered answered := by
      unfold Policy.restartFound
      cases stable with
      | none => rw [pure_ok.mp checked, List.append_nil]
      | some pair => rw [← pure_ok.mp checked, List.append_assoc]
    rw [split, List.mem_append]
    constructor
    · rintro (first | second)
      · exact ⟨offered, answered, ⟨inOffer, inAnswer⟩, .inl ⟨part, compared, first⟩⟩
      · exact ⟨offered, answered, ⟨inOffer, inAnswer⟩, .inr second⟩
    · rintro ⟨offered', answered', ⟨inOffer', inAnswer'⟩, member⟩
      obtain rfl := Option.some.inj (inOffer.symm.trans inOffer')
      obtain rfl := Option.some.inj (inAnswer.symm.trans inAnswer')
      rcases member with ⟨part', compared', first⟩ | second
      · rw [← Except.ok.inj (compared.symm.trans compared')] at first
        exact .inl first
      · exact .inr second
  · rename_i absent
    obtain rfl := pure_ok.mp checked
    constructor
    · rintro ⟨⟩
    rintro ⟨offered, answered, ⟨inOffer, inAnswer⟩, -⟩
    exact absurd inAnswer (absent offered answered inOffer)

theorem checkMid_of_checkMids {stable : Option (Revision × Revision)} {mids : List Text} {found : List Finding}
    (checked : policy.checkMids index stable offer answer mids = .ok found) (listed : mid ∈ mids) :
    ∃ part, policy.checkMid index stable offer answer mid = .ok part := by
  induction mids generalizing found with
  | nil => cases listed
  | cons first rest ih =>
    obtain ⟨head, now, checked⟩ := bind_ok.mp checked
    obtain ⟨others, tail, -⟩ := bind_ok.mp checked
    rcases List.mem_cons.mp listed with rfl | later
    · exact ⟨head, now⟩
    · exact ih tail later

/-- The findings of a pair: those of the pair as a whole, those of its sections, and those beside the pair
completed before. -/
theorem mem_checkPair {stable : Option (Revision × Revision)} {found : List Finding}
    (checked : policy.checkPair index stable offer answer = .ok found) (finding : Finding) : finding ∈ found ↔
      finding ∈ pairHead index offer answer ∨ ∃ mid offered answered, Paired offer answer mid offered answered ∧
        ((∃ part, policy.checkAnswered index offered answered = .ok part ∧ finding ∈ part) ∨
          finding ∈ policy.restartFound index stable answer mid offered answered) := by
  obtain ⟨sections, compared, same⟩ := bind_ok.mp checked
  obtain rfl := pure_ok.mp same
  have inner : finding ∈ sections ↔ ∃ mid offered answered, Paired offer answer mid offered answered ∧
      ((∃ part, policy.checkAnswered index offered answered = .ok part ∧ finding ∈ part) ∨
        finding ∈ policy.restartFound index stable answer mid offered answered) := by
    rw [mem_checkMids compared]
    constructor
    · rintro ⟨mid, -, part, checked, member⟩
      exact ⟨mid, (mem_checkMid checked finding).mp member⟩
    · rintro ⟨mid, offered, answered, paired, member⟩
      obtain ⟨part, checked⟩ := checkMid_of_checkMids compared paired.common
      exact ⟨mid, paired.common, part, checked, (mem_checkMid checked finding).mpr ⟨offered, answered, paired, member⟩⟩
  unfold pairHead
  simp only [List.mem_append, inner]
  exact or_right_comm

theorem pairHead_codes {offer answer : Revision} : Within pairCodes (pairHead index offer answer) := by
  refine ((within_failIf ?_).append (within_failIf ?_)).append (within_failIf ?_) <;> decide

theorem restartFound_codes {stable : Option (Revision × Revision)} {answer : Revision} {mid : Text}
    {offered answered : Section} :
    Within restartCodes (policy.restartFound index stable answer mid offered answered) := by
  unfold Policy.restartFound
  cases stable with
  | none => exact fun finding member => by cases member
  | some pair => exact checkRestart_codes.append checkRestart_codes

end pairs

end Sippycup.Webrtc.Sdp
