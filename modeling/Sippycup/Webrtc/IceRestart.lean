import Sippycup.Webrtc.Standing

/-! ICE credentials between two completed negotiations. A section is compared with the one that played the
same role before: when the other party makes the offer, the credentials of both parties are compared. -/
namespace Sippycup.Webrtc.Sdp
open Sippycup.Python

def Section.SameCredentials (a b : Section) : Prop :=
  a.iceUfragHash = b.iceUfragHash ∧ a.icePwdHash = b.icePwdHash

instance (a b : Section) : Decidable (a.SameCredentials b) := inferInstanceAs (Decidable (_ ∧ _))

/-- Each actor keeps the credentials of every mid, and there is one generation. -/
structure KeepsCredentials (revisions : List Revision) : Prop where
  credentials : ∀ revision ∈ revisions, ∀ other ∈ revisions, revision.actor = other.actor →
    ∀ sect ∈ revision.media, ∀ again ∈ other.media, sect.mid = again.mid → sect.SameCredentials again
  generation : ∀ revision ∈ revisions, ∀ other ∈ revisions, revision.generation = other.generation

/-- Where a negotiation is completed by an offer of the other party than the one completed before, the
sections with one mid have the credentials of those that played the same role then. -/
def Untangled (policy : Policy) (revisions : List Revision) : Prop :=
  ∀ before answer rest offer oldOffer oldAnswer, revisions = before ++ answer :: rest → answer.kind = .answer →
    (stand policy before).pending = some offer → answer.actor ≠ offer.actor →
    (stand policy before).stable = some (oldOffer, oldAnswer) → oldOffer.actor ≠ offer.actor →
    ∀ mid offered answered, offer.find? mid = some offered → answer.find? mid = some answered →
      (∀ old, oldOffer.find? mid = some old → old.SameCredentials offered) ∧
      (∀ old, oldAnswer.find? mid = some old → old.SameCredentials answered)

section restart
variable {policy : Policy} {index : Nat}

/-- Without a new generation the credentials must be the old ones. -/
theorem checkRestart_nil {side mid : Text} {old? : Option Section} {new : Section} :
    policy.checkRestart index false side mid old? new = [] ↔ ∀ old, old? = some old → old.SameCredentials new := by
  unfold Policy.checkRestart
  cases old? with
  | none => simp
  | some old =>
    simp only [Bool.false_and, Bool.not_false, Bool.and_true, List.append_eq_nil_iff, failIf_nil,
      Option.some.injEq, forall_eq', Section.SameCredentials]
    by_cases ufrag : old.iceUfragHash = new.iceUfragHash <;> by_cases pwd : old.icePwdHash = new.icePwdHash <;>
      simp [ufrag, pwd]

theorem restartFound_nil {oldOffer oldAnswer answer : Revision} {mid : Text} {offered answered : Section}
    (generation : answer.generation = oldAnswer.generation) :
    policy.restartFound index (some (oldOffer, oldAnswer)) answer mid offered answered = [] ↔
      (∀ old, oldOffer.find? mid = some old → old.SameCredentials offered) ∧
      (∀ old, oldAnswer.find? mid = some old → old.SameCredentials answered) := by
  have unchanged : decide (answer.generation ≠ oldAnswer.generation) = false := by simp [generation]
  unfold Policy.restartFound
  simp only [unchanged, List.append_eq_nil_iff, checkRestart_nil]

theorem disjoint_codes : ∀ code ∈ pairCodes ++ descriptionCodes, code ∉ restartCodes := by decide

/-- A completed pair reports on restarts where a section has findings beside the pair before. -/
theorem checkPair_restart {stable : Option (Revision × Revision)} {offer answer : Revision} {found : List Finding}
    (checked : policy.checkPair index stable offer answer = .ok found) :
    (∀ finding ∈ found, finding.code ∉ restartCodes) ↔
      ∀ mid offered answered, Paired offer answer mid offered answered →
        policy.restartFound index stable answer mid offered answered = [] := by
  constructor
  · intro clean mid offered answered paired
    refine List.eq_nil_iff_forall_not_mem.mpr fun finding member => ?_
    have listed := (mem_checkPair checked finding).mpr (.inr ⟨mid, offered, answered, paired, .inr member⟩)
    exact clean finding listed (restartFound_codes finding member)
  · intro nothing finding member
    rcases (mem_checkPair checked finding).mp member with head | ⟨mid, offered, answered, paired, own | restart⟩
    · exact disjoint_codes _ (List.mem_append_left _ (pairHead_codes finding head))
    · obtain ⟨part, compared, inside⟩ := own
      exact disjoint_codes _ (List.mem_append_left _ (checkAnswered_codes compared finding inside))
    · rw [nothing mid offered answered paired] at restart
      cases restart

/-- Only a completed pair reports on restarts. -/
theorem found_restart {standing : Standing} {revision : Revision} {found : List Finding}
    (added : policy.found standing index revision = .ok found) :
    (∀ finding ∈ found, finding.code ∉ restartCodes) ↔
      ∀ offer, revision.kind = .answer → standing.pending = some offer → revision.actor ≠ offer.actor →
        ∀ mid offered answered, Paired offer revision mid offered answered →
          policy.restartFound index standing.stable revision mid offered answered = [] := by
  have described {part : List Finding} (checked : policy.checkDescription index revision = .ok part) :
      ∀ finding ∈ part, finding.code ∉ restartCodes := fun finding member =>
    disjoint_codes _ (List.mem_append_right _ (checkDescription_codes checked finding member))
  unfold Policy.found at added
  cases kind : revision.kind with
  | rollback =>
    rw [kind] at added
    obtain rfl := Except.ok.inj added
    refine ⟨nofun, fun _ => ?_⟩
    have codes : Within [.rollbackWithoutPendingOffer, .rollbackByWrongActor]
        (Policy.rollbackFound standing index revision) := by
      unfold Policy.rollbackFound
      cases standing.pending with
      | none => exact fun finding member => by simp [List.mem_singleton.mp member]
      | some pending => exact within_failIf (by decide)
    intro finding member
    have := codes finding member
    revert this
    generalize finding.code = code
    revert code
    decide
  | offer =>
    rw [kind] at added
    obtain ⟨part, checked, same⟩ := bind_ok.mp added
    obtain rfl := pure_ok.mp same
    refine ⟨nofun, fun _ => ?_⟩
    have codes : Within [.retryWithoutRollback, .offerWhilePending, .glare] (policy.offerFound standing index revision) := by
      unfold Policy.offerFound
      refine (within_failIf (by decide)).append ?_
      cases standing.pending with
      | none => exact fun finding member => by cases member
      | some pending =>
        dsimp only
        split
        · exact fun finding member => by simp [List.mem_singleton.mp member]
        · exact within_failIf (by decide)
    intro finding member
    rcases List.mem_append.mp member with first | second
    · exact described checked finding first
    · have := codes finding second
      revert this
      generalize finding.code = code
      revert code
      decide
  | answer =>
    rw [kind] at added
    obtain ⟨part, checked, added⟩ := bind_ok.mp added
    obtain ⟨answered, paired, same⟩ := bind_ok.mp added
    obtain rfl := pure_ok.mp same
    have split : (∀ finding ∈ part ++ answered, finding.code ∉ restartCodes) ↔
        ∀ finding ∈ answered, finding.code ∉ restartCodes := by
      rw [List.forall_mem_append]
      exact and_iff_right (described checked)
    rw [split]
    unfold Policy.answerFound at paired
    cases open_ : standing.pending with
    | none =>
      rw [open_] at paired
      obtain rfl := Except.ok.inj paired
      refine ⟨fun _ => nofun, fun _ => ?_⟩
      simp [restartCodes]
    | some pending =>
      rw [open_] at paired
      dsimp only at paired
      by_cases own : revision.actor = pending.actor
      · rw [if_pos own] at paired
        obtain rfl := Except.ok.inj paired
        refine ⟨fun _ offer _ found other => ?_, fun _ => by simp [restartCodes]⟩
        exact absurd (Option.some.inj found ▸ own) other
      · rw [if_neg own] at paired
        rw [checkPair_restart paired]
        constructor
        · intro clean offer _ found _
          exact Option.some.inj found ▸ clean
        · intro clean
          exact clean pending rfl rfl own

end restart

section transcripts
variable {policy : Policy} {revisions : List Revision}

/-- With two parties the answers are of one actor when the offers are. -/
theorem same_answerer {a b c d : Actor} (first : b ≠ a) (second : d ≠ c) (same : a = c) : b = d := by
  revert first second same
  cases a <;> cases b <;> cases c <;> cases d <;> decide

theorem sameCredentials (keeps : KeepsCredentials revisions) {old new : Revision} (older : old ∈ revisions)
    (newer : new ∈ revisions) (actor : old.actor = new.actor) {mid : Text} {sect again : Section}
    (found : old.find? mid = some sect) (found' : new.find? mid = some again) : sect.SameCredentials again := by
  unfold Revision.find? at found found'
  have first : sect.mid = mid := by simpa using List.find?_some found
  have second : again.mid = mid := by simpa using List.find?_some found'
  exact keeps.credentials old older new newer actor sect (List.mem_of_find?_eq_some found) again
    (List.mem_of_find?_eq_some found') (first.trans second.symm)

end transcripts

/-- Where each actor keeps its credentials, a restart is reported unless the parties that exchange the roles
of offerer and answerer have the same credentials. -/
theorem restart_findings_iff {policyDocument transcriptDocument : JsonValue} {policy : Policy}
    {transcript : Transcript} {report : Report} (valid : validatePolicy policyDocument = .ok policy)
    (accepted : validateTranscript transcriptDocument policyDocument = .ok transcript)
    (evaluated : evaluate policyDocument transcriptDocument = .ok report)
    (keeps : KeepsCredentials transcript.revisions) :
    (∀ finding ∈ report.findings, finding.code ∉ restartCodes) ↔ Untangled policy transcript.revisions := by
  obtain ⟨progress, followed, rfl⟩ := (evaluate_ok valid accepted).mp evaluated
  have allowed := (Policy.follow_total _ _).mp ⟨progress, followed⟩
  have clean : (∀ finding ∈ progress.findings, finding.code ∉ restartCodes) ↔
      ∀ before revision rest found, transcript.revisions = before ++ revision :: rest →
        policy.found (stand policy before) (0 + before.length) revision = .ok found →
        ∀ finding ∈ found, finding.code ∉ restartCodes := by
    constructor
    · intro clean before revision rest found split added finding member
      exact clean finding ((Policy.follow_found followed finding).mpr
        (.inr ⟨before, revision, rest, found, split, added, member⟩))
    · intro clean finding member
      rcases (Policy.follow_found followed finding).mp member with
        empty | ⟨before, revision, rest, found, split, added, inside⟩
      · cases empty
      · exact clean before revision rest found split added finding inside
  refine clean.trans ?_
  constructor
  · intro clean before answer rest offer oldOffer oldAnswer split kind pending other stable _ mid offered answered
      inOffer inAnswer
    have inside : answer ∈ transcript.revisions := split ▸ List.mem_append_right _ List.mem_cons_self
    have of := run_of policy.negotiation.allowGlare before
    have older : oldAnswer ∈ transcript.revisions := split ▸ List.mem_append_left _ (of.stable _ _ stable).2.1
    obtain ⟨found, added⟩ := found_total (stand policy before) (0 + before.length) (allowed answer inside)
    have nothing := (found_restart added).mp (clean before answer rest found split added) offer kind pending other
      mid offered answered ⟨inOffer, inAnswer⟩
    rw [stable] at nothing
    exact (restartFound_nil (keeps.generation answer inside oldAnswer older)).mp nothing
  · intro untangled before revision rest found split added
    refine (found_restart added).mpr fun offer kind pending other mid offered answered paired => ?_
    have of := run_of policy.negotiation.allowGlare before
    have inside : revision ∈ transcript.revisions := split ▸ List.mem_append_right _ List.mem_cons_self
    have offer_mem : offer ∈ transcript.revisions := split ▸ List.mem_append_left _ (of.pending _ pending).1
    cases stable : (stand policy before).stable with
    | none => rfl
    | some pair =>
      obtain ⟨oldOffer, oldAnswer⟩ := pair
      obtain ⟨older, older', distinct⟩ := of.stable _ _ stable
      have older : oldOffer ∈ transcript.revisions := split ▸ List.mem_append_left _ older
      have older' : oldAnswer ∈ transcript.revisions := split ▸ List.mem_append_left _ older'
      refine (restartFound_nil (keeps.generation revision inside oldAnswer older')).mpr ?_
      by_cases same : oldOffer.actor = offer.actor
      · have same' : oldAnswer.actor = revision.actor := same_answerer distinct other same
        exact ⟨fun old found => sameCredentials keeps older offer_mem same found paired.offered,
          fun old found => sameCredentials keeps older' inside same' found paired.answered⟩
      · exact untangled before revision rest offer oldOffer oldAnswer split kind pending other stable same mid offered
          answered paired.offered paired.answered

section examples

instance (revisions : List Revision) : Decidable (KeepsCredentials revisions) :=
  decidable_of_iff
    ((∀ revision ∈ revisions, ∀ other ∈ revisions, revision.actor = other.actor →
      ∀ sect ∈ revision.media, ∀ again ∈ other.media, sect.mid = again.mid → sect.SameCredentials again) ∧
    ∀ revision ∈ revisions, ∀ other ∈ revisions, revision.generation = other.generation)
    ⟨fun keeps => ⟨keeps.1, keeps.2⟩, fun keeps => ⟨keeps.credentials, keeps.generation⟩⟩

/-- An audio section with a credential of its own: a letter for both hashes. -/
def credentialSection (setup : String) (letter : Nat) : JsonValue :=
  match exampleSection "audio" setup with
  | .dict entries => .dict (entries.map fun entry =>
      if entry.1 = ("iceUfragHash" : Text) ∨ entry.1 = ("icePwdHash" : Text) then (entry.1, .str ⟨List.replicate 64 letter⟩) else entry)
  | other => other

/-- The party with the first credential offers twice. -/
def sameOfferer : JsonValue :=
  exampleTranscript [
    exampleRevision 1 "offer" "local" (credentialSection "actpass" 97),
    exampleRevision 2 "answer" "remote" (credentialSection "active" 98),
    exampleRevision 3 "offer" "local" (credentialSection "actpass" 97),
    exampleRevision 4 "answer" "remote" (credentialSection "active" 98)]

/-- Each party offers once. -/
def otherOfferer : JsonValue :=
  exampleTranscript [
    exampleRevision 1 "offer" "local" (credentialSection "actpass" 97),
    exampleRevision 2 "answer" "remote" (credentialSection "active" 98),
    exampleRevision 3 "offer" "remote" (credentialSection "actpass" 98),
    exampleRevision 4 "answer" "local" (credentialSection "active" 97)]

theorem sameOfferer_keeps :
    (validateTranscript sameOfferer examplePolicy).toOption.map (fun transcript =>
      decide (KeepsCredentials transcript.revisions)) = some true := by decide +kernel

theorem sameOfferer_evaluated : (evaluate examplePolicy sameOfferer).isOk = true := by decide +kernel

theorem sameOfferer_restarts : ∃ policy transcript report, validatePolicy examplePolicy = .ok policy ∧
    validateTranscript sameOfferer examplePolicy = .ok transcript ∧ evaluate examplePolicy sameOfferer = .ok report ∧
    KeepsCredentials transcript.revisions ∧
    ((∀ finding ∈ report.findings, finding.code ∉ restartCodes) ↔ Untangled policy transcript.revisions) := by
  obtain ⟨policy, valid⟩ := isOk_iff.mp examplePolicy_valid
  obtain ⟨transcript, accepted, keeps⟩ := toOption_map sameOfferer_keeps
  obtain ⟨report, evaluated⟩ := isOk_iff.mp sameOfferer_evaluated
  have keeps := of_decide_eq_true keeps
  exact ⟨policy, transcript, report, valid, accepted, evaluated, keeps,
    restart_findings_iff valid accepted evaluated keeps⟩

/-- Nobody changes a credential and a change of credentials is reported. -/
theorem otherOfferer_restarts :
    (validateTranscript otherOfferer examplePolicy).toOption.map (fun transcript =>
      decide (KeepsCredentials transcript.revisions)) = some true ∧
    (evaluate examplePolicy otherOfferer).toOption.map (fun report => report.findings.map Finding.code) =
      some [.credentialsChangedWithoutGeneration, .credentialsChangedWithoutGeneration] := by
  constructor <;> decide +kernel

end examples

end Sippycup.Webrtc.Sdp
