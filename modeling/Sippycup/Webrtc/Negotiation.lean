import Sippycup.Webrtc.SdpTotal

/-! What a pass means: the revisions are a word of the offer/answer automaton,
whose state is the pending offer, and each completed pair agrees. -/
namespace Sippycup.Webrtc.Sdp
open Sippycup.Python

def Direction.sends : Direction → Bool
  | .sendrecv | .sendonly => true
  | .recvonly | .inactive => false

def Direction.receives : Direction → Bool
  | .sendrecv | .recvonly => true
  | .sendonly | .inactive => false

/-- Each end sends only what the other receives. -/
structure Direction.Compatible (offer answer : Direction) : Prop where
  toOfferer : answer.sends = true → offer.receives = true
  toAnswerer : answer.receives = true → offer.sends = true

theorem directionCompatible_iff {offer answer : Direction} :
    directionCompatible offer answer = true ↔ offer.Compatible answer := by
  constructor
  · cases offer <;> cases answer <;> intro compatible <;>
      first | exact ⟨by decide, by decide⟩ | exact absurd compatible (by decide)
  · rintro ⟨toOfferer, toAnswerer⟩
    revert toOfferer toAnswerer
    cases offer <;> cases answer <;> decide

/-- A codec with a name that the policy allows for a kind. -/
def Policy.AllowsCodec (policy : Policy) (kind : MediaKind) (codec : Codec) : Prop :=
  ∃ names, policy.codecsFor kind = .ok names ∧ ∃ name ∈ names, lower name = lower codec.name

structure Section.Answers (policy : Policy) (offer answer : Section) : Prop where
  kind : answer.kind = offer.kind
  protocol : answer.protocol = offer.protocol
  direction : offer.direction.Compatible answer.direction
  setup : (offer.setup, answer.setup) ∈ policy.dtls.allowedSetupPairs
  codecs : ∀ codec ∈ answer.codecs, policy.AllowsCodec answer.kind codec →
    ∃ offered ∈ offer.codecs, offered.identity = codec.identity

structure Revision.Agrees (policy : Policy) (offer answer : Revision) : Prop where
  mids : ∀ mid, mid ∈ answer.mids ↔ mid ∈ offer.mids
  bundle : answer.bundleMids ⊆ offer.bundleMids
  sections : ∀ offered ∈ offer.media, ∀ answered ∈ answer.media, answered.mid = offered.mid →
    Section.Answers policy offered answered

/-- One move of the automaton, with the pair it completes. -/
inductive Turn : Option Revision → Revision → Option Revision → Option (Revision × Revision) → Prop
  | offer {revision : Revision} : revision.kind = .offer → Turn none revision (some revision) none
  | answer {pending revision : Revision} : revision.kind = .answer → revision.actor ≠ pending.actor →
      Turn (some pending) revision none (some (pending, revision))
  | rollback {pending revision : Revision} : revision.kind = .rollback →
      revision.actor = pending.actor → Turn (some pending) revision none none

/-- A word that leaves nothing pending, with the pairs completed along it. -/
inductive Word : Option Revision → List Revision → List (Revision × Revision) → Prop
  | done : Word none [] []
  | turn {pending next : Option Revision} {revision : Revision} {rest : List Revision}
      {completed : Option (Revision × Revision)} {pairs : List (Revision × Revision)} :
      Turn pending revision next completed → Word next rest pairs →
      Word pending (revision :: rest) (completed.toList ++ pairs)

section checks
variable {policy : Policy} {index : Nat} {offer answer : Revision}

@[simp] theorem failIf_nil {bad : Bool} {code : FindingCode} {detail : Text} :
    failIf bad code index detail = [] ↔ bad = false := by
  cases bad <;> simp [failIf]

@[simp] theorem findings_add {progress : Progress} {found : List Finding} :
    (progress.add found).findings = progress.findings ++ found := rfl

theorem find?_mid {revision : Revision} {sect : Section} (member : sect ∈ revision.media) :
    revision.find? sect.mid = some sect := by
  have unique := revision.unique
  unfold Revision.find?
  generalize revision.media = media at member unique
  induction media with
  | nil => cases member
  | cons first rest ih =>
    rw [List.map_cons, List.nodup_cons] at unique
    rcases List.mem_cons.mp member with rfl | later
    · simp
    · have other : first.mid ≠ sect.mid := fun same =>
        unique.1 (same ▸ List.mem_map_of_mem later)
      rw [List.find?_cons_of_neg (by simpa using other)]
      exact ih later unique.2

theorem checkAnswered_clean {offered answered : Section}
    (checked : policy.checkAnswered index offered answered = .ok []) :
    Section.Answers policy offered answered := by
  simp only [Policy.checkAnswered, bind_ok, pure_ok, List.append_eq_nil_iff, failIf_nil,
    decide_eq_false_iff_not, not_not, Bool.not_eq_false', List.contains_eq_mem,
    decide_eq_true_eq, List.all_eq_true, List.mem_map, forall_exists_index, and_imp] at checked
  obtain ⟨names, listed, ⟨⟨⟨⟨kind, protocol⟩, direction⟩, setup⟩, -⟩, offered⟩ := checked
  refine ⟨kind, protocol, directionCompatible_iff.1 direction, setup, fun codec member allowed => ?_⟩
  obtain ⟨others, same, name, named, lowered⟩ := allowed
  rw [listed, Except.ok.injEq] at same
  subst same
  have active : codec ∈ answered.codecNames names := by
    simp only [Section.codecNames, List.mem_filter, List.contains_eq_mem, decide_eq_true_eq]
    exact ⟨member, List.mem_map.mpr ⟨name, named, lowered⟩⟩
  exact offered _ codec active rfl

theorem checkMid_clean {stable : Option (Revision × Revision)} {mid : Text} {offered answered : Section}
    (checked : policy.checkMid index stable offer answer mid = .ok [])
    (inOffer : offer.find? mid = some offered) (inAnswer : answer.find? mid = some answered) :
    Section.Answers policy offered answered := by
  rw [Policy.checkMid, inOffer, inAnswer] at checked
  obtain ⟨found, compared, checked⟩ := bind_ok.mp checked
  have none : found = [] := by
    cases stable with
    | none => exact pure_ok.mp checked
    | some pair =>
      have all := pure_ok.mp checked
      simp only [List.append_eq_nil_iff] at all
      exact all.1.1
  exact checkAnswered_clean (none ▸ compared)

theorem checkMids_clean {stable : Option (Revision × Revision)} {mids : List Text}
    (checked : policy.checkMids index stable offer answer mids = .ok []) :
    ∀ mid ∈ mids, policy.checkMid index stable offer answer mid = .ok [] := by
  induction mids with
  | nil => simp
  | cons mid rest ih =>
    obtain ⟨first, head, checked⟩ := bind_ok.mp checked
    obtain ⟨others, tail, all⟩ := bind_ok.mp checked
    obtain ⟨rfl, rfl⟩ := List.append_eq_nil_iff.mp (pure_ok.mp all)
    exact List.forall_mem_cons.mpr ⟨head, ih tail⟩

theorem checkPair_clean {stable : Option (Revision × Revision)}
    (checked : policy.checkPair index stable offer answer = .ok []) : offer.Agrees policy answer := by
  simp only [Policy.checkPair, bind_ok, pure_ok, List.append_eq_nil_iff, failIf_nil,
    Bool.not_eq_false', Bool.and_eq_true, List.all_eq_true, List.contains_eq_mem,
    decide_eq_true_eq] at checked
  obtain ⟨_, compared, ⟨⟨⟨within, covered⟩, bundle⟩, rfl⟩, -⟩ := checked
  refine ⟨fun mid => ⟨within mid, covered mid⟩, bundle, fun offered first answered second same => ?_⟩
  have common : answered.mid ∈ sortTexts (answer.mids.filter offer.mids.contains) := by
    refine ((List.perm_insertionSort _ _).mem_iff).mpr (List.mem_filter.mpr ⟨?_, ?_⟩)
    · exact List.mem_map_of_mem second
    · rw [List.contains_eq_mem, decide_eq_true_eq]
      exact same ▸ List.mem_map_of_mem first
  exact checkMid_clean (checkMids_clean compared _ common) (same ▸ find?_mid first) (find?_mid second)

end checks

section runs
variable {policy : Policy} {progress after : Progress} {index : Nat} {revision : Revision}

/-- What a step without findings does to the pending offer. -/
structure Clean (policy : Policy) (progress : Progress) (revision : Revision) (after : Progress)
    (completed : Option (Revision × Revision)) : Prop where
  before : progress.findings = []
  turn : Turn progress.pending revision after.pending completed
  agrees : ∀ pair ∈ completed, pair.1.Agrees policy pair.2
  negotiated : after.negotiated = progress.negotiated + completed.toList.length

theorem rollback_clean (kind : revision.kind = .rollback)
    (clean : (progress.rollback index revision.actor).findings = []) :
    Clean policy progress revision (progress.rollback index revision.actor) none := by
  unfold Progress.rollback at clean
  rcases open_ : progress.pending with _ | pending <;> rw [open_] at clean
  · simp at clean
  · simp only [findings_add, List.append_eq_nil_iff, failIf_nil, decide_eq_false_iff_not,
      not_not] at clean
    refine ⟨clean.1, ?_, nofun, rfl⟩
    rw [open_]
    exact .rollback kind clean.2

theorem offer_clean (noGlare : policy.negotiation.allowGlare = false) (kind : revision.kind = .offer)
    (clean : (policy.offer progress index revision).findings = []) :
    Clean policy progress revision (policy.offer progress index revision) none := by
  unfold Policy.offer at clean ⊢
  rcases open_ : progress.pending with _ | pending
  · simp only [Progress.add, open_] at clean ⊢
    refine ⟨(List.append_eq_nil_iff.mp clean).1, ?_, nofun, rfl⟩
    rw [open_]
    exact .offer kind
  · -- An offer that finds another pending is a finding, whoever made it.
    exfalso
    simp only [Progress.add, open_, noGlare, Bool.false_eq_true, if_false] at clean
    split at clean <;> simp at clean

theorem answer_clean (kind : revision.kind = .answer)
    (answered : policy.answer progress index revision = .ok after) (clean : after.findings = []) :
    ∃ completed, Clean policy progress revision after completed := by
  unfold Policy.answer at answered
  rcases open_ : progress.pending with _ | pending <;> rw [open_] at answered
  · obtain rfl := pure_ok.mp answered
    simp at clean
  · dsimp only at answered
    split at answered
    · obtain rfl := pure_ok.mp answered
      simp at clean
    · rename_i other
      obtain ⟨found, paired, same⟩ := bind_ok.mp answered
      obtain rfl := pure_ok.mp same
      obtain ⟨before, rfl⟩ := List.append_eq_nil_iff.mp clean
      refine ⟨some (pending, revision), before, ?_, ?_, rfl⟩
      · rw [open_]
        exact .answer kind other
      · rintro pair ⟨⟩
        exact checkPair_clean paired

theorem step_clean (noGlare : policy.negotiation.allowGlare = false)
    (stepped : policy.step progress index revision = .ok after) (clean : after.findings = []) :
    ∃ completed, Clean policy progress revision after completed := by
  unfold Policy.step at stepped
  rcases kind : revision.kind with _ | _ | _ <;> rw [kind] at stepped
  · obtain ⟨found, -, same⟩ := bind_ok.mp stepped
    obtain rfl := pure_ok.mp same
    have turned := offer_clean noGlare kind clean
    exact ⟨none, (List.append_eq_nil_iff.mp turned.before).1, turned.turn, turned.agrees,
      turned.negotiated⟩
  · obtain ⟨found, -, answered⟩ := bind_ok.mp stepped
    obtain ⟨completed, turned⟩ := answer_clean kind answered clean
    exact ⟨completed, (List.append_eq_nil_iff.mp turned.before).1, turned.turn, turned.agrees,
      turned.negotiated⟩
  · obtain rfl := pure_ok.mp stepped
    exact ⟨none, rollback_clean kind clean⟩

/-- A run that ends clean was clean throughout, and spells a word. -/
theorem follow_clean {revisions : List Revision} (noGlare : policy.negotiation.allowGlare = false)
    (followed : policy.follow progress index revisions = .ok after) (clean : after.findings = [])
    (closed : after.pending = none) :
    progress.findings = [] ∧ ∃ pairs, Word progress.pending revisions pairs ∧
      (∀ pair ∈ pairs, pair.1.Agrees policy pair.2) ∧
      after.negotiated = progress.negotiated + pairs.length := by
  induction revisions generalizing progress index with
  | nil =>
    cases followed
    refine ⟨clean, [], ?_, by simp, rfl⟩
    rw [closed]
    exact .done
  | cons revision rest ih =>
    obtain ⟨next, stepped, followed⟩ := bind_ok.mp followed
    obtain ⟨before, pairs, word, agree, count⟩ := ih followed
    obtain ⟨completed, turned⟩ := step_clean noGlare stepped before
    refine ⟨turned.before, completed.toList ++ pairs, .turn turned.turn word, ?_, ?_⟩
    · intro pair member
      rcases List.mem_append.mp member with new | later
      · exact turned.agrees pair (Option.mem_toList.mp new)
      · exact agree pair later
    · rw [count, turned.negotiated, List.length_append, Nat.add_assoc]

end runs

/-- A transcript that passes under a policy without glare is a word of the
offer/answer automaton with at least one completed pair, and its pairs agree. -/
theorem pass_negotiates {policyDocument transcriptDocument : JsonValue} {policy : Policy}
    {transcript : Transcript} {report : Report} (valid : validatePolicy policyDocument = .ok policy)
    (accepted : validateTranscript transcriptDocument policyDocument = .ok transcript)
    (noGlare : policy.negotiation.allowGlare = false)
    (evaluated : evaluate policyDocument transcriptDocument = .ok report)
    (pass : report.status = .pass) :
    ∃ pairs, Word none transcript.revisions pairs ∧ pairs ≠ [] ∧
      ∀ pair ∈ pairs, pair.1.Agrees policy pair.2 := by
  obtain ⟨progress, followed, rfl⟩ := (evaluate_ok valid accepted).mp evaluated
  have clean : progress.findings = [] := by
    by_contra found
    simp [reportOf, found] at pass
  have known : unknownsOf transcript.revisions progress = [] := by
    by_contra unknown
    simp [reportOf, clean, unknown] at pass
  obtain ⟨closed, rest⟩ := List.append_eq_nil_iff.mp known
  have closed : progress.pending = none := by
    rcases open_ : progress.pending with _ | pending
    · rfl
    · simp [open_] at closed
  obtain ⟨-, pairs, word, agree, count⟩ := follow_clean noGlare followed clean closed
  refine ⟨pairs, word, ?_, agree⟩
  rintro rfl
  -- No completed pair is reported as unknown, whether or not there are revisions.
  split at rest
  · cases rest
  · simp [clean, count, Progress.start] at rest

theorem examplePolicy_noGlare :
    (validatePolicy examplePolicy).toOption.map (fun policy => policy.negotiation.allowGlare) =
      some false := by decide +kernel

theorem audioTranscript_passes :
    (evaluate examplePolicy audioTranscript).toOption.map Report.status = some .pass := by decide +kernel

/-- An audio offer and its answer. -/
theorem audioTranscript_negotiates :
    ∃ policy transcript pairs, validatePolicy examplePolicy = .ok policy ∧
      validateTranscript audioTranscript examplePolicy = .ok transcript ∧
      Word none transcript.revisions pairs ∧ pairs ≠ [] := by
  obtain ⟨policy, valid, noGlare⟩ := toOption_map examplePolicy_noGlare
  obtain ⟨report, evaluated, pass⟩ := toOption_map audioTranscript_passes
  have accepted := evaluated
  rw [evaluate, valid, ok_bind] at accepted
  obtain ⟨transcript, accepted, -⟩ := bind_ok.mp accepted
  obtain ⟨pairs, word, some, -⟩ := pass_negotiates valid accepted noGlare evaluated pass
  exact ⟨policy, transcript, pairs, valid, accepted, word, some⟩

end Sippycup.Webrtc.Sdp
