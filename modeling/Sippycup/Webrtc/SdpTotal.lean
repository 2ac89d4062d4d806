import Sippycup.Webrtc.SdpOracle

/-! Where the oracle answers at all. A section is judged by the codecs its kind
is allowed, which the policy lists for allowed kinds only: the finding about a
kind that is not allowed is lost with the lookup after it. -/
namespace Sippycup.Webrtc.Sdp
open Sippycup.Python

namespace Policy
variable {policy : Policy}

theorem codecsFor_total {kind : MediaKind} :
    (∃ names, policy.codecsFor kind = .ok names) ↔ kind ∈ policy.media.allowedKinds := by
  rw [policy.media.covered kind, codecsFor]
  rcases found : policy.media.allowedCodecs.find? fun entry => entry.1 = kind.name with _ | entry <;>
    rw [found]
  · simp only [reduceCtorEq, exists_false, false_iff]
    intro key
    obtain ⟨entry, member, same⟩ := List.mem_map.mp key
    exact absurd same (by simpa using List.find?_eq_none.mp found entry member)
  · have same : entry.1 = kind.name := by simpa using List.find?_some found
    have key : kind.name ∈ policy.media.allowedCodecs.map Prod.fst :=
      same ▸ List.mem_map_of_mem (List.mem_of_find?_eq_some found)
    exact ⟨fun _ => key, fun _ => ⟨entry.2, rfl⟩⟩

theorem checkSection_total (index : Nat) (kind : RevisionKind) {sect : Section} :
    (∃ found, policy.checkSection index kind sect = .ok found) ↔
      sect.kind ∈ policy.media.allowedKinds := by
  rw [← codecsFor_total]
  simp only [checkSection, bind_ok, pure_ok]
  constructor
  · rintro ⟨_, names, listed, -⟩
    exact ⟨names, listed⟩
  · rintro ⟨names, listed⟩
    exact ⟨_, names, listed, rfl⟩

theorem checkSections_total (index : Nat) (kind : RevisionKind) {sections : List Section} :
    (∃ found, policy.checkSections index kind sections = .ok found) ↔
      ∀ sect ∈ sections, sect.kind ∈ policy.media.allowedKinds := by
  induction sections with
  | nil => simp [checkSections]
  | cons sect rest ih =>
    rw [List.forall_mem_cons, ← ih, ← checkSection_total index kind]
    simp only [checkSections, bind_ok, pure_ok]
    constructor
    · rintro ⟨_, first, head, others, tail, -⟩
      exact ⟨⟨first, head⟩, others, tail⟩
    · rintro ⟨⟨first, head⟩, others, tail⟩
      exact ⟨_, first, head, others, tail, rfl⟩

theorem checkDescription_total (index : Nat) {revision : Revision} :
    (∃ found, policy.checkDescription index revision = .ok found) ↔
      ∀ sect ∈ revision.media, sect.kind ∈ policy.media.allowedKinds := by
  rw [← checkSections_total index revision.kind]
  simp only [checkDescription, bind_ok, pure_ok]
  constructor
  · rintro ⟨_, found, checked, -⟩
    exact ⟨found, checked⟩
  · rintro ⟨found, checked⟩
    exact ⟨_, found, checked, rfl⟩

/-- A section found in an answer of allowed kinds can be compared with an offered one. -/
theorem checkMid_total (index : Nat) (stable : Option (Revision × Revision)) (offer : Revision)
    {answer : Revision}
    (allowed : ∀ sect ∈ answer.media, sect.kind ∈ policy.media.allowedKinds) (mid : Text) :
    ∃ found, policy.checkMid index stable offer answer mid = .ok found := by
  unfold checkMid
  split
  · rename_i offered answered _ present
    obtain ⟨names, listed⟩ := codecsFor_total.2 (allowed answered (List.mem_of_find?_eq_some present))
    have compared : ∃ found, policy.checkAnswered index offered answered = .ok found := by
      simp only [checkAnswered, bind_ok, pure_ok]
      exact ⟨_, names, listed, rfl⟩
    obtain ⟨found, compared⟩ := compared
    rw [compared, ok_bind]
    cases stable with
    | none => exact ⟨_, rfl⟩
    | some pair => exact ⟨_, rfl⟩
  · exact ⟨_, rfl⟩

theorem checkMids_total (index : Nat) (stable : Option (Revision × Revision)) (offer : Revision)
    {answer : Revision}
    (allowed : ∀ sect ∈ answer.media, sect.kind ∈ policy.media.allowedKinds) (mids : List Text) :
    ∃ found, policy.checkMids index stable offer answer mids = .ok found := by
  induction mids with
  | nil => exact ⟨_, rfl⟩
  | cons mid rest ih =>
    obtain ⟨first, head⟩ := checkMid_total index stable offer allowed mid
    obtain ⟨others, tail⟩ := ih
    exact ⟨_, by rw [checkMids, head, ok_bind, tail, ok_bind]; rfl⟩

theorem answer_total (progress : Progress) (index : Nat) {revision : Revision}
    (allowed : ∀ sect ∈ revision.media, sect.kind ∈ policy.media.allowedKinds) :
    ∃ after, policy.answer progress index revision = .ok after := by
  unfold answer
  split
  · exact ⟨_, rfl⟩
  · rename_i pending _
    split
    · exact ⟨_, rfl⟩
    · have paired : ∃ found, policy.checkPair index progress.stable pending revision = .ok found := by
        simp only [checkPair, bind_ok, pure_ok]
        obtain ⟨found, compared⟩ := checkMids_total index progress.stable pending
          allowed (sortTexts (revision.mids.filter pending.mids.contains))
        exact ⟨_, found, compared, rfl⟩
      obtain ⟨found, paired⟩ := paired
      exact ⟨_, by rw [paired, ok_bind]; rfl⟩

/-- Every revision goes through the checks of its sections, and only there can one raise. -/
theorem step_total (progress : Progress) (index : Nat) {revision : Revision} :
    (∃ after, policy.step progress index revision = .ok after) ↔
      ∀ sect ∈ revision.media, sect.kind ∈ policy.media.allowedKinds := by
  unfold step
  split
  · rename_i rollback
    simp [revision.bare rollback, pure_ok]
  · rw [← checkDescription_total index]
    simp only [bind_ok, pure_ok]
    constructor
    · rintro ⟨_, found, checked, -⟩
      exact ⟨found, checked⟩
    · rintro ⟨found, checked⟩
      exact ⟨_, found, checked, rfl⟩
  · simp only [bind_ok]
    constructor
    · rintro ⟨_, found, checked, -⟩
      exact (checkDescription_total index).mp ⟨found, checked⟩
    · intro allowed
      obtain ⟨found, checked⟩ := (checkDescription_total index).mpr allowed
      obtain ⟨after, answered⟩ := answer_total (progress.add found) index allowed
      exact ⟨after, found, checked, answered⟩

theorem follow_total (progress : Progress) (index : Nat) {revisions : List Revision} :
    (∃ after, policy.follow progress index revisions = .ok after) ↔
      ∀ revision ∈ revisions, ∀ sect ∈ revision.media, sect.kind ∈ policy.media.allowedKinds := by
  induction revisions generalizing progress index with
  | nil => simp [follow]
  | cons revision rest ih =>
    rw [List.forall_mem_cons, ← step_total progress index]
    simp only [follow, bind_ok]
    constructor
    · rintro ⟨after, next, stepped, followed⟩
      exact ⟨⟨next, stepped⟩, (ih _ _).mp ⟨after, followed⟩⟩
    · rintro ⟨⟨next, stepped⟩, allowed⟩
      obtain ⟨after, followed⟩ := (ih _ _).mpr allowed
      exact ⟨after, next, stepped, followed⟩

end Policy

theorem evaluate_ok {policyDocument transcriptDocument : JsonValue} {policy : Policy}
    {transcript : Transcript} {report : Report} (valid : validatePolicy policyDocument = .ok policy)
    (accepted : validateTranscript transcriptDocument policyDocument = .ok transcript) :
    evaluate policyDocument transcriptDocument = .ok report ↔
      ∃ progress, policy.follow .start 0 transcript.revisions = .ok progress ∧
        reportOf transcript progress = report := by
  rw [evaluate, valid, ok_bind, accepted, ok_bind]
  simp only [bind_ok, pure_ok]

/-- The oracle answers exactly where every section is of an allowed kind. -/
theorem evaluate_total_iff {policyDocument transcriptDocument : JsonValue} {policy : Policy}
    {transcript : Transcript} (valid : validatePolicy policyDocument = .ok policy)
    (accepted : validateTranscript transcriptDocument policyDocument = .ok transcript) :
    (∃ report, evaluate policyDocument transcriptDocument = .ok report ∧
      ∀ index revision, transcript.revisions[index]? = some revision →
        ∀ sect ∈ revision.media, sect.kind ∉ policy.media.allowedKinds →
          ⟨.mediaKindDisallowed, index, detailOf sect.mid sect.kind.name⟩ ∈ report.findings) ↔
      ∀ revision ∈ transcript.revisions, ∀ sect ∈ revision.media,
        sect.kind ∈ policy.media.allowedKinds := by
  rw [← Policy.follow_total .start 0]
  simp only [evaluate_ok valid accepted]
  constructor
  · rintro ⟨-, ⟨progress, followed, -⟩, -⟩
    exact ⟨progress, followed⟩
  · rintro ⟨progress, followed⟩
    have allowed := (Policy.follow_total _ _).mp ⟨progress, followed⟩
    refine ⟨_, ⟨progress, followed, rfl⟩, fun index revision at_ sect member absent => ?_⟩
    exact absurd (allowed revision (List.mem_of_getElem? at_) sect member) absent

def exampleTexts (texts : List String) : JsonValue := .list (texts.map fun text => .str text)

/-- Allows audio alone, and no glare. -/
def examplePolicy : JsonValue :=
  .dict [
    JsonDict.entry "apiVersion" (.str policyVersion),
    JsonDict.entry "media" (.dict [
      JsonDict.entry "allowedKinds" (exampleTexts ["audio"]),
      JsonDict.entry "allowedProtocols" (exampleTexts ["UDP/TLS/RTP/SAVPF"]),
      JsonDict.entry "requireBundle" (.bool true),
      JsonDict.entry "requireRtcpMux" (.bool true),
      JsonDict.entry "allowedCodecs" (.dict [JsonDict.entry "audio" (exampleTexts ["opus"])]),
      JsonDict.entry "requiredRtcpFeedback" (.list []),
      JsonDict.entry "allowedExtmapUris" (.list [])]),
    JsonDict.entry "ice" (.dict [
      JsonDict.entry "requireTrickle" (.bool false),
      JsonDict.entry "requireEndOfCandidates" (.bool false),
      JsonDict.entry "requireCredentialChangeOnRestart" (.bool true)]),
    JsonDict.entry "dtls" (.dict [
      JsonDict.entry "requireFingerprint" (.bool false),
      JsonDict.entry "allowedHashAlgorithms" (exampleTexts ["sha-256"]),
      JsonDict.entry "allowedSetupPairs" (.list [
        .dict [JsonDict.entry "offer" (.str "actpass"), JsonDict.entry "answer" (.str "active")]])]),
    JsonDict.entry "negotiation" (.dict [
      JsonDict.entry "allowGlare" (.bool false),
      JsonDict.entry "requireRollbackBeforeRetry" (.bool true),
      JsonDict.entry "maxRevisions" (.int 8)]),
    JsonDict.entry "limits" (.dict [
      JsonDict.entry "maxMSections" (.int 4),
      JsonDict.entry "maxCodecsPerSection" (.int 4),
      JsonDict.entry "maxExtmapsPerSection" (.int 4),
      JsonDict.entry "maxGeneratedCases" (.int 4)])]

def exampleDigest : JsonValue := .str ⟨List.replicate 64 97⟩

def exampleSection (kind setup : String) : JsonValue :=
  .dict [
    JsonDict.entry "mid" (.str "0"), JsonDict.entry "kind" (.str kind),
    JsonDict.entry "protocol" (.str "UDP/TLS/RTP/SAVPF"), JsonDict.entry "port" (.int 9),
    JsonDict.entry "direction" (.str "sendrecv"), JsonDict.entry "rtcpMux" (.bool true),
    JsonDict.entry "iceUfragHash" exampleDigest, JsonDict.entry "icePwdHash" exampleDigest,
    JsonDict.entry "iceOptions" (.list []), JsonDict.entry "endOfCandidates" (.bool true),
    JsonDict.entry "fingerprint" .null, JsonDict.entry "setup" (.str setup),
    JsonDict.entry "codecs" (.list [.dict [
      JsonDict.entry "payloadType" (.int 111), JsonDict.entry "name" (.str "opus"), JsonDict.entry "clockRate" (.int 48000),
      JsonDict.entry "channels" (.int 2), JsonDict.entry "rtcpFeedback" (.list [])]]),
    JsonDict.entry "extmaps" (.list [])]

def exampleRevision (sequence : Int) (kind actor : String) (sect : JsonValue) : JsonValue :=
  .dict [
    JsonDict.entry "sequence" (.int sequence), JsonDict.entry "type" (.str kind), JsonDict.entry "actor" (.str actor),
    JsonDict.entry "generation" (.int 0), JsonDict.entry "sdpHash" exampleDigest,
    JsonDict.entry "bundleMids" (exampleTexts ["0"]), JsonDict.entry "media" (.list [sect])]

def exampleTranscript (revisions : List JsonValue) : JsonValue :=
  .dict [
    JsonDict.entry "apiVersion" (.str transcriptVersion), JsonDict.entry "networkActivity" (.bool false),
    JsonDict.entry "revisions" (.list revisions)]

def videoTranscript : JsonValue :=
  exampleTranscript [exampleRevision 1 "offer" "local" (exampleSection "video" "actpass")]

def audioTranscript : JsonValue :=
  exampleTranscript [
    exampleRevision 1 "offer" "local" (exampleSection "audio" "actpass"),
    exampleRevision 2 "answer" "remote" (exampleSection "audio" "active")]

theorem examplePolicy_valid : (validatePolicy examplePolicy).isOk = true := by decide +kernel

theorem videoTranscript_accepted : (validateTranscript videoTranscript examplePolicy).isOk = true := by
  decide +kernel

theorem evaluate_videoTranscript :
    evaluate examplePolicy videoTranscript = .error (.builtin .keyError) := by decide +kernel

/-- An offered video section under a policy of audio alone: both documents are
accepted and the evaluation raises. -/
theorem disallowed_kind_raises :
    (validatePolicy examplePolicy).isOk = true ∧
      (validateTranscript videoTranscript examplePolicy).isOk = true ∧
      evaluate examplePolicy videoTranscript = .error (.builtin .keyError) :=
  ⟨examplePolicy_valid, videoTranscript_accepted, evaluate_videoTranscript⟩

theorem videoTranscript_disallowed :
    ∃ policy transcript, validatePolicy examplePolicy = .ok policy ∧
      validateTranscript videoTranscript examplePolicy = .ok transcript ∧
      ∃ revision ∈ transcript.revisions, ∃ sect ∈ revision.media,
        sect.kind ∉ policy.media.allowedKinds := by
  obtain ⟨policy, valid⟩ := isOk_iff.mp examplePolicy_valid
  obtain ⟨transcript, accepted⟩ := isOk_iff.mp videoTranscript_accepted
  refine ⟨policy, transcript, valid, accepted, ?_⟩
  by_contra none
  simp only [not_exists, not_and, not_not] at none
  obtain ⟨report, evaluated, -⟩ := (evaluate_total_iff valid accepted).mpr none
  rw [evaluate_videoTranscript] at evaluated
  cases evaluated

end Sippycup.Webrtc.Sdp
