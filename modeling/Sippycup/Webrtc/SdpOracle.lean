import Sippycup.Webrtc.Sdp

/-! The oracle over a transcript: one pass that follows the pending offer, the
last completed pair and who has to roll back, and collects findings. Codec names
are ASCII tokens, so their lower case is. -/
namespace Sippycup.Webrtc.Sdp
open Sippycup.Python

inductive FindingCode where
  | rollbackWithoutPendingOffer | rollbackByWrongActor
  | bundleIncomplete | bundleUnknownMid
  | mediaKindDisallowed | protocolDisallowed | rtcpMuxRequired | trickleRequired
  | endOfCandidatesMissing | fingerprintMissing | fingerprintAlgorithmDisallowed
  | noAllowedCodec | rtcpFeedbackMissing | extmapDisallowed
  | retryWithoutRollback | offerWhilePending | glare
  | answerWithoutOffer | answerByOfferer
  | answerMidMismatch | answerBundleExpanded | answerKindChanged | answerProtocolChanged
  | directionIncompatible | dtlsRoleInvalid | answerWithoutCodec | answerCodecNotOffered
  | partialIceRestart | restartReusedCredentials | credentialsChangedWithoutGeneration
  | offerAnswerGenerationMismatch
  deriving DecidableEq

def FindingCode.name : FindingCode → String
  | rollbackWithoutPendingOffer => "sdp.rollback_without_pending_offer"
  | rollbackByWrongActor => "sdp.rollback_by_wrong_actor"
  | bundleIncomplete => "sdp.bundle_incomplete"
  | bundleUnknownMid => "sdp.bundle_unknown_mid"
  | mediaKindDisallowed => "sdp.media_kind_disallowed"
  | protocolDisallowed => "sdp.protocol_disallowed"
  | rtcpMuxRequired => "sdp.rtcp_mux_required"
  | trickleRequired => "sdp.trickle_required"
  | endOfCandidatesMissing => "sdp.end_of_candidates_missing"
  | fingerprintMissing => "sdp.fingerprint_missing"
  | fingerprintAlgorithmDisallowed => "sdp.fingerprint_algorithm_disallowed"
  | noAllowedCodec => "sdp.no_allowed_codec"
  | rtcpFeedbackMissing => "sdp.rtcp_feedback_missing"
  | extmapDisallowed => "sdp.extmap_disallowed"
  | retryWithoutRollback => "sdp.retry_without_rollback"
  | offerWhilePending => "sdp.offer_while_pending"
  | glare => "sdp.glare"
  | answerWithoutOffer => "sdp.answer_without_offer"
  | answerByOfferer => "sdp.answer_by_offerer"
  | answerMidMismatch => "sdp.answer_mid_mismatch"
  | answerBundleExpanded => "sdp.answer_bundle_expanded"
  | answerKindChanged => "sdp.answer_kind_changed"
  | answerProtocolChanged => "sdp.answer_protocol_changed"
  | directionIncompatible => "sdp.direction_incompatible"
  | dtlsRoleInvalid => "sdp.dtls_role_invalid"
  | answerWithoutCodec => "sdp.answer_without_codec"
  | answerCodecNotOffered => "sdp.answer_codec_not_offered"
  | partialIceRestart => "sdp.partial_ice_restart"
  | restartReusedCredentials => "sdp.restart_reused_credentials"
  | credentialsChangedWithoutGeneration => "sdp.credentials_changed_without_generation"
  | offerAnswerGenerationMismatch => "sdp.offer_answer_generation_mismatch"

structure Finding where
  code : FindingCode
  revision : Nat
  detail : Text
  deriving DecidableEq

inductive Unknown where
  | pendingOffer (actor : Actor)
  | noRevisions
  | noCompletedNegotiation
  deriving DecidableEq

inductive Status where
  | pass | fail | incomplete
  deriving DecidableEq

/-- `fail(code, index, detail)` where a condition asks for it. -/
def failIf (bad : Bool) (code : FindingCode) (index : Nat) (detail : Text) : List Finding :=
  if bad then [⟨code, index, detail⟩] else []

/-- `_direction_compatible` -/
def directionCompatible (offer answer : Direction) : Bool :=
  match offer with
  | .sendrecv => true
  | .sendonly => [Direction.recvonly, .inactive].contains answer
  | .recvonly => [Direction.sendonly, .inactive].contains answer
  | .inactive => [Direction.inactive].contains answer

def lower (name : Text) : Text := Casing.ascii.lower name

/-- `f"{left}:{right}"` -/
def detailOf (left right : Text) : Text := left ++ (":" : Text) ++ right

def Section.codecNames (names : List Text) (section_ : Section) : List Codec :=
  section_.codecs.filter fun codec => (names.map lower).contains (lower codec.name)

/-- What two codecs have to share to be the same offer. -/
def Codec.identity (codec : Codec) : Nat × Text × Nat × Nat :=
  (codec.payloadType, lower codec.name, codec.clockRate, codec.channels)

def Revision.mids (revision : Revision) : List Text := revision.media.map Section.mid

def Revision.find? (revision : Revision) (mid : Text) : Option Section :=
  revision.media.find? fun section_ => section_.mid = mid

namespace Policy
variable (policy : Policy)

/-- `policy["media"]["allowedCodecs"][kind]` -/
def codecsFor (kind : MediaKind) : Result (List Text) :=
  match policy.media.allowedCodecs.find? fun entry => entry.1 = kind.name with
  | some entry => .ok entry.2
  | none => .error (.builtin .keyError)

def checkFeedback (index : Nat) (mid : Text) (codec : Codec) : List Finding :=
  let missing := policy.media.requiredRtcpFeedback.filter fun item => !codec.rtcpFeedback.contains item
  failIf (!missing.isEmpty) .rtcpFeedbackMissing index
    (detailOf (detailOf mid codec.name) (Text.join "," (sortTexts missing)))

def checkFingerprint (index : Nat) (sect : Section) : List Finding :=
  match sect.fingerprint with
  | none => failIf policy.dtls.requireFingerprint .fingerprintMissing index sect.mid
  | some fingerprint =>
    failIf (!policy.dtls.allowedHashAlgorithms.contains fingerprint.algorithm)
      .fingerprintAlgorithmDisallowed index (detailOf sect.mid fingerprint.algorithm.name)

def checkSection (index : Nat) (kind : RevisionKind) (sect : Section) : Result (List Finding) := do
  let before :=
    failIf (!policy.media.allowedKinds.contains sect.kind) .mediaKindDisallowed index
        (detailOf sect.mid sect.kind.name) ++
      failIf (!policy.media.allowedProtocols.contains sect.protocol) .protocolDisallowed index
        (detailOf sect.mid sect.protocol) ++
      failIf (policy.media.requireRtcpMux && !sect.rtcpMux) .rtcpMuxRequired index sect.mid ++
      failIf (policy.ice.requireTrickle && !sect.iceOptions.contains ("trickle" : Text))
        .trickleRequired index sect.mid ++
      failIf (policy.ice.requireEndOfCandidates && kind = .answer && !sect.endOfCandidates)
        .endOfCandidatesMissing index sect.mid ++
      policy.checkFingerprint index sect
  let active := sect.codecNames (← policy.codecsFor sect.kind)
  return before ++
    failIf (sect.port ≠ 0 && active.isEmpty) .noAllowedCodec index sect.mid ++
    active.flatMap (policy.checkFeedback index sect.mid) ++
    sect.extmaps.flatMap fun extmap =>
      failIf (!policy.media.allowedExtmapUris.contains extmap.uri) .extmapDisallowed index
        (detailOf sect.mid extmap.uri)

@[grind =] def checkSections (index : Nat) (kind : RevisionKind) : List Section → Result (List Finding)
  | [] => .ok []
  | sect :: rest => do
    let first ← policy.checkSection index kind sect
    return first ++ (← checkSections index kind rest)

/-- What an offer or an answer must keep to on its own. -/
def checkDescription (index : Nat) (revision : Revision) : Result (List Finding) := do
  let mids := revision.mids
  let bundle := revision.bundleMids
  let sameSet := bundle.all mids.contains && mids.all bundle.contains
  let found := failIf (policy.media.requireBundle && !sameSet) .bundleIncomplete index
      "BUNDLE must contain every mid exactly once" ++
    failIf (bundle.any fun mid => !mids.contains mid) .bundleUnknownMid index
      "BUNDLE references an absent mid"
  return found ++ (← policy.checkSections index revision.kind revision.media)

/-- ICE credentials of one side against those of the last completed pair. -/
def checkRestart (index : Nat) (generationChanged : Bool) (side mid : Text) (old? : Option Section)
    (new : Section) : List Finding :=
  match old? with
  | none => []
  | some old =>
    let ufrag := decide (old.iceUfragHash ≠ new.iceUfragHash)
    let pwd := decide (old.icePwdHash ≠ new.icePwdHash)
    failIf (ufrag != pwd) .partialIceRestart index (detailOf side mid) ++
      failIf (generationChanged && policy.ice.requireCredentialChangeOnRestart && !(ufrag && pwd))
        .restartReusedCredentials index (detailOf side mid) ++
      failIf (ufrag && pwd && !generationChanged) .credentialsChangedWithoutGeneration index
        (detailOf side mid)

/-- An answered section against the offered one with its mid. -/
def checkAnswered (index : Nat) (offer answer : Section) : Result (List Finding) := do
  let mid := answer.mid
  -- The answer's sections were checked before its pair is: a kind that is not allowed was met there.
  let offered := offer.codecs.map Codec.identity
  let selected := (answer.codecNames (← policy.codecsFor answer.kind)).map Codec.identity
  return failIf (answer.kind ≠ offer.kind) .answerKindChanged index mid ++
    failIf (answer.protocol ≠ offer.protocol) .answerProtocolChanged index mid ++
    failIf (!directionCompatible offer.direction answer.direction) .directionIncompatible index mid ++
    failIf (!policy.dtls.allowedSetupPairs.contains (offer.setup, answer.setup)) .dtlsRoleInvalid index
      (detailOf mid (offer.setup.name ++ ("/" : Text) ++ answer.setup.name)) ++
    failIf (answer.port ≠ 0 && selected.isEmpty) .answerWithoutCodec index mid ++
    failIf (!selected.all offered.contains) .answerCodecNotOffered index mid

def checkMid (index : Nat) (stable : Option (Revision × Revision)) (offer answer : Revision)
    (mid : Text) : Result (List Finding) :=
  match offer.find? mid, answer.find? mid with
  | some offered, some answered => do
    let found ← policy.checkAnswered index offered answered
    match stable with
    | none => return found
    | some (oldOffer, oldAnswer) =>
      let changed := decide (answer.generation ≠ oldAnswer.generation)
      return found ++ policy.checkRestart index changed "offer" mid (oldOffer.find? mid) offered ++
        policy.checkRestart index changed "answer" mid (oldAnswer.find? mid) answered
  | _, _ => return []

@[grind =] def checkMids (index : Nat) (stable : Option (Revision × Revision)) (offer answer : Revision) :
    List Text → Result (List Finding)
  | [] => .ok []
  | mid :: rest => do
    let first ← policy.checkMid index stable offer answer mid
    return first ++ (← checkMids index stable offer answer rest)

/-- A completed pair, section by section in the order of their mids. -/
def checkPair (index : Nat) (stable : Option (Revision × Revision)) (offer answer : Revision) :
    Result (List Finding) := do
  let sameSet := answer.mids.all offer.mids.contains && offer.mids.all answer.mids.contains
  let common := sortTexts (answer.mids.filter offer.mids.contains)
  let found := failIf (!sameSet) .answerMidMismatch index "answer mids differ from offer" ++
    failIf (!answer.bundleMids.all offer.bundleMids.contains) .answerBundleExpanded index
      "answer expanded BUNDLE"
  return found ++ (← policy.checkMids index stable offer answer common) ++
    failIf (answer.generation ≠ offer.generation) .offerAnswerGenerationMismatch index "generation"

end Policy

/-- Where the evaluation stands between two revisions. -/
structure Progress where
  findings : List Finding
  pending : Option Revision
  stable : Option (Revision × Revision)
  rollbackRequired : List Actor
  negotiated : Nat

def Progress.start : Progress := ⟨[], none, none, [], 0⟩

def Progress.add (progress : Progress) (found : List Finding) : Progress :=
  { progress with findings := progress.findings ++ found }

def Progress.rollback (progress : Progress) (index : Nat) (actor : Actor) : Progress :=
  let found := match progress.pending with
    | none => [⟨.rollbackWithoutPendingOffer, index, actor.name⟩]
    | some pending => failIf (actor ≠ pending.actor) .rollbackByWrongActor index actor.name
  { progress.add found with
    pending := none
    rollbackRequired := progress.rollbackRequired.filter fun other => other ≠ actor }

namespace Policy
variable (policy : Policy)

def offer (progress : Progress) (index : Nat) (revision : Revision) : Progress :=
  let actor := revision.actor
  let progress := progress.add (failIf
    (progress.rollbackRequired.contains actor && policy.negotiation.requireRollbackBeforeRetry)
    .retryWithoutRollback index actor.name)
  match progress.pending with
  | none => { progress with pending := some revision }
  | some pending =>
    if pending.actor = actor then
      { progress.add [⟨.offerWhilePending, index, actor.name⟩] with pending := some revision }
    else
      let rollbackRequired := pending.actor :: actor :: progress.rollbackRequired
      if policy.negotiation.allowGlare then { progress with pending := some revision, rollbackRequired }
      else
        { progress.add [⟨.glare, index, pending.actor.name ++ ("->" : Text) ++ actor.name⟩] with
          rollbackRequired }

def answer (progress : Progress) (index : Nat) (revision : Revision) : Result Progress :=
  match progress.pending with
  | none => return progress.add [⟨.answerWithoutOffer, index, revision.actor.name⟩]
  | some pending =>
    if revision.actor = pending.actor then
      return { progress.add [⟨.answerByOfferer, index, revision.actor.name⟩] with pending := none }
    else do
      let found ← policy.checkPair index progress.stable pending revision
      return {
        progress.add found with
        pending := none
        stable := some (pending, revision)
        negotiated := progress.negotiated + 1 }

def step (progress : Progress) (index : Nat) (revision : Revision) : Result Progress :=
  match revision.kind with
  | .rollback => return progress.rollback index revision.actor
  | .offer => do
    return policy.offer (progress.add (← policy.checkDescription index revision)) index revision
  | .answer => do
    policy.answer (progress.add (← policy.checkDescription index revision)) index revision

@[grind =] def follow (progress : Progress) : Nat → List Revision → Result Progress
  | _, [] => .ok progress
  | index, revision :: rest => do
    follow (← policy.step progress index revision) (index + 1) rest

end Policy

structure Report where
  apiVersion : Text := reportVersion
  status : Status
  networkActivity : Bool := false
  observedNetworkActivity : Bool
  revisions : Nat
  completedNegotiations : Nat
  findings : List Finding
  unknowns : List Unknown
  retainedRawSdp : Bool := false
  deriving DecidableEq

def unknownsOf (revisions : List Revision) (progress : Progress) : List Unknown :=
  (match progress.pending with | some pending => [.pendingOffer pending.actor] | none => []) ++
    if revisions.isEmpty then [.noRevisions]
    else if progress.negotiated = 0 ∧ progress.findings = [] then [.noCompletedNegotiation]
    else []

def reportOf (transcript : Transcript) (progress : Progress) : Report :=
  let unknowns := unknownsOf transcript.revisions progress
  { status :=
      if !progress.findings.isEmpty then .fail
      else if !unknowns.isEmpty then .incomplete else .pass
    observedNetworkActivity := transcript.networkActivity
    revisions := transcript.revisions.length
    completedNegotiations := progress.negotiated
    findings := progress.findings
    unknowns }

def evaluate (policyDocument transcriptDocument : JsonValue) : Result Report := do
  let policy ← validatePolicy policyDocument
  let transcript ← validateTranscript transcriptDocument policyDocument
  return reportOf transcript (← policy.follow .start 0 transcript.revisions)

end Sippycup.Webrtc.Sdp
