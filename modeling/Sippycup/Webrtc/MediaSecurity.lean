import Sippycup.Webrtc.DtlsSrtp

/-! The oracle over an observation: one pass with a table for each dict of the
source, then what is judged at the end. -/
namespace Sippycup.Webrtc.DtlsSrtp
open Sippycup.Python

inductive FindingCode where
  | duplicateHandshake | versionDisallowed | cipherDisallowed | fingerprintMismatch
  | fingerprintUnverified | downgradeAccepted | downgradeReachedMedia
  | contextEpochRegression | contextEpochGap | keyReusedAcrossEpochs | profileDisallowed
  | rtpRtcpKeyReuse | rtpWithoutContext | rtpReplayAccepted | rtpInvalidAuthAccepted
  | sequenceRegression | sequenceGapExceeded | rtcpWithoutContext | rtcpUnencrypted
  | rtcpReplayAccepted | rtcpInvalidAuthAccepted | rtcpIndexRegression | rekeyReusedKey
  | rekeyEpochInvalid | failureNotClosed | cleanupIncomplete | rolePairInvalid
  | peerObservationMismatch | profileChanged | peerProfileMismatch | rekeyContextMismatch
  | incompleteIceRestartRekey | packetCeiling | ssrcCeiling | epochCeiling | durationCeiling
  deriving DecidableEq

structure Finding where
  code : FindingCode
  event : Int
  detail : Text
  deriving DecidableEq

inductive Unknown where
  | bothHandshakesNotObserved
  | downgradeProbeNotObserved
  | contextNotObserved (side : Side)
  | rtpEvidenceNotObserved
  | rtcpEvidenceNotObserved
  | cleanupNotObserved
  deriving DecidableEq

inductive Status where
  | pass | fail | incomplete
  deriving DecidableEq

def failIf (bad : Bool) (code : FindingCode) (event : Int) (detail : Text) : List Finding :=
  if bad then [⟨code, event, detail⟩] else []

def natText (n : Nat) : Text := ⟨intCodes n⟩

abbrev Key := Direction × Nat

/-- `repr((direction, ssrc))` -/
def reprKey (key : Key) : Text :=
  ("('" : Text) ++ key.1.name ++ ("', " : Text) ++ natText key.2 ++ (")" : Text)

/-- `f"{left}:{right}"` -/
def detailOf (left right : Text) : Text := left ++ (":" : Text) ++ right

/-- `(roc << 16) | sequence` -/
def RtpPacket.extended (packet : RtpPacket) : Nat := (packet.roc <<< 16) ||| packet.sequence

def RtpPacket.key (packet : RtpPacket) : Key := (packet.direction, packet.ssrc)

def RtcpPacket.key (packet : RtcpPacket) : Key := (packet.direction, packet.ssrc)

/-- Where the evaluation stands between two events. -/
structure Ledger where
  findings : List Finding
  handshakes : Side → Option Handshake
  contexts : Side → List Context
  downgradeSeen : Bool
  cleanupSeen : Bool
  iceRekeys : List Side
  iceRestartSeen : Bool
  lastRtp : Key → Option Nat
  lastRtcp : Key → Option Nat
  ssrcs : List Nat
  epochs : List Nat
  packetCount : Nat
  rtpSeen : Bool
  rtcpSeen : Bool
  lastContextEpoch : Side → Option Nat
  contextKeyEpochs : Side → Text → Option Nat

def Ledger.start : Ledger where
  findings := []
  handshakes _ := none
  contexts _ := []
  downgradeSeen := false
  cleanupSeen := false
  iceRekeys := []
  iceRestartSeen := false
  lastRtp _ := none
  lastRtcp _ := none
  ssrcs := []
  epochs := []
  packetCount := 0
  rtpSeen := false
  rtcpSeen := false
  lastContextEpoch _ := none
  contextKeyEpochs _ _ := none

namespace Policy
variable (policy : Policy)

def handshakeStep (ledger : Ledger) (index : Nat) (data : Handshake) : Ledger :=
  { ledger with
    handshakes := Function.update ledger.handshakes data.side (some data)
    findings := ledger.findings ++
      failIf (ledger.handshakes data.side).isSome .duplicateHandshake index data.side.name ++
      failIf (!policy.dtls.allowedVersions.contains data.version) .versionDisallowed index
        data.version.name ++
      failIf (!policy.dtls.allowedCiphers.contains data.cipher) .cipherDisallowed index data.cipher ++
      failIf (data.sdpFingerprintHash ≠ data.certificateFingerprintHash) .fingerprintMismatch index
        data.side.name ++
      failIf (policy.dtls.requireVerifiedFingerprint && !data.verified) .fingerprintUnverified index
        data.side.name }

def probeStep (ledger : Ledger) (index : Nat) (offered : Version) (outcome : ProbeOutcome)
    (reachedMedia : Bool) : Ledger :=
  let below := !policy.dtls.allowedVersions.contains offered
  { ledger with
    downgradeSeen := true
    findings := ledger.findings ++
      failIf (below && outcome = .connected) .downgradeAccepted index offered.name ++
      failIf (below && reachedMedia) .downgradeReachedMedia index offered.name }

/-- Whether a key of a side was used under another epoch. -/
def reused (keys : Text → Option Nat) (key : Text) (epoch : Nat) : Bool :=
  (keys key).any fun prior => prior ≠ epoch

def contextStep (ledger : Ledger) (index : Nat) (data : Context) : Ledger :=
  let side := data.side
  let previous := ledger.lastContextEpoch side
  let keys := ledger.contextKeyEpochs side
  let rtpKeys := Function.update keys data.rtpKeyIdHash (some data.epoch)
  { ledger with
    contexts := Function.update ledger.contexts side (ledger.contexts side ++ [data])
    ssrcs := ledger.ssrcs.insert data.ssrc
    epochs := ledger.epochs.insert data.epoch
    lastContextEpoch := Function.update ledger.lastContextEpoch side
      (some (max (previous.getD 0) data.epoch))
    contextKeyEpochs := Function.update ledger.contextKeyEpochs side
      (Function.update rtpKeys data.rtcpKeyIdHash (some data.epoch))
    findings := ledger.findings ++
      failIf (previous.any fun epoch => data.epoch < epoch) .contextEpochRegression index side.name ++
      failIf (previous.any fun epoch => epoch + 1 < data.epoch) .contextEpochGap index side.name ++
      failIf (reused keys data.rtpKeyIdHash data.epoch) .keyReusedAcrossEpochs index
        (detailOf side.name "rtpKeyIdHash") ++
      failIf (reused rtpKeys data.rtcpKeyIdHash data.epoch) .keyReusedAcrossEpochs index
        (detailOf side.name "rtcpKeyIdHash") ++
      failIf (!policy.srtp.allowedProfiles.contains data.profile) .profileDisallowed index data.profile ++
      failIf (policy.srtp.requireDistinctRtpRtcpKeys && data.rtpKeyIdHash = data.rtcpKeyIdHash)
        .rtpRtcpKeyReuse index side.name }

def withoutContext (ledger : Ledger) (key : Key) : Bool :=
  !(ledger.contexts key.1.sender).any fun context => context.ssrc = key.2

def rtpStep (ledger : Ledger) (index : Nat) (data : RtpPacket) : Ledger :=
  let key := data.key
  let previous := ledger.lastRtp key
  { ledger with
    rtpSeen := true
    packetCount := ledger.packetCount + 1
    ssrcs := ledger.ssrcs.insert data.ssrc
    lastRtp :=
      if data.accepted then
        Function.update ledger.lastRtp key (some (max (previous.getD 0) data.extended))
      else ledger.lastRtp
    findings := ledger.findings ++
      failIf (withoutContext ledger key) .rtpWithoutContext index (reprKey key) ++
      failIf (data.replay && data.accepted) .rtpReplayAccepted index (reprKey key) ++
      failIf (!data.authValid && data.accepted) .rtpInvalidAuthAccepted index (reprKey key) ++
      failIf (data.accepted && previous.any fun last => data.extended ≤ last) .sequenceRegression index
        (reprKey key) ++
      failIf (data.accepted && previous.any fun last =>
          last < data.extended && policy.srtp.maxSequenceGap < data.extended - last)
        .sequenceGapExceeded index (natText (data.extended - previous.getD 0)) }

def rtcpStep (ledger : Ledger) (index : Nat) (data : RtcpPacket) : Ledger :=
  let key := data.key
  let previous := ledger.lastRtcp key
  { ledger with
    rtcpSeen := true
    packetCount := ledger.packetCount + 1
    ssrcs := ledger.ssrcs.insert data.ssrc
    lastRtcp :=
      if data.accepted then
        Function.update ledger.lastRtcp key (some (max (previous.getD 0) data.index))
      else ledger.lastRtcp
    findings := ledger.findings ++
      failIf (withoutContext ledger key) .rtcpWithoutContext index (reprKey key) ++
      failIf (policy.srtp.requireRtcpProtection && !data.encrypted) .rtcpUnencrypted index (reprKey key) ++
      failIf (data.replay && data.accepted) .rtcpReplayAccepted index (reprKey key) ++
      failIf (!data.authValid && data.accepted) .rtcpInvalidAuthAccepted index (reprKey key) ++
      failIf (data.accepted && previous.any fun last => data.index ≤ last) .rtcpIndexRegression index
        (reprKey key) }

def rekeyStep (ledger : Ledger) (index : Nat) (data : Rekey) : Ledger :=
  { ledger with
    epochs := (ledger.epochs.insert data.oldEpoch).insert data.newEpoch
    iceRekeys := if data.reason = .iceRestart then ledger.iceRekeys.insert data.side else ledger.iceRekeys
    findings := ledger.findings ++
      failIf (data.oldKeyIdHash = data.newKeyIdHash) .rekeyReusedKey index data.side.name ++
      failIf (data.newEpoch ≠ data.oldEpoch + 1) .rekeyEpochInvalid index data.side.name }

def step (ledger : Ledger) (index : Nat) : Evidence → Ledger
  | .dtlsHandshake data => policy.handshakeStep ledger index data
  | .downgradeProbe offered outcome reachedMedia =>
    policy.probeStep ledger index offered outcome reachedMedia
  | .srtpContext data => policy.contextStep ledger index data
  | .rtpPacket data => policy.rtpStep ledger index data
  | .rtcpPacket data => policy.rtcpStep ledger index data
  | .rekey data => rekeyStep ledger index data
  | .iceRestart _ => { ledger with iceRestartSeen := true }
  | .failure stage closure code =>
    { ledger with
      findings := ledger.findings ++
        failIf (closure = .continued) .failureNotClosed index (detailOf stage.name code) }
  | .cleanup contexts sockets =>
    { ledger with
      cleanupSeen := true
      findings := ledger.findings ++
        failIf (contexts ≠ 0 || sockets ≠ 0) .cleanupIncomplete index
          (("contexts=" : Text) ++ natText contexts ++ (" sockets=" : Text) ++ natText sockets) }

@[grind =] def follow (ledger : Ledger) : Nat → List Event → Ledger
  | _, [] => ledger
  | index, event :: rest => follow (policy.step ledger index event.evidence) (index + 1) rest

section verdict

def peerFindings (ledger : Ledger) : List Finding :=
  match ledger.handshakes .localSide, ledger.handshakes .remote with
  | some first, some second =>
    failIf (!policy.dtls.allowedRolePairs.contains (first.role, second.role)) .rolePairInvalid (-1)
        (first.role.name ++ ("/" : Text) ++ second.role.name) ++
      failIf (first.version ≠ second.version || first.cipher ≠ second.cipher)
        .peerObservationMismatch (-1) "version or cipher"
  | _, _ => []

def profileFindings (ledger : Ledger) : List Finding :=
  (sides.flatMap fun side =>
    failIf (1 < ((ledger.contexts side).map Context.profile).dedup.length) .profileChanged (-1)
      side.name) ++
    match (ledger.contexts .localSide).getLast?, (ledger.contexts .remote).getLast? with
    | some first, some second =>
      failIf (first.profile ≠ second.profile) .peerProfileMismatch (-1) "local/remote"
    | _, _ => []

/-- Whether some context of a side has an epoch and an RTP key. -/
def holds (ledger : Ledger) (side : Side) (epoch : Nat) (key : Text) : Bool :=
  (ledger.contexts side).any fun context => context.epoch = epoch && context.rtpKeyIdHash = key

def rekeyFindings (ledger : Ledger) (events : List Event) : List Finding :=
  events.flatMap fun event =>
    match event.evidence with
    | .rekey data =>
      failIf (!holds ledger data.side data.oldEpoch data.oldKeyIdHash ||
          !holds ledger data.side data.newEpoch data.newKeyIdHash)
        .rekeyContextMismatch (-1) data.side.name
    | _ => []

def restartFindings (ledger : Ledger) : List Finding :=
  failIf (policy.srtp.requireRekeyOnIceRestart && ledger.iceRestartSeen &&
      !sides.all ledger.iceRekeys.contains)
    .incompleteIceRestartRekey (-1)
    (Text.join "," (sortTexts (ledger.iceRekeys.map Side.name)))

def duration (events : List Event) : Nat := (events.getLast?.map Event.timeMs).getD 0

def limitFindings (ledger : Ledger) (events : List Event) : List Finding :=
  let limits := policy.limits
  failIf (limits.maxPackets < ledger.packetCount) .packetCeiling (-1) (natText ledger.packetCount) ++
    failIf (limits.maxSsrcs < ledger.ssrcs.length) .ssrcCeiling (-1) (natText ledger.ssrcs.length) ++
    failIf (limits.maxEpochs < ledger.epochs.length) .epochCeiling (-1) (natText ledger.epochs.length) ++
    failIf (limits.maxDurationMs < duration events) .durationCeiling (-1) (natText (duration events))

/-- Findings of the pass and of what is judged after it. -/
def findingsOf (ledger : Ledger) (events : List Event) : List Finding :=
  ledger.findings ++ policy.peerFindings ledger ++ profileFindings ledger ++
    rekeyFindings ledger events ++ policy.restartFindings ledger ++ policy.limitFindings ledger events

def unknownIf (missing : Bool) (unknown : Unknown) : List Unknown := if missing then [unknown] else []

def unknownsOf (ledger : Ledger) : List Unknown :=
  unknownIf (sides.any fun side => (ledger.handshakes side).isNone) .bothHandshakesNotObserved ++
    unknownIf (policy.dtls.requireDowngradeProbe && !ledger.downgradeSeen)
      .downgradeProbeNotObserved ++
    (sides.flatMap fun side => unknownIf (ledger.contexts side).isEmpty (.contextNotObserved side)) ++
    unknownIf (!ledger.rtpSeen) .rtpEvidenceNotObserved ++
    unknownIf (policy.srtp.requireRtcpProtection && !ledger.rtcpSeen) .rtcpEvidenceNotObserved ++
    unknownIf (!ledger.cleanupSeen) .cleanupNotObserved

end verdict

end Policy

structure Report where
  apiVersion : Text := reportVersion
  status : Status
  networkActivity : Bool := false
  observedNetworkActivity : Bool
  events : Nat
  packets : Nat
  ssrcs : Nat
  epochs : Nat
  durationMs : Nat
  findings : List Finding
  unknowns : List Unknown
  sessionKeysObserved : Bool := false
  deriving DecidableEq

def Policy.reportOf (policy : Policy) (observation : Observation) : Report :=
  let events := observation.events
  let ledger := policy.follow .start 0 events
  let findings := policy.findingsOf ledger events
  let unknowns := policy.unknownsOf ledger
  { status := if !findings.isEmpty then .fail else if !unknowns.isEmpty then .incomplete else .pass
    observedNetworkActivity := observation.networkActivity
    events := events.length
    packets := ledger.packetCount
    ssrcs := ledger.ssrcs.length
    epochs := ledger.epochs.length
    durationMs := Policy.duration events
    findings
    unknowns }

def evaluate (policyDocument observationDocument : JsonValue) : Result Report := do
  let policy ← validatePolicy policyDocument
  let observation ← validateObservation observationDocument policyDocument
  return policy.reportOf observation

end Sippycup.Webrtc.DtlsSrtp
