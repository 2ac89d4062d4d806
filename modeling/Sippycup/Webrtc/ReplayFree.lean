import Mathlib.Data.List.Chain
import Sippycup.Machine.Trace
import Sippycup.Webrtc.MediaSecurity

/-! What a pass means for the packets that were accepted: their indexes grow,
none is a replay, each had its context before it, and no key outlives its epoch. -/
namespace Sippycup.Webrtc.DtlsSrtp
open Sippycup.Python

def Event.context? (side : Side) (event : Event) : Option Context :=
  match event.evidence with
  | .srtpContext data => if data.side = side then some data else none
  | _ => none

/-- Index of an accepted packet of a direction and SSRC. -/
def Event.rtpIndex? (key : Key) (event : Event) : Option Nat :=
  match event.evidence with
  | .rtpPacket data =>
    if data.accepted = true ∧ data.key = key then some (data.roc * 2 ^ 16 + data.sequence) else none
  | _ => none

def Event.rtcpIndex? (key : Key) (event : Event) : Option Nat :=
  match event.evidence with
  | .rtcpPacket data => if data.accepted = true ∧ data.key = key then some data.index else none
  | _ => none

def contextsOf (side : Side) (events : List Event) : List Context :=
  events.filterMap (Event.context? side)

def rtpIndexes (key : Key) (events : List Event) : List Nat := events.filterMap (Event.rtpIndex? key)

def rtcpIndexes (key : Key) (events : List Event) : List Nat := events.filterMap (Event.rtcpIndex? key)

/-- A context for the SSRC on the side that sends. -/
def HasContext (key : Key) (events : List Event) : Prop :=
  ∃ context ∈ contextsOf key.1.sender events, context.ssrc = key.2

/-- A side uses a key in an epoch: in a context, or at either end of a rekey. -/
def Event.Uses (side : Side) (key : Text) (epoch : Nat) (event : Event) : Prop :=
  match event.evidence with
  | .srtpContext data =>
    data.side = side ∧ (data.rtpKeyIdHash = key ∨ data.rtcpKeyIdHash = key) ∧ data.epoch = epoch
  | .rekey data =>
    data.side = side ∧ (data.oldKeyIdHash = key ∧ data.oldEpoch = epoch ∨
      data.newKeyIdHash = key ∧ data.newEpoch = epoch)
  | _ => False

/-- One packet after another of its direction and SSRC. -/
def Follows (policy : Policy) (first second : Nat) : Prop :=
  first < second ∧ second - first ≤ policy.srtp.maxSequenceGap

def NextEpoch (first second : Context) : Prop :=
  first.epoch ≤ second.epoch ∧ second.epoch ≤ first.epoch + 1

/-- What is asked of a packet that was accepted. -/
structure Accepted where
  key : Key
  authValid : Bool
  replay : Bool

def Event.accepted? (event : Event) : Option Accepted :=
  match event.evidence with
  | .rtpPacket data => if data.accepted then some ⟨data.key, data.authValid, data.replay⟩ else none
  | .rtcpPacket data => if data.accepted then some ⟨data.key, data.authValid, data.replay⟩ else none
  | _ => none

/-- Authenticated, no replay, and its context came before it. -/
def Accepted.Sound (packet : Accepted) (before : List Event) : Prop :=
  packet.authValid = true ∧ packet.replay = false ∧ HasContext packet.key before

structure ReplayFree (policy : Policy) (events : List Event) : Prop where
  rtpIncreasing : ∀ key, (rtpIndexes key events).Pairwise (· < ·)
  rtpGap : ∀ key, (rtpIndexes key events).IsChain fun first second =>
    second - first ≤ policy.srtp.maxSequenceGap
  rtcpIncreasing : ∀ key, (rtcpIndexes key events).Pairwise (· < ·)
  accepted : ∀ packet : Accepted,
    Trace.Guarded (fun event => event.accepted? = some packet) packet.Sound events
  epochs : ∀ side, (contextsOf side events).IsChain NextEpoch
  keys : ∀ side key, ∀ first ∈ events, ∀ second ∈ events, ∀ a b,
    first.Uses side key a → second.Uses side key b → a = b

section appended
variable {seen : List Event} {event : Event}

theorem isChain_concat {α : Type} {R : α → α → Prop} {xs : List α} {y : α} :
    (xs ++ [y]).IsChain R ↔ xs.IsChain R ∧ ∀ x ∈ xs.getLast?, R x y := by
  simp [List.isChain_append]

theorem filterMap_concat {β : Type} (f : Event → Option β) :
    (seen ++ [event]).filterMap f = seen.filterMap f ++ (f event).toList := by
  rw [List.filterMap_append, List.filterMap_cons]
  cases f event <;> rfl

theorem RtpPacket.extended_eq (data : RtpPacket) :
    data.extended = data.roc * 2 ^ 16 + data.sequence := by
  have short : data.sequence < 2 ^ 16 := Nat.lt_succ_of_le data.short
  rw [RtpPacket.extended, ← Nat.shiftLeft_add_eq_or_of_lt short, Nat.shiftLeft_eq]

@[simp] theorem failIf_nil {bad : Bool} {code : FindingCode} {index : Int} {detail : Text} :
    failIf bad code index detail = [] ↔ bad = false := by
  cases bad <;> simp [failIf]

end appended

/-- A table holds the last index of each stream, and the indexes came in order. -/
structure LastKept (index? : Key → Event → Option Nat) (R : Nat → Nat → Prop) (last : Key → Option Nat)
    (seen : List Event) : Prop where
  last : ∀ key, last key = (seen.filterMap (index? key)).getLast?
  follows : ∀ key, (seen.filterMap (index? key)).IsChain R

namespace LastKept
variable {index? : Key → Event → Option Nat} {R : Nat → Nat → Prop} {last : Key → Option Nat}
  {seen : List Event} {event : Event}

theorem other (kept : LastKept index? R last seen) (none : ∀ key, index? key event = none) :
    LastKept index? R last (seen ++ [event]) := by
  have same : ∀ key, (seen ++ [event]).filterMap (index? key) = seen.filterMap (index? key) := by
    intro key
    rw [filterMap_concat, none key, Option.toList_none, List.append_nil]
  constructor
  · simpa only [same] using kept.last
  · simpa only [same] using kept.follows

/-- A packet is accepted whose index follows the last of its stream. -/
theorem accept {key : Key} {index : Nat} (kept : LastKept index? R last seen)
    (one : ∀ other, index? other event = if key = other then some index else none)
    (follows : ∀ previous, last key = some previous → R previous index) :
    LastKept index? R (Function.update last key (some index)) (seen ++ [event]) := by
  constructor
  all_goals
    intro other
    rw [filterMap_concat, one other]
    by_cases same : key = other
  · subst same
    simp
  · rw [if_neg same, Option.toList_none, List.append_nil, Function.update_of_ne (Ne.symm same)]
    exact kept.last other
  · subst same
    rw [if_pos rfl, Option.toList_some, isChain_concat]
    refine ⟨kept.follows key, fun previous latest => follows previous ?_⟩
    rw [kept.last key]
    exact latest
  · rw [if_neg same, Option.toList_none, List.append_nil]
    exact kept.follows other

end LastKept

/-- The tables of contexts agree with the contexts seen, whose epochs were in order. -/
structure ContextsKept (ledger : Ledger) (seen : List Event) : Prop where
  contexts : ∀ side, ledger.contexts side = contextsOf side seen
  last : ∀ side, ledger.lastContextEpoch side = (contextsOf side seen).getLast?.map Context.epoch
  keys : ∀ side, ∀ context ∈ contextsOf side seen,
    ledger.contextKeyEpochs side context.rtpKeyIdHash = some context.epoch ∧
      ledger.contextKeyEpochs side context.rtcpKeyIdHash = some context.epoch
  epochs : ∀ side, (contextsOf side seen).IsChain NextEpoch

/-- What the tables say of the events so far, as long as nothing was found. -/
structure Kept (policy : Policy) (ledger : Ledger) (seen : List Event) : Prop where
  contexts : ContextsKept ledger seen
  rtp : LastKept Event.rtpIndex? (Follows policy) ledger.lastRtp seen
  rtcp : LastKept Event.rtcpIndex? (· < ·) ledger.lastRtcp seen
  accepted : ∀ packet : Accepted,
    Trace.Guarded (fun event => event.accepted? = some packet) packet.Sound seen

section steps
variable {policy : Policy} {ledger after : Ledger} {seen : List Event} {event : Event} {index : Nat}

theorem not_reused {keys : Text → Option Nat} {key : Text} {epoch : Nat} :
    Policy.reused keys key epoch = false ↔ ∀ prior, keys key = some prior → prior = epoch := by
  rw [Policy.reused]
  cases keys key <;> simp

theorem ContextsKept.other (kept : ContextsKept ledger seen)
    (none : ∀ side, event.context? side = none) (contexts : after.contexts = ledger.contexts)
    (last : after.lastContextEpoch = ledger.lastContextEpoch)
    (keys : after.contextKeyEpochs = ledger.contextKeyEpochs) :
    ContextsKept after (seen ++ [event]) := by
  have same : ∀ side, contextsOf side (seen ++ [event]) = contextsOf side seen := fun side => by
    rw [contextsOf, filterMap_concat, none side, Option.toList_none, List.append_nil, contextsOf]
  constructor
  · simpa only [contexts, same] using kept.contexts
  · simpa only [last, same] using kept.last
  · simpa only [keys, same] using kept.keys
  · simpa only [same] using kept.epochs

/-- A key keeps its epoch when another key, or the same one for the same epoch, is recorded. -/
theorem update_keeps {keys : Text → Option Nat} {key other : Text} {epoch old : Nat}
    (fresh : Policy.reused keys key epoch = false) (held : keys other = some old) :
    Function.update keys key (some epoch) other = some old := by
  by_cases same : other = key
  · subst same
    rw [Function.update_self, not_reused.1 fresh old held]
  · rw [Function.update_of_ne same, held]

theorem contextStep_kept {data : Context} (kept : ContextsKept ledger seen)
    (is : event.evidence = .srtpContext data)
    (clean : (policy.contextStep ledger index data).findings = []) :
    ContextsKept (policy.contextStep ledger index data) (seen ++ [event]) := by
  simp only [Policy.contextStep, List.append_eq_nil_iff, failIf_nil] at clean
  obtain ⟨⟨⟨⟨⟨⟨-, ahead⟩, near⟩, rtpFresh⟩, rtcpFresh⟩, -⟩, -⟩ := clean
  have added : ∀ side, contextsOf side (seen ++ [event]) =
      contextsOf side seen ++ if data.side = side then [data] else [] := by
    intro side
    rw [contextsOf, filterMap_concat, Event.context?, is, contextsOf]
    dsimp only
    split <;> rfl
  have next : ∀ epoch, ledger.lastContextEpoch data.side = some epoch →
      epoch ≤ data.epoch ∧ data.epoch ≤ epoch + 1 := by
    intro epoch last
    rw [last] at ahead near
    simp only [Option.any_some, decide_eq_false_iff_not, not_lt] at ahead near
    exact ⟨ahead, near⟩
  constructor
  all_goals
    intro side
    rw [added side]
    by_cases same : data.side = side
  · subst same
    simp [Policy.contextStep, kept.contexts]
  · simp [Policy.contextStep, same, Function.update_of_ne (Ne.symm same), kept.contexts]
  · subst same
    have highest : max ((ledger.lastContextEpoch data.side).getD 0) data.epoch = data.epoch := by
      rcases last : ledger.lastContextEpoch data.side with _ | epoch
      · exact Nat.zero_max _
      · exact Nat.max_eq_right (next epoch last).1
    simp [Policy.contextStep, highest]
  · simp [Policy.contextStep, same, Function.update_of_ne (Ne.symm same), kept.last]
  · subst same
    rw [if_pos rfl]
    intro context member
    simp only [Policy.contextStep, Function.update_self]
    rcases List.mem_append.mp member with old | new
    · obtain ⟨rtp, rtcp⟩ := kept.keys data.side context old
      exact ⟨update_keeps rtcpFresh (update_keeps rtpFresh rtp),
        update_keeps rtcpFresh (update_keeps rtpFresh rtcp)⟩
    · obtain rfl := List.mem_singleton.mp new
      exact ⟨update_keeps rtcpFresh (Function.update_self ..), Function.update_self ..⟩
  · rw [if_neg same, List.append_nil]
    simp only [Policy.contextStep, Function.update_of_ne (Ne.symm same)]
    exact kept.keys side
  · subst same
    rw [if_pos rfl, isChain_concat]
    refine ⟨kept.epochs data.side, fun context latest => next context.epoch ?_⟩
    rw [kept.last data.side, Option.mem_def.mp latest]
    rfl
  · rw [if_neg same, List.append_nil]
    exact kept.epochs side

theorem not_withoutContext (kept : ContextsKept ledger seen) {key : Key}
    (present : Policy.withoutContext ledger key = false) : HasContext key seen := by
  rw [Policy.withoutContext, Bool.not_eq_false', kept.contexts] at present
  obtain ⟨context, member, same⟩ := List.any_eq_true.mp present
  exact ⟨context, member, of_decide_eq_true same⟩

theorem rtpStep_kept {data : RtpPacket} (kept : Kept policy ledger seen)
    (is : event.evidence = .rtpPacket data)
    (clean : (policy.rtpStep ledger index data).findings = []) :
    Kept policy (policy.rtpStep ledger index data) (seen ++ [event]) := by
  simp only [Policy.rtpStep, List.append_eq_nil_iff, failIf_nil] at clean
  obtain ⟨⟨⟨⟨⟨-, context⟩, fresh⟩, valid⟩, ahead⟩, near⟩ := clean
  constructor
  · exact kept.contexts.other (fun side => by rw [Event.context?, is]) rfl rfl rfl
  · rcases accepted : data.accepted with _ | _
    · simp only [Policy.rtpStep, accepted, Bool.false_eq_true, if_false]
      exact kept.rtp.other fun key => by simp [Event.rtpIndex?, is, accepted]
    · rw [accepted, Bool.true_and] at ahead near
      have follows : ∀ last, ledger.lastRtp data.key = some last → Follows policy last data.extended := by
        intro last latest
        simp only [latest, Option.any_some, decide_eq_false_iff_not, not_le] at ahead
        simp only [latest, Option.any_some, ahead, decide_true, Bool.true_and,
          decide_eq_false_iff_not, not_lt] at near
        exact ⟨ahead, near⟩
      have highest : max ((ledger.lastRtp data.key).getD 0) data.extended = data.extended := by
        rcases latest : ledger.lastRtp data.key with _ | last
        · exact Nat.zero_max _
        · exact Nat.max_eq_right (follows last latest).1.le
      simp only [Policy.rtpStep, accepted, if_true, highest]
      refine kept.rtp.accept (fun other => ?_) follows
      simp [Event.rtpIndex?, is, accepted, data.extended_eq]
  · exact kept.rtcp.other fun key => by rw [Event.rtcpIndex?, is]
  · intro packet
    refine Trace.guarded_concat.mpr ⟨kept.accepted packet, fun same => ?_⟩
    simp only [Event.accepted?, is, Option.ite_none_right_eq_some, Option.some.injEq] at same
    obtain ⟨accepted, rfl⟩ := same
    refine ⟨?_, ?_, not_withoutContext kept.contexts context⟩
    · simpa [accepted] using valid
    · simpa [accepted] using fresh

theorem rtcpStep_kept {data : RtcpPacket} (kept : Kept policy ledger seen)
    (is : event.evidence = .rtcpPacket data)
    (clean : (policy.rtcpStep ledger index data).findings = []) :
    Kept policy (policy.rtcpStep ledger index data) (seen ++ [event]) := by
  simp only [Policy.rtcpStep, List.append_eq_nil_iff, failIf_nil] at clean
  obtain ⟨⟨⟨⟨⟨-, context⟩, -⟩, fresh⟩, valid⟩, ahead⟩ := clean
  constructor
  · exact kept.contexts.other (fun side => by rw [Event.context?, is]) rfl rfl rfl
  · exact kept.rtp.other fun key => by rw [Event.rtpIndex?, is]
  · rcases accepted : data.accepted with _ | _
    · simp only [Policy.rtcpStep, accepted, Bool.false_eq_true, if_false]
      exact kept.rtcp.other fun key => by simp [Event.rtcpIndex?, is, accepted]
    · rw [accepted, Bool.true_and] at ahead
      have follows : ∀ last, ledger.lastRtcp data.key = some last → last < data.index := by
        intro last latest
        simpa only [latest, Option.any_some, decide_eq_false_iff_not, not_le] using ahead
      have highest : max ((ledger.lastRtcp data.key).getD 0) data.index = data.index := by
        rcases latest : ledger.lastRtcp data.key with _ | last
        · exact Nat.zero_max _
        · exact Nat.max_eq_right (follows last latest).le
      simp only [Policy.rtcpStep, accepted, if_true, highest]
      refine kept.rtcp.accept (fun other => ?_) follows
      simp [Event.rtcpIndex?, is, accepted]
  · intro packet
    refine Trace.guarded_concat.mpr ⟨kept.accepted packet, fun same => ?_⟩
    simp only [Event.accepted?, is, Option.ite_none_right_eq_some, Option.some.injEq] at same
    obtain ⟨accepted, rfl⟩ := same
    refine ⟨?_, ?_, not_withoutContext kept.contexts context⟩
    · simpa [accepted] using valid
    · simpa [accepted] using fresh

/-- Events of the other kinds touch none of the tables. -/
theorem Kept.other (kept : Kept policy ledger seen) (noContext : ∀ side, event.context? side = none)
    (noRtp : ∀ key, event.rtpIndex? key = none) (noRtcp : ∀ key, event.rtcpIndex? key = none)
    (notAccepted : event.accepted? = none) (contexts : after.contexts = ledger.contexts)
    (lastEpoch : after.lastContextEpoch = ledger.lastContextEpoch)
    (keys : after.contextKeyEpochs = ledger.contextKeyEpochs) (rtp : after.lastRtp = ledger.lastRtp)
    (rtcp : after.lastRtcp = ledger.lastRtcp) : Kept policy after (seen ++ [event]) where
  contexts := kept.contexts.other noContext contexts lastEpoch keys
  rtp := rtp ▸ kept.rtp.other noRtp
  rtcp := rtcp ▸ kept.rtcp.other noRtcp
  accepted packet := Trace.guarded_concat.mpr ⟨kept.accepted packet, fun same => by
    rw [notAccepted] at same
    cases same⟩

theorem step_findings (policy : Policy) (ledger : Ledger) (index : Nat) (evidence : Evidence) :
    ledger.findings <+: (policy.step ledger index evidence).findings := by
  cases evidence with
  | iceRestart generation => exact List.prefix_rfl
  | dtlsHandshake data =>
    simp only [Policy.step, Policy.handshakeStep, List.append_assoc]
    exact List.prefix_append ..
  | downgradeProbe offered outcome reached =>
    simp only [Policy.step, Policy.probeStep, List.append_assoc]
    exact List.prefix_append ..
  | srtpContext data =>
    simp only [Policy.step, Policy.contextStep, List.append_assoc]
    exact List.prefix_append ..
  | rtpPacket data =>
    simp only [Policy.step, Policy.rtpStep, List.append_assoc]
    exact List.prefix_append ..
  | rtcpPacket data =>
    simp only [Policy.step, Policy.rtcpStep, List.append_assoc]
    exact List.prefix_append ..
  | rekey data =>
    simp only [Policy.step, Policy.rekeyStep, List.append_assoc]
    exact List.prefix_append ..
  | failure stage closure code => exact List.prefix_append ..
  | cleanup contexts sockets => exact List.prefix_append ..

theorem step_kept (kept : Kept policy ledger seen)
    (clean : (policy.step ledger index event.evidence).findings = []) :
    Kept policy (policy.step ledger index event.evidence) (seen ++ [event]) := by
  rcases is : event.evidence with data | _ | data | data | data | data | _ | _ | _ <;> rw [is] at clean
  case srtpContext =>
    constructor
    · exact contextStep_kept kept.contexts is clean
    · exact kept.rtp.other fun key => by rw [Event.rtpIndex?, is]
    · exact kept.rtcp.other fun key => by rw [Event.rtcpIndex?, is]
    · intro packet
      refine Trace.guarded_concat.mpr ⟨kept.accepted packet, fun same => ?_⟩
      simp [Event.accepted?, is] at same
  case rtpPacket => exact rtpStep_kept kept is clean
  case rtcpPacket => exact rtcpStep_kept kept is clean
  all_goals
    exact kept.other (fun side => by rw [Event.context?, is]) (fun key => by rw [Event.rtpIndex?, is])
      (fun key => by rw [Event.rtcpIndex?, is]) (by rw [Event.accepted?, is]) rfl rfl rfl rfl rfl

theorem follow_kept {rest : List Event} (kept : ledger.findings = [] → Kept policy ledger seen)
    (clean : (policy.follow ledger index rest).findings = []) :
    Kept policy (policy.follow ledger index rest) (seen ++ rest) := by
  induction rest generalizing ledger seen index with
  | nil =>
    rw [List.append_nil]
    exact kept clean
  | cons event rest ih =>
    rw [List.append_cons]
    refine ih (fun none => step_kept (kept ?_) none) clean
    exact List.prefix_nil.mp (none ▸ step_findings policy ledger index event.evidence)

theorem start_kept (policy : Policy) : Kept policy .start [] where
  contexts := ⟨fun _ => rfl, fun _ => rfl, fun _ _ member => (nomatch member), fun _ => .nil⟩
  rtp := ⟨fun _ => rfl, fun _ => .nil⟩
  rtcp := ⟨fun _ => rfl, fun _ => .nil⟩
  accepted _ := Trace.guarded_nil

end steps

section pass
variable {policy : Policy} {ledger : Ledger} {events : List Event}

/-- Under a rekey without findings both of its keys were held by contexts of their epochs. -/
theorem uses_kept (kept : ContextsKept ledger events) (rekeys : Policy.rekeyFindings ledger events = [])
    {event : Event} (member : event ∈ events) {side : Side} {key : Text} {epoch : Nat}
    (uses : event.Uses side key epoch) : ledger.contextKeyEpochs side key = some epoch := by
  unfold Event.Uses at uses
  split at uses
  · rename_i data is
    obtain ⟨same, keyed, rfl⟩ := uses
    have seen : data ∈ contextsOf side events :=
      List.mem_filterMap.mpr ⟨event, member, by rw [Event.context?, is]; exact if_pos same⟩
    rcases keyed with rfl | rfl
    · exact (kept.keys side data seen).1
    · exact (kept.keys side data seen).2
  · rename_i data is
    obtain ⟨rfl, ends⟩ := uses
    have matched := List.flatMap_eq_nil_iff.mp rekeys event member
    simp only [is, failIf_nil, Bool.or_eq_false_iff, Bool.not_eq_false'] at matched
    have held : ∀ epoch key, Policy.holds ledger data.side epoch key = true →
        ledger.contextKeyEpochs data.side key = some epoch := by
      intro epoch key holds
      rw [Policy.holds, kept.contexts] at holds
      obtain ⟨context, seen, same⟩ := List.any_eq_true.mp holds
      simp only [Bool.and_eq_true, decide_eq_true_eq] at same
      obtain ⟨rfl, rfl⟩ := same
      exact (kept.keys data.side context seen).1
    rcases ends with ⟨rfl, rfl⟩ | ⟨rfl, rfl⟩
    · exact held _ _ matched.1
    · exact held _ _ matched.2
  · exact absurd uses not_false

theorem replayFree_of_kept (kept : Kept policy ledger events)
    (rekeys : Policy.rekeyFindings ledger events = []) : ReplayFree policy events where
  rtpIncreasing key := List.isChain_iff_pairwise.mp ((kept.rtp.follows key).imp fun _ _ => And.left)
  rtpGap key := (kept.rtp.follows key).imp fun _ _ => And.right
  rtcpIncreasing key := List.isChain_iff_pairwise.mp (kept.rtcp.follows key)
  accepted := kept.accepted
  epochs := kept.contexts.epochs
  keys side key first inFirst second inSecond a b usesFirst usesSecond := by
    have one := uses_kept kept.contexts rekeys inFirst usesFirst
    have other := uses_kept kept.contexts rekeys inSecond usesSecond
    exact Option.some.inj (one.symm.trans other)

end pass

/-- An observation that passes has accepted packets in order, none replayed and
each under a context, and keys that stay within one epoch. -/
theorem pass_replayFree {policyDocument observationDocument : JsonValue} {policy : Policy}
    {observation : Observation} {report : Report} (valid : validatePolicy policyDocument = .ok policy)
    (accepted : validateObservation observationDocument policyDocument = .ok observation)
    (evaluated : evaluate policyDocument observationDocument = .ok report)
    (pass : report.status = .pass) : ReplayFree policy observation.events := by
  rw [evaluate, valid, ok_bind, accepted, ok_bind] at evaluated
  obtain rfl := pure_ok.mp evaluated
  have clean : policy.findingsOf (policy.follow .start 0 observation.events) observation.events = [] := by
    by_contra found
    simp [Policy.reportOf, found] at pass
  simp only [Policy.findingsOf, List.append_eq_nil_iff] at clean
  obtain ⟨⟨⟨⟨⟨passed, -⟩, -⟩, rekeys⟩, -⟩, -⟩ := clean
  have kept := @follow_kept _ _ [] _ _ (fun _ => start_kept policy) passed
  exact replayFree_of_kept kept rekeys

def exampleTexts (texts : List String) : JsonValue := .list (texts.map fun text => .str text)

def exampleDigest (code : Nat) : JsonValue := .str ⟨List.replicate 64 code⟩

def examplePolicy : JsonValue :=
  .dict [
    JsonDict.entry "apiVersion" (.str policyVersion),
    JsonDict.entry "dtls" (.dict [
      JsonDict.entry "allowedVersions" (exampleTexts ["DTLS1.2"]),
      JsonDict.entry "allowedCiphers" (exampleTexts ["aes"]),
      JsonDict.entry "allowedRolePairs" (.list [
        .dict [JsonDict.entry "local" (.str "client"), JsonDict.entry "remote" (.str "server")]]),
      JsonDict.entry "requireVerifiedFingerprint" (.bool true),
      JsonDict.entry "requireDowngradeProbe" (.bool false)]),
    JsonDict.entry "srtp" (.dict [
      JsonDict.entry "allowedProfiles" (exampleTexts ["aes"]),
      JsonDict.entry "requireDistinctRtpRtcpKeys" (.bool true),
      JsonDict.entry "requireRtcpProtection" (.bool false),
      JsonDict.entry "requireRekeyOnIceRestart" (.bool false),
      JsonDict.entry "maxSequenceGap" (.int 2)]),
    JsonDict.entry "limits" (.dict [
      JsonDict.entry "maxEvents" (.int 16), JsonDict.entry "maxPackets" (.int 8), JsonDict.entry "maxSsrcs" (.int 4),
      JsonDict.entry "maxEpochs" (.int 4), JsonDict.entry "maxDurationMs" (.int 10)])]

def exampleEvent (kind : String) (data : JsonDict) : JsonValue :=
  .dict [JsonDict.entry "timeMs" (.int 0), JsonDict.entry "type" (.str kind), JsonDict.entry "data" (.dict data)]

def exampleHandshake (side role : String) : JsonValue :=
  exampleEvent "dtls_handshake" [
    JsonDict.entry "side" (.str side), JsonDict.entry "role" (.str role), JsonDict.entry "version" (.str "DTLS1.2"),
    JsonDict.entry "cipher" (.str "aes"), JsonDict.entry "sdpFingerprintHash" (exampleDigest 97),
    JsonDict.entry "certificateFingerprintHash" (exampleDigest 97), JsonDict.entry "verified" (.bool true)]

def exampleContext (side : String) (rtpKey rtcpKey : Nat) : JsonValue :=
  exampleEvent "srtp_context" [
    JsonDict.entry "side" (.str side), JsonDict.entry "profile" (.str "aes"),
    JsonDict.entry "rtpKeyIdHash" (exampleDigest rtpKey), JsonDict.entry "rtcpKeyIdHash" (exampleDigest rtcpKey),
    JsonDict.entry "epoch" (.int 0), JsonDict.entry "ssrc" (.int 7)]

def examplePacket (sequence roc : Int) : JsonValue :=
  exampleEvent "rtp_packet" [
    JsonDict.entry "direction" (.str "outbound"), JsonDict.entry "ssrc" (.int 7), JsonDict.entry "sequence" (.int sequence),
    JsonDict.entry "roc" (.int roc), JsonDict.entry "accepted" (.bool true), JsonDict.entry "replay" (.bool false),
    JsonDict.entry "authValid" (.bool true)]

/-- Two packets on either side of a rollover. -/
def exampleObservation : JsonValue :=
  .dict [
    JsonDict.entry "apiVersion" (.str observationVersion), JsonDict.entry "networkActivity" (.bool false),
    JsonDict.entry "events" (.list [
      exampleHandshake "local" "client", exampleHandshake "remote" "server",
      exampleContext "local" 97 98, exampleContext "remote" 99 100,
      examplePacket 65535 0, examplePacket 0 1,
      exampleEvent "cleanup" [JsonDict.entry "contexts" (.int 0), JsonDict.entry "sockets" (.int 0)]])]

theorem exampleObservation_passes :
    (evaluate examplePolicy exampleObservation).toOption.map Report.status = some .pass := by
  decide +kernel

theorem exampleObservation_replayFree :
    ∃ policy observation, validatePolicy examplePolicy = .ok policy ∧
      validateObservation exampleObservation examplePolicy = .ok observation ∧
      ReplayFree policy observation.events := by
  obtain ⟨report, evaluated, pass⟩ := toOption_map exampleObservation_passes
  have read := evaluated
  rw [evaluate] at read
  obtain ⟨policy, valid, read⟩ := bind_ok.mp read
  obtain ⟨observation, accepted, -⟩ := bind_ok.mp read
  exact ⟨policy, observation, valid, accepted, pass_replayFree valid accepted evaluated pass⟩

end Sippycup.Webrtc.DtlsSrtp
