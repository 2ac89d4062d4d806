import Sippycup.Oracle.Conservation
import Sippycup.Oracle.Dialogs

/-! When a dialog that is reported complete has been torn down. What the walk
gathers about INVITEs is read off the messages of the dialog; an acknowledged
failure of any initial INVITE is taken as the end of the dialog. -/
namespace Sippycup.Oracle
open Python

namespace DialogMessage
variable (upper : Text → Text) (message : DialogMessage)

/-- The response to an INVITE with a 2xx status. -/
def acceptsInvite : Bool :=
  !message.isRequest && message.hasMethod upper "INVITE" &&
    message.frame.statusCode.any fun status => 200 ≤ status && status < 300

def accepts : Option Int := if message.acceptsInvite upper then message.cseq else none

/-- The response to an initial INVITE with a failure status other than a challenge. -/
def failsInvite : Bool :=
  !message.isRequest && message.hasMethod upper "INVITE" && !message.inDialog &&
    message.frame.statusCode.any fun status => 300 ≤ status && status ≠ 401 && status ≠ 407

def fails : Option Int := if message.failsInvite upper then message.cseq else none

def isAck : Bool := message.isRequest && message.hasMethod upper "ACK"

def acknowledges : Option Int := if message.isAck upper then message.cseq else none

/-- The response to a BYE with a 2xx status. -/
def endsCall : Bool :=
  !message.isRequest && message.hasMethod upper "BYE" &&
    message.frame.statusCode.any fun status => 200 ≤ status && status < 300

end DialogMessage

section walk
variable {upper : Text → Text} {initial : FlowKey} {progress : DialogProgress}
  {message : DialogMessage}

/-- What one message adds to the sets. -/
structure DialogProgress.Gathers (upper : Text → Text) (message : DialogMessage)
    (before after : DialogProgress) : Prop where
  successful : after.successfulInvites = before.successfulInvites ++ (message.accepts upper).toList
  failed : after.failedInitialInvites = before.failedInitialInvites ++ (message.fails upper).toList
  acknowledged : after.acknowledgedInvites =
    before.acknowledgedInvites ++ (message.acknowledges upper).toList
  bye : after.byeSuccess = (before.byeSuccess || message.endsCall upper)

/-- Nothing is gathered from the message. -/
structure DialogMessage.Silent (upper : Text → Text) (message : DialogMessage) : Prop where
  accepts : message.accepts upper = none
  fails : message.fails upper = none
  acknowledges : message.acknowledges upper = none
  endsCall : message.endsCall upper = false

theorem DialogMessage.Silent.gathers (silent : message.Silent upper) {after : DialogProgress}
    (successful : after.successfulInvites = progress.successfulInvites)
    (failed : after.failedInitialInvites = progress.failedInitialInvites)
    (acknowledged : after.acknowledgedInvites = progress.acknowledgedInvites)
    (bye : after.byeSuccess = progress.byeSuccess) : progress.Gathers upper message after := by
  refine ⟨?_, ?_, ?_, ?_⟩
  · rw [silent.accepts, successful, Option.toList_none, List.append_nil]
  · rw [silent.fails, failed, Option.toList_none, List.append_nil]
  · rw [silent.acknowledges, acknowledged, Option.toList_none, List.append_nil]
  · rw [silent.endsCall, bye, Bool.or_false]

theorem DialogMessage.hasMethod_ne {a b : Text} (is : message.hasMethod upper a = true)
    (differ : a ≠ b) : message.hasMethod upper b = false := by
  have same := of_decide_eq_true is
  refine decide_eq_false ?_
  rw [same]
  exact fun equal => differ (Option.some.inj equal)

namespace DialogProgress

theorem request_gathers (request : message.isRequest = true) :
    progress.Gathers upper message (progress.request upper initial message) := by
  have accepts : message.accepts upper = none := by simp [DialogMessage.accepts, DialogMessage.acceptsInvite, request]
  have fails : message.fails upper = none := by simp [DialogMessage.fails, DialogMessage.failsInvite, request]
  have endsCall : message.endsCall upper = false := by simp [DialogMessage.endsCall, request]
  by_cases ack : message.hasMethod upper "ACK" = true
  · have acknowledges : message.acknowledges upper = message.cseq := by
      simp [DialogMessage.acknowledges, DialogMessage.isAck, request, ack]
    have invite := DialogMessage.hasMethod_ne ack (b := "INVITE") (by decide)
    have update := DialogMessage.hasMethod_ne ack (b := "UPDATE") (by decide)
    unfold DialogProgress.request
    rw [if_neg (by simp [invite]), if_neg (by simp [update]), if_pos ack]
    refine ⟨?_, ?_, ?_, ?_⟩
    · rw [accepts, Option.toList_none, List.append_nil]
      rfl
    · rw [fails, Option.toList_none, List.append_nil]
      rfl
    · rw [acknowledges]
      rfl
    · rw [endsCall, Bool.or_false]
      rfl
  · have silent : message.Silent upper :=
      ⟨accepts, fails, by simp [DialogMessage.acknowledges, DialogMessage.isAck, ack], endsCall⟩
    unfold DialogProgress.request
    split
    · split
      · exact silent.gathers rfl rfl rfl rfl
      · split <;> exact silent.gathers rfl rfl rfl rfl
    · split
      · exact silent.gathers rfl rfl rfl rfl
      · split
        · exact silent.gathers rfl rfl rfl rfl
        · split <;> exact silent.gathers rfl rfl rfl rfl

theorem inviteResponse_gathers {status : Int} (response : message.isRequest = false)
    (invite : message.hasMethod upper "INVITE" = true)
    (known : message.frame.statusCode = some status) :
    progress.Gathers upper message (progress.inviteResponse message status) := by
  have acknowledges : message.acknowledges upper = none := by
    simp [DialogMessage.acknowledges, DialogMessage.isAck, response]
  have endsCall : message.endsCall upper = false := by
    simp [DialogMessage.endsCall, DialogMessage.hasMethod_ne invite (b := "BYE") (by decide)]
  have accepts : message.accepts upper =
      if 200 ≤ status ∧ status < 300 then message.cseq else none := by
    simp [DialogMessage.accepts, DialogMessage.acceptsInvite, response, invite, known]
  have fails : message.fails upper =
      if 300 ≤ status ∧ status ≠ 401 ∧ status ≠ 407 then
        if message.inDialog then none else message.cseq else none := by
    cases inside : message.inDialog <;>
      simp [DialogMessage.fails, DialogMessage.failsInvite, response, invite, known, inside, and_assoc]
  have silent (low : ¬ (200 ≤ status ∧ status < 300))
      (kept : ¬ (300 ≤ status ∧ status ≠ 401 ∧ status ≠ 407)) : message.Silent upper :=
    ⟨by rw [accepts, if_neg low], by rw [fails, if_neg kept], acknowledges, endsCall⟩
  have failed (final : 300 ≤ status ∧ status ≠ 401 ∧ status ≠ 407) {after : DialogProgress}
      (successful : after.successfulInvites = progress.successfulInvites)
      (failed : after.failedInitialInvites = progress.failedInitialInvites ++
        if message.inDialog then [] else message.cseq.toList)
      (acknowledged : after.acknowledgedInvites = progress.acknowledgedInvites)
      (bye : after.byeSuccess = progress.byeSuccess) : progress.Gathers upper message after := by
    refine ⟨?_, ?_, ?_, ?_⟩
    · rw [accepts, if_neg (by omega), successful, Option.toList_none, List.append_nil]
    · rw [fails, if_pos final, failed]
      split <;> rfl
    · rw [acknowledges, acknowledged, Option.toList_none, List.append_nil]
    · rw [endsCall, bye, Bool.or_false]
  unfold inviteResponse
  by_cases challenge : status = 401 ∨ status = 407
  · rw [if_pos challenge]
    split <;> exact (silent (by omega) (by omega)).gathers rfl rfl rfl rfl
  rw [if_neg challenge]
  by_cases provisional : 100 < status ∧ status < 200
  · rw [if_pos provisional]
    exact (silent (by omega) (by omega)).gathers rfl rfl rfl rfl
  rw [if_neg provisional]
  by_cases success : 200 ≤ status ∧ status < 300
  · rw [if_pos success]
    refine ⟨?_, ?_, ?_, ?_⟩
    · rw [accepts, if_pos success]
      rfl
    · rw [fails, if_neg (by omega), Option.toList_none, List.append_nil]
      rfl
    · rw [acknowledges, Option.toList_none, List.append_nil]
      rfl
    · rw [endsCall, Bool.or_false]
      rfl
  rw [if_neg success]
  by_cases cancelled : status = 487
  · rw [if_pos cancelled]
    exact failed (by omega) rfl rfl rfl rfl
  rw [if_neg cancelled]
  by_cases final : 300 ≤ status
  · rw [if_pos final]
    exact failed (by omega) rfl rfl rfl rfl
  · rw [if_neg final]
    exact (silent (by omega) (by omega)).gathers rfl rfl rfl rfl

theorem response_gathers {status : Int} (response : message.isRequest = false)
    (known : message.frame.statusCode = some status) :
    progress.Gathers upper message (progress.response upper message status) := by
  unfold DialogProgress.response
  by_cases invite : message.hasMethod upper "INVITE" = true
  · rw [if_pos invite]
    exact inviteResponse_gathers response invite known
  rw [if_neg invite]
  have accepts : message.accepts upper = none := by simp [DialogMessage.accepts, DialogMessage.acceptsInvite, invite]
  have fails : message.fails upper = none := by simp [DialogMessage.fails, DialogMessage.failsInvite, invite]
  have acknowledges : message.acknowledges upper = none := by
    simp [DialogMessage.acknowledges, DialogMessage.isAck, response]
  by_cases bye : message.hasMethod upper "BYE" = true ∧ 200 ≤ status ∧ status < 300
  · have endsCall : message.endsCall upper = true := by
      simp [DialogMessage.endsCall, response, known, bye]
    have update := DialogMessage.hasMethod_ne bye.1 (b := "UPDATE") (by decide)
    have cancel := DialogMessage.hasMethod_ne bye.1 (b := "CANCEL") (by decide)
    rw [if_neg (by simp [invite, update]), if_neg (by simp [update]), if_neg (by simp [cancel]),
      if_pos bye]
    refine ⟨?_, ?_, ?_, ?_⟩
    · rw [accepts, Option.toList_none, List.append_nil]
      rfl
    · rw [fails, Option.toList_none, List.append_nil]
      rfl
    · rw [acknowledges, Option.toList_none, List.append_nil]
      rfl
    · rw [endsCall, Bool.or_true]
      rfl
  · have endsCall : message.endsCall upper = false := by
      simpa [DialogMessage.endsCall, response, known] using bye
    have silent : message.Silent upper := ⟨accepts, fails, acknowledges, endsCall⟩
    split
    · exact silent.gathers rfl rfl rfl rfl
    · split
      · exact silent.gathers rfl rfl rfl rfl
      · split <;> exact silent.gathers rfl rfl rfl rfl

theorem act_gathers : progress.Gathers upper message (progress.act upper initial message) := by
  unfold act
  split
  · rename_i request
    exact request_gathers request
  · rename_i response
    have response := Bool.not_eq_true _ |>.mp response
    split
    · rename_i unknown
      have silent : message.Silent upper := by
        refine ⟨?_, ?_, ?_, ?_⟩
        · simp [DialogMessage.accepts, DialogMessage.acceptsInvite, unknown]
        · simp [DialogMessage.fails, DialogMessage.failsInvite, unknown]
        · simp [DialogMessage.acknowledges, DialogMessage.isAck, response]
        · simp [DialogMessage.endsCall, unknown]
      exact silent.gathers rfl rfl rfl rfl
    · rename_i status known
      exact response_gathers response known

theorem step_gathers : progress.Gathers upper message (progress.step upper initial message) := by
  have routes : ∀ {after : DialogProgress}, (progress.noteRoutes upper message).Gathers upper message
      after → progress.Gathers upper message after := by
    intro after gathers
    unfold noteRoutes at gathers
    split at gathers
    · exact gathers
    · exact ⟨gathers.successful, gathers.failed, gathers.acknowledged, gathers.bye⟩
  have sdp : ∀ {before after : DialogProgress}, (before.noteSdp upper message).Gathers upper message
      after → before.Gathers upper message after := by
    intro before after gathers
    unfold noteSdp at gathers
    split at gathers
    · exact gathers
    · exact ⟨gathers.successful, gathers.failed, gathers.acknowledged, gathers.bye⟩
  exact routes (sdp act_gathers)

/-- The sets after the walk are those of its messages. -/
structure Gathered (upper : Text → Text) (messages : List DialogMessage)
    (progress : DialogProgress) : Prop where
  successful : progress.successfulInvites = messages.filterMap (DialogMessage.accepts upper)
  failed : progress.failedInitialInvites = messages.filterMap (DialogMessage.fails upper)
  acknowledged : progress.acknowledgedInvites = messages.filterMap (DialogMessage.acknowledges upper)
  bye : progress.byeSuccess = messages.any (DialogMessage.endsCall upper)

theorem filterMap_singleton {α β : Type} (f : α → Option β) (a : α) :
    [a].filterMap f = (f a).toList := by
  cases found : f a <;> simp [found]

theorem walk_gathered (initial : FlowKey) (messages : List DialogMessage) :
    (messages.foldl (DialogProgress.step upper initial) .initial).Gathered upper messages := by
  induction messages using List.reverseRecOn with
  | nil => exact ⟨rfl, rfl, rfl, rfl⟩
  | append_singleton messages message ih =>
    rw [List.foldl_append]
    have last : (messages.foldl (DialogProgress.step upper initial) .initial).Gathers upper message
        ((messages.foldl (DialogProgress.step upper initial) .initial).step upper initial message) :=
      step_gathers
    refine ⟨?_, ?_, ?_, ?_⟩
    · rw [List.filterMap_append, ← ih.successful, filterMap_singleton]
      exact last.successful
    · rw [List.filterMap_append, ← ih.failed, filterMap_singleton]
      exact last.failed
    · rw [List.filterMap_append, ← ih.acknowledged, filterMap_singleton]
      exact last.acknowledged
    · rw [List.any_append, ← ih.bye, List.any_cons, List.any_nil, Bool.or_false]
      exact last.bye

end DialogProgress
end walk

namespace DialogLeg
variable (upper : Text → Text) (leg : DialogLeg) (transactions : List TransactionRecord)

/-- An ACK of the dialog carries the CSeq of the message. -/
def Acknowledged (message : DialogMessage) : Prop :=
  ∃ ack ∈ leg.messages transactions, ack.isAck upper = true ∧ ack.cseq = message.cseq

def ByeAccepted : Prop := ∃ m ∈ leg.messages transactions, m.endsCall upper = true

/-- No INVITE was accepted, or each that was is acknowledged and a BYE succeeded. -/
def TornDown : Prop :=
  (∀ m ∈ leg.messages transactions, m.acceptsInvite upper = false) ∨
    (∀ m ∈ leg.messages transactions, m.acceptsInvite upper = true →
      leg.Acknowledged upper transactions m) ∧ leg.ByeAccepted upper transactions

/-- An INVITE was accepted, and then left without an ACK or the dialog without a BYE. -/
def LeftOpen : Prop :=
  ∃ m ∈ leg.messages transactions, m.acceptsInvite upper = true ∧
    (¬ leg.Acknowledged upper transactions m ∨ ¬ leg.ByeAccepted upper transactions)

/-- An initial INVITE of the dialog failed for good, and an ACK carries its CSeq. -/
def FailureAcknowledged : Prop :=
  ∃ m ∈ leg.messages transactions, m.failsInvite upper = true ∧ leg.Acknowledged upper transactions m

theorem not_leftOpen_iff :
    ¬ leg.LeftOpen upper transactions ↔ leg.TornDown upper transactions := by
  constructor
  · intro closed
    by_cases accepted : ∃ m ∈ leg.messages transactions, m.acceptsInvite upper = true
    · have done (m) (member : m ∈ leg.messages transactions) (accepts : m.acceptsInvite upper = true) :
          leg.Acknowledged upper transactions m ∧ leg.ByeAccepted upper transactions := by
        by_contra missing
        exact closed ⟨m, member, accepts, not_and_or.mp missing⟩
      obtain ⟨m, member, accepts⟩ := accepted
      exact .inr ⟨fun m member accepts => (done m member accepts).1, (done m member accepts).2⟩
    · refine .inl fun m member => ?_
      by_contra accepts
      exact accepted ⟨m, member, by simpa using accepts⟩
  · rintro (none | ⟨acknowledged, bye⟩) ⟨m, member, accepts, missing⟩
    · exact absurd (none m member) (by simp [accepts])
    · exact missing.elim (fun lost => lost (acknowledged m member accepts)) (fun lost => lost bye)

variable {upper leg transactions}

theorem mem_cseqs {messages : List DialogMessage} {p : DialogMessage → Bool} {cseq : Int} :
    cseq ∈ messages.filterMap (fun m => if p m then m.cseq else none) ↔
      ∃ m ∈ messages, p m = true ∧ m.cseq = some cseq := by
  rw [List.mem_filterMap]
  constructor
  · rintro ⟨m, member, given⟩
    split at given
    · exact ⟨m, member, by assumption, given⟩
    · exact absurd given (by simp)
  · rintro ⟨m, member, holds, given⟩
    exact ⟨m, member, by rw [if_pos holds, given]⟩

/-- Every message of the dialog has a CSeq. -/
def Keyed (leg : DialogLeg) (transactions : List TransactionRecord) : Prop :=
  ∀ m ∈ leg.messages transactions, ∃ cseq, m.cseq = some cseq

theorem conclusive_iff (keyed : leg.Keyed transactions) :
    (leg.progress upper transactions).conclusive = true ↔
      leg.FailureAcknowledged upper transactions ∨
        (∃ m ∈ leg.messages transactions, m.acceptsInvite upper = true) ∧
          leg.TornDown upper transactions := by
  have gathered : (leg.progress upper transactions).Gathered upper (leg.messages transactions) :=
    DialogProgress.walk_gathered leg.root.key.flow (leg.messages transactions)
  have acknowledged (cseq : Int) : cseq ∈ (leg.progress upper transactions).acknowledgedInvites ↔
      ∃ ack ∈ leg.messages transactions, ack.isAck upper = true ∧ ack.cseq = some cseq := by
    rw [gathered.acknowledged]
    exact mem_cseqs
  have failure : (leg.progress upper transactions).failureAcknowledged = true ↔
      leg.FailureAcknowledged upper transactions := by
    rw [DialogProgress.failureAcknowledged, List.any_eq_true]
    constructor
    · rintro ⟨cseq, failed, answered⟩
      rw [gathered.failed] at failed
      obtain ⟨m, member, fails, given⟩ := mem_cseqs.1 failed
      obtain ⟨ack, inside, isAck, same⟩ := (acknowledged cseq).mp (of_decide_eq_true answered)
      exact ⟨m, member, fails, ack, inside, isAck, same.trans given.symm⟩
    · rintro ⟨m, member, fails, ack, inside, isAck, same⟩
      obtain ⟨cseq, given⟩ := keyed m member
      refine ⟨cseq, ?_, decide_eq_true ((acknowledged cseq).mpr ⟨ack, inside, isAck, same.trans given⟩)⟩
      rw [gathered.failed]
      exact mem_cseqs.2 ⟨m, member, fails, given⟩
  have setup : (leg.progress upper transactions).setupAcknowledged = true ↔
      (∃ m ∈ leg.messages transactions, m.acceptsInvite upper = true) ∧
        ∀ m ∈ leg.messages transactions, m.acceptsInvite upper = true →
          leg.Acknowledged upper transactions m := by
    have successful (cseq : Int) : cseq ∈ (leg.progress upper transactions).successfulInvites ↔
        ∃ m ∈ leg.messages transactions, m.acceptsInvite upper = true ∧ m.cseq = some cseq := by
      rw [gathered.successful]
      exact mem_cseqs
    rw [DialogProgress.setupAcknowledged, Bool.and_eq_true, List.all_eq_true]
    refine and_congr ?_ ?_
    · constructor
      · intro some_
        obtain ⟨cseq, inside⟩ := List.exists_mem_of_ne_nil _ (by simpa using some_)
        obtain ⟨m, member, accepts, -⟩ := (successful cseq).mp inside
        exact ⟨m, member, accepts⟩
      · rintro ⟨m, member, accepts⟩
        obtain ⟨cseq, given⟩ := keyed m member
        have inside := (successful cseq).mpr ⟨m, member, accepts, given⟩
        simpa using List.ne_nil_of_mem inside
    · constructor
      · intro all m member accepts
        obtain ⟨cseq, given⟩ := keyed m member
        have inside := all cseq ((successful cseq).mpr ⟨m, member, accepts, given⟩)
        obtain ⟨ack, acked, isAck, same⟩ := (acknowledged cseq).mp (of_decide_eq_true inside)
        exact ⟨ack, acked, isAck, same.trans given.symm⟩
      · intro all cseq inside
        obtain ⟨m, member, accepts, given⟩ := (successful cseq).mp inside
        obtain ⟨ack, acked, isAck, same⟩ := all m member accepts
        exact decide_eq_true ((acknowledged cseq).mpr ⟨ack, acked, isAck, same.trans given⟩)
  have bye : (leg.progress upper transactions).byeSuccess = true ↔
      leg.ByeAccepted upper transactions := by
    rw [gathered.bye, List.any_eq_true]
    rfl
  rw [DialogProgress.conclusive, Bool.or_eq_true, Bool.or_eq_true, Bool.and_eq_true,
    Bool.and_eq_true, setup, bye, failure]
  constructor
  · rintro ((⟨⟨accepted, all⟩, ended⟩ | ⟨-, failed⟩) | failed)
    · exact .inr ⟨accepted, .inr ⟨all, ended⟩⟩
    · exact .inl failed
    · exact .inl failed
  · rintro (failed | ⟨⟨m, member, accepts⟩, none | ⟨all, ended⟩⟩)
    · exact .inr failed
    · exact absurd (none m member) (by simp [accepts])
    · exact .inl (.inl ⟨⟨⟨m, member, accepts⟩, all⟩, ended⟩)

theorem complete_iff (sources : List FrameRecord) :
    (leg.dialog upper transactions sources).complete = .known true ↔
      (leg.progress upper transactions).conclusive = true ∧
        leg.structurallyUncertain upper transactions sources = false := by
  unfold dialog
  dsimp only
  split
  · rename_i complete
    simpa using complete
  · rename_i incomplete
    simpa using incomplete

end DialogLeg

theorem FrameRecord.Travels.cseq {upper : Text → Text} {frame : FrameRecord} {base : BaseKey}
    {flow : FlowKey} (travels : frame.Travels upper base flow) :
    frame.sipValue SipRecord.cseqNumber = some base.cseqNumber := by
  have keyed := travels.1
  unfold FrameRecord.baseKey at keyed
  simp only [Option.bind_eq_bind, Option.bind_eq_some_iff, Option.pure_def, Option.some.injEq] at keyed
  obtain ⟨_, _, cseq, known, _, _, _, _, rfl⟩ := keyed
  exact known

/-- Every frame of a dialog has been keyed, so it has a CSeq. -/
theorem leg_keyed (upper : Text → Text) (frames : List FrameRecord) (leg : DialogLeg) :
    leg.Keyed (reconstructTransactions upper frames).1 := by
  intro m member
  have sorted := (List.perm_insertionSort _ _).mem_iff.mp member
  obtain ⟨transaction, among, selected⟩ := List.mem_flatMap.mp sorted
  obtain ⟨builder, inside, rfl⟩ := List.mem_map.mp among
  have shape := (groupFrames_accounts upper (FrameRecord.inOrder frames)).wellFormed builder inside
  rcases List.mem_append.mp (List.mem_filter.mp selected).1 with request | response
  · obtain ⟨frame, requested, rfl⟩ := List.mem_map.mp request
    exact ⟨_, (shape.request frame (Option.mem_toList.mp requested)).cseq⟩
  · obtain ⟨frame, responded, rfl⟩ := List.mem_map.mp response
    rcases TransactionRecord.response_attached responded with attached | own
    · exact ⟨_, (shape.attached frame attached).cseq⟩
    · exact ⟨_, (shape.own frame own).cseq⟩

/-- A dialog reported complete has been torn down, except where the failure of an initial
INVITE is acknowledged, the capture is certain and an accepted INVITE was left open. -/
theorem complete_torn_down_iff (upper : Text → Text) (frames : List FrameRecord) :
    let transactions := (reconstructTransactions upper frames).1
    (reconstructDialogs upper frames).dialogs.Perm
        ((legs upper transactions).map fun leg => leg.dialog upper transactions frames) ∧
      ∀ leg ∈ legs upper transactions,
        (((leg.dialog upper transactions frames).complete = .known true →
            leg.TornDown upper transactions) ↔
          ¬ (leg.FailureAcknowledged upper transactions ∧
            leg.structurallyUncertain upper transactions frames = false ∧
              leg.LeftOpen upper transactions)) := by
  intro transactions
  refine ⟨List.perm_insertionSort _ _, ?_⟩
  intro leg _
  have keyed : leg.Keyed transactions := leg_keyed upper frames leg
  rw [DialogLeg.complete_iff, DialogLeg.conclusive_iff keyed, ← DialogLeg.not_leftOpen_iff]
  constructor
  · rintro closed ⟨failed, certain, left⟩
    exact closed ⟨.inl failed, certain⟩ left
  · rintro none ⟨failed | ⟨-, closed⟩, certain⟩ left
    · exact none ⟨failed, certain, left⟩
    · exact closed left

/-- An INVITE is refused and acknowledged; the next is accepted and nothing more is said. -/
def retriedCall : List FrameRecord :=
  [FrameRecord.request 1 "a" "b" "INVITE" 1, FrameRecord.response 2 "b" "a" "INVITE" 1 486,
    FrameRecord.request 3 "a" "b" "ACK" 1, FrameRecord.request 4 "a" "b" "INVITE" 2,
    FrameRecord.response 5 "b" "a" "INVITE" 2 200]

theorem retried_call_is_complete :
    let transactions := (reconstructTransactions id retriedCall).1
    (reconstructDialogs id retriedCall).dialogs.map DialogRecord.complete = [.known true] ∧
      ∀ leg ∈ legs id transactions, ¬ leg.TornDown id transactions := by
  refine ⟨by decide +kernel, ?_⟩
  simp only [DialogLeg.TornDown, DialogLeg.Acknowledged, DialogLeg.ByeAccepted]
  decide +kernel

end Sippycup.Oracle
