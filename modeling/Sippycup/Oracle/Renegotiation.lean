import Sippycup.Oracle.Complete

/-! What a failed renegotiation leaves of a dialog. The walk does not store the
state before a re-INVITE or an UPDATE: a final response sets a fixed state. -/
namespace Sippycup.Oracle
open Python

namespace DialogMessage
variable (upper : Text → Text) (message : DialogMessage)

/-- A message of an in-dialog INVITE, or of an UPDATE. -/
def renegotiates : Bool :=
  (message.hasMethod upper "INVITE" && message.inDialog) || message.hasMethod upper "UPDATE"

/-- A final failure response to a renegotiation. -/
def refuses : Bool :=
  !message.isRequest && message.renegotiates upper &&
    message.frame.statusCode.any fun status => 300 ≤ status && status ≤ 699

/-- A refusal of an INVITE that was cancelled. -/
def cancels : Bool :=
  message.refuses upper && message.hasMethod upper "INVITE" && message.frame.statusCode = some 487

def answersUpdate : Bool := !message.isRequest && message.hasMethod upper "UPDATE"

/-- A final response to an UPDATE. -/
def settlesUpdate : Bool :=
  message.answersUpdate upper && message.frame.statusCode.any fun status => 200 ≤ status

end DialogMessage

namespace DialogLeg
variable (upper : Text → Text) (leg : DialogLeg) (transactions : List TransactionRecord)

/-- The state of the leg after these of its messages. -/
def stateAfter (messages : List DialogMessage) : DialogState :=
  (messages.foldl (DialogProgress.step upper leg.root.key.flow) .initial).state

/-- The response's request was sent after these messages of the leg: it is the
next one, or it is no message of the leg and captured between its messages. -/
def SentAfter (before earlier : List DialogMessage) (response : DialogMessage) : Prop :=
  ∃ rest, before = earlier ++ rest ∧
    ((∃ request more, rest = request :: more ∧ request.isRequest = true ∧
        request.transaction = response.transaction) ∨
      (∀ message ∈ leg.messages transactions, message.isRequest = true →
        message.transaction ≠ response.transaction) ∧
        ∃ request, response.transaction.request = some request ∧
          (∀ message ∈ earlier, message.frame.frameNumber < request.frameNumber) ∧
            ∀ message ∈ rest, request.frameNumber ≤ message.frame.frameNumber)

/-- The response, which follows these messages of the leg, does what is promised
of a failed renegotiation, and does not confirm an unanswered leg. -/
structure Restores (before : List DialogMessage) (response : DialogMessage) : Prop where
  restored : response.refuses upper = true → ∀ earlier, leg.SentAfter transactions before earlier response →
    leg.stateAfter upper earlier = .early ∨ leg.stateAfter upper earlier = .confirmed →
      leg.stateAfter upper (before ++ [response]) = leg.stateAfter upper earlier
  lasting : response.refuses upper = true → leg.stateAfter upper before ≠ .terminated →
    leg.stateAfter upper (before ++ [response]) ≠ .terminated
  unanswered : response.answersUpdate upper = true → (∀ message ∈ before, message.acceptsInvite upper = false) →
    leg.stateAfter upper before ≠ .confirmed → leg.stateAfter upper (before ++ [response]) ≠ .confirmed

/-- No refused renegotiation was sent while the leg was early, a cancelled one
was not sent while it was confirmed and finds it terminated, and an UPDATE is
settled when an INVITE was accepted or the leg is confirmed. -/
structure Established (before : List DialogMessage) (response : DialogMessage) : Prop where
  sent : response.refuses upper = true → ∀ earlier, leg.SentAfter transactions before earlier response →
    leg.stateAfter upper earlier ≠ .early
  cancelled : response.cancels upper = true → leg.stateAfter upper before = .terminated ∧
    ∀ earlier, leg.SentAfter transactions before earlier response → leg.stateAfter upper earlier ≠ .confirmed
  accepted : response.settlesUpdate upper = true → (∃ message ∈ before, message.acceptsInvite upper = true) ∨
    leg.stateAfter upper before = .confirmed

end DialogLeg

section walk
variable {upper : Text → Text} {initial : FlowKey} {progress : DialogProgress} {message : DialogMessage} {status : Int}

theorem step_state (response : message.isRequest = false) (known : message.frame.statusCode = some status) :
    (progress.step upper initial message).state =
      (((progress.noteRoutes upper message).noteSdp upper message).response upper message status).state := by
  rw [DialogProgress.step, DialogProgress.act, response, known]
  rfl

theorem note_state : ((progress.noteRoutes upper message).noteSdp upper message).state = progress.state := by
  have routes : (progress.noteRoutes upper message).state = progress.state := by
    unfold DialogProgress.noteRoutes
    split <;> rfl
  rw [← routes]
  unfold DialogProgress.noteSdp
  split <;> rfl

theorem update_not_invite (update : message.hasMethod upper "UPDATE" = true) :
    message.hasMethod upper "INVITE" = false :=
  DialogMessage.hasMethod_ne update (by decide)

/-- A refused INVITE within the dialog confirms it, or ends it when it was cancelled. -/
theorem refused_invite (invite : message.hasMethod upper "INVITE" = true) (inside : message.inDialog = true)
    (final : 300 ≤ status) : (progress.response upper message status).state =
      if status = 487 then .terminated else .confirmed := by
  rw [DialogProgress.response, if_pos invite, DialogProgress.inviteResponse, inside]
  by_cases challenged : status = 401 ∨ status = 407
  · have other : status ≠ 487 := by omega
    rw [if_pos challenged, if_neg other]
    rfl
  · rw [if_neg challenged, if_neg (by omega), if_neg (by omega)]
    by_cases cancelled : status = 487
    · rw [if_pos cancelled, if_pos cancelled]
      rfl
    · rw [if_neg cancelled, if_neg cancelled, if_pos final]
      rfl

theorem settled_update (update : message.hasMethod upper "UPDATE" = true) (final : 200 ≤ status) :
    (progress.response upper message status).state = .confirmed := by
  rw [DialogProgress.response, update_not_invite update, update]
  by_cases success : status < 300
  · rw [if_neg Bool.false_ne_true, if_pos ⟨.inr rfl, final, success⟩]
    rfl
  · rw [if_neg Bool.false_ne_true, if_neg (fun both => success both.2.2), if_pos ⟨rfl, final⟩]
    rfl

theorem pending_update (update : message.hasMethod upper "UPDATE" = true) (pending : ¬ 200 ≤ status) :
    (progress.response upper message status).state = progress.state := by
  have cancel : message.hasMethod upper "CANCEL" = false := DialogMessage.hasMethod_ne update (by decide)
  have bye : message.hasMethod upper "BYE" = false := DialogMessage.hasMethod_ne update (by decide)
  rw [DialogProgress.response, update_not_invite update, cancel, bye, if_neg Bool.false_ne_true,
    if_neg (fun both => pending both.2.1), if_neg (fun both => pending both.2),
    if_neg (fun both => Bool.false_ne_true both.1), if_neg (fun both => Bool.false_ne_true both.1)]

end walk

namespace DialogLeg
variable {upper : Text → Text} {leg : DialogLeg} {transactions : List TransactionRecord}
variable {before : List DialogMessage} {response : DialogMessage} {status : Int}

theorem stateAfter_response (answer : response.isRequest = false) (known : response.frame.statusCode = some status) :
    ∃ progress : DialogProgress, progress.state = leg.stateAfter upper before ∧
      leg.stateAfter upper (before ++ [response]) = (progress.response upper response status).state := by
  refine ⟨((before.foldl (DialogProgress.step upper leg.root.key.flow) .initial).noteRoutes upper response).noteSdp
    upper response, note_state, ?_⟩
  rw [stateAfter, List.foldl_append, List.foldl_cons, List.foldl_nil, step_state answer known]

theorem stateAfter_unread (answer : response.isRequest = false) (unknown : response.frame.statusCode = none) :
    leg.stateAfter upper (before ++ [response]) = leg.stateAfter upper before := by
  rw [stateAfter, List.foldl_append, List.foldl_cons, List.foldl_nil, DialogProgress.step, DialogProgress.act, answer,
    unknown]
  exact note_state

theorem refuses_status (refused : response.refuses upper = true) : response.isRequest = false ∧
    response.renegotiates upper = true ∧ ∃ status, response.frame.statusCode = some status ∧ 300 ≤ status := by
  simp only [DialogMessage.refuses, Bool.and_eq_true, Bool.not_eq_true', Option.any_eq_true_iff_get,
    decide_eq_true_eq] at refused
  obtain ⟨⟨answer, renegotiates⟩, given, low, -⟩ := refused
  exact ⟨answer, renegotiates, _, Option.some_get given |>.symm, low⟩

/-- A refusal confirms the leg, and one of a cancelled INVITE ends it. -/
theorem refused_state (refused : response.refuses upper = true) :
    leg.stateAfter upper (before ++ [response]) =
      if response.cancels upper = true then .terminated else .confirmed := by
  obtain ⟨answer, renegotiates, status, known, final⟩ := refuses_status refused
  obtain ⟨progress, -, after⟩ := @stateAfter_response upper leg before response status answer known
  rw [after]
  by_cases update : response.hasMethod upper "UPDATE" = true
  · rw [settled_update update (by omega), if_neg]
    simp [DialogMessage.cancels, update_not_invite update]
  · simp only [DialogMessage.renegotiates, Bool.or_eq_true, Bool.and_eq_true] at renegotiates
    obtain ⟨invite, inside⟩ := renegotiates.resolve_right update
    rw [refused_invite invite inside final]
    have same : (response.cancels upper = true) = (status = 487) := by
      simp [DialogMessage.cancels, refused, invite, known]
    simp only [same]

/-- What is promised of a response holds exactly when the leg was established. -/
theorem restores_iff :
    leg.Restores upper transactions before response ↔ leg.Established upper transactions before response := by
  constructor
  · intro restores
    refine ⟨?_, ?_, ?_⟩
    · intro refused earlier sent early
      have same := restores.restored refused earlier sent (.inl early)
      rw [refused_state refused, early] at same
      split at same <;> cases same
    · intro cancelled
      have refused : response.refuses upper = true := by
        simp only [DialogMessage.cancels, Bool.and_eq_true] at cancelled
        exact cancelled.1.1
      have ended := @refused_state upper leg before response refused
      rw [if_pos cancelled] at ended
      constructor
      · by_contra alive
        exact restores.lasting refused alive ended
      · intro earlier sent confirmed
        have same := restores.restored refused earlier sent (.inr confirmed)
        rw [ended, confirmed] at same
        cases same
    · intro settles
      by_contra neither
      rw [not_or, not_exists] at neither
      simp only [DialogMessage.settlesUpdate, Bool.and_eq_true] at settles
      have update := settles.1
      simp only [DialogMessage.answersUpdate, Bool.and_eq_true, Bool.not_eq_true'] at update
      have given := settles.2
      rw [Option.any_eq_true] at given
      obtain ⟨status, known, final⟩ := given
      obtain ⟨progress, -, after⟩ := @stateAfter_response upper leg before response status update.1 known
      apply restores.unanswered settles.1
      · intro message member
        exact eq_false_of_ne_true fun accepts => neither.1 message ⟨member, accepts⟩
      · exact neither.2
      · rw [after, settled_update update.2 (of_decide_eq_true final)]
  · intro established
    refine ⟨?_, ?_, ?_⟩
    · intro refused earlier sent stood
      rw [refused_state refused]
      have confirmed := stood.resolve_left (established.sent refused earlier sent)
      split
      · rename_i cancelled
        exact absurd confirmed ((established.cancelled cancelled).2 earlier sent)
      · exact confirmed.symm
    · intro refused alive
      rw [refused_state refused]
      split
      · rename_i cancelled
        exact absurd (established.cancelled cancelled).1 alive
      · intro ended
        cases ended
    · intro answers none unconfirmed
      have update := answers
      simp only [DialogMessage.answersUpdate, Bool.and_eq_true, Bool.not_eq_true'] at update
      rcases known : response.frame.statusCode with _ | status
      · rw [stateAfter_unread update.1 known]
        exact unconfirmed
      · obtain ⟨progress, stood, after⟩ := @stateAfter_response upper leg before response status update.1 known
        by_cases final : 200 ≤ status
        · have settles : response.settlesUpdate upper = true := by
            simp [DialogMessage.settlesUpdate, answers, known, final]
          rcases established.accepted settles with ⟨message, member, accepts⟩ | confirmed
          · rw [none message member] at accepts
            cases accepts
          · exact absurd confirmed unconfirmed
        · rw [after, pending_update update.2 final, stood]
          exact unconfirmed

end DialogLeg

/-- In every leg that is reconstructed, every failed renegotiation restores the
state of the leg and no UPDATE confirms an unanswered leg, exactly when every
response finds the leg established. -/
theorem renegotiation_restores_iff (upper : Text → Text) (frames : List FrameRecord) :
    let transactions := (reconstructTransactions upper frames).1
    (reconstructDialogs upper frames).dialogs.Perm
        ((legs upper transactions).map fun leg => leg.dialog upper transactions frames) ∧
      ∀ leg ∈ legs upper transactions,
        ((∀ before response after, leg.messages transactions = before ++ response :: after →
            leg.Restores upper transactions before response) ↔
          ∀ before response after, leg.messages transactions = before ++ response :: after →
            leg.Established upper transactions before response) := by
  intro transactions
  refine ⟨List.perm_insertionSort _ _, ?_⟩
  intro leg _
  constructor
  · intro restores before response after split
    exact DialogLeg.restores_iff.mp (restores before response after split)
  · intro established before response after split
    exact DialogLeg.restores_iff.mpr (established before response after split)

def FrameRecord.inCall (frame : FrameRecord) : FrameRecord :=
  { frame with sip := frame.sip.map fun sip => { sip with toTag := .known "callee" } }

/-- A confirmed call, and a later INVITE within it that is cancelled. -/
def cancelledRenegotiation : List FrameRecord :=
  [FrameRecord.request 1 "a" "b" "INVITE" 1, (FrameRecord.response 2 "b" "a" "INVITE" 1 200).inCall,
    (FrameRecord.request 3 "a" "b" "ACK" 1).inCall, (FrameRecord.request 4 "a" "b" "INVITE" 2).inCall,
    (FrameRecord.response 5 "b" "a" "INVITE" 2 487).inCall]

/-- The confirmed leg is terminated by the response to a cancelled re-INVITE. -/
theorem cancelled_renegotiation_terminates :
    let transactions := (reconstructTransactions id cancelledRenegotiation).1
    (reconstructDialogs id cancelledRenegotiation).dialogs.map
        (fun dialog => dialog.transitions.map fun transition => (transition.current, transition.event)) =
      [[("trying", "invite"), ("confirmed", "answer_200"), ("confirmed", "ack"), ("renegotiating", "reinvite"),
        ("terminated", "invite_487")]] ∧
      ∃ leg ∈ legs id transactions, ¬ ∀ before response after,
        leg.messages transactions = before ++ response :: after → leg.Restores id transactions before response := by
  refine ⟨by decide +kernel, ?_⟩
  let transactions := (reconstructTransactions id cancelledRenegotiation).1
  have found : ((legs id transactions).any fun leg =>
      ((leg.messages transactions)[4]?).any fun response => response.refuses id &&
        decide (leg.stateAfter id ((leg.messages transactions).take 4) ≠ .terminated) &&
          decide (leg.stateAfter id ((leg.messages transactions).take 4 ++ [response]) = .terminated)) = true := by
    decide +kernel
  obtain ⟨leg, among, found⟩ := List.any_eq_true.mp found
  obtain ⟨response, fifth, found⟩ := (Option.any_eq_true _ _).mp found
  simp only [Bool.and_eq_true, decide_eq_true_eq] at found
  obtain ⟨short, same⟩ := List.getElem?_eq_some_iff.mp fifth
  refine ⟨leg, among, fun restores => ?_⟩
  have split : leg.messages transactions =
      (leg.messages transactions).take 4 ++ response :: (leg.messages transactions).drop 5 := by
    rw [← same, ← List.drop_eq_getElem_cons short, List.take_append_drop]
  exact (restores _ _ _ split).lasting found.1.1 found.1.2 found.2

end Sippycup.Oracle
