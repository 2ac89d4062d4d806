import Sippycup.Oracle.Records
import Sippycup.Python.Checks

/-! Dialogs from transactions: initial INVITEs of one call, tag and flow are the
roots of a dialog, one leg for each tag the other side answered with. The frames
of a leg are walked in order of capture. -/
namespace Sippycup.Oracle
open Python

inductive DialogState
  | new
  | trying
  | early
  | challenged
  | confirmed
  | renegotiating
  | cancelling
  | terminating
  | terminated
  | rejected
  | incomplete
  deriving DecidableEq

def DialogState.value : DialogState → String
  | new => "new"
  | trying => "trying"
  | early => "early"
  | challenged => "challenged"
  | confirmed => "confirmed"
  | renegotiating => "renegotiating"
  | cancelling => "cancelling"
  | terminating => "terminating"
  | terminated => "terminated"
  | rejected => "rejected"
  | incomplete => "incomplete"

inductive SdpRole
  | offer
  | answer
  | unknown
  deriving DecidableEq

structure NegotiatedSdpRevision where
  role : SdpRole
  method : Option Text
  statusCode : Option Int
  revision : SdpRevisionRecord
  deriving DecidableEq

structure LocalizedUnknown where
  field : String
  reason : UnknownReason
  evidence : EvidenceRef
  deriving DecidableEq

structure DialogKey where
  callId : Text
  callerTag : Value Text
  calleeTag : Value Text
  initialFlow : FlowKey
  deriving DecidableEq

structure DialogRecord where
  key : DialogKey
  caller : EndpointRecord
  callee : EndpointRecord
  transactionKeys : List TransactionKey
  state : DialogState
  complete : Value Bool
  transitions : List StateTransition
  sdpRevisions : List NegotiatedSdpRevision
  routeSet : List Text
  observedRoutes : List Text
  unknowns : List LocalizedUnknown
  deriving DecidableEq

def FrameRecord.fromTag (frame : FrameRecord) : Option Text := frame.sipValue SipRecord.fromTag

def FrameRecord.toTag (frame : FrameRecord) : Option Text := frame.sipValue SipRecord.toTag

def FrameRecord.challenges (frame : FrameRecord) : Bool :=
  frame.statusCode = some 401 || frame.statusCode = some 407

def frameBelongs (frame : FrameRecord) (callId : Text) (callerTag calleeTag : Option Text) : Bool :=
  if frame.sipValue SipRecord.callId ≠ some callId then false
  else if frame.challenges && frame.fromTag = callerTag then true
  else if callerTag.isSome && calleeTag.isSome &&
      ((frame.fromTag = callerTag && frame.toTag = calleeTag) ||
        (frame.fromTag = calleeTag && frame.toTag = callerTag)) then true
  else frame.fromTag = callerTag && frame.toTag.isNone

/-- A frame of a dialog, with its transaction and its part in it. -/
structure DialogMessage where
  frame : FrameRecord
  transaction : TransactionRecord
  isRequest : Bool

namespace DialogMessage
variable (upper : Text → Text)

def method (message : DialogMessage) : Option Text :=
  if message.isRequest then message.frame.requestMethod upper
  else some (upper ((message.frame.sipValue SipRecord.cseqMethod).getD ""))

def hasMethod (message : DialogMessage) (name : Text) : Bool := message.method upper = some name

def status (message : DialogMessage) : Option Int :=
  if message.isRequest then none else message.frame.statusCode

def cseq (message : DialogMessage) : Option Int := message.frame.sipValue SipRecord.cseqNumber

/-- The request carries a To-tag: it was sent within a dialog. -/
def inDialog (message : DialogMessage) : Bool :=
  message.transaction.request.any fun request => request.toTag.isSome

def role (message : DialogMessage) : SdpRole :=
  let session := message.hasMethod upper "INVITE" || message.hasMethod upper "UPDATE"
  let offered := message.transaction.request.any fun request => request.sdp.isSome
  if message.isRequest && session then .offer
  else if !message.isRequest && session && offered then .answer
  else if !message.isRequest && session && !offered then .offer
  else if message.isRequest && (message.hasMethod upper "ACK" || message.hasMethod upper "PRACK") then .answer
  else .unknown

end DialogMessage

/-- What the walk over the frames of a dialog has gathered. The sets are lists. -/
structure DialogProgress where
  state : DialogState
  transitions : List StateTransition
  sdpRevisions : List NegotiatedSdpRevision
  unknowns : List LocalizedUnknown
  recordRoutes : List Text
  observedRoutes : List Text
  successfulInvites : List Int
  failedInitialInvites : List Int
  acknowledgedInvites : List Int
  byeSuccess : Bool
  cancelSuccess : Bool
  invite487 : Bool

namespace DialogProgress

def initial : DialogProgress where
  state := .new
  transitions := []
  sdpRevisions := []
  unknowns := []
  recordRoutes := []
  observedRoutes := []
  successfulInvites := []
  failedInitialInvites := []
  acknowledgedInvites := []
  byeSuccess := false
  cancelSuccess := false
  invite487 := false

def transition (progress : DialogProgress) (next : DialogState) (event : String)
    (message : DialogMessage) : DialogProgress :=
  { progress with
    transitions := progress.transitions ++
      [⟨progress.state.value, next.value, event, message.frame.evidence⟩]
    state := next }

section upper
variable (upper : Text → Text)

def noteRoutes (progress : DialogProgress) (message : DialogMessage) : DialogProgress :=
  match message.frame.sip with
  | none => progress
  | some sip =>
    let establishing := !message.isRequest && message.hasMethod upper "INVITE" &&
      message.status.any fun status => 100 < status && status < 300
    { progress with
      recordRoutes := if progress.recordRoutes.isEmpty && establishing then sip.recordRoutes
        else progress.recordRoutes
      observedRoutes := sip.routes.foldl
        (fun seen route => if route ∈ seen then seen else seen ++ [route]) progress.observedRoutes }

def noteSdp (progress : DialogProgress) (message : DialogMessage) : DialogProgress :=
  match message.frame.sdp with
  | none => progress
  | some sdp =>
    { progress with
      sdpRevisions := progress.sdpRevisions ++
        [⟨message.role upper, message.method upper, message.status, sdp⟩] }

/-- `initial` is the flow of the first root. -/
def request (initial : FlowKey) (progress : DialogProgress) (message : DialogMessage) :
    DialogProgress :=
  if message.hasMethod upper "INVITE" then
    if progress.state ∈ [DialogState.confirmed, .early] then
      progress.transition .renegotiating "reinvite" message
    else if progress.state ∈ [DialogState.new, .challenged, .incomplete] then
      progress.transition .trying "invite" message
    else progress
  else if message.hasMethod upper "UPDATE" then progress.transition .renegotiating "update" message
  else if message.hasMethod upper "ACK" then
    { progress with
      acknowledgedInvites := progress.acknowledgedInvites ++ message.cseq.toList }.transition
        progress.state "ack" message
  else if message.hasMethod upper "CANCEL" then progress.transition .cancelling "cancel" message
  else if message.hasMethod upper "BYE" then
    let remote := message.frame.flow = some initial.reverse
    progress.transition .terminating (if remote then "remote_bye" else "local_bye") message
  else progress

def inviteResponse (progress : DialogProgress) (message : DialogMessage) (status : Int) :
    DialogProgress :=
  if status = 401 ∨ status = 407 then
    if !message.inDialog then progress.transition .challenged s!"challenge_{status}" message
    else progress.transition .confirmed s!"reinvite_failed_{status}" message
  else if 100 < status ∧ status < 200 then
    progress.transition .early s!"provisional_{status}" message
  else if 200 ≤ status ∧ status < 300 then
    { progress with
      successfulInvites := progress.successfulInvites ++ message.cseq.toList }.transition
        .confirmed s!"answer_{status}" message
  else if status = 487 then
    { progress with
      invite487 := true
      failedInitialInvites := progress.failedInitialInvites ++
        if message.inDialog then [] else message.cseq.toList }.transition
          .terminated "invite_487" message
  else if 300 ≤ status then
    { progress with
      failedInitialInvites := progress.failedInitialInvites ++
        if message.inDialog then [] else message.cseq.toList }.transition
          (if message.inDialog then .confirmed else .rejected)
          (if message.inDialog then s!"reinvite_failed_{status}" else s!"invite_failed_{status}")
          message
  else progress

def response (progress : DialogProgress) (message : DialogMessage) (status : Int) :
    DialogProgress :=
  let success := 200 ≤ status ∧ status < 300
  if message.hasMethod upper "INVITE" then progress.inviteResponse message status
  else if (message.hasMethod upper "INVITE" ∨ message.hasMethod upper "UPDATE") ∧ success then
    progress.transition .confirmed s!"negotiated_{status}" message
  else if message.hasMethod upper "UPDATE" ∧ 200 ≤ status then
    progress.transition .confirmed s!"update_final_{status}" message
  else if message.hasMethod upper "CANCEL" ∧ success then
    { progress with cancelSuccess := true }.transition progress.state s!"cancel_{status}" message
  else if message.hasMethod upper "BYE" ∧ success then
    { progress with byeSuccess := true }.transition .terminated s!"bye_{status}" message
  else progress

def act (initial : FlowKey) (progress : DialogProgress) (message : DialogMessage) :
    DialogProgress :=
  if message.isRequest then progress.request upper initial message
  else
    match message.frame.statusCode with
    | none =>
      { progress with
        unknowns := progress.unknowns ++
          [⟨"sip.status_code", .missingField, message.frame.evidence⟩] }
    | some status => progress.response upper message status

def step (initial : FlowKey) (progress : DialogProgress) (message : DialogMessage) :
    DialogProgress :=
  ((progress.noteRoutes upper message).noteSdp upper message).act upper initial message

end upper

def setupAcknowledged (progress : DialogProgress) : Bool :=
  !progress.successfulInvites.isEmpty &&
    progress.successfulInvites.all fun cseq => cseq ∈ progress.acknowledgedInvites

def failureAcknowledged (progress : DialogProgress) : Bool :=
  progress.failedInitialInvites.any fun cseq => cseq ∈ progress.acknowledgedInvites

def conclusive (progress : DialogProgress) : Bool :=
  (progress.setupAcknowledged && progress.byeSuccess) ||
    (progress.cancelSuccess && progress.invite487 && progress.failureAcknowledged) ||
      progress.failureAcknowledged

end DialogProgress

/-- The first root of a dialog, with its request, and the tag of the other side. -/
structure DialogLeg where
  root : TransactionRecord
  rootRequest : FrameRecord
  calleeTag : Option Text

namespace DialogLeg
variable (upper : Text → Text) (leg : DialogLeg)

def callId : Text := leg.root.key.callId

def callerTag : Option Text := leg.rootRequest.fromTag

def selected (transaction : TransactionRecord) : List DialogMessage :=
  let request := transaction.request.toList.map fun frame => DialogMessage.mk frame transaction true
  let responses := transaction.responses.map fun frame => DialogMessage.mk frame transaction false
  (request ++ responses).filter fun message =>
    frameBelongs message.frame leg.callId leg.callerTag leg.calleeTag

def included (transactions : List TransactionRecord) : List TransactionRecord :=
  transactions.filter fun transaction => !(leg.selected transaction).isEmpty

/-- The frames of the dialog in the order of capture. -/
def messages (transactions : List TransactionRecord) : List DialogMessage :=
  (transactions.flatMap leg.selected).insertionSort fun a b =>
    a.frame.frameNumber ≤ b.frame.frameNumber

def progress (transactions : List TransactionRecord) : DialogProgress :=
  (leg.messages transactions).foldl (DialogProgress.step upper leg.root.key.flow) .initial

/-- A SIP frame of the call, or of its flow in either direction, is damaged or cannot be keyed,
or one of the dialog's transactions is ambiguous. -/
def structurallyUncertain (transactions : List TransactionRecord) (sources : List FrameRecord) :
    Bool :=
  (sources.any fun frame =>
    frame.sip.isSome &&
      (frame.sipValue SipRecord.callId = some leg.callId ||
        frame.flow = some leg.root.key.flow || frame.flow = some leg.root.key.flow.reverse) &&
      (frame.status ≠ .known .complete || (frame.baseKey upper).isNone)) ||
  (leg.included transactions).any fun transaction => transaction.ambiguity.known?.isNone

/-- `_dialog_from_root` -/
def dialog (transactions : List TransactionRecord) (sources : List FrameRecord) : DialogRecord :=
  let progress := leg.progress upper transactions
  let state := if progress.transitions.isEmpty then .incomplete else progress.state
  let complete := progress.conclusive && !leg.structurallyUncertain upper transactions sources
  { key :=
      { callId := leg.callId
        callerTag := leg.callerTag.elim (.unknown .missingField "sip.from.tag") .known
        calleeTag := leg.calleeTag.elim (.unknown .missingField "sip.to.tag") .known
        initialFlow := leg.root.key.flow }
    caller := leg.rootRequest.source
    callee := leg.rootRequest.destination
    transactionKeys := (leg.included transactions).map TransactionRecord.key
    state := if !complete && state = .new then .incomplete else state
    complete := if complete then .known true
      else .unknown .missingField "dialog lacks a conclusive setup/ACK/teardown sequence"
    transitions := progress.transitions
    sdpRevisions := progress.sdpRevisions
    routeSet := progress.recordRoutes.reverse
    observedRoutes := progress.observedRoutes
    unknowns := if complete then progress.unknowns
      else progress.unknowns ++ [⟨"dialog.complete", .missingField, leg.rootRequest.evidence⟩] }

end DialogLeg

/-- An initial INVITE has no To-tag; tagged ones renegotiate. -/
def initialInvite (upper : Text → Text) (transaction : TransactionRecord) : Option FrameRecord :=
  transaction.request.filter fun request =>
    request.requestMethod upper = some (Text.ofString "INVITE") && request.toTag.isNone

structure RootKey where
  callId : Text
  callerTag : Option Text
  flow : FlowKey
  deriving DecidableEq

/-- The roots of one dialog: the first with its request, and the others. -/
structure Roots where
  key : RootKey
  first : TransactionRecord
  request : FrameRecord
  others : List TransactionRecord

def addRoot (groups : List Roots) (key : RootKey) (transaction : TransactionRecord)
    (request : FrameRecord) : List Roots :=
  if groups.any fun group => group.key = key then
    amendFirst (fun group => group.key = key)
      (fun group => { group with others := group.others ++ [transaction] }) groups
  else groups ++ [⟨key, transaction, request, []⟩]

def rootsByCall (upper : Text → Text) (transactions : List TransactionRecord) : List Roots :=
  transactions.foldl (fun groups transaction =>
    match initialInvite upper transaction with
    | none => groups
    | some request =>
      addRoot groups ⟨transaction.key.callId, request.fromTag, transaction.key.flow⟩
        transaction request) []

/-- The tags of all responses to the roots but challenges, each once. -/
def Roots.calleeTags (roots : Roots) : List Text :=
  sortTexts ((roots.first :: roots.others).flatMap fun root =>
    root.responses.filterMap fun response =>
      if response.challenges then none else response.toTag).dedup

def Roots.legs (roots : Roots) : List DialogLeg :=
  if roots.calleeTags.isEmpty then [⟨roots.first, roots.request, none⟩]
  else roots.calleeTags.map fun tag => ⟨roots.first, roots.request, some tag⟩

def legs (upper : Text → Text) (transactions : List TransactionRecord) : List DialogLeg :=
  (rootsByCall upper transactions).flatMap Roots.legs

/-- Call-ID, initiator and the other side's tag, compared in this order. -/
def DialogRecord.le (a b : DialogRecord) : Bool :=
  let tag (dialog : DialogRecord) : Text := dialog.key.calleeTag.known?.getD ""
  let flow (dialog : DialogRecord) : FlowKey := dialog.key.initialFlow
  if a.key.callId ≠ b.key.callId then a.key.callId.lt b.key.callId
  else if (flow a).initiatorAddress ≠ (flow b).initiatorAddress then
    (flow a).initiatorAddress.lt (flow b).initiatorAddress
  else if (flow a).initiatorPort ≠ (flow b).initiatorPort then
    (flow a).initiatorPort < (flow b).initiatorPort
  else (tag a).le (tag b)

structure Reconstruction where
  transactions : List TransactionRecord
  dialogs : List DialogRecord
  orphanFrames : List EvidenceRef
  deriving DecidableEq

def reconstructDialogs (upper : Text → Text) (frames : List FrameRecord) : Reconstruction :=
  let (transactions, orphanFrames) := reconstructTransactions upper frames
  let dialogs := (legs upper transactions).map fun leg => leg.dialog upper transactions frames
  { transactions, orphanFrames
    dialogs := dialogs.insertionSort fun a b => a.le b = true }

end Sippycup.Oracle
