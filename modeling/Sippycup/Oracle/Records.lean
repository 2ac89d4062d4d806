import Mathlib.Algebra.Group.Int.Defs
import Mathlib.Data.Rat.Defs
import Sippycup.Python.Text

/-! Typed packet records. A field that the capture does not give is `unknown`
with its reason; a decimal is the rational number it denotes. -/
namespace Sippycup.Oracle
open Python

inductive UnknownReason
  | missingField
  | malformedField
  | truncatedCapture
  | unsupportedEncryption
  | unsupportedProtocol
  | ambiguous
  deriving DecidableEq

inductive Value (α : Type)
  | known (value : α)
  | unknown (reason : UnknownReason) (detail : Option String)
  deriving DecidableEq

def Value.known? {α : Type} : Value α → Option α
  | known value => some value
  | unknown _ _ => none

inductive CaptureStatus
  | complete
  | truncated
  | malformed
  deriving DecidableEq

inductive AddressFamily
  | ipv4
  | ipv6
  deriving DecidableEq

inductive Transport
  | udp
  | tcp
  deriving DecidableEq

structure EvidenceRef where
  frameNumber : Value Int
  timestampEpoch : Value Rat
  deriving DecidableEq

structure EndpointRecord where
  address : Value Text
  family : Value AddressFamily
  port : Value Int
  transport : Value Transport
  deriving DecidableEq

structure SipRecord where
  requestMethod : Value Text
  statusCode : Value Int
  callId : Value Text
  fromTag : Value Text
  toTag : Value Text
  cseqNumber : Value Int
  cseqMethod : Value Text
  viaBranch : Value Text
  rseq : Value Int
  routes : List Text
  recordRoutes : List Text
  deriving DecidableEq

structure CodecRecord where
  payloadType : Int
  encoding : Value Text
  clockRate : Value Int
  channels : Value Int
  formatParameters : Value Text
  deriving DecidableEq

structure SdpMediaRecord where
  mediaType : Value Text
  address : Value Text
  port : Value Int
  protocol : Value Text
  payloadTypes : Value (List Int)
  codecs : Value (List CodecRecord)
  telephoneEventPayloads : Value (List Int)
  direction : Value Text
  packetTimeMs : Value Int
  rtcpAddress : Value Text
  rtcpPort : Value Int
  deriving DecidableEq

structure SdpRevisionRecord where
  evidence : EvidenceRef
  connectionAddress : Value Text
  sessionName : Value Text
  media : List SdpMediaRecord
  deriving DecidableEq

structure FrameRecord where
  evidence : EvidenceRef
  status : Value CaptureStatus
  source : EndpointRecord
  destination : EndpointRecord
  sip : Option SipRecord
  sdp : Option SdpRevisionRecord
  deriving DecidableEq

structure FlowKey where
  initiatorAddress : Text
  initiatorPort : Int
  responderAddress : Text
  responderPort : Int
  transport : Transport
  deriving DecidableEq

def FlowKey.reverse (flow : FlowKey) : FlowKey where
  initiatorAddress := flow.responderAddress
  initiatorPort := flow.responderPort
  responderAddress := flow.initiatorAddress
  responderPort := flow.initiatorPort
  transport := flow.transport

@[simp] theorem FlowKey.reverse_reverse (flow : FlowKey) : flow.reverse.reverse = flow := rfl

/-- Call-ID, CSeq number and method, and Via branch. -/
structure BaseKey where
  callId : Text
  cseqNumber : Int
  cseqMethod : Text
  viaBranch : Text
  deriving DecidableEq

structure TransactionKey extends BaseKey where
  flow : FlowKey
  deriving DecidableEq

/-- The key of the messages that travel the other way. -/
def TransactionKey.reverse (key : TransactionKey) : TransactionKey :=
  { key with flow := key.flow.reverse }

@[simp] theorem TransactionKey.reverse_reverse (key : TransactionKey) :
    key.reverse.reverse = key := rfl

namespace FrameRecord

def frameNumber (frame : FrameRecord) : Int := frame.evidence.frameNumber.known?.getD (2 ^ 63 - 1)

def flow (frame : FrameRecord) : Option FlowKey := do
  let address ← frame.source.address.known?
  let port ← frame.source.port.known?
  let transport ← frame.source.transport.known?
  let toAddress ← frame.destination.address.known?
  let toPort ← frame.destination.port.known?
  let toTransport ← frame.destination.transport.known?
  if transport = toTransport then some ⟨address, port, toAddress, toPort, transport⟩ else none

def sipValue {α : Type} (frame : FrameRecord) (field : SipRecord → Value α) : Option α :=
  frame.sip.bind fun sip => (field sip).known?

section upper
variable (upper : Text → Text)

/-- `upper` is `str.upper`, for any table of letters. -/
def baseKey (frame : FrameRecord) : Option BaseKey := do
  let callId ← frame.sipValue SipRecord.callId
  let cseq ← frame.sipValue SipRecord.cseqNumber
  let method ← frame.sipValue SipRecord.cseqMethod
  let branch ← frame.sipValue SipRecord.viaBranch
  return ⟨callId, cseq, upper method, branch⟩

def requestMethod (frame : FrameRecord) : Option Text :=
  (frame.sipValue SipRecord.requestMethod).map upper

end upper

def statusCode (frame : FrameRecord) : Option Int := frame.sipValue SipRecord.statusCode

/-- The frames in the order of capture; frames without a number come last. -/
def inOrder (frames : List FrameRecord) : List FrameRecord :=
  frames.insertionSort fun a b => a.frameNumber ≤ b.frameNumber

/-- A SIP frame between two hosts, for tests: one call, one branch, no tags. -/
def sample (number : Int) (source destination : String) (method : Value Text) (status : Value Int)
    (cseqMethod : String) (cseq : Int) : FrameRecord where
  evidence := ⟨.known number, .known number⟩
  status := .known .complete
  source := ⟨.known source, .known .ipv4, .known 5060, .known .udp⟩
  destination := ⟨.known destination, .known .ipv4, .known 5060, .known .udp⟩
  sip := some
    { requestMethod := method, statusCode := status, callId := .known "call"
      fromTag := .known "caller", toTag := .unknown .missingField none
      cseqNumber := .known cseq, cseqMethod := .known cseqMethod, viaBranch := .known "z9hG4bK"
      rseq := .unknown .missingField none, routes := [], recordRoutes := [] }
  sdp := none

def request (number : Int) (source destination method : String) (cseq : Int) : FrameRecord :=
  sample number source destination (.known method) (.unknown .missingField none) method cseq

def response (number : Int) (source destination method : String) (cseq status : Int) :
    FrameRecord :=
  sample number source destination (.unknown .missingField none) (.known status) method cseq

theorem inOrder_perm (frames : List FrameRecord) : (inOrder frames).Perm frames :=
  List.perm_insertionSort _ _

end FrameRecord
end Sippycup.Oracle

/-! Grouping frames into transactions: requests by their key and direction,
responses with the request that travels the other way. A response that matches
nothing is an orphan, and opens a transaction without a request. -/
namespace Sippycup.Oracle
open Python

inductive TransactionState
  | requestSeen
  | proceeding
  | completed
  | incomplete
  | orphanResponse
  deriving DecidableEq

def TransactionState.value : TransactionState → String
  | requestSeen => "request_seen"
  | proceeding => "proceeding"
  | completed => "completed"
  | incomplete => "incomplete"
  | orphanResponse => "orphan_response"

structure StateTransition where
  previous : String
  current : String
  event : String
  evidence : EvidenceRef
  deriving DecidableEq

structure TransactionRecord where
  key : TransactionKey
  request : Option FrameRecord
  responses : List FrameRecord
  retransmissions : List EvidenceRef
  state : TransactionState
  transitions : List StateTransition
  ambiguity : Value Bool
  deriving DecidableEq

structure TransactionBuilder where
  key : TransactionKey
  request : Option FrameRecord
  responses : List FrameRecord
  retransmissions : List EvidenceRef
  ambiguous : Bool
  deriving DecidableEq

namespace TransactionBuilder

/-- The state after a response, with the transition it made. -/
def observe (progress : TransactionState × List StateTransition) (response : FrameRecord) :
    TransactionState × List StateTransition :=
  match response.statusCode with
  | none => progress
  | some status =>
    let next := if status < 200 then TransactionState.proceeding else .completed
    (next, progress.2 ++
      [⟨progress.1.value, next.value, s!"response_{status}", response.evidence⟩])

def progress (builder : TransactionBuilder) : TransactionState × List StateTransition :=
  match builder.request with
  | none => (.orphanResponse, [])
  | some request =>
    let opening : StateTransition :=
      ⟨"new", TransactionState.requestSeen.value, "request", request.evidence⟩
    let (state, transitions) := builder.responses.foldl observe (.requestSeen, [opening])
    let final := builder.responses.any fun response => 200 ≤ response.statusCode.getD 0
    if builder.key.cseqMethod = "ACK" then (.completed, transitions)
    else if !final then (.incomplete, transitions)
    else (state, transitions)

def record (builder : TransactionBuilder) : TransactionRecord where
  key := builder.key
  request := builder.request
  responses := builder.responses
  retransmissions := builder.retransmissions
  state := builder.progress.1
  transitions := builder.progress.2
  ambiguity :=
    if builder.ambiguous then .unknown .ambiguous "multiple transactions matched a response"
    else .known false

def retransmit (frame : FrameRecord) (builder : TransactionBuilder) : TransactionBuilder :=
  { builder with retransmissions := builder.retransmissions ++ [frame.evidence] }

/-- Two responses that the loop takes for one: status, tags, RSeq and SDP agree. -/
def sameResponse (frame item : FrameRecord) : Bool :=
  item.statusCode = frame.statusCode &&
    item.sipValue SipRecord.fromTag = frame.sipValue SipRecord.fromTag &&
    item.sipValue SipRecord.toTag = frame.sipValue SipRecord.toTag &&
    item.sipValue SipRecord.rseq = frame.sipValue SipRecord.rseq && item.sdp = frame.sdp

def answer (frame : FrameRecord) (builder : TransactionBuilder) : TransactionBuilder :=
  if builder.responses.any (sameResponse frame) then builder.retransmit frame
  else { builder with responses := builder.responses ++ [frame] }

def serves (key : TransactionKey) (builder : TransactionBuilder) : Bool := builder.key = key

def requested (key : TransactionKey) (builder : TransactionBuilder) : Bool :=
  builder.serves key && builder.request.isSome

/-- One of several builders that a response could belong to. -/
def doubt (key : TransactionKey) (builder : TransactionBuilder) : TransactionBuilder :=
  if builder.serves key then { builder with ambiguous := true } else builder

end TransactionBuilder

/-- Changes the first element that satisfies `p`. -/
@[grind =] def amendFirst {α : Type} (p : α → Bool) (change : α → α) : List α → List α
  | [] => []
  | item :: rest => if p item then change item :: rest else item :: amendFirst p change rest

/-- The builders in the order in which they were opened, and the orphan frames so far. -/
structure Grouping where
  builders : List TransactionBuilder
  orphanFrames : List EvidenceRef
  deriving DecidableEq

namespace Grouping

def orphan (grouping : Grouping) (frame : FrameRecord) : Grouping :=
  { grouping with orphanFrames := grouping.orphanFrames ++ [frame.evidence] }

def append (grouping : Grouping) (builder : TransactionBuilder) : Grouping :=
  { grouping with builders := grouping.builders ++ [builder] }

def amend (grouping : Grouping) (p : TransactionBuilder → Bool)
    (change : TransactionBuilder → TransactionBuilder) : Grouping :=
  { grouping with builders := amendFirst p change grouping.builders }

def addRequest (grouping : Grouping) (frame : FrameRecord) (key : TransactionKey) : Grouping :=
  if grouping.builders.any (TransactionBuilder.requested key) then
    grouping.amend (TransactionBuilder.requested key) (TransactionBuilder.retransmit frame)
  else grouping.append ⟨key, some frame, [], [], false⟩

/-- `key` is the key of the response's own direction; it answers the one of the other. -/
def addResponse (grouping : Grouping) (frame : FrameRecord) (key : TransactionKey) : Grouping :=
  match grouping.builders.filter (TransactionBuilder.serves key.reverse) with
  | [] => (grouping.orphan frame).append ⟨key, none, [frame], [], false⟩
  | [_] =>
    grouping.amend (TransactionBuilder.serves key.reverse) (TransactionBuilder.answer frame)
  | _ =>
    { grouping.orphan frame with
      builders := grouping.builders.map (TransactionBuilder.doubt key.reverse) }

def add (upper : Text → Text) (grouping : Grouping) (frame : FrameRecord) : Grouping :=
  if frame.sip.isNone then grouping
  else
    match frame.baseKey upper, frame.flow with
    | some base, some flow =>
      if (frame.requestMethod upper).isSome then grouping.addRequest frame ⟨base, flow⟩
      else grouping.addResponse frame ⟨base, flow⟩
    | _, _ => grouping.orphan frame

end Grouping

def groupFrames (upper : Text → Text) (frames : List FrameRecord) : Grouping :=
  frames.foldl (Grouping.add upper) ⟨[], []⟩

def reconstructTransactions (upper : Text → Text) (frames : List FrameRecord) :
    List TransactionRecord × List EvidenceRef :=
  let grouping := groupFrames upper (FrameRecord.inOrder frames)
  (grouping.builders.map TransactionBuilder.record, grouping.orphanFrames)

end Sippycup.Oracle
