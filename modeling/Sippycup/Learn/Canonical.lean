import Sippycup.Ip.Block
import Sippycup.Oracle.Media

/-! One complete dialog with typed placeholders in place of its raw values. Every kind numbers its values in
the order of their first use. -/
namespace Sippycup.Learn.Canonical
open Sippycup.Python Sippycup.Ip
open Sippycup.Oracle (DialogRecord DialogState EvidenceRef EndpointRecord FlowKey MediaFrame NegotiatedSdpRevision
  SdpMediaRecord SdpRole TransactionKey Transport)

structure CanonicalizationError where
  code : String
  message : String
  frames : List Int := []
  deriving DecidableEq

abbrev Result := Except CanonicalizationError

def fail {α : Type} (code message : String) (frames : List Int) : Result α := .error ⟨code, message, frames⟩

section records

/-- A frame with its length and the protocols it carries. -/
structure CapturedFrame extends MediaFrame where
  originalLength : Oracle.Value Int
  protocols : List Text

structure CapturedTransaction where
  key : TransactionKey
  request : Option CapturedFrame
  responses : List CapturedFrame
  retransmissions : List EvidenceRef
  ambiguity : Oracle.Value Bool

structure Reconstruction where
  transactions : List CapturedTransaction
  dialogs : List DialogRecord

def CapturedFrame.number (frame : CapturedFrame) : Option Int := frame.evidence.frameNumber.known?

def CapturedFrame.time (frame : CapturedFrame) : Option Rat := frame.evidence.timestampEpoch.known?

/-- The last transaction with the key, as in a dictionary that is filled in order. -/
def Reconstruction.transaction (reconstruction : Reconstruction) (key : TransactionKey) : Option CapturedTransaction :=
  reconstruction.transactions.reverse.find? fun transaction => decide (transaction.key = key)

end records

section placeholders

inductive PlaceholderKind
  | address
  | branch
  | callId
  | contact
  | cseq
  | length
  | mediaAddress
  | mediaPort
  | port
  | rtpSequence
  | rtpTimestamp
  | ssrc
  | tag
  deriving DecidableEq

def PlaceholderKind.text : PlaceholderKind → String
  | address => "address"
  | branch => "branch"
  | callId => "call-id"
  | contact => "contact"
  | cseq => "cseq"
  | length => "length"
  | mediaAddress => "media-address"
  | mediaPort => "media-port"
  | port => "port"
  | rtpSequence => "rtp-sequence"
  | rtpTimestamp => "rtp-timestamp"
  | ssrc => "ssrc"
  | tag => "tag"

inductive Raw
  | none
  | int (value : Int)
  | text (value : Text)
  | contact (address : Text) (port : Int)
  deriving DecidableEq

structure Placeholder where
  kind : PlaceholderKind
  number : Nat
  deriving DecidableEq

def Placeholder.name (placeholder : Placeholder) : String :=
  placeholder.kind.text ++ "-" ++ toString placeholder.number

/-- `_Placeholders`: the raw values of each kind, in the order of their first use. -/
structure Placeholders where
  values : PlaceholderKind → List Raw

def Placeholders.empty : Placeholders := ⟨fun _ => []⟩

def Placeholders.get (table : Placeholders) (kind : PlaceholderKind) (raw : Raw) : Placeholder × Placeholders :=
  let known := table.values kind
  if raw ∈ known then (⟨kind, known.idxOf raw + 1⟩, table)
  else (⟨kind, known.length + 1⟩, ⟨Function.update table.values kind (known ++ [raw])⟩)

/-- The raw value that a placeholder stands for. -/
def Placeholders.raw (table : Placeholders) (placeholder : Placeholder) : Option Raw :=
  (table.values placeholder.kind)[placeholder.number - 1]?

abbrev Naming := StateM Placeholders

def named (kind : PlaceholderKind) (raw : Raw) : Naming Placeholder := fun table => table.get kind raw

def namedIf (kind : PlaceholderKind) : Option Raw → Naming (Option Placeholder)
  | none => pure none
  | some raw => some <$> named kind raw

end placeholders

section documents

inductive Direction
  | localToRemote
  | remoteToLocal
  deriving DecidableEq

def Direction.text : Direction → String
  | localToRemote => "local-to-remote"
  | remoteToLocal => "remote-to-local"

inductive Teardown
  | none
  | local
  | remote
  deriving DecidableEq

structure ResponseEntry where
  status : Option Int
  optional : Bool
  frame : Option Int
  length : Option Placeholder
  deriving DecidableEq

structure FlowEntry where
  sourceAddress : Placeholder
  sourcePort : Placeholder
  destinationAddress : Placeholder
  destinationPort : Placeholder
  transport : Transport
  deriving DecidableEq

structure TransactionEntry where
  id : String
  method : Text
  direction : Direction
  cseq : Placeholder
  branch : Placeholder
  flow : FlowEntry
  earliest : Option Int
  latest : Option Int
  requestFrame : Option Int
  requestHasSdp : Bool
  requestLength : Option Placeholder
  responses : List ResponseEntry
  retransmissionFrames : List Int
  deriving DecidableEq

structure CodecEntry where
  payloadType : Int
  encoding : Option Text
  clockRate : Option Int
  deriving DecidableEq

structure MediaEntry where
  mediaType : Option Text
  address : Option Placeholder
  port : Option Placeholder
  protocol : Option Text
  payloadTypes : List Int
  codecs : List CodecEntry
  direction : Option Text
  packetTimeMs : Option Int
  deriving DecidableEq

structure SdpEntry where
  id : String
  role : SdpRole
  method : Option Text
  status : Option Int
  frame : Option Int
  media : List MediaEntry
  deriving DecidableEq

structure PacketEntry where
  frame : Option Int
  ssrc : Option Placeholder
  sequence : Option Placeholder
  timestamp : Option Placeholder
  payloadType : Option Int
  offsetMs : Option Int
  deriving DecidableEq

structure DialogEntry where
  callId : Placeholder
  localTag : Placeholder
  remoteTag : Placeholder
  localContact : Placeholder
  remoteContact : Placeholder
  state : DialogState
  teardownInitiator : Teardown
  deriving DecidableEq

structure Document where
  schema : String := "sippycup.learned-dialog/v1"
  localRole : String := "test-agent"
  remoteRole : String := "target"
  dialog : DialogEntry
  transactions : List TransactionEntry
  sdpRevisions : List SdpEntry
  mediaPackets : List PacketEntry
  sourceFrames : List Int
  sourceFrameCount : Nat
  deriving DecidableEq

end documents

section scope

/-- `ipaddress.ip_network(text, strict=False)`: host bits are cleared. -/
def maskedNetwork (text : Text) : Option Network :=
  match readV4 text.codes with
  | some (ip, prefixlen) => (Block.of? (ip &&& netmask 32 prefixlen) prefixlen).map .v4
  | none => do
    let (ip, scope, prefixlen) ← readV6 text.codes
    let block ← Block.of? (ip &&& netmask 128 prefixlen) prefixlen
    return .v6 block (if block.address = ip then scope else none)

/-- `_networks` -/
def readNetworks (values : List Text) : Result (List Network) :=
  match values.mapM maskedNetwork with
  | none => fail "scope" "local network scope is invalid" []
  | some [] => fail "scope" "at least one local network is required" []
  | some networks => .ok networks

/-- `_is_local` -/
def isLocal (networks : List Network) (address : Text) : Result Bool :=
  match parseAddress address.codes with
  | none => fail "scope" "dialog endpoint is not a literal address" []
  | some parsed => .ok (networks.any fun network => network.contains parsed)

/-- `_select_dialog` -/
def selectDialog (reconstruction : Reconstruction) : Result DialogRecord :=
  match reconstruction.dialogs with
  | [] => fail "incomplete" "no dialog can be selected" []
  | [dialog] => .ok dialog
  | dialogs => fail "ambiguous-fork" "capture contains multiple dialog legs"
      ((dialogs.flatMap DialogRecord.transitions).filterMap fun transition => transition.evidence.frameNumber.known?)

def encryptedProtocols : List Text := ["tls", "srtp", "dtls"]

/-- `_validate_dialog` -/
def validateDialog (dialog : DialogRecord) (reconstruction : Reconstruction) (frames : List CapturedFrame) :
    Result Unit :=
  if dialog.complete.known? ≠ some true ∨ dialog.state ∉ [DialogState.terminated, DialogState.rejected] then
    fail "incomplete" "dialog is incomplete or still active" []
  else if dialog.key.callerTag.known?.isNone ∨ dialog.key.calleeTag.known?.isNone then
    fail "ambiguous" "dialog tags are not known" []
  else if dialog.unknowns ≠ [] then fail "ambiguous" "dialog contains unresolved fields" []
  else if reconstruction.transactions.any fun transaction =>
      decide (transaction.key ∈ dialog.transactionKeys) && decide (transaction.ambiguity.known? ≠ some false) then
    fail "ambiguous" "a dialog transaction is ambiguous" []
  else if frames.any fun frame => frame.protocols.any (· ∈ encryptedProtocols) then
    fail "encrypted" "encrypted dialogs cannot be learned safely" []
  else .ok ()

/-- `_offset`, towards zero. -/
def offset (value first : Rat) : Int :=
  let scaled := (value - first) * 1000
  scaled.num.tdiv scaled.den

/-- The earliest time of a frame, or zero. -/
def firstTime (frames : List CapturedFrame) : Rat := (frames.filterMap CapturedFrame.time).min?.getD 0

end scope

section transactions

def responseEntry (response : CapturedFrame) : Naming ResponseEntry := do
  let status := response.sipValue Oracle.SipRecord.statusCode
  let length ← namedIf .length (response.originalLength.known?.map .int)
  return ⟨status, status.any fun status => decide (status < 200), response.number, length⟩

/-- A transaction with its placeholders: first the lengths of the responses, then the request's own. -/
def transactionEntry (first : Rat) (index : Nat) (key : TransactionKey) (transaction : CapturedTransaction)
    (request : CapturedFrame) (direction : Direction) : Naming TransactionEntry := do
  let responses ← transaction.responses.mapM responseEntry
  let times := (request :: transaction.responses).filterMap CapturedFrame.time
  let cseq ← named .cseq (.int key.cseqNumber)
  let branch ← named .branch (.text key.viaBranch)
  let sourceAddress ← named .address (.text key.flow.initiatorAddress)
  let sourcePort ← named .port (.int key.flow.initiatorPort)
  let destinationAddress ← named .address (.text key.flow.responderAddress)
  let destinationPort ← named .port (.int key.flow.responderPort)
  let requestLength ← namedIf .length (request.originalLength.known?.map .int)
  return {
    id := "transaction-" ++ toString index
    method := key.cseqMethod
    direction, cseq, branch
    flow := ⟨sourceAddress, sourcePort, destinationAddress, destinationPort, key.flow.transport⟩
    earliest := times.min?.map (offset · first)
    latest := times.max?.map (offset · first)
    requestFrame := request.number
    requestHasSdp := request.sdp.isSome
    requestLength, responses
    retransmissionFrames := transaction.retransmissions.filterMap fun item => item.frameNumber.known? }

/-- Where the walk over the transactions stands. -/
structure Walk where
  table : Placeholders
  entries : List TransactionEntry
  usedFrames : List Int
  teardown : Teardown

def Walk.start : Walk := ⟨.empty, [], [], .none⟩

def bye : Text := "BYE"

def directionOf (fromLocal : Bool) : Direction := if fromLocal then .localToRemote else .remoteToLocal

def teardownOf (fromLocal : Bool) : Teardown := if fromLocal then .local else .remote

section step
variable (networks : List Network) (reconstruction : Reconstruction) (first : Rat)

def Walk.step (walk : Walk) (key : TransactionKey) : Result Walk :=
  match reconstruction.transaction key with
  | none => fail "incomplete" "dialog references an incomplete transaction" []
  | some transaction =>
    match transaction.request with
    | none => fail "incomplete" "dialog references an incomplete transaction" []
    | some request => do
      let fromLocal ← isLocal networks key.flow.initiatorAddress
      let (entry, table) :=
        (transactionEntry first (walk.entries.length + 1) key transaction request (directionOf fromLocal)).run walk.table
      return {
        table
        entries := walk.entries ++ [entry]
        usedFrames := walk.usedFrames ++ (request :: transaction.responses).filterMap CapturedFrame.number
        teardown := if key.cseqMethod = bye then teardownOf fromLocal else walk.teardown }

def walkOf (keys : List TransactionKey) : Result Walk := keys.foldlM (Walk.step networks reconstruction first) .start

end step

end transactions

section media

def mediaEntry (media : SdpMediaRecord) : Naming MediaEntry := do
  let address ← namedIf .mediaAddress (media.address.known?.map .text)
  let port ← namedIf .mediaPort (media.port.known?.map .int)
  return {
    mediaType := media.mediaType.known?
    address, port
    protocol := media.protocol.known?
    payloadTypes := media.payloadTypes.known?.getD []
    codecs := (media.codecs.known?.getD []).map fun codec =>
      ⟨codec.payloadType, codec.encoding.known?, codec.clockRate.known?⟩
    direction := media.direction.known?
    packetTimeMs := media.packetTimeMs.known? }

def sdpEntry (item : NegotiatedSdpRevision × Nat) : Naming SdpEntry := do
  let (negotiated, index) := item
  let media ← negotiated.revision.media.mapM mediaEntry
  return {
    id := "sdp-" ++ toString (index + 1)
    role := negotiated.role
    method := negotiated.method
    status := negotiated.statusCode
    frame := negotiated.revision.evidence.frameNumber.known?
    media }

def mediaEndpoints (dialog : DialogRecord) : List (Text × Int) :=
  (dialog.sdpRevisions.flatMap fun negotiated => negotiated.revision.media).filterMap fun media => do
    return (← media.address.known?, ← media.port.known?)

def endpointOf (record : EndpointRecord) : Option (Text × Int) := do return (← record.address.known?, ← record.port.known?)

/-- `_matches_media` -/
def matchesMedia (frame : CapturedFrame) (endpoints : List (Text × Int)) : Bool :=
  (endpointOf frame.source).any (· ∈ endpoints) || (endpointOf frame.destination).any (· ∈ endpoints)

def mediaFrames (dialog : DialogRecord) (frames : List CapturedFrame) : List CapturedFrame :=
  frames.filter fun frame => frame.rtp.isSome && matchesMedia frame (mediaEndpoints dialog)

def packetEntry (first : Rat) (frame : CapturedFrame) : Naming PacketEntry := do
  let ssrc ← namedIf .ssrc (frame.rtp.bind fun rtp => rtp.ssrc.known?.map fun ssrc => .int ssrc)
  let sequence ← namedIf .rtpSequence (frame.rtp.bind fun rtp => rtp.sequence.known?.map fun number => .int number.val)
  let timestamp ← namedIf .rtpTimestamp (frame.rtp.bind fun rtp => rtp.timestamp.known?.map fun time => .int time.val)
  return {
    frame := frame.number
    ssrc, sequence, timestamp
    payloadType := frame.rtp.bind fun rtp => rtp.payloadType.known?
    offsetMs := frame.time.map (offset · first) }

end media

section canonicalize

def tagRaw (tag : Oracle.Value Text) : Raw := tag.known?.elim .none .text

/-- Address and port of one side of the first flow. -/
def contactRaw (flow : FlowKey) : Raw := .contact flow.initiatorAddress flow.initiatorPort

/-- The entry of the dialog itself, named last. -/
def dialogEntry (dialog : DialogRecord) (callerLocal : Bool) (teardown : Teardown) : Naming DialogEntry := do
  let initial := dialog.key.initialFlow
  let callId ← named .callId (.text dialog.key.callId)
  let localTag ← named .tag (tagRaw dialog.key.callerTag)
  let remoteTag ← named .tag (tagRaw dialog.key.calleeTag)
  let localContact ← named .contact (if callerLocal then contactRaw initial else contactRaw initial.reverse)
  let remoteContact ← named .contact (if callerLocal then contactRaw initial.reverse else contactRaw initial)
  return ⟨callId, localTag, remoteTag, localContact, remoteContact, dialog.state, teardown⟩

/-- The parts of the document after the transactions. -/
def remainder (dialog : DialogRecord) (frames : List CapturedFrame) (callerLocal : Bool) (teardown : Teardown) :
    Naming (List SdpEntry × List PacketEntry × DialogEntry) := do
  let sdp ← dialog.sdpRevisions.zipIdx.mapM sdpEntry
  let packets ← (mediaFrames dialog frames).mapM (packetEntry (firstTime frames))
  let entry ← dialogEntry dialog callerLocal teardown
  return (sdp, packets, entry)

/-- `canonicalize_dialog`, with the table of the placeholders it gave out. -/
def canonicalizeWith (reconstruction : Reconstruction) (frames : List CapturedFrame) (localNetworks : List Text) :
    Result (Document × Placeholders) := do
  let networks ← readNetworks localNetworks
  let dialog ← selectDialog reconstruction
  validateDialog dialog reconstruction frames
  let initial := dialog.key.initialFlow
  let callerLocal ← isLocal networks initial.initiatorAddress
  let calleeLocal ← isLocal networks initial.responderAddress
  if callerLocal = calleeLocal then fail "scope" "exactly one initial dialog endpoint must be in local scope" []
  else
    let walk ← walkOf networks reconstruction (firstTime frames) dialog.transactionKeys
    let ((sdpRevisions, mediaPackets, entry), table) :=
      (remainder dialog frames callerLocal walk.teardown).run walk.table
    let used := walk.usedFrames ++
      dialog.sdpRevisions.filterMap (fun negotiated => negotiated.revision.evidence.frameNumber.known?) ++
      (mediaFrames dialog frames).filterMap CapturedFrame.number
    return ({
      dialog := entry
      transactions := walk.entries
      sdpRevisions, mediaPackets
      sourceFrames := used.dedup.insertionSort (· ≤ ·)
      sourceFrameCount := frames.length }, table)

def canonicalizeDialog (reconstruction : Reconstruction) (frames : List CapturedFrame) (localNetworks : List Text) :
    Result Document :=
  (canonicalizeWith reconstruction frames localNetworks).map Prod.fst

end canonicalize

end Sippycup.Learn.Canonical
