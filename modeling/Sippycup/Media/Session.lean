import Sippycup.Python.JsonEq
import Sippycup.Python.Sha256

/-! Media sessions: a codec, a digit string and the revisions of the negotiated
addresses and payload types. The SDP and address parsers and the canary assets
are given; everything a session is checked for beyond them is here. -/
namespace Sippycup.Media
open Sippycup.Python

structure MediaSessionError where
  message : String
  deriving DecidableEq

abbrev Result := Except (Raised MediaSessionError)

def fail {α : Type} (message : String) : Result α := .error (.own ⟨message⟩)

def sessionVersion : String := "sippycup.media-session/v1"
def packetizationMs : Nat := 20
def maxRevisions : Nat := 8
def maxDigits : Nat := 16
def maxEchoTimeoutMs : Nat := 5000

abbrev Byte := Fin 256

instance byte_values : NeZero 256 := ⟨by decide⟩

/-- Event code of each digit, by its code point: `0` to `9`, `*`, `#`, `A` to `D`. -/
def dtmfEvents : List (Nat × Byte) :=
  [(48, 0), (49, 1), (50, 2), (51, 3), (52, 4), (53, 5), (54, 6), (55, 7), (56, 8), (57, 9),
    (42, 10), (35, 11), (65, 12), (66, 13), (67, 14), (68, 15)]

def dtmfEvent? (digit : Nat) : Option Byte := dtmfEvents.lookup digit

inductive Codec where
  | pcmu | pcma | g722
  deriving DecidableEq

def Codec.name : Codec → String
  | .pcmu => "PCMU"
  | .pcma => "PCMA"
  | .g722 => "G722"

def Codec.rtpClockHz : Codec → Nat
  | .pcmu => 8000
  | .pcma => 8000
  | .g722 => 8000

def codecs : List Codec := [.pcmu, .pcma, .g722]

def directions : List String := ["caller_to_callee", "callee_to_caller"]

inductive Family where
  | inet | inet6
  deriving DecidableEq

structure SdpAudio where
  address : Text
  port : Nat
  payloads : List (Nat × Text × Nat)

structure Revision where
  activationMs : Nat
  sourceAddress : Text
  sourcePort : Nat
  destinationAddress : Text
  destinationPort : Nat
  family : Family
  codecPayloadType : Nat
  telephoneEventPayloadType : Option Nat
  deriving DecidableEq

structure MediaSession where
  direction : Text
  codec : Codec
  digits : Text
  echoRequired : Bool
  echoTimeoutMs : Nat
  revisions : List Revision
  assetSha256 : Text
  deriving DecidableEq

/-- What the session's loader calls: `parse_sdp`, `_literal_unicast` and the lookup of the
canary asset, which gives its digest. -/
structure Readers where
  parseSdp : Text → String → Result SdpAudio
  literalUnicast : Text → String → Result (Text × Family)
  asset : Text → Codec → Result Text

def mapping (value : JsonValue) (field : String) : Result JsonDict :=
  match value with
  | .dict d => .ok d
  | _ => fail s!"{field} must be an object"

def exactKeys (value : JsonDict) (field : String) (required : List String) : Result Unit :=
  let missing : List String := required.filter fun name => !value.contains (Text.ofString name)
  let unknown := value.keys.filter fun key => !required.any fun name => decide (Text.ofString name = key)
  if !missing.isEmpty then fail s!"{field} missing fields: {joinNames missing}"
  else if !unknown.isEmpty then fail s!"{field} contains unsupported fields: {joinSorted unknown}"
  else .ok ()

def integer (value : JsonValue) (field : String) (minimum maximum : Nat) : Result Nat :=
  match value with
  | .int n =>
    if n < minimum ∨ (maximum : Int) < n then fail s!"{field} must be between {minimum} and {maximum}"
    else .ok n.toNat
  | _ => fail s!"{field} must be an integer"

def payloadFor (audio : SdpAudio) (encoding : String) (clockRate : Nat) : Result (Option Nat) :=
  let found := audio.payloads.filter fun x => decide (x.2.1 = Text.ofString encoding ∧ x.2.2 = clockRate)
  if 1 < found.length then fail s!"SDP maps {encoding}/{clockRate} more than once"
  else .ok (found.head?.map Prod.fst)

/-- The payload type of the digits' events: one dynamic type that both sides agree on. -/
def eventPayload (digits : Text) (index clockRate : Nat) (localEvent remoteEvent : Option Nat) :
    Result (Option Nat) :=
  if digits.codes.isEmpty then .ok none
  else
    match localEvent, remoteEvent with
    | some first, some second =>
      if first = second ∧ 96 ≤ first ∧ first ≤ 127 then .ok (some first)
      else fail (s!"revisions[{index}] must negotiate one matching dynamic " ++
        s!"telephone-event/{clockRate} payload")
    | _, _ => fail (s!"revisions[{index}] must negotiate one matching dynamic " ++
        s!"telephone-event/{clockRate} payload")

def sdpText (d : JsonDict) (index : Nat) : Result (Text × Text) :=
  match d.find "localSdp", d.find "remoteSdp" with
  | .str first, .str second => .ok (first, second)
  | _, _ => fail s!"revisions[{index}] localSdp and remoteSdp must be strings"

def codecPayload (index : Nat) (codec : Codec) (localCodec remoteCodec : Option Nat) : Result Nat :=
  match localCodec, remoteCodec with
  | some first, some second =>
    if first = second then .ok first
    else fail s!"revisions[{index}] codec payload mappings disagree"
  | _, _ => fail s!"revisions[{index}] does not negotiate {codec.name}/{codec.rtpClockHz}"

def parseRevision (readers : Readers) (codec : Codec) (digits : Text) (value : JsonValue) (index : Nat) :
    Result Revision := do
  let item ← mapping value s!"revisions[{index}]"
  exactKeys item s!"revisions[{index}]" ["activationMs", "localSdp", "remoteSdp"]
  let activation ← integer (item.find "activationMs") s!"revisions[{index}].activationMs" 0 980
  if activation % packetizationMs ≠ 0 then
    fail (s!"revisions[{index}].activationMs must align to " ++ s!"{packetizationMs} ms packetization")
  else
    let (localRaw, remoteRaw) ← sdpText item index
    let localSdp ← readers.parseSdp localRaw s!"revisions[{index}].localSdp"
    let remoteSdp ← readers.parseSdp remoteRaw s!"revisions[{index}].remoteSdp"
    let (sourceAddress, sourceFamily) ←
      readers.literalUnicast localSdp.address s!"revisions[{index}] local address"
    let (destinationAddress, destinationFamily) ←
      readers.literalUnicast remoteSdp.address s!"revisions[{index}] remote address"
    if sourceFamily ≠ destinationFamily then
      fail s!"revisions[{index}] local and remote address families differ"
    else
      let localCodec ← payloadFor localSdp codec.name codec.rtpClockHz
      let remoteCodec ← payloadFor remoteSdp codec.name codec.rtpClockHz
      let codecPayloadType ← codecPayload index codec localCodec remoteCodec
      let localEvent ← payloadFor localSdp "TELEPHONE-EVENT" codec.rtpClockHz
      let remoteEvent ← payloadFor remoteSdp "TELEPHONE-EVENT" codec.rtpClockHz
      let telephoneEventPayloadType ←
        eventPayload digits index codec.rtpClockHz localEvent remoteEvent
      return { activationMs := activation, sourceAddress, sourcePort := localSdp.port
               destinationAddress, destinationPort := remoteSdp.port, family := sourceFamily
               codecPayloadType, telephoneEventPayloadType }

/-- The items of a list, each with its index. -/
def parseRevisions (readers : Readers) (codec : Codec) (digits : Text) :
    Nat → List JsonValue → Result (List Revision)
  | _, [] => .ok []
  | index, item :: rest => do
    let revision ← parseRevision readers codec digits item index
    return revision :: (← parseRevisions readers codec digits (index + 1) rest)

def readDigits (value : JsonValue) : Result Text :=
  match value with
  | .str digits =>
    if maxDigits < digits.length then fail s!"digits must be a string of at most {maxDigits}"
    else if digits.codes.any fun digit => (dtmfEvent? digit).isNone then
      fail "digits may contain only 0-9, *, #, and A-D"
    else .ok digits
  | _ => fail s!"digits must be a string of at most {maxDigits}"

def readDirection (value : JsonValue) : Result Text :=
  match value with
  | .str t =>
    if directions.any fun name => decide (Text.ofString name = t) then .ok t
    else fail ("direction must be one of " ++ ", ".intercalate directions)
  | _ => fail ("direction must be one of " ++ ", ".intercalate directions)

def readCodec (value : JsonValue) : Result Codec :=
  match codecs.find? fun codec => value.isText codec.name with
  | some codec => .ok codec
  | none => fail "codec must be PCMU, PCMA, or G722"

def readRequired (value : JsonValue) : Result Bool :=
  match value with
  | .bool required => .ok required
  | _ => fail "echo.required must be a boolean"

def readRevisions (value : JsonValue) : Result (List JsonValue) :=
  match value with
  | .list items =>
    if items.isEmpty ∨ maxRevisions < items.length then
      fail s!"revisions must contain between 1 and {maxRevisions} entries"
    else .ok items
  | _ => fail s!"revisions must contain between 1 and {maxRevisions} entries"

/-- `tuple(sorted(set(values))) == values` -/
def increasing (values : List Nat) : Bool :=
  decide (values.dedup.insertionSort (fun a b => a ≤ b) = values)

def loadSession (readers : Readers) (value : JsonValue) : Result MediaSession := do
  let document ← mapping value "session"
  exactKeys document "session" ["apiVersion", "direction", "codec", "digits", "echo", "revisions"]
  if !(document.find "apiVersion").isText sessionVersion then
    fail s!"apiVersion must equal {sessionVersion}"
  else
    let direction ← readDirection (document.find "direction")
    let codec ← readCodec (document.find "codec")
    let digits ← readDigits (document.find "digits")
    let echo ← mapping (document.find "echo") "echo"
    exactKeys echo "echo" ["required", "timeoutMs"]
    let echoRequired ← readRequired (echo.find "required")
    let echoTimeoutMs ← integer (echo.find "timeoutMs") "echo.timeoutMs" packetizationMs maxEchoTimeoutMs
    let items ← readRevisions (document.find "revisions")
    let revisions ← parseRevisions readers codec digits 0 items
    let activations := revisions.map Revision.activationMs
    if activations.head? ≠ some 0 ∨ !increasing activations then
      fail "revision activationMs values must start at zero and strictly increase"
    else
      let assetSha256 ← readers.asset direction codec
      return { direction, codec, digits, echoRequired, echoTimeoutMs, revisions, assetSha256 }

/-- What loading a session checks and the packet plan relies on. -/
structure Loaded (session : MediaSession) : Prop where
  digits : ∀ digit ∈ session.digits.codes, (dtmfEvent? digit).isSome = true
  short : session.digits.length ≤ maxDigits
  revisions : session.revisions ≠ []
  events : session.digits.codes ≠ [] →
    ∀ revision ∈ session.revisions, revision.telephoneEventPayloadType.isSome = true

theorem readDigits_ok {value : JsonValue} {digits : Text} (ok : readDigits value = .ok digits) :
    (∀ digit ∈ digits.codes, (dtmfEvent? digit).isSome = true) ∧ digits.length ≤ maxDigits := by
  unfold readDigits at ok
  split at ok
  · split at ok
    · cases ok
    · rename_i short
      split at ok
      · cases ok
      · rename_i known
        cases ok
        refine ⟨fun digit member => ?_, Nat.le_of_not_lt short⟩
        by_contra unknown
        exact known (List.any_eq_true.mpr ⟨digit, member, by simpa using unknown⟩)
  · cases ok

theorem eventPayload_ok {digits : Text} {index clockRate : Nat} {localEvent remoteEvent payload : Option Nat}
    (ok : eventPayload digits index clockRate localEvent remoteEvent = .ok payload)
    (nonempty : digits.codes ≠ []) : payload.isSome = true := by
  unfold eventPayload at ok
  split at ok
  · rename_i empty
    exact absurd (List.isEmpty_iff.mp empty) nonempty
  · split at ok
    · split at ok
      · cases ok
        rfl
      · cases ok
    · cases ok

theorem parseRevision_ok {readers : Readers} {codec : Codec} {digits : Text} {value : JsonValue}
    {index : Nat} {revision : Revision}
    (ok : parseRevision readers codec digits value index = .ok revision) (nonempty : digits.codes ≠ []) :
    revision.telephoneEventPayloadType.isSome = true := by
  unfold parseRevision at ok
  simp only [bind_ok] at ok
  obtain ⟨item, -, _, -, activation, -, ok⟩ := ok
  split at ok
  · cases ok
  simp only [bind_ok] at ok
  obtain ⟨raws, -, first, -, second, -, source, -, destination, -, ok⟩ := ok
  split at ok
  · cases ok
  simp only [bind_ok, pure_ok] at ok
  obtain ⟨_, -, _, -, _, -, _, -, _, -, payload, negotiated, rfl⟩ := ok
  exact eventPayload_ok negotiated nonempty

theorem parseRevisions_ok {readers : Readers} {codec : Codec} {digits : Text} {items : List JsonValue}
    {index : Nat} {revisions : List Revision}
    (ok : parseRevisions readers codec digits index items = .ok revisions) (nonempty : digits.codes ≠ []) :
    ∀ revision ∈ revisions, revision.telephoneEventPayloadType.isSome = true := by
  induction items generalizing index revisions with
  | nil =>
    cases ok
    exact fun _ member => by cases member
  | cons item rest ih =>
    simp only [parseRevisions, bind_ok, pure_ok] at ok
    obtain ⟨revision, first, others, later, rfl⟩ := ok
    exact List.forall_mem_cons.mpr ⟨parseRevision_ok first nonempty, ih later⟩

theorem loadSession_loaded {readers : Readers} {value : JsonValue} {session : MediaSession}
    (ok : loadSession readers value = .ok session) : Loaded session := by
  unfold loadSession at ok
  simp only [bind_ok] at ok
  obtain ⟨document, -, _, -, ok⟩ := ok
  split at ok
  · cases ok
  simp only [bind_ok] at ok
  obtain ⟨direction, -, codec, -, digits, read, echo, -, _, -, required, -, timeout, -, items, -,
    revisions, parsed, ok⟩ := ok
  split at ok
  · cases ok
  rename_i order
  simp only [bind_ok, pure_ok] at ok
  obtain ⟨asset, -, rfl⟩ := ok
  obtain ⟨known, short⟩ := readDigits_ok read
  refine ⟨known, short, ?_, fun nonempty => parseRevisions_ok parsed nonempty⟩
  rintro (rfl : revisions = [])
  simp at order

end Sippycup.Media
