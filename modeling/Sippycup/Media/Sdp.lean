import Sippycup.Media.Session
import Sippycup.Python.Utf8

/-! The SDP parser of media sessions: one audio section, its connection line or
that of the session, its payload types and what they are mapped to. -/
namespace Sippycup.Media
open Sippycup.Python Sippycup.Ip

/-- The tables of the interpreter: decimal digits beyond ASCII, and the two cases of text. -/
structure Unicode where
  digit : Nat → Option Nat
  lower : Text → Text
  upper : Text → Text

def maxSdpBytes : Nat := 32 * 1024

def space : Nat := 32

/-- `raw.replace("\r\n", "\n")` -/
def crlf : Codes → Codes
  | 13 :: 10 :: rest => 10 :: crlf rest
  | code :: rest => code :: crlf rest
  | [] => []

/-- The lines of a text, without the space around them and without the empty ones. -/
def sdpLines (raw : Text) : List Codes :=
  (((crlf raw.codes).splitOn 10).map fun line => (Text.mk line).strip.codes).filter fun line => line ≠ []

/-- `line.split()` -/
def words (line : Codes) : List Codes := (line.splitOnP Text.isSpace).filter fun word => word ≠ []

def startsWith (start : String) (line : Codes) : Bool := (Text.codes start).isPrefixOf line

def isMedia (line : Codes) : Bool := startsWith "m=" line

def isAudio (line : Codes) : Bool := startsWith "m=audio " line

def isConnection (line : Codes) : Bool := startsWith "c=" line

def decimal (unicode : Unicode) (code : Nat) : Option Nat :=
  if code < 128 then if isDigit code then some (code - zeroDigit) else none else unicode.digit code

/-- `int(text)` of a full match of `\d+`. -/
def number (unicode : Unicode) (codes : Codes) : Option Nat :=
  if codes = [] then none else (codes.mapM (decimal unicode)).map (Numeral.read 10)

/-- `_integer_from_text` -/
def integerFromText (unicode : Unicode) (codes : Codes) (field : String) (minimum maximum : Nat) : Result Nat :=
  match number unicode codes with
  | none => fail s!"{field} must be an integer"
  | some n => integer (.int n) field minimum maximum

def isReserved : Address → Bool
  | .v4 ip => decide (ip.toNat / 2 ^ 28 = 15)
  | .v6 _ _ => false

def usable (address : Address) : Bool :=
  !(address.isUnspecified || address.isMulticast || isReserved address)

def familyOf (address : Address) : Family := if address.version = 6 then .inet6 else .inet

/-- `_literal_unicast` -/
def literalUnicast (value : Text) (field : String) : Result (Text × Family) :=
  match parseAddress value.codes with
  | none => fail s!"{field} must be a literal IP address"
  | some address =>
    if usable address then .ok (address.text, familyOf address)
    else fail s!"{field} must be a usable unicast address"

/-- A full match of `c=IN (IP4|IP6) ([^ ]+)`. -/
def connectionParts (line : Codes) : Option (Family × Codes) :=
  let value := line.drop 9
  if value = [] ∨ space ∈ value then none
  else if startsWith "c=IN IP4 " line then some (.inet, value)
  else if startsWith "c=IN IP6 " line then some (.inet6, value)
  else none

/-- `_parse_connection` -/
def parseConnection (line : Codes) (field : String) : Result (Text × Family) :=
  match connectionParts line with
  | none => fail s!"{field} has unsupported connection syntax"
  | some (declared, value) => do
    let (address, family) ← literalUnicast ⟨value⟩ field
    if family ≠ declared then fail s!"{field} address family disagrees with SDP"
    else return (address, family)

/-- What the lines gave so far: the connection line of the session and the media sections. -/
structure Scan where
  connection : Option Codes
  sections : List (List Codes)

def Scan.step (scan : Scan) (line : Codes) : Scan :=
  if isMedia line then { scan with sections := scan.sections ++ [[line]] }
  else
    match scan.sections.getLast? with
    | some current => { scan with sections := scan.sections.dropLast ++ [current ++ [line]] }
    | none => if isConnection line then { scan with connection := some line } else scan

def scanLines (lines : List Codes) : Scan := lines.foldl Scan.step ⟨none, []⟩

def Scan.audio (scan : Scan) : List (List Codes) :=
  scan.sections.filter fun lines => lines.head?.any isAudio

/-- A character of an encoding name, as `[A-Za-z0-9_-]` matches it in any case. -/
def isEncodingCode (code : Nat) : Bool :=
  isDigit code || isLower (lowerCode code) || [45, 95, 0x130, 0x131, 0x17F, 0x212A].contains code

/-- `upper()` of such a character. -/
def upperCode (code : Nat) : Nat :=
  if isLower code then code - 32 else if code = 0x131 then 73 else if code = 0x17F then 83 else code

/-- An encoding name and its clock rate, with or without a number of channels. -/
def encoding (unicode : Unicode) (codes : Codes) : Option (Text × Nat) :=
  match codes.splitOn slash with
  | name :: clock :: channels =>
    if name = [] ∨ !name.all isEncodingCode ∨ 1 < channels.length ∨
        !channels.all fun count => (number unicode count).isSome then none
    else (number unicode clock).map fun rate => (⟨name.map upperCode⟩, rate)
  | _ => none

/-- A full match of `a=rtpmap:(\d+) ([A-Za-z0-9_-]+)/(\d+)(?:/\d+)?` in any case: the payload
type, the name in upper case and the clock rate. -/
def rtpmap (unicode : Unicode) (line : Codes) : Option (Nat × Text × Nat) :=
  if (line.take 9).map lowerCode ≠ Text.codes "a=rtpmap:" then none
  else
    let rest := line.drop 9
    match number unicode (rest.takeWhile (· ≠ space)), encoding unicode ((rest.dropWhile (· ≠ space)).drop 1) with
    | some payloadType, some mapping => some (payloadType, mapping)
    | _, _ => none

abbrev Mappings := List (Nat × Text × Nat)

def staticMappings : Mappings := [(0, "PCMU", 8000), (8, "PCMA", 8000), (9, "G722", 8000)]

def addMapping (unicode : Unicode) (payloadIds : List Nat) (field : String) (mappings : Mappings)
    (line : Codes) : Result Mappings :=
  match rtpmap unicode line with
  | none => .ok mappings
  | some (payload, mapping) => do
    let payloadType ← integer (.int payload) s!"{field} rtpmap payload" 0 127
    if payloadType ∉ payloadIds then fail s!"{field} maps payload {payloadType} outside the media line"
    else if (mappings.lookup payloadType).any (· ≠ mapping) then
      fail s!"{field} remaps static payload {payloadType} incorrectly"
    else return (payloadType, mapping) :: mappings

def keyingPrefixes : List String := ["a=crypto:", "a=fingerprint:", "a=setup:", "a=key-mgmt:"]

def isKeying (unicode : Unicode) (line : Codes) : Bool :=
  keyingPrefixes.any fun start => startsWith start (unicode.lower ⟨line⟩).codes

/-- The lines of an SDP text within its limits. -/
def boundedLines (unicode : Unicode) (raw : Text) (field : String) : Result (List Codes) :=
  match Utf8.encode? raw.codes with
  | none => fail s!"{field} is not valid UTF-8 text"
  | some encoded =>
    let lines := sdpLines raw
    if maxSdpBytes < encoded.length then fail s!"{field} exceeds {maxSdpBytes} bytes"
    else if 0 ∈ raw.codes then fail s!"{field} contains NUL"
    else if 256 < lines.length ∨ lines.any fun line => 1024 < line.length then
      fail s!"{field} exceeds SDP structural limits"
    else if lines.any (isKeying unicode) then
      fail s!"{field} contains media keying; only plain RTP/AVP is supported"
    else .ok lines

structure MediaLine where
  port : Nat
  payloadIds : List Nat

/-- The audio media line. -/
def parseMedia (unicode : Unicode) (line : Codes) (field : String) : Result MediaLine :=
  match words (line.drop 2) with
  | kind :: port :: protocol :: first :: more => do
    if kind ≠ Text.codes "audio" then fail s!"{field} has malformed audio media line"
    else if slash ∈ port then fail s!"{field} media port counts are unsupported"
    else
      let port ← integerFromText unicode port s!"{field} audio port" 1024 65535
      let protocol := unicode.upper ⟨protocol⟩
      if protocol ≠ "RTP/AVP" then
        fail s!"{field} protocol {protocol.repr} is unsupported; expected RTP/AVP"
      else
        let payloadIds ← (first :: more).mapM fun item =>
          integerFromText unicode item s!"{field} payload type" 0 127
        if !decide payloadIds.Nodup then fail s!"{field} repeats a payload type"
        else return ⟨port, payloadIds⟩
  | _ => fail s!"{field} has malformed audio media line"

/-- The last connection line of the section, or else that of the session. -/
def connectionOf (section_ : List Codes) (session : Option Codes) : Option Codes :=
  match (section_.filter isConnection).getLast? with
  | some line => some line
  | none => session

def readConnection (connection : Option Codes) (field : String) : Result Text :=
  match connection with
  | none => fail s!"{field} has no connection address"
  | some line => do
    let (address, _) ← parseConnection line s!"{field} connection"
    return address

def checkPtime (unicode : Unicode) (section_ : List Codes) (field : String) : Result Unit := do
  let values ← (section_.filter (startsWith "a=ptime:")).mapM fun line =>
    integerFromText unicode (line.drop 8) s!"{field} packetization" 1 1000
  if values ≠ [packetizationMs] then fail s!"{field} must declare exactly a=ptime:{packetizationMs}"
  else return ()

def parseSdp (unicode : Unicode) (raw : Text) (field : String) : Result SdpAudio := do
  let lines ← boundedLines unicode raw field
  let scan := scanLines lines
  match scan.audio with
  | [media :: section_] =>
    let audio ← parseMedia unicode media field
    let address ← readConnection (connectionOf section_ scan.connection) field
    let mappings ← section_.foldlM (addMapping unicode audio.payloadIds field) staticMappings
    checkPtime unicode section_ field
    return { address, port := audio.port, payloads :=
      audio.payloadIds.filterMap fun payloadType => (mappings.lookup payloadType).map (payloadType, ·) }
  | _ => fail s!"{field} must contain exactly one audio section"

/-- The loader with its own parsers; the canary assets are given. -/
def sdpReaders (unicode : Unicode) (asset : Text → Codec → Result Text) : Readers where
  parseSdp := parseSdp unicode
  literalUnicast := literalUnicast
  asset := asset

end Sippycup.Media
