import Sippycup.Capture.Records
import Sippycup.Machine.SlidingWindow

/-! The capture watchdog and its surroundings: the capture process appends to
the file, the thread reads one record a turn, and at the end of a run the stop
flag is set. Each reading of the file sees it as it is at that moment. -/
namespace Sippycup.Capture
open Sippycup.Python Sippycup.Machine

structure Maxima where
  calls : Nat
  packets : Nat
  bytes : Nat
  packetsPerSecond : Nat
  callsPerSecond : Nat

/-- `seconds + fraction / 1_000_000` -/
def timestamp (seconds fraction : Nat) : Double :=
  (roundDouble seconds).add (roundDouble (fraction / 1000000))

/-- `time < timestamp - 1` -/
def expired (time timestamp : Double) : Bool :=
  (Number.float time).lt (.float (timestamp.add (.finite (-1))))

def inviteMark : List Nat := (Text.ofString "INVITE ").codes

/-- `b"INVITE " in packet` -/
def isCall (packet : List Nat) : Bool := packet.tails.any fun rest => inviteMark.isPrefixOf rest

/-- Where the thread is: at the head of its loop, past the check of the stop flag, with a
record header read, or ended. -/
inductive Control where
  | head
  | checked
  | holding (header : Header)
  | returned
  deriving DecidableEq

structure Watchdog where
  offset : Nat
  endian : Option Endian
  packets : Nat
  byteCount : Nat
  calls : Nat
  packetTimes : List Double
  callTimes : List Double
  violation : Option String
  control : Control
  deriving DecidableEq

def Watchdog.start : Watchdog := ⟨24, none, 0, 0, 0, [], [], none, .head⟩

/-- `_fail`, and the thread returns. -/
def Watchdog.fail (w : Watchdog) (reason : String) : Watchdog :=
  { w with violation := w.violation.or (some reason), control := .returned }

def Watchdog.again (w : Watchdog) : Watchdog := { w with control := .head }

def maxRecordBytes : Nat := 1024 * 1024

def readHeader (w : Watchdog) (endian : Endian) (recordHeader : List Nat) : Watchdog :=
  match header? endian recordHeader with
  | some header =>
    if maxRecordBytes < header.included then w.fail "capture_record_too_large"
    else { w with control := .holding header }
  | none => w.again

/-- The file's header, where it is not known yet, and the next record's. -/
def look (w : Watchdog) (file : List Nat) : Watchdog :=
  let header := file.take 24
  let recordHeader := (file.drop w.offset).take 16
  match w.endian with
  | some endian => readHeader w endian recordHeader
  | none =>
    if header.length < 24 then w.again
    else
      match magic? header with
      | some endian => readHeader { w with endian := some endian } endian recordHeader
      | none => w.fail "capture_format_invalid"

def count (w : Watchdog) (header : Header) (packet : List Nat) : Watchdog :=
  let timestamp := timestamp header.seconds header.fraction
  { w with
    offset := w.offset + 16 + header.included
    packets := w.packets + 1
    byteCount := w.byteCount + header.original
    packetTimes := SlidingWindow.slide expired w.packetTimes timestamp
    calls := if isCall packet then w.calls + 1 else w.calls
    callTimes := if isCall packet then SlidingWindow.slide expired w.callTimes timestamp else w.callTimes }

def crossed (maxima : Maxima) (w : Watchdog) : Option String :=
  if maxima.packets < w.packets then some "packet_ceiling_exceeded"
  else if maxima.bytes < w.byteCount then some "byte_ceiling_exceeded"
  else if maxima.packetsPerSecond < w.packetTimes.length then some "packet_rate_ceiling_exceeded"
  else if maxima.calls < w.calls then some "call_ceiling_exceeded"
  else if maxima.callsPerSecond < w.callTimes.length then some "call_rate_ceiling_exceeded"
  else none

def enforce (maxima : Maxima) (w : Watchdog) : Watchdog :=
  match crossed maxima w with
  | some reason => w.fail reason
  | none => w.again

def fetch (maxima : Maxima) (w : Watchdog) (header : Header) (file : List Nat) : Watchdog :=
  let packet := (file.drop (w.offset + 16)).take header.included
  if packet.length < header.included then w.again
  else enforce maxima (count w header packet)

structure World where
  file : List Nat
  stopped : Bool
  watchdog : Watchdog
  deriving DecidableEq

/-- The watchdog starts on a file that may have been begun. -/
def World.start (file : List Nat) : World := ⟨file, false, .start⟩

/-- The capture process appends; the thread checks the flag, opens the file for the headers
and for the packet, where opening can fail; the supervisor sets the flag. -/
inductive Action where
  | append (bytes : List Nat)
  | check
  | look (opens : Bool)
  | fetch (opens : Bool)
  | stop
  deriving DecidableEq

/-- `none` for what cannot happen in the state. -/
def step (maxima : Maxima) (s : World) (action : Action) : Option World :=
  match action with
  | .append bytes => some { s with file := s.file ++ bytes }
  | .stop => some { s with stopped := true }
  | .check =>
    match s.watchdog.control with
    | .head =>
      some { s with watchdog := { s.watchdog with control := if s.stopped then .returned else .checked } }
    | _ => none
  | .look opens =>
    match s.watchdog.control with
    | .checked => some { s with watchdog := if opens then look s.watchdog s.file else s.watchdog.again }
    | _ => none
  | .fetch opens =>
    match s.watchdog.control with
    | .holding header =>
      some { s with watchdog := if opens then fetch maxima s.watchdog header s.file else s.watchdog.again }
    | _ => none

@[grind =] def run (maxima : Maxima) : World → List Action → Option World
  | s, [] => some s
  | s, action :: rest => do run maxima (← step maxima s action) rest

structure RunResult where
  exitCode : Int
  state : String
  completedSteps : Nat
  deriving DecidableEq

/-- What else happens at the end of a run; `reportCode` is absent without a capture file. -/
structure Ending where
  captureDied : Bool
  cancelCode : Option Int
  reportCode : Option Int

def afterTraffic (result : RunResult) (violation : Option String) : RunResult :=
  match violation with
  | some reason =>
    if result.state = "succeeded" then ⟨1, reason, result.completedSteps⟩ else result
  | none => result

def afterCapture (result : RunResult) (captureDied : Bool) : RunResult :=
  if captureDied && decide (result.state = "succeeded") then
    ⟨1, "capture_process_died", result.completedSteps⟩
  else result

def afterReport (result : RunResult) (ending : Ending) : RunResult :=
  match ending.reportCode with
  | none => result
  | some reportCode =>
    match ending.cancelCode with
    | some code => ⟨code, "cancelled", result.completedSteps⟩
    | none =>
      if reportCode ≠ 0 ∧ result.state = "succeeded" then ⟨1, "report_failed", result.completedSteps⟩
      else result

/-- The result of a run, from what the plan's steps came to and what the watchdog found. -/
def conclude (result : RunResult) (violation : Option String) (ending : Ending) : RunResult :=
  afterReport (afterCapture (afterTraffic result violation) ending.captureDied) ending

end Sippycup.Capture
