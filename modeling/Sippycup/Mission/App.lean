import Sippycup.Mission.Drops
import Sippycup.Mission.Phases
import Sippycup.Python.JsonLoads

/-! Mission control between its producers and its dashboard: raw records are
read into the buffer, and a drain applies what waits there to the view and to
the dashboard. A record that cannot be read becomes an event of its own. -/
namespace Sippycup.Telemetry
open Sippycup.Python

def metricStatuses : List Text := ["good", "warning", "unknown", "stale"]

structure Metric where
  value : Text
  status : Text
  known : metricStatuses.contains status = true

def Metric.of (value status : Text) : Except Builtin Metric :=
  if known : metricStatuses.contains status = true then .ok ⟨value, status, known⟩ else .error .valueError

/-- `_metric` -/
def metric : JsonValue → Except Builtin Metric
  | .dict d => Metric.of (((JsonDict.get? d "value").map JsonValue.toStr).getD "unknown")
      (((JsonDict.get? d "status").map JsonValue.toStr).getD "unknown")
  | value => Metric.of value.toStr "unknown"

def metrics : JsonDict → Except Builtin (List (Text × Metric))
  | [] => .ok []
  | (name, value) :: rest => do
    let first ← metric value
    let others ← metrics rest
    return (name, first) :: others

structure WarningLink where
  message : Text
  evidence : Text

structure DashboardModel where
  authorization : JsonValue
  plannedCases : JsonValue
  currentStep : JsonValue
  nextStep : JsonValue
  utcStarted : JsonValue
  utcElapsed : JsonValue
  budgets : List (Text × Metric)
  capture : Metric
  capturePath : JsonValue
  reportPath : JsonValue
  sipLadder : List Text
  sipCounters : List (Text × Metric)
  media : List (Text × Metric)
  rtp : List (Text × Metric)
  assertions : List (Text × Metric)
  recovery : Metric
  warnings : List WarningLink
  firstRun : Bool

def DashboardModel.initial : DashboardModel where
  authorization := .str "not loaded"
  plannedCases := .int 0
  currentStep := .str "none"
  nextStep := .str "none"
  utcStarted := .str "not started"
  utcElapsed := .str "00:00:00"
  budgets := []
  capture := ⟨"unknown", "unknown", by decide⟩
  capturePath := .str "not assigned"
  reportPath := .str "not generated"
  sipLadder := []
  sipCounters := []
  media := []
  rtp := []
  assertions := []
  recovery := ⟨"unknown", "unknown", by decide⟩
  warnings := []
  firstRun := true

/-- The group of metrics that the payload replaces. -/
def group (payload : JsonDict) (name : Text) (old : List (Text × Metric)) : Except Builtin (List (Text × Metric)) :=
  match payload.get? name with
  | some (.dict entries) => metrics entries
  | _ => .ok old

def gauge (payload : JsonDict) (name : Text) (old : Metric) : Except Builtin Metric :=
  match payload.get? name with
  | some value => metric value
  | none => .ok old

def ladder (payload : JsonDict) (old : List Text) : List Text :=
  match payload.get? "sipLadder" with
  | some (.list items) => (items.take 100).map JsonValue.toStr
  | _ => old

def applyDashboardEvent (model : DashboardModel) (e : Event) : Except Builtin DashboardModel := do
  let payload := e.payload
  let scalar (name : Text) (old : JsonValue) : JsonValue := (payload.get? name).getD old
  let budgets ← group payload "budgets" model.budgets
  let sipCounters ← group payload "sipCounters" model.sipCounters
  let media ← group payload "media" model.media
  let rtp ← group payload "rtp" model.rtp
  let assertions ← group payload "assertions" model.assertions
  let capture ← gauge payload "capture" model.capture
  let recovery ← gauge payload "recovery" model.recovery
  let link : WarningLink := ⟨message payload "runtime warning",
    ((payload.get? "evidence").map JsonValue.toStr).getD "events.jsonl"⟩
  let warnings := model.warnings ++ [link]
  return {
    authorization := scalar "authorization" model.authorization
    plannedCases := scalar "plannedCases" model.plannedCases
    currentStep := scalar "currentStep" model.currentStep
    nextStep := scalar "nextStep" model.nextStep
    utcStarted := scalar "utcStarted" model.utcStarted
    utcElapsed := scalar "utcElapsed" model.utcElapsed
    capturePath := scalar "capturePath" model.capturePath
    reportPath := scalar "reportPath" model.reportPath
    sipLadder := ladder payload model.sipLadder
    budgets, sipCounters, media, rtp, assertions, capture, recovery
    warnings := if e.kind = "run.warning" then warnings.drop (warnings.length - 100) else model.warnings
    firstRun := if e.kind = "run.started" then false else model.firstRun }

/-- An item of the sequence that `dict(raw)` takes, as a pair. -/
def pairOf (item : JsonValue) : Except (Raised Text) (JsonValue × JsonValue) :=
  let pair (items : List JsonValue) : Except (Raised Text) (JsonValue × JsonValue) :=
    match items with
    | [key, value] => if key.hashable then .ok (key, value) else .error (.builtin .typeError)
    | _ => .error (.builtin .valueError)
  match item with
  | .list items => pair items
  | .str text => pair (text.codes.map fun code => .str ⟨[code]⟩)
  | .dict entries => pair ((JsonDict.keys entries).dedup.map JsonValue.str)
  | _ => .error (.builtin .typeError)

/-- The record as a dict, and whether it has keys that are no texts. -/
def recordOf : JsonValue → Except (Raised Text) (JsonDict × Bool)
  | .str text =>
    match Json.loads text with
    | .ok (.dict d) => .ok (d, false)
    | .ok _ => .error (.builtin .attributeError)
    | .error (.own reason) => .error (.own reason)
    -- an integer of too many digits
    | .error (.builtin _) => .error (.builtin .valueError)
  | .dict d => .ok (d, false)
  | .list items => do
    let pairs ← items.mapM pairOf
    let named := pairs.filterMap fun pair => (pair.1.text?).map fun key => (key, pair.2)
    return (JsonDict.lastOf named, pairs.any fun pair => pair.1.text?.isNone)
  | _ => .error (.builtin .typeError)

mutual
/-- No integer is too long to be written. -/
def writable : JsonValue → Bool
  | .int n => decide (n.natAbs < 10 ^ Json.maxStrDigits)
  | .list items => writableItems items
  | .dict entries => writableEntries entries
  | _ => true

def writableItems : List JsonValue → Bool
  | [] => true
  | item :: rest => writable item && writableItems rest

def writableEntries : List (Text × JsonValue) → Bool
  | [] => true
  | (_, value) :: rest => writable value && writableEntries rest
end

/-- `decode_event`; the payload is written out to measure it. -/
def decodeRecord (record : JsonDict) (foreign : Bool) : Adapted Event :=
  let written := match (record.get? "payload").getD (.dict []) with
    | .dict payload => writableEntries payload
    | _ => true
  if foreign then .error (.builtin .typeError)
  else
    match decodeEvent record with
    | .ok e => if written then .ok e else .error (.builtin .valueError)
    | .error reason =>
      if reason = "payload exceeds 64 KiB" ∧ written = false then .error (.builtin .valueError) else reject reason

def readRecord (raw : JsonValue) (assertionSequence : Int) : Adapted (Option Event) := do
  let (record, foreign) ← recordOf raw
  if (record.find "schema").isText eventSchema then return some (← decodeRecord record foreign)
  else if record.contains "apiVersion" then adaptCampaign record
  else if record.contains "schema_version" then return some (← adaptAssertion record assertionSequence)
  else reject "unrecognized producer event schema"

/-- `except (json.JSONDecodeError, EventError, TypeError, ValueError)` -/
def caught : Raised Text → Bool
  | .own _ => true
  | .builtin kind => decide (kind = .typeError ∨ kind = .valueError)

/-- What waits in the queue: a producer's event, or the app's own report of a
record it could not read. -/
inductive Queued where
  | produced (e : Event)
  | diagnostic (sequence : Nat) (message : Text)

def Queued.event : Queued → Event
  | .produced e => e
  | .diagnostic sequence message =>
    { sequence, source := "ui-decoder", kind := "ui.schema-error", payload := [JsonDict.entry "message" (.str message)] }

structure MissionApp where
  queue : List Queued
  dropped : Nat
  bufferSequence : Nat
  diagnosticSequence : Nat
  view : ViewState
  model : DashboardModel

def MissionApp.initial : MissionApp := ⟨[], 0, 0, 0, .initial, .initial⟩

/-- What a `get` hands out. -/
inductive Taken where
  | report (count sequence : Nat)
  | queued (item : Queued)

namespace Taken

def event : Taken → Event
  | .report count sequence => (Obtained.report count sequence).event
  | .queued item => item.event

/-- The item is not a producer's. -/
def own : Taken → Bool
  | .queued (.produced _) => false
  | _ => true

end Taken

namespace MissionApp

def put (capacity : Capacity) (app : MissionApp) (item : Queued) : Bool × MissionApp :=
  if app.queue.length < capacity.val then (true, { app with queue := app.queue ++ [item] })
  else (false, { app with dropped := app.dropped + 1 })

/-- `describe` is the text of an exception that is not the app's own. -/
def ingest (describe : Builtin → Text) (capacity : Capacity) (app : MissionApp) (raw : JsonValue)
    (assertionSequence : Int) : Except Builtin Bool × MissionApp :=
  match readRecord raw assertionSequence with
  | .ok none => (.ok true, app)
  | .ok (some e) =>
    let (accepted, app) := app.put capacity (.produced e)
    (.ok accepted, app)
  | .error failure =>
    let diagnose (reason : Text) : Except Builtin Bool × MissionApp :=
      let app := { app with diagnosticSequence := app.diagnosticSequence + 1 }
      let (accepted, app) := app.put capacity (.diagnostic app.diagnosticSequence reason)
      (.ok accepted, app)
    match failure with
    | .own reason => diagnose reason
    | .builtin kind => if caught failure then diagnose (describe kind) else (.error kind, app)

def get (app : MissionApp) : Option (Taken × MissionApp) :=
  if app.dropped ≠ 0 then
    some (.report app.dropped (app.bufferSequence + 1),
      { app with dropped := 0, bufferSequence := app.bufferSequence + 1 })
  else
    match app.queue with
    | [] => none
    | item :: rest => some (.queued item, { app with queue := rest })

end MissionApp

/-- Whether `reduce_event` raises: the warning of a late event writes both numbers. -/
def ViewState.overflows (view : ViewState) (e : Event) : Bool :=
  (view.lateAfter e).any fun last => decide (10 ^ Json.maxStrDigits ≤ last)

namespace MissionApp

/-- One event of a drain; an exception leaves the view and the dashboard as they are then. -/
def turn (app : MissionApp) (e : Event) : MissionApp × Option Builtin :=
  if app.view.overflows e then (app, some .valueError)
  else
    let app := { app with view := reduceEvent app.view e }
    match applyDashboardEvent app.model e with
    | .ok model => ({ app with model }, none)
    | .error kind => (app, some kind)

def drain : Nat → MissionApp → MissionApp × Option Builtin
  | 0, app => (app, none)
  | limit + 1, app =>
    match app.get with
    | none => (app, none)
    | some (item, app) =>
      match app.turn item.event with
      | (app, none) => drain limit app
      | raised => raised

/-- The default `limit`. -/
def drainLimit : Nat := 10000

end MissionApp

inductive AppStep where
  | ingest (raw : JsonValue) (assertionSequence : Int)
  | drain

def MissionApp.next (describe : Builtin → Text) (capacity : Capacity) (app : MissionApp) : AppStep → MissionApp
  | .ingest raw assertionSequence => (app.ingest describe capacity raw assertionSequence).2
  | .drain => (app.drain drainLimit).1

end Sippycup.Telemetry
