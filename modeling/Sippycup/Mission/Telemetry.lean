import Sippycup.Python.JsonValue

/-! Mission-control telemetry: decoding of producer records, the view's reducer, and the
bounded buffer between producers and the consumer that drains it. -/
namespace Sippycup.Telemetry
open Sippycup.Python

structure Event where
  sequence : Nat
  source : Text
  kind : Text
  payload : JsonDict

inductive Phase where
  | planning | ready | running | warning | stopping | recovery | complete | failed
  deriving DecidableEq

def kindToPhase : List (Text × Phase) :=
  [("plan.started", .planning), ("plan.ready", .ready), ("run.started", .running),
    ("run.warning", .warning), ("stop.requested", .stopping), ("recovery.started", .recovery),
    ("run.completed", .complete), ("assertions.passed", .complete), ("run.failed", .failed),
    ("assertions.failed", .failed)]

def phaseActions : Phase → List Text
  | .planning => ["stop", "quit"]
  | .ready => ["start", "stop", "quit"]
  | .running | .warning => ["stop", "note", "bookmark", "quit"]
  | .stopping | .recovery => ["stop", "note", "quit"]
  | .complete | .failed => ["stop", "termshark", "note", "quit"]

structure ViewState where
  phase : Phase
  lastSequence : Text → Option Nat
  processed : Nat
  dropped : Nat
  late : Nat
  schemaErrors : Nat
  warnings : List Text
  actions : List Text
  latest : Option Event

def ViewState.initial : ViewState where
  phase := .planning
  lastSequence := fun _ => none
  processed := 0
  dropped := 0
  late := 0
  schemaErrors := 0
  warnings := []
  actions := ["stop", "quit"]
  latest := none

def eventSchema : Text := "sippycup.ui-event/v1"

def eventFields : List Text := ["schema", "sequence", "source", "kind", "payload"]

/-- `sorted(set(value) - {...})` -/
def unknownFields (value : JsonDict) : List Text :=
  sortTexts (value.keys.dedup.filter fun name => name ∉ eventFields)

/-- A text that is not empty and not too long. -/
def shortText (value : JsonValue) (limit : Nat) : Option Text :=
  match value with
  | .str t => if t.codes ≠ [] ∧ t.length ≤ limit then some t else none
  | _ => none

def refuse {α : Type} (reason : Text) : Except Text α := .error reason

def decodeEvent (value : JsonDict) : Except Text Event := do
  let unknown := unknownFields value
  if unknown ≠ [] then refuse ("unknown event fields: " ++ Text.join ", " unknown)
  let schema := value.find "schema"
  if schema.isText eventSchema = false then
    refuse ("unsupported event schema: " ++ Text.mk schema.repr)
  let .int sequence := value.find "sequence" | refuse "sequence must be a non-negative integer"
  if sequence < 0 then refuse "sequence must be a non-negative integer"
  let some source := shortText (value.find "source") 64
    | refuse "source must be a non-empty string up to 64 characters"
  let some kind := shortText (value.find "kind") 96
    | refuse "kind must be a non-empty string up to 96 characters"
  let .dict payload := (value.get? "payload").getD (.dict []) | refuse "payload must be an object"
  if 65536 < (JsonValue.dict payload).canonical.length then refuse "payload exceeds 64 KiB"
  return { sequence := sequence.toNat, source, kind, payload }

def intText (n : Int) : Text := ⟨intCodes n⟩

/-- The last hundred. -/
def recent (warnings : List Text) : List Text := warnings.drop (warnings.length - 100)

/-- `count if type(count) is int and count >= 1 else 1` -/
def droppedCount (payload : JsonDict) : Nat :=
  match payload.get? "count" with
  | some (.int count) => if 1 ≤ count then count.toNat else 1
  | _ => 1

def message (payload : JsonDict) (default : Text) : Text :=
  ((payload.get? "message").map JsonValue.toStr).getD default

namespace ViewState

/-- The last sequence number of the event's source, if the event is not newer. -/
def lateAfter (state : ViewState) (e : Event) : Option Nat :=
  (state.lastSequence e.source).filter fun last => decide (e.sequence ≤ last)

/-- The part of the update that every event makes that is not late. -/
def taken (state : ViewState) (e : Event) : ViewState :=
  { state with
    lastSequence := fun source => if source = e.source then some e.sequence else state.lastSequence source
    processed := state.processed + 1 }

end ViewState

def reduceEvent (state : ViewState) (e : Event) : ViewState :=
  match state.lateAfter e with
  | some last =>
    { state with
      late := state.late + 1
      warnings := recent (state.warnings ++ ["late event from " ++ e.source ++ ": sequence " ++
        intText e.sequence ++ " after " ++ intText last]) }
  | none =>
    if e.kind = "ui.dropped" then
      { state.taken e with
        phase := .warning
        dropped := state.dropped + droppedCount e.payload
        warnings := recent (state.warnings ++
          [intText (droppedCount e.payload) ++ " producer event(s) dropped by backpressure"])
        actions := phaseActions .warning }
    else if e.kind = "ui.schema-error" then
      { state.taken e with
        phase := .warning
        schemaErrors := state.schemaErrors + 1
        warnings := recent (state.warnings ++ [message e.payload "producer schema mismatch"])
        actions := phaseActions .warning }
    else
      let phase := (kindToPhase.lookup e.kind).getD state.phase
      { state.taken e with
        phase
        warnings := recent (if e.kind = "run.warning" then
          state.warnings ++ [message e.payload "runtime warning"] else state.warnings)
        actions := phaseActions phase
        latest := some e }

def replay (events : List Event) : ViewState := events.foldl reduceEvent .initial

/-- Whether `Metric` takes the status a metric of the payload gives. -/
def metricOk : JsonValue → Bool
  | .dict d => (["good", "warning", "unknown", "stale"] : List Text).contains
      (((JsonDict.get? d "status").map JsonValue.toStr).getD "unknown")
  | _ => true

def groupOk : Option JsonValue → Bool
  | some (.dict metrics) => metrics.all fun item => metricOk item.2
  | _ => true

/-- Whether `apply_dashboard_event` returns; it raises for a metric with another status. -/
def shown (payload : JsonDict) : Bool :=
  (["budgets", "sipCounters", "media", "rtp", "assertions"] : List Text).all
      (fun name => groupOk (payload.get? name)) &&
    (["capture", "recovery"] : List Text).all fun name => ((payload.get? name).map metricOk).getD true

/-- What `get` returns: an event from the queue, or the buffer's own report of drops. -/
inductive Obtained where
  | delivered (e : Event)
  | report (count sequence : Nat)

namespace Obtained

def event : Obtained → Event
  | .delivered e => e
  | .report count sequence =>
    { sequence, source := "ui-buffer", kind := "ui.dropped", payload := [JsonDict.entry "count" (.int count)] }

def delivered? : Obtained → Option Event
  | .delivered e => some e
  | .report _ _ => none

/-- The drops an item reports. -/
def reported : Obtained → Nat
  | .delivered _ => 0
  | .report count _ => count

end Obtained

def Capacity : Type := { size : Nat // 1 ≤ size ∧ size ≤ 10000 }

/-- The buffer, the calls in progress, and what has happened: `refusing` puts found the queue
full and have not counted that, `waiting` gets found no drop to report. -/
structure Buffer where
  queue : List Event
  dropped : Nat
  diagnosticSequence : Nat
  refusing : Nat
  waiting : Nat
  accepted : List Event
  refused : Nat
  obtained : List Obtained

def Buffer.initial : Buffer := ⟨[], 0, 0, 0, 0, [], 0, []⟩

/-- The steps of `put` and `get` between two lock or queue operations, of any number of threads. -/
inductive Step (capacity : Capacity) : Buffer → Buffer → Prop where
  | accept (b : Buffer) (record : JsonDict) (e : Event) (decoded : decodeEvent record = .ok e)
    (room : b.queue.length < capacity.val) :
    Step capacity b { b with queue := b.queue ++ [e], accepted := b.accepted ++ [e] }
  | refuse (b : Buffer) (full : capacity.val ≤ b.queue.length) :
    Step capacity b { b with refusing := b.refusing + 1, refused := b.refused + 1 }
  | count (b : Buffer) (n : Nat) (refusing : b.refusing = n + 1) :
    Step capacity b { b with refusing := n, dropped := b.dropped + 1 }
  | report (b : Buffer) (drops : b.dropped ≠ 0) :
    Step capacity b { b with
      dropped := 0
      diagnosticSequence := b.diagnosticSequence + 1
      obtained := b.obtained ++ [.report b.dropped (b.diagnosticSequence + 1)] }
  | wait (b : Buffer) (none : b.dropped = 0) : Step capacity b { b with waiting := b.waiting + 1 }
  | take (b : Buffer) (n : Nat) (e : Event) (rest : List Event) (waiting : b.waiting = n + 1)
    (head : b.queue = e :: rest) :
    Step capacity b { b with waiting := n, queue := rest, obtained := b.obtained ++ [.delivered e] }
  | giveUp (b : Buffer) (n : Nat) (waiting : b.waiting = n + 1) (empty : b.queue = []) :
    Step capacity b { b with waiting := n }

def Reachable (capacity : Capacity) : Buffer → Prop := Relation.ReflTransGen (Step capacity) .initial

/-- The consumer: the view, and how often `task_done` was called on the queue. -/
structure Consumer where
  view : ViewState
  tasksDone : Nat

/-- One turn of `drain` with an event that `get` gave. An event that cannot be shown raises
before `task_done`. -/
def Consumer.turn (c : Consumer) (e : Event) : Consumer :=
  { view := reduceEvent c.view e
    tasksDone := if shown e.payload = true ∧ e.source ≠ "ui-buffer" then c.tasksDone + 1 else c.tasksDone }

def consume (obtained : List Obtained) : Consumer :=
  obtained.foldl (fun c o => c.turn o.event) ⟨.initial, 0⟩

namespace Buffer

def delivered (b : Buffer) : List Event := b.obtained.filterMap Obtained.delivered?

/-- No event is left, and every drop has been reported. -/
structure Drained (b : Buffer) : Prop where
  queue : b.queue = []
  dropped : b.dropped = 0
  refusing : b.refusing = 0

/-- Drop telemetry is exact: refused puts are counted, accepted events come once and in order,
each has its `task_done`, and only the reports move the counter. -/
structure Exact (b : Buffer) : Prop where
  dropped : (consume b.obtained).view.dropped = b.refused
  delivered : b.delivered = b.accepted
  tasks : (consume b.obtained).tasksDone = b.delivered.length
  reports : ∀ before o after, b.obtained = before ++ o :: after →
    (consume (before ++ [o])).view.dropped = (consume before).view.dropped + o.reported

end Buffer

/-- No event poses as the buffer's own, none has a metric the dashboard refuses, and an event of
the kind of a drop report is late in its source. -/
structure Fair (events : List Event) : Prop where
  source : ∀ e ∈ events, e.source ≠ "ui-buffer"
  shown : ∀ e ∈ events, shown e.payload = true
  late : ∀ before e after, events = before ++ e :: after → e.kind = ("ui.dropped" : Text) →
    ∃ f ∈ before, f.source = e.source ∧ e.sequence ≤ f.sequence

end Sippycup.Telemetry
