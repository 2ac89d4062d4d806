import Sippycup.Envelope.Plan
import Sippycup.Machine.Loop

/-! The ramp simulator: a controller in one of four states, a list of control
groups still to come, and the start time of the next level. Numbers read from a
plan's steps keep the type they have in the document. -/
namespace Sippycup.Envelope
open Sippycup.Python Sippycup.Loop

inductive Command where
  | pause | resume | stop
  deriving DecidableEq

def Command.name : Command → String
  | .pause => "pause"
  | .resume => "resume"
  | .stop => "stop"

def Command.all : List Command := [.pause, .resume, .stop]

structure Control where
  atSeconds : Nat
  command : Command
  deriving DecidableEq

def Value.command? (value : Value) : Option Command :=
  Command.all.find? fun c => value.isText c.name

/-- Checks the controls from `index` on, none earlier than `previous`. -/
@[grind =] def normalizeItems : Nat → Option Nat → List Value → Result (List Control)
  | _, _, [] => .ok []
  | index, previous, raw :: rest => do
    let item ← object raw s!"controls[{index}]"
    exactKeys item s!"controls[{index}]" ["atSeconds", "command"]
    let atSeconds ← uint (← item.item "atSeconds") s!"controls[{index}].atSeconds" true
    let value ← item.item "command"
    let known ← inSet value (Command.all.map Command.name)
    match Value.command? value, known with
    | some command, true =>
      if previous.any fun p => decide (atSeconds < p) then fail "controls must be ordered by atSeconds"
      else
        let others ← normalizeItems (index + 1) (some atSeconds) rest
        return { atSeconds, command } :: others
    | _, _ => fail s!"controls[{index}].command must be pause, resume, or stop"

def normalizeCommands (value : Value) : Result (List Control) :=
  match value with
  | .none => .ok []
  | .list commands => normalizeItems 0 none commands
  | .dict entries =>
    match Dict.get? entries "commands" with
    | some (.list commands) => normalizeItems 0 none commands
    | _ => fail "controls must be a list or an object with commands"
  | _ => fail "controls must be a list or an object with commands"

/-- The commands given at one instant, in the order given. -/
structure Group where
  atSeconds : Nat
  commands : List Command
  deriving DecidableEq

/-- Controls are ordered, so grouping by instant keeps equal neighbours together. -/
@[grind =] def groupCommands : List Control → List Group
  | [] => []
  | control :: rest =>
    match groupCommands rest with
    | [] => [⟨control.atSeconds, [control.command]⟩]
    | group :: groups =>
      if control.atSeconds = group.atSeconds then
        ⟨group.atSeconds, control.command :: group.commands⟩ :: groups
      else ⟨control.atSeconds, [control.command]⟩ :: group :: groups

inductive ControllerState where
  | running | paused | stopped | completed
  deriving DecidableEq

def ControllerState.terminal : ControllerState → Bool
  | .stopped | .completed => true
  | _ => false

inductive EventKind where
  | started | stop | pause | resume | completed | budgetStopped | stepStarted
  deriving DecidableEq

def EventKind.name : EventKind → String
  | .started => "controller.started"
  | .stop => "control.stop"
  | .pause => "control.pause"
  | .resume => "control.resume"
  | .completed => "controller.completed"
  | .budgetStopped => "controller.stopped"
  | .stepStarted => "ramp.step_started"

structure Event where
  sequence : Nat
  atSeconds : Number
  kind : EventKind
  state : ControllerState
  fields : Dict

structure Consumed where
  calls : Number
  mediaPackets : Number
  callSeconds : Number
  rampDurationSeconds : Number

/-- What the simulator reads of a validated plan. -/
structure Frozen where
  steps : List Value
  totalCalls : Number
  durationSeconds : Number
  cooldownSeconds : Number
  recoveryDeadlineSeconds : Number
  reason : Value

structure Controller where
  groups : List Group
  nextStep : Nat
  nextStart : Option Number
  state : ControllerState
  consumed : Consumed
  events : List Event

def Controller.initial (groups : List Group) : Controller where
  groups := groups
  nextStep := 0
  nextStart := some (.int 0)
  state := .running
  consumed := ⟨.int 0, .int 0, .int 0, .int 0⟩
  events := []

def Controller.emit (c : Controller) (atSeconds : Number) (kind : EventKind) (fields : Dict) :
    Controller :=
  { c with events := c.events ++ [⟨c.events.length + 1, atSeconds, kind, c.state, fields⟩] }

section
variable {α : Type}

def overflow : Option α → Result α
  | some a => .ok a
  | none => .error (.builtin .overflowError)

def checkedAddNumber (left right : Number) (field : String) : Result Number := do
  let room ← overflow (Number.sub? (.int u64Max) right)
  if room.lt left then fail s!"arithmetic overflow while calculating {field}"
  else overflow (left.add? right)

def numberItem (d : Dict) (key : String) : Result Number := do
  match (← d.item key).number? with
  | some n => return n
  | none => .error (.builtin .typeError)

def subscriptable (value : Value) : Result Dict :=
  match value with
  | .dict entries => .ok entries
  | _ => .error (.builtin .typeError)

def dictItem (d : Dict) (key : String) : Result Dict := do subscriptable (← d.item key)

def Controller.stopped (c : Controller) (group : Group) (groups : List Group) : Controller :=
  { c with groups, state := .stopped }.emit (.int group.atSeconds) .stop
    [Dict.entry "reason" (.str "operator_stop")]

def Controller.paused (c : Controller) (group : Group) (groups : List Group) : Controller :=
  { c with groups, state := .paused, nextStart := none }.emit (.int group.atSeconds) .pause []

def Controller.resumed (c : Controller) (group : Group) (groups : List Group) : Controller :=
  { c with groups, state := .running, nextStart := some (.int group.atSeconds) }.emit
    (.int group.atSeconds) .resume []

/-- Stop wins over pause, pause over resume, and any control over a ramp event
at the same instant. -/
def control (c : Controller) (group : Group) (groups : List Group) : Result (Turn Controller) :=
  if .stop ∈ group.commands then .ok (.leave (c.stopped group groups))
  else if .pause ∈ group.commands then .ok (.again (c.paused group groups))
  else if c.state ≠ .paused then fail "resume requires a paused controller"
  else .ok (.again (c.resumed group groups))

/-- Whether the step's calls, its duration or the wall clock at the end of its
recovery would exceed the authorization. The remaining duration is added up
only when the calls are within budget. -/
def budgetExhausted (plan : Frozen) (consumed : Consumed) (now calls holdSeconds : Number) :
    Result Bool := do
  let prospectiveCalls ← checkedAddNumber consumed.calls calls "consumed calls"
  let prospectiveDuration ←
    checkedAddNumber consumed.rampDurationSeconds holdSeconds "consumed ramp duration"
  let afterHold ← checkedAddNumber now holdSeconds "wall-clock hold deadline"
  let tail ← overflow (plan.cooldownSeconds.add? plan.recoveryDeadlineSeconds)
  let withRecovery ← checkedAddNumber afterHold tail "wall-clock recovery deadline"
  if plan.totalCalls.lt prospectiveCalls then return true
  else
    let remaining ← checkedAddNumber prospectiveDuration tail "remaining duration"
    return plan.durationSeconds.lt remaining || plan.durationSeconds.lt withRecovery

def Consumed.spend (consumed : Consumed) (budget : Dict) : Result Consumed := do
  let add (current : Number) (budgetKey field : String) : Result Number := do
    checkedAddNumber current (← numberItem budget budgetKey) field
  let calls ← add consumed.calls "calls" "consumed calls"
  let mediaPackets ← add consumed.mediaPackets "mediaPackets" "consumed mediaPackets"
  let callSeconds ← add consumed.callSeconds "callSeconds" "consumed callSeconds"
  let rampDurationSeconds ←
    add consumed.rampDurationSeconds "durationSeconds" "consumed rampDurationSeconds"
  return { calls, mediaPackets, callSeconds, rampDurationSeconds }

def stepDetails (fields budget : Dict) : Result Dict := do
  return [Dict.entry "step" (← fields.item "index"), Dict.entry "level" (← fields.item "level"),
    Dict.entry "intensity" (← fields.item "intensity"), Dict.entry "budget" (.dict budget)]

def Controller.exhausted (c : Controller) (now : Number) : Controller :=
  { c with state := .stopped }.emit now .budgetStopped
    [Dict.entry "reason" (.str "budget_exhausted")]

def Controller.started (c : Controller) (now : Number) (consumed : Consumed) (details : Dict)
    (nextStart : Number) : Controller :=
  { ({ c with consumed } : Controller).emit now .stepStarted details with
    nextStep := c.nextStep + 1, nextStart := some nextStart }

def startStep (plan : Frozen) (endpoint : Value → Result Unit) (c : Controller) (now : Number)
    (step : Value) : Result (Turn Controller) := do
  let fields ← subscriptable step
  let budget ← dictItem fields "budget"
  let calls ← numberItem budget "calls"
  let holdSeconds ← numberItem fields "holdSeconds"
  let exhausted ← budgetExhausted plan c.consumed now calls holdSeconds
  if exhausted then return .leave (c.exhausted now)
  else
    let consumed ← c.consumed.spend budget
    endpoint step
    let details ← stepDetails fields budget
    let nextStart ← overflow (now.add? holdSeconds)
    return .again (c.started now consumed details nextStart)

def Controller.completed (c : Controller) (now : Number) (reason : Value) : Controller :=
  { c with state := .completed }.emit now .completed [Dict.entry "reason" reason]

/-- The ramp event due at `now`; a controller that is not running ignores it. -/
def rampEvent (plan : Frozen) (endpoint : Value → Result Unit) (c : Controller) (now : Number) :
    Result (Turn Controller) :=
  if c.state ≠ .running then .ok (.again c)
  else match plan.steps[c.nextStep]? with
    | none => .ok (.leave (c.completed now plan.reason))
    | some step => startStep plan endpoint c now step

/-- One turn of the loop. `min` keeps the control time when both candidates are equal. -/
def turn (plan : Frozen) (endpoint : Value → Result Unit) (c : Controller) :
    Result (Turn Controller) :=
  if c.state.terminal then .ok (.leave c)
  else match c.groups, c.nextStart with
    | [], none => .ok (.leave c)
    | [], some start => rampEvent plan endpoint c start
    | group :: groups, none => control c group groups
    | group :: groups, some start =>
      if start.lt (.int group.atSeconds) then rampEvent plan endpoint c start
      else control c group groups

structure Simulation where
  state : ControllerState
  startedSteps : Nat
  testedLevels : List Value
  consumedWorstCase : Consumed
  events : List Event

def Event.level? (event : Event) : Option Value :=
  if event.kind = .stepStarted then event.fields.get? "level" else none

def Controller.summary (c : Controller) : Simulation where
  state := c.state
  startedSteps := c.nextStep
  testedLevels := c.events.filterMap Event.level?
  consumedWorstCase := c.consumed
  events := c.events

def freeze (plan : Dict) : Result Frozen := do
  let maxima ← dictItem (← dictItem plan "authorization") "hardMaxima"
  let steps ← match ← plan.item "steps" with
    | .list steps => pure steps
    | _ => Except.error (.builtin .typeError)
  return {
    steps
    totalCalls := ← numberItem maxima "totalCalls"
    durationSeconds := ← numberItem maxima "durationSeconds"
    cooldownSeconds := ← numberItem maxima "cooldownSeconds"
    recoveryDeadlineSeconds := ← numberItem maxima "recoveryDeadlineSeconds"
    reason := ← (← dictItem plan "termination").item "reason" }

def prepare (plan controls : Value) : Result (Frozen × List Group) := do
  let validated ← validateEnvelopePlan plan
  let commands ← normalizeCommands controls
  return (← freeze validated, groupCommands commands)

/-- Every turn consumes a control group, starts a step or leaves the loop. -/
def simulateEnvelopePlan (plan controls : Value) (endpoint : Value → Result Unit) :
    Option (Result Simulation) :=
  match prepare plan controls with
  | .error error => some (.error error)
  | .ok (frozen, groups) =>
    let start := (Controller.initial groups).emit (.int 0) .started []
    (Loop.run (turn frozen endpoint) (groups.length + frozen.steps.length + 1) start).map
      fun result => result.map Controller.summary

end
end Sippycup.Envelope
