import Sippycup.Machine.Trace
import Sippycup.Python.Checks

/-! Campaign controls: confirmations, receipts and the campaign API. What was done is
kept as a list of events; the controller itself holds the open confirmations and the
receipts by their idempotency keys. -/
namespace Sippycup.Mission
open Sippycup.Python Sippycup.Trace

/-- The methods of the campaign control API. -/
inductive Method where
  | start | pauseNewCalls | gracefulStop | emergencyStop | skipCurrent
  deriving DecidableEq

def methods : List (Text × Method) :=
  [("start", .start), ("pause-new-calls", .pauseNewCalls), ("graceful-stop", .gracefulStop),
    ("emergency-stop", .emergencyStop), ("skip", .skipCurrent)]

def dangerous : List Text := ["start", "emergency-stop", "skip"]

/-- What `secrets.token_urlsafe` gives: ASCII text that is not empty. -/
structure Token where
  text : Text
  given : text.codes ≠ []
  ascii : text.codes.all (fun code => decide (code < 128)) = true

structure Receipt where
  action : Text
  state : Text
  applied : Bool
  detail : Text
  deriving DecidableEq

/-- What a call raises: the controller's own error, a `TypeError`, or what the API raised. -/
inductive Failure where
  | control (message : Text)
  | typeError
  | api (error : Text)
  deriving DecidableEq

structure Controller where
  confirmations : Text → Option Token
  receipts : Text → Option Receipt

def Controller.initial : Controller := ⟨fun _ => none, fun _ => none⟩

/-- The arguments of `invoke`, and what the API method raises if it is called. -/
structure Invocation where
  action : Text
  phase : Text
  key : Text
  confirmation : Option Text
  apiError : Option Text

/-- What one `invoke` did. -/
structure Outcome where
  result : Except Failure Receipt
  called : Option Method
  spent : Bool

inductive Event where
  | confirmed (action : Text) (token : Token)
  | invoked (call : Invocation) (outcome : Outcome)

inductive Step where
  | request (action : Text) (token : Token)
  | invoke (call : Invocation)

/-- A dict with one more item. -/
def assign {α : Type} (d : Text → Option α) (key : Text) (value : Option α) : Text → Option α :=
  fun name => if name = key then value else d name

/-- `secrets.compare_digest` of texts: both have to be ASCII. -/
def compareDigest (given : Text) (expected : Token) : Except Failure Bool :=
  if given.codes.all (fun code => decide (code < 128)) then .ok (decide (given = expected.text))
  else .error .typeError

/-- The end of `invoke`: the API method, and its receipt if it returns. -/
def dispatch (c : Controller) (call : Invocation) (spent : Bool) : Outcome × Controller :=
  match methods.lookup call.action with
  | none => (⟨.error (.control ("unsupported campaign action: " ++ call.action)), none, spent⟩, c)
  | some method =>
    match call.apiError with
    | some error => (⟨.error (.api error), some method, spent⟩, c)
    | none =>
      let receipt : Receipt := ⟨call.action, call.phase, true, "campaign API acknowledged"⟩
      (⟨.ok receipt, some method, spent⟩, { c with receipts := assign c.receipts call.key (some receipt) })

/-- The confirmation of a dangerous action is taken off before it is compared. -/
def confirm (c : Controller) (call : Invocation) : Except Failure Unit :=
  let refused := Failure.control (call.action ++ " requires a fresh explicit confirmation")
  match c.confirmations call.action with
  | none => .error refused
  | some expected =>
    match compareDigest (call.confirmation.getD "") expected with
    | .error e => .error e
    | .ok same => if same then .ok () else .error refused

def invoke (c : Controller) (call : Invocation) : Outcome × Controller :=
  if call.key.codes = [] ∨ 128 < call.key.length then
    (⟨.error (.control "an idempotency key up to 128 characters is required"), none, false⟩, c)
  else
    match c.receipts call.key with
    | some receipt => (⟨.ok receipt, none, false⟩, c)
    | none =>
      if call.action ∈ dangerous then
        let taken := { c with confirmations := assign c.confirmations call.action none }
        match confirm c call with
        | .error e => (⟨.error e, none, true⟩, taken)
        | .ok () => dispatch taken call true
      else dispatch c call false

/-- One call on the controller; a refused request for a confirmation leaves no event. -/
def step (c : Controller) : Step → List Event × Controller
  | .request action token =>
    if action ∈ dangerous then
      ([.confirmed action token], { c with confirmations := assign c.confirmations action (some token) })
    else ([], c)
  | .invoke call =>
    let (outcome, after) := invoke c call
    ([.invoked call outcome], after)

/-- The events of a run after those of its past. -/
def run : Controller → List Event → List Step → List Event
  | _, past, [] => past
  | c, past, s :: rest =>
    let (events, after) := step c s
    run after (past ++ events) rest

/-- The event is a call of the action's API method under the key. -/
def Event.Calls (key action : Text) : Event → Prop
  | .invoked call outcome => call.key = key ∧ call.action = action ∧ methods.lookup action = outcome.called ∧
      outcome.called.isSome = true
  | _ => False

def Event.CallsUnder (key : Text) (e : Event) : Prop := ∃ action, e.Calls key action

/-- A call of a dangerous action with the token as its confirmation. -/
def Event.CallsWith (action : Text) (token : Text) : Event → Prop
  | .invoked call outcome => call.action = action ∧ outcome.called.isSome = true ∧
      call.confirmation.getD "" = token
  | _ => False

def Event.Confirms (action token : Text) : Event → Prop
  | .confirmed other given => other = action ∧ given.text = token
  | _ => False

/-- Takes the open confirmation of the action, or puts another in its place. -/
def Event.Uses (action : Text) : Event → Prop
  | .confirmed other _ => other = action
  | .invoked call outcome => call.action = action ∧ outcome.spent = true

/-- The event is an `invoke` that returned a receipt. -/
def Event.Returns (call : Invocation) (receipt : Receipt) (e : Event) : Prop :=
  ∃ outcome, e = .invoked call outcome ∧ outcome.result = .ok receipt

/-- Calls are made at most once for a key, each dangerous one on a confirmation of its own, and
receipts are those of the requested action. -/
structure Applied (events : List Event) : Prop where
  once : ∀ key, events.Pairwise fun e f => ¬ (e.CallsUnder key ∧ f.CallsUnder key)
  confirmed : ∀ action ∈ dangerous, ∀ token,
    Guarded (Event.CallsWith action token) (Pending (Event.Confirms action token) (Event.Uses action)) events
  spends : ∀ action ∈ dangerous, ∀ token, ∀ e ∈ events, e.CallsWith action token → e.Uses action
  receipts : ∀ before e after, events = before ++ e :: after → ∀ call receipt, e.Returns call receipt →
    receipt.action = call.action ∧ ∃ f ∈ before ++ [e], f.Calls call.key call.action

end Sippycup.Mission
