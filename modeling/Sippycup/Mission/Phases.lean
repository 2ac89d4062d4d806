import Sippycup.Mission.Telemetry

/-! The phase a mission-control view shows: the adapters give campaign records and oracle results
their kinds, and the reducer takes the phase of the last event that has one. -/
namespace Sippycup.Telemetry
open Sippycup.Python

def campaignKinds : List (Text × Text) :=
  [("campaign.started", "run.started"), ("campaign.stop_requested", "stop.requested"),
    ("campaign.succeeded", "run.completed"), ("campaign.failed", "run.failed"),
    ("campaign.timed_out", "run.failed"), ("campaign.cancelled", "run.failed"),
    ("step.output_truncated", "run.warning"), ("step.start_failed", "run.warning"),
    ("step.failed", "run.warning"), ("step.timed_out", "run.warning")]

def safeFields : List Text :=
  ["state", "step", "completedSteps", "stepCount", "case", "retainedBytes", "droppedBytes", "exitCode", "reason"]

abbrev Adapted := Except (Raised Text)

def reject {α : Type} (reason : Text) : Adapted α := .error (.own reason)

def adaptCampaign (record : JsonDict) : Adapted (Option Event) := do
  if (record.find "apiVersion").isText "sippycup.dev/events/v1" = false then
    reject "unsupported campaign event schema"
  let .int sequence := record.find "sequence" | reject "campaign sequence must be a positive integer"
  if sequence < 1 then reject "campaign sequence must be a positive integer"
  let .str campaign := record.find "campaign" | reject "campaign name is required"
  if campaign.codes = [] then reject "campaign name is required"
  let .str producerKind := record.find "event" | reject "campaign event kind is required"
  let some kind := campaignKinds.lookup producerKind | return none
  let fields : JsonDict := safeFields.filterMap fun name => (record.get? name).map fun value => (name, value)
  let note : JsonDict := if kind = "run.warning" then [("message", .str producerKind)] else []
  let producer : JsonDict := [("producerEvent", .str producerKind)]
  return some {
    sequence := sequence.toNat, source := "campaign:" ++ campaign, kind
    payload := fields ++ note ++ producer }

def countOf (summary : JsonDict) (name : Text) : Adapted (Text × JsonValue) :=
  match (summary.get? name).getD (.int 0) with
  | .int count =>
    if count < 0 then reject "assertion summary counts must be non-negative integers"
    else .ok (name, .int count)
  | _ => reject "assertion summary counts must be non-negative integers"

def adaptAssertion (record : JsonDict) (sequence : Int) : Adapted Event := do
  if (record.find "schema_version").isText "sippycup.results/v1" = false then
    reject "unsupported assertion result schema"
  if sequence < 1 then reject "assertion sequence must be a positive integer"
  let verdict := record.find "verdict"
  if verdict.hashable = false then .error (.builtin .typeError)
  if ["pass", "fail", "unknown"].any (fun name => verdict.isText name) = false then
    reject "assertion verdict and summary are required"
  let .dict summary := record.find "summary" | reject "assertion verdict and summary are required"
  let counts ← ["pass", "fail", "unknown"].mapM (countOf summary)
  return {
    sequence := sequence.toNat, source := "oracle"
    kind := if verdict.isText "pass" then "assertions.passed" else "assertions.failed"
    payload := [("verdict", verdict), ("summary", .dict counts)] }

section phases
variable {state : ViewState} {e : Event} {before after events : List Event} {phase : Phase}

/-- The phase an event shows when it is applied, if it shows one. -/
def shownPhase (e : Event) : Option Phase :=
  if e.kind = "ui.dropped" ∨ e.kind = "ui.schema-error" then some .warning else kindToPhase.lookup e.kind

/-- The events that are not late when they come. -/
def applied : ViewState → List Event → List Event
  | _, [] => []
  | state, e :: rest =>
    if state.lateAfter e = none then e :: applied (reduceEvent state e) rest else applied (reduceEvent state e) rest

theorem applied_subset (state : ViewState) (events : List Event) : applied state events ⊆ events := by
  induction events generalizing state with
  | nil => exact List.Subset.refl _
  | cons e rest ih =>
    rw [applied]
    split
    · exact List.cons_subset_cons e (ih _)
    · exact List.subset_cons_of_subset e (ih _)

/-- The step: a late event leaves the phase, any other one sets the phase it shows. -/
theorem reduceEvent_phase (state : ViewState) (e : Event) : (reduceEvent state e).phase =
    if state.lateAfter e = none then (shownPhase e).getD state.phase else state.phase := by
  unfold reduceEvent shownPhase
  cases late : state.lateAfter e with
  | some last => rfl
  | none =>
    dsimp only
    rw [if_pos rfl]
    by_cases dropped : e.kind = "ui.dropped"
    · rw [if_pos dropped, if_pos (.inl dropped)]
      rfl
    · rw [if_neg dropped]
      by_cases malformed : e.kind = "ui.schema-error"
      · rw [if_pos malformed, if_pos (.inr malformed)]
        rfl
      · rw [if_neg malformed, if_neg (not_or.mpr ⟨dropped, malformed⟩)]

/-- The phases shown by the events applied, in turn. -/
def shownPhases (state : ViewState) (events : List Event) : List Phase := (applied state events).filterMap shownPhase

theorem foldl_phase (state : ViewState) (events : List Event) :
    (events.foldl reduceEvent state).phase = (shownPhases state events).getLast?.getD state.phase := by
  induction events generalizing state with
  | nil => rfl
  | cons e rest ih =>
    rw [List.foldl_cons, ih, reduceEvent_phase, shownPhases, shownPhases, applied]
    by_cases fresh : state.lateAfter e = none
    · rw [if_pos fresh, if_pos fresh, List.filterMap_cons]
      cases shown : shownPhase e with
      | none => rfl
      | some phase =>
        dsimp only
        rw [List.getLast?_cons]
        rfl
    · rw [if_neg fresh, if_neg fresh]

def IsFailure (e : Event) : Prop := e.kind = "run.failed" ∨ e.kind = "assertions.failed"

/-- A new plan or run. -/
def Restarts (e : Event) : Prop := e.kind = "plan.started" ∨ e.kind = "plan.ready" ∨ e.kind = "run.started"

theorem shownPhase_failure (failure : IsFailure e) : shownPhase e = some .failed := by
  rcases failure with kind | kind
  · rw [shownPhase, kind]
    decide
  · rw [shownPhase, kind]
    decide

/-- Once a failure is applied, the view shows it exactly as long as no event applied later shows
another phase, or the last one that shows a phase is a failure again. -/
theorem failure_shown_iff (state : ViewState) (before after : List Event) (e : Event) (failure : IsFailure e)
    (fresh : (before.foldl reduceEvent state).lateAfter e = none) :
    ((before ++ e :: after).foldl reduceEvent state).phase = .failed ↔
      ∀ phase ∈ (shownPhases (reduceEvent (before.foldl reduceEvent state) e) after).getLast?, phase = .failed := by
  have failed : (reduceEvent (before.foldl reduceEvent state) e).phase = .failed := by
    rw [reduceEvent_phase, if_pos fresh, shownPhase_failure failure]
    rfl
  rw [List.foldl_append, List.foldl_cons, foldl_phase, failed]
  cases last : (shownPhases (reduceEvent (before.foldl reduceEvent state) e) after).getLast? with
  | none =>
    constructor
    · intro _ phase impossible
      cases impossible
    · intro _
      rfl
  | some phase =>
    constructor
    · rintro same _ ⟨⟩
      exact same
    · intro all
      exact all phase rfl

/-- A failure stays until a new plan or run. -/
def FailureSticks : Prop :=
  ∀ before e after, IsFailure e → (replay before).lateAfter e = none →
    (∀ f ∈ applied (reduceEvent (replay before) e) after, ¬ Restarts f) → (replay (before ++ e :: after)).phase = .failed

/-- The record of a failed campaign, and the result of a capture in which every assertion passed. -/
def failedCampaign : JsonDict :=
  [("apiVersion", .str "sippycup.dev/events/v1"), ("sequence", .int 9), ("campaign", .str "lab"),
    ("event", .str "campaign.failed"), ("state", .str "failed"), ("completedSteps", .int 2)]

def passedOracle : JsonDict :=
  [("schema_version", .str "sippycup.results/v1"), ("verdict", .str "pass"),
    ("summary", .dict [("pass", .int 4), ("fail", .int 0), ("unknown", .int 0)])]

theorem passing_oracle_hides_failure : ∃ e f, adaptCampaign failedCampaign = .ok (some e) ∧
    adaptAssertion passedOracle 1 = .ok f ∧ IsFailure e ∧ ¬ Restarts f ∧ (replay [e, f]).phase = .complete := by
  refine ⟨_, _, rfl, rfl, .inl rfl, ?_, rfl⟩
  rintro (kind | kind | kind)
  · exact absurd kind (by decide)
  · exact absurd kind (by decide)
  · exact absurd kind (by decide)

theorem failure_not_sticky : ¬ FailureSticks := by
  intro sticks
  obtain ⟨e, f, -, -, failure, same, complete⟩ := passing_oracle_hides_failure
  have only : ∀ g ∈ applied (reduceEvent (replay []) e) [f], ¬ Restarts g := by
    intro g member
    rw [List.mem_singleton.mp (applied_subset _ _ member)]
    exact same
  have failed := sticks [] e [f] failure rfl only
  rw [List.nil_append, complete] at failed
  cases failed

def eventOf (sequence : Nat) (source kind : Text) : Event := { sequence, source, kind, payload := [] }

/-- A failure is shown, a malformed record after it hides it, and a failed assertion shows it again. -/
theorem failure_shown_again :
    (replay [eventOf 1 "campaign:lab" "run.failed", eventOf 1 "ui-decoder" "ui.schema-error"]).phase ≠ .failed ∧
      (replay [eventOf 1 "campaign:lab" "run.failed", eventOf 1 "ui-decoder" "ui.schema-error",
        eventOf 1 "oracle" "assertions.failed"]).phase = .failed := by
  constructor
  · intro shown
    have last := (failure_shown_iff .initial [] [eventOf 1 "ui-decoder" "ui.schema-error"]
      (eventOf 1 "campaign:lab" "run.failed") (.inl rfl) rfl).mp shown
    exact absurd (last .warning (by decide +kernel)) (by decide)
  · refine (failure_shown_iff .initial [] [eventOf 1 "ui-decoder" "ui.schema-error",
      eventOf 1 "oracle" "assertions.failed"] (eventOf 1 "campaign:lab" "run.failed") (.inl rfl) rfl).mpr ?_
    decide +kernel

end phases

end Sippycup.Telemetry
