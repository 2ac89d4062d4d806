import Mathlib.Data.List.Basic

/-! Teardown of a chaos run: the traffic child is stopped first, then every
registered cleanup is tried, the last registered first. What the child and the
cleanups do to the world outside, and whether they fail, is arbitrary. -/
namespace Sippycup.Chaos

inductive Signal
  | term
  | kill
  deriving DecidableEq

/-- Outcomes of `os.killpg`; the second is `ProcessLookupError`. -/
inductive Signalled
  | sent
  | gone
  | refused
  deriving DecidableEq

inductive Raised
  | permission
  | timeoutExpired
  deriving DecidableEq

/-- A process as the lifecycle sees it. `wait` has the grace period as its timeout and says
whether the process ended within it; `join` has none. -/
structure ChildProcess (σ : Type) where
  poll : σ → Option Int × σ
  killpg : Signal → σ → Signalled × σ
  wait : σ → Bool × σ
  join : σ → σ

/-- An inverse registered for an object; it may raise, with a text. -/
structure Cleanup (σ : Type) where
  name : String
  act : σ → Option String × σ

inductive Event
  | trafficStopped (returncode : Option Int)
  | cleanupStarted
  | cleaned (operation : String) (attempts : Nat)
  | cleanupRetry (operation : String) (attempt : Nat) (error : String)
  | cleanupFailed (operation : String) (error : String)
  deriving DecidableEq

structure Teardown (σ : Type) where
  world : σ
  child : Option (ChildProcess σ)
  cleanups : List (Cleanup σ)
  cleanupStarted : Bool
  events : List Event

variable {σ : Type}

namespace ChildProcess

/-- The signals and waits for a child that has not ended. -/
def halt (child : ChildProcess σ) (world : σ) : Except Raised Unit × σ :=
  match child.killpg .term world with
  | (.refused, world) => (.error .permission, world)
  | (_, world) =>
    match child.wait world with
    | (true, world) => (.ok (), world)
    | (false, world) =>
      match child.killpg .kill world with
      | (.refused, world) => (.error .permission, world)
      | (_, world) =>
        match child.wait world with
        | (true, world) => (.ok (), world)
        | (false, world) => (.error .timeoutExpired, world)

def stop (child : ChildProcess σ) (world : σ) : Except Raised Unit × σ :=
  match child.poll world with
  | (none, world) => child.halt world
  | (some _, world) => (.ok (), child.join world)

/-- The child has ended, or can be signalled and ends within the grace period of either signal. -/
def Stops (child : ChildProcess σ) (world : σ) : Prop :=
  let polled := child.poll world
  let asked := child.killpg .term polled.2
  let waited := child.wait asked.2
  let forced := child.killpg .kill waited.2
  polled.1.isSome = true ∨
    asked.1 ≠ .refused ∧
      (waited.1 = true ∨ forced.1 ≠ .refused ∧ (child.wait forced.2).1 = true)

theorem stop_ok_iff (child : ChildProcess σ) (world : σ) :
    (child.stop world).1 = .ok () ↔ child.Stops world := by
  unfold stop Stops
  rcases polled : child.poll world with ⟨_ | code, w⟩
  · dsimp only
    unfold halt
    rcases asked : child.killpg .term w with ⟨_ | _ | _, w⟩ <;> dsimp only
    case refused => simp
    all_goals
      rcases waited : child.wait w with ⟨_ | _, w⟩ <;> dsimp only
      case true => simp
      rcases forced : child.killpg .kill w with ⟨_ | _ | _, w⟩ <;> dsimp only
      case refused => simp
      all_goals
        rcases last : child.wait w with ⟨_ | _, w⟩ <;> simp
  · simp

end ChildProcess

namespace Cleanup

/-- Up to `left` attempts: the last error, the world, and the events. -/
def retry (cleanup : Cleanup σ) : Nat → Nat → Option String → σ → Option String × σ × List Event
  | 0, _, last, world => (last, world, [])
  | left + 1, attempt, _, world =>
    match cleanup.act world with
    | (none, world) => (none, world, [.cleaned cleanup.name attempt])
    | (some error, world) =>
      let (last, world, events) := cleanup.retry left (attempt + 1) (some error) world
      (last, world, .cleanupRetry cleanup.name attempt error :: events)

/-- Three attempts; a failure is reported and the next cleanup goes on. -/
def run (cleanup : Cleanup σ) (world : σ) : List String × σ × List Event :=
  match cleanup.retry 3 1 none world with
  | (none, world, events) => ([], world, events)
  | (some error, world, events) =>
    ([s!"{cleanup.name}: {error}"], world, events ++ [.cleanupFailed cleanup.name error])

def runAll : List (Cleanup σ) → σ → List String × σ × List Event
  | [], world => ([], world, [])
  | cleanup :: rest, world =>
    let (failures, world, events) := cleanup.run world
    let (others, world, later) := runAll rest world
    (failures ++ others, world, events ++ later)

end Cleanup

namespace Teardown

def stopChild (teardown : Teardown σ) : Except Raised Unit × Teardown σ :=
  match teardown.child with
  | none => (.ok (), teardown)
  | some child =>
    match child.stop teardown.world with
    | (.error raised, world) => (.error raised, { teardown with world })
    | (.ok (), world) =>
      let (code, world) := child.poll world
      (.ok (), { teardown with
        world, child := none, events := teardown.events ++ [.trafficStopped code] })

def begin (teardown : Teardown σ) : Teardown σ := { teardown with cleanupStarted := true }

/-- `_cleanup`; the flag lets it run once. -/
def cleanup (teardown : Teardown σ) : Except Raised (List String) × Teardown σ :=
  if teardown.cleanupStarted then (.ok [], teardown)
  else
    match teardown.begin.stopChild with
    | (.error raised, stopped) => (.error raised, stopped)
    | (.ok (), stopped) =>
      let (failures, world, events) := Cleanup.runAll stopped.cleanups.reverse stopped.world
      (.ok failures, { stopped with
        world, cleanups := [], events := stopped.events ++ .cleanupStarted :: events })

end Teardown

/-- The operation whose cleanup an event concludes, and the failure it reports. -/
def Event.settles : Event → Option String
  | .cleaned operation _ => some operation
  | .cleanupFailed operation _ => some operation
  | _ => none

def Event.failure : Event → Option String
  | .cleanupFailed operation error => some s!"{operation}: {error}"
  | _ => none

/-- Every registered cleanup was tried to its end, the last registered first, and the failures
are returned. -/
structure Teardown.Completed (teardown : Teardown σ)
    (outcome : Except Raised (List String) × Teardown σ) : Prop where
  attempted : outcome.2.events.filterMap Event.settles =
    teardown.events.filterMap Event.settles ++ (teardown.cleanups.map Cleanup.name).reverse
  returned : ∃ failures, outcome.1 = .ok failures ∧
    outcome.2.events.filterMap Event.failure =
      teardown.events.filterMap Event.failure ++ failures

namespace Cleanup

/-- An attempt that succeeds concludes the cleanup; one that raises concludes nothing. -/
theorem retry_events (cleanup : Cleanup σ) (left attempt : Nat) (error : String) (world : σ) :
    let outcome := cleanup.retry left attempt (some error) world
    outcome.2.2.filterMap Event.failure = [] ∧
      outcome.2.2.filterMap Event.settles =
        if outcome.1 = none then [cleanup.name] else [] := by
  induction left generalizing attempt error world with
  | zero => exact ⟨rfl, rfl⟩
  | succ left ih =>
    rw [retry]
    rcases cleanup.act world with ⟨_ | raised, world⟩
    · exact ⟨rfl, rfl⟩
    · exact ih (attempt + 1) raised world

theorem run_events (cleanup : Cleanup σ) (world : σ) :
    (cleanup.run world).2.2.filterMap Event.settles = [cleanup.name] ∧
      (cleanup.run world).2.2.filterMap Event.failure = (cleanup.run world).1 := by
  have first : cleanup.retry 3 1 none world = cleanup.retry 3 1 (some "") world := rfl
  obtain ⟨failure, settles⟩ := cleanup.retry_events 3 1 "" world
  unfold run
  rw [first]
  rcases outcome : cleanup.retry 3 1 (some "") world with ⟨_ | error, world, events⟩
  · rw [outcome] at failure settles
    exact ⟨settles, failure⟩
  · rw [outcome] at failure settles
    dsimp only at failure settles ⊢
    rw [List.filterMap_append, List.filterMap_append, settles, failure]
    exact ⟨rfl, rfl⟩

theorem runAll_events (cleanups : List (Cleanup σ)) (world : σ) :
    (runAll cleanups world).2.2.filterMap Event.settles = cleanups.map Cleanup.name ∧
      (runAll cleanups world).2.2.filterMap Event.failure = (runAll cleanups world).1 := by
  induction cleanups generalizing world with
  | nil => exact ⟨rfl, rfl⟩
  | cons cleanup rest ih =>
    obtain ⟨settles, failure⟩ := cleanup.run_events world
    obtain ⟨later, others⟩ := ih (cleanup.run world).2.1
    rw [runAll]
    dsimp only
    rw [List.filterMap_append, List.filterMap_append, settles, failure, later, others]
    exact ⟨rfl, rfl⟩

end Cleanup

namespace Teardown

/-- The traffic child, if there is one, stops without raising. -/
def ChildStops (teardown : Teardown σ) : Prop :=
  ∀ child ∈ teardown.child, child.Stops teardown.world

theorem stopChild_ok {teardown : Teardown σ} (stops : teardown.ChildStops) :
    ∃ world child code, teardown.stopChild = (.ok (), { teardown with
      world, child, events := teardown.events ++ (code : Option Event).toList }) ∧
        ∀ e ∈ code, e.settles = none ∧ e.failure = none := by
  obtain ⟨world, child, cleanups, started, events⟩ := teardown
  cases child with
  | none => exact ⟨world, none, none, by rw [Option.toList_none, List.append_nil]; rfl, by simp⟩
  | some child =>
    have ended := (child.stop_ok_iff world).mpr (stops child rfl)
    rcases stopped : child.stop world with ⟨result, left⟩
    rw [stopped] at ended
    obtain rfl : result = .ok () := ended
    refine ⟨(child.poll left).2, none, some (.trafficStopped (child.poll left).1), ?_, ?_⟩
    · unfold stopChild
      dsimp only
      rw [stopped]
      rfl
    · intro e same
      obtain rfl := Option.some.inj same
      exact ⟨rfl, rfl⟩

theorem stopChild_error {teardown : Teardown σ} (stuck : ¬ teardown.ChildStops) :
    ∃ raised world, teardown.stopChild = (.error raised, { teardown with world }) := by
  obtain ⟨world, child, cleanups, started, events⟩ := teardown
  cases child with
  | none => exact absurd (fun _ absent => absurd absent (by simp)) stuck
  | some child =>
    have raises : (child.stop world).1 ≠ .ok () := by
      rw [ne_eq, child.stop_ok_iff]
      intro stops
      refine stuck fun other same => ?_
      obtain rfl := Option.some.inj same
      exact stops
    rcases stopped : child.stop world with ⟨raised | _, left⟩
    · refine ⟨raised, left, ?_⟩
      unfold stopChild
      dsimp only
      rw [stopped]
    · rw [stopped] at raises
      exact absurd rfl raises

/-- A child that cannot be stopped leaves every object behind, and cleaning up once more does
nothing. -/
theorem cleanup_stuck {teardown : Teardown σ} (fresh : teardown.cleanupStarted = false)
    (stuck : ¬ teardown.ChildStops) :
    ∃ raised left, teardown.cleanup = (.error raised, left) ∧ left.events = teardown.events ∧
      left.cleanups = teardown.cleanups ∧ left.cleanup = (.ok [], left) := by
  have stuck : ¬ teardown.begin.ChildStops := stuck
  obtain ⟨raised, world, stopped⟩ := stopChild_error stuck
  refine ⟨raised, { teardown.begin with world }, ?_, rfl, rfl, rfl⟩
  unfold cleanup
  rw [if_neg (by simp [fresh]), stopped]

end Teardown

/-- A child whose signals the system refuses, with one namespace to delete. -/
def refusingTeardown : Teardown Unit where
  world := ()
  child := some ⟨fun _ => (none, ()), fun _ _ => (.refused, ()), fun _ => (false, ()), id⟩
  cleanups := [⟨"namespace:test", fun _ => (none, ())⟩]
  cleanupStarted := false
  events := []

end Sippycup.Chaos
