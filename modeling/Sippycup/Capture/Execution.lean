import Sippycup.Capture.Sanitize
import Sippycup.Capture.Watchdog
import Sippycup.Machine.Effect

/-! The end of a campaign run: whichever way the run phase ends, one sequence of steps stops
the capture, removes media payload, makes the report, and writes down the result. What the
system answers to each step is given. -/
namespace Sippycup.Capture
open Sippycup.Machine
open Sippycup.Runtime (RuntimeError MediaPorts)

inductive Signal where
  | interrupt | terminate
  deriving DecidableEq

def Signal.exitCode : Signal → Int
  | .interrupt => 130
  | .terminate => 143

/-- What is raised, other than to finish. -/
inductive Failure where
  | runtime (error : RuntimeError)
  | os
  | other
  deriving DecidableEq

section run

/-- Where the run phase ended, and what it had set by then. -/
structure PhaseEnd where
  result : RunResult
  raised : Option Failure
  captureStarted : Bool
  watchdogStarted : Bool
  cancelSignal : Option Signal
  deriving DecidableEq

def PhaseEnd.start : PhaseEnd := ⟨⟨1, "failed", 0⟩, none, false, false, none⟩

def PhaseEnd.fails (p : PhaseEnd) (failure : Failure) : PhaseEnd := { p with raised := some failure }

def PhaseEnd.cancelled (p : PhaseEnd) (signal : Signal) : PhaseEnd :=
  { p with result := ⟨signal.exitCode, "cancelled", 0⟩, cancelSignal := some signal }

def PhaseEnd.finishes (p : PhaseEnd) (state : String) : PhaseEnd := { p with result := ⟨1, state, 0⟩ }

/-- How the capture process comes up, or does not. -/
inductive Startup where
  | unspawned (failure : Failure)
  | cancelled (signal : Signal)
  | exited
  | late
  | died
  | ready
  deriving DecidableEq

/-- One destination: signals seen before and after, what preflight gives, and whether traffic must stop. -/
structure PreflightAnswer where
  cancelledBefore : Option Signal
  outcome : Except Failure Bool
  cancelledAfter : Option Signal
  trafficStop : Option String

structure RunAnswers where
  startup : Startup
  preflights : List PreflightAnswer
  plan : Except Failure RunResult
  cancelledByThen : Option Signal

/-- `run_plan`, once every destination has answered. -/
def runPlan (answers : RunAnswers) (p : PhaseEnd) : PhaseEnd :=
  let seen := { p with cancelSignal := answers.cancelledByThen }
  match answers.plan with
  | .ok result => { seen with result }
  | .error failure => seen.fails failure

@[grind =] def preflight (answers : RunAnswers) (p : PhaseEnd) : List PreflightAnswer → PhaseEnd
  | [] => runPlan answers p
  | answer :: rest =>
    match answer.cancelledBefore with
    | some signal => p.cancelled signal
    | none =>
      match answer.outcome with
      | .error failure => { p.fails failure with cancelSignal := answer.cancelledAfter }
      | .ok ok =>
        match answer.cancelledAfter, answer.trafficStop with
        | some signal, _ => p.cancelled signal
        | none, some reason => p.finishes reason
        | none, none => if ok then preflight answers p rest else p.finishes "preflight_failed"

/-- The `try` block of `execute_campaign`, up to the point it is left at. -/
def runPhase (answers : RunAnswers) : PhaseEnd :=
  let captured := { PhaseEnd.start with captureStarted := true }
  match answers.startup with
  | .unspawned failure => PhaseEnd.start.fails failure
  | .cancelled signal => captured.cancelled signal
  | .exited => captured.fails (.runtime ⟨"capture process failed during startup"⟩)
  | .late => captured.fails (.runtime ⟨"capture process did not become ready"⟩)
  | .died => captured.fails (.runtime ⟨"capture process died after readiness"⟩)
  | .ready => preflight answers { captured with watchdogStarted := true } answers.preflights

end run

section finalization

inductive Handlers where
  | previous
  | requestCancel
  deriving DecidableEq

/-- What outlives the run: the signal handlers of the process, and the files of the run directory.
The manifest is an inventory, here of the result it found. -/
structure Remains where
  handlers : Handlers
  capture : Option (List Nat)
  reported : Bool
  result : Option RunResult
  finished : Bool
  manifest : Option (Option RunResult)
  deriving DecidableEq

abbrev Octets := {bytes : List Nat // ∀ byte ∈ bytes, byte < 256}

inductive ReportAnswer where
  | unspawned
  | exits (code : Int)
  /-- Still running at the deadline or when the run is cancelled, so its group is stopped. -/
  | stopped (stop : Except Failure Unit) (code : Int)

/-- The settings of the plan that finalization reads, and what the system answers. -/
structure FinalAnswers where
  retainPayload : Bool
  mediaPorts : MediaPorts
  signalingPorts : List Nat
  captureDied : Bool
  stopCapture : Except Failure Unit
  violation : Option String
  captured : Option Octets
  readCapture : Except Failure Unit
  replaceCapture : Except Failure Unit
  openReport : Except Failure Unit
  report : ReportAnswer
  cancelledInReport : Option Signal
  writeResult : Except Failure Unit
  writeTimestamps : Except Failure Unit
  writeManifest : Except Failure Unit

/-- When finalization begins nothing is written yet, and the handlers are those of the run. -/
def Remains.start (answers : FinalAnswers) : Remains where
  handlers := .requestCancel
  capture := answers.captured.map Subtype.val
  reported := false
  result := none
  finished := false
  manifest := none

abbrev Final := Eff Remains Failure

section
variable (answers : FinalAnswers) (p : PhaseEnd)

/-- `_stop_group(capture)` -/
def stopCapture : Final Unit :=
  if p.captureStarted then Eff.ofExcept answers.stopCapture else pure ()

/-- `strip_media_payload`, where the payload is not to be retained. -/
def sanitizeCapture : Final Unit := do
  let remains ← Eff.get
  match remains.capture, answers.retainPayload with
  | some raw, false => do
    Eff.ofExcept answers.readCapture
    let out ← Eff.ofExcept ((stripMediaPayload answers.mediaPorts answers.signalingPorts raw).mapError .runtime)
    Eff.ofExcept answers.replaceCapture
    Eff.modify fun remains => { remains with capture := some out }
  | _, _ => pure ()

/-- The exit code of the report, which is made of a capture only. -/
def reportCode (capture : Option (List Nat)) : Final (Option Int) :=
  match capture, answers.report with
  | none, _ => pure none
  | some _, .unspawned => pure (some 127)
  | some _, .exits code => pure (some code)
  | some _, .stopped stop code => do
    Eff.ofExcept stop
    pure (some code)

/-- The report, or the two files that say there is none. -/
def makeReport : Final (Option Int) := do
  let remains ← Eff.get
  Eff.ofExcept answers.openReport
  let code ← reportCode answers remains.capture
  Eff.modify fun remains => { remains with reported := true }
  pure code

def writeResult (result : RunResult) : Final Unit := do
  Eff.ofExcept answers.writeResult
  Eff.modify fun remains => { remains with result := some result }

def writeTimestamps : Final Unit := do
  Eff.ofExcept answers.writeTimestamps
  Eff.modify fun remains => { remains with finished := true }

def restoreHandlers : Final Unit := Eff.modify fun remains => { remains with handlers := .previous }

/-- `write_evidence_manifest` -/
def writeManifest : Final Unit := do
  Eff.ofExcept answers.writeManifest
  Eff.modify fun remains => { remains with manifest := some remains.result }

/-- The result as the last steps leave it. -/
def finalResult (reportCode : Option Int) : RunResult :=
  conclude p.result (if p.watchdogStarted then answers.violation else none)
    { captureDied := p.captureStarted && answers.captureDied
      cancelCode := (p.cancelSignal.or answers.cancelledInReport).map Signal.exitCode
      reportCode }

/-- The `finally` block of `execute_campaign`. -/
def finalize : Final RunResult := do
  stopCapture answers p
  sanitizeCapture answers
  let code ← makeReport answers
  let result := finalResult answers p code
  writeResult answers result
  writeTimestamps answers
  restoreHandlers
  writeManifest answers
  pure result

end

/-- What the call gives, and what remains: an exception of the `finally` block takes the place of the run's. -/
def executeCampaign (run : RunAnswers) (answers : FinalAnswers) : Except Failure RunResult × Remains :=
  match finalize answers (runPhase run) (Remains.start answers) with
  | (.error failure, remains) => (.error failure, remains)
  | (.ok result, remains) =>
    match (runPhase run).raised with
    | some failure => (.error failure, remains)
    | none => (.ok result, remains)

end finalization

end Sippycup.Capture
