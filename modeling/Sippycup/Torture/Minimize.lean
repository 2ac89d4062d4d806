import Sippycup.Torture.Spans

/-! Hierarchical minimisation of a failing message. Bytes and dimensions are
deleted while every trial of the smaller message still fails; the trials are
counted against a budget. The predicate may keep and change a state of its own. -/
namespace Sippycup.Torture

structure Authorization where
  destination : String
  dialogState : String
  maxPacketsPerTrial : Nat
  maxBytesPerTrial : Nat
  named : destination ≠ "" ∧ dialogState ≠ ""
  packets : 1 ≤ maxPacketsPerTrial ∧ maxPacketsPerTrial ≤ 3
  bytes : 1 ≤ maxBytesPerTrial ∧ maxBytesPerTrial ≤ 4096
  deriving DecidableEq

structure Reproducer where
  wireBytes : Bytes
  dimensions : List String
  authorization : Authorization
  deriving DecidableEq

structure TrialResult where
  failed : Bool
  actualOutcome : String
  captureFrames : List Bytes
  deriving DecidableEq

structure MinimizerLimits where
  trials : Nat
  quorum : Nat
  maxCandidates : Nat
  maxTotalPackets : Nat
  maxTotalBytes : Nat
  positive : 1 ≤ trials ∧ 1 ≤ quorum ∧ 1 ≤ maxCandidates ∧ 1 ≤ maxTotalPackets ∧ 1 ≤ maxTotalBytes
  quorumFits : quorum ≤ trials ∧ trials ≤ 9
  capped : maxCandidates ≤ 256 ∧ maxTotalPackets ≤ 768

inductive Classification
  | stable
  | flaky
  | notReproduced
  | budgetExhausted
  deriving DecidableEq

def Classification.name : Classification → String
  | stable => "stable"
  | flaky => "flaky"
  | notReproduced => "not-reproduced"
  | budgetExhausted => "budget-exhausted"

structure Verdict where
  failures : Nat
  classification : Classification
  deriving DecidableEq

structure TraceRecord where
  index : Nat
  level : String
  sha256 : String
  bytes : Nat
  dimensions : List String
  failures : Nat
  trials : Nat
  classification : String
  actualOutcomes : List String
  deriving DecidableEq

/-- A candidate that was tested, with its trials. -/
structure Tested where
  candidate : Reproducer
  results : List TrialResult
  deriving DecidableEq

/-- What a run has done so far. The last two fields are its history: every candidate given to
the predicate, and every value of the base of the reduction. -/
structure Progress (ω : Type) where
  world : ω
  trace : List TraceRecord
  candidates : Nat
  totalPackets : Nat
  totalBytes : Nat
  finalTrials : List TrialResult
  tests : List Tested
  bases : List Reproducer

/-- A `CorpusError` and the progress at which it was raised. -/
structure Failure (ω : Type) where
  message : String
  progress : Progress ω

structure Minimizer (ω : Type) where
  source : Reproducer
  predicate : Reproducer → ω → TrialResult × ω
  limits : MinimizerLimits
  expectedOutcome : String
  command : List String
  sha256 : Bytes → String
  nonempty : source.wireBytes ≠ []
  authorized : source.wireBytes.length ≤ source.authorization.maxBytesPerTrial

variable {ω : Type}

def Progress.adopt (progress : Progress ω) (base : Reproducer) : Progress ω :=
  { progress with bases := progress.bases ++ [base] }

namespace Minimizer
variable (m : Minimizer ω)

def trialsOf (candidate : Reproducer) : Nat → ω → List TrialResult × ω
  | 0, world => ([], world)
  | left + 1, world =>
    let (result, world) := m.predicate candidate world
    let (results, world) := trialsOf candidate left world
    (result :: results, world)

def classify (failures : Nat) : Classification :=
  if failures = m.limits.trials then .stable
  else if m.limits.quorum ≤ failures then .flaky
  else .notReproduced

/-- `_test` -/
def test (progress : Progress ω) (candidate : Reproducer) (level : String) :
    Except (Failure ω) (Verdict × Progress ω) :=
  if m.limits.maxCandidates ≤ progress.candidates then .ok (⟨0, .budgetExhausted⟩, progress)
  else if !candidate.wireBytes.isSublist m.source.wireBytes then
    .error ⟨"minimization attempted to introduce or reorder bytes", progress⟩
  else if !candidate.dimensions.all (· ∈ m.source.dimensions) then
    .error ⟨"minimization attempted to introduce a mutation dimension", progress⟩
  else if candidate.authorization ≠ m.source.authorization then
    .error ⟨"minimization attempted to change authorization", progress⟩
  else
    let packets := m.source.authorization.maxPacketsPerTrial * m.limits.trials
    let bytes := candidate.wireBytes.length * m.limits.trials
    if m.limits.maxTotalPackets < progress.totalPackets + packets ∨
        m.limits.maxTotalBytes < progress.totalBytes + bytes then
      .ok (⟨0, .budgetExhausted⟩, progress)
    else
      let (results, world) := m.trialsOf candidate m.limits.trials progress.world
      let failures := results.countP TrialResult.failed
      let classification := m.classify failures
      let record : TraceRecord :=
        { index := progress.candidates + 1, level, sha256 := m.sha256 candidate.wireBytes
          bytes := candidate.wireBytes.length, dimensions := candidate.dimensions, failures
          trials := m.limits.trials, classification := classification.name
          actualOutcomes := results.map TrialResult.actualOutcome }
      .ok (⟨failures, classification⟩, { progress with
        world
        trace := progress.trace ++ [record]
        candidates := progress.candidates + 1
        totalPackets := progress.totalPackets + packets
        totalBytes := progress.totalBytes + bytes
        finalTrials := results
        tests := progress.tests ++ [⟨candidate, results⟩] })

/-- Tries the removals in turn and adopts the first that leaves a stable failure. -/
def tryRemovals (progress : Progress ω) (current : Reproducer) (level : Level) :
    List (List (Nat × Nat)) → Except (Failure ω) (Option Reproducer × Progress ω)
  | [] => .ok (none, progress)
  | removal :: rest =>
    let candidate := { current with wireBytes := deleteSpans current.wireBytes removal }
    if candidate.wireBytes = [] ∨ candidate.wireBytes = current.wireBytes then
      tryRemovals progress current level rest
    else
      match m.test progress candidate level.name with
      | .error failure => .error failure
      | .ok (verdict, progress) =>
        if verdict.classification = .stable then .ok (some candidate, progress.adopt candidate)
        else tryRemovals progress current level rest

/-- `spans` in groups of `width`. -/
def groups (spans : List (Nat × Nat)) (width : Nat) : List (List (Nat × Nat)) :=
  (List.range ((spans.length + width - 1) / width)).map fun i =>
    (spans.drop (i * width)).take width

/-- Ever finer partitions, until one gives a reduction or every span has been tried alone. -/
def partition (progress : Progress ω) (current : Reproducer) (level : Level)
    (spans : List (Nat × Nat)) (partitions : Nat) (positive : 0 < partitions) :
    Except (Failure ω) (Option Reproducer × Progress ω) :=
  if _within : partitions ≤ spans.length then
    let width := (spans.length + partitions - 1) / partitions
    match m.tryRemovals progress current level (groups spans width) with
    | .error failure => .error failure
    | .ok (some reduced, progress) => .ok (some reduced, progress)
    | .ok (none, progress) =>
      if partitions = spans.length then .ok (none, progress)
      else partition progress current level spans (min spans.length (partitions * 2)) (by omega)
  else .ok (none, progress)
termination_by spans.length - partitions
decreasing_by omega

theorem tryRemovals_shorter {progress after : Progress ω} {current reduced : Reproducer}
    {level : Level} {removals : List (List (Nat × Nat))}
    (tried : m.tryRemovals progress current level removals = .ok (some reduced, after)) :
    reduced.wireBytes.length < current.wireBytes.length := by
  induction removals generalizing progress with
  | nil => cases tried
  | cons removal rest ih =>
    rw [tryRemovals] at tried
    dsimp only at tried
    split at tried
    · exact ih tried
    · rename_i useful
      split at tried
      · cases tried
      · split at tried
        · cases tried
          exact deleteSpans_shorter fun same => useful (.inr same)
        · exact ih tried

theorem partition_shorter {progress after : Progress ω} {current reduced : Reproducer}
    {level : Level} {spans : List (Nat × Nat)} {partitions : Nat} {positive : 0 < partitions}
    (found : m.partition progress current level spans partitions positive =
      .ok (some reduced, after)) :
    reduced.wireBytes.length < current.wireBytes.length := by
  fun_induction m.partition progress current level spans partitions positive with
  | case1 => cases found
  | case2 progress partitions positive within width found' progress' tried =>
    cases found
    exact m.tryRemovals_shorter tried
  | case3 => cases found
  | case4 progress partitions positive within width progress' tried finer ih => exact ih found
  | case5 => cases found

/-- `_reduce_bytes` -/
def reduceBytes (progress : Progress ω) (current : Reproducer) (level : Level) :
    Except (Failure ω) (Reproducer × Progress ω) :=
  let found := spans current.wireBytes level
  if empty : found = [] then .ok (current, progress)
  else
    match outcome : m.partition progress current level found (min 2 found.length)
        (by have := List.length_pos_iff.mpr empty; omega) with
    | .error failure => .error failure
    | .ok (none, progress) => .ok (current, progress)
    | .ok (some reduced, progress) => reduceBytes progress reduced level
termination_by current.wireBytes.length
decreasing_by exact m.partition_shorter outcome

/-- `_reduce_dimensions`; `kept` are the dimensions before the index. -/
def reduceDimensions (progress : Progress ω) (current : Reproducer) (kept : List String) :
    List String → Except (Failure ω) (Reproducer × Progress ω)
  | [] => .ok ({ current with dimensions := kept }, progress)
  | dimension :: rest =>
    let candidate := { current with dimensions := kept ++ rest }
    match m.test progress candidate "mutation-dimensions" with
    | .error failure => .error failure
    | .ok (verdict, progress) =>
      if verdict.classification = .stable then
        reduceDimensions (progress.adopt candidate) current kept rest
      else reduceDimensions progress current (kept ++ [dimension]) rest

def reduceLevels (progress : Progress ω) (current : Reproducer) :
    List Level → Except (Failure ω) (Reproducer × Progress ω)
  | [] => .ok (current, progress)
  | level :: rest =>
    match m.reduceBytes progress current level with
    | .error failure => .error failure
    | .ok (current, progress) => reduceLevels progress current rest

structure TrafficUsed where
  candidateTests : Nat
  reservedPackets : Nat
  bytes : Nat
  deriving DecidableEq

/-- The result document; the wire bytes stand for their hexadecimal text. -/
structure Result where
  schema : String
  sourceSha256 : String
  sha256 : String
  wireBytes : Bytes
  sourceBytes : Nat
  reducedBytes : Nat
  dimensions : List String
  stability : String
  quorumRequired : Nat
  quorumTrials : Nat
  expectedOutcome : String
  actualOutcomes : List String
  command : List String
  authorization : Authorization
  trafficUsed : TrafficUsed

def result (progress : Progress ω) (reduced : Reproducer) (stability : String) : Result where
  schema := "sippycup.torture-reproducer/v1"
  sourceSha256 := m.sha256 m.source.wireBytes
  sha256 := m.sha256 reduced.wireBytes
  wireBytes := reduced.wireBytes
  sourceBytes := m.source.wireBytes.length
  reducedBytes := reduced.wireBytes.length
  dimensions := reduced.dimensions
  stability := stability
  quorumRequired := m.limits.quorum
  quorumTrials := m.limits.trials
  expectedOutcome := m.expectedOutcome
  actualOutcomes := progress.finalTrials.map TrialResult.actualOutcome
  command := m.command
  authorization := reduced.authorization
  trafficUsed := ⟨progress.candidates, progress.totalPackets, progress.totalBytes⟩

def start (world : ω) : Progress ω := ⟨world, [], 0, 0, 0, [], [], []⟩

def minimize (world : ω) : Except (Failure ω) (Result × Progress ω) :=
  match m.test (start world) m.source "baseline" with
  | .error failure => .error failure
  | .ok (baseline, progress) =>
    if baseline.failures < m.limits.quorum then
      .error ⟨"source failure does not meet the configured quorum", progress⟩
    else if baseline.classification = .flaky then
      .ok (m.result progress m.source "flaky", progress)
    else
      match m.reduceLevels (progress.adopt m.source) m.source
          [.sections, .headers, .bodyLines, .values] with
      | .error failure => .error failure
      | .ok (current, progress) =>
        match m.reduceDimensions progress current [] current.dimensions with
        | .error failure => .error failure
        | .ok (current, progress) =>
          match m.test progress current "final-confirmation" with
          | .error failure => .error failure
          | .ok (final, progress) =>
            let status := if final.classification = .stable then "stable" else "flaky"
            .ok (m.result progress current status, progress)

end Minimizer
end Sippycup.Torture
