import Sippycup.Envelope.Authority
import Sippycup.Envelope.Simulate
import Sippycup.Python.Rounding
import Sippycup.Python.Sha256

/-! What the simulator reads of an accepted plan. The authorization is checked
field by field, so its numbers are integers. The steps are only compared with a
recompilation: each number there equals the compiled one, in any numeric type. -/
namespace Sippycup.Envelope
open Sippycup.Python

theorem object_ok {value : Value} {field : String} {d : Dict} :
    object value field = .ok d ↔ value = .dict d := by
  cases value <;> simp [object, fail]

theorem normalizeMaxima_reads {value : Value} {field : String} {maxima : Maxima}
    (result : normalizeMaxima value field = .ok maxima) :
    ∃ d : Dict, value = .dict d ∧ ∀ key : MaximaKey, d.get? key.name = some (.int (maxima key)) := by
  simp only [normalizeMaxima, bind_ok, object_ok] at result
  obtain ⟨d, rfl, _, _, collected⟩ := result
  refine ⟨d, rfl, fun key => ?_⟩
  obtain ⟨item, found, number⟩ := bind_ok.mp (collect_ok collected key (mem_maximaKeys key))
  obtain ⟨rfl, _, _⟩ := uint_ok.1 number
  exact Dict.item_ok.mp found

/-- The document of an accepted plan: a compiled plan's up to `==`, with the
authorization it was compiled from. -/
structure Accepts (plan : EnvelopePlan) (document : Dict) : Prop where
  authority : plan.WithinAuthority
  same : plan.value.eq (.dict document) = true
  maxima : ∃ authorization maxima : Dict,
    document.get? "authorization" = some (.dict authorization) ∧
    authorization.get? "hardMaxima" = some (.dict maxima) ∧
    ∀ key : MaximaKey, maxima.get? key.name = some (.int (plan.hardMaxima key))

theorem validateEnvelopePlan_ok {value : Value} {document : Dict}
    (result : validateEnvelopePlan value = .ok document) :
    value = .dict document ∧ ∃ plan, Accepts plan document := by
  simp only [validateEnvelopePlan, bind_ok, object_ok] at result
  obtain ⟨plan, rfl, _, _, version, _, kind, _, result⟩ := result
  split at result
  · cases result
  · simp only [bind_ok, object_ok, Dict.item_ok] at result
    obtain ⟨_, _, metadata, rfl, _, _, _, auth, authorization, rfl, _, _, _, _, name, _, _, _,
      source, sourceOk, _, hard, maxima, maximaOk, _, _, workload, workloadOk, _, _, ramp, rampOk,
      _, _, digest, _, result⟩ := result
    split at result
    · cases result
    · rename_i reduced
      simp only [List.any_eq_true, decide_eq_true_eq, not_exists, not_and, Nat.not_lt] at reduced
      obtain ⟨_, constraints, expected, compiled, result⟩ := by
        simpa only [bind_ok] using result
      split at result
      · cases result
      · rename_i same
        obtain rfl := pure_ok.mp result
        have checked : ({ name, sourceMaxima := source, maxima, workload, ramp } :
            Normalized).Checked := {
          sourceBounded := fun key => (normalizeMaxima_ok sourceOk key).2
          positive := fun key => (normalizeMaxima_ok maximaOk key).1
          reduced := fun key => reduced key (mem_maximaKeys key)
          workloadBounded := fun key => (normalizeWorkload_ok workloadOk key).2
          stepPositive := (normalizeRamp_ok rampOk).1
          stepBounded := (normalizeRamp_ok rampOk).2
          startWithin := (validateConstraints_ok constraints).2 }
        obtain ⟨authority, kept⟩ := compileNormalized_ok checked compiled
        obtain ⟨entries, rfl, read⟩ := normalizeMaxima_reads maximaOk
        refine ⟨rfl, expected, authority, by simpa using same, authorization, entries, auth, hard, ?_⟩
        rw [kept]
        exact read

/-- A number of an accepted plan, read under `key` where the compiled plan has `n`. -/
def ReadsNumber (floats : Bool) (d : Dict) (key : String) (n : Nat) : Prop :=
  ∃ a, (numberItem d key : Result Number) = .ok a ∧ a.Counts floats n

/-- The numbers of a step's document that the simulator calculates with. -/
def spentNumbers (step : Value) : List Value :=
  match step with
  | .dict fields =>
    match Dict.get? fields "budget" with
    | some (.dict budget) => Dict.getD fields "holdSeconds" .none ::
        ["calls", "mediaPackets", "callSeconds", "durationSeconds"].map
          fun (key : String) => Dict.getD budget key .none
    | _ => []
  | _ => []

/-- The document of a step, as far as the simulator reads it. -/
structure Priced (floats : Bool) (step : PlanStep) (fields budget : Dict) : Prop where
  budgetRead : fields.get? "budget" = some (.dict budget)
  holdSeconds : ReadsNumber floats fields "holdSeconds" step.holdSeconds
  calls : ReadsNumber floats budget "calls" step.budget.calls
  mediaPackets : ReadsNumber floats budget "mediaPackets" step.budget.mediaPackets
  callSeconds : ReadsNumber floats budget "callSeconds" step.budget.callSeconds
  durationSeconds : ReadsNumber floats budget "durationSeconds" step.budget.durationSeconds
  index : ∃ value, fields.get? "index" = some value
  level : ∃ value, fields.get? "level" = some value ∧ (nat step.level).eq value = true
  intensity : ∃ value, fields.get? "intensity" = some value

theorem readsNumber {floats : Bool} {d : Dict} {key : String} {n : Nat} {value : Value}
    (found : d.get? key = some value) (same : (nat n).eq value = true)
    (whole : floats = false → value.isFloat = false) : ReadsNumber floats d key n := by
  obtain ⟨a, number, equal⟩ := Value.eq_int.mp same
  refine ⟨a, by simp [numberItem, Dict.item_ok.mpr found, number, pure, Except.pure], ?_⟩
  cases a with
  | int m =>
    simp only [Number.eq_int, decide_eq_true_eq] at equal
    exact .inl (by rw [equal])
  | float x =>
    rw [Number.eq_int_float] at equal
    have written : value = .float x := by
      cases value <;> simp_all [Value.number?]
    subst written
    refine .inr ⟨by simpa [Value.isFloat] using whole, x, rfl, .inl ?_⟩
    simpa using equal

theorem priced_of_eq {floats : Bool} {step : PlanStep} {value : Value}
    (same : (stepValue step).eq value = true)
    (whole : floats = false → ∀ number ∈ spentNumbers value, number.isFloat = false) :
    ∃ fields budget, value = .dict fields ∧ Priced floats step fields budget := by
  obtain ⟨fields, rfl, read⟩ := Value.eq_dict same
  obtain ⟨budgetValue, budgetRead, budgetSame⟩ := read "budget" (budgetValue step.budget) (by simp)
  obtain ⟨budget, rfl, spent⟩ := Value.eq_dict budgetSame
  obtain ⟨hold, holdRead, holdSame⟩ := read "holdSeconds" (nat step.holdSeconds) (by simp)
  obtain ⟨calls, callsRead, callsSame⟩ := spent "calls" (nat step.budget.calls) (by simp)
  obtain ⟨media, mediaRead, mediaSame⟩ := spent "mediaPackets" (nat step.budget.mediaPackets) (by simp)
  obtain ⟨seconds, secondsRead, secondsSame⟩ := spent "callSeconds" (nat step.budget.callSeconds) (by simp)
  obtain ⟨duration, durationRead, durationSame⟩ := spent "durationSeconds" (nat step.budget.durationSeconds) (by simp)
  obtain ⟨index, indexRead, _⟩ := read "index" (nat step.index) (by simp)
  obtain ⟨level, levelRead, levelSame⟩ := read "level" (nat step.level) (by simp)
  obtain ⟨intensity, intensityRead, _⟩ := read "intensity"
    (.dict (dimensions.map fun d => Dict.entry d.name (nat (step.intensity d)))) (by simp)
  have numbers : spentNumbers (.dict fields) = [hold, calls, media, seconds, duration] := by
    simp [spentNumbers, budgetRead, Dict.getD, holdRead, callsRead, mediaRead, secondsRead,
      durationRead]
  rw [numbers] at whole
  exact ⟨fields, budget, rfl, {
    budgetRead := budgetRead
    holdSeconds := readsNumber holdRead holdSame fun off => whole off _ (by simp)
    calls := readsNumber callsRead callsSame fun off => whole off _ (by simp)
    mediaPackets := readsNumber mediaRead mediaSame fun off => whole off _ (by simp)
    callSeconds := readsNumber secondsRead secondsSame fun off => whole off _ (by simp)
    durationSeconds := readsNumber durationRead durationSame fun off => whole off _ (by simp)
    index := ⟨index, indexRead⟩
    level := ⟨level, levelRead, levelSame⟩
    intensity := ⟨intensity, intensityRead⟩ }⟩

/-- What the simulator keeps of an accepted plan. -/
structure Freezes (plan : EnvelopePlan) (frozen : Frozen) : Prop where
  steps : List.Forall₂ (fun step value => (stepValue step).eq value = true) plan.steps frozen.steps
  totalCalls : frozen.totalCalls = .int (plan.hardMaxima .totalCalls)
  durationSeconds : frozen.durationSeconds = .int (plan.hardMaxima .durationSeconds)
  cooldownSeconds : frozen.cooldownSeconds = .int (plan.hardMaxima .cooldownSeconds)
  recoveryDeadlineSeconds :
    frozen.recoveryDeadlineSeconds = .int (plan.hardMaxima .recoveryDeadlineSeconds)

theorem dictItem_ok {d e : Dict} {key : String} :
    (dictItem d key : Result Dict) = .ok e ↔ d.get? key = some (.dict e) := by
  simp only [dictItem, bind_ok, Dict.item_ok]
  constructor
  · rintro ⟨value, found, subscript⟩
    cases value <;> simp_all [subscriptable]
  · exact fun found => ⟨_, found, rfl⟩

theorem freeze_of_accepts {plan : EnvelopePlan} {document : Dict} (accepts : Accepts plan document) :
    ∃ frozen, freeze document = .ok frozen ∧ Freezes plan frozen ∧
      document.get? "steps" = some (.list frozen.steps) := by
  obtain ⟨authorization, maxima, auth, hard, read⟩ := accepts.maxima
  obtain ⟨_, same, entries⟩ := Value.eq_dict accepts.same
  cases same
  obtain ⟨stepsValue, stepsRead, stepsSame⟩ := entries "steps" (.list (plan.steps.map stepValue)) (by simp)
  obtain ⟨steps, rfl, equal⟩ := Value.eq_list.mp stepsSame
  obtain ⟨terminationValue, terminationRead, terminationSame⟩ := entries "termination"
    (.dict [Dict.entry "reason" (.str plan.reason.name),
      Dict.entry "authorizedDimensionCeilingReached" (.bool plan.ceilingReached)]) (by simp)
  obtain ⟨termination, rfl, reasons⟩ := Value.eq_dict terminationSame
  obtain ⟨reason, reasonRead, _⟩ := reasons "reason" (.str plan.reason.name) (by simp)
  have number (key : MaximaKey) :
      (numberItem maxima key.name : Result Number) = .ok (.int (plan.hardMaxima key)) := by
    simp [numberItem, Dict.item_ok.mpr (read key), Value.number?, pure, Except.pure]
  refine ⟨⟨steps, .int (plan.hardMaxima .totalCalls), .int (plan.hardMaxima .durationSeconds),
    .int (plan.hardMaxima .cooldownSeconds), .int (plan.hardMaxima .recoveryDeadlineSeconds),
    reason⟩, ?_, ⟨?_, rfl, rfl, rfl, rfl⟩, stepsRead⟩
  · have calls := number .totalCalls
    have duration := number .durationSeconds
    have cooldown := number .cooldownSeconds
    have recovery := number .recoveryDeadlineSeconds
    simp only [MaximaKey.name] at calls duration cooldown recovery
    simp only [freeze, bind_ok]
    refine ⟨_, dictItem_ok.2 auth, _, dictItem_ok.2 hard, _, Dict.item_ok.mpr stepsRead, ?_⟩
    simp only [bind_ok]
    exact ⟨_, rfl, _, calls, _, duration, _, cooldown, _, recovery, _,
      dictItem_ok.2 terminationRead, _, Dict.item_ok.mpr reasonRead, rfl⟩
  · exact List.forall₂_map_left_iff.mp equal

end Sippycup.Envelope

/-! Verification of a frozen plan against the bytes of its manifest: the plan is
compiled again from its own sections, then from the manifest with its own maxima. -/
namespace Sippycup.Envelope
open Sippycup.Python

def maxDocumentBytes : Nat := 1024 * 1024

/-- `load` is the parser of the bytes; the same bytes give the same value. -/
def parseDocument (load : List Nat → Result Value) (raw : List Nat) (label : String) : Result Dict := do
  object (← load raw) label

def readDocument (load : List Nat → Result Value) (raw : List Nat) (label : String) : Result Dict :=
  if maxDocumentBytes < raw.length then fail s!"{label} exceeds {maxDocumentBytes} bytes"
  else parseDocument load raw label

def verifyEnvelopePlan (load : List Nat → Result Value) (plan : Value) (manifestBytes : List Nat) :
    Result Dict := do
  let validated ← validateEnvelopePlan plan
  if maxDocumentBytes < manifestBytes.length then
    fail s!"envelope manifest exceeds {maxDocumentBytes} bytes"
  else
    let digest := sha256Hex manifestBytes
    if !(← (← dictItem validated "metadata").item "manifestSha256").isText digest then
      fail "envelope manifest SHA-256 differs from frozen plan"
    else
      let manifest ← parseDocument load manifestBytes "envelope manifest"
      let reductions ← dictItem (← dictItem validated "authorization") "hardMaxima"
      let expected ← compileEnvelopePlan (.dict manifest) (.str digest) reductions
      if !expected.value.eq (.dict validated) then
        fail "frozen envelope plan differs from reviewed manifest recompilation"
      else return validated

end Sippycup.Envelope


namespace Sippycup.Envelope
open Sippycup.Python

theorem exactKeys_display {d : Dict} {names : List String} (display : d.Display names) (field : String) :
    exactKeys d field names = .ok () := by
  rw [exactKeys, display.missingKeys, display.unknownKeys]
  rfl

theorem collect_eq {κ α : Type} [DecidableEq κ] [Inhabited α] {read : κ → Result α} {values : κ → α}
    (each : ∀ key, read key = .ok (values key)) {keys : List κ} (all : ∀ key, key ∈ keys) :
    collect read keys = .ok values := by
  have run (keys : List κ) : ∃ result, collect read keys = .ok result := by
    induction keys with
    | nil => exact ⟨_, rfl⟩
    | cons key rest ih =>
      obtain ⟨result, ok⟩ := ih
      exact ⟨_, by rw [collect, each key, ok]; rfl⟩
  obtain ⟨result, ok⟩ := run keys
  refine ok.trans (congrArg Except.ok (funext fun key => ?_))
  have read := collect_ok ok key (all key)
  rw [each key] at read
  exact (Except.ok.inj read).symm

/-- A dict of numbers under the names of some keys. -/
def amounts {κ : Type} (keys : List κ) (name : κ → String) (amount : κ → Nat) : Dict :=
  keys.map fun key => Dict.entry (name key) (nat (amount key))

section
variable {κ : Type} {keys : List κ} {name : κ → String} {amount : κ → Nat}

theorem amounts_display (distinct : (keys.map name).Nodup) :
    (amounts keys name amount).Display (keys.map name) := by
  refine ⟨?_, distinct⟩
  rw [amounts, List.map_map, List.map_map]
  rfl

theorem amounts_get? (distinct : (keys.map name).Nodup) {key : κ} (known : key ∈ keys) :
    (amounts keys name amount).get? (name key) = some (nat (amount key)) :=
  (amounts_display distinct).get?_name (List.mem_map.mpr ⟨key, known, rfl⟩)

theorem amounts_eq_self (distinct : (keys.map name).Nodup) :
    Value.eq (.dict (amounts keys name amount)) (.dict (amounts keys name amount)) = true :=
  Value.eq_display (amounts_display distinct)
    (List.forall_mem_map.mpr fun key _ => Value.eq_int_self (amount key))

end

theorem maximaKeys_distinct : (maximaKeys.map MaximaKey.name).Nodup := by decide

theorem workloadKeys_distinct : (workloadKeys.map WorkloadKey.name).Nodup := by decide

theorem nat_uint {n : Nat} (field : String) (positive : 0 < n) (bounded : n ≤ u64Max) :
    uint (nat n) field false = .ok n :=
  uint_ok.2 ⟨rfl, bounded, fun _ => positive⟩

theorem normalizeMaxima_value {maxima : Maxima} (bounds : ∀ key, 0 < maxima key ∧ maxima key ≤ u64Max)
    (field : String) : normalizeMaxima (maximaValue maxima) field = .ok maxima := by
  have display := @amounts_display _ _ _ maxima maximaKeys_distinct
  refine bind_ok.mpr ⟨_, rfl, bind_ok.mpr ⟨(), exactKeys_display display field, ?_⟩⟩
  refine collect_eq (fun key => bind_ok.mpr ⟨nat (maxima key), Dict.item_ok.mpr ?_, ?_⟩) mem_maximaKeys
  · exact amounts_get? maximaKeys_distinct (mem_maximaKeys key)
  · exact nat_uint _ (bounds key).1 (bounds key).2

theorem normalizeWorkload_value {workload : Workload}
    (bounds : ∀ key, 0 < workload key ∧ workload key ≤ u64Max) :
    normalizeWorkload (workloadValue workload) = .ok workload := by
  have display := @amounts_display _ _ _ workload workloadKeys_distinct
  refine bind_ok.mpr ⟨_, rfl, bind_ok.mpr ⟨(), exactKeys_display display "workload", ?_⟩⟩
  refine collect_eq (fun key => bind_ok.mpr ⟨nat (workload key), Dict.item_ok.mpr ?_, ?_⟩) mem_workloadKeys
  · exact amounts_get? workloadKeys_distinct (mem_workloadKeys key)
  · exact nat_uint _ (bounds key).1 (bounds key).2

theorem normalizeRamp_value {ramp : Ramp} (start : 0 < ramp.start ∧ ramp.start ≤ u64Max)
    (step : 0 < ramp.step ∧ ramp.step ≤ u64Max) : normalizeRamp (rampValue ramp) = .ok ramp := by
  have display : Dict.Display [Dict.entry "dimension" (.str ramp.dimension.name),
      Dict.entry "start" (nat ramp.start), Dict.entry "step" (nat ramp.step)] rampKeys :=
    ⟨rfl, by decide⟩
  refine bind_ok.mpr ⟨_, rfl, bind_ok.mpr ⟨(), exactKeys_display display "ramp", ?_⟩⟩
  have named : (dimensions.find? fun d => (Value.str (Text.ofString ramp.dimension.name)).isText d.name) =
      some ramp.dimension := by
    cases ramp.dimension <;> decide
  refine bind_ok.mpr ⟨_, rfl, ?_⟩
  rw [named]
  refine bind_ok.mpr ⟨_, rfl, bind_ok.mpr ⟨_, nat_uint _ start.1 start.2, ?_⟩⟩
  exact bind_ok.mpr ⟨_, rfl, bind_ok.mpr ⟨_, nat_uint _ step.1 step.2, rfl⟩⟩

theorem applyReductions_exact {source maxima : Maxima}
    (bounds : ∀ key, 0 < maxima key ∧ maxima key ≤ u64Max) (reduced : ∀ key, maxima key ≤ source key) :
    applyReductions source (amounts maximaKeys MaximaKey.name maxima) source = .ok maxima := by
  have run (keys : List MaximaKey) (result : Maxima) :
      applyReductions source (amounts keys MaximaKey.name maxima) result =
        .ok (keys.foldl (fun r key => Function.update r key (maxima key)) result) := by
    induction keys generalizing result with
    | nil => rfl
    | cons key rest ih =>
      have named : MaximaKey.ofValue? (.str (Text.ofString key.name)) = some key := by
        rcases key with d | _
        · cases d <;> decide
        all_goals decide
      have low : ¬ source key < maxima key := Nat.not_lt.2 (reduced key)
      rw [amounts, List.map_cons, Dict.entry, applyReductions, named]
      dsimp only [nat]
      rw [show uint (.int (maxima key)) s!"--max-{key.name}" false = .ok (maxima key) from
        nat_uint _ (bounds key).1 (bounds key).2]
      dsimp only [bind, Except.bind]
      rw [if_neg low]
      exact ih _
  rw [run]
  refine congrArg Except.ok (funext fun key => ?_)
  rcases key with d | _
  · cases d <;> rfl
  all_goals rfl

/-- What a manifest was read from, but for the reductions. -/
structure ReadsManifest (document : Dict) (n : Normalized) : Prop where
  known : exactKeys document "manifest" manifestKeys = .ok ()
  version : document.get? "apiVersion" = some (.str manifestVersion)
  kind : document.get? "kind" = some (.str "Envelope")
  metadata : ∃ metadata : Dict, document.get? "metadata" = some (.dict metadata) ∧
    exactKeys metadata "metadata" ["name"] = .ok () ∧
    ∃ value, metadata.get? "name" = some value ∧ name value "metadata.name" = .ok n.name
  authorization : ∃ authorization : Dict, document.get? "authorization" = some (.dict authorization) ∧
    exactKeys authorization "authorization" ["hardMaxima"] = .ok () ∧
    ∃ value, authorization.get? "hardMaxima" = some value ∧
      normalizeMaxima value "authorization.hardMaxima" = .ok n.sourceMaxima
  workload : ∃ value, document.get? "workload" = some value ∧ normalizeWorkload value = .ok n.workload
  ramp : ∃ value, document.get? "ramp" = some value ∧ normalizeRamp value = .ok n.ramp
  constraints : validateConstraints n.maxima n.workload n.ramp = .ok ()

theorem normalizeManifest_iff {manifest : Value} {reductions : Dict} {n : Normalized} :
    normalizeManifest manifest reductions = .ok n ↔
      ∃ document : Dict, manifest = .dict document ∧ ReadsManifest document n ∧
        applyReductions n.sourceMaxima reductions n.sourceMaxima = .ok n.maxima := by
  constructor
  · intro ok
    obtain ⟨document, isDict, ok⟩ := bind_ok.mp ok
    obtain ⟨_, known, ok⟩ := bind_ok.mp ok
    obtain ⟨version, foundVersion, ok⟩ := bind_ok.mp ok
    split at ok
    · cases ok
    · rename_i isVersion
      obtain ⟨kind, foundKind, ok⟩ := bind_ok.mp ok
      split at ok
      · cases ok
      · rename_i isKind
        rw [Bool.not_eq_true, Bool.not_eq_false', Value.isText_iff] at isVersion isKind
        subst isVersion isKind
        simp only [bind_ok, object_ok, Dict.item_ok, pure_ok] at ok
        obtain ⟨_, foundMetadata, metadata, rfl, _, knownMetadata, value, foundName, name, named,
          _, foundAuthorization, authorization, rfl, _, knownAuthorization, maximaValue, foundMaxima, source,
          readMaxima, maxima, reduced, workloadValue, foundWorkload, workload, readWorkload, rampValue,
          foundRamp, ramp, readRamp, _, constraints, rfl⟩ := ok
        exact ⟨document, object_ok.1 isDict, {
          known
          version := Dict.item_ok.mp foundVersion
          kind := Dict.item_ok.mp foundKind
          metadata := ⟨metadata, foundMetadata, knownMetadata, value, foundName, named⟩
          authorization := ⟨authorization, foundAuthorization, knownAuthorization, maximaValue, foundMaxima,
            readMaxima⟩
          workload := ⟨workloadValue, foundWorkload, readWorkload⟩
          ramp := ⟨rampValue, foundRamp, readRamp⟩
          constraints }, reduced⟩
  · rintro ⟨document, rfl, reads, reduced⟩
    obtain ⟨metadata, foundMetadata, knownMetadata, value, foundName, named⟩ := reads.metadata
    obtain ⟨authorization, foundAuthorization, knownAuthorization, maximaValue, foundMaxima,
      readMaxima⟩ := reads.authorization
    obtain ⟨workloadValue, foundWorkload, readWorkload⟩ := reads.workload
    obtain ⟨rampValue, foundRamp, readRamp⟩ := reads.ramp
    refine bind_ok.mpr ⟨document, rfl, bind_ok.mpr ⟨(), reads.known, ?_⟩⟩
    refine bind_ok.mpr ⟨_, Dict.item_ok.mpr reads.version, ?_⟩
    rw [Value.isText_str, decide_eq_true rfl, Bool.not_true, if_neg Bool.false_ne_true]
    refine bind_ok.mpr ⟨_, Dict.item_ok.mpr reads.kind, ?_⟩
    rw [Value.isText_str, decide_eq_true rfl, Bool.not_true, if_neg Bool.false_ne_true]
    simp only [bind_ok, object_ok, Dict.item_ok, pure_ok]
    exact ⟨_, foundMetadata, metadata, rfl, (), knownMetadata, value, foundName, _, named,
      _, foundAuthorization, authorization, rfl, (), knownAuthorization, maximaValue, foundMaxima, _,
      readMaxima, _, reduced, workloadValue, foundWorkload, _, readWorkload, rampValue,
      foundRamp, _, readRamp, (), reads.constraints, rfl⟩

/-- A plan has the sections that it was compiled from. -/
theorem compileNormalized_sections {n : Normalized} {digest : Text} {plan : EnvelopePlan}
    (ok : compileNormalized n digest = .ok plan) :
    n = ⟨plan.name, plan.sourceMaxima, plan.hardMaxima, plan.workload, plan.ramp⟩ ∧
      digest = plan.manifestSha256 := by
  obtain ⟨tail, _, ok⟩ := bind_ok.mp ok
  split at ok
  · cases ok
  · obtain ⟨expanded, _, ok⟩ := bind_ok.mp ok
    obtain ⟨⟨totals, steps, reason⟩, _, ok⟩ := bind_ok.mp ok
    dsimp only at ok
    split at ok
    · cases ok
    · obtain ⟨total, _, ok⟩ := bind_ok.mp ok
      obtain rfl := pure_ok.mp ok
      exact ⟨rfl, rfl⟩

/-- A manifest reduced to the maxima that came out of it is read to the same sections. -/
theorem normalizeManifest_again {manifest : Value} {reductions : Dict} {n : Normalized}
    (ok : normalizeManifest manifest reductions = .ok n) :
    normalizeManifest manifest (amounts maximaKeys MaximaKey.name n.maxima) = .ok n := by
  have checked := normalizeManifest_ok ok
  obtain ⟨document, isDict, reads, _⟩ := normalizeManifest_iff.1 ok
  refine normalizeManifest_iff.2 ⟨document, isDict, reads, applyReductions_exact ?_ checked.reduced⟩
  exact fun key => ⟨checked.positive key, checked.bounded key⟩

end Sippycup.Envelope
