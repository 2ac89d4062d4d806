import Sippycup.Campaign.Compile
import Sippycup.Envelope.Verify

/-! Offline planning tools: the number of steps is predicted from the raw
manifest and compared with the tool's limit before the compiler expands it. -/
namespace Sippycup.Mcp
open Sippycup.Python
open Sippycup.Envelope (Maxima Workload Ramp Totals PlanStep Normalized EnvelopePlan BudgetOf Ledger
  Breaks ceilDiv intensityAt)
open Sippycup.Campaign (CampaignPlan SetOrder)

def maxMcpPlanSteps : Nat := 1000

/-- An error result of a tool; only `MCPPolicyError` counts as a rejection. -/
inductive Refusal where
  | policyRejected (message : String)
  | toolFailed (raised : Raised String)

structure Offline (α : Type) where
  plan : α
  networkActivity : Bool := false

/-- What the language computes on operands that no compilable manifest holds:
subscripts of anything but a mapping, arithmetic on anything but integers. -/
structure Operations where
  item : Value → Value → Except Builtin Value
  count : Value → Value → Value → Except Builtin Value
  exceeds : Value → Nat → Except Builtin Bool

def offlineResolver : Campaign.Resolver := fun host =>
  Campaign.fail
    (s!"hostname {host.repr}" ++ " requires DNS; MCP offline planning accepts literal addresses only")

section Tools
variable (ops : Operations)

/-- `value[key]` -/
def subscript (value key : Value) : Except Builtin Value :=
  match value with
  | .dict entries =>
    if !key.hashable then .error .typeError
    else match entries.find? fun entry => key.eq entry.1 with
      | some entry => .ok entry.2
      | none => .error .keyError
  | value => ops.item value key

/-- `(maximum - start) // step + 1` -/
def rampCount : Value → Value → Value → Except Builtin Value
  | .int maximum, .int start, .int step =>
    if step = 0 then .error .arithmeticError else .ok (.int ((maximum - start).fdiv step + 1))
  | maximum, start, step => ops.count maximum start step

def exceeds (count : Value) (limit : Nat) : Except Builtin Bool :=
  match count with
  | .int n => .ok (decide ((limit : Int) < n))
  | count => ops.exceeds count limit

/-- The step count that `plan_envelope` predicts. -/
def predictedSteps (document : Value) : Except Builtin Value := do
  let maxima ← subscript ops (← subscript ops document (.str "authorization")) (.str "hardMaxima")
  let ramp ← subscript ops document (.str "ramp")
  let maximum ← subscript ops maxima (← subscript ops ramp (.str "dimension"))
  let start ← subscript ops ramp (.str "start")
  let step ← subscript ops ramp (.str "step")
  rampCount ops maximum start step

def unboundable : List Builtin := [.keyError, .typeError, .arithmeticError]

def planEnvelope (document : Value) (digest : Text) : Except Refusal (Offline EnvelopePlan) :=
  match document with
  | .dict _ =>
    match predictedSteps ops document with
    | .error kind =>
      if kind ∈ unboundable then .error (.policyRejected "envelope ramp cannot be bounded safely")
      else .error (.toolFailed (.builtin kind))
    | .ok count =>
      match exceeds ops count maxMcpPlanSteps with
      | .error kind => .error (.toolFailed (.builtin kind))
      | .ok true =>
        .error (.policyRejected s!"MCP envelope planning is limited to {maxMcpPlanSteps} steps")
      | .ok false =>
        match Envelope.compileEnvelopePlan document (.str digest) [] with
        | .ok plan => .ok { plan }
        | .error (.own error) => .error (.toolFailed (.own error.message))
        | .error (.builtin kind) => .error (.toolFailed (.builtin kind))
  | _ => .error (.policyRejected "envelope manifest must be an object")

end Tools

/-- `item.get("count")` for the items that are mappings. -/
def caseCounts (cases : List Value) : List Value :=
  cases.filterMap fun
    | .dict entries => some (Campaign.field? entries "count")
    | _ => none

/-- `type(count) is int` and at least 1. -/
def wholeCount? : Value → Option Nat
  | .int n => if n < 1 then none else some n.toNat
  | _ => none

/-- The step count that `plan_campaign` predicts, when every case has a count. -/
def predictedRuns (cases : List Value) : Option Nat :=
  if (caseCounts cases).length ≠ cases.length then none
  else ((caseCounts cases).mapM wholeCount?).map List.sum

def planCampaign (casing : Casing) (order : SetOrder) (document : Value) (digest : Text) :
    Except Refusal (Offline CampaignPlan) :=
  match document with
  | .dict manifest =>
    match Campaign.field? manifest "cases" with
    | .list cases =>
      match predictedRuns cases with
      | none =>
        .error (.policyRejected s!"MCP campaign planning is limited to {maxMcpPlanSteps} steps")
      | some runs =>
        if maxMcpPlanSteps < runs then
          .error (.policyRejected s!"MCP campaign planning is limited to {maxMcpPlanSteps} steps")
        else
          match Campaign.compilePlan casing order offlineResolver manifest digest [] with
          | .ok plan => .ok { plan }
          | .error (.own error) => .error (.toolFailed (.own error.message))
          | .error (.builtin kind) => .error (.toolFailed (.builtin kind))
    | _ => .error (.policyRejected "campaign cases must be a list")
  | _ => .error (.toolFailed (.own "manifest must be a mapping"))

section Campaign
variable {authorization : Campaign.Authorization} {targets : List Campaign.Target}

theorem readCase_count {index : Nat} {progress next : Campaign.Progress} {raw : Value}
    {case_ : Campaign.Case}
    (read : Campaign.readCase authorization targets index progress raw = .ok (case_, next)) :
    ∃ entries, raw = .dict entries ∧ Campaign.field? entries "count" = .int case_.count ∧
      0 < case_.count := by
  simp only [Campaign.readCase, bind_ok, Campaign.mapping_ok] at read
  obtain ⟨entries, rfl, _, _, id, _, read⟩ := read
  split at read
  · cases read
  · simp only [bind_ok, pure_ok, Prod.mk.injEq] at read
    obtain ⟨_, _, _, _, _, _, count, number, _, _, _, _, _, _, _, _, _, _, _, _, rfl, _⟩ := read
    obtain ⟨same, _, positive⟩ := Campaign.uint_ok.mp number
    exact ⟨entries, rfl, same, positive rfl⟩

/-- The raw counts are the counts of the cases that the compiler reads. -/
theorem readCases_counts {index : Nat} {progress last : Campaign.Progress} {raws : List Value}
    {cases_ : List Campaign.Case}
    (read : Campaign.readCases authorization targets index progress raws = .ok (cases_, last)) :
    predictedRuns raws = some (cases_.map Campaign.Case.count).sum := by
  have counted : caseCounts raws = cases_.map (fun c => Value.int c.count) ∧
      raws.length = cases_.length ∧ ∀ c ∈ cases_, 0 < c.count := by
    induction raws generalizing index progress cases_ with
    | nil =>
      cases read
      simp [caseCounts]
    | cons raw rest ih =>
      simp only [Campaign.readCases, bind_ok, pure_ok, Prod.exists, Prod.mk.injEq] at read
      obtain ⟨case_, next, first, others, _, later, rfl, rfl⟩ := read
      obtain ⟨entries, rfl, count, positive⟩ := readCase_count first
      obtain ⟨counts, lengths, positives⟩ := ih later
      refine ⟨?_, ?_, ?_⟩
      · rw [List.map_cons, ← counts, ← count]
        rfl
      · rw [List.length_cons, List.length_cons, lengths]
      · intro c member
        rcases List.mem_cons.mp member with rfl | member
        · exact positive
        · exact positives c member
  obtain ⟨counts, lengths, positives⟩ := counted
  have whole : (cases_.map fun c => Value.int c.count).mapM wholeCount? =
      some (cases_.map Campaign.Case.count) := by
    clear read counts lengths
    induction cases_ with
    | nil => rfl
    | cons case_ rest ih =>
      have positive := positives case_ List.mem_cons_self
      have first : wholeCount? (.int case_.count) = some case_.count := by
        rw [wholeCount?, if_neg (by omega), Int.toNat_natCast]
      rw [List.map_cons, List.mapM_cons, first, ih fun c member => positives c (by simp [member])]
      rfl
  rw [predictedRuns, if_neg (by simp [counts, lengths]), counts, whole]
  rfl

theorem stepsFrom_length (index : Nat) (cases_ : List Campaign.Case) :
    (Campaign.stepsFrom index cases_).length = (cases_.map Campaign.Case.count).sum := by
  induction cases_ generalizing index with
  | nil => rfl
  | cons case_ rest ih => simp [Campaign.stepsFrom, ih]

end Campaign

/-- A campaign plan has exactly the predicted number of steps. -/
theorem planCampaign_steps {casing : Casing} {order : SetOrder} {document : Value} {digest : Text}
    {returned : Offline CampaignPlan}
    (planned : planCampaign casing order document digest = .ok returned) :
    returned.plan.steps.length ≤ maxMcpPlanSteps ∧
      ∃ manifest cases, document = .dict manifest ∧
        Campaign.field? manifest "cases" = .list cases ∧
        predictedRuns cases = some returned.plan.steps.length := by
  unfold planCampaign at planned
  split at planned
  · rename_i manifest
    split at planned
    · rename_i cases_ listed
      split at planned
      · cases planned
      · rename_i runs predicted
        split at planned
        · cases planned
        · rename_i limited
          split at planned
          · rename_i plan compiled
            cases planned
            have counts : predictedRuns cases_ = some plan.steps.length := by
              simp only [Campaign.compilePlan, bind_ok, pure_ok, Prod.exists] at compiled
              obtain ⟨_, _, _, _, _, _, _, _, _, _, _, _, raws, given, _, _, counted, _, _, _, _, rfl⟩ :=
                compiled
              have same : cases_ = raws := by
                rw [listed] at given
                cases cases_ with
                | nil => cases given
                | cons case_ rest => exact Except.ok.inj given
              rw [CampaignPlan.steps, stepsFrom_length, ← readCases_counts counted, same]
            refine ⟨?_, manifest, cases_, rfl, listed, counts⟩
            rw [predicted, Option.some.injEq] at counts
            rw [← counts]
            exact Nat.not_lt.1 limited
          · cases planned
          · cases planned
    · cases planned
  · cases planned

section Envelope
variable {n : Normalized}

/-- The levels of the whole ramp. -/
def rampLevels (n : Normalized) : List Nat :=
  (List.range (ceilDiv (n.maxima (.dimension n.ramp.dimension) - n.ramp.start) n.ramp.step)).map
    (n.ramp.start + · * n.ramp.step) ++ [n.maxima (.dimension n.ramp.dimension)]

/-- The calls of a step at the given level. -/
def callsAt (n : Normalized) (level : Nat) : Nat :=
  let intensity := intensityAt n.workload n.ramp level
  max (intensity .callsPerSecond * n.maxima .holdSeconds)
    (intensity .concurrentCalls * ceilDiv (n.maxima .holdSeconds) (n.workload .callDurationSeconds))

def tailOf (n : Normalized) : Nat := n.maxima .cooldownSeconds + n.maxima .recoveryDeadlineSeconds

/-- The authorized calls or the authorized duration end before the last level. -/
def CutShort (n : Normalized) : Prop :=
  n.maxima .totalCalls < ((rampLevels n).map (callsAt n)).sum ∨
    n.maxima .durationSeconds < (rampLevels n).length * n.maxima .holdSeconds + tailOf n

instance (n : Normalized) : Decidable (CutShort n) := inferInstanceAs (Decidable (_ ∨ _))

theorem ledger_spent {totals : Totals} {steps : List PlanStep}
    (ledger : Ledger n.maxima n.workload n.ramp (tailOf n) totals steps) :
    totals.calls = ((steps.map PlanStep.level).map (callsAt n)).sum ∧
      totals.rampDurationSeconds = steps.length * n.maxima .holdSeconds := by
  have each : ∀ step ∈ steps, step.budget.calls = callsAt n step.level ∧
      step.budget.durationSeconds = n.maxima .holdSeconds := by
    intro step member
    obtain ⟨earlier, later, split⟩ := List.mem_iff_append.mp member
    have scheduled := ledger.scheduled earlier step later split
    have budget := scheduled.budget
    rw [scheduled.intensity] at budget
    exact ⟨budget.calls, budget.durationSeconds⟩
  constructor
  · rw [ledger.calls, List.map_map]
    congr 1
    exact List.map_congr_left fun step member => (each step member).1
  · rw [ledger.rampDurationSeconds, List.map_congr_left fun step member => (each step member).2]
    simp

/-- The recorded steps are the whole ramp unless its budgets cut it short. -/
theorem compileNormalized_steps {digest : Text} {plan : EnvelopePlan} (checked : n.Checked)
    (compiled : Envelope.compileNormalized n digest = .ok plan) :
    plan.steps.length ≤ (rampLevels n).length ∧
      (plan.steps.length = (rampLevels n).length ↔ ¬ CutShort n) := by
  simp only [Envelope.compileNormalized, bind_ok, Envelope.checkedAdd_ok] at compiled
  obtain ⟨tail, ⟨rfl, _⟩, compiled⟩ := compiled
  split at compiled
  · cases compiled
  · rename_i room
    simp only [bind_ok] at compiled
    obtain ⟨expanded, expandedOk, ⟨totals, steps, reason⟩, ran, compiled⟩ := compiled
    have whole : expanded = rampLevels n :=
      Envelope.levels_eq checked.stepPositive checked.startWithin expandedOk
    obtain ⟨ledger, taken, rest, split, recorded, ending⟩ :=
      Envelope.rampLoop_spec (Ledger.initial (by omega)) ran
    rw [List.map_nil, List.nil_append] at recorded
    obtain ⟨calls, duration⟩ := ledger_spent ledger
    have lengths : steps.length = taken.length := by rw [← recorded, List.length_map]
    have recordedPlan : plan.steps = steps := by
      split at compiled
      · cases compiled
      · simp only [bind_ok, pure_ok] at compiled
        obtain ⟨_, _, rfl⟩ := compiled
        rfl
    rw [recordedPlan, lengths, ← whole, split, List.length_append]
    refine ⟨by omega, ?_⟩
    have funded := ledger.callsFunded
    have timed := ledger.durationFunded
    rw [calls, recorded] at funded
    rw [duration, lengths] at timed
    unfold CutShort
    rw [← whole, split]
    rcases ending with ⟨rfl, _⟩ | ⟨level, more, rfl, _, budget, spent, exceeded⟩
    · simp only [List.append_nil, List.length_nil, Nat.add_zero, true_iff, not_or, Nat.not_lt]
      exact ⟨funded, timed⟩
    · constructor
      · intro same
        simp at same
      · intro fits
        refine absurd ?_ fits
        have cost : budget.calls = callsAt n level := spent.calls
        have hold := spent.durationSeconds
        rw [calls, recorded, cost, duration, lengths, hold] at exceeded
        rw [List.map_append, List.sum_append, List.map_cons, List.sum_cons, List.length_append,
          List.length_cons]
        rcases exceeded with many | late
        · exact .inl (by omega)
        · refine .inr ?_
          rw [tailOf, Nat.add_mul, Nat.add_mul, Nat.one_mul]
          omega

/-- The formula of the tool, rounded down, and the expansion, rounded up. -/
theorem rampLevels_length (n : Normalized) :
    (rampLevels n).length = (n.maxima (.dimension n.ramp.dimension) - n.ramp.start) / n.ramp.step + 1 +
      if n.ramp.step ∣ n.maxima (.dimension n.ramp.dimension) - n.ramp.start then 0 else 1 := by
  simp only [rampLevels, List.length_append, List.length_map, List.length_range, List.length_singleton,
    ceilDiv, Nat.dvd_iff_mod_eq_zero]
  by_cases exact : (n.maxima (.dimension n.ramp.dimension) - n.ramp.start) % n.ramp.step = 0
  · simp [exact]
  · simp [exact]

section Reading
variable {ops : Operations} {document : Value}

theorem subscript_str {entries : Dict} {key : Text} {value : Value}
    (held : entries.get? key = some value) : subscript ops (.dict entries) (.str key) = .ok value := by
  have first : (entries.find? fun entry => (Value.str key).eq entry.1).map Prod.snd = entries.get? key := by
    clear held
    induction entries with
    | nil => rfl
    | cons entry rest ih =>
      simp only [List.find?_cons, Dict.get?, Value.eq_str] at ih ⊢
      cases entry.1.isText key
      · simpa using ih
      · rfl
  rw [held, Option.map_eq_some_iff] at first
  obtain ⟨entry, found, rfl⟩ := first
  simp only [subscript, Value.hashable, found, Bool.not_true, Bool.false_eq_true, if_false]

theorem normalizeMaxima_raw {raw : Value} {field : String} {maxima : Maxima}
    (read : Envelope.normalizeMaxima raw field = .ok maxima) (key : Envelope.MaximaKey) :
    ∃ entries : Dict, raw = .dict entries ∧ entries.get? key.name = some (.int (maxima key)) := by
  simp only [Envelope.normalizeMaxima, bind_ok, Envelope.object_ok] at read
  obtain ⟨entries, rfl, _, _, collected⟩ := read
  obtain ⟨item, held, number⟩ := bind_ok.mp (collect_ok collected key (Envelope.mem_maximaKeys key))
  rw [(Envelope.uint_ok.mp number).1, Dict.item_ok] at held
  exact ⟨entries, rfl, held⟩

theorem normalizeRamp_raw {raw : Value} {ramp : Ramp} (read : Envelope.normalizeRamp raw = .ok ramp) :
    ∃ entries : Dict, raw = .dict entries ∧ entries.get? "dimension" = some (.str ramp.dimension.name) ∧
      entries.get? "start" = some (.int ramp.start) ∧ entries.get? "step" = some (.int ramp.step) := by
  simp only [Envelope.normalizeRamp, bind_ok, Envelope.object_ok, Dict.item_ok] at read
  obtain ⟨entries, rfl, _, _, dimension, named, read⟩ := read
  split at read
  · cases read
  · rename_i d found
    simp only [bind_ok, pure_ok, Dict.item_ok] at read
    obtain ⟨rawStart, startHeld, start, startOk, rawStep, stepHeld, step, stepOk, rfl⟩ := read
    have text := List.find?_some found
    rw [Value.isText_iff.1 text] at named
    rw [(Envelope.uint_ok.mp startOk).1] at startHeld
    rw [(Envelope.uint_ok.mp stepOk).1] at stepHeld
    exact ⟨entries, rfl, named, startHeld, stepHeld⟩

/-- A compilable manifest holds the three numbers of its ramp as integers. -/
theorem predictedSteps_ok (normal : Envelope.normalizeManifest document [] = .ok n) :
    predictedSteps ops document = .ok (.int
      (((n.maxima (.dimension n.ramp.dimension) - n.ramp.start) / n.ramp.step + 1 : Nat))) := by
  have checked := Envelope.normalizeManifest_ok normal
  simp only [Envelope.normalizeManifest, bind_ok] at normal
  obtain ⟨manifest, isManifest, _, _, version, _, normal⟩ := normal
  split at normal
  · cases normal
  · obtain ⟨kind, _, normal⟩ := bind_ok.mp normal
    split at normal
    · cases normal
    · simp only [bind_ok, pure_ok] at normal
      obtain ⟨_, _, metadata, _, _, _, _, _, name, _, rawAuthorization, given, authorization,
        isAuthorization, _, _, rawMaxima, maximaGiven, source, sourceOk, maxima, reduced, _, _, workload, _,
        rawRamp, rampGiven, ramp, rampOk, _, _, rfl⟩ := normal
      cases reduced
      obtain rfl := Envelope.object_ok.1 isManifest
      obtain rfl := Envelope.object_ok.1 isAuthorization
      obtain ⟨maximaEntries, rfl, ceiling⟩ := normalizeMaxima_raw sourceOk (.dimension ramp.dimension)
      obtain ⟨rampEntries, rfl, dimension, start, step⟩ := normalizeRamp_raw rampOk
      rw [Dict.item_ok] at given maximaGiven rampGiven
      have positive : (ramp.step : Int) ≠ 0 := by
        have := checked.stepPositive
        dsimp only at this
        omega
      have within := checked.startWithin
      dsimp only at within
      have difference : ((source (.dimension ramp.dimension) : Int) - ramp.start).fdiv ramp.step =
          (((source (.dimension ramp.dimension) - ramp.start) / ramp.step : Nat) : Int) := by
        rw [← Nat.cast_sub within, Int.fdiv_eq_ediv_of_nonneg _ (by omega)]
        rfl
      simp only [predictedSteps, subscript_str given, subscript_str maximaGiven, subscript_str rampGiven,
        subscript_str dimension, subscript_str start, subscript_str step, ok_bind]
      have read := @subscript_str ops _ _ _ ceiling
      simp only [Envelope.MaximaKey.name] at read
      rw [read, ok_bind, rampCount, if_neg positive, difference]
      rfl

end Reading

end Envelope

/-- A plan of this many steps keeps the tool's limit and its prediction. -/
structure KeepsPrediction (predicted steps : Nat) : Prop where
  limit : steps ≤ maxMcpPlanSteps
  predicted : steps ≤ predicted

/-- The ramp step divides the way up to the ceiling, or the budgets end the
ramp before its last level. -/
def RampFits (document : Value) : Prop :=
  ∃ n, Envelope.normalizeManifest document [] = .ok n ∧
    (n.ramp.step ∣ n.maxima (.dimension n.ramp.dimension) - n.ramp.start ∨ CutShort n)

theorem rampFits_iff {n : Normalized} {document : Value}
    (normal : Envelope.normalizeManifest document [] = .ok n) :
    RampFits document ↔
      n.ramp.step ∣ n.maxima (.dimension n.ramp.dimension) - n.ramp.start ∨ CutShort n := by
  constructor
  · rintro ⟨other, read, fits⟩
    rw [normal] at read
    cases read
    exact fits
  · intro fits
    exact ⟨n, normal, fits⟩

/-- Without a remainder the prediction covers the whole ramp; with one it
misses the last level, so the budgets must have cut the ramp short. -/
theorem compiled_within_iff {n : Normalized} {digest : Text} {plan : EnvelopePlan} (checked : n.Checked)
    (compiled : Envelope.compileNormalized n digest = .ok plan) :
    plan.steps.length ≤ (n.maxima (.dimension n.ramp.dimension) - n.ramp.start) / n.ramp.step + 1 ↔
      n.ramp.step ∣ n.maxima (.dimension n.ramp.dimension) - n.ramp.start ∨ CutShort n := by
  obtain ⟨below, whole⟩ := compileNormalized_steps checked compiled
  rw [rampLevels_length] at below whole
  by_cases exact : n.ramp.step ∣ n.maxima (.dimension n.ramp.dimension) - n.ramp.start
  · rw [if_pos exact] at below
    simp only [exact, true_or, iff_true]
    exact below
  · rw [if_neg exact] at below whole
    simp only [exact, false_or]
    constructor
    · intro within
      by_contra funded
      have := whole.mpr funded
      omega
    · intro short
      have : ¬ plan.steps.length = _ := fun same => whole.mp same short
      omega

section
variable {ops : Operations} {casing : Casing} {order : SetOrder} {document : Value} {digest : Text}

theorem planEnvelope_keeps_iff {returned : Offline EnvelopePlan}
    (planned : planEnvelope ops document digest = .ok returned) :
    (∃ count : Nat, predictedSteps ops document = .ok (.int count) ∧
      KeepsPrediction count returned.plan.steps.length) ↔ RampFits document := by
  unfold planEnvelope at planned
  split at planned
  · split at planned
    · split at planned <;> cases planned
    · rename_i count predicted
      split at planned
      · cases planned
      · cases planned
      · rename_i limited
        split at planned
        · rename_i plan compiled
          cases planned
          simp only [Envelope.compileEnvelopePlan, bind_ok] at compiled
          obtain ⟨text, _, n, normal, compiled⟩ := compiled
          have prediction := @predictedSteps_ok _ ops _ normal
          rw [predicted] at prediction
          cases prediction
          have within := of_decide_eq_false (Except.ok.inj limited)
          rw [rampFits_iff normal, ← compiled_within_iff (Envelope.normalizeManifest_ok normal) compiled]
          constructor
          · rintro ⟨count, same, keeps⟩
            rw [predicted] at same
            simp only [Except.ok.injEq, Value.int.injEq, Nat.cast_inj] at same
            rw [same]
            exact keeps.predicted
          · intro below
            refine ⟨_, predicted, ?_, below⟩
            dsimp only
            omega
        · cases planned
        · cases planned
  · cases planned

variable (ops casing order document digest)

/-- Campaign plans always keep the limit and the prediction; an envelope plan
does exactly when its ramp leaves no remainder or is cut short by its budgets. -/
theorem offline_plans_keep_prediction_iff :
    (∀ campaign, planCampaign casing order document digest = .ok campaign →
      ∃ manifest cases runs, document = .dict manifest ∧
        Campaign.field? manifest "cases" = .list cases ∧ predictedRuns cases = some runs ∧
        KeepsPrediction runs campaign.plan.steps.length) ∧
    (∀ envelope, planEnvelope ops document digest = .ok envelope →
      ((∃ count : Nat, predictedSteps ops document = .ok (.int count) ∧
        KeepsPrediction count envelope.plan.steps.length) ↔ RampFits document)) := by
  constructor
  · intro campaign planned
    obtain ⟨limit, manifest, cases_, same, listed, predicted⟩ := planCampaign_steps planned
    exact ⟨manifest, cases_, _, same, listed, predicted, limit, le_rfl⟩
  · intro envelope planned
    exact planEnvelope_keeps_iff planned

end

section Samples
open Dict (entry)

def noOperations : Operations where
  item _ _ := .error .typeError
  count _ _ _ := .error .typeError
  exceeds _ _ := .error .typeError

def texts (items : List String) : Value := .list (items.map fun item => .str (Text.ofString item))

def quantities (fields : List (String × Nat)) : Value :=
  .dict (fields.map fun field => entry field.1 (.int field.2))

def sampleCampaign : Value :=
  .dict [entry "apiVersion" (.str "sippycup.dev/v1"), entry "kind" (.str "Campaign"),
    entry "metadata" (.dict [entry "name" (.str "lab")]),
    entry "authorization" (.dict [entry "networks" (texts ["10.0.0.0/8"]),
      entry "signalingPorts" (.list [.int 5060]),
      entry "mediaPorts" (quantities [("start", 4000), ("end", 4010)]),
      entry "transports" (texts ["udp"]),
      entry "ceilings" (quantities [("calls", 9), ("packets", 9), ("bytes", 9), ("durationSeconds", 9),
        ("concurrentCalls", 1), ("packetsPerSecond", 1), ("callsPerSecond", 1)]),
      entry "stopConditions" (.dict [entry "consecutiveFailures" (.int 1),
        entry "unexpectedResponse" (.bool true), entry "packetLossPercent" (.int 1)])]),
    entry "targets" (.list [.dict [entry "name" (.str "pbx"), entry "address" (.str "10.0.0.5"),
      entry "signaling" (.dict [entry "transport" (.str "udp"), entry "port" (.int 5060)])]]),
    entry "expectations" (.dict [entry "allowedSipStatuses" (.list [.int 200]),
      entry "requireBidirectionalRtp" (.bool false)]),
    entry "cases" (.list [.dict [entry "id" (.str "ping"), entry "type" (.str "options"),
      entry "target" (.str "pbx"), entry "count" (.int 2),
      entry "budget" (quantities [("packetsPerRun", 1), ("bytesPerRun", 1),
        ("durationSecondsPerRun", 1)])]]),
    entry "evidence" (.dict [entry "capture" (.bool true), entry "retainPayload" (.bool false),
      entry "directory" (.str "work")])]

/-- A ramp from 1 by `step` to `ceiling`. -/
def sampleEnvelope (step ceiling : Nat) : Value :=
  .dict [entry "apiVersion" (.str "sippycup.dev/envelope/v1"), entry "kind" (.str "Envelope"),
    entry "metadata" (.dict [entry "name" (.str "lab")]),
    entry "authorization" (.dict [entry "hardMaxima" (quantities [("callsPerSecond", ceiling),
      ("concurrentCalls", 1), ("mediaPacketsPerSecond", 1), ("totalCalls", 99), ("durationSeconds", 99),
      ("holdSeconds", 1), ("cooldownSeconds", 1), ("recoveryDeadlineSeconds", 1)])]),
    entry "workload" (quantities [("callsPerSecond", 1), ("concurrentCalls", 1),
      ("mediaPacketsPerSecond", 1), ("callDurationSeconds", 1)]),
    entry "ramp" (.dict [entry "dimension" (.str "callsPerSecond"), entry "start" (.int 1),
      entry "step" (.int step)])]

def sampleDigest : Text := ⟨List.replicate 64 48⟩

/-- The steps of a returned plan. -/
def stepsOf (planned : Except Refusal (Offline EnvelopePlan)) : Option Nat :=
  planned.toOption.map fun returned => returned.plan.steps.length

theorem sampleEnvelope_planned : stepsOf (planEnvelope noOperations (sampleEnvelope 1 3) sampleDigest) =
    some 3 := by
  decide +kernel

theorem sampleCampaign_planned :
    ((planCampaign Casing.ascii SetOrder.insertion sampleCampaign sampleDigest).toOption.map
      fun returned => returned.plan.steps.length) = some 2 := by
  decide +kernel

theorem returned_of_steps {α : Type} {planned : Except Refusal α} {steps : α → Nat} {n : Nat}
    (counted : planned.toOption.map steps = some n) : ∃ returned, planned = .ok returned ∧ steps returned = n := by
  cases planned with
  | error refusal => cases counted
  | ok returned => exact ⟨returned, rfl, Option.some.inj counted⟩

/-- Both samples are planned and keep their predictions. -/
theorem sample_plans_keep_prediction :
    (∃ campaign, planCampaign Casing.ascii SetOrder.insertion sampleCampaign sampleDigest = .ok campaign ∧
      ∃ manifest cases runs, sampleCampaign = .dict manifest ∧
        Campaign.field? manifest "cases" = .list cases ∧ predictedRuns cases = some runs ∧
        KeepsPrediction runs campaign.plan.steps.length) ∧
    (∃ envelope, planEnvelope noOperations (sampleEnvelope 1 3) sampleDigest = .ok envelope ∧
      ((∃ count : Nat, predictedSteps noOperations (sampleEnvelope 1 3) = .ok (.int count) ∧
        KeepsPrediction count envelope.plan.steps.length) ↔ RampFits (sampleEnvelope 1 3))) := by
  obtain ⟨campaign, planned, _⟩ := returned_of_steps sampleCampaign_planned
  obtain ⟨envelope, ramped, _⟩ := returned_of_steps sampleEnvelope_planned
  exact ⟨⟨campaign, planned, (offline_plans_keep_prediction_iff noOperations Casing.ascii
      SetOrder.insertion sampleCampaign sampleDigest).1 campaign planned⟩,
    envelope, ramped, (offline_plans_keep_prediction_iff noOperations Casing.ascii SetOrder.insertion
      (sampleEnvelope 1 3) sampleDigest).2 envelope ramped⟩

/-- From 1 by 2 up to 4: two steps are predicted and three are planned. -/
theorem remainder_exceeds_prediction :
    predictedSteps noOperations (sampleEnvelope 2 4) = .ok (.int 2) ∧
      ∃ envelope, planEnvelope noOperations (sampleEnvelope 2 4) sampleDigest = .ok envelope ∧
        envelope.plan.steps.length = 3 := by
  have planned : stepsOf (planEnvelope noOperations (sampleEnvelope 2 4) sampleDigest) = some 3 := by
    decide +kernel
  exact ⟨rfl, returned_of_steps planned⟩

end Samples

end Sippycup.Mcp
