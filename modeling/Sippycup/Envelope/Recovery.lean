import Sippycup.Envelope.Degradation
import Sippycup.Envelope.Spacing

/-! Recovery behind a ramp: admission stops, the teardown and the cooldown pass, and canaries are sent until
one succeeds or the time for them ends. Each of these times is cut at the plan's own end. -/
namespace Sippycup.Envelope
open Sippycup.Python

section code

structure Attempt where
  atSeconds : Int
  passed : Bool

inductive RecoveryOutcome where
  | recoveredAfterLoadFailure | recoveredAfterStop | failedToRecover | recoveryUnproven
  deriving DecidableEq

def RecoveryOutcome.name : RecoveryOutcome → String
  | .recoveredAfterLoadFailure => "recovered_after_load_failure"
  | .recoveredAfterStop => "recovered_after_stop"
  | .failedToRecover => "failed_to_recover"
  | .recoveryUnproven => "recovery_unproven"

def RecoveryOutcome.recovered (outcome : RecoveryOutcome) : Bool :=
  outcome = .recoveredAfterLoadFailure || outcome = .recoveredAfterStop

inductive RecoveryStage where
  | admissionStopped (reason : Value)
  | teardownCompleted
  | cooldownCompleted

structure RecoveryEvent where
  stage : RecoveryStage
  atSeconds : Int

structure Deadlines where
  global : Int
  teardownEnd : Int
  cooldownEnd : Int
  recoveryEnd : Int

/-- What `prove_recovery` is given; times are whole seconds of the run. -/
structure RecoveryRequest where
  plan : Value
  analysis : Dict
  expectations : Dict
  baseline : Dict
  canaries : List Dict
  triggerAtSeconds : Int
  teardownSeconds : Int
  canaryIntervalSeconds : Int
  levelArtifacts : List (Int × Dict)
  stopReason : Option Text

structure RecoveryReport where
  outcome : RecoveryOutcome
  stopReason : Option Text
  testedLevels : List Value
  testedKneeInterval : Value
  authorizationCensored : Bool
  trigger : Value
  policy : Value
  hysteresis : Value
  baselineCanary : Dict
  recoveryAttempts : List Attempt
  recoveredAtSeconds : Option Int
  recoveryTimeSeconds : Option Int
  deadlines : Deadlines
  levelArtifacts : List (Int × Dict)
  events : List RecoveryEvent

/-- Iteration over `analysis.get("decisions", [])`; the keys of a dict and the characters of text have no items. -/
@[grind =] def decisions (analysis : Dict) : Result (List Value) :=
  match analysis.getD "decisions" (.list []) with
  | .list items => .ok items
  | .dict [] => .ok []
  | .str ⟨[]⟩ => .ok []
  | _ => .error (.builtin .typeError)

def levelOf (decision : Value) : Result Value := do (← subscriptable decision).item "level"

def artifactsOf (levelArtifacts : List (Int × Dict)) (level : Value) : Option Dict :=
  (levelArtifacts.find? fun x => (Value.int x.1).eq level).map Prod.snd

@[grind =] def lacksArtifacts (levelArtifacts : List (Int × Dict)) : List Value → Result Bool
  | [] => .ok false
  | level :: rest =>
    if !level.hashable then .error (.builtin .typeError)
    else
      match artifactsOf levelArtifacts level with
      | none => .ok true
      | some d => if keysAre d ["capture", "assertions"] then lacksArtifacts levelArtifacts rest else .ok true

/-- A maximum of an accepted plan, where it is an integer. -/
def seconds (maxima : Dict) (key : MaximaKey) : Result Int := do
  match ← maxima.item key.name with
  | .int n => return n
  | _ => .error (.builtin .typeError)

def deadlines (request : RecoveryRequest) (duration cooldown recovery : Int) : Deadlines :=
  let teardownEnd := min (request.triggerAtSeconds + request.teardownSeconds) duration
  let cooldownEnd := min (teardownEnd + cooldown) duration
  ⟨duration, teardownEnd, cooldownEnd, min (cooldownEnd + recovery) duration⟩

/-- The loop over the canaries from a time on: the attempts, and when one passed. -/
@[grind =] def attempt (expectations : Dict) (interval deadline : Int) : Int → List Dict → Result (List Attempt × Option Int)
  | _, [] => .ok ([], none)
  | now, item :: rest =>
    if deadline < now then .ok ([], none)
    else if !(item.getD "expectations" .none).eq (.dict expectations) then
      fail "recovery canary expectations differ from baseline"
    else
      match item.getD "passed" .none with
      | .bool true => .ok ([⟨now, true⟩], some now)
      | .bool false => do
        let (attempts, recoveredAt) ← attempt expectations interval deadline (now + interval) rest
        return (⟨now, false⟩ :: attempts, recoveredAt)
      | _ => fail "recovery canary result must be boolean"

def outcomeOf (loadFailed recovered : Bool) : RecoveryOutcome :=
  match recovered, loadFailed with
  | true, true => .recoveredAfterLoadFailure
  | true, false => .recoveredAfterStop
  | false, true => .failedToRecover
  | false, false => .recoveryUnproven

/-- Membership in a set of names. -/
def isOutcome (value : Value) (names : List String) : Result Bool :=
  if value.hashable then .ok (names.any fun name => value.isText name) else .error (.builtin .typeError)

def stopCause (request : RecoveryRequest) : Value :=
  match request.stopReason with
  | some reason => if reason.codes.isEmpty then request.analysis.getD "outcome" .none else .str reason
  | none => request.analysis.getD "outcome" .none

def proveRecovery (request : RecoveryRequest) : Result RecoveryReport := do
  let frozen ← validateEnvelopePlan request.plan
  let maxima ← dictItem (← dictItem frozen "authorization") "hardMaxima"
  if request.expectations.isEmpty ∨
      !(request.baseline.getD "expectations" .none).eq (.dict request.expectations) then
    fail "baseline canary must use the reviewed expectations"
  else if request.teardownSeconds < 0 ∨ request.canaryIntervalSeconds ≤ 0 then
    fail "teardown/interval bounds are invalid"
  else
    let tested ← (← decisions request.analysis).mapM levelOf
    if ← lacksArtifacts request.levelArtifacts tested then
      fail "every tested ramp level requires capture and assertions"
    else
      let duration ← seconds maxima .durationSeconds
      let cooldown ← seconds maxima .cooldownSeconds
      let recovery ← seconds maxima .recoveryDeadlineSeconds
      let ends := deadlines request duration cooldown recovery
      let (attempts, recoveredAt) ← attempt request.expectations request.canaryIntervalSeconds ends.recoveryEnd
        ends.cooldownEnd request.canaries
      let loadFailed ← isOutcome (request.analysis.getD "outcome" .none) ["degraded", "hard_stop"]
      return {
        outcome := outcomeOf loadFailed recoveredAt.isSome
        stopReason := request.stopReason
        testedLevels := tested
        testedKneeInterval := request.analysis.getD "testedKneeInterval" .none
        authorizationCensored := (request.analysis.getD "outcome" .none).isText "censored"
        trigger := request.analysis.getD "trigger" .none
        policy := request.analysis.getD "policy" .none
        hysteresis := request.analysis.getD "decisions" .none
        baselineCanary := request.baseline
        recoveryAttempts := attempts
        recoveredAtSeconds := recoveredAt
        recoveryTimeSeconds := recoveredAt.map fun now => now - request.triggerAtSeconds
        deadlines := ends
        levelArtifacts := request.levelArtifacts.insertionSort fun a b => a.1 ≤ b.1
        events := [⟨.admissionStopped (stopCause request), request.triggerAtSeconds⟩,
          ⟨.teardownCompleted, ends.teardownEnd⟩, ⟨.cooldownCompleted, ends.cooldownEnd⟩] }

end code

section clock

/-- What recovery promises about its own times, under a plan's maxima. -/
structure RespectsClock (maxima : Maxima) (request : RecoveryRequest) (report : RecoveryReport) : Prop where
  starts : (report.events.map RecoveryEvent.atSeconds).head? = some request.triggerAtSeconds
  ordered : (report.events.map RecoveryEvent.atSeconds).Pairwise (· ≤ ·)
  attempted : ∀ a ∈ report.recoveryAttempts,
    report.deadlines.teardownEnd + maxima .cooldownSeconds ≤ a.atSeconds ∧
      a.atSeconds ≤ report.deadlines.cooldownEnd + maxima .recoveryDeadlineSeconds ∧
      a.atSeconds ≤ maxima .durationSeconds
  outcome : report.outcome.recovered = true ↔ ∃ a ∈ report.recoveryAttempts, a.passed = true
  time : report.outcome.recovered = true → ∃ t, report.recoveryTimeSeconds = some t ∧
    request.teardownSeconds + maxima .cooldownSeconds ≤ t ∧ 0 ≤ t

/-- The loop over the canaries: the first attempt is made now, where it can still be made, none is made
outside the time for them, and it ends with the first one that passes. -/
theorem attempt_ok {expectations : Dict} {interval deadline now : Int} {canaries : List Dict}
    {attempts : List Attempt} {recoveredAt : Option Int} (positive : 0 < interval)
    (ok : attempt expectations interval deadline now canaries = .ok (attempts, recoveredAt)) :
    (∀ a ∈ attempts, now ≤ a.atSeconds ∧ a.atSeconds ≤ deadline) ∧
      (recoveredAt.isSome = true ↔ ∃ a ∈ attempts, a.passed = true) ∧
      (∀ t, recoveredAt = some t → now ≤ t) ∧
      (canaries ≠ [] → now ≤ deadline → ∃ a ∈ attempts, a.atSeconds = now) := by
  induction canaries generalizing now attempts recoveredAt with
  | nil =>
    cases ok
    simp
  | cons item rest ih =>
    rw [attempt] at ok
    split at ok
    · rename_i late
      cases ok
      simp [late]
    rename_i early
    have early : now ≤ deadline := Int.not_lt.1 early
    split at ok
    · cases ok
    split at ok
    · cases ok
      simp [early]
    · obtain ⟨⟨later, found⟩, tried, same⟩ := bind_ok.mp ok
      cases same
      obtain ⟨within, passed, after, -⟩ := ih tried
      refine ⟨List.forall_mem_cons.mpr ⟨⟨Int.le_refl _, early⟩, fun a member => ?_⟩, ?_, fun t held => ?_, fun _ _ => ?_⟩
      · have inner := within a member
        exact ⟨by omega, inner.2⟩
      · rw [passed]
        simp
      · have inner := after t held
        omega
      · exact ⟨_, List.mem_cons_self, rfl⟩
    · cases ok

theorem outcomeOf_recovered (loadFailed recovered : Bool) : (outcomeOf loadFailed recovered).recovered = recovered := by
  cases loadFailed <;> cases recovered <;> rfl

theorem seconds_ok {maxima : Dict} {key : MaximaKey} {n : Int} (ok : seconds maxima key = .ok n) :
    maxima.get? key.name = some (.int n) := by
  obtain ⟨value, held, read⟩ := bind_ok.mp ok
  cases value with
  | int m =>
    cases read
    exact Dict.item_ok.mp held
  | _ => cases read

/-- The maxima of an accepted plan are positive. -/
theorem accepted_positive {value : Value} {document : Dict} {plan : EnvelopePlan}
    (accepted : validateEnvelopePlan value = .ok document) (accepts : Accepts plan document) (key : MaximaKey) :
    0 < plan.hardMaxima key := by
  obtain ⟨authorization, maxima, auth, hard, read⟩ := accepts.maxima
  obtain ⟨rfl, -⟩ := validateEnvelopePlan_ok accepted
  simp only [validateEnvelopePlan, bind_ok, object_ok] at accepted
  obtain ⟨_, same, _, _, version, _, kind, _, accepted⟩ := accepted
  cases same
  split at accepted
  · cases accepted
  simp only [bind_ok, object_ok, Dict.item_ok] at accepted
  obtain ⟨_, _, _, rfl, _, _, _, found, stated, rfl, _, _, _, _, _, _, _, _, _, _, _, item, normalized, read', -⟩ := accepted
  cases Option.some.inj (auth.symm.trans found)
  cases Option.some.inj (hard.symm.trans item)
  obtain ⟨_, same, again⟩ := normalizeMaxima_reads read'
  cases same
  have number := Option.some.inj ((read key).symm.trans (again key))
  have bounds := (normalizeMaxima_ok read' key).1
  simp only [Value.int.injEq, Nat.cast_inj] at number
  omega

/-- Where no canary is sent, recovery keeps to its clock unless it is triggered behind the plan's end; else
it does so exactly where teardown and cooldown end before that. -/
theorem recovery_respects_clock_iff (request : RecoveryRequest) (report : RecoveryReport)
    (proved : proveRecovery request = .ok report) :
    ∃ plan document, request.plan = .dict document ∧ Accepts plan document ∧
      (RespectsClock plan.hardMaxima request report ↔
        if request.canaries = [] then request.triggerAtSeconds ≤ plan.hardMaxima .durationSeconds
        else request.triggerAtSeconds + request.teardownSeconds + plan.hardMaxima .cooldownSeconds ≤
          plan.hardMaxima .durationSeconds) := by
  obtain ⟨document, accepted, proved⟩ := bind_ok.mp proved
  obtain ⟨same, plan, accepts⟩ := validateEnvelopePlan_ok accepted
  refine ⟨plan, document, same, accepts, ?_⟩
  have positive := accepted_positive accepted accepts
  obtain ⟨authorization, maxima, auth, hard, read⟩ := accepts.maxima
  obtain ⟨_, found, proved⟩ := bind_ok.mp proved
  cases Option.some.inj (auth.symm.trans (dictItem_ok.mp found))
  obtain ⟨_, found, proved⟩ := bind_ok.mp proved
  cases Option.some.inj (hard.symm.trans (dictItem_ok.mp found))
  split at proved
  · cases proved
  split at proved
  · cases proved
  rename_i bounds
  obtain ⟨served, spaced⟩ : 0 ≤ request.teardownSeconds ∧ 0 < request.canaryIntervalSeconds := by omega
  simp only [bind_ok] at proved
  obtain ⟨_, -, tested, -, lacking, -, proved⟩ := proved
  split at proved
  · cases proved
  simp only [bind_ok, pure_ok] at proved
  obtain ⟨duration, isDuration, cooldown, isCooldown, recovery, isRecovery, ⟨attempts, recoveredAt⟩, tried, loadFailed, -, rfl⟩ :=
    proved
  have isMaximum {key : MaximaKey} {n : Int} (held : seconds maxima key = .ok n) : n = plan.hardMaxima key :=
    Value.int.inj (Option.some.inj ((seconds_ok held).symm.trans (read key)))
  obtain rfl := isMaximum isDuration
  obtain rfl := isMaximum isCooldown
  obtain rfl := isMaximum isRecovery
  have cooled := positive .cooldownSeconds
  have recovers := positive .recoveryDeadlineSeconds
  obtain ⟨within, passed, after, first⟩ := attempt_ok spaced tried
  simp only [deadlines] at within after first
  constructor
  · intro respects
    split
    · have order := respects.ordered
      simp only [deadlines, List.map_cons, List.map_nil, List.pairwise_cons, List.mem_cons, forall_eq_or_imp] at order
      omega
    · rename_i some_
      obtain ⟨a, member, now⟩ := first some_ (by omega)
      have attempted := respects.attempted a member
      simp only [deadlines] at attempted
      omega
  · intro condition
    have early : request.triggerAtSeconds ≤ plan.hardMaxima .durationSeconds := by
      split at condition
      · exact condition
      · omega
    have ends (some_ : attempts ≠ []) : request.triggerAtSeconds + request.teardownSeconds +
        plan.hardMaxima .cooldownSeconds ≤ plan.hardMaxima .durationSeconds := by
      split at condition
      · rename_i none_
        rw [none_] at tried
        cases tried
        exact absurd rfl some_
      · exact condition
    constructor
    · rfl
    · simp only [deadlines, List.map_cons, List.map_nil, List.pairwise_cons, List.mem_cons, forall_eq_or_imp,
        List.not_mem_nil, false_implies, implies_true, List.Pairwise.nil, and_true]
      omega
    · intro a member
      have inner := within a member
      have ended := ends (List.ne_nil_of_mem member)
      simp only [deadlines]
      omega
    · rw [outcomeOf_recovered]
      exact passed
    · rw [outcomeOf_recovered]
      intro recovered
      obtain ⟨t, held⟩ := Option.isSome_iff_exists.mp recovered
      obtain ⟨a, member, -⟩ := passed.mp recovered
      have ended := ends (List.ne_nil_of_mem member)
      have late := after t held
      refine ⟨t - request.triggerAtSeconds, by rw [held]; rfl, ?_⟩
      omega

/-- A canary that passes, for a plan of forty seconds. -/
def passingRequest (triggerAtSeconds : Int) : RecoveryRequest where
  plan := pacedPlan.value
  analysis := []
  expectations := [Dict.entry "media" (.bool true)]
  baseline := [Dict.entry "expectations" (.dict [Dict.entry "media" (.bool true)])]
  canaries := [[Dict.entry "expectations" (.dict [Dict.entry "media" (.bool true)]), Dict.entry "passed" (.bool true)]]
  triggerAtSeconds := triggerAtSeconds
  teardownSeconds := 5
  canaryIntervalSeconds := 1
  levelArtifacts := []
  stopReason := none

theorem paced_maxima {plan : EnvelopePlan} {document : Dict} (same : pacedPlan.value = .dict document)
    (accepts : Accepts plan document) (key : MaximaKey) : plan.hardMaxima key = pacedPlan.hardMaxima key := by
  obtain ⟨authorization, maxima, auth, hard, read⟩ := accepts.maxima
  cases same
  cases Option.some.inj auth
  cases Option.some.inj hard
  have listed : (amounts maximaKeys MaximaKey.name pacedPlan.hardMaxima).get? key.name =
      some (.int (pacedPlan.hardMaxima key)) := amounts_get? maximaKeys_distinct (mem_maximaKeys key)
  have number := Option.some.inj ((read key).symm.trans listed)
  exact Int.ofNat.inj (Value.int.inj number)

/-- With fifteen seconds gone and one of cooldown, there is time left for the canary. -/
theorem timely_recovery_respects_clock : ∃ report, proveRecovery (passingRequest 10) = .ok report ∧
    RespectsClock pacedPlan.hardMaxima (passingRequest 10) report := by
  have returns : (proveRecovery (passingRequest 10)).isOk = true := by decide +kernel
  obtain ⟨report, proved⟩ := isOk_iff.mp returns
  obtain ⟨plan, document, same, accepts, exactly⟩ := recovery_respects_clock_iff _ report proved
  have maxima : plan.hardMaxima = pacedPlan.hardMaxima := funext (paced_maxima same accepts)
  rw [maxima] at exactly
  exact ⟨report, proved, exactly.mpr (by decide)⟩

/-- Triggered behind the plan's end, recovery has its canary pass before it was triggered, and without a
second of cooldown. -/
theorem late_recovery_skips_cooldown : ∃ report, proveRecovery (passingRequest 41) = .ok report ∧
    ¬ RespectsClock pacedPlan.hardMaxima (passingRequest 41) report := by
  have times : (proveRecovery (passingRequest 41)).toOption.map
      (fun report => (report.deadlines.teardownEnd, report.recoveryAttempts.map Attempt.atSeconds)) =
        some (40, [40]) := by decide +kernel
  cases proved : proveRecovery (passingRequest 41) with
  | error raised =>
    rw [proved] at times
    cases times
  | ok report =>
    rw [proved] at times
    obtain ⟨ended, attempts⟩ := Prod.mk.inj (Option.some.inj times)
    refine ⟨report, rfl, fun respects => ?_⟩
    obtain ⟨a, member, now⟩ := List.mem_map.mp (attempts ▸ List.mem_singleton_self (40 : Int))
    have attempted := (respects.attempted a member).1
    have cooldown : pacedPlan.hardMaxima .cooldownSeconds = 1 := rfl
    rw [ended, now, cooldown] at attempted
    omega

end clock
end Sippycup.Envelope
