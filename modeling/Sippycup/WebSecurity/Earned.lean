import Sippycup.Machine.HashChain
import Sippycup.Python.Rounding
import Sippycup.WebSecurity.Agreement

/-! What a pass of the web-security oracle is worth: nothing was found, so the results are
those of the plan's cases and the sums are within its ceilings. A plan without cases, and a
run that took longer than its counters say, pass all the same. -/
namespace Sippycup.WebSecurity
open Sippycup.Python Sippycup.Machine

/-- The result is of the case, as the case expects it, and leaves no session behind. -/
structure Meets (result : CaseResult) (case_ : PlanCase) : Prop where
  check : result.check = case_.check
  surface : result.surface = case_.check.surface
  outcome : result.observedOutcome = .decided case_.expectedOutcome
  session : case_.expectedOutcome.denies = true → result.sessionState ≠ .authenticated

/-- The time of the last result. -/
def Observation.elapsed (observation : Observation) : Nat :=
  (observation.results.getLast?.map CaseResult.timeMs).getD 0

/-- Exactly one result for each case, which meets it; sums and time within the ceilings; no
traffic while blocked; and nothing left open. -/
structure Earned (plan : Plan) (observation : Observation) : Prop where
  cases_ : plan.cases ≠ []
  distinct : (plan.cases.map fun case_ => case_.id).Nodup
  exactly : (observation.results.map CaseResult.caseId).Perm (plan.cases.map fun case_ => case_.id)
  meets : ∀ case_ ∈ plan.cases, ∀ result ∈ observation.results, result.caseId = case_.id → Meets result case_
  totals : ∀ counter, (observation.totals counter).val = observation.summed counter
  within : ∀ counter, counter ≠ .durationMs → observation.summed counter ≤ Observation.ceilingOf plan.limits counter
  duration : observation.summed .durationMs ≤ 1000 * plan.limits.maxDurationSeconds.val
  elapsed : observation.elapsed ≤ 1000 * plan.limits.maxDurationSeconds.val
  blocked : plan.state = .blocked →
    ∀ counter ∈ [Counter.connections, .httpRequests, .wsMessages, .bytes], observation.summed counter = 0
  closed : observation.openConnections = 0 ∧ observation.liveSessions = 0

section reading

theorem readResult_fresh {lastSequence lastTime : Int} {caseIds : List Identifier} {item : JsonValue} {path : String}
    {result : CaseResult} (ok : readResult lastSequence lastTime caseIds item path = .ok result) :
    result.caseId ∉ caseIds := by
  unfold readResult at ok
  simp only [bind_ok, Webrtc.require_ok] at ok
  obtain ⟨_, -, _, -, _, -, _, -, _, -, _, -, caseId, -, _, fresh, ok⟩ := ok
  obtain ⟨_, -, _, -, _, -, _, -, _, -, _, -, _, -, same⟩ := ok
  obtain rfl := pure_ok.mp same
  simpa using fresh

theorem readResults_nodup {index : Nat} {lastSequence lastTime : Int} {caseIds : List Identifier}
    {items : List JsonValue} {results : List CaseResult}
    (ok : readResults index lastSequence lastTime caseIds items = .ok results) :
    (results.map CaseResult.caseId).Nodup ∧ ∀ id ∈ results.map CaseResult.caseId, id ∉ caseIds := by
  induction items generalizing index lastSequence lastTime caseIds results with
  | nil =>
    cases ok
    exact ⟨List.nodup_nil, fun _ member => absurd member List.not_mem_nil⟩
  | cons item rest ih =>
    obtain ⟨result, read, ok⟩ := bind_ok.mp ok
    obtain ⟨others, later, same⟩ := bind_ok.mp ok
    obtain rfl := pure_ok.mp same
    obtain ⟨distinct, apart⟩ := ih later
    rw [List.map_cons, List.nodup_cons]
    refine ⟨⟨fun member => apart _ member (by simp), distinct⟩, fun id member => ?_⟩
    rcases List.mem_cons.mp member with rfl | among
    · exact readResult_fresh read
    · exact fun used => apart id among (List.mem_append_left _ used)

theorem validateObservation_nodup {document : JsonValue} {observation : Observation}
    (ok : validateObservation document = .ok observation) :
    (observation.results.map CaseResult.caseId).Nodup := by
  unfold validateObservation at ok
  simp only [bind_ok] at ok
  obtain ⟨_, -, _, -, _, -, _, -, _, -, items, -, _, -, results, read, ok⟩ := ok
  obtain ⟨_, -, _, -, _, -, _, -, _, -, same⟩ := ok
  obtain rfl := pure_ok.mp same
  exact (readResults_nodup read).1

theorem readPlanCase_fresh {used : List Identifier} {item : JsonValue} {path : String} {case_ : PlanCase}
    (ok : readPlanCase used item path = .ok case_) : case_.id ∉ used := by
  unfold readPlanCase at ok
  simp only [bind_ok, Webrtc.require_ok] at ok
  obtain ⟨_, -, _, -, id, -, _, fresh, _, -, _, -, _, -, _, -, _, -, _, -, same⟩ := ok
  obtain rfl := pure_ok.mp same
  simpa using fresh

theorem validatePlan_nodup {document : JsonValue} {plan : Plan} (ok : validatePlan document = .ok plan) :
    (plan.cases.map fun case_ => case_.id).Nodup := by
  unfold validatePlan at ok
  simp only [bind_ok] at ok
  obtain ⟨_, -, _, -, _, -, _, -, _, -, _, -, _, -, _, -, _, -, _, -, _, -, items, -, cases, read, ok⟩ := ok
  obtain ⟨_, -, _, -, _, -, _, -, same⟩ := ok
  obtain rfl := pure_ok.mp same
  exact (readFresh_ok (fun name => name) (fun used _ _ _ ok => by simpa using readPlanCase_fresh ok) read).1

end reading

section findings
variable {plan : Plan} {observation : Observation}

theorem caseFindings_nil {result : CaseResult} {case_ : PlanCase} (findings : result.findings case_ = [])
    (unknowns : result.unknowns case_ = []) : Meets result case_ := by
  unfold CaseResult.findings at findings
  unfold CaseResult.unknowns at unknowns
  obtain ⟨binding, outcomes⟩ := List.append_eq_nil_iff.mp findings
  have bound : ¬ (result.check ≠ case_.check ∨ result.surface ≠ case_.check.surface) := fun other => by
    rw [if_pos other] at binding
    cases binding
  rw [not_or, not_not, not_not] at bound
  cases observed : result.observedOutcome with
  | unknown | error =>
    rw [observed] at unknowns
    cases unknowns
  | decided outcome =>
    rw [observed] at outcomes
    obtain ⟨expected, session⟩ := List.append_eq_nil_iff.mp outcomes
    have same : outcome = case_.expectedOutcome := by
      by_contra other
      rw [if_pos other] at expected
      cases expected
    subst same
    refine ⟨bound.1, bound.2, observed, fun denied left => ?_⟩
    rw [if_pos ⟨denied, left⟩] at session
    cases session

/-- Without duplicates, the results found by the cases' identifiers are all the results. -/
theorem exactly_of_clean (planned : (plan.cases.map fun case_ => case_.id).Nodup)
    (observed : (observation.results.map CaseResult.caseId).Nodup) (unplanned : observation.unplanned plan = [])
    (findings : observation.caseFindings plan = []) (unknowns : observation.caseUnknowns plan = []) :
    (observation.results.map CaseResult.caseId).Perm (plan.cases.map fun case_ => case_.id) ∧
      ∀ case_ ∈ plan.cases, ∀ result ∈ observation.results, result.caseId = case_.id → Meets result case_ := by
  have found (case_ : PlanCase) (member : case_ ∈ plan.cases) :
      ∃ result, observation.resultOf case_.id = some result ∧ Meets result case_ := by
    have finds := List.flatMap_eq_nil_iff.mp findings case_ member
    have missing := List.flatMap_eq_nil_iff.mp unknowns case_ member
    cases held : observation.resultOf case_.id with
    | none =>
      rw [held] at missing
      cases missing
    | some result =>
      rw [held] at finds missing
      exact ⟨result, rfl, caseFindings_nil finds missing⟩
  constructor
  · rw [List.perm_ext_iff_of_nodup observed planned]
    intro id
    constructor
    · intro member
      by_contra outside
      have listed : id ∈ observation.unplanned plan := by
        rw [Observation.unplanned, (List.perm_insertionSort _ _).mem_iff, List.mem_filter]
        exact ⟨member, by simpa using outside⟩
      rw [unplanned] at listed
      cases listed
    · intro member
      obtain ⟨case_, inside, rfl⟩ := List.mem_map.mp member
      obtain ⟨result, held, -⟩ := found case_ inside
      have same : result.caseId = case_.id := by simpa using List.find?_some held
      rw [← same]
      exact List.mem_map_of_mem (List.mem_of_find?_eq_some held)
  · intro case_ member result inside same
    obtain ⟨other, held, meets⟩ := found case_ member
    have named : other.caseId = case_.id := by simpa using List.find?_some held
    rwa [List.inj_on_of_nodup_map observed inside (List.mem_of_find?_eq_some held) (same.trans named.symm)]

theorem mem_allCounters (counter : Counter) : counter ∈ allCounters := by
  cases counter <;> decide

theorem ceilings_of_clean (clean : observation.ceilingFindings plan = []) :
    (∀ counter, counter ≠ .durationMs → observation.summed counter ≤ Observation.ceilingOf plan.limits counter) ∧
      observation.summed .durationMs ≤ 1000 * plan.limits.maxDurationSeconds.val := by
  have within (counter : Counter) :
      (Number.int (Observation.ceilingOf plan.limits counter)).lt (observation.compared counter) = false := by
    have none := List.flatMap_eq_nil_iff.mp clean counter (mem_allCounters counter)
    by_contra exceeded
    rw [if_pos (by simpa using exceeded)] at none
    cases none
  constructor
  · intro counter other
    have below := within counter
    have counted : observation.compared counter = .int (observation.summed counter) := by
      cases counter with
      | durationMs => exact absurd rfl other
      | _ => rfl
    rw [counted, Number.lt_int, decide_eq_false_iff_not, not_lt] at below
    exact_mod_cast below
  · by_contra late
    have exceeded := seconds_exceed (plan.limits.maxDurationSeconds.property.2.trans (by decide)) (not_le.mp late)
    exact Bool.false_ne_true ((within .durationMs).symm.trans exceeded)

theorem requireTotals_ok {counters : List Counter} (ok : observation.requireTotals counters = .ok ()) :
    ∀ counter ∈ counters, (observation.totals counter).val = observation.summed counter := by
  induction counters with
  | nil => exact fun _ member => absurd member List.not_mem_nil
  | cons first rest ih =>
    obtain ⟨_, same, ok⟩ := bind_ok.mp ok
    rw [Webrtc.require_ok, decide_eq_true_eq] at same
    exact List.forall_mem_cons.mpr ⟨same, ih ok⟩

theorem closing_of_clean (clean : observation.closingFindings plan = []) :
    (plan.state = .blocked →
      ∀ counter ∈ [Counter.connections, .httpRequests, .wsMessages, .bytes], observation.summed counter = 0) ∧
      observation.openConnections = 0 ∧ observation.liveSessions = 0 := by
  obtain ⟨early, cleanup⟩ := List.append_eq_nil_iff.mp clean
  obtain ⟨blocked, -⟩ := List.append_eq_nil_iff.mp early
  constructor
  · intro state counter member
    have silent : observation.traffic = false := by
      by_contra traffic
      rw [if_pos ⟨state, by simpa using traffic⟩] at blocked
      cases blocked
    have none := List.any_eq_false.mp silent counter member
    simpa using none
  · by_contra left
    rw [not_and_or] at left
    rw [if_pos left] at cleanup
    cases cleanup

end findings

section evaluation
variable {planDocument observationDocument : JsonValue} {report : Report}

/-- All but the two things the oracle does not look at. -/
theorem evaluate_pass (ok : evaluate planDocument observationDocument = .ok report) (passes : report.status = .pass) :
    ∃ plan observation, validatePlan planDocument = .ok plan ∧
      validateObservation observationDocument = .ok observation ∧
      observation.planDigest = planDigest planDocument ∧
      (plan.cases ≠ [] → observation.elapsed ≤ 1000 * plan.limits.maxDurationSeconds.val →
        Earned plan observation) := by
  obtain ⟨plan, validPlan, ok⟩ := bind_ok.mp ok
  obtain ⟨observation, validObservation, ok⟩ := bind_ok.mp ok
  obtain ⟨_, bound, ok⟩ := bind_ok.mp ok
  obtain ⟨_, totals, ok⟩ := bind_ok.mp ok
  obtain rfl := pure_ok.mp ok
  rw [Webrtc.require_ok, decide_eq_true_eq] at bound
  dsimp only at passes
  have found : observation.findings plan = [] := by
    cases list : observation.findings plan with
    | nil => rfl
    | cons first rest =>
      rw [list] at passes
      cases passes
  have known : observation.caseUnknowns plan = [] := by
    cases list : observation.caseUnknowns plan with
    | nil => rfl
    | cons first rest =>
      rw [found, list] at passes
      cases passes
  simp only [Observation.findings, List.append_eq_nil_iff, List.map_eq_nil_iff] at found
  obtain ⟨⟨⟨⟨unplanned, cases_⟩, ceilings⟩, -⟩, closing⟩ := found
  have distinct := validatePlan_nodup validPlan
  obtain ⟨exactly, meets⟩ :=
    exactly_of_clean distinct (validateObservation_nodup validObservation) unplanned cases_ known
  obtain ⟨within, duration⟩ := ceilings_of_clean ceilings
  obtain ⟨blocked, closed⟩ := closing_of_clean closing
  refine ⟨plan, observation, validPlan, validObservation, bound, fun some_ elapsed => ?_⟩
  exact ⟨some_, distinct, exactly, meets, fun counter => requireTotals_ok totals counter (mem_allCounters counter),
    within, duration, elapsed, blocked, closed⟩

/-- A pass is earned exactly when the plan has a case and the last result came in time; and
the observation is bound to no other plan, where the hash does not collide. -/
theorem pass_earned_iff (ok : evaluate planDocument observationDocument = .ok report) (passes : report.status = .pass) :
    ∃ plan observation, validatePlan planDocument = .ok plan ∧
      validateObservation observationDocument = .ok observation ∧
      (Earned plan observation ↔
        plan.cases ≠ [] ∧ observation.elapsed ≤ 1000 * plan.limits.maxDurationSeconds.val) ∧
      ∀ other : JsonValue, CollisionFree sha256Hex [planDocument.canonical, other.canonical] →
        observation.planDigest = planDigest other → other.Same planDocument := by
  obtain ⟨plan, observation, validPlan, validObservation, bound, earned⟩ := evaluate_pass ok passes
  refine ⟨plan, observation, validPlan, validObservation, ⟨fun found => ⟨found.cases_, found.elapsed⟩,
    fun ⟨some_, elapsed⟩ => earned some_ elapsed⟩, fun other free digest => ?_⟩
  have same : sha256Hex planDocument.canonical = sha256Hex other.canonical := bound.symm.trans digest
  exact JsonValue.canonical_injective (free _ (by simp) _ (by simp) same).symm

end evaluation

section examples

/-- An offline plan of the given cases, with the limits of the example profile. -/
def examplePlan (cases : List JsonValue) : JsonValue :=
  .dict [
    JsonDict.entry "apiVersion" (.str planVersion), JsonDict.entry "networkActivity" (.bool false),
    JsonDict.entry "executionClass" (.str "offline_fixture"),
    JsonDict.entry "adapter" (.dict [JsonDict.entry "id" (.str "demo"), JsonDict.entry "version" (.str "1.0.0")]),
    JsonDict.entry "authorization" (.dict [
      JsonDict.entry "state" (.str "not-required"), JsonDict.entry "reference" .null,
      JsonDict.entry "surfaces" (.list []), JsonDict.entry "blockers" (.list [])]),
    JsonDict.entry "destinations" (.list [.dict [
      JsonDict.entry "id" (.str "web"), JsonDict.entry "surface" (.str "admin"), JsonDict.entry "scheme" (.str "https"),
      JsonDict.entry "connectAddress" (.str "127.0.0.1"), JsonDict.entry "port" (.int 8443),
      JsonDict.entry "tlsServerName" (.str "localhost")]]),
    JsonDict.entry "cases" (.list cases), JsonDict.entry "limits" (.dict exampleLimits),
    JsonDict.entry "arbitraryRequestsAvailable" (.bool false)]

def examplePlanCase : JsonValue :=
  .dict [
    JsonDict.entry "id" (.str "as-viewer"), JsonDict.entry "check" (.str "admin.role-boundary"),
    JsonDict.entry "routeId" (.str "page"), JsonDict.entry "credentialRole" .null,
    JsonDict.entry "credentialRef" .null, JsonDict.entry "originClass" .null,
    JsonDict.entry "expectedOutcome" (.str "denied")]

def noCounts : JsonValue := .dict (allCounters.map fun counter => JsonDict.entry counter.name (.int 0))

def exampleResult (timeMs : Int) : JsonValue :=
  .dict [
    JsonDict.entry "sequence" (.int 1), JsonDict.entry "timeMs" (.int timeMs),
    JsonDict.entry "caseId" (.str "as-viewer"), JsonDict.entry "check" (.str "admin.role-boundary"),
    JsonDict.entry "surface" (.str "admin"), JsonDict.entry "observedOutcome" (.str "denied"),
    JsonDict.entry "responseClass" (.str "4xx"), JsonDict.entry "closeCode" .null,
    JsonDict.entry "sessionState" (.str "none"), JsonDict.entry "counters" noCounts]

/-- Evidence for a plan, without any traffic. -/
def exampleEvidence (plan : JsonValue) (results : List JsonValue) : JsonValue :=
  .dict [
    JsonDict.entry "apiVersion" (.str observationVersion), JsonDict.entry "networkActivity" (.bool false),
    JsonDict.entry "planDigest" (.str (planDigest plan)), JsonDict.entry "results" (.list results),
    JsonDict.entry "totals" noCounts,
    JsonDict.entry "cleanup" (.dict [JsonDict.entry "openConnections" (.int 0), JsonDict.entry "liveSessions" (.int 0)])]

/-- Status of the evidence, number of cases, and whether the last result is late. -/
def exampleVerdict (cases results : List JsonValue) : Result (Status × Nat × Bool) := do
  let plan ← validatePlan (examplePlan cases)
  let observation ← validateObservation (exampleEvidence (examplePlan cases) results)
  let report ← evaluate (examplePlan cases) (exampleEvidence (examplePlan cases) results)
  return (report.status, plan.cases.length, decide (1000 * plan.limits.maxDurationSeconds.val < observation.elapsed))

theorem exampleVerdict_ok {cases results : List JsonValue} {status : Status} {count : Nat} {late : Bool}
    (ok : exampleVerdict cases results = .ok (status, count, late)) :
    ∃ plan observation report, validatePlan (examplePlan cases) = .ok plan ∧
      validateObservation (exampleEvidence (examplePlan cases) results) = .ok observation ∧
      evaluate (examplePlan cases) (exampleEvidence (examplePlan cases) results) = .ok report ∧
      report.status = status ∧ plan.cases.length = count ∧
      decide (1000 * plan.limits.maxDurationSeconds.val < observation.elapsed) = late := by
  obtain ⟨plan, planned, ok⟩ := bind_ok.mp ok
  obtain ⟨observation, observed, ok⟩ := bind_ok.mp ok
  obtain ⟨report, reported, ok⟩ := bind_ok.mp ok
  cases pure_ok.mp ok
  exact ⟨plan, observation, report, planned, observed, reported, rfl, rfl, rfl⟩

/-- The evidence passes, and its pass is not earned. -/
def PassesUnearned (cases results : List JsonValue) : Prop :=
  ∃ plan observation report, validatePlan (examplePlan cases) = .ok plan ∧
    validateObservation (exampleEvidence (examplePlan cases) results) = .ok observation ∧
    evaluate (examplePlan cases) (exampleEvidence (examplePlan cases) results) = .ok report ∧
    report.status = .pass ∧ ¬ Earned plan observation

/-- No case at all passes, and so does a case that took ten times the allowed duration. -/
theorem unearned_passes : PassesUnearned [] [] ∧ PassesUnearned [examplePlanCase] [exampleResult 300000] := by
  constructor
  · have verdict : exampleVerdict [] [] = .ok (.pass, 0, false) := by
      unfold exampleVerdict evaluate exampleEvidence planDigest
      rw [Sha256.sha256Hex_unrolled]
      decide +kernel
    obtain ⟨plan, observation, report, planned, observed, reported, passes, none, -⟩ := exampleVerdict_ok verdict
    exact ⟨plan, observation, report, planned, observed, reported, passes,
      fun earned => earned.cases_ (List.length_eq_zero_iff.mp none)⟩
  · have verdict : exampleVerdict [examplePlanCase] [exampleResult 300000] = .ok (.pass, 1, true) := by
      unfold exampleVerdict evaluate exampleEvidence planDigest
      rw [Sha256.sha256Hex_unrolled]
      decide +kernel
    obtain ⟨plan, observation, report, planned, observed, reported, passes, -, late⟩ := exampleVerdict_ok verdict
    exact ⟨plan, observation, report, planned, observed, reported, passes,
      fun earned => absurd earned.elapsed (not_le.mpr (of_decide_eq_true late))⟩

theorem viewer_pass_is_earned : ∃ plan observation, validatePlan (examplePlan [examplePlanCase]) = .ok plan ∧
    validateObservation (exampleEvidence (examplePlan [examplePlanCase]) [exampleResult 20]) = .ok observation ∧
    Earned plan observation := by
  have verdict : exampleVerdict [examplePlanCase] [exampleResult 20] = .ok (.pass, 1, false) := by
    unfold exampleVerdict evaluate exampleEvidence planDigest
    rw [Sha256.sha256Hex_unrolled]
    decide +kernel
  obtain ⟨plan, observation, report, planned, observed, reported, passes, one, timely⟩ := exampleVerdict_ok verdict
  obtain ⟨plan', observation', planned', observed', earned, -⟩ := pass_earned_iff reported passes
  obtain rfl := Except.ok.inj (planned.symm.trans planned')
  obtain rfl := Except.ok.inj (observed.symm.trans observed')
  refine ⟨plan, observation, planned, observed, earned.mpr ⟨fun none => ?_, not_lt.mp (of_decide_eq_false timely)⟩⟩
  rw [none] at one
  cases one

end examples

end Sippycup.WebSecurity
