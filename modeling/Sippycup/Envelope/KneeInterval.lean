import Sippycup.Envelope.Degradation
import Sippycup.Envelope.Spacing

/-! The tested knee interval: its bounds come from samples that were read, unless
the run stopped for data that it lacked. -/
namespace Sippycup.Envelope
open Sippycup.Python

/-- The metrics of an observation. -/
def metricsOf (sample : Value) : Dict :=
  match sample with
  | .dict d =>
    match Dict.getD d "metrics" .none with
    | .dict metrics => metrics
    | _ => []
  | _ => []

def numberOf (value : Value) : Option Number :=
  match value with
  | .int n => some (.int n)
  | .float (.finite q) => some (.float (.finite q))
  | _ => none

/-- The known value of a metric in an observation. -/
def reading (name : Value) (sample : Value) : Option Number :=
  (knownFact (factOf (metricsOf sample) name)).bind fun fact => numberOf (Dict.getD fact "value" .none)

def knownValues (name : Value) (samples : List Value) : List Double :=
  samples.filterMap fun sample => (reading name sample).bind Number.toDouble?

/-- Past the soft threshold, or moved away from the baseline of the earlier samples. -/
def troubled (baselineSamples : Nat) (name : Value) (rule : Rule) (earlier : List Value) (value : Number) :
    Bool :=
  adverse rule.direction value rule.soft ||
    (match changed rule value (baselineOf baselineSamples (knownValues name earlier)) with
    | .ok moved => moved
    | .error _ => false)

/-- Length of the troubled run at the end of the samples, the latest of them first. -/
@[grind =] def streakOf (baselineSamples : Nat) (name : Value) (rule : Rule) : List Value → Nat
  | [] => 0
  | sample :: earlier =>
    match reading name sample with
    | none => 0
    | some value =>
      if troubled baselineSamples name rule earlier.reverse value then
        streakOf baselineSamples name rule earlier + 1
      else 0

section
variable (policy : Policy)

/-- Some metric is past its hard threshold. -/
def Hard (sample : Value) : Prop :=
  ∃ entry ∈ policy.metrics, ∃ value, reading entry.1 sample = some value ∧
    adverse entry.2.direction value entry.2.hard = true

/-- Some required metric is missing or stale. -/
def Lacking (sample : Value) : Prop :=
  ∃ entry ∈ policy.metrics, entry.2.required = true ∧ reading entry.1 sample = none

/-- Some metric has been troubled for as many samples as its rule asks. -/
def Repeated (earlier : List Value) (sample : Value) : Prop :=
  ∃ entry ∈ policy.metrics, (reading entry.1 sample).isSome = true ∧
    entry.2.consecutive ≤ streakOf policy.baselineSamples entry.1 entry.2 (sample :: earlier.reverse)

def Stops (earlier : List Value) (sample : Value) : Prop :=
  Hard policy sample ∨ Lacking policy sample ∨ Repeated policy earlier sample

/-- The first sample that stops the run lacks required data, and no metric in it
is past a hard threshold. -/
@[grind =] def StopsBlind : List Value → List Value → Prop
  | _, [] => False
  | earlier, sample :: rest =>
    Stops policy earlier sample ∧ Lacking policy sample ∧ ¬ Hard policy sample ∨
      ¬ Stops policy earlier sample ∧ StopsBlind (earlier ++ [sample]) rest

end

/-- The bounds of the interval are levels with evidence, the lower below the upper. -/
structure Honest (tested : List Value) (analysis : Analysis) : Prop where
  upper : ∀ level, analysis.interval.upperTestedDegraded = some level →
    ∃ trigger, analysis.trigger = some trigger ∧ trigger.level = level ∧
      (trigger.classification = .degraded ∨ trigger.classification = .hardStop)
  lower : ∀ level, analysis.interval.lowerTestedHealthy = some level → level.isIn tested = true ∧
    ∃ decision ∈ analysis.decisions, decision.level = level ∧ decision.classification = .healthy
  below : ∀ lower upper, analysis.interval.lowerTestedHealthy = some lower →
    analysis.interval.upperTestedDegraded = some upper → levelLt lower upper = true

/-- The track of a metric after some samples. -/
def trackAfter (baselineSamples : Nat) (earlier : List Value) (entry : Value × Rule) : Track :=
  ⟨entry.1, entry.2, streakOf baselineSamples entry.1 entry.2 earlier.reverse, knownValues entry.1 earlier⟩

theorem finite?_ok {value : Value} {result : Option Number} (ok : finite? value = .ok result) :
    result = numberOf value ∧ ∀ n, result = some n → ∃ d, n.toDouble? = some d := by
  cases value with
  | int n =>
    rw [finite?] at ok
    split at ok
    · rename_i convertible
      obtain rfl := Except.ok.inj ok
      refine ⟨rfl, fun m same => ?_⟩
      obtain rfl := Option.some.inj same
      exact Option.isSome_iff_exists.mp convertible
    · cases ok
  | float x =>
    cases x with
    | finite q =>
      obtain rfl := Except.ok.inj ok
      refine ⟨rfl, fun m same => ?_⟩
      obtain rfl := Option.some.inj same
      exact ⟨_, rfl⟩
    | _ =>
      obtain rfl := Except.ok.inj ok
      exact ⟨rfl, fun _ same => nomatch same⟩
  | _ =>
    obtain rfl := Except.ok.inj ok
    exact ⟨rfl, fun _ same => nomatch same⟩

theorem overflow_some {α : Type} {x : Option α} {a : α} (ok : overflow x = .ok a) : x = some a := by
  cases x with
  | none => cases ok
  | some b => exact congrArg some (Except.ok.inj ok)

/-- What one sample makes of the track of a metric. -/
structure Observed (baselineSamples : Nat) (earlier : List Value) (sample : Value) (entry : Value × Rule)
    (result : Track × Citation × Finding) : Prop where
  track : result.1 = trackAfter baselineSamples (earlier ++ [sample]) entry
  hard : result.2.2 = .hard ↔ ∃ value, reading entry.1 sample = some value ∧
    adverse entry.2.direction value entry.2.hard = true
  lacking : result.2.2 = .lacking ↔ entry.2.required = true ∧ reading entry.1 sample = none
  repeated : result.2.2 = .repeated ↔ result.2.2 ≠ .hard ∧ (reading entry.1 sample).isSome = true ∧
    entry.2.consecutive ≤ streakOf baselineSamples entry.1 entry.2 (sample :: earlier.reverse)

/-- The finding about a metric that was read. -/
theorem findingOf_spec (past : Bool) (consecutive streak : Nat) :
    ((if past then Finding.hard else if consecutive ≤ streak then .repeated else .none) = .hard ↔
        past = true) ∧
      (if past then Finding.hard else if consecutive ≤ streak then .repeated else .none) ≠ .lacking ∧
      ((if past then Finding.hard else if consecutive ≤ streak then .repeated else .none) = .repeated ↔
        (if past then Finding.hard else if consecutive ≤ streak then .repeated else .none) ≠ .hard ∧
          consecutive ≤ streak) := by
  cases past
  · by_cases long : consecutive ≤ streak <;> simp [long]
  · simp

theorem observe_ok {baselineSamples : Nat} {earlier : List Value} {sample : Value} {metrics : Dict}
    {entry : Value × Rule} {result : Track × Citation × Finding} (held : metricsOf sample = metrics)
    (ok : (trackAfter baselineSamples earlier entry).observe baselineSamples metrics = .ok result) :
    Observed baselineSamples earlier sample entry result := by
  subst held
  obtain ⟨name, rule⟩ := entry
  cases known : knownFact (factOf (metricsOf sample) name) with
  | none =>
    have unread : reading name sample = none := by rw [reading, known, Option.bind_none]
    rw [Track.observe] at ok
    dsimp only [trackAfter] at ok
    rw [known] at ok
    obtain rfl := Except.ok.inj ok
    refine ⟨?_, ?_, ?_, ?_⟩
    · simp only [trackAfter, List.reverse_append, List.reverse_singleton, List.singleton_append, streakOf,
        unread, knownValues, List.filterMap_append, List.filterMap_cons, List.filterMap_nil,
        Option.bind_none, List.append_nil]
    · by_cases required : rule.required = true <;> simp [unread, required]
    · by_cases required : rule.required = true <;> simp [unread, required]
    · by_cases required : rule.required = true <;> simp [unread, required]
  | some fact =>
    rw [Track.observe] at ok
    dsimp only [trackAfter] at ok
    rw [known] at ok
    obtain ⟨found, finite, ok⟩ := bind_ok.mp ok
    obtain ⟨numbered, convertible⟩ := finite?_ok finite
    have read : reading name sample = found := by rw [reading, known, Option.bind_some, numbered]
    cases found with
    | none => cases ok
    | some value =>
      obtain ⟨moved, isMoved, ok⟩ := bind_ok.mp ok
      obtain ⟨recorded, isRecorded, ok⟩ := bind_ok.mp ok
      obtain rfl := pure_ok.mp ok
      have trouble : troubled baselineSamples name rule earlier value =
          (adverse rule.direction value rule.soft || moved) := by
        rw [troubled, isMoved]
      have streak : streakOf baselineSamples name rule (sample :: earlier.reverse) =
          if adverse rule.direction value rule.soft || moved then
            streakOf baselineSamples name rule earlier.reverse + 1 else 0 := by
        rw [streakOf, read]
        dsimp only
        rw [List.reverse_reverse, trouble]
      refine ⟨?_, ?_, ?_, ?_⟩
      · simp only [trackAfter, List.reverse_append, List.reverse_singleton, List.singleton_append, streak,
          knownValues, List.filterMap_append, List.filterMap_cons, List.filterMap_nil, read,
          Option.bind_some, overflow_some isRecorded]
      · simp only [read, Option.some.injEq, exists_eq_left']
        exact (findingOf_spec _ _ _).1
      · simp only [read, reduceCtorEq, and_false, iff_false]
        exact (findingOf_spec _ _ _).2.1
      · simp only [streak, read, Option.isSome_some, true_and]
        exact (findingOf_spec _ _ _).2.2

theorem namesWith_ne_nil {readings : List (Track × Citation × Finding)} {finding : Finding} :
    namesWith readings finding ≠ [] ↔ ∃ r ∈ readings, r.2.2 = finding := by
  rw [namesWith, ne_eq, List.map_eq_nil_iff, List.filter_eq_nil_iff]
  simp only [decide_eq_true_eq, not_forall, not_not, exists_prop]

theorem classify_spec (readings : List (Track × Citation × Finding)) :
    ((classify readings).1 = .unknown ↔
        (∃ r ∈ readings, r.2.2 = .lacking) ∧ ¬ ∃ r ∈ readings, r.2.2 = .hard) ∧
      ((classify readings).1.action = .continue ↔
        ¬ ((∃ r ∈ readings, r.2.2 = .hard) ∨ (∃ r ∈ readings, r.2.2 = .lacking) ∨
          ∃ r ∈ readings, r.2.2 = .repeated)) := by
  simp only [← namesWith_ne_nil, classify]
  by_cases hard : namesWith readings .hard ≠ []
  · simp [hard, Classification.action]
  · by_cases lacking : namesWith readings .lacking ≠ []
    · simp [hard, lacking, Classification.action]
    · by_cases repeated : namesWith readings .repeated ≠ []
      · simp [hard, lacking, repeated, Classification.action]
      · by_cases suspect : suspects readings ≠ []
        · simp [hard, lacking, repeated, suspect, Classification.action]
        · simp [hard, lacking, repeated, suspect, Classification.action]

section
variable {policy : Policy} {tested : List Value} {earlier : List Value} {sample : Value}
  {readings : List (Track × Citation × Finding)}

theorem readings_observed {metrics : Dict} (held : metricsOf sample = metrics)
    (ok : (policy.metrics.map (trackAfter policy.baselineSamples earlier)).mapM
      (Track.observe policy.baselineSamples metrics) = .ok readings) :
    List.Forall₂ (Observed policy.baselineSamples earlier sample) policy.metrics readings := by
  have each := mapM_ok ok
  rw [List.forall₂_map_left_iff] at each
  exact each.imp fun entry result ok => observe_ok held ok

theorem exists_paired {α β : Type} {P : α → Prop} {Q : β → Prop} {xs : List α} {ys : List β}
    (each : List.Forall₂ (fun x y => Q y ↔ P x) xs ys) : (∃ y ∈ ys, Q y) ↔ ∃ x ∈ xs, P x := by
  induction each with
  | nil => simp
  | cons head _ ih => simp only [List.exists_mem_cons_iff, head, ih]

theorem readings_stop (each : List.Forall₂ (Observed policy.baselineSamples earlier sample) policy.metrics
    readings) :
    ((∃ r ∈ readings, r.2.2 = .hard) ↔ Hard policy sample) ∧
      ((∃ r ∈ readings, r.2.2 = .lacking) ↔ Lacking policy sample) ∧
      ((∃ r ∈ readings, r.2.2 = .hard) ∨ (∃ r ∈ readings, r.2.2 = .lacking) ∨
        (∃ r ∈ readings, r.2.2 = .repeated) ↔ Stops policy earlier sample) := by
  have hard : (∃ r ∈ readings, r.2.2 = .hard) ↔ Hard policy sample :=
    exists_paired (each.imp fun _ _ observed => observed.hard)
  have lacking : (∃ r ∈ readings, r.2.2 = .lacking) ↔ Lacking policy sample :=
    exists_paired (each.imp fun _ _ observed => observed.lacking)
  -- A streak of a metric past its hard threshold is not reported as one.
  have stuck : (∃ r ∈ readings, r.2.2 = .hard ∨ r.2.2 = .repeated) ↔
      ∃ entry ∈ policy.metrics, (∃ value, reading entry.1 sample = some value ∧
        adverse entry.2.direction value entry.2.hard = true) ∨
        (reading entry.1 sample).isSome = true ∧ entry.2.consecutive ≤
          streakOf policy.baselineSamples entry.1 entry.2 (sample :: earlier.reverse) := by
    refine exists_paired (each.imp fun entry r observed => ?_)
    rw [← observed.hard, observed.repeated]
    by_cases past : r.2.2 = .hard
    · simp only [past, true_or]
    · simp only [past, false_or, ne_eq, not_false_eq_true, true_and]
  simp only [and_or_left, exists_or] at stuck
  refine ⟨hard, lacking, ?_⟩
  exact or_left_comm.trans ((or_congr lacking stuck).trans or_left_comm)

/-- One observation that is accepted: its decision, and what the run keeps. -/
structure Steps (policy : Policy) (tested earlier : List Value) (sample : Value) (scan next : Scan)
    (decision : Decision) : Prop where
  tracks : next.tracks = policy.metrics.map (trackAfter policy.baselineSamples (earlier ++ [sample]))
  known : decision.level.isIn tested = true
  decisions : next.decisions = scan.decisions ++ [decision]
  healthy : next.healthyLevels = if decision.classification = .healthy then
    scan.healthyLevels ++ [decision.level] else scan.healthyLevels
  blind : decision.classification = .unknown ↔ Lacking policy sample ∧ ¬ Hard policy sample
  continues : decision.classification.action = .continue ↔ ¬ Stops policy earlier sample

theorem readSample_ok {scan : Scan} {d metrics : Dict} {level : Value} {atMs levelIndex : Int}
    (ok : readSample tested scan d = .ok (level, atMs, levelIndex, metrics)) :
    level.isIn tested = true ∧ metricsOf (.dict d) = metrics := by
  rw [readSample] at ok
  dsimp only at ok
  split at ok
  · rename_i held found
    split at ok
    · rename_i known
      split at ok
      · split at ok
        · cases ok
        · cases ok
          refine ⟨known, ?_⟩
          rw [metricsOf, found]
      · cases ok
    · cases ok
  · cases ok

theorem Scan.observe_ok {scan next : Scan} {index : Nat} {decision : Decision}
    (tracks : scan.tracks = policy.metrics.map (trackAfter policy.baselineSamples earlier))
    (ok : scan.observe tested policy.baselineSamples index sample = .ok (decision, next)) :
    Steps policy tested earlier sample scan next decision := by
  obtain ⟨d, isDict, ok⟩ := bind_ok.mp ok
  obtain ⟨⟨level, atMs, levelIndex, metrics⟩, read, ok⟩ := bind_ok.mp ok
  dsimp only at ok
  obtain ⟨readings, observed, ok⟩ := bind_ok.mp ok
  obtain ⟨rfl, rfl⟩ := Prod.mk.inj (pure_ok.mp ok)
  have same : sample = .dict d := by
    cases sample <;> cases isDict
    rfl
  subst same
  obtain ⟨known, held⟩ := readSample_ok read
  rw [tracks] at observed
  have each := readings_observed held observed
  obtain ⟨hard, lacking, stops⟩ := readings_stop each
  obtain ⟨unknown, continues⟩ := classify_spec readings
  refine ⟨?_, known, rfl, rfl, ?_, ?_⟩
  · dsimp only
    rw [← List.forall₂_eq_eq_eq, List.forall₂_map_left_iff, List.forall₂_map_right_iff]
    exact each.flip.imp fun _ _ o => o.track
  · dsimp only
    rw [unknown, hard, lacking]
  · dsimp only
    rw [continues, stops]

/-- What holds of the levels found healthy so far. -/
def Scan.Healthy (tested : List Value) (scan : Scan) : Prop :=
  ∀ level ∈ scan.healthyLevels, level.isIn tested = true ∧
    ∃ decision ∈ scan.decisions, decision.level = level ∧ decision.classification = .healthy

theorem Steps.keepsHealthy {scan next : Scan} {decision : Decision}
    (steps : Steps policy tested earlier sample scan next decision) (healthy : scan.Healthy tested) :
    next.Healthy tested := by
  have kept : ∀ level ∈ scan.healthyLevels, level.isIn tested = true ∧
      ∃ d ∈ next.decisions, d.level = level ∧ d.classification = .healthy := by
    intro level member
    obtain ⟨known, d, inside, same⟩ := healthy level member
    exact ⟨known, d, steps.decisions ▸ List.mem_append_left _ inside, same⟩
  intro level member
  rw [steps.healthy] at member
  split at member
  · rename_i clear
    rcases List.mem_append.mp member with old | new
    · exact kept level old
    · obtain rfl := List.mem_singleton.mp new
      exact ⟨steps.known, decision, steps.decisions ▸ List.mem_append_right _ List.mem_cons_self, rfl,
        clear⟩
  · exact kept level member

/-- The run ends at the first sample that stops it. -/
theorem Scan.run_ok {scan final : Scan} {index : Nat} {rest : List Value} {trigger : Option Decision}
    (tracks : scan.tracks = policy.metrics.map (trackAfter policy.baselineSamples earlier))
    (healthy : scan.Healthy tested)
    (ok : scan.run tested policy.baselineSamples index rest = .ok (final, trigger)) :
    final.Healthy tested ∧ (∀ t, trigger = some t → t.classification.action ≠ .continue) ∧
      ((∃ t, trigger = some t ∧ t.classification = .unknown) ↔ StopsBlind policy earlier rest) := by
  induction rest generalizing scan index earlier with
  | nil =>
    obtain ⟨rfl, rfl⟩ := Prod.mk.inj (Except.ok.inj ok)
    refine ⟨healthy, ?_, ?_⟩
    · intro t same
      cases same
    · simp [StopsBlind]
  | cons sample rest ih =>
    obtain ⟨⟨decision, next⟩, observed, ok⟩ := bind_ok.mp ok
    have steps := Scan.observe_ok tracks observed
    dsimp only at ok
    split at ok
    · rename_i continues
      have onward := steps.continues.mp continues
      obtain ⟨clear, action, blind⟩ := ih steps.tracks (steps.keepsHealthy healthy) ok
      refine ⟨clear, action, ?_⟩
      rw [blind, StopsBlind]
      simp only [onward, false_and, not_false_eq_true, true_and, false_or]
    · rename_i stops
      obtain ⟨rfl, rfl⟩ := Prod.mk.inj (pure_ok.mp ok)
      have here : Stops policy earlier sample := not_not.mp (mt steps.continues.mpr stops)
      refine ⟨steps.keepsHealthy healthy, ?_, ?_⟩
      · intro t same
        obtain rfl := Option.some.inj same
        exact stops
      · rw [StopsBlind]
        simp only [here, true_and, not_true, false_and, or_false, Option.some.injEq, exists_eq_left']
        exact steps.blind

end

theorem maxLevel_mem {levels : List Value} {level : Value} (found : maxLevel levels = some level) :
    level ∈ levels := by
  cases levels with
  | nil => cases found
  | cons first rest =>
    obtain rfl := Option.some.inj found
    clear found
    induction rest generalizing first with
    | nil => exact List.mem_cons_self
    | cons next others ih =>
      rw [List.foldl_cons]
      have member := ih (if levelLt first next then next else first)
      rcases List.mem_cons.mp member with same | later
      · rw [same]
        split
        · exact List.mem_cons_of_mem _ List.mem_cons_self
        · exact List.mem_cons_self
      · exact List.mem_cons_of_mem _ (List.mem_cons_of_mem _ later)

/-- The interval is honest exactly when the run does not stop for data it lacks. -/
theorem knee_interval_honest_iff (plan policy : Value) (observations tested : List Value) (frozen : Dict)
    (configured : Policy) (analysis : Analysis) (valid : validateEnvelopePlan plan = .ok frozen)
    (levels : testedLevels frozen = .ok tested) (rules : normalizePolicy policy = .ok configured)
    (ok : analyzeDegradation plan observations policy = .ok analysis) :
    Honest tested analysis ↔ ¬ StopsBlind configured [] observations := by
  obtain ⟨frozen', valid', ok⟩ := bind_ok.mp ok
  obtain rfl := Except.ok.inj (valid.symm.trans valid')
  obtain ⟨configured', rules', ok⟩ := bind_ok.mp ok
  obtain rfl := Except.ok.inj (rules.symm.trans rules')
  obtain ⟨tested', levels', ok⟩ := bind_ok.mp ok
  obtain rfl := Except.ok.inj (levels.symm.trans levels')
  split at ok
  · cases ok
  · obtain ⟨⟨scan, trigger⟩, ran, ok⟩ := bind_ok.mp ok
    obtain rfl := pure_ok.mp ok
    have start : (Scan.initial configured).tracks =
        configured.metrics.map (trackAfter configured.baselineSamples []) := rfl
    obtain ⟨healthy, action, blind⟩ := Scan.run_ok start (by intro level member; cases member) ran
    rw [← blind]
    constructor
    · rintro honest ⟨t, rfl, unknown⟩
      obtain ⟨_, same, _, evidence⟩ := honest.upper t.level rfl
      obtain rfl := Option.some.inj same
      rw [unknown] at evidence
      rcases evidence with degraded | hard
      · cases degraded
      · cases hard
    · intro sighted
      cases trigger with
      | none =>
        exact {
          upper := fun level found => nomatch found
          lower := fun level found => healthy level (maxLevel_mem found)
          below := fun lower upper _ found => nomatch found }
      | some t =>
        refine ⟨?_, ?_, ?_⟩
        · intro level found
          refine ⟨t, rfl, Option.some.inj found, ?_⟩
          have stopped := action t rfl
          have known : t.classification ≠ .unknown := fun unknown => sighted ⟨t, rfl, unknown⟩
          revert stopped known
          cases t.classification <;> simp [Classification.action]
        · intro level found
          exact healthy level (List.mem_filter.mp (maxLevel_mem found)).1
        · intro lower upper found same
          obtain rfl := Option.some.inj same
          exact (List.mem_filter.mp (maxLevel_mem found)).2

/-- One required metric, adverse above 200 and hard above 500. -/
def setupPolicy : Value :=
  .dict [Dict.entry "staleAfterMs" (nat 1000), Dict.entry "baselineSamples" (nat 2),
    Dict.entry "metrics" (.dict [Dict.entry "call.setupP95Ms" (.dict [
      Dict.entry "direction" (.str "max"), Dict.entry "soft" (nat 200), Dict.entry "hard" (nat 500),
      Dict.entry "consecutive" (nat 2), Dict.entry "changeDelta" (nat 100),
      Dict.entry "required" (.bool true)])])]

def setupSample (level : Nat) (fact : Dict) : Value :=
  .dict [Dict.entry "level" (nat level), Dict.entry "atMs" (nat (1000 * level)),
    Dict.entry "metrics" (.dict [Dict.entry "call.setupP95Ms" (.dict fact)])]

def knownSetup (milliseconds : Nat) : Dict :=
  [Dict.entry "state" (.str "known"), Dict.entry "value" (nat milliseconds)]

def missingSetup : Dict := [Dict.entry "state" (.str "missing")]

/-- The second level has no setup time; the interval still calls it degraded. -/
theorem missing_data_reads_as_degraded :
    ∃ analysis, analyzeDegradation pacedPlan.value
      [setupSample 1 (knownSetup 100), setupSample 2 missingSetup] setupPolicy = .ok analysis ∧
      ∀ tested, ¬ Honest tested analysis := by
  have outcome : ((analyzeDegradation pacedPlan.value
      [setupSample 1 (knownSetup 100), setupSample 2 missingSetup] setupPolicy).toOption.map fun a =>
        (a.interval.upperTestedDegraded.isSome, a.trigger.map Decision.classification)) =
      some (true, some .unknown) := by decide +kernel
  obtain ⟨analysis, ran, shown⟩ := Option.map_eq_some_iff.mp outcome
  cases result : analyzeDegradation pacedPlan.value
      [setupSample 1 (knownSetup 100), setupSample 2 missingSetup] setupPolicy with
  | error raised => rw [result] at ran; cases ran
  | ok found =>
    rw [result] at ran
    obtain rfl := Option.some.inj ran
    refine ⟨_, rfl, fun tested honest => ?_⟩
    obtain ⟨reported, blind⟩ := Prod.mk.inj shown
    obtain ⟨level, upper⟩ := Option.isSome_iff_exists.mp reported
    obtain ⟨trigger, triggered, _, evidence⟩ := honest.upper level upper
    rw [triggered, Option.map_some, Option.some.injEq] at blind
    rw [blind] at evidence
    rcases evidence with degraded | hard
    · cases degraded
    · cases hard

/-- Setup times past the soft threshold at both levels. -/
theorem repeated_setup_accepted : (analyzeDegradation pacedPlan.value
    [setupSample 1 (knownSetup 300), setupSample 2 (knownSetup 300)] setupPolicy).isOk = true := by
  decide +kernel

theorem repeated_setup_is_honest :
    ∃ frozen tested configured analysis, validateEnvelopePlan pacedPlan.value = .ok frozen ∧
      testedLevels frozen = .ok tested ∧ normalizePolicy setupPolicy = .ok configured ∧
      analyzeDegradation pacedPlan.value [setupSample 1 (knownSetup 300), setupSample 2 (knownSetup 300)]
        setupPolicy = .ok analysis ∧
      (Honest tested analysis ↔ ¬ StopsBlind configured []
        [setupSample 1 (knownSetup 300), setupSample 2 (knownSetup 300)]) := by
  obtain ⟨analysis, ok⟩ := isOk_iff.mp repeated_setup_accepted
  obtain ⟨frozen, valid, rest⟩ := bind_ok.mp ok
  obtain ⟨configured, rules, rest⟩ := bind_ok.mp rest
  obtain ⟨tested, levels, _⟩ := bind_ok.mp rest
  exact ⟨frozen, tested, configured, analysis, valid, levels, rules, ok,
    knee_interval_honest_iff _ _ _ _ _ _ _ valid levels rules ok⟩

end Sippycup.Envelope
