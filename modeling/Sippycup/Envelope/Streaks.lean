import Sippycup.Envelope.KneeInterval

/-! Degradation streaks, by the positions of the samples: a run reports degradation at the
first sample that ends a streak of some metric, when nothing stopped it up to there. -/
namespace Sippycup.Envelope
open Sippycup.Python

/-- The metric is known in the sample at a position and is past its soft threshold, or has
moved by a positive amount from the median of its first known values. -/
def TroubledAt (baselineSamples : Nat) (entry : Value × Rule) (samples : List Value) (j : Nat) : Prop :=
  ∃ sample value, samples[j]? = some sample ∧ reading entry.1 sample = some value ∧
    (adverse entry.2.direction value entry.2.soft = true ∨
      ∃ baseline, baselineOf baselineSamples (knownValues entry.1 (samples.take j)) = some baseline ∧
        movedBy entry.2 value baseline = .ok true)

/-- The last `consecutive` samples up to a position are all troubled. -/
def StreakAt (baselineSamples : Nat) (entry : Value × Rule) (samples : List Value) (i : Nat) : Prop :=
  entry.2.consecutive ≤ i + 1 ∧
    ∀ j ≤ i, i < j + entry.2.consecutive → TroubledAt baselineSamples entry samples j

/-- The sample at a position is not past a hard threshold and lacks nothing required. -/
def ClearAt (policy : Policy) (samples : List Value) (j : Nat) : Prop :=
  ∀ sample, samples[j]? = some sample → ¬ Hard policy sample ∧ ¬ Lacking policy sample

section positions
variable {baselineSamples : Nat} {entry : Value × Rule} {samples : List Value}

theorem troubledAt_take {j k : Nat} (before : j < k) :
    TroubledAt baselineSamples entry (samples.take k) j ↔ TroubledAt baselineSamples entry samples j := by
  rw [TroubledAt, TroubledAt, List.getElem?_take_of_lt before, List.take_take, Nat.min_eq_left before.le]

theorem troubled_iff {name : Value} {rule : Rule} {earlier : List Value} {value : Number} :
    troubled baselineSamples name rule earlier value = true ↔
      adverse rule.direction value rule.soft = true ∨
        ∃ baseline, baselineOf baselineSamples (knownValues name earlier) = some baseline ∧
          movedBy rule value baseline = .ok true := by
  rw [troubled, Bool.or_eq_true]
  refine or_congr_right ?_
  cases based : baselineOf baselineSamples (knownValues name earlier) with
  | none => simp [changed]
  | some baseline =>
    simp only [changed, Option.some.injEq, exists_eq_left']
    cases moved : movedBy rule value baseline with
    | error raised => simp
    | ok yes => simp

theorem troubledAt_last (sample : Value) :
    TroubledAt baselineSamples entry (samples ++ [sample]) samples.length ↔
      ∃ value, reading entry.1 sample = some value ∧
        troubled baselineSamples entry.1 entry.2 samples value = true := by
  simp only [TroubledAt, troubled_iff, List.getElem?_concat_length, Option.some.injEq, List.take_left,
    exists_and_left, exists_eq_left']

/-- The counter of a metric says how far back the samples are troubled. -/
theorem le_streakOf_iff (n : Nat) :
    n ≤ streakOf baselineSamples entry.1 entry.2 samples.reverse ↔
      n ≤ samples.length ∧
        ∀ j < samples.length, samples.length ≤ j + n → TroubledAt baselineSamples entry samples j := by
  induction samples using List.reverseRecOn generalizing n with
  | nil => simp [streakOf]
  | append_singleton earlier sample ih =>
    have former (j : Nat) (inside : j < earlier.length) :
        TroubledAt baselineSamples entry (earlier ++ [sample]) j ↔ TroubledAt baselineSamples entry earlier j := by
      rw [← troubledAt_take inside, List.take_left]
    have last : TroubledAt baselineSamples entry (earlier ++ [sample]) earlier.length ↔
        ∃ value, reading entry.1 sample = some value ∧
          troubled baselineSamples entry.1 entry.2 earlier value = true := troubledAt_last sample
    rw [List.reverse_append, List.reverse_singleton, List.singleton_append, streakOf, List.reverse_reverse,
      List.length_append, List.length_singleton]
    cases n with
    | zero =>
      simp only [Nat.zero_le, true_and, true_iff, Nat.add_zero]
      intro j inside outside
      omega
    | succ n =>
      -- a positive count needs the newest sample, and the rest of it the earlier ones
      have split : (n + 1 ≤ earlier.length + 1 ∧ ∀ j < earlier.length + 1, earlier.length + 1 ≤ j + (n + 1) →
            TroubledAt baselineSamples entry (earlier ++ [sample]) j) ↔
          TroubledAt baselineSamples entry (earlier ++ [sample]) earlier.length ∧ n ≤ earlier.length ∧
            ∀ j < earlier.length, earlier.length ≤ j + n → TroubledAt baselineSamples entry earlier j := by
        constructor
        · rintro ⟨short, all⟩
          refine ⟨all _ (Nat.lt_succ_self _) (by omega), by omega, fun j inside near => ?_⟩
          exact (former j inside).mp (all j (by omega) (by omega))
        · rintro ⟨newest, short, all⟩
          refine ⟨by omega, fun j inside near => ?_⟩
          rcases Nat.lt_succ_iff_lt_or_eq.mp inside with before | rfl
          · exact (former j before).mpr (all j before (by omega))
          · exact newest
      rw [split, last, ← ih]
      cases read : reading entry.1 sample with
      | none => simp
      | some value =>
        cases trouble : troubled baselineSamples entry.1 entry.2 earlier value with
        | false => simp [trouble]
        | true => simp [trouble]

theorem streakAt_iff {i : Nat} {sample : Value} (at_ : samples[i]? = some sample) :
    StreakAt baselineSamples entry samples i ↔ entry.2.consecutive ≤
      streakOf baselineSamples entry.1 entry.2 (sample :: (samples.take i).reverse) := by
  have inside := (List.getElem?_eq_some_iff.mp at_).1
  have grown : samples.take (i + 1) = samples.take i ++ [sample] := by
    rw [List.take_add_one, at_]
    rfl
  have turned : sample :: (samples.take i).reverse = (samples.take (i + 1)).reverse := by
    rw [grown, List.reverse_append]
    rfl
  rw [turned, le_streakOf_iff, List.length_take, Nat.min_eq_left inside, StreakAt]
  refine and_congr_right fun _ => ?_
  constructor
  · intro all j before near
    exact (troubledAt_take before).mpr (all j (by omega) (by omega))
  · intro all j before near
    exact (troubledAt_take (by omega)).mp (all j (by omega) (by omega))

end positions

section rules
variable {configured : Policy}

theorem ruleOf_consecutive {name : String} {raw : Dict} {rule : Rule} (ok : ruleOf name raw = .ok rule) :
    2 ≤ rule.consecutive := by
  rw [ruleOf] at ok
  split at ok
  · cases ok
  obtain ⟨named, -, ok⟩ := bind_ok.mp ok
  obtain ⟨_, -, ok⟩ := bind_ok.mp ok
  obtain ⟨required, -, ok⟩ := bind_ok.mp ok
  split at ok
  · obtain ⟨consecutive, -, ok⟩ := bind_ok.mp ok
    split at ok
    · split at ok
      · cases ok
      rename_i enough
      simp only [bind_ok] at ok
      obtain ⟨soft, -, hard, -, changeDelta, -, ok⟩ := ok
      split at ok
      · cases ok
      split at ok
      · cases ok
      obtain rfl := pure_ok.mp ok
      dsimp only
      omega
    · cases ok
  · cases ok

theorem normalizePolicy_consecutive {value : Value} (ok : normalizePolicy value = .ok configured) :
    ∀ entry ∈ configured.metrics, 2 ≤ entry.2.consecutive := by
  unfold normalizePolicy at ok
  split at ok
  · rename_i policy
    unfold policyOf at ok
    split at ok
    · cases ok
    obtain ⟨stale, -, ok⟩ := bind_ok.mp ok
    obtain ⟨baseline, -, ok⟩ := bind_ok.mp ok
    split at ok
    · obtain ⟨metrics, -, ok⟩ := bind_ok.mp ok
      split at ok
      · obtain ⟨rules, read, ok⟩ := bind_ok.mp ok
        obtain rfl := pure_ok.mp ok
        intro entry member
        obtain ⟨index, inside, rfl⟩ := List.getElem_of_mem member
        have all := mapM_ok read
        have one := (List.forall₂_iff_get.mp all).2 index (all.length_eq ▸ inside) inside
        obtain ⟨rule, normalized, one⟩ := bind_ok.mp one
        have same := pure_ok.mp one
        simp only [List.get_eq_getElem] at same
        rw [← same]
        unfold normalizeRule at normalized
        split at normalized
        · exact ruleOf_consecutive normalized
        · cases normalized
      · cases ok
    · cases ok
  · cases ok

end rules

section run
variable {policy : Policy} {tested earlier : List Value} {sample : Value}

/-- The sample at a position stops the run, after the samples before it. -/
def StopsAt (policy : Policy) (samples : List Value) (j : Nat) : Prop :=
  ∃ sample, samples[j]? = some sample ∧ Stops policy (samples.take j) sample

theorem classify_degraded (readings : List (Track × Citation × Finding)) :
    (classify readings).1 = .degraded ↔ (∃ r ∈ readings, r.2.2 = .repeated) ∧
      (¬ ∃ r ∈ readings, r.2.2 = .hard) ∧ ¬ ∃ r ∈ readings, r.2.2 = .lacking := by
  simp only [← namesWith_ne_nil, classify]
  by_cases hard : namesWith readings .hard ≠ []
  · simp [hard]
  · by_cases lacking : namesWith readings .lacking ≠ []
    · simp [hard, lacking]
    · by_cases repeated : namesWith readings .repeated ≠ []
      · simp [hard, lacking, repeated]
      · by_cases suspect : suspects readings ≠ [] <;> simp [hard, lacking, repeated, suspect]

theorem Scan.observe_degraded {scan onward : Scan} {index : Nat} {decision : Decision}
    (tracks : scan.tracks = policy.metrics.map (trackAfter policy.baselineSamples earlier))
    (ok : scan.observe tested policy.baselineSamples index sample = .ok (decision, onward)) :
    decision.sampleIndex = index ∧ (decision.classification = .degraded ↔
      Stops policy earlier sample ∧ ¬ Hard policy sample ∧ ¬ Lacking policy sample) := by
  obtain ⟨d, isDict, ok⟩ := bind_ok.mp ok
  obtain ⟨⟨level, atMs, levelIndex, metrics⟩, read, ok⟩ := bind_ok.mp ok
  dsimp only at ok
  obtain ⟨readings, observed, ok⟩ := bind_ok.mp ok
  obtain ⟨rfl, rfl⟩ := Prod.mk.inj (pure_ok.mp ok)
  refine ⟨rfl, ?_⟩
  have same : sample = .dict d := by
    cases sample <;> cases isDict
    rfl
  subst same
  obtain ⟨-, held⟩ := readSample_ok read
  rw [tracks] at observed
  obtain ⟨hard, lacking, stops⟩ := readings_stop (readings_observed held observed)
  rw [classify_degraded, ← hard, ← lacking, ← stops]
  constructor
  · rintro ⟨repeated, clear, whole⟩
    exact ⟨.inr (.inr repeated), clear, whole⟩
  · rintro ⟨found | found | found, clear, whole⟩
    · exact absurd found clear
    · exact absurd found whole
    · exact ⟨found, clear, whole⟩

theorem stopsAt_here (rest : List Value) :
    StopsAt policy (earlier ++ sample :: rest) earlier.length ↔ Stops policy earlier sample := by
  simp [StopsAt]

theorem clearAt_here (rest : List Value) :
    ClearAt policy (earlier ++ sample :: rest) earlier.length ↔
      ¬ Hard policy sample ∧ ¬ Lacking policy sample := by
  simp [ClearAt]

/-- The run reports degradation at the first position that stops it, if that one is clear. -/
theorem Scan.run_degraded {scan last : Scan} {rest : List Value} {trigger : Option Decision} (i : Nat)
    (tracks : scan.tracks = policy.metrics.map (trackAfter policy.baselineSamples earlier))
    (ok : scan.run tested policy.baselineSamples earlier.length rest = .ok (last, trigger)) :
    (∃ t, trigger = some t ∧ t.classification = .degraded ∧ t.sampleIndex = i) ↔
      earlier.length ≤ i ∧ (∀ j, earlier.length ≤ j → j < i → ¬ StopsAt policy (earlier ++ rest) j) ∧
        StopsAt policy (earlier ++ rest) i ∧ ClearAt policy (earlier ++ rest) i := by
  induction rest generalizing scan earlier with
  | nil =>
    obtain ⟨-, rfl⟩ := Prod.mk.inj (Except.ok.inj ok)
    constructor
    · rintro ⟨t, same, -⟩
      cases same
    · rintro ⟨beyond, -, ⟨sample, at_, -⟩, -⟩
      rw [List.append_nil, List.getElem?_eq_none beyond] at at_
      cases at_
  | cons sample rest ih =>
    obtain ⟨⟨decision, onward⟩, observed, ok⟩ := bind_ok.mp ok
    have steps := Scan.observe_ok tracks observed
    obtain ⟨index, degraded⟩ := Scan.observe_degraded tracks observed
    have here : StopsAt policy (earlier ++ sample :: rest) earlier.length ↔ Stops policy earlier sample :=
      stopsAt_here rest
    dsimp only at ok
    split at ok
    · rename_i continues
      have quietly := steps.continues.mp continues
      have length : (earlier ++ [sample]).length = earlier.length + 1 := by simp
      rw [← length] at ok
      rw [ih steps.tracks ok, length, List.append_assoc, List.singleton_append]
      constructor
      · rintro ⟨later, quiet, stops⟩
        refine ⟨by omega, fun j least most => ?_, stops⟩
        rcases Nat.eq_or_lt_of_le least with rfl | beyond
        · exact mt here.mp quietly
        · exact quiet j beyond most
      · rintro ⟨later, quiet, stops, clear⟩
        have other : earlier.length ≠ i := by
          rintro rfl
          exact quietly (here.mp stops)
        exact ⟨by omega, fun j least => quiet j (by omega), stops, clear⟩
    · rename_i stops
      obtain ⟨-, rfl⟩ := Prod.mk.inj (pure_ok.mp ok)
      have stopped : Stops policy earlier sample := not_not.mp (mt steps.continues.mpr stops)
      constructor
      · rintro ⟨t, same, bad, rfl⟩
        obtain rfl := Option.some.inj same
        rw [index]
        exact ⟨le_rfl, fun j least most => by omega, here.mpr stopped,
          (clearAt_here rest).mpr (degraded.mp bad).2⟩
      · rintro ⟨later, quiet, -, clear⟩
        have first : i = earlier.length := by
          by_contra other
          exact quiet earlier.length le_rfl (by omega) (here.mpr stopped)
        subst first
        exact ⟨decision, rfl, degraded.mpr ⟨stopped, (clearAt_here rest).mp clear⟩, index⟩

/-- What stops the run is a sample that is not clear, or one that ends a streak. -/
theorem stopsAt_iff (rules : ∀ entry ∈ policy.metrics, 2 ≤ entry.2.consecutive) {samples : List Value}
    {j : Nat} : StopsAt policy samples j ↔ ¬ ClearAt policy samples j ∨
      ∃ entry ∈ policy.metrics, StreakAt policy.baselineSamples entry samples j := by
  have known (entry : Value × Rule) (member : entry ∈ policy.metrics)
      (streak : StreakAt policy.baselineSamples entry samples j) :
      TroubledAt policy.baselineSamples entry samples j := by
    have two := rules entry member
    exact streak.2 j le_rfl (by omega)
  constructor
  · rintro ⟨sample, at_, hard | lacking | ⟨entry, member, -, streak⟩⟩
    · exact .inl fun clear => (clear sample at_).1 hard
    · exact .inl fun clear => (clear sample at_).2 lacking
    · exact .inr ⟨entry, member, (streakAt_iff at_).mpr streak⟩
  · rintro (unclear | ⟨entry, member, streak⟩)
    · simp only [ClearAt, not_forall, not_and_or, not_not] at unclear
      obtain ⟨sample, at_, hard | lacking⟩ := unclear
      · exact ⟨sample, at_, .inl hard⟩
      · exact ⟨sample, at_, .inr (.inl lacking)⟩
    · obtain ⟨sample, value, at_, read, -⟩ := known entry member streak
      refine ⟨sample, at_, .inr (.inr ⟨entry, member, ?_, (streakAt_iff at_).mp streak⟩)⟩
      rw [read]
      rfl

end run

/-- Degradation is reported at a sample exactly when everything up to it is clear and it is
the first to end a streak of some metric. -/
theorem degraded_trigger_iff {plan policy : Value} {observations : List Value} {configured : Policy}
    {analysis : Analysis} (rules : normalizePolicy policy = .ok configured)
    (ok : analyzeDegradation plan observations policy = .ok analysis) (i : Nat) :
    (∃ t, analysis.trigger = some t ∧ t.classification = .degraded ∧ t.sampleIndex = i) ↔
      (∀ j ≤ i, ClearAt configured observations j) ∧
        IsLeast {k | ∃ entry ∈ configured.metrics,
          StreakAt configured.baselineSamples entry observations k} i := by
  have two := normalizePolicy_consecutive rules
  obtain ⟨frozen, -, ok⟩ := bind_ok.mp ok
  obtain ⟨configured', rules', ok⟩ := bind_ok.mp ok
  obtain rfl := Except.ok.inj (rules.symm.trans rules')
  obtain ⟨tested, -, ok⟩ := bind_ok.mp ok
  split at ok
  · cases ok
  obtain ⟨⟨scan, trigger⟩, ran, ok⟩ := bind_ok.mp ok
  obtain rfl := pure_ok.mp ok
  have start : (Scan.initial configured).tracks =
      configured.metrics.map (trackAfter configured.baselineSamples []) := rfl
  have run := Scan.run_degraded i start ran
  dsimp only
  rw [run]
  simp only [List.length_nil, Nat.zero_le, true_and, true_implies, List.nil_append, stopsAt_iff two,
    not_or, not_not]
  constructor
  · rintro ⟨quiet, streak, clear⟩
    refine ⟨fun j upTo => ?_, streak.resolve_left (not_not.mpr clear), fun k ends => ?_⟩
    · rcases Nat.eq_or_lt_of_le upTo with rfl | before
      · exact clear
      · exact (quiet j before).1
    · by_contra before
      exact (quiet k (not_le.mp before)).2 ends
  · rintro ⟨clear, streak, least⟩
    refine ⟨fun j before => ⟨clear j before.le, fun ends => ?_⟩, .inr streak, clear i le_rfl⟩
    exact absurd (least ends) (not_le.mpr before)

/-- Setup times past the soft threshold in two samples of a row. -/
theorem repeated_setup_degrades : ∃ configured analysis,
    normalizePolicy setupPolicy = .ok configured ∧
    analyzeDegradation pacedPlan.value [setupSample 1 (knownSetup 300), setupSample 2 (knownSetup 300)]
      setupPolicy = .ok analysis ∧
    ((∃ t, analysis.trigger = some t ∧ t.classification = .degraded ∧ t.sampleIndex = 1) ↔
      (∀ j ≤ 1, ClearAt configured [setupSample 1 (knownSetup 300), setupSample 2 (knownSetup 300)] j) ∧
        IsLeast {k | ∃ entry ∈ configured.metrics, StreakAt configured.baselineSamples entry
          [setupSample 1 (knownSetup 300), setupSample 2 (knownSetup 300)] k} 1) := by
  obtain ⟨analysis, ok⟩ := isOk_iff.mp repeated_setup_accepted
  obtain ⟨frozen, planned, rest⟩ := bind_ok.mp ok
  obtain ⟨configured, rules, _⟩ := bind_ok.mp rest
  exact ⟨configured, analysis, rules, ok, degraded_trigger_iff rules ok 1⟩

end Sippycup.Envelope
