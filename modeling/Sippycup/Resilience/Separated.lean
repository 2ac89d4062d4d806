import Sippycup.Resilience.Identities

/-! Isolation of concurrent calls: what planning deals out is accepted and its clean observations pass,
and an analysis passes exactly when every call is seen and every observation shows its own call. -/
namespace Sippycup.Resilience.Isolation
open Sippycup.Python Sippycup.Ip

section accepted
variable {calls before : List Call} {raws : List JsonValue} {call : Call}

structure Call.Bounded (call : Call) : Prop where
  callId : ¬ (call.callId.length = 0 ∨ 128 < call.callId.length)
  marker : call.marker.length = watermarkBits
  ssrc : 1 ≤ call.ssrc ∧ call.ssrc ≤ 0xFFFFFFFF
  sourcePort : 1024 ≤ call.sourcePort ∧ call.sourcePort ≤ 65535

/-- What an accepted plan says of its calls. -/
structure Distinct (calls : List Call) : Prop where
  bounded : ∀ call ∈ calls, call.Bounded
  callIds : (calls.map Call.callId).Nodup
  markers : (calls.map Call.marker).Nodup
  ssrcs : (calls.map Call.ssrc).Nodup

theorem distinct_nil : Distinct [] := by
  constructor
  · exact List.forall_mem_nil _
  all_goals exact List.nodup_nil

theorem readCall_bounded {index : Nat} {raw : JsonValue} (read : readCall index raw = .ok call) : call.Bounded := by
  simp only [readCall, bind_ok, nonemptyString_ok, boundedInt_ok, require_ok, Bool.and_eq_true, decide_eq_true_eq,
    pure_ok] at read
  obtain ⟨d, -, -, -, callId, ⟨-, named⟩, marker, -, -, ⟨wide, -⟩, ssrc, ⟨-, ssrcs⟩, port, ⟨-, ports⟩, -, -, rfl⟩ := read
  exact ⟨named, wide, ssrcs, ports⟩

theorem distinct_concat (distinct : Distinct calls) (bounded : call.Bounded)
    (callId : call.callId ∉ calls.map Call.callId) (marker : call.marker ∉ calls.map Call.marker)
    (ssrc : call.ssrc ∉ calls.map Call.ssrc) : Distinct (calls ++ [call]) := by
  constructor
  · intro other member
    rcases List.mem_append.mp member with old | last
    · exact distinct.bounded other old
    · rwa [List.mem_singleton.mp last]
  · rw [List.map_append]
    exact nodup_concat distinct.callIds callId
  · rw [List.map_append]
    exact nodup_concat distinct.markers marker
  · rw [List.map_append]
    exact nodup_concat distinct.ssrcs ssrc

theorem fresh_iff : (!((calls.map Call.callId).contains call.callId || (calls.map Call.marker).contains call.marker ||
      (calls.map Call.ssrc).contains call.ssrc)) = true ↔
    call.callId ∉ calls.map Call.callId ∧ call.marker ∉ calls.map Call.marker ∧ call.ssrc ∉ calls.map Call.ssrc := by
  simp only [Bool.not_eq_true', Bool.or_eq_false_iff, List.contains_eq_mem, decide_eq_false_iff_not, and_assoc]

theorem readCalls_distinct (distinct : Distinct before) (read : readCalls before raws = .ok calls) : Distinct calls := by
  induction raws generalizing before with
  | nil =>
    cases read
    exact distinct
  | cons raw rest ih =>
    simp only [readCalls, bind_ok, require_ok, fresh_iff] at read
    obtain ⟨call, first, -, ⟨callId, marker, ssrc⟩, read⟩ := read
    exact ih (distinct_concat distinct (readCall_bounded first) callId marker ssrc) read

theorem validatePlan_distinct {value : JsonValue} (accepted : validatePlan value = .ok calls) : Distinct calls := by
  simp only [validatePlan, bind_ok] at accepted
  obtain ⟨plan, -, -, -, -, -, count, -, accepted⟩ := accepted
  split at accepted
  · obtain ⟨-, -, read⟩ := bind_ok.1 accepted
    exact readCalls_distinct distinct_nil read
  · cases accepted

end accepted

section planned

def PlannedCall.read (call : PlannedCall) : Call :=
  { callId := call.callId, marker := call.marker, ssrc := call.ssrc, sourcePort := call.sourcePort }

theorem readCall_document {seed : Text} {index : Nat} {call : PlannedCall} (dealt : Dealt seed index call)
    (small : index < maxCalls) : readCall index call.document = .ok call.read := by
  obtain ⟨value, bounded, marker⟩ := dealt.marker
  have few : index < 4096 := small
  have named : ¬ (call.callId.length = 0 ∨ 128 < call.callId.length) := by
    rw [dealt.callId, length_identity small]
    decide
  have wide : ¬ (call.marker.length = 0 ∨ 64 < call.marker.length) := by
    rw [marker, length_markerText bounded]
    decide
  have bits : (decide (call.marker.length = watermarkBits) && isBinary call.marker) = true := by
    rw [marker, length_markerText bounded, isBinary_markerText]
    rfl
  have ssrc : (1 : Int) ≤ call.ssrc ∧ (call.ssrc : Int) ≤ 0xFFFFFFFF := by
    have range := dealt.ssrc
    omega
  have source := dealt.sourcePort
  have destination := dealt.destinationPort
  simp only [readCall, bind_ok, requireMapping_ok, exactKeys_ok, nonemptyString_ok, boundedInt_ok, require_ok, pure_ok]
  refine ⟨_, rfl, ⟨⟩, ?_, call.callId, ⟨?_, named⟩, call.marker, ⟨?_, wide⟩, ⟨⟩, bits, call.ssrc, ⟨?_, ssrc⟩,
    call.sourcePort, ⟨?_, by omega, by omega⟩, call.destinationPort, ⟨?_, by omega, by omega⟩, rfl⟩
  all_goals simp [callKeys, JsonDict.contains, JsonDict.keys, JsonDict.find]

theorem nodup_map_cast {calls : List PlannedCall} (distinct : (calls.map PlannedCall.ssrc).Nodup) :
    (calls.map fun call => (call.ssrc : Int)).Nodup := by
  have cast := distinct.map Int.ofNat_injective
  rwa [List.map_map] at cast

theorem callIds_planned {seed : Text} {calls : List PlannedCall} (planned : Planned seed calls) :
    (calls.map PlannedCall.callId).Nodup := by
  rw [List.nodup_iff_getElem?_ne_getElem?]
  intro i j before inside same
  rw [List.length_map] at inside
  rw [List.getElem?_map, List.getElem?_map, List.getElem?_eq_getElem (before.trans inside),
    List.getElem?_eq_getElem inside] at same
  have left := (planned.each i _ (List.getElem?_eq_getElem (before.trans inside))).callId
  have right := (planned.each j _ (List.getElem?_eq_getElem inside)).callId
  have index := identity_injective (left.symm.trans ((Option.some.inj same).trans right))
  exact absurd index (Nat.ne_of_lt before)

theorem readCalls_documents {seed : Text} {before rest : List PlannedCall} (planned : Planned seed (before ++ rest))
    (few : (before ++ rest).length ≤ maxCalls) :
    readCalls (before.map PlannedCall.read) (rest.map PlannedCall.document) =
      .ok ((before ++ rest).map PlannedCall.read) := by
  induction rest generalizing before with
  | nil => rw [List.append_nil, List.map_nil, readCalls]
  | cons call rest ih =>
    have split : before ++ call :: rest = (before ++ [call]) ++ rest := by simp
    have dealt : Dealt seed before.length call := planned.each before.length call (by simp)
    have small : before.length < maxCalls := by
      rw [List.length_append, List.length_cons] at few
      omega
    have first : readCall (before.map PlannedCall.read).length call.document = .ok call.read := by
      rw [List.length_map]
      exact readCall_document dealt small
    have fresh : ∀ {κ : Type} (keyOf : PlannedCall → κ), ((before ++ call :: rest).map keyOf).Nodup →
        keyOf call ∉ before.map keyOf := by
      intro κ keyOf distinct member
      rw [List.map_append, List.map_cons] at distinct
      exact (List.nodup_append.mp distinct).2.2 _ member _ (List.mem_cons_self ..) rfl
    rw [List.map_cons, readCalls, bind_ok]
    refine ⟨call.read, first, ?_⟩
    rw [bind_ok]
    refine ⟨⟨⟩, ?_, ?_⟩
    · rw [require_ok, fresh_iff]
      simp only [List.map_map]
      exact ⟨fresh _ (callIds_planned planned), fresh _ planned.markers,
        fresh (fun call => (call.ssrc : Int)) (nodup_map_cast planned.ssrcs)⟩
    · rw [split] at planned few ⊢
      have following := ih planned few
      rwa [List.map_append] at following

/-- What planning returns is accepted when it is read back. -/
theorem validatePlan_document {fuel : Nat} {callCount seed : JsonValue} {plan : IsolationPlan}
    (made : planIsolation fuel callCount seed = .ok plan) :
    validatePlan plan.document = .ok (plan.calls.map PlannedCall.read) := by
  obtain ⟨planned, -, -, length, least, most⟩ := planIsolation_ok made
  have few : ([] ++ plan.calls).length ≤ maxCalls := by
    rw [List.nil_append]
    omega
  have calls := readCalls_documents (show Planned plan.seed ([] ++ plan.calls) from planned) few
  simp only [validatePlan, bind_ok, requireMapping_ok, exactKeys_ok, require_ok, boundedInt_ok]
  refine ⟨_, rfl, ⟨⟩, ?_, ⟨⟩, ?_, plan.callCount, ⟨?_, least, most⟩, ?_⟩
  · simp [planKeys, JsonDict.contains, JsonDict.keys]
  · simp [JsonDict.find, JsonValue.isBool]
  · simp [JsonDict.find]
  · have same : ((plan.calls.map PlannedCall.document).length : Int) = plan.callCount := by
      rw [List.length_map]
      exact length
    simp only [JsonDict.find, JsonDict.get?_cons, Text.ofString_inj, reduceIte, String.reduceEq, Option.getD_some,
      bind_ok, require_ok, decide_eq_true_eq]
    exact ⟨⟨⟩, same, calls⟩

end planned

section observed
/-- An observation of a call as planned, before its teardown. -/
def Carries (call : Call) (raw : JsonValue) : Prop :=
  ∃ d : JsonDict, raw = .dict d ∧ exactKeys d observationKeys "observation" = .ok () ∧ d.find "callId" = .str call.callId ∧
    d.find "marker" = .str call.marker ∧ d.find "ssrc" = .int call.ssrc ∧
    d.find "sourcePort" = .int call.sourcePort ∧ d.find "afterTeardown" = .bool false

def Passes (planValue observations : JsonValue) : Prop :=
  ∃ report, analyzeIsolation planValue observations = .ok report ∧ report.passed = true

def Call.seen (call : Call) : Observation := ⟨call.callId, call.marker, call.ssrc, call.sourcePort, false⟩

variable {calls : List Call} {call expected : Call} {raw : JsonValue} {seen : Observation} {index : Nat}

theorem lookup_some {κ : Type} [DecidableEq κ] {keyOf : Call → κ} {key : κ} (distinct : (calls.map keyOf).Nodup) :
    lookup keyOf calls key = some call ↔ call ∈ calls ∧ keyOf call = key := by
  constructor
  · intro found
    exact ⟨List.mem_reverse.mp (List.mem_of_find?_eq_some found), by simpa using List.find?_some found⟩
  · rintro ⟨member, same⟩
    rcases found : lookup keyOf calls key with _ | other
    · have absent := List.find?_eq_none.mp found call (List.mem_reverse.mpr member)
      exact absurd (decide_eq_true same) absent
    · have there : other ∈ calls := List.mem_reverse.mp (List.mem_of_find?_eq_some found)
      have named : keyOf other = key := by simpa using List.find?_some found
      rw [List.inj_on_of_nodup_map distinct there member (named.trans same.symm)]

theorem owner_some {κ : Type} [DecidableEq κ] {keyOf : Call → κ} {key : κ} {callId : Text}
    (distinct : (calls.map keyOf).Nodup) :
    owner keyOf calls key = some callId ↔ ∃ call ∈ calls, keyOf call = key ∧ call.callId = callId := by
  rw [owner, Option.map_eq_some_iff]
  simp only [lookup_some distinct, and_assoc]

theorem found_nil {wrong : Bool} {contamination : Contamination} : found wrong contamination = [] ↔ wrong = false := by
  cases wrong <;> simp [found]

/-- An observation is clean when it shows the marker, the SSRC and the port of the call that it names. -/
theorem contaminations_nil (distinct : Distinct calls) (member : expected ∈ calls)
    (named : expected.callId = seen.callId) :
    contaminations calls index seen expected = [] ↔ seen = expected.seen := by
  have only : ∀ call ∈ calls, call.callId = seen.callId → call = expected := fun call there same =>
    List.inj_on_of_nodup_map distinct.callIds there member (same.trans named.symm)
  have marker : owner Call.marker calls seen.marker = some seen.callId ↔ seen.marker = expected.marker := by
    rw [owner_some distinct.markers]
    constructor
    · rintro ⟨call, there, same, id⟩
      rw [← same, only call there id]
    · intro same
      exact ⟨expected, member, same.symm, named⟩
  have ssrc : owner Call.ssrc calls seen.ssrc = some seen.callId ↔ seen.ssrc = expected.ssrc := by
    rw [owner_some distinct.ssrcs]
    constructor
    · rintro ⟨call, there, same, id⟩
      rw [← same, only call there id]
    · intro same
      exact ⟨expected, member, same.symm, named⟩
  simp only [contaminations, List.append_eq_nil_iff, found_nil, decide_eq_false_iff_not, not_not, not_or, marker, ssrc]
  obtain ⟨callId, markerText, number, port, afterTeardown⟩ := seen
  simp only [Call.seen, Observation.mk.injEq]
  constructor
  · rintro ⟨⟨⟨same, number, -⟩, source⟩, live⟩
    exact ⟨named.symm, same, number, source, live⟩
  · rintro ⟨-, same, number, source, live⟩
    exact ⟨⟨⟨same, number, number⟩, source⟩, live⟩

theorem exactKeys_renamed {d : JsonDict} {required : List Text} {name other : String} {u : Unit} :
    exactKeys d required name = .ok u ↔ exactKeys d required other = .ok u := by
  rw [exactKeys_ok, exactKeys_ok]

/-- What is read without a finding is an observation of a planned call, and only that. -/
theorem readObservation_clean (distinct : Distinct calls) :
    readObservation calls index raw = .ok (seen, expected) ∧ contaminations calls index seen expected = [] ↔
      expected ∈ calls ∧ Carries expected raw ∧ seen = expected.seen := by
  constructor
  · rintro ⟨read, clean⟩
    simp only [readObservation, bind_ok, requireMapping_ok, nonemptyString_ok] at read
    obtain ⟨d, rfl, u, keys, callId, ⟨named, -⟩, read⟩ := read
    split at read
    · cases read
    · rename_i call found
      simp only [bind_ok, nonemptyString_ok, boundedInt_ok, boolean_ok, pure_ok, Prod.mk.injEq] at read
      obtain ⟨marker, ⟨marked, -⟩, ssrc, ⟨numbered, -⟩, port, ⟨placed, -⟩, late, torn, rfl, rfl⟩ := read
      obtain ⟨member, same⟩ := (lookup_some distinct.callIds).mp found
      have shown := (contaminations_nil distinct member same).mp clean
      refine ⟨member, ⟨d, rfl, exactKeys_renamed.1 keys, ?_⟩, shown⟩
      simp only [Call.seen, Observation.mk.injEq] at shown
      obtain ⟨-, rfl, rfl, rfl, rfl⟩ := shown
      exact ⟨same ▸ named, marked, numbered, placed, torn⟩
  · rintro ⟨member, ⟨d, rfl, keys, named, marked, numbered, placed, torn⟩, rfl⟩
    refine ⟨?_, (contaminations_nil distinct member rfl).mpr rfl⟩
    have bounded := distinct.bounded expected member
    have wide : ¬ (expected.marker.length = 0 ∨ 64 < expected.marker.length) := by
      rw [bounded.marker]
      decide
    have found : lookup Call.callId calls expected.callId = some expected :=
      (lookup_some distinct.callIds).mpr ⟨member, rfl⟩
    simp only [readObservation, bind_ok, requireMapping_ok, nonemptyString_ok]
    refine ⟨d, rfl, (), exactKeys_renamed.2 keys, expected.callId, ⟨named, bounded.callId⟩, ?_⟩
    rw [found]
    simp only [bind_ok, nonemptyString_ok, boundedInt_ok, boolean_ok, pure_ok]
    exact ⟨_, ⟨marked, wide⟩, _, ⟨numbered, bounded.ssrc⟩, _, ⟨placed, bounded.sourcePort⟩, _, torn, rfl⟩

theorem observeFrom_findings {raws : List JsonValue} {analysis after : Analysis}
    (ran : observeFrom calls index raws analysis = .ok after) : analysis.findings <+: after.findings := by
  induction raws generalizing index analysis with
  | nil =>
    cases ran
    exact List.prefix_rfl
  | cons raw rest ih =>
    rw [observeFrom, bind_ok] at ran
    obtain ⟨⟨seen, expected⟩, -, ran⟩ := ran
    exact (List.prefix_append _ _).trans (ih ran)

/-- A run without findings goes over observations of planned calls, and notes their names. -/
theorem observeFrom_clean (distinct : Distinct calls) {raws : List JsonValue} {observed : List Text} {after : Analysis} :
    observeFrom calls index raws ⟨observed, []⟩ = .ok after ∧ after.findings = [] ↔
      ∃ named : List Call, List.Forall₂ (fun raw call => call ∈ calls ∧ Carries call raw) raws named ∧
        after = ⟨observed ++ named.map Call.callId, []⟩ := by
  induction raws generalizing index observed after with
  | nil =>
    constructor
    · rintro ⟨⟨⟩, -⟩
      exact ⟨[], .nil, by rw [List.map_nil, List.append_nil]⟩
    · rintro ⟨named, none, rfl⟩
      cases none
      rw [List.map_nil, List.append_nil]
      exact ⟨rfl, rfl⟩
  | cons raw rest ih =>
    simp only [observeFrom, bind_ok, List.nil_append]
    constructor
    · rintro ⟨⟨⟨seen, expected⟩, read, ran⟩, clean⟩
      have here : contaminations calls index seen expected = [] :=
        List.prefix_nil.mp (clean ▸ observeFrom_findings ran)
      obtain ⟨member, carries, rfl⟩ := (readObservation_clean distinct).mp ⟨read, here⟩
      simp only [here] at ran
      obtain ⟨named, matched, rfl⟩ := ih.mp ⟨ran, clean⟩
      refine ⟨expected :: named, .cons ⟨member, carries⟩ matched, ?_⟩
      rw [List.map_cons, List.append_assoc, Call.seen, List.singleton_append]
    · rintro ⟨named, matched, rfl⟩
      obtain ⟨expected, named, ⟨member, carries⟩, others, rfl⟩ := List.forall₂_cons_left_iff.mp matched
      have first : readObservation calls index raw = .ok (expected.seen, expected) ∧
          contaminations calls index expected.seen expected = [] :=
        (readObservation_clean distinct).mpr ⟨member, carries, rfl⟩
      have rest : observeFrom calls (index + 1) rest ⟨observed ++ [expected.callId], []⟩ =
          .ok ⟨observed ++ [expected.callId] ++ named.map Call.callId, []⟩ ∧ ([] : List Contamination) = [] :=
        ih.mpr ⟨named, others, rfl⟩
      rw [List.append_assoc, List.singleton_append, ← List.map_cons] at rest
      refine ⟨⟨(expected.seen, expected), first.1, ?_⟩, rfl⟩
      rw [first.2]
      exact rest.1

theorem unobserved_nil {observed : List Text} :
    unobserved calls observed = [] ↔ ∀ call ∈ calls, call.callId ∈ observed := by
  rw [← List.length_eq_zero_iff, unobserved, sortTexts, (List.perm_insertionSort _ _).length_eq,
    List.length_eq_zero_iff, List.filter_eq_nil_iff]
  simp only [List.mem_dedup, List.forall_mem_map, decide_eq_true_eq, not_not]

/-- A call is found in the observations that carry it, by its name. -/
theorem observed_iff (distinct : Distinct calls) {raws : List JsonValue} {named : List Call}
    (matched : List.Forall₂ (fun raw call => call ∈ calls ∧ Carries call raw) raws named) (member : call ∈ calls) :
    call.callId ∈ named.map Call.callId ↔ ∃ raw ∈ raws, Carries call raw := by
  induction matched with
  | nil => simp
  | @cons raw other raws named here _ ih =>
    have same : call.callId = other.callId ↔ Carries call raw := by
      constructor
      · intro same
        rw [List.inj_on_of_nodup_map distinct.callIds member here.1 same]
        exact here.2
      · rintro ⟨d, rfl, -, left, -⟩
        obtain ⟨e, there, -, right, -⟩ := here.2
        cases there
        exact JsonValue.str.inj (left.symm.trans right)
    simp only [List.map_cons, List.mem_cons, ih, same, exists_eq_or_imp]

theorem named_iff {raws : List JsonValue} :
    (∃ named : List Call, List.Forall₂ (fun raw call => call ∈ calls ∧ Carries call raw) raws named) ↔
      ∀ raw ∈ raws, ∃ call ∈ calls, Carries call raw := by
  induction raws with
  | nil => simp
  | cons raw rest ih =>
    rw [List.forall_mem_cons, ← ih]
    constructor
    · rintro ⟨_, here | ⟨here, later⟩⟩
      exact ⟨⟨_, here⟩, _, later⟩
    · rintro ⟨⟨call, here⟩, named, later⟩
      exact ⟨call :: named, .cons here later⟩

theorem passes_iff {planValue : JsonValue} {observations : List JsonValue} (accepted : validatePlan planValue = .ok calls) :
    Passes planValue (.list observations) ↔ observations.length ≤ maxObservations ∧
      (∀ raw ∈ observations, ∃ call ∈ calls, Carries call raw) ∧
        ∀ call ∈ calls, ∃ raw ∈ observations, Carries call raw := by
  have distinct := validatePlan_distinct accepted
  have clean : Passes planValue (.list observations) ↔ observations.length ≤ maxObservations ∧ ∃ after,
      (observeFrom calls 0 observations ⟨[], []⟩ = .ok after ∧ after.findings = []) ∧
        ∀ call ∈ calls, call.callId ∈ after.observed := by
    simp only [Passes, analyzeIsolation, bind_ok, accepted, ok_bind, require_ok, decide_eq_true_eq, pure_ok,
      ← unobserved_nil]
    constructor
    · rintro ⟨report, ⟨-, few, after, ran, rfl⟩, passed⟩
      obtain ⟨findings, missing⟩ := List.append_eq_nil_iff.mp (List.isEmpty_iff.mp passed)
      exact ⟨few, after, ⟨ran, findings⟩, List.map_eq_nil_iff.mp missing⟩
    · rintro ⟨few, after, ⟨ran, findings⟩, missing⟩
      refine ⟨_, ⟨⟨⟩, few, after, ran, rfl⟩, ?_⟩
      rw [findings, missing]
      rfl
  rw [clean]
  simp only [observeFrom_clean distinct, List.nil_append]
  apply and_congr_right
  intro _
  rw [← named_iff]
  constructor
  · rintro ⟨after, ⟨named, matched, rfl⟩, every⟩
    exact ⟨⟨named, matched⟩, fun call member => (observed_iff distinct matched member).mp (every call member)⟩
  · rintro ⟨⟨named, matched⟩, every⟩
    exact ⟨_, ⟨named, matched, rfl⟩, fun call member => (observed_iff distinct matched member).mpr (every call member)⟩

theorem cleanObservation_carries (call : Call) : Carries call call.cleanObservation := by
  refine ⟨_, rfl, exactKeys_ok.mpr ?_, ?_⟩
  · simp [observationKeys, JsonDict.contains, JsonDict.keys]
  · simp [JsonDict.find]

theorem validatePlan_length {value : JsonValue} (accepted : validatePlan value = .ok calls) :
    2 ≤ calls.length ∧ calls.length ≤ maxCalls := by
  have counted : ∀ {raws : List JsonValue} {before calls : List Call}, readCalls before raws = .ok calls →
      calls.length = before.length + raws.length := by
    intro raws
    induction raws with
    | nil =>
      rintro before calls ⟨⟩
      rfl
    | cons raw rest ih =>
      intro before calls read
      simp only [readCalls, bind_ok] at read
      obtain ⟨call, -, -, -, read⟩ := read
      rw [ih read, List.length_append, List.length_singleton, List.length_cons]
      omega
  simp only [validatePlan, bind_ok, boundedInt_ok] at accepted
  obtain ⟨plan, -, -, -, -, -, count, ⟨-, least, most⟩, accepted⟩ := accepted
  split at accepted
  · obtain ⟨_, matched, read⟩ := bind_ok.1 accepted
    have length := counted read
    have same := of_decide_eq_true (require_ok.1 matched)
    rw [List.length_nil] at length
    omega
  · cases accepted

/-- The clean observations of an accepted plan pass. -/
theorem cleanObservations_pass {value : JsonValue} (accepted : validatePlan value = .ok calls) :
    cleanObservations value = .ok (calls.map Call.cleanObservation) ∧
      Passes value (.list (calls.map Call.cleanObservation)) := by
  constructor
  · rw [cleanObservations, accepted]
    rfl
  · have few : calls.length ≤ maxObservations := (validatePlan_length accepted).2.trans (by decide)
    refine (passes_iff accepted).mpr ⟨by rwa [List.length_map], ?_, fun call member => ?_⟩
    · rw [List.forall_mem_map]
      exact fun call member => ⟨call, member, cleanObservation_carries call⟩
    · exact ⟨_, List.mem_map_of_mem member, cleanObservation_carries call⟩

/-- Planning ends with a plan for every count in bounds and every seed that can be encoded; what it returns
is accepted and its clean observations pass; and an accepted plan passes with a list of observations within
the limit exactly when all of them show their own call and every call is seen. -/
theorem isolation_separates_calls :
    (∀ (count : Int) (seed : Text), 2 ≤ count → count ≤ maxCalls → ¬ (seed.length = 0 ∨ 128 < seed.length) →
      seed.Scalars → ∃ plan, ∀ fuel, maxCalls ≤ fuel → planIsolation fuel (.int count) (.str seed) = .ok plan) ∧
    (∀ callCount seed, ∃ result, result ≠ .error .running ∧
      ∀ fuel, maxCalls ≤ fuel → planIsolation fuel callCount seed = result) ∧
    (∀ fuel callCount seed plan, planIsolation fuel callCount seed = .ok plan →
      ∃ calls clean, validatePlan plan.document = .ok calls ∧ cleanObservations plan.document = .ok clean ∧
        Passes plan.document (.list clean)) ∧
    ∀ planValue calls, validatePlan planValue = .ok calls → ∀ observations : List JsonValue,
      (Passes planValue (.list observations) ↔ observations.length ≤ maxObservations ∧
        (∀ raw ∈ observations, ∃ call ∈ calls, Carries call raw) ∧
          ∀ call ∈ calls, ∃ raw ∈ observations, Carries call raw) ∧
      ∀ (d : JsonDict) (own other : Call), .dict d ∈ observations → own ∈ calls → other ∈ calls → other ≠ own →
        d.find "callId" = .str own.callId → d.find "marker" = .str other.marker ∨ d.find "ssrc" = .int other.ssrc →
          ¬ Passes planValue (.list observations) := by
  refine ⟨fun count seed least most short encodable => planIsolation_accepts least most short encodable,
    planIsolation_ends, fun fuel callCount seed plan made => ?_, fun planValue calls accepted observations => ?_⟩
  · have accepted := validatePlan_document made
    exact ⟨_, _, accepted, cleanObservations_pass accepted⟩
  · refine ⟨passes_iff accepted, fun d own other member here there differs named foreign passed => differs ?_⟩
    have distinct := validatePlan_distinct accepted
    obtain ⟨call, planned, e, same, -, callId, marker, ssrc, -⟩ := ((passes_iff accepted).mp passed).2.1 _ member
    cases same
    have shown : call = own :=
      List.inj_on_of_nodup_map distinct.callIds planned here (JsonValue.str.inj (callId.symm.trans named))
    subst shown
    rcases foreign with marked | numbered
    · exact List.inj_on_of_nodup_map distinct.markers there here (JsonValue.str.inj (marked.symm.trans marker))
    · exact List.inj_on_of_nodup_map distinct.ssrcs there here (JsonValue.int.inj (numbered.symm.trans ssrc))

def defaultSeed : Text := "sippycup-isolation-v1"

theorem two_calls_isolated : ∃ plan clean, planIsolation maxCalls (.int 2) (.str defaultSeed) = .ok plan ∧
    cleanObservations plan.document = .ok clean ∧ Passes plan.document (.list clean) := by
  obtain ⟨plan, made⟩ := isolation_separates_calls.1 2 defaultSeed (by decide) (by decide) (by decide) (by decide)
  obtain ⟨calls, clean, -, cleaned, passes⟩ :=
    isolation_separates_calls.2.2.1 _ _ _ plan (made maxCalls (Nat.le_refl _))
  exact ⟨plan, clean, made maxCalls (Nat.le_refl _), cleaned, passes⟩

/-- One clean observation too many is no longer analyzed. -/
theorem long_list_not_analyzed : ¬ ∀ planValue calls, validatePlan planValue = .ok calls → ∀ observations : List JsonValue,
    Passes planValue (.list observations) ↔ (∀ raw ∈ observations, ∃ call ∈ calls, Carries call raw) ∧
      ∀ call ∈ calls, ∃ raw ∈ observations, Carries call raw := by
  intro exact_
  have twoCalls : ∃ plan, ∀ fuel, maxCalls ≤ fuel → planIsolation fuel (.int 2) (.str defaultSeed) = .ok plan :=
    planIsolation_accepts (by decide) (by decide) (by decide) (by decide)
  obtain ⟨plan, made⟩ := twoCalls
  have accepted := validatePlan_document (made maxCalls (Nat.le_refl _))
  generalize plan.calls.map PlannedCall.read = calls at accepted
  obtain ⟨first, member⟩ := List.exists_mem_of_length_pos (Nat.lt_of_lt_of_le (by decide) (validatePlan_length accepted).1)
  have observations := exact_ _ calls accepted
    (List.replicate (maxObservations + 1) first.cleanObservation ++ calls.map Call.cleanObservation)
  have passes := observations.mpr ⟨fun raw inside => ?_, fun call planned => ?_⟩
  · have few := ((passes_iff accepted).mp passes).1
    rw [List.length_append, List.length_replicate] at few
    omega
  · rcases List.mem_append.mp inside with repeated | once
    · rw [List.eq_of_mem_replicate repeated]
      exact ⟨first, member, cleanObservation_carries first⟩
    · obtain ⟨call, planned, rfl⟩ := List.mem_map.mp once
      exact ⟨call, planned, cleanObservation_carries call⟩
  · exact ⟨_, List.mem_append_right _ (List.mem_map_of_mem planned), cleanObservation_carries call⟩

end observed

section codes

/-- Bytes 12 and 13 of the digest of a seed with the name of a call, as a number. -/
def codeBytes (seed : Text) (index : Nat) : Nat :=
  word (Sha256.digestWords ((seed ++ ":" ++ identity index).codes.flatMap Utf8.encodeCode)) 3 / 2 ^ 16

theorem dtmf_dealt {seed : Text} {index : Nat} {call : PlannedCall} (dealt : Dealt seed index call) :
    call.dtmf = dtmfText (codeBytes seed index % 10000) := by
  obtain ⟨words, hashed, dtmf⟩ := dealt.dtmf
  rw [dealt.callId, material] at hashed
  split at hashed
  · rename_i bytes encoded
    cases hashed
    rw [dtmf, (Utf8.encode?_some.mp encoded).2]
    rfl
  · cases hashed

theorem nodup_map_iff {α : Type} {keyOf : PlannedCall → α} {calls : List PlannedCall} :
    (calls.map keyOf).Nodup ↔ ∀ (i j : Nat) (a b : PlannedCall), i < j → calls[i]? = some a → calls[j]? = some b →
      keyOf a ≠ keyOf b := by
  rw [List.nodup_iff_getElem?_ne_getElem?]
  simp only [List.length_map, List.getElem?_map]
  constructor
  · intro distinct i j a b before left right same
    have inside := (List.getElem?_eq_some_iff.mp right).1
    exact distinct i j before inside (by rw [left, right, Option.map_some, Option.map_some, same])
  · intro distinct i j before inside same
    rw [List.getElem?_eq_getElem (before.trans inside), List.getElem?_eq_getElem inside] at same
    exact distinct i j _ _ before (List.getElem?_eq_getElem _) (List.getElem?_eq_getElem _) (Option.some.inj same)

/-- Ports are counted up from the index, sources even and destinations odd. -/
theorem ports_distinct {seed : Text} {calls : List PlannedCall} (planned : Planned seed calls) :
    (calls.map PlannedCall.sourcePort ++ calls.map PlannedCall.destinationPort).Nodup := by
  rw [List.nodup_append]
  refine ⟨nodup_map_iff.2 ?_, nodup_map_iff.2 ?_, ?_⟩
  · intro i j a b before left right same
    rw [(planned.each i a left).sourcePort, (planned.each j b right).sourcePort] at same
    omega
  · intro i j a b before left right same
    rw [(planned.each i a left).destinationPort, (planned.each j b right).destinationPort] at same
    omega
  · intro p source q destination same
    obtain ⟨a, left, rfl⟩ := List.mem_map.mp source
    obtain ⟨b, right, rfl⟩ := List.mem_map.mp destination
    obtain ⟨i, left⟩ := List.mem_iff_getElem?.mp left
    obtain ⟨j, right⟩ := List.mem_iff_getElem?.mp right
    rw [(planned.each i a left).sourcePort, (planned.each j b right).destinationPort] at same
    omega

/-- The ports of a plan are distinct always; its codes are exactly where the hashed bytes of no two calls
leave the same remainder. -/
theorem codes_unique_iff (fuel : Nat) (count : Int) (seed : Text) (plan : IsolationPlan)
    (made : planIsolation fuel (.int count) (.str seed) = .ok plan) :
    (plan.calls.map PlannedCall.dtmf).Nodup ∧
        (plan.calls.map PlannedCall.sourcePort ++ plan.calls.map PlannedCall.destinationPort).Nodup ↔
      ∀ i j : Nat, i < j → (j : Int) < count → codeBytes seed i % 10000 ≠ codeBytes seed j % 10000 := by
  obtain ⟨planned, counted, named, length, -, -⟩ := planIsolation_ok made
  cases counted
  cases named
  rw [and_iff_left (ports_distinct planned), nodup_map_iff]
  constructor
  · intro distinct i j before inside same
    have right : j < plan.calls.length := by omega
    have left : i < plan.calls.length := before.trans right
    apply distinct i j _ _ before (List.getElem?_eq_getElem left) (List.getElem?_eq_getElem right)
    rw [dtmf_dealt (planned.each i _ (List.getElem?_eq_getElem left)),
      dtmf_dealt (planned.each j _ (List.getElem?_eq_getElem right)), same]
  · intro distinct i j a b before left right same
    have inside := (List.getElem?_eq_some_iff.mp right).1
    rw [dtmf_dealt (planned.each i a left), dtmf_dealt (planned.each j b right)] at same
    exact distinct i j before (by omega) (dtmfText_injective same)

theorem default_plan {count : Int} (least : 2 ≤ count) (most : count ≤ maxCalls) :
    ∃ plan, planIsolation maxCalls (.int count) (.str defaultSeed) = .ok plan := by
  obtain ⟨plan, made⟩ := planIsolation_accepts least most (show ¬ (defaultSeed.length = 0 ∨ 128 < defaultSeed.length)
    by decide) (by decide)
  exact ⟨plan, made maxCalls (Nat.le_refl _)⟩

theorem two_default_codes : ∃ plan, planIsolation maxCalls (.int 2) (.str defaultSeed) = .ok plan ∧
    (plan.calls.map PlannedCall.dtmf).Nodup ∧
      (plan.calls.map PlannedCall.sourcePort ++ plan.calls.map PlannedCall.destinationPort).Nodup := by
  have differ : codeBytes defaultSeed 0 % 10000 ≠ codeBytes defaultSeed 1 % 10000 := by
    unfold codeBytes Sha256.digestWords
    rw [Sha256.compressUnrolled_eq]
    decide +kernel
  obtain ⟨plan, made⟩ := default_plan (show (2 : Int) ≤ 2 by decide) (by decide)
  refine ⟨plan, made, (codes_unique_iff _ _ _ plan made).mpr fun i j before inside => ?_⟩
  obtain rfl : j = 1 := by omega
  obtain rfl : i = 0 := by omega
  exact differ

theorem default_codes : codeBytes defaultSeed 13 % 10000 = 8066 ∧ codeBytes defaultSeed 47 % 10000 = 8066 := by
  unfold codeBytes Sha256.digestWords
  rw [Sha256.compressUnrolled_eq]
  decide +kernel

/-- Under the default seed, calls 14 and 48 are given one code. -/
theorem default_seed_repeats_code : ¬ ∀ fuel count seed plan, planIsolation fuel (.int count) (.str seed) = .ok plan →
    (plan.calls.map PlannedCall.dtmf).Nodup ∧
      (plan.calls.map PlannedCall.sourcePort ++ plan.calls.map PlannedCall.destinationPort).Nodup := by
  intro unique
  obtain ⟨plan, made⟩ := default_plan (show (2 : Int) ≤ 48 by decide) (by decide)
  obtain ⟨planned, counted, named, length, -, -⟩ := planIsolation_ok made
  have distinct := nodup_map_iff.mp (unique _ _ _ plan made).1
  have fourteen : 13 < plan.calls.length := by
    have count := JsonValue.int.inj counted
    omega
  have fortyEight : 47 < plan.calls.length := by
    have count := JsonValue.int.inj counted
    omega
  apply distinct 13 47 _ _ (by decide) (List.getElem?_eq_getElem fourteen) (List.getElem?_eq_getElem fortyEight)
  rw [dtmf_dealt (planned.each 13 _ (List.getElem?_eq_getElem fourteen)),
    dtmf_dealt (planned.each 47 _ (List.getElem?_eq_getElem fortyEight)), ← JsonValue.str.inj named,
    default_codes.1, default_codes.2]

end codes
end Sippycup.Resilience.Isolation
