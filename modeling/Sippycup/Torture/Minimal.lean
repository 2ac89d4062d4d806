import Sippycup.Torture.Safety

/-! One-minimality of the reduction of bytes: the last round tries every span of the level alone, on the
bytes that are returned, so with a predicate that always answers alike no single span can go. -/
namespace Sippycup.Torture

section spans
variable {data pattern : Bytes} {count cursor start stop found : Nat}

theorem findFrom_lt (here : findFrom data pattern count cursor = some found) : found < cursor + count := by
  induction count generalizing cursor with
  | zero => cases here
  | succ count ih =>
    rw [findFrom] at here
    split at here
    · obtain rfl := Option.some.inj here
      omega
    · have := ih here
      omega

theorem findFrom_fits (here : findFrom data pattern count cursor = some found) (some : pattern ≠ []) :
    found + pattern.length ≤ data.length := by
  induction count generalizing cursor with
  | zero => cases here
  | succ count ih =>
    rw [findFrom] at here
    split at here
    · rename_i occurs
      obtain rfl := Option.some.inj here
      have short := (List.isPrefixOf_iff_prefix.mp occurs).length_le
      rw [List.length_drop] at short
      have := List.length_pos_iff.mpr some
      omega
    · exact ih here

theorem lineEnd_le (inside : cursor < stop) : lineEnd data cursor stop ≤ stop := by
  unfold lineEnd
  split
  · exact le_rfl
  · rename_i found here
    have := findFrom_lt here
    simp only [List.length_singleton] at this
    omega

theorem bodyStart_le (data : Bytes) : bodyStart data ≤ data.length := by
  unfold bodyStart
  split
  · rename_i separator here
    exact findFrom_fits here (by simp)
  · split
    · rename_i separator here
      exact findFrom_fits here (by simp)
    · exact le_rfl

/-- A span of at least one byte that ends at the limit or before. -/
def Proper (stop : Nat) (span : Nat × Nat) : Prop := span.1 < span.2 ∧ span.2 ≤ stop

theorem lineSpans_proper (data : Bytes) (cursor stop : Nat) : ∀ span ∈ lineSpans data cursor stop, Proper stop span := by
  fun_induction lineSpans data cursor stop with
  | case1 cursor inside ih =>
    intro span member
    rcases List.mem_cons.mp member with rfl | later
    · exact ⟨lt_lineEnd inside, lineEnd_le inside⟩
    · exact ih span later
  | case2 => nofun

theorem advance_le {p : UInt8 → Bool} : advance p data cursor stop ≤ max cursor stop := by
  have short := (List.takeWhile_sublist (l := (data.drop cursor).take (stop - cursor)) p).length_le
  rw [List.length_take] at short
  unfold advance
  omega

theorem valueSpans_proper (data : Bytes) (cursor stop : Nat) : ∀ span ∈ valueSpans data cursor stop, Proper stop span := by
  fun_induction valueSpans data cursor stop with
  | case1 cursor inside start tokenEnd rest proper ih =>
    intro span member
    rcases List.mem_cons.mp member with rfl | later
    · have first : start ≤ max cursor stop := advance_le
      have second : tokenEnd ≤ max start stop := advance_le
      exact ⟨proper, by dsimp only; omega⟩
    · exact ih span later
  | case2 cursor inside start tokenEnd rest empty ih => exact ih
  | case3 => nofun

theorem spans_proper (data : Bytes) (level : Level) : ∀ span ∈ spans data level, Proper data.length span := by
  have body := bodyStart_le data
  have widen {span : Nat × Nat} {stop : Nat} (proper : Proper stop span) (within : stop ≤ data.length) :
      Proper data.length span := ⟨proper.1, proper.2.trans within⟩
  unfold spans
  dsimp only
  cases level with
  | sections =>
    intro span member
    dsimp only at member
    split at member
    · rename_i inside
      rw [List.mem_singleton.mp member]
      exact ⟨inside, le_rfl⟩
    · cases member
  | headers =>
    intro span member
    exact widen (lineSpans_proper data 0 _ span (List.mem_of_mem_tail member)) body
  | bodyLines => exact lineSpans_proper data _ _
  | values =>
    intro span member
    obtain ⟨⟨start, stop⟩, line, inside⟩ := List.mem_flatMap.mp member
    have ends := (lineSpans_proper data 0 _ _ line).2
    dsimp only at inside ends
    split at inside
    · cases inside
    · exact widen (valueSpans_proper data _ stop span inside) (ends.trans body)

theorem deleteSpans_single (data : Bytes) (span : Nat × Nat) : deleteSpans data [span] = eraseSpan data span := rfl

/-- Deleting a span changes the data. -/
theorem deleteSpans_ne {span : Nat × Nat} (proper : Proper data.length span) : deleteSpans data [span] ≠ data := by
  intro same
  have short := congrArg List.length same
  rw [deleteSpans_single, eraseSpan, List.length_append, List.length_take, List.length_drop] at short
  obtain ⟨forward, inside⟩ := proper
  omega

end spans

namespace Minimizer
variable {ω : Type} (m : Minimizer ω)

/-- The predicate's answer depends on the candidate alone. -/
def Deterministic (fails : Reproducer → Bool) : Prop :=
  ∀ candidate world, (m.predicate candidate world).1.failed = fails candidate

/-- A test of the candidate is within the budgets. -/
structure Fits (progress : Progress ω) (candidate : Reproducer) : Prop where
  candidates : progress.candidates < m.limits.maxCandidates
  packets : progress.totalPackets + m.source.authorization.maxPacketsPerTrial * m.limits.trials ≤ m.limits.maxTotalPackets
  bytes : progress.totalBytes + candidate.wireBytes.length * m.limits.trials ≤ m.limits.maxTotalBytes

/-- No budget is exhausted while the removals are tried. -/
def TriesFit (progress : Progress ω) (current : Reproducer) (level : Level) : List (List (Nat × Nat)) → Prop
  | [] => True
  | removal :: rest =>
    let candidate := { current with wireBytes := deleteSpans current.wireBytes removal }
    if candidate.wireBytes = [] ∨ candidate.wireBytes = current.wireBytes then TriesFit progress current level rest
    else m.Fits progress candidate ∧
      match m.test progress candidate level.name with
      | .error _ => True
      | .ok (verdict, progress) => verdict.classification = .stable ∨ TriesFit progress current level rest

def PartitionFits (progress : Progress ω) (current : Reproducer) (level : Level) (spans : List (Nat × Nat))
    (partitions : Nat) (positive : 0 < partitions) : Prop :=
  if _within : partitions ≤ spans.length then
    let width := (spans.length + partitions - 1) / partitions
    m.TriesFit progress current level (groups spans width) ∧
      match m.tryRemovals progress current level (groups spans width) with
      | .ok (none, progress) =>
        if partitions = spans.length then True
        else PartitionFits progress current level spans (min spans.length (partitions * 2)) (by omega)
      | _ => True
  else True
termination_by spans.length - partitions
decreasing_by omega

/-- No budget is exhausted in a run of the reduction. -/
def ReduceFits (progress : Progress ω) (current : Reproducer) (level : Level) : Prop :=
  let found := spans current.wireBytes level
  if empty : found = [] then True
  else
    m.PartitionFits progress current level found (min 2 found.length)
        (by have := List.length_pos_iff.mpr empty; omega) ∧
      match outcome : m.partition progress current level found (min 2 found.length)
        (by have := List.length_pos_iff.mpr empty; omega) with
      | .ok (some reduced, progress) => ReduceFits progress reduced level
      | _ => True
termination_by current.wireBytes.length
decreasing_by exact m.partition_shorter outcome

variable {m} {fails : Reproducer → Bool} {progress : Progress ω} {candidate current : Reproducer} {level : Level}

theorem trialsOf_alike (deterministic : m.Deterministic fails) (candidate : Reproducer) (left : Nat) (world : ω) :
    ∀ result ∈ (m.trialsOf candidate left world).1, result.failed = fails candidate := by
  induction left generalizing world with
  | zero => nofun
  | succ left ih =>
    intro result member
    rw [trialsOf] at member
    rcases List.mem_cons.mp member with rfl | later
    · exact deterministic candidate world
    · exact ih _ result later

theorem trials_fail (deterministic : m.Deterministic fails) (world : ω) :
    m.classify ((m.trialsOf candidate m.limits.trials world).1.countP TrialResult.failed) = .stable ↔
      fails candidate = true := by
  have alike := trialsOf_alike deterministic candidate m.limits.trials world
  have length := trialsOf_length (m := m) candidate m.limits.trials world
  have some := m.limits.positive.1
  constructor
  · intro stable
    have all := List.countP_eq_length.mp ((classify_stable stable).trans length.symm)
    obtain ⟨result, member⟩ := List.exists_mem_of_length_pos (length.symm ▸ some)
    rw [← alike result member]
    exact all result member
  · intro fail
    have all : (m.trialsOf candidate m.limits.trials world).1.countP TrialResult.failed = m.limits.trials := by
      refine (List.countP_eq_length.mpr fun result member => ?_).trans length
      exact (alike result member).trans fail
    rw [all, classify, if_pos rfl]

/-- Within the budgets a test is stable exactly for a candidate that fails. -/
theorem test_fits (deterministic : m.Deterministic fails) (within : m.Within candidate)
    (fits : m.Fits progress candidate) (name : String) : ∃ verdict after,
      m.test progress candidate name = .ok (verdict, after) ∧
        (verdict.classification = .stable ↔ fails candidate = true) := by
  have sublist : candidate.wireBytes.isSublist m.source.wireBytes = true :=
    List.isSublist_iff_sublist.mpr within.bytes
  have known : candidate.dimensions.all (· ∈ m.source.dimensions) = true :=
    List.all_eq_true.mpr fun d member => decide_eq_true (within.dimensions.subset member)
  have affordable : ¬ (m.limits.maxTotalPackets <
        progress.totalPackets + m.source.authorization.maxPacketsPerTrial * m.limits.trials ∨
      m.limits.maxTotalBytes < progress.totalBytes + candidate.wireBytes.length * m.limits.trials) := by
    rw [not_or, not_lt, not_lt]
    exact ⟨fits.packets, fits.bytes⟩
  unfold test
  rw [if_neg (not_le.mpr fits.candidates), if_neg (by simp [sublist]), if_neg (by simp only [known]; simp),
    if_neg (not_not.mpr within.authorization)]
  dsimp only
  rw [if_neg affordable]
  exact ⟨_, _, rfl, trials_fail deterministic progress.world⟩

/-- The candidate that a removal leaves. -/
def without (current : Reproducer) (removal : List (Nat × Nat)) : Reproducer :=
  { current with wireBytes := deleteSpans current.wireBytes removal }

theorem within_without (within : m.Within current) (removal : List (Nat × Nat)) : m.Within (without current removal) :=
  ⟨(deleteSpans_sublist _ _).trans within.bytes, within.dimensions, within.authorization⟩

/-- What a search among the removals owes: a smaller candidate that fails, or that none of them does. -/
structure Searched (m : Minimizer ω) (fails : Reproducer → Bool) (current : Reproducer)
    (removals : List (List (Nat × Nat))) (outcome : Option Reproducer) : Prop where
  reduced : ∀ reduced, outcome = some reduced → m.Within reduced ∧ fails reduced = true
  nothing : outcome = none → ∀ removal ∈ removals, (without current removal).wireBytes ≠ [] →
    (without current removal).wireBytes ≠ current.wireBytes → fails (without current removal) = false

theorem tryRemovals_searched (deterministic : m.Deterministic fails) (within : m.Within current)
    {removals : List (List (Nat × Nat))} (fits : m.TriesFit progress current level removals) :
    ∃ outcome after, m.tryRemovals progress current level removals = .ok (outcome, after) ∧
      Searched m fails current removals outcome := by
  induction removals generalizing progress with
  | nil => exact ⟨none, progress, rfl, nofun, fun _ => nofun⟩
  | cons removal rest ih =>
    unfold TriesFit at fits
    rw [tryRemovals]
    dsimp only at fits ⊢
    by_cases useless : deleteSpans current.wireBytes removal = [] ∨
        deleteSpans current.wireBytes removal = current.wireBytes
    · rw [if_pos useless] at fits ⊢
      obtain ⟨outcome, after, tried, searched⟩ := ih fits
      refine ⟨outcome, after, tried, searched.reduced, fun none other member some changed => ?_⟩
      rcases List.mem_cons.mp member with rfl | later
      · exact absurd useless (not_or.mpr ⟨some, changed⟩)
      · exact searched.nothing none other later some changed
    · rw [if_neg useless] at fits ⊢
      obtain ⟨fits, others⟩ := fits
      obtain ⟨verdict, after, tested, stable⟩ :=
        test_fits deterministic (within_without within removal) fits level.name
      have tested' : m.test progress { current with wireBytes := deleteSpans current.wireBytes removal } level.name =
          .ok (verdict, after) := tested
      rw [tested'] at others ⊢
      dsimp only at others ⊢
      by_cases fail : verdict.classification = .stable
      · rw [if_pos fail]
        refine ⟨_, _, rfl, fun reduced same => ?_, fun some_ => by cases some_⟩
        rw [← Option.some.inj same]
        exact ⟨within_without within removal, stable.mp fail⟩
      · rw [if_neg fail]
        obtain ⟨outcome, after, tried, searched⟩ := ih (others.resolve_left fail)
        refine ⟨outcome, after, tried, searched.reduced, fun none other member some changed => ?_⟩
        rcases List.mem_cons.mp member with rfl | later
        · exact Bool.eq_false_iff.mpr fun fails => fail (stable.mpr fails)
        · exact searched.nothing none other later some changed

theorem groups_one (spans : List (Nat × Nat)) : groups spans 1 = spans.map fun span => [span] := by
  unfold groups
  rw [Nat.add_sub_cancel, Nat.div_one]
  apply List.ext_getElem
  · simp
  · intro i inside inside'
    simp only [List.length_map] at inside'
    simp [List.take_one, List.head?_drop, List.getElem?_eq_getElem inside']

/-- The finest partition is tried before the search is given up. -/
theorem partition_searched (deterministic : m.Deterministic fails) (within : m.Within current)
    {spans : List (Nat × Nat)} {partitions : Nat} {positive : 0 < partitions} (atMost : partitions ≤ spans.length)
    (fits : m.PartitionFits progress current level spans partitions positive) :
    ∃ outcome after, m.partition progress current level spans partitions positive = .ok (outcome, after) ∧
      Searched m fails current (spans.map fun span => [span]) outcome := by
  fun_induction PartitionFits m progress current level spans partitions positive with
  | case1 progress partitions positive inside width ih =>
    obtain ⟨tries, further⟩ := fits
    obtain ⟨outcome, after, tried, searched⟩ := tryRemovals_searched deterministic within tries
    rw [tried] at further
    rw [partition, dif_pos inside]
    dsimp only
    rw [tried]
    cases outcome with
    | some reduced => exact ⟨some reduced, after, rfl, searched.reduced, nofun⟩
    | none =>
      dsimp only at further ⊢
      by_cases finest : partitions = spans.length
      · rw [if_pos finest]
        refine ⟨none, after, rfl, nofun, ?_⟩
        have one : width = 1 := by
          have : width = (spans.length + partitions - 1) / partitions := rfl
          rw [this, finest]
          exact Nat.div_eq_of_lt_le (by omega) (by omega)
        rw [one, groups_one] at searched
        exact searched.nothing
      · rw [if_neg finest] at further ⊢
        exact ih after finest (min_le_left _ _) further
  | case2 progress partitions positive outside => exact absurd atMost outside

/-- The reproducer fails, and no single span of the level can be deleted from it. -/
structure OneMinimal (fails : Reproducer → Bool) (level : Level) (reduced : Reproducer) : Prop where
  failing : fails reduced = true
  minimal : ∀ span ∈ spans reduced.wireBytes level, (without reduced [span]).wireBytes ≠ [] →
    fails (without reduced [span]) = false

/-- With a predicate that answers alike and budgets that last, the reduction of a failing reproducer
ends at one that fails and is minimal in the spans of the level. -/
theorem reduceBytes_one_minimal (m : Minimizer ω) (fails : Reproducer → Bool) (deterministic : m.Deterministic fails)
    (progress : Progress ω) (current : Reproducer) (within : m.Within current) (fail : fails current = true)
    (level : Level) (fits : m.ReduceFits progress current level) :
    ∃ reduced after, m.reduceBytes progress current level = .ok (reduced, after) ∧ m.Within reduced ∧
      OneMinimal fails level reduced := by
  fun_induction ReduceFits m progress current level with
  | case1 progress current found empty =>
    rw [reduceBytes]
    refine ⟨current, progress, dif_pos empty, within, fail, fun span member => ?_⟩
    have none : spans current.wireBytes level = [] := empty
    rw [none] at member
    cases member
  | case2 progress current found empty ih =>
    obtain ⟨fits, further⟩ := fits
    have atMost : min 2 found.length ≤ found.length := min_le_right _ _
    obtain ⟨outcome, after, answer, reduced, nothing⟩ := partition_searched deterministic within atMost fits
    rw [reduceBytes, dif_neg empty]
    split
    · rename_i failure failed
      cases answer.symm.trans failed
    · rename_i progress' given
      obtain ⟨rfl, rfl⟩ := Prod.mk.inj (Except.ok.inj (answer.symm.trans given))
      refine ⟨current, after, rfl, within, fail, fun span member some => ?_⟩
      have changed := deleteSpans_ne (spans_proper current.wireBytes level span member)
      exact nothing rfl [span] (List.mem_map_of_mem member) some changed
    · rename_i smaller progress' found'
      obtain ⟨rfl, rfl⟩ := Prod.mk.inj (Except.ok.inj (answer.symm.trans found'))
      obtain ⟨inside, fail'⟩ := reduced smaller rfl
      split at further
      · rename_i smaller' progress'' found''
        obtain ⟨same, rfl⟩ := Prod.mk.inj (Except.ok.inj (answer.symm.trans found''))
        obtain rfl := Option.some.inj same
        exact ih smaller after found'' inside fail' further
      · rename_i other
        exact absurd found' (other smaller after)

/-- A head and a body of one byte, and a predicate that fails with that byte. -/
def bodyMinimizer : Minimizer Unit where
  source := ⟨[13, 10, 13, 10, 66], [], ⟨"lab", "early", 1, 16, by decide, by decide, by decide⟩⟩
  predicate candidate world := (⟨decide (66 ∈ candidate.wireBytes), "answered", []⟩, world)
  limits := ⟨1, 1, 4, 4, 64, by decide, by decide, by decide⟩
  expectedOutcome := "answered"
  command := ["replay"]
  sha256 _ := ""
  nonempty := by decide
  authorized := by decide

theorem bodyMinimizer_fits : bodyMinimizer.ReduceFits (start ()) bodyMinimizer.source .sections := by
  have found : spans bodyMinimizer.source.wireBytes .sections = [(4, 5)] := by decide
  have unreduced (positive : 0 < 1) : ∃ after, bodyMinimizer.partition (start ()) bodyMinimizer.source .sections [(4, 5)] 1
      positive = .ok (none, after) := by
    rw [partition]
    exact ⟨_, rfl⟩
  rw [ReduceFits]
  simp only [found]
  rw [dif_neg (List.cons_ne_nil _ _)]
  constructor
  · rw [PartitionFits, dif_pos (by decide)]
    refine ⟨⟨⟨by decide, by decide, by decide⟩, .inr trivial⟩, ?_⟩
    split
    · rw [if_pos (by decide)]
      trivial
    · trivial
  · split
    · rename_i reduced after given
      obtain ⟨after', none⟩ := unreduced (by decide)
      cases none.symm.trans given
    · trivial

theorem body_is_kept : ∃ reduced after,
    bodyMinimizer.reduceBytes (start ()) bodyMinimizer.source .sections = .ok (reduced, after) ∧
      bodyMinimizer.Within reduced ∧ OneMinimal (fun candidate => decide (66 ∈ candidate.wireBytes)) .sections reduced :=
  reduceBytes_one_minimal bodyMinimizer _ (fun _ _ => rfl) (start ()) bodyMinimizer.source
    (within_source bodyMinimizer) (by decide) .sections bodyMinimizer_fits

end Minimizer
end Sippycup.Torture
