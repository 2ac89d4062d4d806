import Sippycup.Campaign.Covering
import Sippycup.Machine.Deletion

/-! Permitted rows of a case matrix: constraints prune soundly, completion finds
a row exactly when there is one, and an accepted matrix has one. -/
namespace Sippycup.Campaign
open Sippycup.Python Sippycup.Backtrack Sippycup.Loop

theorem mem_matrixFactors (factor : Factor) : factor ∈ matrixFactors := by
  cases factor <;> decide

theorem matrixFactors_nodup : matrixFactors.Nodup := by decide

theorem predicateState_false {a : Assignment Factor Scalar} {p : Predicate} {unknown : Bool} :
    predicateState a p unknown = some false ↔
      ∃ entry ∈ p, ∃ v, a entry.1 = some v ∧ v ∉ entry.2 := by
  induction p generalizing unknown with
  | nil => cases unknown <;> simp [predicateState]
  | cons entry rest ih =>
    obtain ⟨factor, allowed⟩ := entry
    simp only [predicateState, List.mem_cons, exists_eq_or_imp]
    cases assigned : a factor with
    | none => simp [ih]
    | some v =>
      by_cases member : v ∈ allowed
      · simp [member, ih]
      · simp [member]

theorem predicateState_true {a : Assignment Factor Scalar} {p : Predicate} {unknown : Bool} :
    predicateState a p unknown = some true ↔
      unknown = false ∧ ∀ entry ∈ p, ∃ v, a entry.1 = some v ∧ v ∈ entry.2 := by
  induction p generalizing unknown with
  | nil => cases unknown <;> simp [predicateState]
  | cons entry rest ih =>
    obtain ⟨factor, allowed⟩ := entry
    simp only [predicateState, List.mem_cons, forall_eq_or_imp]
    cases assigned : a factor with
    | none => simp [ih]
    | some v =>
      by_cases member : v ∈ allowed
      · simp [member, ih]
      · simp [member]

/-- A settled predicate stays as it is when more factors are assigned. -/
theorem predicateState_mono {a b : Assignment Factor Scalar} (extends_ : Extends a b) {p : Predicate}
    {settled : Bool} (state : predicateState a p false = some settled) :
    predicateState b p false = some settled := by
  cases settled with
  | false =>
    obtain ⟨entry, member, v, assigned, outside⟩ := predicateState_false.1 state
    exact predicateState_false.2 ⟨entry, member, v, extends_ _ _ assigned, outside⟩
  | true =>
    obtain ⟨_, all⟩ := predicateState_true.1 state
    refine predicateState_true.2 ⟨rfl, fun entry member => ?_⟩
    obtain ⟨v, assigned, inside⟩ := all entry member
    exact ⟨v, extends_ _ _ assigned, inside⟩

theorem constraintAllows_prunes (constraint : Constraint) : Prunes (constraintAllows constraint) := by
  intro a b extends_ allowed
  unfold constraintAllows at allowed ⊢
  split <;> rename_i form <;> simp only [form] at allowed
  · simp only [ne_eq, decide_eq_true_eq] at allowed ⊢
    exact fun state => allowed (predicateState_mono extends_ state)
  · simp only [ne_eq, decide_eq_true_eq] at allowed ⊢
    exact fun state => allowed (predicateState_mono extends_ state)
  · simp only [Bool.not_eq_true', Bool.and_eq_false_iff, decide_eq_false_iff_not] at allowed ⊢
    rcases allowed with antecedent | consequent
    · exact .inl fun state => antecedent (predicateState_mono extends_ state)
    · exact .inr fun state => consequent (predicateState_mono extends_ state)

theorem allAllow_prunes (constraints : List Constraint) : Prunes (allAllow constraints) := by
  intro a b extends_ allowed
  rw [allAllow, List.all_eq_true] at allowed ⊢
  exact fun constraint member =>
    constraintAllows_prunes constraint a b extends_ (allowed constraint member)

theorem violated_eq_nil {constraints : List Constraint} {a : Assignment Factor Scalar} :
    violated constraints a = [] ↔ allAllow constraints a = true := by
  simp [violated, allAllow, List.filter_eq_nil_iff]

/-- A complete assignment from the domains that every constraint allows. -/
structure Permitted (matrix : Matrix) (row : Assignment Factor Scalar) : Prop where
  total : ∀ factor, ∃ v ∈ matrix.factors factor, row factor = some v
  allowed : allAllow matrix.constraints row = true

section
variable {κ : Type} [LinearOrder κ] {stableKey : Nat → String → Value → κ} {matrix : Matrix}
  {fixed row : Assignment Factor Scalar} {seed : Nat} {namespace_ : String}
  {uncovered : List FactorTuple}

theorem mem_candidates {a : Assignment Factor Scalar} {factor : Factor} {v : Scalar} :
    v ∈ candidates stableKey matrix.factors seed namespace_ uncovered a factor ↔
      v ∈ matrix.factors factor :=
  (List.perm_insertionSort _ _).mem_iff

theorem mem_searchOrder {domains : Domains} {factors : List Factor} {factor : Factor} :
    factor ∈ searchOrder domains factors ↔ factor ∈ factors :=
  (List.perm_insertionSort _ _).mem_iff

theorem completeAssignment_sound (within : ∀ factor v, fixed factor = some v → v ∈ matrix.factors factor)
    (completed : completeAssignment stableKey matrix fixed seed namespace_ uncovered = some row) :
    Permitted matrix row ∧ Extends fixed row := by
  unfold completeAssignment at completed
  rw [Option.ite_none_right_eq_some] at completed
  have distinct : (searchOrder matrix.factors (matrixFactors.filter fun f => fixed f = none)).Nodup :=
    (List.perm_insertionSort _ _).nodup_iff.mpr (matrixFactors_nodup.filter _)
  obtain ⟨allowed, extends_, assigned, _⟩ := search_sound
    (fun a factor v member => mem_candidates.1 member) distinct
    (fun factor member => by
      rw [mem_searchOrder, List.mem_filter] at member
      simpa using member.2) completed.2
  refine ⟨⟨fun factor => ?_, allowed⟩, extends_⟩
  cases value : fixed factor with
  | some v => exact ⟨v, within factor v value, extends_ factor v value⟩
  | none =>
    refine assigned factor (mem_searchOrder.2 ?_)
    simp [mem_matrixFactors, value]

/-- Completion finds a row exactly when there is one, in whatever order it looks. -/
theorem completeAssignment_complete (permitted : Permitted matrix row) (extends_ : Extends fixed row) :
    ∃ completed,
      completeAssignment stableKey matrix fixed seed namespace_ uncovered = some completed := by
  have here := allAllow_prunes matrix.constraints fixed row extends_ permitted.allowed
  rw [completeAssignment, if_pos here]
  refine search_complete (allAllow_prunes matrix.constraints) extends_ permitted.allowed ?_
  intro factor _
  obtain ⟨v, member, value⟩ := permitted.total factor
  exact ⟨v, value, fun a => mem_candidates.2 member⟩

end

/-- A satisfiable matrix has a permitted row. -/
theorem matrixSatisfiable_ok {matrix : Matrix}
    (result : matrixSatisfiable matrix.factors matrix.constraints = .ok true) :
    ∃ row, Permitted matrix row := by
  unfold matrixSatisfiable at result
  cases counted : countedSearch maxSatStates _ (allAllow matrix.constraints) matrix.factors
      (searchOrder matrix.factors matrixFactors) (fun _ => none) 0 with
  | error raised =>
    rw [counted] at result
    cases result
  | ok progress =>
    obtain ⟨answer, states⟩ := progress
    rw [counted] at result
    simp only [Except.map, Except.ok.injEq] at result
    have yes : answer = true := result
    rw [countedSearch_ok counted] at yes
    obtain ⟨row, found⟩ := Option.isSome_iff_exists.mp yes
    have within : ∀ (a : Assignment Factor Scalar) factor, ∀ v ∈ matrix.factors factor,
        v ∈ matrix.factors factor := fun _ _ _ member => member
    have distinct : (searchOrder matrix.factors matrixFactors).Nodup :=
      (List.perm_insertionSort _ _).nodup_iff.mpr matrixFactors_nodup
    have unset : ∀ factor ∈ searchOrder matrix.factors matrixFactors,
        (fun _ => none : Assignment Factor Scalar) factor = none := fun _ _ => rfl
    obtain ⟨allowed, _, assigned, _⟩ :=
      search_sound within distinct unset found
    exact ⟨row, fun factor => assigned factor (mem_searchOrder.2 (mem_matrixFactors factor)),
      allowed⟩

theorem selectValues_mem {factor : Factor} {field : String} {domain selected result : List Scalar}
    {index : Nat} {items : List Value} (inside : ∀ v ∈ selected, v ∈ domain)
    (ok : selectValues factor field domain index selected items = .ok result) :
    ∀ v ∈ result, v ∈ domain := by
  induction items generalizing index selected with
  | nil =>
    cases ok
    exact inside
  | cons item rest ih =>
    obtain ⟨parsed, _, ok⟩ := bind_ok.mp ok
    split at ok
    · cases ok
    · split at ok
      · cases ok
      · rename_i member
        refine ih (fun v among => ?_) ok
        rcases List.mem_append.mp among with earlier | last
        · exact inside v earlier
        · rw [List.mem_singleton.mp last]
          exact not_not.mp member

theorem predicateEntry_ok {predicate : Dict} {field : String} {domains : Domains} {factor : Factor}
    {entry : Factor × List Scalar} (ok : predicateEntry predicate field domains factor = .ok entry) :
    entry.1 = factor ∧ ∀ v ∈ entry.2, v ∈ domains factor := by
  obtain ⟨raw, _, rest⟩ := bind_ok.mp ok
  dsimp only at rest
  split at rest
  · cases rest
  · obtain ⟨selected, chosen, rest⟩ := bind_ok.mp rest
    obtain rfl := pure_ok.mp rest
    refine ⟨rfl, fun v among => ?_⟩
    exact selectValues_mem (by simp) chosen v ((List.perm_insertionSort _ _).mem_iff.mp among)

theorem matrixPredicate_ok {value : Value} {field : String} {domains : Domains} {p : Predicate}
    (ok : matrixPredicate value field domains = .ok p) :
    ∃ d : Dict, value = .dict d ∧ ∀ entry ∈ p, d.contains entry.1.name = true ∧
      ∀ v ∈ entry.2, v ∈ domains entry.1 := by
  obtain ⟨d, isMapping, rest⟩ := bind_ok.mp ok
  refine ⟨d, mapping_ok.mp isMapping, ?_⟩
  split at rest
  · cases rest
  · obtain ⟨unknown, _, rest⟩ := bind_ok.mp rest
    split at rest
    · have all := mapM_ok rest
      intro entry member
      obtain ⟨index, within, rfl⟩ := List.getElem_of_mem member
      have counted := all.length_eq
      obtain ⟨same, inside⟩ :=
        predicateEntry_ok ((List.forall₂_iff_get.mp all).2 index (counted ▸ within) within)
      have factor := List.getElem_mem (counted ▸ within)
      unfold sortFactors at factor
      rw [(List.perm_insertionSort _ _).mem_iff, List.mem_filter] at factor
      simp only [List.get_eq_getElem] at same inside
      rw [same]
      exact ⟨factor.2, inside⟩
    · obtain ⟨names, _, rest⟩ := bind_ok.mp rest
      cases rest

theorem Factor.name_inj {f g : Factor} : f.name = g.name ↔ f = g := by
  cases f <;> cases g <;> decide

theorem totalAssignment_ok {rawValues : Dict} {field : String} {domains : Domains}
    {values : Factor → Scalar} (ok : totalAssignment rawValues field domains = .ok values)
    (factor : Factor) : values factor ∈ domains factor := by
  obtain ⟨raw, _, read⟩ := bind_ok.mp (collect_ok ok factor (mem_matrixFactors factor))
  obtain ⟨p, parsed, read⟩ := bind_ok.mp read
  obtain ⟨d, same, entries⟩ := matrixPredicate_ok parsed
  cases same
  split at read
  · rename_i other v more rest
    obtain rfl := pure_ok.mp read
    obtain ⟨named, inside⟩ := entries _ List.mem_cons_self
    have here : other = factor := by
      simp only [Dict.contains, Dict.get?_cons_str, Dict.get?_nil, Text.ofString_inj,
        Factor.name_inj] at named
      by_contra different
      rw [if_neg (Ne.symm different)] at named
      cases named
    subst here
    exact inside _ List.mem_cons_self
  · cases read

theorem mandatoryCases_ok {domains : Domains} {constraints : List Constraint} {index : Nat}
    {seen : List Text} {raw : List Value} {cases_ : List MandatoryCase}
    (ok : mandatoryCases domains constraints index seen raw = .ok cases_) :
    ∀ item ∈ cases_, (∀ factor, item.values factor ∈ domains factor) ∧
      allAllow constraints (ofTotal item.values) = true := by
  induction raw generalizing index seen cases_ with
  | nil =>
    cases ok
    simp
  | cons value rest ih =>
    simp only [mandatoryCases, bind_ok] at ok
    obtain ⟨item, _, _, _, id, _, ok⟩ := ok
    split at ok
    · cases ok
    · simp only [bind_ok] at ok
      obtain ⟨rawValues, _, extra, _, ok⟩ := ok
      split at ok
      · obtain ⟨details, _, ok⟩ := bind_ok.mp ok
        cases ok
      · obtain ⟨values, read, ok⟩ := bind_ok.mp ok
        split at ok
        · cases ok
        · rename_i none
          simp only [bind_ok, pure_ok] at ok
          obtain ⟨rationale, _, others, later, rfl⟩ := ok
          intro entry member
          rcases List.mem_cons.mp member with rfl | among
          · exact ⟨totalAssignment_ok read, violated_eq_nil.1 (not_not.mp none)⟩
          · exact ih later entry among

theorem coveringFactors_ok {item : Dict} {field : String} {strength r : Nat} {factors : List Factor}
    (ok : coveringFactors item field strength = .ok (some (factors, r))) :
    strength < r ∧ r ≤ factors.length := by
  unfold coveringFactors at ok
  split at ok
  · cases ok
  · split at ok
    · cases ok
    · simp only [bind_ok] at ok
      obtain ⟨_, _, _, _, _, _, ok⟩ := ok
      split at ok
      · cases ok
      · simp only [bind_ok] at ok
        obtain ⟨_, _, riskStrength, _, ok⟩ := ok
        split at ok
        · cases ok
        · rename_i within
          have same := Option.some.inj (pure_ok.mp ok)
          cases same
          omega

theorem riskWeights_ok {domains : Domains} {strength index : Nat} {seen : List Text}
    {raw : List Value} {risks : List RiskWeight}
    (ok : riskWeights domains strength index seen raw = .ok risks) :
    ∀ risk ∈ risks, ∀ factors r, risk.covering = some (factors, r) →
      strength < r ∧ r ≤ factors.length := by
  induction raw generalizing index seen risks with
  | nil =>
    cases ok
    simp
  | cons value rest ih =>
    simp only [riskWeights, bind_ok] at ok
    obtain ⟨item, _, _, _, id, _, ok⟩ := ok
    split at ok
    · cases ok
    · simp only [bind_ok, pure_ok] at ok
      obtain ⟨_, _, _, _, _, _, covering, read, others, later, rfl⟩ := ok
      intro risk member factors r same
      rcases List.mem_cons.mp member with rfl | among
      · cases same
        exact coveringFactors_ok read
      · exact ih later risk among factors r same

/-- What the validator establishes about a matrix it accepts. -/
structure Matrix.Accepted (matrix : Matrix) : Prop where
  satisfiable : ∃ row, Permitted matrix row
  mandatory : ∀ item ∈ matrix.mandatoryCases, Permitted matrix (ofTotal item.values)
  strength : 0 < matrix.interactionStrength
  covering : ∀ risk ∈ matrix.riskWeights, ∀ factors r, risk.covering = some (factors, r) →
    matrix.interactionStrength < r ∧ r ≤ factors.length

theorem validateMatrix_ok {value : Value} {authorized : List Value} {matrix : Matrix}
    (ok : validateMatrix value authorized = .ok matrix) : matrix.Accepted := by
  simp only [validateMatrix, bind_ok] at ok
  obtain ⟨d, _, _, _, rawFactors, _, factors, _, rawConstraints, _, unsorted, _, satisfiable, sat,
    ok⟩ := ok
  split at ok
  · obtain ⟨core, _, ok⟩ := bind_ok.mp ok
    cases ok
  · rename_i yes
    simp only [bind_ok] at ok
    obtain ⟨rawCases, _, cases_, casesOk, strength, strengthOk, ok⟩ := ok
    split at ok
    · cases ok
    · simp only [bind_ok, pure_ok] at ok
      obtain ⟨rawRisks, _, risks, risksOk, rfl⟩ := ok
      simp only [Bool.not_eq_true', Bool.not_eq_false] at yes
      subst yes
      have mandatory := mandatoryCases_ok casesOk
      exact {
        satisfiable := matrixSatisfiable_ok sat
        mandatory := by
          intro item member
          rw [(List.perm_insertionSort _ _).mem_iff] at member
          obtain ⟨inside, allowed⟩ := mandatory item member
          exact ⟨fun factor => ⟨_, inside factor, rfl⟩, allowed⟩
        strength := (uint_ok.1 strengthOk).2.2 rfl
        covering := by
          intro risk member
          rw [(List.perm_insertionSort _ _).mem_iff] at member
          exact riskWeights_ok risksOk risk member }

end Sippycup.Campaign

/-! Minimal conflicts: the bounded search decides satisfiability, fewer constraints are
easier to satisfy, so the core that deletion leaves conflicts and no part of it does. -/
namespace Sippycup.Campaign
open Sippycup.Python Sippycup.Backtrack Sippycup.Deletion

/-- A value from every domain that every constraint allows. -/
def Satisfiable (domains : Domains) (constraints : List Constraint) : Prop :=
  ∃ row : Assignment Factor Scalar, (∀ factor, ∃ v ∈ domains factor, row factor = some v) ∧
    allAllow constraints row = true

variable {domains : Domains} {constraints : List Constraint}

theorem Satisfiable.sublist {fewer : List Constraint} (within : fewer.Sublist constraints) :
    Satisfiable domains constraints → Satisfiable domains fewer := by
  rintro ⟨row, total, allowed⟩
  rw [allAllow, List.all_eq_true] at allowed
  exact ⟨row, total, List.all_eq_true.mpr fun constraint member => allowed constraint (within.subset member)⟩

theorem matrixSatisfiable_iff {answer : Bool} (result : matrixSatisfiable domains constraints = .ok answer) :
    answer = true ↔ Satisfiable domains constraints := by
  constructor
  · rintro rfl
    let matrix : Matrix := { factors := domains, constraints, mandatoryCases := [],
                             interactionStrength := 0, riskWeights := [] }
    obtain ⟨row, permitted⟩ : ∃ row, Permitted matrix row := matrixSatisfiable_ok result
    exact ⟨row, permitted.total, permitted.allowed⟩
  · rintro ⟨row, total, allowed⟩
    unfold matrixSatisfiable at result
    cases counted : countedSearch maxSatStates _ (allAllow constraints) domains
        (searchOrder domains matrixFactors) (fun _ => none) 0 with
    | error raised =>
      rw [counted] at result
      cases result
    | ok progress =>
      obtain ⟨yes, states⟩ := progress
      rw [counted] at result
      simp only [Except.map, Except.ok.injEq] at result
      have extends_ : Extends (fun _ => none) row := fun _ _ unset => by cases unset
      have completion : ∃ found, search (allAllow constraints) (fun _ => domains)
          (searchOrder domains matrixFactors) (fun _ => none) = some found :=
        search_complete (allAllow_prunes constraints) extends_ allowed fun factor _ =>
          (total factor).imp fun v has => ⟨has.2, fun _ => has.1⟩
      obtain ⟨found, complete⟩ := completion
      rw [← result, countedSearch_ok counted, complete]
      rfl

theorem matrixSatisfiable_decides (domains : Domains) :
    Decides (matrixSatisfiable domains) (Satisfiable domains) where
  answers := fun _ _ result => matrixSatisfiable_iff result
  sublists := fun within => Satisfiable.sublist within

theorem minimalUnsatCore_eq (kept rest : List Constraint) :
    minimalUnsatCore domains kept rest = shrink (matrixSatisfiable domains) kept rest := by
  induction rest generalizing kept with
  | nil => rfl
  | cons constraint rest ih =>
    rw [minimalUnsatCore, shrink]
    simp only [ih]

/-- An unsatisfiable part of the constraints, each of which the conflict needs. -/
structure MinimalCore (domains : Domains) (constraints core : List Constraint) : Prop where
  part : core.Sublist constraints
  conflicts : ¬ Satisfiable domains core
  needed : ∀ i < core.length, Satisfiable domains (core.eraseIdx i)

/-- The core of constraints in conflict is minimal, and it is found unless a search for a
part of them passes the limit of states. -/
theorem unsat_core_minimal (conflict : ¬ Satisfiable domains constraints) :
    (∀ core, minimalUnsatCore domains [] constraints = .ok core → MinimalCore domains constraints core) ∧
      ((∀ tested : List Constraint, tested.Sublist constraints →
          ∃ answer, matrixSatisfiable domains tested = .ok answer) →
        ∃ core, minimalUnsatCore domains [] constraints = .ok core) := by
  constructor
  · intro core found
    rw [minimalUnsatCore_eq] at found
    obtain ⟨part, conflicts, needed⟩ := shrink_minimal (matrixSatisfiable_decides domains) conflict found
    exact ⟨part, conflicts, needed⟩
  · intro answers
    rw [minimalUnsatCore_eq]
    exact shrink_returns answers

/-- Every factor has one value but the codec, which has two. -/
def twoCodecs : Domains
  | .codec => [.text "pcma", .text "pcmu"]
  | _ => [.int 0]

/-- The first of three constraints plays no part in the conflict of the others. -/
def codecConflict : List Constraint :=
  [⟨"any", .require [(.codec, [.text "pcma", .text "pcmu"])], none⟩,
    ⟨"law-a", .require [(.codec, [.text "pcma"])], none⟩,
    ⟨"law-u", .exclude [(.codec, [.text "pcma"])], none⟩]

theorem codecConflict_unsatisfiable : ¬ Satisfiable twoCodecs codecConflict := by
  have answer : matrixSatisfiable twoCodecs codecConflict = .ok false := by decide +kernel
  intro satisfiable
  exact Bool.false_ne_true ((matrixSatisfiable_iff answer).mpr satisfiable)

theorem codecConflict_core : MinimalCore twoCodecs codecConflict (codecConflict.drop 1) := by
  have found : minimalUnsatCore twoCodecs [] codecConflict = .ok (codecConflict.drop 1) := by
    decide +kernel
  exact (unsat_core_minimal codecConflict_unsatisfiable).1 _ found

end Sippycup.Campaign
