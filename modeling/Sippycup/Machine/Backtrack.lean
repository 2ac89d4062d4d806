import Mathlib.Data.List.Basic

/-! Backtracking search for an assignment, over any variables and values. A
test on assignments with gaps prunes; when it never rejects what has an allowed
extension, the search finds an extension exactly if there is one, whatever the
order of variables and candidates. -/
namespace Sippycup.Backtrack

variable {ι α ε : Type}

abbrev Assignment (ι α : Type) := ι → Option α

def Extends (a b : Assignment ι α) : Prop := ∀ i v, a i = some v → b i = some v

theorem Extends.refl (a : Assignment ι α) : Extends a a := fun _ _ same => same

theorem Extends.trans {a b c : Assignment ι α} (first : Extends a b) (second : Extends b c) :
    Extends a c := fun i v same => second i v (first i v same)

variable [DecidableEq ι]

theorem extends_update {a : Assignment ι α} {i : ι} (unset : a i = none) (v : α) :
    Extends a (Function.update a i (some v)) := by
  intro j w same
  by_cases other : j = i
  · rw [other, unset] at same
    cases same
  · rwa [Function.update_of_ne other]

theorem update_extends {a b : Assignment ι α} {i : ι} {v : α} (before : Extends a b)
    (next : b i = some v) : Extends (Function.update a i (some v)) b := by
  intro j w same
  by_cases other : j = i
  · subst other
    rw [Function.update_self] at same
    rw [next, same]
  · rw [Function.update_of_ne other] at same
    exact before j w same

/-- A test that rejects an assignment only if it rejects every extension. -/
def Prunes (allows : Assignment ι α → Bool) : Prop :=
  ∀ a b, Extends a b → allows b = true → allows a = true

@[grind =] def search (allows : Assignment ι α → Bool) (candidates : Assignment ι α → ι → List α) :
    List ι → Assignment ι α → Option (Assignment ι α)
  | [], a => if allows a then some a else none
  | i :: rest, a =>
    if allows a then
      (candidates a i).findSome? fun v =>
        search allows candidates rest (Function.update a i (some v))
    else none

/-- Visits values until one answers yes, counting on. -/
@[grind =] def tryValues (visit : α → Nat → Except ε (Bool × Nat)) : List α → Nat → Except ε (Bool × Nat)
  | [], states => .ok (false, states)
  | v :: rest, states =>
    match visit v states with
    | .error raised => .error raised
    | .ok (true, states) => .ok (true, states)
    | .ok (false, states) => tryValues visit rest states

/-- The same search for a yes or no, raising after `limit` visited assignments. -/
@[grind =] def countedSearch (limit : Nat) (raised : ε) (allows : Assignment ι α → Bool)
    (domain : ι → List α) : List ι → Assignment ι α → Nat → Except ε (Bool × Nat)
  | [], a, states =>
    if limit < states + 1 then .error raised else .ok (allows a, states + 1)
  | i :: rest, a, states =>
    if limit < states + 1 then .error raised
    else if allows a then
      tryValues (fun v =>
        countedSearch limit raised allows domain rest (Function.update a i (some v)))
        (domain i) (states + 1)
    else .ok (false, states + 1)

section
variable {allows : Assignment ι α → Bool} {candidates : Assignment ι α → ι → List α}
  {domain : ι → List α} {order : List ι} {a b : Assignment ι α}

theorem search_sound (within : ∀ a i, ∀ v ∈ candidates a i, v ∈ domain i) (distinct : order.Nodup)
    (unset : ∀ i ∈ order, a i = none) (found : search allows candidates order a = some b) :
    allows b = true ∧ Extends a b ∧ (∀ i ∈ order, ∃ v ∈ domain i, b i = some v) ∧
      ∀ i ∉ order, b i = a i := by
  induction order generalizing a with
  | nil =>
    simp only [search, Option.ite_none_right_eq_some, Option.some.injEq] at found
    obtain ⟨allowed, rfl⟩ := found
    exact ⟨allowed, .refl a, by simp, by simp⟩
  | cons i rest ih =>
    rw [List.nodup_cons] at distinct
    simp only [search, Option.ite_none_right_eq_some, List.findSome?_eq_some_iff] at found
    obtain ⟨_, before, v, after, split, found, _⟩ := found
    have next : ∀ j ∈ rest, Function.update a i (some v) j = none := by
      intro j member
      have other : j ≠ i := by
        rintro rfl
        exact distinct.1 member
      rw [Function.update_of_ne other]
      exact unset j (List.mem_cons_of_mem i member)
    obtain ⟨allowed, extends_, assigned, kept⟩ := ih distinct.2 next found
    have value : b i = some v := extends_ i v (Function.update_self ..)
    have member : v ∈ candidates a i := by simp [split]
    refine ⟨allowed, (extends_update (unset i List.mem_cons_self) v).trans extends_, ?_, ?_⟩
    · intro j among
      rcases List.mem_cons.mp among with rfl | later
      · exact ⟨v, within a j v member, value⟩
      · exact assigned j later
    · intro j outside
      rw [List.mem_cons, not_or] at outside
      rw [kept j outside.2, Function.update_of_ne outside.1]

/-- Whatever the order, an allowed extension is not missed. -/
theorem search_complete (prunes : Prunes allows) {σ : Assignment ι α} (extends_ : Extends a σ)
    (allowed : allows σ = true) (assigned : ∀ i ∈ order, ∃ v, σ i = some v ∧ ∀ a, v ∈ candidates a i) :
    ∃ b, search allows candidates order a = some b := by
  have here := prunes a σ extends_ allowed
  induction order generalizing a with
  | nil => exact ⟨a, by simp [search, here]⟩
  | cons i rest ih =>
    obtain ⟨v, value, member⟩ := assigned i List.mem_cons_self
    have next := update_extends extends_ value
    obtain ⟨b, found⟩ := ih next (fun j among => assigned j (List.mem_cons_of_mem i among))
      (prunes _ σ next allowed)
    have some_ : ((candidates a i).findSome? fun v =>
        search allows candidates rest (Function.update a i (some v))).isSome = true := by
      rw [List.findSome?_isSome_iff]
      exact ⟨v, member a, by rw [found]; rfl⟩
    obtain ⟨b, found⟩ := Option.isSome_iff_exists.mp some_
    exact ⟨b, by rw [search, if_pos here, found]⟩

omit [DecidableEq ι] in
theorem tryValues_ok {β : Type} {visit : α → Nat → Except ε (Bool × Nat)} {f : α → Option β}
    (visited : ∀ v n answer m, visit v n = .ok (answer, m) → answer = (f v).isSome)
    {values : List α} {n m : Nat} {answer : Bool} (result : tryValues visit values n = .ok (answer, m)) :
    answer = (values.findSome? f).isSome := by
  induction values generalizing n with
  | nil =>
    cases result
    rfl
  | cons v rest ih =>
    rw [tryValues] at result
    split at result
    · cases result
    · rename_i first
      cases result
      have yes := visited _ _ _ _ first
      obtain ⟨b, found⟩ := Option.isSome_iff_exists.mp yes.symm
      rw [List.findSome?_cons, found]
      rfl
    · rename_i first
      have no := visited _ _ _ _ first
      have none : f v = none := Option.isSome_eq_false_iff.mp no.symm |> Option.isNone_iff_eq_none.mp
      rw [List.findSome?_cons, none]
      exact ih result

/-- A counted search that ends answers as the search does. -/
theorem countedSearch_ok {limit : Nat} {raised : ε} {states visited : Nat} {answer : Bool}
    (result : countedSearch limit raised allows domain order a states = .ok (answer, visited)) :
    answer = (search allows (fun _ => domain) order a).isSome := by
  induction order generalizing a states answer visited with
  | nil =>
    simp only [countedSearch] at result
    split at result
    · cases result
    · cases result
      cases allowed : allows a <;> simp [search, allowed]
  | cons i rest ih =>
    simp only [countedSearch] at result
    split at result
    · cases result
    · split at result
      · rename_i allowed
        rw [search, if_pos allowed]
        exact tryValues_ok (fun v n answer m first => ih first) result
      · rename_i pruned
        cases result
        rw [search, if_neg pruned]
        rfl

end
end Sippycup.Backtrack
