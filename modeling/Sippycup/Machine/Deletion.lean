import Mathlib.Data.List.Sublists

/-! Deletion-based reduction of a list: each element is dropped when what is left
still fails a test. For a test that keeps passing on sublists the result fails, and
passes as soon as any one of its elements is removed. -/
namespace Sippycup.Deletion

variable {α ε : Type}

/-- The elements kept so far, and those not tried yet; the test may raise. -/
@[grind =] def shrink (passes : List α → Except ε Bool) : List α → List α → Except ε (List α)
  | kept, [] => .ok kept
  | kept, a :: rest => do
    if ← passes (kept ++ rest) then shrink passes (kept ++ [a]) rest
    else shrink passes kept rest

/-- The test answers whether a property holds, and the property is one of sublists too. -/
structure Decides (passes : List α → Except ε Bool) (P : List α → Prop) : Prop where
  answers : ∀ items answer, passes items = .ok answer → (answer = true ↔ P items)
  sublists : ∀ {inner outer}, inner.Sublist outer → P outer → P inner

variable {passes : List α → Except ε Bool} {P : List α → Prop}

/-- Each element of the new part is needed, whatever was kept before. -/
theorem shrink_ok (decides : Decides passes P) {kept rest result : List α} (fails : ¬ P (kept ++ rest))
    (ok : shrink passes kept rest = .ok result) :
    ∃ tail, result = kept ++ tail ∧ tail.Sublist rest ∧ ¬ P result ∧
      ∀ before a after, tail = before ++ a :: after → P (kept ++ before ++ after) := by
  induction rest generalizing kept with
  | nil =>
    cases ok
    rw [List.append_nil] at fails
    refine ⟨[], (List.append_nil _).symm, List.Sublist.refl _, fails, fun before a after same => ?_⟩
    simp at same
  | cons a rest ih =>
    rw [shrink] at ok
    cases tested : passes (kept ++ rest) with
    | error raised =>
      rw [tested] at ok
      cases ok
    | ok answer =>
      rw [tested] at ok
      have meaning := decides.answers _ _ tested
      cases answer with
      | false =>
        have still : ¬ P (kept ++ rest) := fun holds => Bool.false_ne_true (meaning.mpr holds)
        obtain ⟨tail, same, within, bad, needed⟩ := ih still ok
        exact ⟨tail, same, within.cons a, bad, needed⟩
      | true =>
        have more : ¬ P ((kept ++ [a]) ++ rest) := by rwa [List.append_assoc]
        obtain ⟨tail, rfl, within, bad, needed⟩ := ih more ok
        refine ⟨a :: tail, by simp, within.cons_cons a, bad, fun before b after same => ?_⟩
        cases before with
        | nil =>
          obtain ⟨-, rfl⟩ := List.cons.inj same
          rw [List.append_nil]
          exact decides.sublists (within.append_left kept) (meaning.mp rfl)
        | cons c before =>
          obtain ⟨rfl, later⟩ := List.cons.inj same
          simpa using needed before b after later

theorem shrink_minimal (decides : Decides passes P) {items result : List α} (fails : ¬ P items)
    (ok : shrink passes [] items = .ok result) :
    result.Sublist items ∧ ¬ P result ∧ ∀ i < result.length, P (result.eraseIdx i) := by
  rw [← List.nil_append items] at fails
  obtain ⟨_, rfl, within, bad, needed⟩ := shrink_ok decides fails ok
  refine ⟨within, bad, fun i inside => ?_⟩
  have split := List.take_append_drop i result
  rw [List.drop_eq_getElem_cons inside] at split
  rw [List.eraseIdx_eq_take_drop_succ]
  simpa using needed _ _ _ split.symm

/-- Only tests of sublists are made, so the reduction raises only if one of them does. -/
theorem shrink_returns {kept rest : List α}
    (answers : ∀ tested : List α, tested.Sublist (kept ++ rest) → ∃ answer, passes tested = .ok answer) :
    ∃ result, shrink passes kept rest = .ok result := by
  induction rest generalizing kept with
  | nil => exact ⟨kept, rfl⟩
  | cons a rest ih =>
    have dropped : (kept ++ rest).Sublist (kept ++ a :: rest) :=
      (List.sublist_cons_self a rest).append_left kept
    obtain ⟨answer, tested⟩ := answers _ dropped
    rw [shrink, tested]
    cases answer with
    | false => exact ih fun items within => answers items (within.trans dropped)
    | true =>
      refine ih fun items within => answers items ?_
      rwa [List.append_assoc] at within

end Sippycup.Deletion
