import Mathlib.Data.List.Forall2

/-! Lists related item by item. -/
namespace Sippycup.Machine

theorem forall₂_imp_of_mem {α β : Type} {R S : α → β → Prop} {xs : List α} {ys : List β}
    (each : List.Forall₂ R xs ys) (imp : ∀ x ∈ xs, ∀ y ∈ ys, R x y → S x y) : List.Forall₂ S xs ys := by
  induction each with
  | nil => exact .nil
  | cons head _ ih =>
    refine .cons (imp _ List.mem_cons_self _ List.mem_cons_self head) (ih fun x inside y inside' => ?_)
    exact imp x (List.mem_cons_of_mem _ inside) y (List.mem_cons_of_mem _ inside')

theorem forall₂_mem {α β : Type} {R : α → β → Prop} {xs : List α} {ys : List β}
    (each : List.Forall₂ R xs ys) : ∀ y ∈ ys, ∃ x, R x y := by
  induction each with
  | nil => exact fun _ member => by cases member
  | cons first _ ih => exact List.forall_mem_cons.mpr ⟨⟨_, first⟩, ih⟩

theorem forall₂_mem_left {α β : Type} {R : α → β → Prop} {xs : List α} {ys : List β}
    (each : List.Forall₂ R xs ys) : ∀ y ∈ ys, ∃ x ∈ xs, R x y := by
  induction each with
  | nil => exact fun _ member => by cases member
  | cons first _ ih =>
    refine List.forall_mem_cons.mpr ⟨⟨_, List.mem_cons_self, first⟩, fun y member => ?_⟩
    obtain ⟨x, among, related⟩ := ih y member
    exact ⟨x, List.mem_cons_of_mem _ among, related⟩

/-- Related lists have related items in the same places. -/
theorem forall₂_place {α β : Type} {R : α → β → Prop} {xs : List α} {ys : List β}
    (each : List.Forall₂ R xs ys) {i : Nat} {x : α} (found : xs[i]? = some x) :
    ∃ y, ys[i]? = some y ∧ R x y := by
  induction each generalizing i with
  | nil => cases found
  | cons first _ ih =>
    cases i with
    | zero =>
      cases found
      exact ⟨_, rfl, first⟩
    | succ i => exact ih found

theorem forall₂_of_map {α β γ : Type} {f : α → γ} {g : β → γ} {xs : List α} {ys : List β}
    (same : xs.map f = ys.map g) : List.Forall₂ (fun x y => f x = g y) xs ys := by
  rw [← List.forall₂_eq_eq_eq, List.forall₂_map_left_iff, List.forall₂_map_right_iff] at same
  exact same

end Sippycup.Machine
