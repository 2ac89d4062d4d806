import Mathlib.Data.List.Infix
import Mathlib.Data.List.Sublists

/-! A queue that drops from its front what is too old for the newest item. It
counts every window whose items it could not lose before the window's end. -/
namespace Sippycup.Machine.SlidingWindow

variable {α β : Type} (older : α → α → Bool)

/-- `older y x`: the item `y` is too old for a window that ends with `x`. -/
def slide (window : List α) (x : α) : List α := (window ++ [x]).dropWhile fun y => older y x

def slides (xs : List α) : List α := xs.foldl (slide older) []

/-- No item between two items of the window is too new for the first of them. -/
def Orderly (inside : α → Bool) (xs : List α) : Prop :=
  ∀ part : List α, part.Sublist xs → ∀ y ∈ part.head?, ∀ z ∈ part.getLast?,
    inside y = true → inside z = true → ∀ x ∈ part, older y x = false

variable {older} {inside : α → Bool} {xs : List α}

instance [DecidableEq α] (inside : α → Bool) (xs : List α) : Decidable (Orderly older inside xs) :=
  decidable_of_iff (∀ part ∈ xs.sublists, ∀ y ∈ part.head?, ∀ z ∈ part.getLast?,
    inside y = true → inside z = true → ∀ x ∈ part, older y x = false) (by simp [Orderly])

theorem Orderly.sublist {ys : List α} (orderly : Orderly older inside xs) (sub : ys.Sublist xs) :
    Orderly older inside ys :=
  fun part part_sub => orderly part (part_sub.trans sub)

theorem slides_snoc (xs : List α) (x : α) : slides older (xs ++ [x]) = slide older (slides older xs) x := by
  rw [slides, List.foldl_append, List.foldl_cons, List.foldl_nil, slides]

theorem slides_subset (xs : List α) : slides older xs ⊆ xs := by
  induction xs using List.reverseRecOn with
  | nil => exact List.Subset.refl _
  | append_singleton xs x ih =>
    rw [slides_snoc, slide]
    intro y member
    have member := List.dropWhile_subset _ member
    rcases List.mem_append.mp member with earlier | last
    · exact List.mem_append_left _ (ih earlier)
    · exact List.mem_append_right _ last

theorem slides_map (f : β → α) (xs : List β) :
    slides older (xs.map f) = (slides (fun y x => older (f y) (f x)) xs).map f := by
  induction xs using List.reverseRecOn with
  | nil => rfl
  | append_singleton xs x ih =>
    have joined (window : List β) : window.map f ++ [f x] = (window ++ [x]).map f := by
      rw [List.map_append, List.map_singleton]
    rw [List.map_append, List.map_singleton, slides_snoc, ih, slides_snoc, slide, slide, joined,
      List.dropWhile_map]
    rfl

/-- A window that keeps its items when `x` comes. -/
theorem filter_slide {window : List α} {x : α}
    (kept : ∀ y ∈ window ++ [x], inside y = true → older y x = false) :
    (slide older window x).filter inside = (window ++ [x]).filter inside := by
  unfold slide
  generalize window ++ [x] = items at kept
  induction items with
  | nil => rfl
  | cons y rest ih =>
    obtain ⟨first, others⟩ := List.forall_mem_cons.mp kept
    rw [List.dropWhile_cons]
    split
    · rename_i old
      have outside : inside y = false := by
        by_contra holds
        rw [Bool.not_eq_false] at holds
        rw [first holds] at old
        cases old
      rw [ih others, List.filter_cons, outside]
      rfl
    · rfl

theorem filter_slides_before {z : α} (orderly : Orderly older inside (xs ++ [z]))
    (last : inside z = true) : (slides older xs).filter inside = xs.filter inside := by
  induction xs using List.reverseRecOn with
  | nil => rfl
  | append_singleton xs x ih =>
    have shorter : (xs ++ [z]).Sublist (xs ++ [x] ++ [z]) :=
      (List.sublist_append_left xs [x]).append (List.Sublist.refl [z])
    rw [slides_snoc, filter_slide]
    · rw [List.filter_append, List.filter_append, ih (orderly.sublist shorter)]
    · intro y member holds
      rcases List.mem_append.mp member with earlier | new
      · have between : [y, x, z].Sublist (xs ++ [x] ++ [z]) := by
          rw [List.append_assoc]
          exact (List.singleton_sublist.mpr (slides_subset _ earlier)).append (List.Sublist.refl _)
        exact orderly _ between y rfl z rfl holds last x (by simp)
      · obtain rfl := List.mem_singleton.mp new
        have ends : [y, z].Sublist (xs ++ [y] ++ [z]) := by
          rw [List.append_assoc]
          exact List.sublist_append_right _ _
        exact orderly _ ends y rfl z rfl holds last y (by simp)

theorem filter_slides_last {z : α} (orderly : Orderly older inside (xs ++ [z]))
    (last : inside z = true) :
    (slides older (xs ++ [z])).filter inside = (xs ++ [z]).filter inside := by
  rw [slides_snoc, filter_slide]
  · rw [List.filter_append, List.filter_append, filter_slides_before orderly last]
  · intro y member holds
    rcases List.mem_append.mp member with earlier | new
    · have ends : [y, z].Sublist (xs ++ [z]) :=
        (List.singleton_sublist.mpr (slides_subset _ earlier)).append (List.Sublist.refl _)
      exact orderly _ ends y rfl z rfl holds last z (by simp)
    · obtain rfl := List.mem_singleton.mp new
      exact orderly [y] (List.sublist_append_right _ _) y rfl y rfl holds last y (by simp)

/-- Where the queue never grew past the limit, no orderly window has more items. -/
theorem window_le {limit : Nat} (orderly : Orderly older inside xs)
    (bounded : ∀ before x after, xs = before ++ x :: after →
      (slides older (before ++ [x])).length ≤ limit) : (xs.filter inside).length ≤ limit := by
  induction xs using List.reverseRecOn with
  | nil => exact Nat.zero_le _
  | append_singleton xs z ih =>
    by_cases last : inside z = true
    · rw [← filter_slides_last orderly last]
      exact (List.length_filter_le _ _).trans (bounded xs z [] rfl)
    · have dropped : (xs ++ [z]).filter inside = xs.filter inside := by
        rw [List.filter_append, List.filter_cons_of_neg last, List.filter_nil, List.append_nil]
      rw [dropped]
      refine ih (orderly.sublist (List.sublist_append_left _ _)) fun before x after split => ?_
      exact bounded before x (after ++ [z]) (by rw [split, List.append_assoc, List.cons_append])

end Sippycup.Machine.SlidingWindow
