import Mathlib.Data.List.Infix
import Mathlib.Data.List.Dedup

/-! Lists chained by digests: each item names the digest of the one before it.
No hash is injective, so what a chain is worth is said of the inputs hashed. -/
namespace Sippycup.Machine

/-- No two of the inputs collide. -/
def CollisionFree {α δ : Type} (hash : α → δ) (inputs : List α) : Prop :=
  ∀ a ∈ inputs, ∀ b ∈ inputs, hash a = hash b → a = b

theorem collisionFree_of_nodup {α δ : Type} [DecidableEq α] {hash : α → δ} {inputs : List α}
    (distinct : (inputs.dedup.map hash).Nodup) : CollisionFree hash inputs := by
  intro a first b second same
  exact List.inj_on_of_nodup_map distinct (List.mem_dedup.mpr first) (List.mem_dedup.mpr second) same

namespace HashChain
variable {α δ : Type} (digest : α → δ) (previous : α → Option δ)

/-- A chain and the digest it ends with. -/
inductive Linked : List α → Option δ → Prop where
  | nil : Linked [] none
  | snoc {items : List α} {item : α} (chain : Linked items (previous item)) :
    Linked (items ++ [item]) (some (digest item))

variable {digest previous} {xs ys : List α}

theorem linked_cases {last : Option δ} (chain : Linked digest previous xs last) :
    (xs = [] ∧ last = none) ∨ ∃ items item, xs = items ++ [item] ∧ last = some (digest item) ∧
      Linked digest previous items (previous item) := by
  cases chain with
  | nil => exact .inl ⟨rfl, rfl⟩
  | snoc chain => exact .inr ⟨_, _, rfl, rfl, chain⟩

theorem Linked.init {last : Option δ} {item : α} (chain : Linked digest previous (xs ++ [item]) last) :
    Linked digest previous xs (previous item) := by
  rcases linked_cases chain with ⟨empty, -⟩ | ⟨items, other, same, -, chain⟩
  · simp at empty
  · obtain ⟨rfl, rfl⟩ := List.append_inj' same rfl |>.imp_right List.singleton_inj.mp
    exact chain

/-- A chain up to one of its items ends with that item's digest. -/
theorem Linked.upTo {last : Option δ} {before after : List α} {item : α}
    (chain : Linked digest previous (before ++ item :: after) last) :
    Linked digest previous (before ++ [item]) (some (digest item)) := by
  induction after using List.reverseRecOn generalizing last with
  | nil =>
    exact .snoc chain.init
  | append_singleton after other ih =>
    rw [← List.cons_append, ← List.append_assoc] at chain
    exact ih chain.init

/-- Where digests determine the items, the last digest determines the chain. -/
theorem linked_unique {last : Option δ}
    (determined : ∀ x ∈ xs, ∀ y ∈ ys, digest x = digest y → x = y)
    (left : Linked digest previous xs last) (right : Linked digest previous ys last) : xs = ys := by
  induction left generalizing ys with
  | nil =>
    rcases linked_cases right with ⟨rfl, -⟩ | ⟨_, _, _, ends, _⟩
    · rfl
    · cases ends
  | @snoc items item chain ih =>
    rcases linked_cases right with ⟨_, ends⟩ | ⟨others, other, rfl, ends, before⟩
    · cases ends
    · have same : item = other :=
        determined item (by simp) other (by simp) (Option.some.inj ends)
      subst same
      have inits := ih (fun x member y other => determined x (by simp [member]) y (by simp [other])) before
      rw [inits]

/-- Chains that hold one digest agree up to it. -/
theorem shared_digest {last other : Option δ} {before after before' after' : List α} {x y : α}
    (determined : ∀ a ∈ before ++ x :: after, ∀ b ∈ before' ++ y :: after', digest a = digest b → a = b)
    (left : Linked digest previous (before ++ x :: after) last)
    (right : Linked digest previous (before' ++ y :: after') other) (same : digest x = digest y) :
    before ++ [x] = before' ++ [y] := by
  refine linked_unique (fun a first b second => ?_) left.upTo (same ▸ right.upTo)
  refine determined a ?_ b ?_
  · rw [List.append_cons]
    exact List.mem_append_left _ first
  · rw [List.append_cons]
    exact List.mem_append_left _ second

/-- A chain in place of another one drops a suffix, or from some item on has digests
that the other one lacks. -/
theorem prefix_or_rehashed {last other : Option δ}
    (determined : ∀ a ∈ xs, ∀ b ∈ ys, digest a = digest b → a = b)
    (left : Linked digest previous xs last) (right : Linked digest previous ys other) :
    ys <+: xs ∨ ∃ k < ys.length, ys.take k = xs.take k ∧
      ∀ y ∈ ys.drop k, ∀ x ∈ xs, digest x ≠ digest y := by
  induction ys using List.reverseRecOn generalizing other with
  | nil => exact .inl (List.nil_prefix)
  | append_singleton items y ih =>
    by_cases found : ∃ x ∈ xs, digest x = digest y
    · obtain ⟨x, member, same⟩ := found
      obtain ⟨before, after, rfl⟩ := List.append_of_mem member
      left
      have agree : before ++ [x] = items ++ [y] := shared_digest determined left right same
      rw [← agree, List.append_cons before x after]
      exact List.prefix_append _ _
    · right
      have fresh : ∀ x ∈ xs, digest x ≠ digest y := fun x member same => found ⟨x, member, same⟩
      rcases ih (fun a first b second => determined a first b (List.mem_append_left _ second))
        right.init with kept | ⟨k, inside, agree, rehashed⟩
      · refine ⟨items.length, by simp, ?_, ?_⟩
        · rw [List.take_left]
          exact List.prefix_iff_eq_take.mp kept
        · rw [List.drop_left]
          simpa using fresh
      · refine ⟨k, by rw [List.length_append]; omega, ?_, ?_⟩
        · rw [List.take_append_of_le_length inside.le, agree]
        · rw [List.drop_append_of_le_length inside.le]
          intro z member x other
          rcases List.mem_append.mp member with earlier | last
          · exact rehashed z earlier x other
          · rw [List.mem_singleton.mp last]
            exact fresh x other

end HashChain
end Sippycup.Machine
