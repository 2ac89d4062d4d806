import Mathlib.Algebra.Order.Group.Nat
import Mathlib.Data.Fintype.Card

/-! Probing for a free key: candidates are tried one after the other until the key of one is not in
use. Where the first candidates have distinct keys, one more of them than there are keys in use is
enough. -/
namespace Sippycup.Machine.Probing

variable {α κ : Type} [DecidableEq κ] {next : α → α} {keyOf : α → κ} {used : List κ} {a b : α}

/-- The first candidate from one on whose key is not in use, or nothing when the fuel is out. -/
@[grind =] def probe (next : α → α) (keyOf : α → κ) (used : List κ) : Nat → α → Option α
  | 0, _ => none
  | fuel + 1, a => if keyOf a ∈ used then probe next keyOf used fuel (next a) else some a

/-- The keys of a candidate and of the `count` that follow it are distinct. -/
def Spread (next : α → α) (keyOf : α → κ) (count : Nat) (a : α) : Prop :=
  Set.InjOn (fun k => keyOf (next^[k] a)) {k | k ≤ count}

theorem probe_free {fuel : Nat} (found : probe next keyOf used fuel a = some b) : keyOf b ∉ used := by
  induction fuel generalizing a with
  | zero => cases found
  | succ fuel ih =>
    rw [probe] at found
    split at found
    · exact ih found
    · rename_i free
      cases found
      exact free

/-- What every candidate satisfies, the one that is found satisfies. -/
theorem probe_invariant {P : α → Prop} {fuel : Nat} (found : probe next keyOf used fuel a = some b) (first : P a)
    (step : ∀ c, P c → P (next c)) : P b := by
  induction fuel generalizing a with
  | zero => cases found
  | succ fuel ih =>
    rw [probe] at found
    split at found
    · exact ih found (step a first)
    · cases found
      exact first

theorem probe_more {fuel more : Nat} (found : probe next keyOf used fuel a = some b) (enough : fuel ≤ more) :
    probe next keyOf used more a = some b := by
  induction fuel generalizing a more with
  | zero => cases found
  | succ fuel ih =>
    obtain ⟨more, rfl⟩ : ∃ n, more = n + 1 := ⟨more - 1, by omega⟩
    rw [probe] at found ⊢
    split at found
    · rename_i taken
      rw [if_pos taken]
      exact ih found (Nat.le_of_succ_le_succ enough)
    · rename_i free
      rw [if_neg free]
      exact found

/-- A probe runs out of fuel only when every candidate it tried is in use. -/
theorem taken_of_probe_none {fuel : Nat} (lost : probe next keyOf used fuel a = none) :
    ∀ k < fuel, keyOf (next^[k] a) ∈ used := by
  induction fuel generalizing a with
  | zero =>
    intro k small
    exact absurd small (Nat.not_lt_zero k)
  | succ fuel ih =>
    rw [probe] at lost
    split at lost
    · rename_i taken
      intro k small
      cases k with
      | zero => exact taken
      | succ k => exact ih lost k (Nat.lt_of_succ_lt_succ small)
    · cases lost

/-- One candidate more than there are keys in use is free. -/
theorem probe_finds (spread : Spread next keyOf used.length a) :
    ∃ b, probe next keyOf used (used.length + 1) a = some b := by
  rcases lost : probe next keyOf used (used.length + 1) a with _ | b
  · have taken := taken_of_probe_none lost
    have mapped : (List.range (used.length + 1)).map (fun k => keyOf (next^[k] a)) ⊆ used := by
      intro key member
      obtain ⟨k, small, rfl⟩ := List.mem_map.mp member
      exact taken k (List.mem_range.mp small)
    have distinct : ((List.range (used.length + 1)).map fun k => keyOf (next^[k] a)).Nodup := by
      apply List.Nodup.map_on _ List.nodup_range
      intro i left j right same
      exact spread (Nat.lt_succ_iff.mp (List.mem_range.mp left)) (Nat.lt_succ_iff.mp (List.mem_range.mp right)) same
    have count := (List.subperm_of_subset distinct mapped).length_le
    rw [List.length_map, List.length_range] at count
    exact absurd count (Nat.not_succ_le_self used.length)
  · exact ⟨b, rfl⟩

end Sippycup.Machine.Probing
