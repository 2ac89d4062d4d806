import Mathlib.Data.List.Nodup
import Mathlib.Order.Lattice

/-! Counting along a list: the items that stand in some relation to those before them, the places at
which a key stands, and the items that come after a greater one. -/
namespace Sippycup.Machine.Matching

variable {α κ : Type}

/-- How many items stand in the relation to the items before them. -/
def tally (relation : List α → α → Prop) [∀ before x, Decidable (relation before x)] (xs : List α) : Nat :=
  xs.zipIdx.countP fun e => decide (relation (xs.take e.2) e.1)

theorem tally_concat {relation : List α → α → Prop} [∀ before x, Decidable (relation before x)] (xs : List α)
    (x : α) : tally relation (xs ++ [x]) = tally relation xs + if relation xs x then 1 else 0 := by
  have earlier : xs.zipIdx.countP (fun e => decide (relation ((xs ++ [x]).take e.2) e.1)) = tally relation xs := by
    apply List.countP_congr
    intro e member
    rw [List.take_append_of_le_length (Nat.le_of_lt (List.snd_lt_of_mem_zipIdx member))]
  rw [tally, List.zipIdx_append, List.countP_append, earlier]
  simp only [Nat.zero_add, List.zipIdx_singleton, List.countP_singleton, List.take_left', decide_eq_true_eq]

section places
variable [DecidableEq κ]

/-- The items with a key, with their places. -/
def places (keyOf : α → κ) (xs : List α) (key : κ) : List (α × Nat) :=
  xs.zipIdx.filter fun e => keyOf e.1 = key

variable {keyOf : α → κ} {xs : List α} {key key' : κ}

theorem places_concat (x : α) :
    places keyOf (xs ++ [x]) key = places keyOf xs key ++ if keyOf x = key then [(x, xs.length)] else [] := by
  rw [places, List.zipIdx_append, List.filter_append, places]
  simp only [Nat.zero_add, List.zipIdx_singleton, List.filter_cons, List.filter_nil, decide_eq_true_eq]

theorem mem_places {e : α × Nat} : e ∈ places keyOf xs key ↔ xs[e.2]? = some e.1 ∧ keyOf e.1 = key := by
  rw [places, List.mem_filter, List.mem_zipIdx_iff_getElem?, decide_eq_true_eq]

theorem places_nodup : ((places keyOf xs key).map Prod.snd).Nodup := by
  apply List.Nodup.sublist (List.filter_sublist.map Prod.snd)
  rw [List.zipIdx_map_snd]
  exact List.nodup_range'

theorem map_places : (places keyOf xs key).map Prod.fst = xs.filter fun x => keyOf x = key := by
  rw [places, ← Function.comp_def (fun x => decide (keyOf x = key)) Prod.fst, ← List.filter_map, List.zipIdx_map_fst]

/-- Where keys are distinct, one stands at one place at most. -/
theorem places_distinct (distinct : (xs.map keyOf).Nodup) {i : Nat} {x : α} (at_ : xs[i]? = some x) :
    places keyOf xs (keyOf x) = [(x, i)] := by
  have here : (x, i) ∈ places keyOf xs (keyOf x) := mem_places.2 ⟨at_, rfl⟩
  have only : ∀ e ∈ places keyOf xs (keyOf x), e = (x, i) := by
    intro e member
    obtain ⟨there, same⟩ := mem_places.1 member
    have named : (xs.map keyOf)[e.2]? = (xs.map keyOf)[i]? := by
      rw [List.getElem?_map, List.getElem?_map, there, at_, Option.map_some, Option.map_some, same]
    have inside : e.2 < (xs.map keyOf).length := by
      rw [List.length_map]
      exact (List.getElem?_eq_some_iff.mp there).1
    have place := (List.getElem?_inj inside distinct).mp named
    rw [place, at_] at there
    exact Prod.ext (Option.some.inj there).symm place
  refine List.Perm.eq_singleton ((List.perm_ext_iff_of_nodup ?_ (List.nodup_singleton _)).mpr fun e => ?_)
  · exact places_nodup.of_map
  · rw [List.mem_singleton]
    constructor
    · exact only e
    · rintro rfl
      exact here

end places

end Sippycup.Machine.Matching
