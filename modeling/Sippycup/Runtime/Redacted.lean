import Sippycup.Runtime.Redaction

/-! When redaction hides secrets: where no two occurrences of secrets overlap and no secret meets the
marker; and of secrets that do not meet the marker, always only where no two of them can overlap. -/
namespace Sippycup.Runtime.Redaction
open Sippycup.Python Sippycup.Ip Sippycup.Machine.Substitution

variable {secrets : List Codes} {text : Codes} {v w : Codes}

section placed

theorem starts_placed (start : Nat) : Starts Prod.fst w ((placed text).drop start) ↔ Starts id w (text.drop start) := by
  rw [Starts, Starts, List.map_drop, placed_codes, List.map_id]

theorem foreign_placed (unmarked : Unmarked w) : Foreign Prod.fst placedMarker w := by
  have keys : placedMarker.map Prod.fst = marker.map id := by rw [placedMarker_codes, List.map_id]
  constructor
  · rw [keys]
    exact unmarked.start
  · rw [keys]
    exact unmarked.end_
  · rw [keys]
    exact unmarked.outside
  · rw [keys]
    exact unmarked.inside

theorem apart_placed (apart : Apart id secrets text) : Apart Prod.fst secrets (placed text) := by
  intro p q before v left w right here there
  exact apart p q before v left w right ((starts_placed p).mp here) ((starts_placed q).mp there)

theorem covered_placed {place : Nat} : Covered Prod.fst secrets (placed text) place ↔ Covered id secrets text place := by
  simp only [Covered, starts_placed]

theorem placed_getElem {index : Nat} {item : Nat × Option Nat} (there : (placed text)[index]? = some item) :
    item.2 = some index := by
  rw [placed, List.getElem?_map, List.getElem?_zipIdx, Option.map_map, Option.map_eq_some_iff] at there
  obtain ⟨code, -, rfl⟩ := there
  exact congrArg some (Nat.zero_add index)

end placed

/-- Secrets whose occurrences lie apart and that do not meet the marker are hidden. -/
theorem hides_of_apart (proper : ∀ w ∈ secrets, w ≠ []) (unmarked : ∀ w ∈ secrets, Unmarked w)
    (apart : Apart id secrets text) : Hides secrets text := by
  have aligned := aligned_of_apart proper apart
  have swept : replaceAll secrets text = sweep id secrets marker 0 text := by
    rw [replaceAll_eq, foldl_sweep proper unmarked aligned]
  constructor
  · intro code place kept covered
    have there := aligned_of_apart proper (apart_placed apart)
    rw [traced, foldl_sweep proper (fun w member => foreign_placed (unmarked w member)) there] at kept
    rcases kept_uncovered proper there kept with substitute | ⟨index, here, bare⟩
    · obtain ⟨_, -, same⟩ := List.mem_map.mp substitute
      cases same
    · obtain rfl := Option.some.inj (placed_getElem here)
      exact bare (covered_placed.2 covered)
  · intro other perm
    have members : ∀ w, w ∈ other ↔ w ∈ secrets := fun w => perm.mem_iff
    have properOther : ∀ w ∈ other, w ≠ [] := fun w member => proper w ((members w).mp member)
    have unmarkedOther : ∀ w ∈ other, Unmarked w := fun w member => unmarked w ((members w).mp member)
    have apartOther : Apart id other text := fun p q before v left w right =>
      apart p q before v ((members v).mp left) w ((members w).mp right)
    rw [swept, replaceAll_eq, foldl_sweep properOther unmarkedOther (aligned_of_apart properOther apartOther)]
    exact sweep_order proper members aligned
  · intro other same
    have there := aligned_of_apart proper (same.apart apart)
    rw [swept, replaceAll_eq, foldl_sweep proper unmarked there]
    exact sweep_blind proper aligned same

section necessary

theorem foldl_wall {xs ys : Codes} (proper : ∀ w ∈ secrets, w ≠ []) (unmarked : ∀ w ∈ secrets, Unmarked w) :
    replaceAll secrets (xs ++ (marker ++ ys)) = replaceAll secrets xs ++ (marker ++ replaceAll secrets ys) := by
  simp only [replaceAll_eq]
  induction secrets generalizing xs ys with
  | nil => rfl
  | cons w rest ih =>
    obtain ⟨nonempty, proper⟩ := List.forall_mem_cons.mp proper
    obtain ⟨foreign, unmarked⟩ := List.forall_mem_cons.mp unmarked
    simp only [List.foldl_cons, sweep_wall foreign nonempty, ih proper unmarked]

theorem replaceAll_ne_nil (some_ : text ≠ []) : replaceAll secrets text ≠ [] := by
  rw [replaceAll_eq]
  induction secrets generalizing text with
  | nil => exact some_
  | cons w rest ih => exact ih (sweep_ne_nil some_ (by decide))

theorem replaceAll_nil : replaceAll secrets [] = [] := by
  induction secrets with
  | nil => rfl
  | cons w rest ih => exact ih

theorem sweep_found (inside : v <:+: text) (proper : v ≠ []) :
    ∃ xs ys, sweep id [v] marker 0 text = xs ++ (marker ++ ys) := by
  induction text with
  | nil => exact absurd (List.infix_nil.mp inside) proper
  | cons code rest ih =>
    by_cases here : Starts id v (code :: rest)
    · obtain ⟨block, after, split, same⟩ := here.block
      rw [List.map_id] at same
      subst same
      rw [split, sweep_word (by rw [List.map_id]; exact List.mem_singleton_self _) proper fun u member _ => by
        rw [List.mem_singleton.mp member]]
      exact ⟨[], _, rfl⟩
    · have later : v <:+: rest := by
        rcases List.infix_cons_iff.mp inside with start | later
        · exact absurd (by rwa [Starts, List.map_id]) here
        · exact later
      obtain ⟨xs, ys, same⟩ := ih later
      rw [sweep_plain fun u member => List.mem_singleton.mp member ▸ here, same]
      exact ⟨code :: xs, ys, rfl⟩

/-- A secret inside another one is replaced with something left, or is not, as the order has it. -/
theorem sweep_found_more (inside : v <:+: w) (proper : v ≠ []) (differs : v ≠ w) :
    ∃ xs ys, sweep id [v] marker 0 w = xs ++ (marker ++ ys) ∧ (xs ≠ [] ∨ ys ≠ []) := by
  cases w with
  | nil => exact absurd (List.infix_nil.mp inside) proper
  | cons code rest =>
    by_cases here : Starts id v (code :: rest)
    · obtain ⟨block, after, split, same⟩ := here.block
      rw [List.map_id] at same
      subst same
      have more : after ≠ [] := by
        rintro rfl
        rw [List.append_nil] at split
        exact differs split.symm
      rw [split, sweep_word (by rw [List.map_id]; exact List.mem_singleton_self _) proper fun u member _ => by
        rw [List.mem_singleton.mp member]]
      exact ⟨[], _, rfl, .inr (sweep_ne_nil more (by decide))⟩
    · have later : v <:+: rest := by
        rcases List.infix_cons_iff.mp inside with start | later
        · exact absurd (by rwa [Starts, List.map_id]) here
        · exact later
      obtain ⟨xs, ys, same⟩ := sweep_found later proper
      rw [sweep_plain fun u member => List.mem_singleton.mp member ▸ here, same]
      exact ⟨code :: xs, ys, rfl, .inl (List.cons_ne_nil _ _)⟩

/-- No secret of a list that is hidden in every order is part of another. -/
theorem not_nested (proper : ∀ w ∈ secrets, w ≠ []) (unmarked : ∀ w ∈ secrets, Unmarked w)
    (always : ∀ other : List Codes, other.Perm secrets → ∀ text, Hides other text) (left : v ∈ secrets)
    (right : w ∈ secrets) (differs : v ≠ w) : ¬ v <:+: w := by
  intro inside
  have outer := List.perm_cons_erase right
  have inner := List.perm_cons_erase left
  have same := (always _ outer.symm w).order _ (inner.symm.trans outer)
  have properRest : ∀ u ∈ secrets, ∀ t ∈ secrets.erase u, t ≠ [] := fun u _ t member => proper t (List.mem_of_mem_erase member)
  have unmarkedRest : ∀ u ∈ secrets, ∀ t ∈ secrets.erase u, Unmarked t := fun u _ t member =>
    unmarked t (List.mem_of_mem_erase member)
  have whole : replaceAll (w :: secrets.erase w) w = marker := by
    have first : replace w 0 w = [] ++ (marker ++ []) := by
      have block : sweep id [w] marker 0 (w ++ []) = marker ++ sweep id [w] marker 0 [] :=
        sweep_word (by rw [List.map_id]; exact List.mem_singleton_self w) (proper w right) fun u member _ => by
          rw [List.mem_singleton.mp member]
      rw [replace_eq_sweep]
      rwa [List.append_nil] at block
    rw [replaceAll, List.foldl_cons, first]
    have rest : replaceAll (secrets.erase w) ([] ++ (marker ++ [])) =
        replaceAll (secrets.erase w) [] ++ (marker ++ replaceAll (secrets.erase w) []) :=
      foldl_wall (properRest w right) (unmarkedRest w right)
    rw [replaceAll_nil] at rest
    exact rest
  have parts : ∃ xs ys, replaceAll (v :: secrets.erase v) w = xs ++ (marker ++ ys) ∧ (xs ≠ [] ∨ ys ≠ []) := by
    obtain ⟨xs, ys, first, more⟩ := sweep_found_more inside (proper v left) differs
    refine ⟨replaceAll (secrets.erase v) xs, replaceAll (secrets.erase v) ys, ?_, ?_⟩
    · rw [replaceAll, List.foldl_cons, replace_eq_sweep, first]
      exact foldl_wall (properRest v left) (unmarkedRest v left)
    · exact more.imp replaceAll_ne_nil replaceAll_ne_nil
  obtain ⟨xs, ys, split, more⟩ := parts
  have lengths := congrArg List.length (split.symm.trans (same.trans whole))
  rw [List.length_append, List.length_append] at lengths
  rcases more with front | back
  · have := List.length_pos_of_ne_nil front
    omega
  · have := List.length_pos_of_ne_nil back
    omega

/-- What the rest of a secret that was cut leaves when no secret is part of it. -/
theorem traced_cut {rest : List Codes} {c : Codes} (proper : v ≠ []) (unmarked : ∀ u ∈ v :: rest, Unmarked u)
    (absent : ∀ u ∈ v :: rest, ¬ u <:+: c) (some_ : c ≠ []) :
    ∃ code, (code, some v.length) ∈ traced (v :: rest) (v ++ c) := by
  have division : placed (v ++ c) = placed v ++ (c.zipIdx v.length).map fun code => (code.1, some code.2) := by
    rw [placed, List.zipIdx_append, List.map_append, Nat.zero_add, placed]
  have codes : ((c.zipIdx v.length).map fun code => (code.1, some code.2)).map Prod.fst = c := by
    rw [List.map_map]
    exact List.zipIdx_map_fst _ c
  have keep : ∀ us : List Codes, (∀ u ∈ us, Unmarked u) → (∀ u ∈ us, ¬ u <:+: c) →
      us.foldl (fun items secret => sweep Prod.fst [secret] placedMarker 0 items)
        (placedMarker ++ (c.zipIdx v.length).map fun code => (code.1, some code.2)) =
      placedMarker ++ (c.zipIdx v.length).map fun code => (code.1, some code.2) := by
    intro us
    induction us with
    | nil => exact fun _ _ => rfl
    | cons u us ih =>
      intro unmarked absent
      obtain ⟨foreign, unmarked⟩ := List.forall_mem_cons.mp unmarked
      obtain ⟨missing, absent⟩ := List.forall_mem_cons.mp absent
      rw [List.foldl_cons, sweep_wall_left (foreign_placed foreign), sweep_absent (by rwa [codes]), ih unmarked absent]
  have first : sweep Prod.fst [v] placedMarker 0 (placed (v ++ c)) =
      placedMarker ++ (c.zipIdx v.length).map fun code => (code.1, some code.2) := by
    have keys : (placed v).map Prod.fst = v := placed_codes v
    have block : placed v ≠ [] := fun none => proper (by rw [← keys, none]; rfl)
    have missing : ¬ v <:+: ((c.zipIdx v.length).map fun code => (code.1, some code.2)).map Prod.fst := by
      rw [codes]
      exact absent v (List.mem_cons_self ..)
    rw [division, sweep_word (by rw [keys]; exact List.mem_singleton_self v) block fun u member _ => by
      rw [List.mem_singleton.mp member, placed, List.length_map, List.length_zipIdx], sweep_absent missing]
  obtain ⟨code, tail, rfl⟩ := List.exists_cons_of_ne_nil some_
  refine ⟨code, ?_⟩
  rw [traced, List.foldl_cons, first, keep rest (fun u member => unmarked u (List.mem_cons_of_mem v member))
    (fun u member => absent u (List.mem_cons_of_mem v member))]
  exact List.mem_append_right _ (List.mem_cons_self ..)

/-- Secrets that are hidden in every order and every text cannot overlap. -/
theorem apart_of_hides (proper : ∀ w ∈ secrets, w ≠ []) (unmarked : ∀ w ∈ secrets, Unmarked w)
    (always : ∀ other : List Codes, other.Perm secrets → ∀ text, Hides other text) (text : Codes) :
    Apart id secrets text := by
  intro p q before v left w right here there
  by_contra overlap
  obtain ⟨differs, late⟩ := not_or.mp overlap
  have nested := fun {a b : Codes} (inA : a ∈ secrets) (inB : b ∈ secrets) (other : a ≠ b) =>
    not_nested proper unmarked always inA inB other
  have ahead : Starts id w ((text.drop p).drop (q - p)) := by
    rwa [List.drop_drop, Nat.add_sub_cancel' before]
  rw [Starts, List.map_id] at here ahead
  have tail : v.drop (q - p) <+: (text.drop p).drop (q - p) := here.drop (q - p)
  rcases List.prefix_or_prefix_of_prefix ahead tail with short | ⟨c, same⟩
  · have inside : w <:+: v := short.isInfix.trans (List.drop_suffix _ v).isInfix
    by_cases equal : w = v
    · have size := short.length_le
      rw [equal, List.length_drop] at size
      have positive := List.length_pos_of_ne_nil (proper v left)
      exact differs ⟨by omega, equal.symm⟩
    · exact nested right left equal inside
  · rcases eq_or_ne c [] with rfl | some_
    · rw [List.append_nil] at same
      have inside : w <:+: v := same ▸ (List.drop_suffix _ v).isInfix
      by_cases equal : w = v
      · have size := congrArg List.length same
        rw [equal, List.length_drop] at size
        have positive := List.length_pos_of_ne_nil (proper v left)
        exact differs ⟨by omega, equal.symm⟩
      · exact nested right left equal inside
    have shorter : c.length < w.length := by
      rw [← same, List.length_append, List.length_drop]
      omega
    have absent : ∀ u ∈ v :: secrets.erase v, ¬ u <:+: c := by
      intro u member inside
      have listed : u ∈ secrets := (List.perm_cons_erase left).symm.mem_iff.mp member
      have other : u ≠ w := by
        rintro rfl
        exact absurd inside.length_le (Nat.not_le.mpr shorter)
      exact nested listed right other (inside.trans (same ▸ (List.suffix_append _ c).isInfix))
    have perm := (List.perm_cons_erase left).symm
    obtain ⟨code, kept⟩ := traced_cut (proper v left) (fun u member => unmarked u (perm.mem_iff.mp member)) absent some_
    apply (always _ perm (v ++ c)).replaced code _ kept
    refine ⟨q - p, w, perm.mem_iff.mpr right, ?_, by omega, ?_⟩
    · rw [Starts, List.map_id, List.drop_append_of_le_length (by omega), same]
    · have size := congrArg List.length same
      have positive := List.length_pos_of_ne_nil some_
      rw [List.length_append, List.length_drop] at size
      omega

end necessary

/-- No secret is part of another, and none ends as another or itself begins. -/
structure Separate (secrets : List Codes) : Prop where
  parts : ∀ v ∈ secrets, ∀ w ∈ secrets, v <:+: w → v = w
  ends : ∀ v ∈ secrets, ∀ w ∈ secrets, ∀ a b c : Codes, v = a ++ b → w = b ++ c → b ≠ [] → a = []

theorem separate_iff (proper : ∀ w ∈ secrets, w ≠ []) : Separate secrets ↔ ∀ text, Apart id secrets text := by
  constructor
  · intro separate text p q before v left w right here there
    by_cases late : p + v.length ≤ q
    · exact .inr late
    have ahead : Starts id w ((text.drop p).drop (q - p)) := by
      rwa [List.drop_drop, Nat.add_sub_cancel' before]
    rw [Starts, List.map_id] at here ahead
    have division : v = v.take (q - p) ++ v.drop (q - p) := (List.take_append_drop _ v).symm
    have tail : v.drop (q - p) <+: (text.drop p).drop (q - p) := here.drop (q - p)
    rcases List.prefix_or_prefix_of_prefix ahead tail with short | ⟨c, same⟩
    · have equal := separate.parts w right v left (short.isInfix.trans (List.drop_suffix _ v).isInfix)
      have size := short.length_le
      have positive := List.length_pos_of_ne_nil (proper v left)
      rw [equal, List.length_drop] at size
      exact .inl ⟨by omega, equal.symm⟩
    · have some_ : v.drop (q - p) ≠ [] := by
        rw [ne_eq, List.drop_eq_nil_iff]
        omega
      have none := separate.ends v left w right _ _ c division same.symm some_
      have whole : v = v.drop (q - p) := by rwa [none, List.nil_append] at division
      have start : q - p = 0 := by
        have size := congrArg List.length none
        rw [List.length_take, List.length_nil] at size
        omega
      have inside : v <:+: w := by
        rw [whole, ← same]
        exact (List.prefix_append _ c).isInfix
      exact .inl ⟨by omega, separate.parts v left w right inside⟩
  · intro apart
    constructor
    · rintro v left w right ⟨a, b, same⟩
      have there : Starts id v (w.drop a.length) := by
        rw [Starts, List.map_id, ← same, List.append_assoc, List.drop_left]
        exact List.prefix_append v b
      have here : Starts id w (w.drop 0) := by
        rw [Starts, List.map_id, List.drop_zero]
      rcases apart w 0 a.length (Nat.zero_le _) w right v left here there with ⟨-, equal⟩ | late
      · exact equal.symm
      · have size := congrArg List.length same
        have positive := List.length_pos_of_ne_nil (proper v left)
        rw [List.length_append, List.length_append] at size
        omega
    · rintro v left w right a b c rfl rfl some_
      have there : Starts id (b ++ c) ((a ++ (b ++ c)).drop a.length) := by
        rw [Starts, List.map_id, List.drop_left]
      have here : Starts id (a ++ b) ((a ++ (b ++ c)).drop 0) := by
        rw [Starts, List.map_id, List.drop_zero, ← List.append_assoc]
        exact List.prefix_append _ c
      rcases apart _ 0 a.length (Nat.zero_le _) _ left _ right here there with ⟨none, -⟩ | late
      · exact List.length_eq_zero_iff.mp none.symm
      · have positive := List.length_pos_of_ne_nil some_
        rw [List.length_append] at late
        omega

theorem unmarked_of_disjoint (proper : w ≠ []) (disjoint : ∀ code ∈ w, code ∉ marker) : Unmarked w := by
  have keys : marker.map id = marker := List.map_id _
  constructor
  · intro a b split some_ start
    obtain ⟨code, rest, rfl⟩ := List.exists_cons_of_ne_nil some_
    rw [keys] at split
    exact disjoint code (start.subset (List.mem_cons_self ..)) (split ▸ List.mem_append_right a (List.mem_cons_self ..))
  · intro a b split some_ tail
    obtain ⟨code, rest, rfl⟩ := List.exists_cons_of_ne_nil some_
    rw [keys] at split
    exact disjoint code (tail.subset (List.mem_cons_self ..)) (split ▸ List.mem_append_left b (List.mem_cons_self ..))
  · intro inside
    rw [keys] at inside
    exact disjoint 60 (inside.subset (by decide)) (by decide)
  · intro inside
    obtain ⟨code, rest, rfl⟩ := List.exists_cons_of_ne_nil proper
    rw [keys] at inside
    exact disjoint code (List.mem_cons_self ..) (inside.subset (List.mem_cons_self ..))

def numericSecret : Codes := [57, 56]

def shortSecret : Codes := [97, 98, 99]

def longSecret : Codes := [97, 98, 99, 100]

end Sippycup.Runtime.Redaction
