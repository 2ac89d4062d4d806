import Mathlib.Data.List.Infix
import Mathlib.Data.List.Perm.Basic

/-! Substitution of one text for several words. Words are replaced one after the other, or all in one
sweep; where no two places of a word overlap and no word can meet the substitute, the two agree, and
nothing that a word covers is left. -/
namespace Sippycup.Machine.Substitution

variable {α κ : Type} {keyOf : α → κ} {new xs ys : List α} {w v : List κ} {ws : List (List κ)}

/-- A word stands at the start of the items. -/
def Starts (keyOf : α → κ) (w : List κ) (xs : List α) : Prop := w <+: xs.map keyOf

instance [DecidableEq κ] (w : List κ) (xs : List α) : Decidable (Starts keyOf w xs) := inferInstanceAs (Decidable (_ <+: _))

/-- One pass from the left; after a word, as many items are skipped as it has. -/
@[grind =] def sweep [DecidableEq κ] (keyOf : α → κ) (ws : List (List κ)) (new : List α) : Nat → List α → List α
  | _, [] => []
  | skip + 1, _ :: rest => sweep keyOf ws new skip rest
  | 0, x :: rest =>
    match ws.find? fun w => decide (Starts keyOf w (x :: rest)) with
    | some w => new ++ sweep keyOf ws new (w.length - 1) rest
    | none => x :: sweep keyOf ws new 0 rest

/-- Places of words coincide or lie apart. -/
def Apart (keyOf : α → κ) (ws : List (List κ)) (xs : List α) : Prop :=
  ∀ p q, p ≤ q → ∀ v ∈ ws, ∀ w ∈ ws, Starts keyOf v (xs.drop p) → Starts keyOf w (xs.drop q) →
    p = q ∧ v = w ∨ p + v.length ≤ q

/-- A word that neither holds the substitute, nor is held by it, nor shares an end with it. -/
structure Foreign (keyOf : α → κ) (new : List α) (w : List κ) : Prop where
  start : ∀ a b, new.map keyOf = a ++ b → b ≠ [] → ¬ b <+: w
  end_ : ∀ a b, new.map keyOf = a ++ b → a ≠ [] → ¬ a <:+ w
  outside : ¬ new.map keyOf <:+: w
  inside : ¬ w <:+: new.map keyOf

/-- Items of which some are plain and the others form words, where no other word starts. -/
inductive Aligned (keyOf : α → κ) (ws : List (List κ)) : List α → Prop
  | nil : Aligned keyOf ws []
  | plain {x : α} {rest : List α} (none : ∀ w ∈ ws, ¬ Starts keyOf w (x :: rest)) (later : Aligned keyOf ws rest) :
      Aligned keyOf ws (x :: rest)
  | word {block rest : List α} (member : block.map keyOf ∈ ws)
      (only : ∀ i < block.length, ∀ v ∈ ws, Starts keyOf v ((block ++ rest).drop i) → i = 0 ∧ v = block.map keyOf)
      (later : Aligned keyOf ws rest) : Aligned keyOf ws (block ++ rest)

/-- A place that a word covers. -/
def Covered (keyOf : α → κ) (ws : List (List κ)) (xs : List α) (place : Nat) : Prop :=
  ∃ start, ∃ w ∈ ws, Starts keyOf w (xs.drop start) ∧ start ≤ place ∧ place < start + w.length

/-- Two lists that differ only in what stands where words do. -/
structure SameOutside (keyOf : α → κ) (ws : List (List κ)) (xs ys : List α) : Prop where
  length : xs.length = ys.length
  places : ∀ start size, (∃ w ∈ ws, w.length = size ∧ Starts keyOf w (xs.drop start)) ↔
    ∃ w ∈ ws, w.length = size ∧ Starts keyOf w (ys.drop start)
  outside : ∀ place, ¬ Covered keyOf ws xs place → xs[place]? = ys[place]?

section prefixes

theorem Starts.block (starts : Starts keyOf w xs) : ∃ block rest, xs = block ++ rest ∧ block.map keyOf = w := by
  obtain ⟨tail, split⟩ := starts
  obtain ⟨block, rest, rfl, front, -⟩ := List.map_eq_append_iff.mp split.symm
  exact ⟨block, rest, rfl, front⟩

theorem starts_block {block : List α} (rest : List α) : Starts keyOf (block.map keyOf) (block ++ rest) := by
  rw [Starts, List.map_append]
  exact List.prefix_append _ _

theorem Apart.drop (apart : Apart keyOf ws xs) (n : Nat) : Apart keyOf ws (xs.drop n) := by
  intro p q before v left w right here there
  rw [List.drop_drop] at here there
  rcases apart _ _ (Nat.add_le_add_left before n) v left w right here there with ⟨same, word⟩ | later
  · exact .inl ⟨Nat.add_left_cancel same, word⟩
  · exact .inr (by omega)

/-- Words that lie apart divide the items. -/
theorem aligned_of_apart (nonempty : ∀ w ∈ ws, w ≠ []) (apart : Apart keyOf ws xs) : Aligned keyOf ws xs := by
  obtain ⟨size, bound⟩ : ∃ n, xs.length ≤ n := ⟨_, Nat.le_refl _⟩
  induction size generalizing xs with
  | zero =>
    rw [List.length_eq_zero_iff.mp (Nat.le_zero.mp bound)]
    exact .nil
  | succ size ih =>
    rcases xs with _ | ⟨x, rest⟩
    · exact .nil
    by_cases here : ∃ w ∈ ws, Starts keyOf w (x :: rest)
    · obtain ⟨w, member, starts⟩ := here
      obtain ⟨block, after, split, rfl⟩ := starts.block
      rw [split] at bound apart ⊢
      have positive : 0 < block.length := by
        rw [← List.length_map keyOf]
        exact List.length_pos_of_ne_nil (nonempty _ member)
      refine .word member (fun i inside v other there => ?_) (ih ?_ ?_)
      · have first : Starts keyOf (block.map keyOf) ((block ++ after).drop 0) := starts_block after
        rcases apart 0 i (Nat.zero_le i) _ member v other first there with ⟨same, word⟩ | later
        · exact ⟨same.symm, word.symm⟩
        · rw [List.length_map] at later
          omega
      · have rest := apart.drop block.length
        rwa [List.drop_left] at rest
      · rw [List.length_append] at bound
        omega
    · refine .plain (fun w member starts => here ⟨w, member, starts⟩) (ih (apart.drop 1) ?_)
      rw [List.length_cons] at bound
      exact Nat.le_of_succ_le_succ bound

/-- No word starts in a substitute. -/
theorem not_starts_substitute {front back : List α} (foreign : Foreign keyOf new v) (split : new = front ++ back)
    (some_ : back ≠ []) : ¬ Starts keyOf v (back ++ xs) := by
  intro starts
  have keys : new.map keyOf = front.map keyOf ++ back.map keyOf := by rw [split, List.map_append]
  rw [Starts, List.map_append] at starts
  rcases List.prefix_or_prefix_of_prefix starts (List.prefix_append _ _) with short | long
  · exact foreign.inside (short.isInfix.trans (keys ▸ (List.suffix_append _ _).isInfix))
  · exact foreign.start _ _ keys (fun none => some_ (List.map_eq_nil_iff.mp none)) long

theorem covered_cons {x : α} (none : ∀ w ∈ ws, ¬ Starts keyOf w (x :: xs)) {place : Nat} :
    Covered keyOf ws (x :: xs) (place + 1) ↔ Covered keyOf ws xs place := by
  constructor
  · rintro ⟨start, w, member, starts, before, inside⟩
    cases start with
    | zero => exact absurd starts (none w member)
    | succ start => exact ⟨start, w, member, starts, by omega, by omega⟩
  · rintro ⟨start, w, member, starts, before, inside⟩
    exact ⟨start + 1, w, member, starts, by omega, by omega⟩

theorem covered_append {block : List α} {place : Nat}
    (only : ∀ i < block.length, ∀ v ∈ ws, Starts keyOf v ((block ++ xs).drop i) → i = 0 ∧ v = block.map keyOf) :
    Covered keyOf ws (block ++ xs) (block.length + place) ↔ Covered keyOf ws xs place := by
  constructor
  · rintro ⟨start, w, member, starts, before, inside⟩
    by_cases early : start < block.length
    · obtain ⟨rfl, rfl⟩ := only start early w member starts
      rw [List.length_map] at inside
      omega
    · have later : (block ++ xs).drop start = xs.drop (start - block.length) := by
        rw [List.drop_append, List.drop_eq_nil_of_le (Nat.le_of_not_lt early), List.nil_append]
      rw [later] at starts
      exact ⟨start - block.length, w, member, starts, by omega, by omega⟩
  · rintro ⟨start, w, member, starts, before, inside⟩
    refine ⟨block.length + start, w, member, ?_, by omega, by omega⟩
    rwa [List.drop_length_add_append]

/-- A substitute that stands between items keeps a foreign word from running over it. -/
theorem starts_before_wall (foreign : Foreign keyOf new w) (starts : Starts keyOf w (xs ++ (new ++ ys))) :
    Starts keyOf w xs := by
  rw [Starts, List.map_append] at starts
  rcases List.prefix_or_prefix_of_prefix starts (List.prefix_append _ _) with short | ⟨u, rfl⟩
  · exact short
  · have rest := (List.prefix_append_right_inj _).mp starts
    rcases eq_or_ne u [] with rfl | some_
    · rw [Starts, List.append_nil]
    rw [List.map_append] at rest
    rcases List.prefix_or_prefix_of_prefix rest (List.prefix_append _ _) with ⟨b, whole⟩ | long
    · exact absurd (List.suffix_append _ u) (foreign.end_ u b whole.symm some_)
    · exact absurd (long.isInfix.trans (List.suffix_append _ u).isInfix) foreign.outside

theorem Starts.eq_of_length (left : Starts keyOf v xs) (right : Starts keyOf w xs) (same : v.length = w.length) :
    v = w := by
  rcases List.prefix_or_prefix_of_prefix left right with short | long
  · exact short.eq_of_length same
  · exact (long.eq_of_length same.symm).symm

theorem SameOutside.apart (same : SameOutside keyOf ws xs ys) (apart : Apart keyOf ws xs) : Apart keyOf ws ys := by
  intro p q before v left w right here there
  obtain ⟨a, memberA, sizeA, startsA⟩ := (same.places p v.length).mpr ⟨v, left, rfl, here⟩
  obtain ⟨b, memberB, sizeB, startsB⟩ := (same.places q w.length).mpr ⟨w, right, rfl, there⟩
  rcases apart p q before a memberA b memberB startsA startsB with ⟨rfl, rfl⟩ | later
  · exact .inl ⟨rfl, here.eq_of_length there (sizeA.symm.trans sizeB)⟩
  · exact .inr (sizeA ▸ later)

end prefixes

section sweeping
variable [DecidableEq κ]

theorem sweep_skip (skip : Nat) : sweep keyOf ws new skip xs = sweep keyOf ws new 0 (xs.drop skip) := by
  induction skip generalizing xs with
  | zero => rw [List.drop_zero]
  | succ skip ih =>
    cases xs with
    | nil => rw [List.drop_nil, sweep, sweep]
    | cons x rest => rw [sweep, ih, List.drop_succ_cons]

theorem sweep_plain {x : α} (none : ∀ w ∈ ws, ¬ Starts keyOf w (x :: xs)) :
    sweep keyOf ws new 0 (x :: xs) = x :: sweep keyOf ws new 0 xs := by
  have absent : (ws.find? fun w => decide (Starts keyOf w (x :: xs))) = .none :=
    List.find?_eq_none.mpr fun w member => by rw [decide_eq_true_eq]; exact none w member
  rw [sweep, absent]

theorem sweep_word {block : List α} (member : block.map keyOf ∈ ws) (some_ : block ≠ [])
    (only : ∀ v ∈ ws, Starts keyOf v (block ++ xs) → v.length = block.length) :
    sweep keyOf ws new 0 (block ++ xs) = new ++ sweep keyOf ws new 0 xs := by
  obtain ⟨x, rest, rfl⟩ := List.exists_cons_of_ne_nil some_
  rcases found : ws.find? fun w => decide (Starts keyOf w (x :: (rest ++ xs))) with _ | v
  · have absent := List.find?_eq_none.mp found _ member
    have starts : Starts keyOf ((x :: rest).map keyOf) ((x :: rest) ++ xs) := starts_block xs
    exact absurd (decide_eq_true starts) absent
  · have starts : Starts keyOf v (x :: (rest ++ xs)) := by simpa using List.find?_some found
    have size := only v (List.mem_of_find?_eq_some found) starts
    rw [List.cons_append, sweep, found]
    dsimp only
    rw [sweep_skip, size, List.length_cons, Nat.add_sub_cancel, List.drop_left]

theorem sweep_through {block : List α} (none : ∀ i < block.length, ∀ v ∈ ws, ¬ Starts keyOf v ((block ++ xs).drop i)) :
    sweep keyOf ws new 0 (block ++ xs) = block ++ sweep keyOf ws new 0 xs := by
  induction block with
  | nil => rfl
  | cons x rest ih =>
    have later := ih fun i inside v member => none (i + 1) (Nat.succ_lt_succ inside) v member
    have here : ∀ v ∈ ws, ¬ Starts keyOf v (x :: (rest ++ xs)) := none 0 (Nat.succ_pos _)
    rw [List.cons_append, sweep_plain here, later]
    rfl

/-- What starts a word's rest after a sweep started it before: the substitute starts none. -/
theorem starts_of_sweep {u : List κ} (foreign : Foreign keyOf new v) (tail : u <:+ v)
    (starts : Starts keyOf u (sweep keyOf [w] new 0 xs)) (nonempty : w ≠ []) : Starts keyOf u xs := by
  induction xs generalizing u with
  | nil => exact starts
  | cons x rest ih =>
    by_cases here : Starts keyOf w (x :: rest)
    · rcases eq_or_ne u [] with rfl | some_
      · exact List.nil_prefix
      obtain ⟨block, after, split, same⟩ := here.block
      have proper : block ≠ [] := by
        rintro rfl
        exact nonempty same.symm
      rw [split, sweep_word (by rw [same]; exact List.mem_singleton_self w) proper (fun other member _ => by
        rw [List.mem_singleton.mp member, ← same, List.length_map]), Starts, List.map_append] at starts
      rcases List.prefix_or_prefix_of_prefix starts (List.prefix_append _ _) with short | long
      · obtain ⟨b, whole⟩ := short
        exact absurd tail (foreign.end_ u b whole.symm some_)
      · exact absurd (long.isInfix.trans tail.isInfix) foreign.outside
    · rw [sweep_plain (fun other member => by rw [List.mem_singleton.mp member]; exact here)] at starts
      rcases u with _ | ⟨c, u⟩
      · exact List.nil_prefix
      · rw [Starts, List.map_cons, List.cons_prefix_cons] at starts ⊢
        exact ⟨starts.1, ih ((List.suffix_cons c u).trans tail) starts.2⟩

theorem starts_of_sweep_append (front : List α) (foreign : Foreign keyOf new v) (nonempty : w ≠ [])
    (starts : Starts keyOf v (front ++ sweep keyOf [w] new 0 xs)) : Starts keyOf v (front ++ xs) := by
  rw [Starts, List.map_append] at starts ⊢
  rcases List.prefix_or_prefix_of_prefix starts (List.prefix_append _ _) with short | long
  · exact short.trans (List.prefix_append _ _)
  · obtain ⟨u, rfl⟩ := long
    have rest := starts_of_sweep foreign (List.suffix_append _ _) ((List.prefix_append_right_inj _).mp starts) nonempty
    exact (List.prefix_append_right_inj _).mpr rest

theorem aligned_substitute (front : List α) {back : List α} (foreign : ∀ v ∈ ws, Foreign keyOf new v)
    (split : new = front ++ back)
    (aligned : Aligned keyOf ws xs) :
    Aligned keyOf ws (back ++ xs) ∧ sweep keyOf ws new 0 (back ++ xs) = back ++ sweep keyOf ws new 0 xs := by
  induction back generalizing front with
  | nil => exact ⟨aligned, rfl⟩
  | cons x back ih =>
    have none : ∀ v ∈ ws, ¬ Starts keyOf v (x :: (back ++ xs)) := fun v member =>
      not_starts_substitute (foreign v member) split (List.cons_ne_nil x back)
    obtain ⟨later, same⟩ := ih (front ++ [x]) (by rw [split, List.append_assoc]; rfl)
    refine ⟨.plain none later, ?_⟩
    rw [List.cons_append, sweep_plain none, same]
    rfl

/-- Replacing one word leaves the others where they are, and a sweep for them completes one for all. -/
theorem sweep_cons (foreign : ∀ v ∈ ws, Foreign keyOf new v) (nonempty : w ≠ []) (proper : ∀ v ∈ ws, v ≠ [])
    (aligned : Aligned keyOf (w :: ws) xs) :
    Aligned keyOf ws (sweep keyOf [w] new 0 xs) ∧
      sweep keyOf ws new 0 (sweep keyOf [w] new 0 xs) = sweep keyOf (w :: ws) new 0 xs := by
  induction aligned with
  | nil => exact ⟨.nil, rfl⟩
  | @plain x rest none later ih =>
    obtain ⟨after, same⟩ := ih
    have alone : ∀ v ∈ [w], ¬ Starts keyOf v (x :: rest) := fun v member =>
      none v (List.mem_singleton.mp member ▸ List.mem_cons_self ..)
    have others : ∀ v ∈ ws, ¬ Starts keyOf v (x :: sweep keyOf [w] new 0 rest) := fun v member starts =>
      none v (List.mem_cons_of_mem w member)
        (starts_of_sweep_append [x] (foreign v member) nonempty starts)
    rw [sweep_plain alone, sweep_plain others, sweep_plain none, same]
    exact ⟨.plain others after, rfl⟩
  | @word block rest member only later ih =>
    obtain ⟨after, same⟩ := ih
    have some_ : block ≠ [] := by
      rintro rfl
      rcases List.mem_cons.mp member with first | other
      · exact nonempty first.symm
      · exact proper _ other rfl
    have positive : 0 < block.length := List.length_pos_of_ne_nil some_
    have all : sweep keyOf (w :: ws) new 0 (block ++ rest) = new ++ sweep keyOf (w :: ws) new 0 rest :=
      sweep_word member some_ fun v there starts => by
        rw [(only 0 positive v there starts).2, List.length_map]
    by_cases first : block.map keyOf = w
    · have alone : sweep keyOf [w] new 0 (block ++ rest) = new ++ sweep keyOf [w] new 0 rest :=
        sweep_word (first ▸ List.mem_singleton_self _) some_ fun v there _ => by
          rw [List.mem_singleton.mp there, ← first, List.length_map]
      obtain ⟨still, swept⟩ := aligned_substitute [] foreign rfl after
      rw [alone, all, swept, same]
      exact ⟨still, rfl⟩
    · have here : block.map keyOf ∈ ws := (List.mem_cons.mp member).resolve_left first
      have through : sweep keyOf [w] new 0 (block ++ rest) = block ++ sweep keyOf [w] new 0 rest :=
        sweep_through fun i inside v there starts => by
          obtain rfl := List.mem_singleton.mp there
          exact first (only i inside v (List.mem_cons_self ..) starts).2.symm
      have still : ∀ i < block.length, ∀ v ∈ ws, Starts keyOf v ((block ++ sweep keyOf [w] new 0 rest).drop i) →
          i = 0 ∧ v = block.map keyOf := by
        intro i inside v there starts
        rw [List.drop_append_of_le_length (Nat.le_of_lt inside)] at starts
        have before := starts_of_sweep_append (block.drop i) (foreign v there) nonempty starts
        rw [← List.drop_append_of_le_length (Nat.le_of_lt inside)] at before
        exact only i inside v (List.mem_cons_of_mem w there) before
      rw [through, all, sweep_word here some_ fun v there starts => by
        rw [(still 0 positive v there starts).2, List.length_map], same]
      exact ⟨.word here still after, rfl⟩

/-- One replacement after the other is one sweep for all words. -/
theorem foldl_sweep (proper : ∀ w ∈ ws, w ≠ []) (foreign : ∀ w ∈ ws, Foreign keyOf new w)
    (aligned : Aligned keyOf ws xs) :
    ws.foldl (fun items w => sweep keyOf [w] new 0 items) xs = sweep keyOf ws new 0 xs := by
  induction ws generalizing xs with
  | nil =>
    have same : sweep keyOf [] new 0 (xs ++ []) = xs ++ sweep keyOf [] new 0 [] :=
      sweep_through fun _ _ v member => absurd member List.not_mem_nil
    rw [List.foldl_nil, ← List.append_nil xs, same, sweep]
  | cons w ws ih =>
    obtain ⟨nonempty, proper⟩ := List.forall_mem_cons.mp proper
    obtain ⟨-, foreign⟩ := List.forall_mem_cons.mp foreign
    obtain ⟨still, same⟩ := sweep_cons foreign nonempty proper aligned
    rw [List.foldl_cons, ih proper foreign still, same]

/-- A sweep depends on what its words are, not on their order. -/
theorem sweep_order {us : List (List κ)} (proper : ∀ w ∈ ws, w ≠ []) (same : ∀ w, w ∈ us ↔ w ∈ ws)
    (aligned : Aligned keyOf ws xs) : sweep keyOf us new 0 xs = sweep keyOf ws new 0 xs := by
  induction aligned with
  | nil => rfl
  | plain none _ ih =>
    rw [sweep_plain none, sweep_plain fun w member => none w ((same w).mp member), ih]
  | @word block rest member only _ ih =>
    have some_ : block ≠ [] := by
      rintro rfl
      exact proper _ member rfl
    have sizes : ∀ v ∈ ws, Starts keyOf v (block ++ rest) → v.length = block.length := fun v there starts => by
      rw [(only 0 (List.length_pos_of_ne_nil some_) v there starts).2, List.length_map]
    rw [sweep_word member some_ sizes, sweep_word ((same _).mpr member) some_ fun v there => sizes v ((same v).mp there), ih]

/-- What a sweep keeps stood where no word covers it. -/
theorem kept_uncovered (proper : ∀ w ∈ ws, w ≠ []) (aligned : Aligned keyOf ws xs) {x : α}
    (kept : x ∈ sweep keyOf ws new 0 xs) : x ∈ new ∨ ∃ place, xs[place]? = some x ∧ ¬ Covered keyOf ws xs place := by
  induction aligned with
  | nil => cases kept
  | @plain y rest none _ ih =>
    rw [sweep_plain none] at kept
    rcases List.mem_cons.mp kept with rfl | later
    · refine .inr ⟨0, rfl, ?_⟩
      rintro ⟨start, w, member, starts, before, -⟩
      obtain rfl := Nat.le_zero.mp before
      exact none w member starts
    · rcases ih later with substitute | ⟨place, there, bare⟩
      · exact .inl substitute
      · exact .inr ⟨place + 1, there, fun covered => bare ((covered_cons none).mp covered)⟩
  | @word block rest member only _ ih =>
    have some_ : block ≠ [] := by
      rintro rfl
      exact proper _ member rfl
    rw [sweep_word member some_ fun v there starts => by
      rw [(only 0 (List.length_pos_of_ne_nil some_) v there starts).2, List.length_map]] at kept
    rcases List.mem_append.mp kept with substitute | later
    · exact .inl substitute
    · rcases ih later with substitute | ⟨place, there, bare⟩
      · exact .inl substitute
      · refine .inr ⟨block.length + place, ?_, fun covered => bare ((covered_append only).mp covered)⟩
        rw [List.getElem?_append_right (Nat.le_add_right _ _), Nat.add_sub_cancel_left]
        exact there

/-- A sweep does not tell apart lists that differ only inside words. -/
theorem sweep_blind (proper : ∀ w ∈ ws, w ≠ []) (aligned : Aligned keyOf ws xs) (same : SameOutside keyOf ws xs ys) :
    sweep keyOf ws new 0 xs = sweep keyOf ws new 0 ys := by
  induction aligned generalizing ys with
  | nil => rw [List.length_eq_zero_iff.mp same.length.symm]
  | @plain x rest none _ ih =>
    obtain ⟨y, others, rfl⟩ : ∃ y others, ys = y :: others :=
      List.exists_cons_of_length_pos (by rw [← same.length]; exact Nat.succ_pos _)
    have bare : ∀ v ∈ ws, ¬ Starts keyOf v (y :: others) := by
      intro v member starts
      obtain ⟨w, there, -, here⟩ := (same.places 0 v.length).mpr ⟨v, member, rfl, starts⟩
      exact none w there here
    have head : x = y := by
      refine Option.some.inj (same.outside 0 ?_)
      rintro ⟨start, w, member, starts, before, -⟩
      obtain rfl := Nat.le_zero.mp before
      exact none w member starts
    have tails : SameOutside keyOf ws rest others := by
      constructor
      · exact Nat.succ.inj same.length
      · intro start size
        exact same.places (start + 1) size
      · intro place uncovered
        exact same.outside (place + 1) fun covered => uncovered ((covered_cons none).mp covered)
    rw [sweep_plain none, sweep_plain bare, head, ih tails]
  | @word block rest member only _ ih =>
    have some_ : block ≠ [] := by
      rintro rfl
      exact proper _ member rfl
    have positive : 0 < block.length := List.length_pos_of_ne_nil some_
    obtain ⟨w, there, size, starts⟩ := (same.places 0 block.length).mp
      ⟨_, member, List.length_map _, starts_block rest⟩
    obtain ⟨other, others, rfl, rfl⟩ := starts.block
    rw [List.length_map] at size
    have sizes : ∀ v ∈ ws, Starts keyOf v (other ++ others) → v.length = other.length := by
      intro v inside here
      obtain ⟨u, listed, equal, stands⟩ := (same.places 0 v.length).mpr ⟨v, inside, rfl, here⟩
      rw [← equal, (only 0 positive u listed stands).2, List.length_map, size]
    have tails : SameOutside keyOf ws rest others := by
      constructor
      · have lengths := same.length
        rw [List.length_append, List.length_append, size] at lengths
        exact Nat.add_left_cancel lengths
      · intro start width
        have there := same.places (block.length + start) width
        rwa [List.drop_length_add_append, ← size, List.drop_length_add_append] at there
      · intro place uncovered
        have there := same.outside (block.length + place) fun covered => uncovered ((covered_append only).mp covered)
        rwa [List.getElem?_append_right (Nat.le_add_right _ _), Nat.add_sub_cancel_left, ← size,
          List.getElem?_append_right (Nat.le_add_right _ _), Nat.add_sub_cancel_left] at there
    rw [sweep_word member some_ fun v inside here => by rw [(only 0 positive v inside here).2, List.length_map],
      sweep_word there (List.ne_nil_of_length_pos (size ▸ positive)) sizes, ih tails]

/-- A word that is not among the items leaves them as they are. -/
theorem sweep_absent (absent : ¬ w <:+: xs.map keyOf) : sweep keyOf [w] new 0 xs = xs := by
  have none : ∀ i < xs.length, ∀ v ∈ [w], ¬ Starts keyOf v ((xs ++ []).drop i) := by
    intro i _ v member starts
    rw [List.mem_singleton.mp member, List.append_nil] at starts
    exact absent (starts.isInfix.trans ((List.drop_suffix i xs).isInfix.map keyOf))
  have through : sweep keyOf [w] new 0 (xs ++ []) = xs ++ sweep keyOf [w] new 0 [] := sweep_through none
  rwa [List.append_nil, sweep, List.append_nil] at through

theorem sweep_wall_left (foreign : Foreign keyOf new w) :
    sweep keyOf [w] new 0 (new ++ xs) = new ++ sweep keyOf [w] new 0 xs := by
  apply sweep_through
  intro i inside v member
  rw [List.mem_singleton.mp member, List.drop_append_of_le_length (Nat.le_of_lt inside)]
  apply not_starts_substitute foreign (List.take_append_drop i new).symm
  exact List.ne_nil_of_length_pos (by rw [List.length_drop]; omega)

theorem sweep_wall (foreign : Foreign keyOf new w) (nonempty : w ≠ []) :
    sweep keyOf [w] new 0 (xs ++ (new ++ ys)) = sweep keyOf [w] new 0 xs ++ (new ++ sweep keyOf [w] new 0 ys) := by
  obtain ⟨size, bound⟩ : ∃ n, xs.length ≤ n := ⟨_, Nat.le_refl _⟩
  induction size generalizing xs with
  | zero =>
    rw [List.length_eq_zero_iff.mp (Nat.le_zero.mp bound)]
    exact sweep_wall_left foreign
  | succ size ih =>
    rcases xs with _ | ⟨x, rest⟩
    · exact sweep_wall_left foreign
    by_cases here : Starts keyOf w (x :: rest)
    · obtain ⟨block, after, split, rfl⟩ := here.block
      have some_ : block ≠ [] := by
        rintro rfl
        exact nonempty rfl
      have positive := List.length_pos_of_ne_nil some_
      have sizes : ∀ (tail : List α), ∀ v ∈ [block.map keyOf], Starts keyOf v (block ++ tail) → v.length = block.length :=
        fun _ v member _ => by rw [List.mem_singleton.mp member, List.length_map]
      rw [split, List.length_append] at bound
      rw [split, List.append_assoc, sweep_word (List.mem_singleton_self _) some_ (sizes _),
        sweep_word (List.mem_singleton_self _) some_ (sizes _), ih (by omega), List.append_assoc]
    · have plain : ∀ v ∈ [w], ¬ Starts keyOf v (x :: (rest ++ (new ++ ys))) := by
        intro v member starts
        obtain rfl := List.mem_singleton.mp member
        exact here (starts_before_wall foreign starts)
      have alone : ∀ v ∈ [w], ¬ Starts keyOf v (x :: rest) := fun v member => List.mem_singleton.mp member ▸ here
      rw [List.length_cons] at bound
      rw [List.cons_append, sweep_plain plain, sweep_plain alone, ih (Nat.le_of_succ_le_succ bound)]
      rfl

theorem sweep_ne_nil (some_ : xs ≠ []) (substitute : new ≠ []) :
    sweep keyOf [w] new 0 xs ≠ [] := by
  obtain ⟨x, rest, rfl⟩ := List.exists_cons_of_ne_nil some_
  rw [sweep]
  cases [w].find? fun w => decide (Starts keyOf w (x :: rest)) with
  | none => exact List.cons_ne_nil _ _
  | some v => exact List.append_ne_nil_of_left_ne_nil substitute _

end sweeping

end Sippycup.Machine.Substitution
