import Mathlib.Data.List.MinMax
import Mathlib.Order.Interval.Finset.Nat
import Mathlib.Tactic.Linarith
import Mathlib.Tactic.Ring

/-! RTP sequence metrics: 16-bit sequence numbers are extended by a cycle
counter, and the extended numbers are counted. The counter is raised when a
number falls by more than half a cycle; nothing lowers it again. -/
namespace Sippycup.Oracle

def cycle : Nat := 65536

/-- Extends the numbers that follow `previous` in the cycle reached so far. -/
@[grind =] def extendFrom (cycles previous : Nat) : List Nat → List Nat
  | [] => []
  | sequence :: rest =>
    let cycles := if 32768 + sequence < previous then cycles + cycle else cycles
    (cycles + sequence) :: extendFrom cycles sequence rest

def extended (sequences : List Nat) : List Nat := extendFrom 0 (sequences.headD 0) sequences

/-- The set of numbers seen, the counters, and the highest number so far. -/
structure Tally where
  seen : List Nat
  duplicates : Nat
  reordered : Nat
  highest : Int
  deriving DecidableEq

def Tally.step (tally : Tally) (sequence : Nat) : Tally :=
  let again := decide (sequence ∈ tally.seen)
  { seen := if again then tally.seen else sequence :: tally.seen
    duplicates := if again then tally.duplicates + 1 else tally.duplicates
    reordered := if !again && decide ((sequence : Int) < tally.highest) then tally.reordered + 1
      else tally.reordered
    highest := max tally.highest sequence }

def tally (numbers : List Nat) : Tally := numbers.foldl Tally.step ⟨[], 0, 0, -1⟩

structure Counts where
  unique : Nat
  expected : Nat
  lost : Nat
  duplicates : Nat
  reordered : Nat
  deriving DecidableEq

/-- The counts of packet numbers, extended or true. -/
def countNumbers (numbers : List Nat) : Counts :=
  let result := tally numbers
  let expected := numbers.foldl max 0 - numbers.foldl min (numbers.headD 0) + 1
  { unique := result.seen.length, expected, lost := expected - result.seen.length
    duplicates := result.duplicates, reordered := result.reordered }

def sequenceMetrics (sequences : List Nat) : Counts := countNumbers (extended sequences)

example : sequenceMetrics [65534, 65535, 0, 1] = ⟨4, 4, 0, 0, 0⟩ := by decide

/-- Successive numbers differ by less than half a cycle. -/
def Near (numbers : List Nat) : Prop := numbers.IsChain fun a b => a < b + 32768 ∧ b < a + 32768

/-- No number lies in an earlier cycle than the one before it. -/
def Onward (numbers : List Nat) : Prop := numbers.IsChain fun a b => a / cycle ≤ b / cycle

def residues (numbers : List Nat) : List Nat := numbers.map (· % cycle)

/-- The counter is raised exactly where the true numbers enter a later cycle. -/
theorem falls_iff {a b : Nat} (near : a < b + 32768 ∧ b < a + 32768) :
    32768 + b % cycle < a % cycle ↔ a / cycle < b / cycle := by
  unfold cycle
  omega

theorem next_cycle {a b : Nat} (near : a < b + 32768 ∧ b < a + 32768) (later : a / cycle < b / cycle) :
    b / cycle = a / cycle + 1 := by
  unfold cycle at *
  omega

section shift
variable {c : Nat}

/-- Two tallies of numbers that differ by a constant. -/
structure Shifted (c : Nat) (a b : Tally) : Prop where
  seen : b.seen = a.seen.map (· + c)
  duplicates : b.duplicates = a.duplicates
  reordered : b.reordered = a.reordered
  highest : (a.highest = -1 ∧ b.highest = -1) ∨ b.highest = a.highest + c

theorem Shifted.step {a b : Tally} (shifted : Shifted c a b) (n : Nat) :
    Shifted c (a.step n) (b.step (n + c)) := by
  have again : n + c ∈ b.seen ↔ n ∈ a.seen := by
    rw [shifted.seen]
    simp
  have below : (((n + c : Nat) : Int) < b.highest) ↔ ((n : Int) < a.highest) := by
    rcases shifted.highest with ⟨low, low'⟩ | same <;> omega
  unfold Tally.step
  refine ⟨?_, ?_, ?_, ?_⟩
  · simp only [again, decide_eq_true_eq]
    split
    · exact shifted.seen
    · rw [shifted.seen, List.map_cons]
  · simp only [again, shifted.duplicates]
  · simp only [again, below, shifted.reordered]
  · right
    dsimp only
    rcases shifted.highest with ⟨low, low'⟩ | same <;> omega

theorem tally_shift (numbers : List Nat) : Shifted c (tally numbers) (tally (numbers.map (· + c))) := by
  induction numbers using List.reverseRecOn with
  | nil => exact ⟨rfl, rfl, rfl, .inl ⟨rfl, rfl⟩⟩
  | append_singleton numbers n ih =>
    rw [tally, List.map_append, tally, List.foldl_append, List.foldl_append]
    exact ih.step n

theorem foldl_max_shift (numbers : List Nat) (start : Nat) :
    (numbers.map (· + c)).foldl max (start + c) = numbers.foldl max start + c := by
  induction numbers generalizing start with
  | nil => rfl
  | cons n rest ih =>
    rw [List.map_cons, List.foldl_cons, List.foldl_cons, ← ih]
    congr 1
    omega

theorem foldl_min_shift (numbers : List Nat) (start : Nat) :
    (numbers.map (· + c)).foldl min (start + c) = numbers.foldl min start + c := by
  induction numbers generalizing start with
  | nil => rfl
  | cons n rest ih =>
    rw [List.map_cons, List.foldl_cons, List.foldl_cons, ← ih]
    congr 1
    omega

/-- The counts do not depend on where the numbering starts. -/
theorem countNumbers_shift (numbers : List Nat) :
    countNumbers (numbers.map (· + c)) = countNumbers numbers := by
  cases numbers with
  | nil => rfl
  | cons first rest =>
    have shifted := tally_shift (c := c) (first :: rest)
    have highest : ((first :: rest).map (· + c)).foldl max 0 = (first :: rest).foldl max 0 + c := by
      rw [List.map_cons, List.foldl_cons, List.foldl_cons, Nat.zero_max, Nat.zero_max]
      exact foldl_max_shift rest first
    have lowest : ((first :: rest).map (· + c)).foldl min (first + c) =
        (first :: rest).foldl min first + c := foldl_min_shift (first :: rest) first
    have start : ((first :: rest).map (· + c)).headD 0 = first + c := rfl
    unfold countNumbers
    simp only [shifted.seen, shifted.duplicates, shifted.reordered, List.length_map, highest,
      start, lowest, List.headD_cons, Nat.add_sub_add_right]

end shift

section crossings

/-- The numbers after `a`, each with the count of the steps back into an earlier cycle so far. -/
@[grind =] def crossed (k a : Nat) : List Nat → List (Nat × Nat)
  | [] => []
  | b :: rest =>
    let k := if b / cycle < a / cycle then k + 1 else k
    (b, k) :: crossed k b rest

/-- What the reconstruction gives: one cycle too many for each step back. -/
def lift (number : Nat × Nat) : Nat := number.1 + number.2 * cycle

theorem crossed_fst (k a : Nat) (rest : List Nat) : (crossed k a rest).map Prod.fst = rest := by
  induction rest generalizing k a with
  | nil => rfl
  | cons b rest ih => rw [crossed, List.map_cons, ih]

theorem crossed_chain (k a : Nat) (rest : List Nat) :
    ((a, k) :: crossed k a rest).IsChain fun p q =>
      p.2 ≤ q.2 ∧ (q.1 / cycle < p.1 / cycle → q.2 = p.2 + 1) := by
  induction rest generalizing k a with
  | nil => exact .singleton _
  | cons b rest ih =>
    rw [crossed]
    refine .cons_cons ⟨?_, ?_⟩ (ih _ b)
    · dsimp only
      split <;> omega
    · intro back
      exact if_pos back

theorem extendFrom_eq {cycles k a : Nat} {rest : List Nat} (base : Nat) (near : Near (a :: rest))
    (at_ : cycles + base * cycle = (a / cycle + k) * cycle) :
    (extendFrom cycles (a % cycle) (residues rest)).map (· + base * cycle) =
      (crossed k a rest).map lift := by
  induction rest generalizing cycles k a with
  | nil => rfl
  | cons b rest ih =>
    obtain ⟨close, near⟩ := List.isChain_cons_cons.mp near
    have falls := falls_iff close
    have whole := Nat.div_add_mod b cycle
    rw [residues, List.map_cons, extendFrom, crossed, List.map_cons, List.map_cons]
    rcases Nat.lt_trichotomy (a / cycle) (b / cycle) with up | same | back
    · have next := next_cycle close up
      rw [if_pos (falls.mpr up), if_neg (by omega)]
      have at_' : cycles + cycle + base * cycle = (b / cycle + k) * cycle := by
        rw [next]
        linarith
      refine congrArg₂ List.cons ?_ (ih near at_')
      unfold lift
      linarith
    · rw [if_neg (fun fall => absurd (falls.mp fall) (by omega)), if_neg (by omega)]
      rw [same] at at_
      refine congrArg₂ List.cons ?_ (ih near at_)
      unfold lift
      linarith
    · have next := next_cycle close.symm back
      rw [if_neg (fun fall => absurd (falls.mp fall) (by omega)), if_pos back]
      have at_' : cycles + base * cycle = (b / cycle + (k + 1)) * cycle := by
        rw [at_, next]
        ring
      refine congrArg₂ List.cons ?_ (ih near at_')
      unfold lift
      linarith

/-- The code counts the true numbers, lifted by a cycle at every step back. -/
theorem sequenceMetrics_eq {first : Nat} {rest : List Nat} (near : Near (first :: rest)) :
    sequenceMetrics (residues (first :: rest)) =
      countNumbers (((first, 0) :: crossed 0 first rest).map lift) := by
  have start' : 0 + first / cycle * cycle = (first / cycle + 0) * cycle := by simp
  have followed := extendFrom_eq (first / cycle) near start'
  have start : first % cycle + first / cycle * cycle = lift (first, 0) := by
    have whole := Nat.div_add_mod first cycle
    unfold lift
    linarith
  rw [List.map_cons, ← followed, ← start, ← List.map_cons (f := (· + first / cycle * cycle)),
    countNumbers_shift, sequenceMetrics]
  congr 1
  rw [residues, List.map_cons, extended, extendFrom, List.headD_cons, if_neg (by omega),
    Nat.zero_add]
  rfl

theorem lift_crossed {a : Nat} {rest : List Nat} (onward : Onward (a :: rest)) :
    (crossed 0 a rest).map lift = rest := by
  induction rest generalizing a with
  | nil => rfl
  | cons b rest ih =>
    obtain ⟨later, onward⟩ := List.isChain_cons_cons.mp onward
    rw [crossed, if_neg (by omega), List.map_cons, ih onward, lift, Nat.zero_mul, Nat.add_zero]

end crossings

section late

/-- The numbers that do not exceed all before them. -/
def Tally.late (tally : Tally) : Nat := tally.duplicates + tally.reordered

/-- What the tally knows of the numbers counted. -/
structure Tally.Knows (tally : Tally) (numbers : List Nat) : Prop where
  seen : ∀ n, n ∈ tally.seen ↔ n ∈ numbers
  reached : tally.highest = -1 ∨ ∃ n ∈ numbers, tally.highest = n
  bound : ∀ n ∈ numbers, (n : Int) ≤ tally.highest

theorem Tally.Knows.step {t : Tally} {numbers : List Nat} (knows : t.Knows numbers) (n : Nat) :
    (t.step n).Knows (numbers ++ [n]) := by
  refine ⟨?_, ?_, ?_⟩
  · intro m
    by_cases again : n ∈ t.seen
    · simp only [Tally.step, again, decide_true, if_true, List.mem_append, List.mem_singleton,
        knows.seen]
      refine ⟨.inl, ?_⟩
      rintro (before | rfl)
      · exact before
      · exact (knows.seen m).mp again
    · simp only [Tally.step, again, decide_false, Bool.false_eq_true, if_false, List.mem_cons,
        List.mem_append, List.not_mem_nil, or_false, knows.seen]
      exact or_comm
  · right
    rcases Int.le_total n t.highest with below | above
    · rcases knows.reached with low | ⟨m, counted, same⟩
      · omega
      · exact ⟨m, List.mem_append_left _ counted, by rw [Tally.step]; dsimp only; omega⟩
    · exact ⟨n, by simp, by rw [Tally.step]; dsimp only; omega⟩
  · intro m counted
    rw [Tally.step]
    dsimp only
    rcases List.mem_append.mp counted with before | last
    · have := knows.bound m before
      omega
    · have := List.mem_singleton.mp last
      omega

theorem tally_knows (numbers : List Nat) : (tally numbers).Knows numbers := by
  induction numbers using List.reverseRecOn with
  | nil => exact ⟨by simp [tally], .inl rfl, by simp⟩
  | append_singleton numbers n ih =>
    rw [tally, List.foldl_append]
    exact ih.step n

open Classical in
theorem late_append (numbers : List Nat) (n : Nat) :
    (tally (numbers ++ [n])).late =
      (tally numbers).late + if ∃ c ∈ numbers, n ≤ c then 1 else 0 := by
  have knows := tally_knows numbers
  have stepped : tally (numbers ++ [n]) = (tally numbers).step n := by
    rw [tally, List.foldl_append]
    rfl
  have reached : (∃ c ∈ numbers, n ≤ c) ↔ (n : Int) ≤ (tally numbers).highest := by
    constructor
    · rintro ⟨c, counted, le⟩
      have := knows.bound c counted
      omega
    · intro le
      rcases knows.reached with low | ⟨c, counted, same⟩
      · omega
      · exact ⟨c, counted, by omega⟩
  have again : n ∈ (tally numbers).seen → (n : Int) ≤ (tally numbers).highest :=
    fun seen => knows.bound n ((knows.seen n).mp seen)
  have top : (n : Int) = (tally numbers).highest → n ∈ (tally numbers).seen := by
    intro same
    rcases knows.reached with low | ⟨c, counted, high⟩
    · omega
    · have : n = c := by omega
      exact (knows.seen n).mpr (this ▸ counted)
  rw [stepped]
  by_cases seen : n ∈ (tally numbers).seen
  · rw [if_pos (reached.mpr (again seen))]
    simp only [Tally.step, Tally.late, seen, decide_true, if_true, Bool.not_true, Bool.false_and,
      Bool.false_eq_true, if_false]
    omega
  · by_cases below : (n : Int) < (tally numbers).highest
    · rw [if_pos (reached.mpr below.le)]
      simp only [Tally.step, Tally.late, seen, below, decide_true, decide_false, Bool.not_false,
        Bool.true_and, Bool.false_eq_true, if_true, if_false]
      omega
    · have above : ¬ ∃ c ∈ numbers, n ≤ c := by
        intro le
        rcases Int.lt_or_eq_of_le (reached.mp le) with lt | same
        · exact below lt
        · exact seen (top same)
      rw [if_neg above]
      simp only [Tally.step, Tally.late, seen, below, decide_false, Bool.not_false,
        Bool.and_false, Bool.false_eq_true, if_false]
      omega

/-- Lifting by counts that never fall can only make more numbers exceed all before them; and
where it makes no more, each number that does not stays so. -/
theorem late_lift (pairs : List (Nat × Nat)) (rising : pairs.Pairwise fun p q => p.2 ≤ q.2) :
    (tally (pairs.map lift)).late ≤ (tally (pairs.map Prod.fst)).late ∧
      ((tally (pairs.map lift)).late = (tally (pairs.map Prod.fst)).late →
        ∀ before p after, pairs = before ++ p :: after → (∃ c ∈ before, p.1 ≤ c.1) →
          ∃ c ∈ before, lift p ≤ lift c) := by
  induction pairs using List.reverseRecOn with
  | nil => exact ⟨Nat.le_refl _, fun _ before p after split => by simp at split⟩
  | append_singleton pairs q ih =>
    obtain ⟨rising, -, below⟩ := List.pairwise_append.mp rising
    obtain ⟨le, kept⟩ := ih rising
    have weaker : (∃ c ∈ pairs.map lift, lift q ≤ c) → ∃ c ∈ pairs.map Prod.fst, q.1 ≤ c := by
      rintro ⟨c, member, high⟩
      obtain ⟨p, counted, rfl⟩ := List.mem_map.mp member
      have few := Nat.mul_le_mul_right cycle (below p counted q (by simp))
      unfold lift at high
      exact ⟨p.1, List.mem_map_of_mem counted, by omega⟩
    rw [List.map_append, List.map_append, List.map_singleton, List.map_singleton, late_append,
      late_append]
    refine ⟨?_, ?_⟩
    · by_cases high : ∃ c ∈ pairs.map lift, lift q ≤ c
      · rw [if_pos high, if_pos (weaker high)]
        omega
      · rw [if_neg high]
        omega
    · intro same before p after split overtaken
      rcases List.eq_nil_or_concat after with rfl | ⟨middle, last, rfl⟩
      · obtain ⟨rfl, single⟩ := List.append_inj' split rfl
        obtain rfl := List.singleton_inj.mp single
        by_contra low
        have high : ¬ ∃ c ∈ pairs.map lift, lift q ≤ c := by
          rintro ⟨c, member, high⟩
          obtain ⟨p, counted, rfl⟩ := List.mem_map.mp member
          exact low ⟨p, counted, high⟩
        have passed : ∃ c ∈ pairs.map Prod.fst, q.1 ≤ c := by
          obtain ⟨c, counted, le⟩ := overtaken
          exact ⟨c.1, List.mem_map_of_mem counted, le⟩
        rw [if_neg high, if_pos passed] at same
        omega
      · rw [List.concat_eq_append, ← List.cons_append, ← List.append_assoc] at split
        obtain ⟨rfl, -⟩ := List.append_inj' split rfl
        refine kept ?_ before p middle rfl overtaken
        by_cases high : ∃ c ∈ (before ++ p :: middle).map lift, lift q ≤ c
        · rw [if_pos high, if_pos (weaker high)] at same
          omega
        · rw [if_neg high] at same
          omega

end late

section balance

theorem le_foldl_max (numbers : List Nat) (start : Nat) :
    start ≤ numbers.foldl max start ∧ ∀ n ∈ numbers, n ≤ numbers.foldl max start := by
  induction numbers generalizing start with
  | nil => simp
  | cons first rest ih =>
    obtain ⟨low, all⟩ := ih (max start first)
    refine ⟨(le_max_left start first).trans low, fun n member => ?_⟩
    rcases List.mem_cons.mp member with rfl | later
    · exact (le_max_right start n).trans low
    · exact all n later

theorem foldl_min_le (numbers : List Nat) (start : Nat) :
    numbers.foldl min start ≤ start ∧ ∀ n ∈ numbers, numbers.foldl min start ≤ n := by
  induction numbers generalizing start with
  | nil => simp
  | cons first rest ih =>
    obtain ⟨low, all⟩ := ih (min start first)
    refine ⟨low.trans (min_le_left start first), fun n member => ?_⟩
    rcases List.mem_cons.mp member with rfl | later
    · exact low.trans (min_le_right start n)
    · exact all n later

/-- Every number counted is new or a duplicate, and the first is not out of order. -/
structure Tally.Balanced (tally : Tally) (numbers : List Nat) : Prop where
  distinct : tally.seen.Nodup
  total : tally.seen.length + tally.duplicates = numbers.length
  reordered : tally.reordered = 0 ∨ tally.reordered + 1 ≤ tally.seen.length

theorem Tally.Balanced.step {t : Tally} {numbers : List Nat} (balanced : t.Balanced numbers)
    (knows : t.Knows numbers) (n : Nat) : (t.step n).Balanced (numbers ++ [n]) := by
  obtain ⟨distinct, total, reordered⟩ := balanced
  by_cases again : n ∈ t.seen
  · constructor
    · simpa [Tally.step, again] using distinct
    · simp only [Tally.step, again, decide_true, if_true, List.length_append, List.length_singleton]
      omega
    · simpa [Tally.step, again] using reordered
  · constructor
    · simpa [Tally.step, again] using distinct
    · simp only [Tally.step, again, decide_false, Bool.false_eq_true, if_false, List.length_append,
        List.length_cons, List.length_nil]
      omega
    · simp only [Tally.step, again, decide_false, Bool.not_false, Bool.true_and, decide_eq_true_eq,
        Bool.false_eq_true, if_false, List.length_cons]
      split
      · -- a number below the highest is not the first
        rename_i below
        have before : t.seen ≠ [] := by
          rintro empty
          rcases knows.reached with low | ⟨m, counted, -⟩
          · omega
          · rw [← knows.seen, empty] at counted
            cases counted
        have := List.length_pos_iff.mpr before
        omega
      · omega

theorem tally_balanced (numbers : List Nat) : (tally numbers).Balanced numbers := by
  induction numbers using List.reverseRecOn with
  | nil => exact ⟨List.nodup_nil, rfl, .inl rfl⟩
  | append_singleton numbers n ih =>
    rw [tally, List.foldl_append]
    exact ih.step (tally_knows numbers) n

theorem seen_length_le {numbers : List Nat} (nonempty : numbers ≠ []) :
    (tally numbers).seen.length ≤ numbers.foldl max 0 - numbers.foldl min (numbers.headD 0) + 1 := by
  have knows := tally_knows numbers
  have between : (tally numbers).seen.toFinset ⊆
      Finset.Icc (numbers.foldl min (numbers.headD 0)) (numbers.foldl max 0) := by
    intro n member
    have counted := (knows.seen n).mp (List.mem_toFinset.mp member)
    exact Finset.mem_Icc.mpr ⟨(foldl_min_le numbers _).2 n counted, (le_foldl_max numbers 0).2 n counted⟩
  have card := Finset.card_le_card between
  rw [List.toFinset_card_of_nodup (tally_balanced numbers).distinct, Nat.card_Icc] at card
  obtain ⟨first, rest, rfl⟩ := List.exists_cons_of_ne_nil nonempty
  have low := (foldl_min_le (first :: rest) ((first :: rest).headD 0)).2 first List.mem_cons_self
  have high := (le_foldl_max (first :: rest) 0).2 first List.mem_cons_self
  omega

theorem length_extendFrom (cycles previous : Nat) (sequences : List Nat) :
    (extendFrom cycles previous sequences).length = sequences.length := by
  induction sequences generalizing cycles previous with
  | nil => rfl
  | cons sequence rest ih => rw [extendFrom, List.length_cons, List.length_cons, ih]

/-- How the counts of a number of packets belong together. -/
structure Counts.Balance (counts : Counts) (received : Nat) : Prop where
  received : received = counts.unique + counts.duplicates
  expected : counts.lost + counts.unique = counts.expected
  unique : 1 ≤ counts.unique
  reordered : counts.reordered + 1 ≤ counts.unique

theorem sequenceMetrics_balance {sequences : List Nat} (nonempty : sequences ≠ []) :
    (sequenceMetrics sequences).Balance sequences.length := by
  have long : (extended sequences).length = sequences.length := length_extendFrom _ _ _
  have nonempty' : extended sequences ≠ [] := by
    rw [← List.length_pos_iff] at nonempty ⊢
    omega
  obtain ⟨-, total, reordered⟩ := tally_balanced (extended sequences)
  have room := seen_length_le nonempty'
  have some : (tally (extended sequences)).seen ≠ [] := by
    intro empty
    obtain ⟨first, rest, split⟩ := List.exists_cons_of_ne_nil nonempty'
    have counted := ((tally_knows (extended sequences)).seen first).mpr (split ▸ List.mem_cons_self)
    rw [empty] at counted
    cases counted
  have := List.length_pos_iff.mpr some
  unfold sequenceMetrics countNumbers
  refine ⟨?_, ?_, ?_, ?_⟩ <;> dsimp only <;> omega

end balance

/-- The counts are those of the true numbers when no packet lies in an earlier cycle than the
one before it; and only then, except where such a packet lies a whole cycle or more behind one
that came before. -/
theorem metrics_exact_unless_stepping_back {numbers : List Nat} (near : Near numbers) :
    (Onward numbers → sequenceMetrics (residues numbers) = countNumbers numbers) ∧
      (sequenceMetrics (residues numbers) = countNumbers numbers →
        ∀ before a b after, numbers = before ++ a :: b :: after → b / cycle < a / cycle →
          ∃ c ∈ before, b + cycle ≤ c) := by
  cases numbers with
  | nil => exact ⟨fun _ => rfl, fun _ before a b after split => by simp at split⟩
  | cons first rest =>
    rw [sequenceMetrics_eq near]
    have zero : lift (first, 0) = first := by rw [lift, Nat.zero_mul, Nat.add_zero]
    refine ⟨?_, ?_⟩
    · intro onward
      rw [List.map_cons, lift_crossed onward, zero]
    · intro same before a b after split back
      have chain := crossed_chain 0 first rest
      have fst : ((first, 0) :: crossed 0 first rest).map Prod.fst = before ++ a :: b :: after := by
        rw [List.map_cons, crossed_fst, split]
      have late : (tally (((first, 0) :: crossed 0 first rest).map lift)).late =
          (tally (((first, 0) :: crossed 0 first rest).map Prod.fst)).late := by
        rw [fst, ← split, Tally.late, Tally.late]
        have duplicates := congrArg Counts.duplicates same
        have reordered := congrArg Counts.reordered same
        exact congrArg₂ (· + ·) duplicates reordered
      generalize (first, 0) :: crossed 0 first rest = pairs at *
      have rising : pairs.Pairwise fun p q => p.2 ≤ q.2 :=
        List.isChain_iff_pairwise.mp (chain.imp fun _ _ step => step.1)
      obtain ⟨earlier, pairs', rfl, rfl, from_a⟩ := List.map_eq_append_iff.mp fst
      obtain ⟨pa, pairs', rfl, rfl, from_b⟩ := List.map_eq_cons_iff.mp from_a
      obtain ⟨pb, tail, rfl, rfl, -⟩ := List.map_eq_cons_iff.mp from_b
      have raised : pb.2 = pa.2 + 1 :=
        (List.isChain_append.mp chain).2.1.rel.2 back
      have split' : earlier ++ pa :: pb :: tail = (earlier ++ [pa]) ++ pb :: tail := by simp
      have lower : pb.1 < pa.1 := by
        by_contra le
        have := Nat.div_le_div_right (c := cycle) (Nat.le_of_not_lt le)
        omega
      obtain ⟨c, member, high⟩ :=
        (late_lift _ rising).2 late _ pb tail split' ⟨pa, by simp, lower.le⟩
      have few : c.2 ≤ pa.2 := by
        rcases List.mem_append.mp member with inside | last
        · exact (List.pairwise_append.mp rising).2.2 c inside pa (by simp)
        · rw [List.mem_singleton.mp last]
      have count := Nat.mul_le_mul_right cycle few
      have ahead : pb.1 + cycle ≤ c.1 := by
        rw [lift, lift, raised, Nat.add_mul] at high
        omega
      rcases List.mem_append.mp member with inside | last
      · exact ⟨c.1, List.mem_map_of_mem inside, ahead⟩
      · -- the packet just before is less than half a cycle ahead
        rw [List.mem_singleton.mp last] at ahead
        have close := (List.isChain_append.mp (split ▸ near)).2.1.rel.1
        unfold cycle at ahead
        omega

theorem forward_wrap_is_exact :
    Onward [65534, 65535, 65537] ∧
      sequenceMetrics (residues [65534, 65535, 65537]) = countNumbers [65534, 65535, 65537] := by
  have near : Near [65534, 65535, 65537] := by
    unfold Near
    decide
  have onward : Onward [65534, 65535, 65537] := by
    unfold Onward
    decide
  exact ⟨onward, (metrics_exact_unless_stepping_back near).1 onward⟩

/-- Two packets swapped at the wrap: 65536 packets are counted as lost and none as reordered. -/
theorem swap_at_wrap_is_miscounted :
    Near [65534, 65536, 65535, 65537] ∧
      sequenceMetrics (residues [65534, 65536, 65535, 65537]) = ⟨4, 65540, 65536, 0, 0⟩ ∧
        countNumbers [65534, 65536, 65535, 65537] = ⟨4, 4, 0, 0, 1⟩ := by
  refine ⟨?_, by decide, by decide⟩
  unfold Near
  decide

end Sippycup.Oracle
