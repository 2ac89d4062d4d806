import Mathlib.Order.Basic

/-! Loops with early exit and exceptions, over any state. A turn of the loop
goes round again, leaves, or raises. Fuel only bounds the computation: a
measure that decreases on every further turn shows how much is enough. -/
namespace Sippycup.Loop

inductive Turn (σ : Type) where
  | again (state : σ)
  | leave (state : σ)

variable {σ ε : Type}

/-- `none` means that the fuel ran out. -/
@[grind =] def run (turn : σ → Except ε (Turn σ)) : Nat → σ → Option (Except ε σ)
  | 0, _ => none
  | fuel + 1, s =>
    match turn s with
    | .error raised => some (.error raised)
    | .ok (.leave t) => some (.ok t)
    | .ok (.again t) => run turn fuel t

inductive Reaches (turn : σ → Except ε (Turn σ)) (start : σ) : σ → Prop where
  | refl : Reaches turn start start
  | next {s t} : Reaches turn start s → turn s = .ok (.again t) → Reaches turn start t

variable {turn : σ → Except ε (Turn σ)} {start : σ}

theorem Reaches.trans {s t : σ} (first : Reaches turn start s) (second : Reaches turn s t) :
    Reaches turn start t := by
  induction second with
  | refl => exact first
  | next _ step ih => exact .next ih step

/-- What every further turn preserves holds in every state reached. -/
theorem Reaches.invariant {P : σ → Prop} {s : σ} (reached : Reaches turn start s) (initial : P start)
    (again : ∀ s t, Reaches turn start s → P s → turn s = .ok (.again t) → P t) : P s := by
  induction reached with
  | refl => exact initial
  | next earlier step ih => exact again _ _ earlier ih step

/-- A run that returns left the loop from a state it reached. -/
theorem run_leaves {fuel : Nat} {final : σ} (ran : run turn fuel start = some (.ok final)) :
    ∃ s, Reaches turn start s ∧ turn s = .ok (.leave final) := by
  induction fuel generalizing start with
  | zero => cases ran
  | succ fuel ih =>
    simp only [run] at ran
    split at ran
    · cases ran
    · rename_i t left
      cases ran
      exact ⟨start, .refl, left⟩
    · rename_i t step
      obtain ⟨s, reached, left⟩ := ih ran
      exact ⟨s, (Reaches.refl.next step).trans reached, left⟩

/-- Partial correctness: an invariant of the further turns, and what leaving gives. -/
theorem run_invariant {P Q : σ → Prop} {fuel : Nat} {final : σ} (initial : P start)
    (again : ∀ s t, Reaches turn start s → P s → turn s = .ok (.again t) → P t)
    (leave : ∀ s t, Reaches turn start s → P s → turn s = .ok (.leave t) → Q t)
    (ran : run turn fuel start = some (.ok final)) : Q final := by
  obtain ⟨s, reached, left⟩ := run_leaves ran
  exact leave s final reached (reached.invariant initial again) left

/-- Termination: fuel beyond a measure that every further turn decreases. -/
theorem run_terminates {P : σ → Prop} (measure : σ → Nat) {fuel : Nat} (initial : P start)
    (again : ∀ s t, P s → turn s = .ok (.again t) → P t ∧ measure t < measure s)
    (enough : measure start < fuel) : ∃ result, run turn fuel start = some result := by
  induction fuel generalizing start with
  | zero => omega
  | succ fuel ih =>
    simp only [run]
    split
    · exact ⟨_, rfl⟩
    · exact ⟨_, rfl⟩
    · rename_i t step
      obtain ⟨kept, smaller⟩ := again _ _ initial step
      exact ih kept (by omega)

/-- Total correctness: from every state the loop leaves as wanted, or goes on
to a smaller one. -/
theorem run_succeeds {P Q : σ → Prop} (measure : σ → Nat) {fuel : Nat} (initial : P start)
    (step : ∀ s, P s → (∃ t, turn s = .ok (.leave t) ∧ Q t) ∨
      ∃ t, turn s = .ok (.again t) ∧ P t ∧ measure t < measure s)
    (enough : measure start < fuel) : ∃ final, run turn fuel start = some (.ok final) ∧ Q final := by
  induction fuel generalizing start with
  | zero => omega
  | succ fuel ih =>
    rcases step start initial with ⟨t, left, wanted⟩ | ⟨t, next, kept, smaller⟩
    · exact ⟨t, by rw [run, left], wanted⟩
    · obtain ⟨final, ran, wanted⟩ := ih kept (by omega)
      exact ⟨final, by rw [run, next]; exact ran, wanted⟩

/-- More fuel does not change a result. -/
theorem run_mono {fuel more : Nat} {result : Except ε σ} (ran : run turn fuel start = some result)
    (enough : fuel ≤ more) : run turn more start = some result := by
  induction fuel generalizing start more with
  | zero => cases ran
  | succ fuel ih =>
    obtain ⟨more, rfl⟩ := Nat.exists_eq_add_of_le enough
    rw [Nat.add_right_comm, run]
    rw [run] at ran
    split at ran
    · exact ran
    · exact ran
    · exact ih ran (Nat.le_add_right fuel more)

theorem Reaches.head {s : σ} (reached : Reaches turn start s) :
    s = start ∨ ∃ t, turn start = .ok (.again t) ∧ Reaches turn t s := by
  induction reached with
  | refl => exact .inl rfl
  | next _ step ih =>
    rcases ih with rfl | ⟨t, first, reached⟩
    · exact .inr ⟨_, step, .refl⟩
    · exact .inr ⟨t, first, reached.next step⟩

/-- The states a loop goes through. -/
@[grind =] def visited (turn : σ → Except ε (Turn σ)) : Nat → σ → List σ
  | 0, s => [s]
  | fuel + 1, s =>
    s :: match turn s with
      | .ok (.again t) => visited turn fuel t
      | _ => []

/-- A run that ends has visited every state it reaches. -/
theorem Reaches.mem_visited {fuel : Nat} {result : Except ε σ} {s : σ}
    (ran : run turn fuel start = some result) (reached : Reaches turn start s) :
    s ∈ visited turn fuel start := by
  induction fuel generalizing start with
  | zero => cases ran
  | succ fuel ih =>
    rcases reached.head with rfl | ⟨t, step, later⟩
    · exact List.mem_cons_self
    · rw [run, step] at ran
      rw [visited, step]
      exact List.mem_cons_of_mem _ (ih ran later)

end Sippycup.Loop
