

/-! Programs that may raise and that change a state, which an exception does
not roll back; and triples for them, with one postcondition for either exit. -/
namespace Sippycup.Machine

/-- A program over the state `σ` that gives an `α` or raises an `ε`. -/
def Eff (σ ε α : Type) : Type := σ → Except ε α × σ

namespace Eff
variable {σ τ ε α β : Type}

protected def pure (a : α) : Eff σ ε α := fun s => (.ok a, s)

protected def bind (m : Eff σ ε α) (f : α → Eff σ ε β) : Eff σ ε β := fun s =>
  match m s with
  | (.ok a, t) => f a t
  | (.error e, t) => (.error e, t)

instance : Monad (Eff σ ε) where
  pure := Eff.pure
  bind := Eff.bind

def raise (e : ε) : Eff σ ε α := fun s => (.error e, s)

def get : Eff σ ε σ := fun s => (.ok s, s)

def modify (f : σ → σ) : Eff σ ε Unit := fun s => (.ok (), f s)

def ofExcept : Except ε α → Eff σ ε α
  | .ok a => Eff.pure a
  | .error e => raise e

@[grind =] def forEach (f : α → Eff σ ε Unit) : List α → Eff σ ε Unit
  | [] => Eff.pure ()
  | a :: rest => do
    f a
    forEach f rest

theorem forEach_map (f : α → Eff σ ε Unit) (g : β → α) (xs : List β) :
    forEach f (xs.map g) = forEach (fun x => f (g x)) xs := by
  induction xs with
  | nil => rfl
  | cons x rest ih => rw [List.map_cons, forEach, ih, forEach]

/-- `try` and `except`: the handler starts where the exception left the state. -/
def rescue (m : Eff σ ε α) (handler : ε → Eff σ ε α) : Eff σ ε α := fun s =>
  match m s with
  | (.ok a, t) => (.ok a, t)
  | (.error e, t) => handler e t

/-- `try` and `finally`: an exception of the last part takes the place of the result. -/
def ensuring (m : Eff σ ε α) (last : Eff σ ε Unit) : Eff σ ε α := fun s =>
  match m s with
  | (result, t) =>
    match last t with
    | (.ok _, u) => (result, u)
    | (.error e, u) => (.error e, u)

/-- From `P` the program leaves by `Q`, or by `E` when it raises. -/
def Triple (P : σ → Prop) (m : Eff σ ε α) (Q : α → σ → Prop) (E : ε → σ → Prop) : Prop :=
  ∀ s, P s → (∀ a t, m s = (.ok a, t) → Q a t) ∧ ∀ e t, m s = (.error e, t) → E e t

variable {P P' : σ → Prop} {Q Q' : α → σ → Prop} {R : β → σ → Prop} {E E' : ε → σ → Prop}
  {I : σ → Prop} {m : Eff σ ε α} {f : α → Eff σ ε β}

theorem triple_pure (a : α) : Triple (Q a) (pure a : Eff σ ε α) Q E := by
  refine fun s holds => ⟨?_, ?_⟩
  · rintro b t ⟨⟩
    exact holds
  · rintro e t ⟨⟩

theorem triple_raise (e : ε) : Triple (E e) (raise e : Eff σ ε α) Q E := by
  refine fun s holds => ⟨?_, ?_⟩
  · rintro b t ⟨⟩
  · rintro e t ⟨⟩
    exact holds

theorem triple_bind (first : Triple P m Q E) (second : ∀ a, Triple (Q a) (f a) R E) :
    Triple P (m >>= f) R E := by
  intro s holds
  have unfolded : (m >>= f) s = Eff.bind m f s := rfl
  rw [unfolded, Eff.bind]
  rcases ran : m s with ⟨_ | a, t⟩
  · refine ⟨?_, ?_⟩
    · rintro b u ⟨⟩
    · rintro e u ⟨⟩
      exact (first s holds).2 _ _ ran
  · exact second a t ((first s holds).1 a t ran)

theorem triple_consequence (triple : Triple P m Q E) (before : ∀ s, P' s → P s)
    (after : ∀ a s, Q a s → Q' a s) (raised : ∀ e s, E e s → E' e s) : Triple P' m Q' E' :=
  fun s holds => ⟨fun a t ran => after a t ((triple s (before s holds)).1 a t ran),
    fun e t ran => raised e t ((triple s (before s holds)).2 e t ran)⟩

theorem triple_exists {γ : Type} {P : γ → σ → Prop} (each : ∀ x, Triple (P x) m Q E) :
    Triple (fun s => ∃ x, P x s) m Q E :=
  fun s ⟨x, holds⟩ => each x s holds

theorem triple_fact {p : Prop} (given : p → Triple P m Q E) : Triple (fun s => p ∧ P s) m Q E :=
  fun s ⟨fact, holds⟩ => given fact s holds

theorem triple_modify {Q : Unit → σ → Prop} (g : σ → σ) :
    Triple (fun s => Q () (g s)) (modify g : Eff σ ε Unit) Q E := by
  refine fun s holds => ⟨?_, ?_⟩
  · rintro ⟨⟩ t ⟨⟩
    exact holds
  · rintro e t ⟨⟩

theorem triple_get {Q : σ → σ → Prop} : Triple (fun s => Q s s) (get : Eff σ ε σ) Q E := by
  refine fun s holds => ⟨?_, ?_⟩
  · rintro a t ⟨⟩
    exact holds
  · rintro e t ⟨⟩

theorem triple_ofExcept (result : Except ε α) :
    Triple P (ofExcept result : Eff σ ε α) (fun a s => result = .ok a ∧ P s)
      fun e s => result = .error e ∧ P s := by
  refine fun s holds => ⟨?_, ?_⟩
  · intro a t ran
    cases result <;> cases ran
    exact ⟨rfl, holds⟩
  · intro e t ran
    cases result <;> cases ran
    exact ⟨rfl, holds⟩

theorem triple_returning {a : α} (given : ∀ s, P s → Q a s) : Triple P (pure a : Eff σ ε α) Q E :=
  triple_consequence (triple_pure a) given (fun _ _ => id) fun _ _ => id

theorem triple_raising {e : ε} (given : ∀ s, P s → E e s) : Triple P (raise e : Eff σ ε α) Q E :=
  triple_consequence (triple_raise e) given (fun _ _ => id) fun _ _ => id

theorem triple_modifying {Q : Unit → σ → Prop} {g : σ → σ} (given : ∀ s, P s → Q () (g s)) :
    Triple P (modify g : Eff σ ε Unit) Q E :=
  triple_consequence (triple_modify g) given (fun _ _ => id) fun _ _ => id

/-- A program that reads the state goes on from the state it read. -/
theorem triple_reading {f : σ → Eff σ ε β} (each : ∀ now, P now → Triple (fun s => s = now) (f now) R E) :
    Triple P (get >>= f) R E :=
  fun s holds => each s holds s rfl

/-- A loop that moves an invariant on, item by item. -/
theorem triple_forEach {P : List α → σ → Prop} {E : ε → σ → Prop} {g : α → Eff σ ε Unit} {xs : List α}
    (each : ∀ before x after, xs = before ++ x :: after →
      Triple (P before) (g x) (fun _ => P (before ++ [x])) E) :
    Triple (P []) (forEach g xs) (fun _ => P xs) E := by
  have onward (before rest : List α) (split : xs = before ++ rest) :
      Triple (P before) (forEach g rest) (fun _ => P xs) E := by
    induction rest generalizing before with
    | nil =>
      rw [List.append_nil] at split
      rw [← split]
      exact triple_pure (Q := fun _ => P xs) ()
    | cons x rest ih =>
      have later : xs = (before ++ [x]) ++ rest := by rw [List.append_assoc, List.singleton_append, split]
      exact triple_bind (each before x rest split) fun _ => ih (before ++ [x]) later
  exact onward [] xs rfl

end Eff

end Sippycup.Machine
