import Sippycup.Python.Repr

/-! Field-name and sorting helpers the document validators share: sets of
names, `sorted` and `join` over mixed values with the exceptions they raise. -/
namespace Sippycup.Python

/-- Values that `<` can compare with each other share an order class. -/
def Value.orderClass : Value → Nat
  | .str _ => 0
  | .bool _ | .int _ | .float _ => 1
  | .none => 2
  | .list _ => 3
  | .dict _ => 4
  | .other kind _ => 5 + kind

def sortTexts (texts : List Text) : List Text := texts.insertionSort fun a b => a.le b = true

namespace Text

theorem le_trans {a b c : Text} (first : a.le b = true) (second : b.le c = true) : a.le c = true :=
  decide_eq_true (Preorder.le_trans _ _ _ (of_decide_eq_true first) (of_decide_eq_true second))

theorem le_total (a b : Text) : a.le b = true ∨ b.le a = true := by
  simp only [le, decide_eq_true_eq]
  exact LinearOrder.le_total a.codes b.codes

theorem le_antisymm {a b : Text} (first : a.le b = true) (second : b.le a = true) : a = b :=
  Text.ext (PartialOrder.le_antisymm _ _ (of_decide_eq_true first) (of_decide_eq_true second))

instance : Std.Total fun a b : Text => a.le b = true := ⟨le_total⟩

instance : IsTrans Text fun a b => a.le b = true := ⟨fun _ _ _ => le_trans⟩

instance : Std.Antisymm fun a b : Text => a.le b = true := ⟨fun _ _ => le_antisymm⟩

end Text

theorem sortTexts_eq_of_perm {xs ys : List Text} (perm : xs.Perm ys) : sortTexts xs = sortTexts ys := by
  refine List.Perm.eq_of_pairwise' (List.pairwise_insertionSort _ xs)
    (List.pairwise_insertionSort _ ys) ?_
  exact ((List.perm_insertionSort _ xs).trans perm).trans (List.perm_insertionSort _ ys).symm

/-- `", ".join(sorted(set(names)))` -/
def joinSorted (names : List Text) : String :=
  ", ".intercalate ((sortTexts names.dedup).map Text.render)

def Value.text? : Value → Option Text
  | .str t => some t
  | _ => Option.none

section
variable {ε : Type}

/-- `sorted` of a set of keys. Only an order among strings is ever observed:
whatever is sorted here is joined into a message, and joining raises on the rest. -/
def sortedKeys (keys : List Value) : Except (Raised ε) (List Value) :=
  match keys with
  | [] => .ok []
  | key :: rest =>
    if rest.all fun k => k.orderClass == key.orderClass then
      .ok (keys.insertionSort fun a b => ((a.text?.getD default).le (b.text?.getD default)) = true)
    else .error (.builtin .typeError)

@[grind =] def renderTexts : List Value → Except (Raised ε) (List String)
  | [] => .ok []
  | .str t :: rest => do return t.render :: (← renderTexts rest)
  | _ :: _ => .error (.builtin .typeError)

/-- `", ".join(values)` -/
def joinTexts (values : List Value) : Except (Raised ε) String := do
  return ", ".intercalate (← renderTexts values)

/-- `sorted(required - value.keys())`, unsorted. -/
def missingKeys (value : Dict) (required : List String) : List String :=
  required.filter fun name => !value.contains name

/-- `value.keys() - allowed` -/
def unknownKeys (value : Dict) (allowed : List String) : List Value :=
  value.keys.filter fun key => !allowed.any fun name => key.isText name

def joinNames (names : List String) : String :=
  ", ".intercalate ((sortTexts (names.map Text.ofString)).map Text.render)

/-- `value in {names}`: a set lookup hashes the value first. -/
def inSet (value : Value) (names : List String) : Except (Raised ε) Bool :=
  if value.hashable then .ok (names.any fun name => value.isText name)
  else .error (.builtin .typeError)

/-- Dict comprehension over known keys: reads each key in order, stopping at
the first exception. -/
@[grind =] def collect {κ α : Type} [DecidableEq κ] [Inhabited α] (read : κ → Except (Raised ε) α) :
    List κ → Except (Raised ε) (κ → α)
  | [] => .ok fun _ => default
  | key :: rest => do
    let value ← read key
    let others ← collect read rest
    return Function.update others key value

end

def isLower (code : Nat) : Bool := decide (97 ≤ code ∧ code ≤ 122)
def isDigit (code : Nat) : Bool := decide (48 ≤ code ∧ code ≤ 57)
def isNameCode (code : Nat) : Bool := isLower code || isDigit code || code == 45
def isHexCode (code : Nat) : Bool := isDigit code || decide (97 ≤ code ∧ code ≤ 102)

/-- A full match of `[a-z][a-z0-9-]{0,62}`. -/
def nameOk (text : Text) : Bool :=
  match text.codes with
  | [] => false
  | first :: _ => decide (text.length ≤ 63) && isLower first && text.codes.all isNameCode

/-- A full match of `[0-9a-f]{64}`. -/
def sha256Ok (text : Text) : Bool := decide (text.length = 64) && text.codes.all isHexCode

theorem bind_ok {ε α β : Type} {x : Except ε α} {f : α → Except ε β} {b : β} :
    (x >>= f) = .ok b ↔ ∃ a, x = .ok a ∧ f a = .ok b := by
  cases x <;> simp [bind, Except.bind]

@[simp] theorem ok_bind {ε α β : Type} (a : α) (f : α → Except ε β) : (.ok a >>= f) = f a := rfl

theorem pure_ok {ε α : Type} {a b : α} : (pure a : Except ε α) = .ok b ↔ a = b := by
  simp [pure, Except.pure]

theorem isOk_iff {ε α : Type} {x : Except ε α} : x.isOk = true ↔ ∃ a, x = .ok a := by
  cases x <;> simp [Except.isOk, Except.toBool]

/-- The call returns. -/
def Returns {ε α : Type} (result : Except ε α) : Prop := ∃ value, result = .ok value

theorem returns_bind {ε α β : Type} {first : Except ε α} {then_ : α → Except ε β} {holds : Prop}
    (later : ∀ value, first = .ok value → (Returns (then_ value) ↔ holds)) :
    Returns (first >>= then_) ↔ Returns first ∧ holds := by
  cases first with
  | error failure => simp [Returns, bind, Except.bind]
  | ok value =>
    rw [show (Except.ok value >>= then_) = then_ value from rfl, later value rfl]
    simp [Returns]

theorem returns_pure {ε α : Type} (value : α) : Returns (pure value : Except ε α) ↔ True :=
  ⟨fun _ => trivial, fun _ => ⟨value, rfl⟩⟩

theorem mapM_ok {α β ε : Type} {f : α → Except ε β} {xs : List α} {ys : List β}
    (ok : xs.mapM f = .ok ys) : List.Forall₂ (fun x y => f x = .ok y) xs ys := by
  induction xs generalizing ys with
  | nil =>
    cases ok
    exact .nil
  | cons x xs ih =>
    rw [List.mapM_cons] at ok
    obtain ⟨y, head, ok⟩ := bind_ok.1 ok
    obtain ⟨rest, tail, same⟩ := bind_ok.1 ok
    cases same
    exact .cons head (ih tail)

theorem collect_ok {ε κ α : Type} [DecidableEq κ] [Inhabited α]
    {read : κ → Except (Raised ε) α} {keys : List κ} {values : κ → α}
    (collected : collect read keys = .ok values) : ∀ key ∈ keys, read key = .ok (values key) := by
  induction keys generalizing values with
  | nil => simp
  | cons key rest ih =>
    obtain ⟨value, head, collected⟩ := bind_ok.1 collected
    obtain ⟨others, tail, same⟩ := bind_ok.1 collected
    obtain rfl := pure_ok.1 same
    intro k member
    by_cases first : k = key
    · subst first
      simpa only [Function.update_self] using head
    · rw [Function.update_of_ne first]
      exact ih tail k ((List.mem_cons.mp member).resolve_left first)

/-- No exception of the language escapes: the result is a value or an own error. -/
def OwnErrors {ε α : Type} (result : Except (Raised ε) α) : Prop :=
  ∀ kind, result ≠ .error (.builtin kind)

section
variable {ε α β κ : Type}

@[simp] theorem ownErrors_ok (a : α) : OwnErrors (.ok a : Except (Raised ε) α) := by
  intro kind
  simp

@[simp] theorem ownErrors_pure (a : α) : OwnErrors (pure a : Except (Raised ε) α) :=
  ownErrors_ok a

@[simp] theorem ownErrors_own (error : ε) : OwnErrors (.error (.own error) : Except (Raised ε) α) := by
  intro kind
  simp

@[simp] theorem ownErrors_builtin (kind : Builtin) :
    ¬ OwnErrors (.error (.builtin kind) : Except (Raised ε) α) := fun own => own kind rfl

theorem ownErrors_bind {x : Except (Raised ε) α} {f : α → Except (Raised ε) β} :
    OwnErrors (x >>= f) ↔ OwnErrors x ∧ ∀ a, x = .ok a → OwnErrors (f a) := by
  cases x <;> simp [OwnErrors, bind, Except.bind]

theorem ownErrors_ite {c : Prop} [Decidable c] {x y : Except (Raised ε) α} (first : OwnErrors x)
    (second : OwnErrors y) : OwnErrors (if c then x else y) := by
  split
  · exact first
  · exact second

theorem ownErrors_item {d : Dict} {key : Text} :
    OwnErrors (d.item key : Except (Raised ε) Value) ↔ d.contains key = true := by
  unfold Dict.item Dict.contains
  cases d.get? key <;> simp

theorem ownErrors_collect [DecidableEq κ] [Inhabited α] {read : κ → Except (Raised ε) α}
    {keys : List κ} (own : ∀ key ∈ keys, OwnErrors (read key)) : OwnErrors (collect read keys) := by
  induction keys with
  | nil => simp [collect]
  | cons key rest ih =>
    refine ownErrors_bind.2 ⟨own key List.mem_cons_self, fun value _ => ?_⟩
    refine ownErrors_bind.2 ⟨ih fun k member => own k (List.mem_cons_of_mem key member), ?_⟩
    simp

theorem ownErrors_joinTexts {values : List Value} :
    OwnErrors (joinTexts values : Except (Raised ε) String) ↔
      ∀ v ∈ values, v.text?.isSome = true := by
  unfold joinTexts
  simp only [ownErrors_bind, ownErrors_pure, implies_true, and_true]
  induction values with
  | nil => simp [renderTexts]
  | cons v rest ih =>
    cases v with
    | str t =>
      simp only [renderTexts, ownErrors_bind, ownErrors_pure, implies_true, and_true, ih]
      simp [Value.text?]
    | _ => simp [renderTexts, Value.text?]

end
end Sippycup.Python

/-! Dict displays: items under a fixed list of names. -/
namespace Sippycup.Python

namespace Dict

/-- Items of a dict display: distinct names, each with its value. -/
def Display (d : Dict) (names : List String) : Prop :=
  d.map Prod.fst = names.map (fun name => .str (Text.ofString name)) ∧ names.Nodup

theorem Display.get? {d : Dict} {names : List String} (display : d.Display names) {key v : Value}
    (member : (key, v) ∈ d) : ∃ name ∈ names, key = .str (Text.ofString name) ∧ d.get? name = some v := by
  obtain ⟨keys, distinct⟩ := display
  induction d generalizing names with
  | nil => cases member
  | cons x rest ih =>
    cases names with
    | nil => cases keys
    | cons first others =>
      obtain ⟨known, held⟩ := x
      simp only [List.map_cons, List.cons.injEq] at keys
      obtain ⟨rfl, keys⟩ := keys
      obtain ⟨fresh, distinct⟩ := List.nodup_cons.mp distinct
      rcases List.mem_cons.mp member with same | later
      · cases same
        exact ⟨first, List.mem_cons_self, rfl, by simp⟩
      · obtain ⟨name, known, rfl, found⟩ := ih later keys distinct
        refine ⟨name, List.mem_cons_of_mem _ known, rfl, ?_⟩
        rw [get?_cons_str, if_neg, found]
        intro same
        exact fresh (Text.ofString_inj.mp same ▸ known)

theorem Display.get?_name {d : Dict} {names : List String} (display : d.Display names) {name : String}
    {v : Value} (member : Dict.entry name v ∈ d) : d.get? name = some v := by
  obtain ⟨found, _, key, held⟩ := display.get? member
  rw [Value.str.injEq, Text.ofString_inj] at key
  rw [key, held]

theorem Display.contains {d : Dict} {names : List String} (display : d.Display names) {name : String}
    (known : name ∈ names) : d.contains name = true := by
  have member : Value.str (Text.ofString name) ∈ d.map Prod.fst :=
    display.1 ▸ List.mem_map_of_mem known
  obtain ⟨x, inside, same⟩ := List.mem_map.mp member
  obtain ⟨found, _, key, held⟩ := display.get? (show (x.1, x.2) ∈ d from inside)
  rw [same, Value.str.injEq, Text.ofString_inj] at key
  rw [Dict.contains, key, held]
  rfl

theorem Display.missingKeys {d : Dict} {names : List String} (display : d.Display names) :
    Python.missingKeys d names = [] := by
  rw [Python.missingKeys, List.filter_eq_nil_iff]
  intro name known
  rw [display.contains known, Bool.not_true]
  exact Bool.false_ne_true

theorem Display.unknownKeys {d : Dict} {names : List String} (display : d.Display names) :
    Python.unknownKeys d names = [] := by
  rw [Python.unknownKeys, Dict.keys, display.1, List.filter_eq_nil_iff, List.forall_mem_map]
  intro name known
  have named : (names.any fun other => (Value.str (Text.ofString name)).isText other) = true :=
    List.any_eq_true.mpr ⟨name, known, by simp⟩
  rw [named, Bool.not_true]
  exact Bool.false_ne_true

end Dict

namespace Value

theorem eqEntries_of {xs ys : Dict}
    (each : ∀ x ∈ xs, ∃ t, x.1 = .str t ∧ ∃ w, Dict.get? ys t = some w ∧ eq x.2 w = true) :
    eqEntries xs ys = true := by
  induction xs with
  | nil => rfl
  | cons x rest ih =>
    obtain ⟨k, v⟩ := x
    obtain ⟨t, rfl, w, found, same⟩ := each _ List.mem_cons_self
    rw [eqEntries, ih fun y member => each y (List.mem_cons_of_mem _ member), Bool.and_true]
    have lookup := Dict.find?_eq_get? ys t
    rw [found] at lookup
    cases hit : ys.find? (fun e => eq (.str t) e.1) with
    | none => rw [hit] at lookup; cases lookup
    | some e =>
      rw [hit, Option.map_some, Option.some.injEq] at lookup
      subst lookup
      exact same

/-- A dict display equals itself when its values do. -/
theorem eq_display {d : Dict} {names : List String} (display : d.Display names)
    (each : ∀ x ∈ d, eq x.2 x.2 = true) : eq (.dict d) (.dict d) = true := by
  rw [eq, decide_eq_true rfl, Bool.true_and]
  refine eqEntries_of fun x member => ?_
  obtain ⟨name, _, key, found⟩ := display.get? (show (x.1, x.2) ∈ d from member)
  exact ⟨name, key, x.2, found, each x member⟩

theorem eq_list_self {items : List Value} (each : ∀ v ∈ items, eq v v = true) :
    eq (.list items) (.list items) = true :=
  eq_list.mpr ⟨items, rfl, List.forall₂_same.mpr each⟩

theorem eq_int_self (n : Int) : eq (.int n) (.int n) = true := by
  simp [eq, scalarEq, number?, Number.eq]

theorem eq_bool_self (b : Bool) : eq (.bool b) (.bool b) = true := by
  cases b <;> rfl

theorem eq_str_self (t : Text) : eq (.str t) (.str t) = true := by simp

end Value
end Sippycup.Python
