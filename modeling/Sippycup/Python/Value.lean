import Sippycup.Python.Number

/-! Python values as a document loader or a caller can build them: the JSON
types, and for YAML any other immutable scalar (a timestamp, a byte string).
A dict is its list of items; a lookup takes the first item with the key. -/
namespace Sippycup.Python

inductive Value where
  | none
  | bool (b : Bool)
  | int (n : Int)
  | float (x : Double)
  | str (t : Text)
  | list (items : List Value)
  | dict (entries : List (Value × Value))
  | other (kind : Nat) (content : Text)
  deriving Inhabited

abbrev Dict := List (Value × Value)

/-- Exceptions of the language and of its standard library. -/
inductive Builtin where
  | typeError | keyError | indexError | valueError | overflowError | recursionError
  | unicodeEncodeError | attributeError | arithmeticError
  deriving DecidableEq

/-- What a call can raise: the module's own error, or a builtin exception. -/
inductive Raised (ε : Type) where
  | own (error : ε)
  | builtin (kind : Builtin)
  deriving DecidableEq

namespace Value

/-- Numeric value; a `bool` is the integer 0 or 1. -/
def number? : Value → Option Number
  | .bool b => some (.int (if b then 1 else 0))
  | .int n => some (.int n)
  | .float x => some (.float x)
  | _ => Option.none

def scalarEq (a b : Value) : Bool :=
  match a.number?, b.number? with
  | some m, some n => m.eq n
  | _, _ => false

mutual
/-- Python `==`: numbers by value across their types, dicts without order. -/
@[grind =] def eq : Value → Value → Bool
  | .none, b => match b with | .none => true | _ => false
  | .bool a, b => scalarEq (.bool a) b
  | .int a, b => scalarEq (.int a) b
  | .float a, b => scalarEq (.float a) b
  | .str a, b => match b with | .str b => decide (a = b) | _ => false
  | .list xs, b => match b with | .list ys => eqItems xs ys | _ => false
  | .dict xs, b => match b with
    | .dict ys => decide (xs.length = ys.length) && eqEntries xs ys
    | _ => false
  | .other k a, b => match b with | .other l b => decide (k = l) && decide (a = b) | _ => false

@[grind =] def eqItems : List Value → List Value → Bool
  | [], ys => ys.isEmpty
  | x :: xs, ys => match ys with
    | [] => false
    | y :: ys => eq x y && eqItems xs ys

@[grind =] def eqEntries : List (Value × Value) → List (Value × Value) → Bool
  | [], _ => true
  | (k, v) :: xs, ys =>
    (match ys.find? (fun entry => eq k entry.1) with
      | some entry => eq v entry.2
      | Option.none => false) && eqEntries xs ys
end

example : eq (.dict [(.int 1, .list [.none])]) (.dict [(.bool true, .list [.none])]) = true := by
  simp [eq, eqItems, eqEntries, scalarEq, number?, Number.eq]

/-- `value in items` for a sequence. -/
def isIn (value : Value) (items : List Value) : Bool := items.any fun item => eq item value

def hashable : Value → Bool
  | .list _ | .dict _ => false
  | _ => true

def isText (value : Value) (text : Text) : Bool :=
  match value with
  | .str t => decide (t = text)
  | _ => false

def truthy : Value → Bool
  | .none => false
  | .bool b => b
  | .int n => decide (n ≠ 0)
  | .float x => decide (x ≠ .finite 0)
  | .str t => !t.codes.isEmpty
  | .list items => !items.isEmpty
  | .dict entries => !entries.isEmpty
  | .other _ _ => true

def isFloat : Value → Bool
  | .float _ => true
  | _ => false

@[simp] theorem isText_str (t u : Text) : (Value.str t).isText u = decide (t = u) := rfl

@[simp] theorem eq_str (t : Text) (v : Value) : eq (.str t) v = v.isText t := by
  cases v <;> simp [eq, isText, eq_comm]

theorem isText_iff {v : Value} {t : Text} : v.isText t = true ↔ v = .str t := by
  cases v <;> simp [isText]

end Value

namespace Dict

@[grind =] def get? : Dict → Text → Option Value
  | [], _ => none
  | (k, v) :: rest, key => if k.isText key then some v else get? rest key

def getD (d : Dict) (key : Text) (default : Value) : Value := (d.get? key).getD default

def contains (d : Dict) (key : Text) : Bool := (d.get? key).isSome

/-- `d[key]` -/
def item {ε : Type} (d : Dict) (key : Text) : Except (Raised ε) Value :=
  match d.get? key with
  | some v => .ok v
  | none => .error (.builtin .keyError)

def keys (d : Dict) : List Value := d.map Prod.fst

@[simp] theorem get?_nil (key : Text) : get? [] key = none := rfl

@[simp] theorem get?_cons_str (name key : Text) (v : Value) (rest : Dict) :
    get? ((.str name, v) :: rest) key = if name = key then some v else get? rest key := by
  simp [get?]

theorem item_ok {ε : Type} {d : Dict} {key : Text} {v : Value} :
    (d.item key : Except (Raised ε) Value) = .ok v ↔ d.get? key = some v := by
  unfold item
  cases d.get? key <;> simp

theorem item_of_contains {ε : Type} {d : Dict} {key : Text} (present : d.contains key = true) :
    (d.item key : Except (Raised ε) Value) = .ok (d.getD key .none) := by
  unfold contains at present
  unfold item getD
  cases found : d.get? key
  · simp [found] at present
  · rfl

/-- Item of a `str`-keyed dict display. -/
def entry (name : String) (v : Value) : Value × Value := (.str name, v)

@[simp] theorem get?_entry (name key : String) (v : Value) (rest : Dict) :
    get? (entry name v :: rest) key = if name = key then some v else get? rest key := by
  simp [entry]

theorem find?_eq_get? (d : Dict) (key : Text) :
    (d.find? fun e => Value.eq (.str key) e.1).map Prod.snd = d.get? key := by
  induction d with
  | nil => rfl
  | cons e rest ih =>
    simp only [List.find?_cons, Value.eq_str, get?] at ih ⊢
    cases e.1.isText key
    · simpa only [Bool.false_eq_true, if_false] using ih
    · rfl

end Dict

namespace Value

theorem eqEntries_get? {xs ys : Dict} {key : Text} {v : Value}
    (same : eqEntries xs ys = true) (found : Dict.get? xs key = some v) :
    ∃ w, Dict.get? ys key = some w ∧ eq v w = true := by
  induction xs with
  | nil => cases found
  | cons e rest ih =>
    obtain ⟨k, u⟩ := e
    simp only [eqEntries, Bool.and_eq_true] at same
    simp only [Dict.get?] at found
    split at found
    · rename_i named
      cases Option.some.inj found
      obtain rfl := isText_iff.1 named
      have lookup := Dict.find?_eq_get? ys key
      cases hit : ys.find? (fun e => eq (.str key) e.1) with
      | none => simp only [hit, Bool.false_eq_true, false_and] at same
      | some e =>
        simp only [hit, Option.map_some] at lookup same
        exact ⟨e.2, lookup.symm, same.1⟩
    · exact ih same.2 found

/-- A dict equals only dicts that agree with it at every key it has. -/
theorem eq_dict {xs : Dict} {v : Value} (same : eq (.dict xs) v = true) :
    ∃ ys : Dict, v = .dict ys ∧
      ∀ key u, Dict.get? xs key = some u → ∃ w, Dict.get? ys key = some w ∧ eq u w = true := by
  cases v with
  | dict ys =>
    simp only [eq, Bool.and_eq_true] at same
    exact ⟨ys, rfl, fun key u found => eqEntries_get? same.2 found⟩
  | _ => simp [eq] at same

theorem eqItems_iff {xs ys : List Value} :
    eqItems xs ys = true ↔ List.Forall₂ (fun x y => eq x y = true) xs ys := by
  induction xs generalizing ys with
  | nil => cases ys <;> simp [eqItems]
  | cons x xs ih => cases ys <;> simp [eqItems, ih]

theorem eq_list {xs : List Value} {v : Value} :
    eq (.list xs) v = true ↔
      ∃ ys, v = .list ys ∧ List.Forall₂ (fun x y => eq x y = true) xs ys := by
  cases v <;> simp [eq, eqItems_iff]

theorem eq_int {n : Int} {v : Value} :
    eq (.int n) v = true ↔ ∃ m, v.number? = some m ∧ (Number.int n).eq m = true := by
  simp only [eq, scalarEq, number?]
  split <;> simp_all

end Value
end Sippycup.Python
