import Sippycup.Python.Decimal

/-! JSON documents as `json.loads` gives them, and their canonical text:
`json.dumps(value, sort_keys=True, separators=(",", ":"))`. A dict is its list
of items; a lookup takes the first item with the key. Integers beyond the limit
of the interpreter's conversions to text are written like any other. -/
namespace Sippycup.Python
open Sippycup.Ip

inductive JsonValue where
  | null
  | bool (b : Bool)
  | int (n : Int)
  | float (x : PyFloat)
  | str (t : Text)
  | list (items : List JsonValue)
  | dict (entries : List (Text × JsonValue))
  deriving Inhabited

abbrev JsonDict := List (Text × JsonValue)

/-- `str(n)` -/
def intCodes (n : Int) : Codes := signCodes (decide (n < 0)) ++ renderNumeral 10 n.natAbs

def PyFloat.codes : PyFloat → Codes
  | .finite x => x.repr
  | .infinite negative => signCodes negative ++ Json.ascii "Infinity"
  | .nan => Json.ascii "NaN"

namespace JsonValue

def hashable : JsonValue → Bool
  | .list _ | .dict _ => false
  | _ => true

def isText (value : JsonValue) (text : Text) : Bool :=
  match value with
  | .str t => decide (t = text)
  | _ => false

def text? : JsonValue → Option Text
  | .str t => some t
  | _ => none

def truthy : JsonValue → Bool
  | .null => false
  | .bool b => b
  | .int n => decide (n ≠ 0)
  | .float (.finite x) => decide (x.digits ≠ 0)
  | .float _ => true
  | .str t => !t.codes.isEmpty
  | .list items => !items.isEmpty
  | .dict entries => !entries.isEmpty

/-- `value == b` -/
def isBool (value : JsonValue) (b : Bool) : Bool :=
  match value with
  | .bool c => b == c
  | .int n => decide (n = if b then 1 else 0)
  | .float (.finite x) =>
    if b then decide (x.negative = false ∧ x.digits = 1 ∧ x.exponent = 0) else decide (x.digits = 0)
  | _ => false

@[simp] theorem isText_str (t u : Text) : (JsonValue.str t).isText u = decide (t = u) := rfl

theorem isText_iff {v : JsonValue} {t : Text} : v.isText t = true ↔ v = .str t := by
  cases v <;> simp [isText]

def sortEntries (entries : JsonDict) : JsonDict :=
  entries.insertionSort fun a b => a.1.le b.1 = true

mutual
/-- The items of every dict in the order of their keys. -/
@[grind =] def sortKeys : JsonValue → JsonValue
  | .list items => .list (sortItems items)
  | .dict entries => .dict (sortEntries (sortEach entries))
  | value => value

@[grind =] def sortItems : List JsonValue → List JsonValue
  | [] => []
  | item :: rest => sortKeys item :: sortItems rest

@[grind =] def sortEach : List (Text × JsonValue) → List (Text × JsonValue)
  | [] => []
  | (key, value) :: rest => (key, sortKeys value) :: sortEach rest
end

mutual
@[grind =] def dumps : JsonValue → Codes
  | .null => Json.ascii "null"
  | .bool b => Json.encodeBool b
  | .int n => intCodes n
  | .float x => x.codes
  | .str t => Json.encodeText t
  | .list items => 91 :: Json.comma.intercalate (dumpItems items) ++ [93]
  | .dict entries => 123 :: Json.comma.intercalate (dumpEntries entries) ++ [125]

@[grind =] def dumpItems : List JsonValue → List Codes
  | [] => []
  | item :: rest => dumps item :: dumpItems rest

@[grind =] def dumpEntries : List (Text × JsonValue) → List Codes
  | [] => []
  | (key, value) :: rest => (Json.encodeText key ++ 58 :: dumps value) :: dumpEntries rest
end

def canonical (value : JsonValue) : Codes := dumps (sortKeys value)

def commaSpace : Codes := [44, 32]

mutual
/-- `repr(value)` -/
@[grind =] def repr : JsonValue → Codes
  | .null => Json.ascii "None"
  | .bool b => Json.ascii (if b then "True" else "False")
  | .int n => intCodes n
  | .float (.finite x) => x.repr
  | .float (.infinite negative) => signCodes negative ++ Json.ascii "inf"
  | .float .nan => Json.ascii "nan"
  | .str t => Json.ascii t.repr
  | .list items => 91 :: commaSpace.intercalate (reprItems items) ++ [93]
  | .dict entries => 123 :: commaSpace.intercalate (reprEntries entries) ++ [125]

@[grind =] def reprItems : List JsonValue → List Codes
  | [] => []
  | item :: rest => repr item :: reprItems rest

@[grind =] def reprEntries : List (Text × JsonValue) → List Codes
  | [] => []
  | (key, value) :: rest =>
    (Json.ascii key.repr ++ [58, 32] ++ repr value) :: reprEntries rest
end

/-- `str(value)` -/
def toStr : JsonValue → Text
  | .str t => t
  | value => ⟨repr value⟩

end JsonValue

namespace JsonDict

@[grind =] def get? : JsonDict → Text → Option JsonValue
  | [], _ => none
  | (name, value) :: rest, key => if name = key then some value else get? rest key

/-- `d.get(key)` -/
def find (d : JsonDict) (key : Text) : JsonValue := (d.get? key).getD .null

def contains (d : JsonDict) (key : Text) : Bool := (d.get? key).isSome

/-- `d[key]` -/
def item {ε : Type} (d : JsonDict) (key : Text) : Except (Raised ε) JsonValue :=
  match d.get? key with
  | some value => .ok value
  | none => .error (.builtin .keyError)

def keys (d : JsonDict) : List Text := d.map Prod.fst

/-- Item of a dict display. -/
def entry (name : String) (value : JsonValue) : Text × JsonValue := (name, value)

@[simp] theorem get?_nil (key : Text) : get? [] key = none := rfl

@[simp] theorem get?_cons (name key : Text) (value : JsonValue) (rest : JsonDict) :
    get? ((name, value) :: rest) key = if name = key then some value else get? rest key := rfl

@[simp] theorem get?_entry (name key : String) (value : JsonValue) (rest : JsonDict) :
    get? (entry name value :: rest) key = if name = key then some value else get? rest key := by
  simp [entry]

theorem get?_append (xs ys : JsonDict) (key : Text) :
    get? (xs ++ ys) key = (get? xs key).or (get? ys key) := by
  induction xs with
  | nil => rfl
  | cons x rest ih =>
    obtain ⟨name, value⟩ := x
    rw [List.cons_append, get?_cons, get?_cons, ih]
    split <;> rfl

theorem mem_keys_of_get? {d : JsonDict} {key : Text} {value : JsonValue}
    (found : d.get? key = some value) : key ∈ d.keys := by
  induction d with
  | nil => cases found
  | cons x rest ih =>
    obtain ⟨name, other⟩ := x
    rw [get?_cons] at found
    split at found
    · rename_i same
      exact same ▸ List.mem_cons_self ..
    · exact List.mem_cons_of_mem _ (ih found)

theorem contains_iff {d : JsonDict} {key : Text} : d.contains key = true ↔ key ∈ d.keys := by
  induction d with
  | nil => simp [contains, keys]
  | cons x rest ih =>
    obtain ⟨name, other⟩ := x
    rw [contains] at ih
    rw [contains, get?_cons, keys, List.map_cons, List.mem_cons]
    split
    · rename_i same
      simp [same]
    · rename_i other
      rw [ih, or_iff_right fun same => other same.symm, keys]

theorem item_ok {ε : Type} {d : JsonDict} {key : Text} {value : JsonValue} :
    (d.item key : Except (Raised ε) JsonValue) = .ok value ↔ d.get? key = some value := by
  unfold item
  cases d.get? key <;> simp

end JsonDict

/-- `value in {names}`: a set lookup hashes the value first. -/
def JsonValue.inSet {ε : Type} (value : JsonValue) (names : List Text) : Except (Raised ε) Bool :=
  if value.hashable then .ok (names.any fun name => value.isText name)
  else .error (.builtin .typeError)

example : Text.mk (JsonValue.dict [("b", .list [.bool true, .null]), ("a", .int (-5))]).canonical =
    "\x7b\"a\":-5,\"b\":[true,null]\x7d" := by decide +kernel

end Sippycup.Python
