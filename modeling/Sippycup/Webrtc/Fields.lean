import Sippycup.Python.JsonValue

/-! Strict readers that the evidence oracles share. Each oracle raises an error
of its own with the path of the field in its text; a number that was read keeps
the bounds it was read with. -/
namespace Sippycup.Webrtc
open Sippycup.Python

/-- Errors an oracle makes from their text. -/
class Rejects (ε : Type) where
  error : String → ε

section readers
variable {ε : Type} [Rejects ε]

def reject {α : Type} (message : String) : Except (Raised ε) α :=
  .error (.own (Rejects.error message))

def require (holds : Bool) (message : String) : Except (Raised ε) Unit :=
  if holds then .ok () else reject message

def readObject (value : JsonValue) (path : String) : Except (Raised ε) JsonDict :=
  match value with
  | .dict entries => .ok entries
  | _ => reject s!"{path} must be an object"

def readArray (value : JsonValue) (path : String) : Except (Raised ε) (List JsonValue) :=
  match value with
  | .list items => .ok items
  | _ => reject s!"{path} must be an array"

/-- `_exact` -/
def exactKeys (value : JsonDict) (path : String) (required : List Text) : Except (Raised ε) Unit := do
  let missing := required.filter fun key => !value.contains key
  let extra := value.keys.filter fun key => !required.contains key
  require missing.isEmpty s!"{path} is missing: {joinSorted missing}"
  require extra.isEmpty s!"{path} has unknown fields: {joinSorted extra}"

def readInteger (value : JsonValue) (path : String) (minimum maximum : Nat) :
    Except (Raised ε) {n : Nat // minimum ≤ n ∧ n ≤ maximum} :=
  match value with
  | .int (.ofNat n) =>
    if within : minimum ≤ n ∧ n ≤ maximum then .ok ⟨n, within⟩
    else reject s!"{path} must be between {minimum} and {maximum}"
  | .int _ => reject s!"{path} must be between {minimum} and {maximum}"
  | _ => reject s!"{path} must be an integer"

def readBoolean (value : JsonValue) (path : String) : Except (Raised ε) Bool :=
  match value with
  | .bool b => .ok b
  | _ => reject s!"{path} must be boolean"

/-- The member of an enumeration with a name that is allowed. -/
def readEnum {κ : Type} (name : κ → Text) (allowed : List κ) (value : JsonValue) (path : String) :
    Except (Raised ε) κ :=
  match allowed.find? fun member => value.isText (name member) with
  | some member => .ok member
  | none => reject s!"{path} must be one of: {joinSorted (allowed.map name)}"

/-- Letters and digits, and the marks of a token. -/
def isTokenCode (code : Nat) : Bool :=
  isLower code || decide (65 ≤ code ∧ code ≤ 90) || isDigit code ||
    [95, 46, 58, 43, 47, 45].contains code

def tokenOk (text : Text) : Bool :=
  decide (1 ≤ text.length ∧ text.length ≤ 128) && text.codes.all isTokenCode

def readToken (value : JsonValue) (path : String) : Except (Raised ε) Text :=
  match value with
  | .str t => if tokenOk t then .ok t else reject s!"{path} must be a bounded token"
  | _ => reject s!"{path} must be a bounded token"

def readBounded (value : JsonValue) (path : String) (maximum : Nat) : Except (Raised ε) Text :=
  match value with
  | .str t =>
    if 1 ≤ t.length ∧ t.length ≤ maximum then .ok t else reject s!"{path} must be a bounded string"
  | _ => reject s!"{path} must be a bounded string"

def readDigest (value : JsonValue) (path : String) : Except (Raised ε) Text :=
  match value with
  | .str t => if sha256Ok t then .ok t else reject s!"{path} must be a SHA-256 digest"
  | _ => reject s!"{path} must be a SHA-256 digest"

/-- Reads the items of an array in turn, each under its indexed path. -/
@[grind =] def readItems {α : Type} (read : JsonValue → String → Except (Raised ε) α) (path : String) :
    Nat → List JsonValue → Except (Raised ε) (List α)
  | _, [] => .ok []
  | index, item :: rest => do
    let first ← read item s!"{path}[{index}]"
    return first :: (← readItems read path (index + 1) rest)

/-- The items of `_unique_tokens`, whose count each oracle bounds in its own way. -/
def readTokens (items : List JsonValue) (path : String) : Except (Raised ε) (List Text) := do
  let tokens ← readItems readToken path 0 items
  require (decide tokens.Nodup) s!"{path} must contain unique values"
  return tokens

def named? {κ : Type} (name : κ → Text) (all : List κ) (text : Text) : Option κ :=
  all.find? fun member => name member = text

/-- Tokens of a set of names, each of which must be supported. -/
def readNamed {κ : Type} (name : κ → Text) (all : List κ) (tokens : List Text) (message : String) :
    Except (Raised ε) (List κ) :=
  match tokens.mapM (named? name all) with
  | some (first :: rest) => .ok (first :: rest)
  | _ => reject message

end readers

section
variable {ε α : Type} [Rejects ε] {path message : String}

@[simp] theorem not_reject {a : α} : (reject message : Except (Raised ε) α) ≠ .ok a := by
  simp [reject]

@[simp] theorem require_ok {holds : Bool} {u : Unit} :
    (require holds message : Except (Raised ε) Unit) = .ok u ↔ holds = true := by
  cases holds <;> simp [require]

@[simp] theorem readObject_ok {value : JsonValue} {d : JsonDict} :
    (readObject value path : Except (Raised ε) JsonDict) = .ok d ↔ value = .dict d := by
  cases value <;> simp [readObject]

@[simp] theorem readArray_ok {value : JsonValue} {items : List JsonValue} :
    (readArray value path : Except (Raised ε) (List JsonValue)) = .ok items ↔ value = .list items := by
  cases value <;> simp [readArray]

omit [Rejects ε] in
theorem readItems_forall₂ {read : JsonValue → String → Except (Raised ε) α} {index : Nat}
    {items : List JsonValue} {results : List α} (ok : readItems read path index items = .ok results) :
    List.Forall₂ (fun item result => ∃ at_, read item at_ = .ok result) items results := by
  induction items generalizing index results with
  | nil =>
    cases ok
    exact .nil
  | cons item rest ih =>
    obtain ⟨first, head, ok⟩ := bind_ok.mp ok
    obtain ⟨others, tail, same⟩ := bind_ok.mp ok
    obtain rfl := pure_ok.mp same
    exact .cons ⟨_, head⟩ (ih tail)

end

theorem toOption_map {ε α β : Type} {result : Except ε α} {f : α → β} {b : β}
    (mapped : result.toOption.map f = some b) : ∃ a, result = .ok a ∧ f a = b := by
  cases result with
  | error e => cases mapped
  | ok a => exact ⟨a, rfl, Option.some.inj mapped⟩

end Sippycup.Webrtc
