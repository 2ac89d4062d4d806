import Sippycup.Python.JsonEq
import Sippycup.Python.JsonText

/-! A JSON document written and read back. The reader joins an escaped pair of
surrogates into the code point it stands for, in values and in keys; of equal
keys the last one stays. Documents are the same when their texts are. -/
namespace Sippycup.Python
open Sippycup.Ip

def isHigh (code : Nat) : Bool := decide (0xD800 ≤ code ∧ code ≤ 0xDBFF)
def isLow (code : Nat) : Bool := decide (0xDC00 ≤ code ∧ code ≤ 0xDFFF)

def joinPair (high low : Nat) : Nat := 0x10000 + (high - 0xD800) * 0x400 + (low - 0xDC00)

@[grind =] def rejoin : Codes → Codes
  | high :: low :: rest =>
    if isHigh high && isLow low then joinPair high low :: rejoin rest else high :: rejoin (low :: rest)
  | codes => codes

/-- `json.loads(json.dumps(t))` -/
def Text.reread (t : Text) : Text := ⟨rejoin t.codes⟩

theorem pair_bounds {high low : Nat} (isPair : (isHigh high && isLow low) = true) :
    (0xD800 ≤ high ∧ high ≤ 0xDBFF) ∧ 0xDC00 ≤ low ∧ low ≤ 0xDFFF := by
  rw [Bool.and_eq_true] at isPair
  exact ⟨of_decide_eq_true isPair.1, of_decide_eq_true isPair.2⟩

theorem joinPair_ge (high low : Nat) : 0x10000 ≤ joinPair high low := by
  unfold joinPair
  omega

theorem codeUnits_small {code : Nat} (small : code < 0x10000) : codeUnits code = [code] := by
  rw [codeUnits, if_pos small]

/-- A code point that is no surrogate. -/
def isScalar (code : Nat) : Prop := code < 0xD800 ∨ (0xE000 ≤ code ∧ code < 0x110000)

/-- Text without surrogates. -/
def Text.Scalars (t : Text) : Prop := ∀ code ∈ t.codes, isScalar code

instance (code : Nat) : Decidable (isScalar code) := inferInstanceAs (Decidable (_ ∨ _))

instance (t : Text) : Decidable t.Scalars := inferInstanceAs (Decidable (∀ code ∈ t.codes, isScalar code))

theorem rejoin_scalars {codes : Codes} (scalars : ∀ code ∈ codes, isScalar code) : rejoin codes = codes := by
  fun_induction rejoin codes with
  | case1 high low rest isPair ih =>
    obtain ⟨bounds, _⟩ := pair_bounds isPair
    rcases scalars high List.mem_cons_self with below | above
    · omega
    · omega
  | case2 high low rest _ ih => rw [ih fun code member => scalars code (List.mem_cons_of_mem _ member)]
  | case3 => rfl

theorem codeUnits_large {code : Nat} (large : 0x10000 ≤ code) :
    codeUnits code =
      [(0xD800 + (code - 0x10000) / 0x400) % 0x10000, 0xDC00 + (code - 0x10000) % 0x400] := by
  rw [codeUnits, if_neg (Nat.not_lt.2 large)]

/-- A code point that is no high surrogate. -/
def isUnpaired (code : Nat) : Prop := isHigh code = false ∧ code < 0x110000

theorem isScalar.unpaired {code : Nat} (scalar : isScalar code) : isUnpaired code := by
  unfold isScalar at scalar
  exact ⟨decide_eq_false (by omega), by omega⟩

/-- The units of such a code point are told apart from those of any other. -/
theorem codeUnits_split {c d : Nat} {xs ys : Codes} (left : isUnpaired c) (right : isUnpaired d)
    (same : codeUnits c ++ xs = codeUnits d ++ ys) : c = d ∧ xs = ys := by
  obtain ⟨plainC, boundC⟩ := left
  obtain ⟨plainD, boundD⟩ := right
  have plainC := of_decide_eq_false plainC
  have plainD := of_decide_eq_false plainD
  rcases Nat.lt_or_ge c 0x10000 with smallC | largeC
  · rcases Nat.lt_or_ge d 0x10000 with smallD | largeD
    · rw [codeUnits_small smallC, codeUnits_small smallD] at same
      simpa only [List.singleton_append, List.cons.injEq] using same
    · rw [codeUnits_small smallC, codeUnits_large largeD] at same
      have first := (List.cons.inj same).1
      omega
  · rcases Nat.lt_or_ge d 0x10000 with smallD | largeD
    · rw [codeUnits_large largeC, codeUnits_small smallD] at same
      have first := (List.cons.inj same).1
      omega
    · rw [codeUnits_large largeC, codeUnits_large largeD] at same
      obtain ⟨first, tail⟩ := List.cons.inj same
      obtain ⟨second, rest⟩ := List.cons.inj tail
      exact ⟨by omega, rest⟩

theorem codeUnits_ne_nil (code : Nat) : codeUnits code ≠ [] := by
  unfold codeUnits
  split <;> simp

theorem unpaired_injective {xs ys : Codes} (left : ∀ code ∈ xs, isUnpaired code)
    (right : ∀ code ∈ ys, isUnpaired code) (same : xs.flatMap codeUnits = ys.flatMap codeUnits) :
    xs = ys := by
  induction xs generalizing ys with
  | nil =>
    cases ys with
    | nil => rfl
    | cons y ys =>
      rw [List.flatMap_nil, List.flatMap_cons] at same
      exact absurd (List.append_eq_nil_iff.mp same.symm).1 (codeUnits_ne_nil y)
  | cons x xs ih =>
    cases ys with
    | nil =>
      rw [List.flatMap_nil, List.flatMap_cons] at same
      exact absurd (List.append_eq_nil_iff.mp same).1 (codeUnits_ne_nil x)
    | cons y ys =>
      rw [List.flatMap_cons, List.flatMap_cons] at same
      obtain ⟨rfl, rest⟩ := codeUnits_split (left x List.mem_cons_self) (right y List.mem_cons_self) same
      rw [ih (fun code member => left code (List.mem_cons_of_mem _ member))
        (fun code member => right code (List.mem_cons_of_mem _ member)) rest]

theorem scalars_injective {xs ys : Codes} (left : ∀ code ∈ xs, isScalar code)
    (right : ∀ code ∈ ys, isScalar code) (same : xs.flatMap codeUnits = ys.flatMap codeUnits) : xs = ys :=
  unpaired_injective (fun code member => (left code member).unpaired)
    (fun code member => (right code member).unpaired) same

namespace JsonDict

/-- Of the items with one key the last stays. -/
@[grind =] def lastOf : JsonDict → JsonDict
  | [] => []
  | x :: rest => if JsonDict.contains rest x.1 then lastOf rest else x :: lastOf rest

theorem lastOf_nodup {entries : JsonDict} (distinct : entries.keys.Nodup) : lastOf entries = entries := by
  induction entries with
  | nil => rfl
  | cons x rest ih =>
    obtain ⟨fresh, distinct⟩ := List.nodup_cons.mp distinct
    have absent : ¬ JsonDict.contains rest x.1 = true := fun present => fresh (contains_iff.mp present)
    rw [lastOf, if_neg absent, ih distinct]

theorem keys_lastOf {entries : JsonDict} {key : Text} (member : key ∈ (lastOf entries).keys) :
    key ∈ entries.keys := by
  induction entries with
  | nil => exact member
  | cons x rest ih =>
    rw [lastOf] at member
    split at member
    · exact List.mem_cons_of_mem _ (ih member)
    · exact List.mem_cons.mpr ((List.mem_cons.mp member).imp id ih)

/-- Each key is there once, and is read back as it is. -/
def Stable (entries : JsonDict) : Prop := entries.keys.Nodup ∧ ∀ key ∈ entries.keys, key.reread = key

end JsonDict

namespace JsonValue

mutual
/-- `json.loads(json.dumps(value))` -/
@[grind =] def reread : JsonValue → JsonValue
  | .str t => .str t.reread
  | .list items => .list (rereadItems items)
  | .dict entries => .dict (JsonDict.lastOf (rereadEntries entries))
  | value => value

@[grind =] def rereadItems : List JsonValue → List JsonValue
  | [] => []
  | item :: rest => reread item :: rereadItems rest

@[grind =] def rereadEntries : List (Text × JsonValue) → List (Text × JsonValue)
  | [] => []
  | (key, value) :: rest => (key.reread, reread value) :: rereadEntries rest
end

theorem rereadItems_eq (items : List JsonValue) : rereadItems items = items.map reread := by
  induction items with
  | nil => rfl
  | cons item rest ih => rw [rereadItems, ih, List.map_cons]

theorem rereadEntries_eq (entries : JsonDict) :
    rereadEntries entries = entries.map fun x => (x.1.reread, x.2.reread) := by
  induction entries with
  | nil => rfl
  | cons x rest ih => rw [rereadEntries, ih, List.map_cons]

theorem sortItems_eq (items : List JsonValue) : sortItems items = items.map sortKeys := by
  induction items with
  | nil => rfl
  | cons item rest ih => rw [sortItems, ih, List.map_cons]

end JsonValue

namespace JsonText

end JsonText

namespace JsonValue

end JsonValue

/-- `json.loads(json.dumps(entries))` -/
def JsonDict.reread (entries : JsonDict) : JsonDict := JsonDict.lastOf (JsonValue.rereadEntries entries)

namespace JsonDict
variable {entries : JsonDict}

theorem Stable.rereadEntries (stable : entries.Stable) :
    JsonValue.rereadEntries entries = entries.map fun x => (x.1, x.2.reread) := by
  rw [JsonValue.rereadEntries_eq]
  exact List.map_congr_left fun x member => by rw [stable.2 x.1 (List.mem_map_of_mem member)]

theorem Stable.reread (stable : entries.Stable) :
    entries.reread = entries.map fun x => (x.1, x.2.reread) := by
  rw [JsonDict.reread, stable.rereadEntries, lastOf_nodup]
  rw [keys, List.map_map]
  exact stable.1

theorem Stable.get?_reread (stable : entries.Stable) (key : Text) :
    entries.reread.get? key = (entries.get? key).map JsonValue.reread := by
  rw [stable.reread, get?_map fun _ value => value.reread]

end JsonDict

end Sippycup.Python
