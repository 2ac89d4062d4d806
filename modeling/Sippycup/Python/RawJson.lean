import Sippycup.Python.Utf8

/-! `json.dumps(value, ensure_ascii=False, sort_keys=True, separators=(",", ":"))`.
Only quotes, backslashes and control characters are escaped; the ASCII text of
the document is got from it by escaping the rest. -/
namespace Sippycup.Python
open Sippycup.Ip

namespace Json

def escapeRaw (code : Nat) : Codes :=
  if code = 34 then ascii "\\\""
  else if code = 92 then ascii "\\\\"
  else if code = 10 then ascii "\\n"
  else if code = 13 then ascii "\\r"
  else if code = 9 then ascii "\\t"
  else if code = 12 then ascii "\\f"
  else if code = 8 then ascii "\\b"
  else if code < 32 then escapeUnit code
  else [code]

def encodeRaw (t : Text) : Codes := [34] ++ t.codes.flatMap escapeRaw ++ [34]

/-- The text with what is outside of ASCII escaped. -/
def toAscii (codes : Codes) : Codes :=
  codes.flatMap fun code => if code < 127 then [code] else escape code

theorem toAscii_append (xs ys : Codes) : toAscii (xs ++ ys) = toAscii xs ++ toAscii ys :=
  List.flatMap_append

theorem toAscii_plain {codes : Codes} (plain : ∀ code ∈ codes, code < 127) : toAscii codes = codes := by
  induction codes with
  | nil => rfl
  | cons code rest ih =>
    obtain ⟨first, others⟩ := List.forall_mem_cons.mp plain
    rw [toAscii, List.flatMap_cons, if_pos first, ← toAscii, ih others]
    rfl

theorem escape_control : ∀ code < 32, toAscii (escapeRaw code) = escape code := by decide

theorem toAscii_escapeRaw (code : Nat) : toAscii (escapeRaw code) = escape code := by
  rcases Nat.lt_or_ge code 32 with control | printed
  · exact escape_control code control
  · by_cases quote : code = 34
    · subst quote
      decide
    · by_cases backslash : code = 92
      · subst backslash
        decide
      · have raw : escapeRaw code = [code] := by
          unfold escapeRaw
          simp only [quote, backslash, show code ≠ 10 by omega, show code ≠ 13 by omega,
            show code ≠ 9 by omega, show code ≠ 12 by omega, show code ≠ 8 by omega,
            show ¬ code < 32 by omega, if_false]
        rw [raw, toAscii, List.flatMap_singleton]
        split
        · rename_i small
          unfold escape
          simp only [quote, backslash, show code ≠ 10 by omega, show code ≠ 13 by omega,
            show code ≠ 9 by omega, show code ≠ 12 by omega, show code ≠ 8 by omega,
            show 32 ≤ code ∧ code ≤ 126 by omega, if_false, and_self, if_true]
        · rfl

theorem toAscii_encodeRaw (t : Text) : toAscii (encodeRaw t) = encodeText t := by
  have body : toAscii (t.codes.flatMap escapeRaw) = t.codes.flatMap escape := by
    induction t.codes with
    | nil => rfl
    | cons code rest ih => rw [List.flatMap_cons, toAscii_append, toAscii_escapeRaw, ih, List.flatMap_cons]
  rw [encodeRaw, toAscii_append, toAscii_append, body, encodeText]
  rfl

theorem toAscii_intercalate (parts : List Codes) :
    toAscii (comma.intercalate parts) = comma.intercalate (parts.map toAscii) := by
  have tail (rest : List Codes) :
      toAscii (rest.flatMap (44 :: ·)) = (rest.map toAscii).flatMap (44 :: ·) := by
    induction rest with
    | nil => rfl
    | cons part rest ih =>
      rw [List.flatMap_cons, toAscii_append, ih, List.map_cons, List.flatMap_cons]
      rfl
  cases parts with
  | nil => rfl
  | cons first rest =>
    rw [JsonText.intercalate_comma, toAscii_append, tail, List.map_cons, JsonText.intercalate_comma]

end Json

namespace JsonValue

mutual
/-- `json.dumps(value, ensure_ascii=False, separators=(",", ":"))` -/
@[grind =] def dumpsRaw : JsonValue → Codes
  | .null => Json.ascii "null"
  | .bool b => Json.encodeBool b
  | .int n => intCodes n
  | .float x => x.codes
  | .str t => Json.encodeRaw t
  | .list items => 91 :: Json.comma.intercalate (dumpRawItems items) ++ [93]
  | .dict entries => 123 :: Json.comma.intercalate (dumpRawEntries entries) ++ [125]

@[grind =] def dumpRawItems : List JsonValue → List Codes
  | [] => []
  | item :: rest => dumpsRaw item :: dumpRawItems rest

@[grind =] def dumpRawEntries : List (Text × JsonValue) → List Codes
  | [] => []
  | (key, value) :: rest => (Json.encodeRaw key ++ 58 :: dumpsRaw value) :: dumpRawEntries rest
end

def canonicalRaw (value : JsonValue) : Codes := dumpsRaw (sortKeys value)

theorem number_ascii {codes : Codes} (number : ∀ c ∈ codes, JsonText.isNumberCode c = true) :
    Json.toAscii codes = codes := by
  refine Json.toAscii_plain fun code member => ?_
  have one := number code member
  simp only [JsonText.isNumberCode, Bool.or_eq_true, isDigit, decide_eq_true_eq, List.contains_eq_mem,
    List.mem_cons, minus, plus, dot, exponentMark, List.not_mem_nil, or_false] at one
  omega

mutual
theorem toAscii_dumpsRaw : ∀ v : JsonValue, Json.toAscii v.dumpsRaw = v.dumps
  | .null => by decide
  | .bool b => by cases b <;> decide
  | .int n => number_ascii fun c member => JsonText.finite_number (JsonText.intCodes_finite n) c member
  | .float x => number_ascii (JsonText.floatCodes_number x)
  | .str t => Json.toAscii_encodeRaw t
  | .list items => by
    rw [dumpsRaw, dumps, Json.toAscii_append, ← toAscii_items items, ← Json.toAscii_intercalate]
    rfl
  | .dict entries => by
    rw [dumpsRaw, dumps, Json.toAscii_append, ← toAscii_entries entries, ← Json.toAscii_intercalate]
    rfl

theorem toAscii_items : ∀ items : List JsonValue, (dumpRawItems items).map Json.toAscii = dumpItems items
  | [] => rfl
  | item :: rest => by
    rw [dumpRawItems, dumpItems, List.map_cons, toAscii_dumpsRaw item, toAscii_items rest]

theorem toAscii_entries : ∀ entries : List (Text × JsonValue),
    (dumpRawEntries entries).map Json.toAscii = dumpEntries entries
  | [] => rfl
  | (key, value) :: rest => by
    rw [dumpRawEntries, dumpEntries, List.map_cons, toAscii_entries rest, Json.toAscii_append,
      Json.toAscii_encodeRaw, ← toAscii_dumpsRaw value]
    rfl
end

theorem toAscii_canonicalRaw (v : JsonValue) : Json.toAscii v.canonicalRaw = v.canonical :=
  toAscii_dumpsRaw v.sortKeys

/-- Documents with one raw text are the same document. -/
theorem canonicalRaw_injective {a b : JsonValue} (same : a.canonicalRaw = b.canonicalRaw) : a.Same b := by
  refine canonical_injective ?_
  rw [← toAscii_canonicalRaw, same, toAscii_canonicalRaw]

mutual
/-- No text in the document, key or value, has a surrogate. -/
@[grind =] def Scalars : JsonValue → Prop
  | .str t => t.Scalars
  | .list items => ScalarItems items
  | .dict entries => ScalarEntries entries
  | _ => True

@[grind =] def ScalarItems : List JsonValue → Prop
  | [] => True
  | item :: rest => Scalars item ∧ ScalarItems rest

@[grind =] def ScalarEntries : List (Text × JsonValue) → Prop
  | [] => True
  | (key, value) :: rest => key.Scalars ∧ Scalars value ∧ ScalarEntries rest
end

theorem scalarItems_iff {items : List JsonValue} : ScalarItems items ↔ ∀ item ∈ items, Scalars item := by
  induction items with
  | nil => simp [ScalarItems]
  | cons item rest ih => simp [ScalarItems, ih]

theorem scalarEntries_iff {entries : JsonDict} :
    ScalarEntries entries ↔ ∀ x ∈ entries, x.1.Scalars ∧ Scalars x.2 := by
  induction entries with
  | nil => simp [ScalarEntries]
  | cons x rest ih => simp [ScalarEntries, ih, and_assoc]

theorem encodeRaw_scalars {t : Text} (scalars : ∀ code ∈ Json.encodeRaw t, isScalar code) : t.Scalars := by
  intro code member
  have kept : code ∈ Json.escapeRaw code ∨ code < 0x80 := by
    rcases Nat.lt_or_ge code 0x80 with small | large
    · exact .inr small
    · left
      unfold Json.escapeRaw
      simp only [show code ≠ 34 by omega, show code ≠ 92 by omega, show code ≠ 10 by omega,
        show code ≠ 13 by omega, show code ≠ 9 by omega, show code ≠ 12 by omega, show code ≠ 8 by omega,
        show ¬ code < 32 by omega, if_false, List.mem_singleton]
  rcases kept with escaped | small
  · refine scalars code ?_
    exact List.mem_append_left _ (List.mem_append_right _ (List.mem_flatMap.mpr ⟨code, member, escaped⟩))
  · exact .inl (by omega)

theorem mem_intercalate {parts : List Codes} {part : Codes} {code : Nat} (inside : part ∈ parts)
    (member : code ∈ part) : code ∈ Json.comma.intercalate parts := by
  cases parts with
  | nil => cases inside
  | cons first rest =>
    rw [JsonText.intercalate_comma, List.mem_append, List.mem_flatMap]
    rcases List.mem_cons.mp inside with rfl | later
    · exact .inl member
    · exact .inr ⟨part, later, List.mem_cons_of_mem _ member⟩

mutual
/-- A document whose raw text encodes has no surrogates. -/
theorem dumpsRaw_scalars : ∀ v : JsonValue, (∀ code ∈ v.dumpsRaw, isScalar code) → v.Scalars
  | .null, _ | .bool _, _ | .int _, _ | .float _, _ => trivial
  | .str _, scalars => encodeRaw_scalars scalars
  | .list items, scalars => by
    refine dumpRawItems_scalars items fun part inside code member => scalars code ?_
    rw [dumpsRaw]
    exact List.mem_append_left _ (List.mem_cons_of_mem _ (mem_intercalate inside member))
  | .dict entries, scalars => by
    refine dumpRawEntries_scalars entries fun part inside code member => scalars code ?_
    rw [dumpsRaw]
    exact List.mem_append_left _ (List.mem_cons_of_mem _ (mem_intercalate inside member))

theorem dumpRawItems_scalars : ∀ items : List JsonValue,
    (∀ part ∈ dumpRawItems items, ∀ code ∈ part, isScalar code) → ScalarItems items
  | [], _ => trivial
  | item :: rest, scalars => by
    rw [dumpRawItems, List.forall_mem_cons] at scalars
    exact ⟨dumpsRaw_scalars item scalars.1, dumpRawItems_scalars rest scalars.2⟩

theorem dumpRawEntries_scalars : ∀ entries : List (Text × JsonValue),
    (∀ part ∈ dumpRawEntries entries, ∀ code ∈ part, isScalar code) → ScalarEntries entries
  | [], _ => trivial
  | (key, value) :: rest, scalars => by
    rw [dumpRawEntries, List.forall_mem_cons] at scalars
    refine ⟨encodeRaw_scalars fun code member => scalars.1 code (List.mem_append_left _ member),
      dumpsRaw_scalars value fun code member => ?_, dumpRawEntries_scalars rest scalars.2⟩
    exact scalars.1 code (List.mem_append_right _ (List.mem_cons_of_mem _ member))
end

mutual
theorem scalars_sortKeys : ∀ v : JsonValue, v.sortKeys.Scalars → v.Scalars
  | .null, _ | .bool _, _ | .int _, _ | .float _, _ => trivial
  | .str _, scalars => scalars
  | .list items, scalars => scalars_sortItems items scalars
  | .dict entries, scalars => by
    rw [sortKeys, Scalars, scalarEntries_iff] at scalars
    have perm : (sortEntries (sortEach entries)).Perm (sortEach entries) := List.perm_insertionSort _ _
    refine scalars_sortEach entries (scalarEntries_iff.2 fun x member => ?_)
    exact scalars x (perm.mem_iff.mpr member)

theorem scalars_sortItems : ∀ items : List JsonValue, ScalarItems (sortItems items) → ScalarItems items
  | [], _ => trivial
  | item :: rest, scalars => ⟨scalars_sortKeys item scalars.1, scalars_sortItems rest scalars.2⟩

theorem scalars_sortEach : ∀ entries : List (Text × JsonValue),
    ScalarEntries (sortEach entries) → ScalarEntries entries
  | [], _ => trivial
  | (_, value) :: rest, scalars =>
    ⟨scalars.1, scalars_sortKeys value scalars.2.1, scalars_sortEach rest scalars.2.2⟩
end

theorem canonicalRaw_scalars {v : JsonValue} (scalars : ∀ code ∈ v.canonicalRaw, isScalar code) :
    v.Scalars :=
  scalars_sortKeys v (dumpsRaw_scalars v.sortKeys scalars)

end JsonValue

/-- Texts without surrogates and with the same code units are equal. -/
theorem Text.Scalars.units_inj {t u : Text} (left : t.Scalars) (right : u.Scalars)
    (same : t.units = u.units) : t = u :=
  Text.ext (scalars_injective left right (congrArg Text.codes same))

theorem JsonValue.Same.str {t u : Text} (same : Same (.str t) (.str u)) (left : t.Scalars)
    (right : u.Scalars) : t = u := left.units_inj right (same_str.mp same)

/-- Lookups in one document under two orders of its keys. -/
theorem JsonValue.Same.get? {xs ys : JsonDict} (same : Same (.dict xs) (.dict ys))
    (left : ∀ key ∈ xs.keys, key.units = key) (right : ∀ key ∈ ys.keys, key.units = key) (key : Text) :
    (xs.get? key).map (fun v => v.sortKeys.utf16) = (ys.get? key).map fun v => v.sortKeys.utf16 := by
  have lookup (entries : JsonDict) (plain : ∀ key ∈ entries.keys, key.units = key) :
      JsonDict.get? (utf16Entries (sortEntries (sortEach entries))) key =
        (entries.get? key).map fun v => v.sortKeys.utf16 := by
    have perm : (sortEntries (sortEach entries)).Perm (sortEach entries) := List.perm_insertionSort _ _
    have kept : utf16Entries (sortEntries (sortEach entries)) =
        (sortEntries (sortEach entries)).map fun x => (x.1, x.2.utf16) := by
      rw [utf16Entries_eq]
      refine List.map_congr_left fun x member => ?_
      have inside := perm.mem_iff.mp member
      rw [sortEach_eq] at inside
      obtain ⟨y, held, rfl⟩ := List.mem_map.mp inside
      rw [plain y.1 (List.mem_map_of_mem held)]
    rw [kept, JsonDict.get?_map (fun _ v => v.utf16), JsonDict.get?_sortEntries, sortEach_eq,
      JsonDict.get?_map (fun _ v => v.sortKeys), Option.map_map]
    rfl
  rw [Same, sortKeys, sortKeys, utf16, utf16, dict.injEq] at same
  rw [← lookup xs left, ← lookup ys right, same]

end Sippycup.Python
