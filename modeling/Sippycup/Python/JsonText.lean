import Sippycup.Python.DecimalText
import Sippycup.Python.JsonValue

/-! Canonical JSON text determines the document it was written from, up to the
order of keys. Text is determined by its UTF-16 code units: an escape does not
tell a pair of surrogates from the code point that the pair stands for. -/
namespace Sippycup.Python
open Sippycup.Ip

/-- UTF-16 code units of a code point, as the encoder escapes it. -/
def codeUnits (code : Nat) : List Nat :=
  if code < 0x10000 then [code]
  else [(0xD800 + (code - 0x10000) / 0x400) % 0x10000, 0xDC00 + (code - 0x10000) % 0x400]

def Text.units (t : Text) : Text := ⟨t.codes.flatMap codeUnits⟩

namespace JsonValue

mutual
/-- The document with every text as its code units. -/
@[grind =] def utf16 : JsonValue → JsonValue
  | .str t => .str t.units
  | .list items => .list (utf16Items items)
  | .dict entries => .dict (utf16Entries entries)
  | value => value

@[grind =] def utf16Items : List JsonValue → List JsonValue
  | [] => []
  | item :: rest => utf16 item :: utf16Items rest

@[grind =] def utf16Entries : List (Text × JsonValue) → List (Text × JsonValue)
  | [] => []
  | (key, value) :: rest => (key.units, utf16 value) :: utf16Entries rest
end

/-- The same document: keys in any order, text by code units. -/
def Same (a b : JsonValue) : Prop := (sortKeys a).utf16 = (sortKeys b).utf16

end JsonValue

namespace JsonText

def hexValue (digits : List Nat) : Nat := digits.foldl (fun acc d => acc * 16 + digitValue d) 0

def unescape (code : Nat) : Nat :=
  if code = 110 then 10 else if code = 114 then 13 else if code = 116 then 9
  else if code = 102 then 12 else if code = 98 then 8 else code

/-- The code units before the closing quote, and what follows it. -/
@[grind =] def readBody : Codes → List Nat × Codes
  | [] => ([], [])
  | 34 :: rest => ([], rest)
  | 92 :: 117 :: w :: x :: y :: z :: rest =>
    (hexValue [w, x, y, z] :: (readBody rest).1, (readBody rest).2)
  | 92 :: e :: rest => (unescape e :: (readBody rest).1, (readBody rest).2)
  | c :: rest => (c :: (readBody rest).1, (readBody rest).2)

theorem digitValue_hexDigit : ∀ d < 16, digitValue (Text.hexDigit d) = d := by decide

theorem readBody_unit (unit : Nat) (tail : Codes) :
    readBody (Json.escapeUnit unit ++ tail) =
      (unit % 0x10000 :: (readBody tail).1, (readBody tail).2) := by
  have digits : Text.hexPadded 4 unit = [Text.hexDigit (unit / 16 / 16 / 16 % 16),
      Text.hexDigit (unit / 16 / 16 % 16), Text.hexDigit (unit / 16 % 16),
      Text.hexDigit (unit % 16)] := rfl
  have escaped : Json.escapeUnit unit ++ tail = 92 :: 117 :: (Text.hexPadded 4 unit ++ tail) := rfl
  have value : hexValue (Text.hexPadded 4 unit) = unit % 0x10000 := by
    rw [digits]
    simp only [hexValue, List.foldl_cons, List.foldl_nil]
    rw [digitValue_hexDigit _ (Nat.mod_lt _ (by decide)), digitValue_hexDigit _ (Nat.mod_lt _ (by decide)),
      digitValue_hexDigit _ (Nat.mod_lt _ (by decide)), digitValue_hexDigit _ (Nat.mod_lt _ (by decide))]
    omega
  rw [digits] at value
  rw [escaped, digits]
  simp only [readBody, List.cons_append, List.nil_append, value]

theorem readBody_escape (code : Nat) (tail : Codes) :
    readBody (Json.escape code ++ tail) =
      (codeUnits code ++ (readBody tail).1, (readBody tail).2) := by
  have short {e : Nat} (letter : e ≠ 117) :
      readBody (92 :: e :: tail) = (unescape e :: (readBody tail).1, (readBody tail).2) := by
    simp [readBody, letter]
  rw [Json.escape]
  by_cases quote : code = 34
  · subst quote
    exact short (by decide)
  by_cases slash : code = 92
  · subst slash
    exact short (by decide)
  by_cases newline : code = 10
  · subst newline
    exact short (by decide)
  by_cases return_ : code = 13
  · subst return_
    exact short (by decide)
  by_cases tab : code = 9
  · subst tab
    exact short (by decide)
  by_cases feed : code = 12
  · subst feed
    exact short (by decide)
  by_cases back : code = 8
  · subst back
    exact short (by decide)
  simp only [quote, slash, newline, return_, tab, feed, back, if_false]
  split
  · rename_i printable
    have small : code < 0x10000 := by omega
    simp [readBody, slash, codeUnits, small]
  · split
    · rename_i small
      rw [readBody_unit, codeUnits, if_pos small, Nat.mod_eq_of_lt small]
      rfl
    · rename_i large
      have low : (0xDC00 + (code - 0x10000) % 0x400) % 0x10000 =
          0xDC00 + (code - 0x10000) % 0x400 := by omega
      rw [List.append_assoc, readBody_unit, readBody_unit, codeUnits, if_neg large, low]
      rfl

theorem readBody_text (codes r : Codes) :
    readBody (codes.flatMap Json.escape ++ 34 :: r) = (codes.flatMap codeUnits, r) := by
  induction codes with
  | nil => rfl
  | cons code rest ih =>
    rw [List.flatMap_cons, List.flatMap_cons, List.append_assoc, readBody_escape, ih]

theorem encodeText_cons (t : Text) (r : Codes) :
    Json.encodeText t ++ r = 34 :: (t.codes.flatMap Json.escape ++ 34 :: r) := by
  simp [Json.encodeText]

theorem encodeText_injective {t u : Text} {r s : Codes}
    (same : Json.encodeText t ++ r = Json.encodeText u ++ s) : t.units = u.units ∧ r = s := by
  rw [encodeText_cons, encodeText_cons] at same
  have read := congrArg readBody (List.cons.inj same).2
  rw [readBody_text, readBody_text] at read
  obtain ⟨units, rest⟩ := Prod.mk.inj read
  exact ⟨Text.ext units, rest⟩

/-- What can follow a value inside a document. -/
def Stops (codes : Codes) : Prop := ∀ c ∈ codes.head?, c = 44 ∨ c = 93 ∨ c = 125

/-- Codes that numbers consist of, the names of infinity and not-a-number among them. -/
def isNumberCode (c : Nat) : Bool :=
  isDigit c || [minus, plus, dot, exponentMark, 73, 110, 102, 105, 116, 121, 78, 97].contains c

theorem token_injective {xs ys r s : Codes} (left : ∀ c ∈ xs, isNumberCode c = true)
    (right : ∀ c ∈ ys, isNumberCode c = true) (stopLeft : Stops r) (stopRight : Stops s)
    (same : xs ++ r = ys ++ s) : xs = ys ∧ r = s := by
  have token {zs t : Codes} (run : ∀ c ∈ zs, isNumberCode c = true) (stop : Stops t) :
      (zs ++ t).takeWhile isNumberCode = zs := by
    cases t with
    | nil => rw [List.append_nil, takeWhile_run run]
    | cons c rest =>
      apply takeWhile_stop run
      rcases stop c rfl with rfl | rfl | rfl <;> decide
  have tokens : xs = ys := by
    rw [← token left stopLeft, same, token right stopRight]
  subst tokens
  exact ⟨rfl, List.append_cancel_left same⟩

/-- Codes of finite numbers: no letter but the exponent mark. -/
def isFiniteCode (c : Nat) : Bool := isDigit c || [minus, plus, dot, exponentMark].contains c

theorem digit_finite {codes : Codes} (digits : AllDigits codes) :
    ∀ c ∈ codes, isFiniteCode c = true := by
  intro c member
  rw [isFiniteCode, digits c member]
  rfl

theorem repr_finite (x : Shortest) : ∀ c ∈ x.repr, isFiniteCode c = true := by
  have exponent : ∀ c ∈ x.parts.exponent, isFiniteCode c = true := by
    intro c member
    rw [Shortest.parts] at member
    split at member
    · split at member
      · cases member
      · split at member <;> cases member
    · rcases List.mem_cons.mp member with rfl | digits
      · split <;> decide
      · exact digit_finite (allDigits_append zeroDigits_decimal (allDigits_numeral _)) c digits
  have mantissa : ∀ c ∈ x.parts.mantissa, isFiniteCode c = true := by
    intro c member
    rw [Parts.mantissa] at member
    split at member
    · exact digit_finite x.parts.wholeDigits c member
    · rcases List.mem_append.mp member with whole | rest
      · exact digit_finite x.parts.wholeDigits c whole
      · rcases List.mem_cons.mp rest with rfl | fraction
        · decide
        · exact digit_finite x.parts.fractionDigits c fraction
  intro c member
  rw [Shortest.repr, Shortest.layout_eq] at member
  rcases List.mem_append.mp member with sign | rest
  · cases negative : x.negative <;> rw [negative] at sign
    · cases sign
    · rw [List.mem_singleton.mp sign]
      decide
  · rw [Parts.codes] at rest
    split at rest
    · exact mantissa c rest
    · rcases List.mem_append.mp rest with front | back
      · exact mantissa c front
      · rcases List.mem_cons.mp back with rfl | after
        · decide
        · exact exponent c after

theorem finite_number {codes : Codes} (finite : ∀ c ∈ codes, isFiniteCode c = true) :
    ∀ c ∈ codes, isNumberCode c = true := by
  intro c member
  have code := finite c member
  simp only [isFiniteCode, Bool.or_eq_true, List.contains_iff_mem] at code
  simp only [isNumberCode, Bool.or_eq_true, List.contains_iff_mem]
  refine code.imp id fun mark => ?_
  simp only [List.mem_cons, List.not_mem_nil, or_false] at mark ⊢
  tauto

theorem intCodes_finite (n : Int) : ∀ c ∈ intCodes n, isFiniteCode c = true := by
  intro c member
  rcases List.mem_append.mp member with sign | digits
  · cases negative : decide (n < 0) <;> rw [negative] at sign
    · cases sign
    · rw [List.mem_singleton.mp sign]
      decide
  · exact digit_finite (allDigits_numeral _) c digits

theorem floatCodes_number (x : PyFloat) : ∀ c ∈ x.codes, isNumberCode c = true := by
  cases x with
  | finite x => exact finite_number (repr_finite x)
  | infinite negative => cases negative <;> decide
  | nan => decide

theorem intCodes_injective {m n : Int} (same : intCodes m = intCodes n) : m = n := by
  have read (n : Int) : Decimal.readSigned (intCodes n) = n := by
    rw [intCodes]
    by_cases negative : n < 0
    · simp only [negative, decide_true, signCodes, if_true, List.singleton_append,
        Decimal.readSigned, List.head?_cons, List.drop_succ_cons, List.drop_zero, readNumeral_ten]
      omega
    · obtain ⟨first, rest, split⟩ := List.exists_cons_of_ne_nil (renderNumeral_none n.natAbs)
      have digit := digit_plain (allDigits_numeral n.natAbs first (by rw [split]; simp))
      have value := readNumeral_ten n.natAbs
      rw [split] at value
      simp only [negative, decide_false, signCodes, Bool.false_eq_true, if_false, List.nil_append,
        split, Decimal.readSigned, List.head?_cons, Option.some.injEq, digit.1, digit.2.1, value]
      omega
  rw [← read m, same, read n]

/-- A finite float shows a point or an exponent; an integer shows neither. -/
theorem repr_marked (x : Shortest) : dot ∈ x.repr ∨ exponentMark ∈ x.repr := by
  rw [Shortest.repr, Shortest.layout]
  dsimp only
  split
  · left
    split
    · simp
    · split <;> simp
  · right
    simp

theorem intCodes_plain (n : Int) : dot ∉ intCodes n ∧ exponentMark ∉ intCodes n := by
  have plain {mark : Nat} (other : mark ≠ minus) (notDigit : isDigit mark = false) :
      mark ∉ intCodes n := by
    intro member
    rcases List.mem_append.mp member with sign | digits
    · cases negative : decide (n < 0) <;> rw [negative] at sign
      · cases sign
      · exact other (List.mem_singleton.mp sign)
    · rw [allDigits_numeral _ mark digits] at notDigit
      cases notDigit
  exact ⟨plain (by decide) (by decide), plain (by decide) (by decide)⟩

theorem int_ne_float (n : Int) (x : PyFloat) : intCodes n ≠ x.codes := by
  intro same
  cases x with
  | finite x =>
    obtain ⟨point, mark⟩ := intCodes_plain n
    rw [same] at point mark
    exact (repr_marked x).elim point mark
  | infinite negative =>
    have letter := intCodes_finite n 73 (by rw [same]; cases negative <;> decide)
    cases letter
  | nan =>
    have letter := intCodes_finite n 78 (by rw [same]; decide)
    cases letter

theorem floatCodes_injective {x y : PyFloat} (same : x.codes = y.codes) : x = y := by
  have finite (x : Shortest) (negative : Bool) : x.repr ≠ (PyFloat.infinite negative).codes := by
    intro same
    have letter := repr_finite x 73 (by rw [same]; cases negative <;> decide)
    cases letter
  have finite' (x : Shortest) : x.repr ≠ PyFloat.nan.codes := by
    intro same
    have letter := repr_finite x 78 (by rw [same]; decide)
    cases letter
  cases x with
  | finite x =>
    cases y with
    | finite y => rw [Shortest.repr_injective same]
    | infinite negative => exact absurd same (finite x negative)
    | nan => exact absurd same (finite' x)
  | infinite s =>
    cases y with
    | finite y => exact absurd same.symm (finite y s)
    | infinite t => revert same; cases s <;> cases t <;> decide
    | nan => revert same; cases s <;> decide
  | nan =>
    cases y with
    | finite y => exact absurd same.symm (finite' y)
    | infinite t => revert same; cases t <;> decide
    | nan => rfl

open JsonValue

/-- Kinds of values, told apart by the first code of their text. -/
def kind : JsonValue → Nat
  | .null => 0
  | .bool true => 1
  | .bool false => 2
  | .str _ => 3
  | .list _ => 4
  | .dict _ => 5
  | .int _ | .float _ => 6

def kindOfHead (c : Nat) : Nat :=
  if c = 110 then 0 else if c = 116 then 1 else if c = 102 then 2 else if c = 34 then 3
  else if c = 91 then 4 else if c = 123 then 5 else if c = 93 ∨ c = 125 then 7 else 6

theorem kindOfHead_digit {c : Nat} (digit : isDigit c = true) : kindOfHead c = 6 := by
  have range : 48 ≤ c ∧ c ≤ 57 := by simpa [isDigit] using digit
  rw [kindOfHead, if_neg (by omega), if_neg (by omega), if_neg (by omega), if_neg (by omega),
    if_neg (by omega), if_neg (by omega), if_neg (by omega)]

/-- A signed run that starts with a digit. -/
theorem kind_signed {negative : Bool} {codes r : Codes}
    (digit : ∀ c ∈ codes.head?, isDigit c = true) (some_ : codes ≠ []) :
    ((signCodes negative ++ codes) ++ r).head?.map kindOfHead = some 6 := by
  cases negative with
  | true => rfl
  | false =>
    obtain ⟨first, rest, rfl⟩ := List.exists_cons_of_ne_nil some_
    rw [signCodes, if_neg (by decide)]
    simp only [List.nil_append, List.cons_append, List.head?_cons, Option.map_some]
    rw [kindOfHead_digit (digit first rfl)]

theorem head_layout (x : Shortest) : ∀ c ∈ x.layout.head?, isDigit c = true := by
  rw [Shortest.layout_eq]
  intro c member
  obtain ⟨first, rest, split⟩ := List.exists_cons_of_ne_nil x.parts_whole
  have head : x.parts.codes.head? = some first := by
    rw [Parts.codes, Parts.mantissa, split]
    split <;> split <;> rfl
  rw [head] at member
  obtain rfl := Option.some.inj member
  exact x.parts.wholeDigits _ (by rw [split]; exact List.mem_cons_self)

theorem layout_ne_nil (x : Shortest) : x.layout ≠ [] := by
  rw [Shortest.layout_eq, Parts.codes, Parts.mantissa]
  have whole := x.parts_whole
  split <;> split <;> simp [whole]

theorem dumps_kind (v : JsonValue) (r : Codes) :
    (dumps v ++ r).head?.map kindOfHead = some (kind v) := by
  cases v with
  | bool b => cases b <;> rfl
  | int n =>
    rw [dumps, intCodes, kind]
    refine kind_signed (fun c member => ?_) (renderNumeral_none _)
    exact allDigits_numeral _ c (List.mem_of_mem_head? member)
  | float x =>
    rw [dumps, kind]
    cases x with
    | finite x => exact kind_signed (head_layout x) (layout_ne_nil x)
    | infinite negative => cases negative <;> rfl
    | nan => rfl
  | list items => rfl
  | dict entries => rfl
  | str t => rfl
  | null => rfl

theorem kind_eq {v w : JsonValue} {r s : Codes} (same : dumps v ++ r = dumps w ++ s) :
    kind v = kind w := by
  have head := dumps_kind v r
  rw [same, dumps_kind] at head
  exact (Option.some.inj head).symm

/-- The text of `v` determines `v`, whatever follows it. -/
def Determined (v : JsonValue) : Prop :=
  ∀ w r s, dumps v ++ r = dumps w ++ s → Stops r → Stops s → v.utf16 = w.utf16 ∧ r = s

theorem intercalate_comma (first : Codes) (rest : List Codes) :
    Json.comma.intercalate (first :: rest) = first ++ rest.flatMap (44 :: ·) := by
  induction rest generalizing first with
  | nil => simp [List.intercalate]
  | cons second rest ih =>
    rw [List.intercalate_cons_cons, ih, List.append_assoc]
    rfl

theorem stops_tail (parts : List Codes) {close : Nat} (closes : close = 93 ∨ close = 125)
    (r : Codes) : Stops (parts.flatMap (44 :: ·) ++ close :: r) := by
  intro c member
  cases parts with
  | nil =>
    obtain rfl := Option.some.inj member
    exact .inr closes
  | cons part rest =>
    obtain rfl := Option.some.inj member
    exact .inl rfl

theorem tail_determined {xs ys : List JsonValue} (each : ∀ x ∈ xs, Determined x) {r s : Codes}
    (same : (dumpItems xs).flatMap (44 :: ·) ++ 93 :: r =
      (dumpItems ys).flatMap (44 :: ·) ++ 93 :: s) :
    utf16Items xs = utf16Items ys ∧ r = s := by
  induction xs generalizing ys with
  | nil =>
    cases ys with
    | nil => exact ⟨rfl, (List.cons.inj same).2⟩
    | cons y ys => exact absurd (List.cons.inj same).1 (by decide)
  | cons x xs ih =>
    cases ys with
    | nil => exact absurd (List.cons.inj same).1 (by decide)
    | cons y ys =>
      simp only [dumpItems, List.flatMap_cons, List.cons_append, List.append_assoc] at same
      obtain ⟨first, rest⟩ := each x List.mem_cons_self y _ _ (List.cons.inj same).2
        (stops_tail _ (.inl rfl) r) (stops_tail _ (.inl rfl) s)
      obtain ⟨others, after⟩ := ih (fun z member => each z (List.mem_cons_of_mem x member)) rest
      exact ⟨by rw [utf16Items, utf16Items, first, others], after⟩

theorem items_determined {xs ys : List JsonValue} (each : ∀ x ∈ xs, Determined x) {r s : Codes}
    (same : Json.comma.intercalate (dumpItems xs) ++ 93 :: r =
      Json.comma.intercalate (dumpItems ys) ++ 93 :: s) :
    utf16Items xs = utf16Items ys ∧ r = s := by
  have open_ (y : JsonValue) (ys : List JsonValue) (r s : Codes) :
      (93 :: r : Codes) ≠ Json.comma.intercalate (dumpItems (y :: ys)) ++ 93 :: s := by
    intro same
    rw [dumpItems, intercalate_comma, List.append_assoc] at same
    have head := dumps_kind y ((dumpItems ys).flatMap (44 :: ·) ++ 93 :: s)
    rw [← same] at head
    cases y with
    | bool b => cases b <;> cases head
    | _ => cases head
  cases xs with
  | nil =>
    cases ys with
    | nil => exact ⟨rfl, (List.cons.inj same).2⟩
    | cons y ys => exact absurd same (open_ y ys r s)
  | cons x xs =>
    cases ys with
    | nil => exact absurd same.symm (open_ x xs s r)
    | cons y ys =>
      simp only [dumpItems, intercalate_comma, List.append_assoc] at same
      obtain ⟨first, rest⟩ := each x List.mem_cons_self y _ _ same
        (stops_tail _ (.inl rfl) r) (stops_tail _ (.inl rfl) s)
      obtain ⟨others, after⟩ :=
        tail_determined (fun z member => each z (List.mem_cons_of_mem x member)) rest
      exact ⟨by rw [utf16Items, utf16Items, first, others], after⟩

theorem entry_determined {x y : Text × JsonValue} (each : Determined x.2) {r s : Codes}
    (same : Json.encodeText x.1 ++ 58 :: (dumps x.2 ++ r) =
      Json.encodeText y.1 ++ 58 :: (dumps y.2 ++ s)) (left : Stops r) (right : Stops s) :
    (x.1.units, x.2.utf16) = (y.1.units, y.2.utf16) ∧ r = s := by
  obtain ⟨key, rest⟩ := encodeText_injective same
  obtain ⟨value, after⟩ := each y.2 r s (List.cons.inj rest).2 left right
  exact ⟨by rw [key, value], after⟩

theorem entryTail_determined {xs ys : JsonDict} (each : ∀ x ∈ xs, Determined x.2) {r s : Codes}
    (same : (dumpEntries xs).flatMap (44 :: ·) ++ 125 :: r =
      (dumpEntries ys).flatMap (44 :: ·) ++ 125 :: s) :
    utf16Entries xs = utf16Entries ys ∧ r = s := by
  induction xs generalizing ys with
  | nil =>
    cases ys with
    | nil => exact ⟨rfl, (List.cons.inj same).2⟩
    | cons y ys => exact absurd (List.cons.inj same).1 (by decide)
  | cons x xs ih =>
    cases ys with
    | nil => exact absurd (List.cons.inj same).1 (by decide)
    | cons y ys =>
      simp only [dumpEntries, List.flatMap_cons, List.cons_append, List.append_assoc] at same
      obtain ⟨first, rest⟩ := entry_determined (each x List.mem_cons_self) (List.cons.inj same).2
        (stops_tail _ (.inr rfl) r) (stops_tail _ (.inr rfl) s)
      obtain ⟨others, after⟩ := ih (fun z member => each z (List.mem_cons_of_mem x member)) rest
      exact ⟨by rw [utf16Entries, utf16Entries, first, others], after⟩

theorem entries_determined {xs ys : JsonDict} (each : ∀ x ∈ xs, Determined x.2) {r s : Codes}
    (same : Json.comma.intercalate (dumpEntries xs) ++ 125 :: r =
      Json.comma.intercalate (dumpEntries ys) ++ 125 :: s) :
    utf16Entries xs = utf16Entries ys ∧ r = s := by
  have open_ (y : Text × JsonValue) (ys : JsonDict) (r s : Codes) :
      (125 :: r : Codes) ≠ Json.comma.intercalate (dumpEntries (y :: ys)) ++ 125 :: s := by
    intro same
    rw [dumpEntries, intercalate_comma, List.append_assoc, List.append_assoc, encodeText_cons] at same
    exact absurd (List.cons.inj same).1 (by decide)
  cases xs with
  | nil =>
    cases ys with
    | nil => exact ⟨rfl, (List.cons.inj same).2⟩
    | cons y ys => exact absurd same (open_ y ys r s)
  | cons x xs =>
    cases ys with
    | nil => exact absurd same.symm (open_ x xs s r)
    | cons y ys =>
      simp only [dumpEntries, intercalate_comma, List.cons_append, List.append_assoc] at same
      obtain ⟨first, rest⟩ := entry_determined (each x List.mem_cons_self) same
        (stops_tail _ (.inr rfl) r) (stops_tail _ (.inr rfl) s)
      obtain ⟨others, after⟩ :=
        entryTail_determined (fun z member => each z (List.mem_cons_of_mem x member)) rest
      exact ⟨by rw [utf16Entries, utf16Entries, first, others], after⟩

theorem determined_bool (b : Bool) : Determined (.bool b) := by
  intro w r s same left right
  have kinds := kind_eq same
  cases w with
  | bool c =>
    cases b <;> cases c
    · exact ⟨rfl, List.append_cancel_left same⟩
    · cases kinds
    · cases kinds
    · exact ⟨rfl, List.append_cancel_left same⟩
  | _ => cases b <;> cases kinds

theorem determined_null : Determined .null := by
  intro w r s same left right
  have kinds := kind_eq same
  cases w with
  | null => exact ⟨rfl, List.append_cancel_left same⟩
  | bool b => cases b <;> cases kinds
  | _ => cases kinds

theorem determined_int (n : Int) : Determined (.int n) := by
  intro w r s same left right
  have kinds := kind_eq same
  have codes := finite_number (intCodes_finite n)
  cases w with
  | int m =>
    obtain ⟨token, after⟩ :=
      token_injective codes (finite_number (intCodes_finite m)) left right same
    rw [intCodes_injective token]
    exact ⟨rfl, after⟩
  | float y =>
    obtain ⟨token, -⟩ := token_injective codes (floatCodes_number y) left right same
    exact absurd token (int_ne_float n y)
  | bool b => cases b <;> cases kinds
  | _ => cases kinds

theorem determined_float (x : PyFloat) : Determined (.float x) := by
  intro w r s same left right
  have kinds := kind_eq same
  have codes := floatCodes_number x
  cases w with
  | int m =>
    obtain ⟨token, -⟩ :=
      token_injective codes (finite_number (intCodes_finite m)) left right same
    exact absurd token.symm (int_ne_float m x)
  | float y =>
    obtain ⟨token, after⟩ := token_injective codes (floatCodes_number y) left right same
    rw [floatCodes_injective token]
    exact ⟨rfl, after⟩
  | bool b => cases b <;> cases kinds
  | _ => cases kinds

theorem determined_str (t : Text) : Determined (.str t) := by
  intro w r s same left right
  have kinds := kind_eq same
  cases w with
  | str u =>
    obtain ⟨units, after⟩ := encodeText_injective same
    exact ⟨by rw [utf16, utf16, units], after⟩
  | bool b => cases b <;> cases kinds
  | _ => cases kinds

theorem determined_list {items : List JsonValue} (each : ∀ x ∈ items, Determined x) :
    Determined (.list items) := by
  intro w r s same left right
  have kinds := kind_eq same
  cases w with
  | list others =>
    simp only [dumps, List.cons_append, List.append_assoc, List.nil_append] at same
    obtain ⟨equal, after⟩ := items_determined each (List.cons.inj same).2
    exact ⟨by rw [utf16, utf16, equal], after⟩
  | bool b => cases b <;> cases kinds
  | _ => cases kinds

theorem determined_dict {entries : JsonDict} (each : ∀ x ∈ entries, Determined x.2) :
    Determined (.dict entries) := by
  intro w r s same left right
  have kinds := kind_eq same
  cases w with
  | dict others =>
    simp only [dumps, List.cons_append, List.append_assoc, List.nil_append] at same
    obtain ⟨equal, after⟩ := entries_determined each (List.cons.inj same).2
    exact ⟨by rw [utf16, utf16, equal], after⟩
  | bool b => cases b <;> cases kinds
  | _ => cases kinds

theorem value_smaller {entries : JsonDict} {x : Text × JsonValue} (member : x ∈ entries) :
    sizeOf x.2 < 1 + sizeOf entries := by
  have entry := List.sizeOf_lt_of_mem member
  have value : sizeOf x.2 < sizeOf x := by
    obtain ⟨key, value⟩ := x
    simp only [Prod.mk.sizeOf_spec]
    omega
  omega

theorem dumps_determined (v : JsonValue) : Determined v := by
  cases v with
  | null => exact determined_null
  | bool b => exact determined_bool b
  | int n => exact determined_int n
  | float x => exact determined_float x
  | str t => exact determined_str t
  | list items => exact determined_list fun x _ => dumps_determined x
  | dict entries =>
    exact determined_dict fun x member =>
      have := value_smaller member
      dumps_determined x.2

end JsonText

/-- Documents with one canonical text are the same document. -/
theorem JsonValue.canonical_injective {a b : JsonValue} (same : a.canonical = b.canonical) :
    a.Same b := by
  have stops : JsonText.Stops [] := fun c absent => absurd absent (by simp)
  refine (JsonText.dumps_determined a.sortKeys b.sortKeys [] [] ?_ stops stops).1
  rw [List.append_nil, List.append_nil]
  exact same

namespace JsonValue

theorem utf16Items_sortItems (items : List JsonValue) :
    utf16Items (sortItems items) = items.map fun item => item.sortKeys.utf16 := by
  induction items with
  | nil => rfl
  | cons item rest ih => rw [sortItems, utf16Items, ih, List.map_cons]

theorem same_list {xs ys : List JsonValue} : Same (.list xs) (.list ys) ↔ List.Forall₂ Same xs ys := by
  rw [Same, sortKeys, sortKeys, utf16, utf16, list.injEq, utf16Items_sortItems, utf16Items_sortItems,
    ← List.forall₂_eq_eq_eq, List.forall₂_map_left_iff, List.forall₂_map_right_iff]
  rfl

theorem same_str {t u : Text} : Same (.str t) (.str u) ↔ t.units = u.units := by
  simp [Same, sortKeys, utf16]

section entries
variable {β : Type} {f : Text × JsonValue → β}

theorem keys_orderedInsert {x y : Text × JsonValue} {xs ys : JsonDict} (key : x.1 = y.1)
    (keys : xs.keys = ys.keys) :
    (xs.orderedInsert (fun a b => a.1.le b.1 = true) x).map Prod.fst =
      (ys.orderedInsert (fun a b => a.1.le b.1 = true) y).map Prod.fst := by
  induction xs generalizing ys with
  | nil =>
    obtain rfl := List.map_eq_nil_iff.mp keys.symm
    simp [key]
  | cons head rest ih =>
    obtain ⟨head', rest', rfl, same, others⟩ := List.map_eq_cons_iff.mp keys.symm
    rw [List.orderedInsert_cons, List.orderedInsert_cons, ← key, same]
    split
    · simp [key, same, others]
    · simp [same, ih others.symm]

theorem orderedInsert_injective {x y : Text × JsonValue} {xs ys : JsonDict} (key : x.1 = y.1)
    (keys : xs.keys = ys.keys)
    (inserted : (xs.orderedInsert (fun a b => a.1.le b.1 = true) x).map f =
      (ys.orderedInsert (fun a b => a.1.le b.1 = true) y).map f) :
    f x = f y ∧ xs.map f = ys.map f := by
  induction xs generalizing ys with
  | nil =>
    obtain rfl := List.map_eq_nil_iff.mp keys.symm
    simpa using inserted
  | cons head rest ih =>
    obtain ⟨head', rest', rfl, same, others⟩ := List.map_eq_cons_iff.mp keys.symm
    rw [List.orderedInsert_cons, List.orderedInsert_cons, ← key, same] at inserted
    split at inserted
    · simpa using inserted
    · simp only [List.map_cons, List.cons.injEq] at inserted ⊢
      obtain ⟨first, tail⟩ := ih others.symm inserted.2
      exact ⟨first, inserted.1, tail⟩

theorem keys_sortEntries {xs ys : JsonDict} (keys : xs.keys = ys.keys) :
    (sortEntries xs).keys = (sortEntries ys).keys := by
  induction xs generalizing ys with
  | nil =>
    obtain rfl := List.map_eq_nil_iff.mp keys.symm
    rfl
  | cons head rest ih =>
    obtain ⟨head', rest', rfl, same, others⟩ := List.map_eq_cons_iff.mp keys.symm
    exact keys_orderedInsert same.symm (ih others.symm)

/-- Sorting by keys moves the items of two dicts with the same keys alike. -/
theorem sortEntries_injective {xs ys : JsonDict} (keys : xs.keys = ys.keys)
    (sorted : (sortEntries xs).map f = (sortEntries ys).map f) : xs.map f = ys.map f := by
  induction xs generalizing ys with
  | nil =>
    obtain rfl := List.map_eq_nil_iff.mp keys.symm
    rfl
  | cons head rest ih =>
    obtain ⟨head', rest', rfl, same, others⟩ := List.map_eq_cons_iff.mp keys.symm
    obtain ⟨first, tail⟩ :=
      orderedInsert_injective same.symm (keys_sortEntries others.symm) sorted
    rw [List.map_cons, List.map_cons, first, ih others.symm tail]

end entries

theorem sortEach_eq (entries : JsonDict) :
    sortEach entries = entries.map fun x => (x.1, x.2.sortKeys) := by
  induction entries with
  | nil => rfl
  | cons x rest ih =>
    obtain ⟨key, value⟩ := x
    rw [sortEach, ih, List.map_cons]

theorem utf16Entries_eq (entries : JsonDict) :
    utf16Entries entries = entries.map fun x => (x.1.units, x.2.utf16) := by
  induction entries with
  | nil => rfl
  | cons x rest ih =>
    obtain ⟨key, value⟩ := x
    rw [utf16Entries, ih, List.map_cons]

theorem Same.items {xs ys : JsonDict} (keys : xs.keys = ys.keys)
    (same : Same (.dict xs) (.dict ys)) : List.Forall₂ (fun x y => Same x.2 y.2) xs ys := by
  simp only [Same, sortKeys, utf16, dict.injEq, utf16Entries_eq] at same
  have sortedKeys : JsonDict.keys (sortEach xs) = JsonDict.keys (sortEach ys) := by
    simp only [sortEach_eq, JsonDict.keys, List.map_map, Function.comp_def]
    exact keys
  have entries := sortEntries_injective sortedKeys same
  have values := congrArg (List.map Prod.snd) entries
  simp only [sortEach_eq, List.map_map, Function.comp_def] at values
  rw [← List.forall₂_eq_eq_eq, List.forall₂_map_left_iff, List.forall₂_map_right_iff] at values
  exact values

end JsonValue

end Sippycup.Python
