import Sippycup.Python.JsonReread

/-! UTF-8, strict: text without surrogates as bytes, and back. -/
namespace Sippycup.Python
open Sippycup.Ip

namespace Utf8

def encodeCode (code : Nat) : List Nat :=
  if code < 0x80 then [code]
  else if code < 0x800 then [0xC0 + code / 0x40, 0x80 + code % 0x40]
  else if code < 0x10000 then
    [0xE0 + code / 0x1000, 0x80 + code / 0x40 % 0x40, 0x80 + code % 0x40]
  else [0xF0 + code / 0x40000, 0x80 + code / 0x1000 % 0x40, 0x80 + code / 0x40 % 0x40,
    0x80 + code % 0x40]

/-- `text.encode("utf-8")`; nothing for text with a surrogate. -/
def encode? (codes : Codes) : Option (List Nat) :=
  if ∀ code ∈ codes, isScalar code then some (codes.flatMap encodeCode) else none

def continues (byte : Nat) : Bool := decide (0x80 ≤ byte ∧ byte < 0xC0)

def decodeTwo (a : Nat) : List Nat → Option (Nat × List Nat)
  | b :: rest =>
    let code := (a - 0xC0) * 0x40 + (b - 0x80)
    if continues b ∧ 0x80 ≤ code then some (code, rest) else none
  | [] => none

def decodeThree (a : Nat) : List Nat → Option (Nat × List Nat)
  | b :: c :: rest =>
    let code := (a - 0xE0) * 0x1000 + (b - 0x80) * 0x40 + (c - 0x80)
    if (continues b ∧ continues c) ∧ 0x800 ≤ code ∧ isScalar code then some (code, rest) else none
  | _ => none

def decodeFour (a : Nat) : List Nat → Option (Nat × List Nat)
  | b :: c :: d :: rest =>
    let code := (a - 0xF0) * 0x40000 + (b - 0x80) * 0x1000 + (c - 0x80) * 0x40 + (d - 0x80)
    if (continues b ∧ continues c ∧ continues d) ∧ 0x10000 ≤ code ∧ code < 0x110000 then
      some (code, rest) else none
  | _ => none

/-- The code point that the bytes start with, and the bytes after it. -/
def decodeOne : List Nat → Option (Nat × List Nat)
  | [] => none
  | a :: rest =>
    if a < 0x80 then some (a, rest)
    else if 0xC0 ≤ a ∧ a < 0xE0 then decodeTwo a rest
    else if 0xE0 ≤ a ∧ a < 0xF0 then decodeThree a rest
    else if 0xF0 ≤ a ∧ a < 0xF8 then decodeFour a rest
    else none

/-- At most `bound` code points of the bytes, all of them in the end. -/
@[grind =] def decodeUpTo : Nat → List Nat → Option Codes
  | _, [] => some []
  | 0, _ :: _ => none
  | bound + 1, byte :: bytes => do
    let (code, rest) ← decodeOne (byte :: bytes)
    return code :: (← decodeUpTo bound rest)

/-- `data.decode("utf-8")` -/
def decode? (bytes : List Nat) : Option Codes := decodeUpTo bytes.length bytes

theorem decodeTwo_append {a code : Nat} {bytes rest : List Nat} (more : List Nat)
    (read : decodeTwo a bytes = some (code, rest)) :
    decodeTwo a (bytes ++ more) = some (code, rest ++ more) ∧ rest.length < bytes.length := by
  match bytes, read with
  | b :: tail, read =>
    rw [decodeTwo] at read
    split at read
    · rename_i valid
      rw [Option.some.injEq, Prod.mk.injEq] at read
      obtain ⟨rfl, rfl⟩ := read
      rw [List.cons_append, decodeTwo]
      rw [if_pos valid]
      exact ⟨rfl, Nat.lt_succ_self _⟩
    · cases read

theorem decodeThree_append {a code : Nat} {bytes rest : List Nat} (more : List Nat)
    (read : decodeThree a bytes = some (code, rest)) :
    decodeThree a (bytes ++ more) = some (code, rest ++ more) ∧ rest.length < bytes.length := by
  match bytes, read with
  | b :: c :: tail, read =>
    rw [decodeThree] at read
    split at read
    · rename_i valid
      rw [Option.some.injEq, Prod.mk.injEq] at read
      obtain ⟨rfl, rfl⟩ := read
      rw [List.cons_append, List.cons_append, decodeThree]
      rw [if_pos valid]
      exact ⟨rfl, by simp only [List.length_cons]; omega⟩
    · cases read

theorem decodeFour_append {a code : Nat} {bytes rest : List Nat} (more : List Nat)
    (read : decodeFour a bytes = some (code, rest)) :
    decodeFour a (bytes ++ more) = some (code, rest ++ more) ∧ rest.length < bytes.length := by
  match bytes, read with
  | b :: c :: d :: tail, read =>
    rw [decodeFour] at read
    split at read
    · rename_i valid
      rw [Option.some.injEq, Prod.mk.injEq] at read
      obtain ⟨rfl, rfl⟩ := read
      rw [List.cons_append, List.cons_append, List.cons_append, decodeFour]
      rw [if_pos valid]
      exact ⟨rfl, by simp only [List.length_cons]; omega⟩
    · cases read

theorem decodeOne_append {bytes rest : List Nat} {code : Nat} (more : List Nat)
    (read : decodeOne bytes = some (code, rest)) :
    decodeOne (bytes ++ more) = some (code, rest ++ more) ∧ rest.length < bytes.length := by
  cases bytes with
  | nil => cases read
  | cons a tail =>
    rw [List.cons_append, decodeOne, List.length_cons]
    rw [decodeOne] at read
    split at read
    · rename_i one
      rw [if_pos one]
      cases read
      exact ⟨rfl, Nat.lt_succ_self _⟩
    · rename_i notOne
      rw [if_neg notOne]
      split at read
      · rename_i two
        obtain ⟨onward, shorter⟩ := decodeTwo_append more read
        rw [if_pos two]
        exact ⟨onward, by omega⟩
      · rename_i notTwo
        rw [if_neg notTwo]
        split at read
        · rename_i three
          obtain ⟨onward, shorter⟩ := decodeThree_append more read
          rw [if_pos three]
          exact ⟨onward, by omega⟩
        · rename_i notThree
          rw [if_neg notThree]
          split at read
          · rename_i four
            obtain ⟨onward, shorter⟩ := decodeFour_append more read
            rw [if_pos four]
            exact ⟨onward, by omega⟩
          · cases read

theorem decodeOne_encode {code : Nat} (scalar : isScalar code) (rest : List Nat) :
    decodeOne (encodeCode code ++ rest) = some (code, rest) := by
  have bounds := scalar
  unfold isScalar at bounds
  rw [encodeCode]
  split
  · rename_i one
    rw [List.singleton_append, decodeOne, if_pos one]
  · rename_i notOne
    split
    · rename_i two
      have value : (0xC0 + code / 0x40 - 0xC0) * 0x40 + (0x80 + code % 0x40 - 0x80) = code := by omega
      simp only [List.cons_append, List.nil_append, decodeOne, decodeTwo, value, continues, decide_eq_true_eq]
      rw [if_neg (by omega), if_pos (by omega), if_pos (by omega)]
    · rename_i notTwo
      split
      · rename_i three
        have value : (0xE0 + code / 0x1000 - 0xE0) * 0x1000 + (0x80 + code / 0x40 % 0x40 - 0x80) * 0x40 +
            (0x80 + code % 0x40 - 0x80) = code := by omega
        simp only [List.cons_append, List.nil_append, decodeOne, decodeThree, value, continues,
          decide_eq_true_eq]
        rw [if_neg (by omega), if_neg (by omega), if_pos (by omega),
          if_pos ⟨by omega, by omega, scalar⟩]
      · rename_i notThree
        have value : (0xF0 + code / 0x40000 - 0xF0) * 0x40000 +
            (0x80 + code / 0x1000 % 0x40 - 0x80) * 0x1000 + (0x80 + code / 0x40 % 0x40 - 0x80) * 0x40 +
            (0x80 + code % 0x40 - 0x80) = code := by omega
        simp only [List.cons_append, List.nil_append, decodeOne, decodeFour, value, continues,
          decide_eq_true_eq]
        rw [if_neg (by omega), if_neg (by omega), if_neg (by omega), if_pos (by omega),
          if_pos ⟨by omega, by omega, by omega⟩]

theorem decodeUpTo_eq {n m : Nat} {bytes : List Nat} (enough : bytes.length ≤ n)
    (others : bytes.length ≤ m) : decodeUpTo n bytes = decodeUpTo m bytes := by
  induction n generalizing m bytes with
  | zero =>
    obtain rfl := List.length_eq_zero_iff.mp (Nat.le_zero.mp enough)
    cases m <;> rfl
  | succ n ih =>
    cases bytes with
    | nil => cases m <;> rfl
    | cons a rest =>
      obtain ⟨m, rfl⟩ : ∃ k, m = k + 1 := ⟨m - 1, by rw [List.length_cons] at others; omega⟩
      rw [decodeUpTo, decodeUpTo]
      cases read : decodeOne (a :: rest) with
      | none => rfl
      | some one =>
        have shorter := (decodeOne_append [] read).2
        dsimp only [Option.bind_eq_bind, Option.bind_some]
        rw [ih (m := m) (by omega) (by omega)]

theorem decode?_cons {bytes rest : List Nat} {code : Nat} (read : decodeOne bytes = some (code, rest)) :
    decode? bytes = (decode? rest).map (code :: ·) := by
  have shorter := (decodeOne_append [] read).2
  cases bytes with
  | nil => cases read
  | cons a tail =>
    rw [decode?, List.length_cons, decodeUpTo, read, decode?]
    rw [List.length_cons] at shorter
    dsimp only [Option.bind_eq_bind, Option.bind_some]
    rw [decodeUpTo_eq (n := tail.length) (m := rest.length) (by omega) le_rfl]
    cases decodeUpTo rest.length rest <;> rfl

theorem decode?_none {bytes : List Nat} (some_ : bytes ≠ []) (unread : decodeOne bytes = none) :
    decode? bytes = none := by
  cases bytes with
  | nil => exact absurd rfl some_
  | cons a tail =>
    rw [decode?, List.length_cons, decodeUpTo, unread]
    rfl

/-- Bytes that decode are decoded first, whatever follows. -/
theorem decode?_append {bytes more : List Nat} {codes : Codes} (read : decode? bytes = some codes) :
    decode? (bytes ++ more) = (decode? more).map (codes ++ ·) := by
  induction len : bytes.length using Nat.strong_induction_on generalizing bytes codes with
  | _ n ih =>
    subst len
    by_cases none_ : bytes = []
    · subst none_
      obtain rfl := Option.some.inj read
      rw [List.nil_append]
      cases decode? more <;> rfl
    · cases one : decodeOne bytes with
      | none => rw [decode?_none none_ one] at read; cases read
      | some step =>
        obtain ⟨code, rest⟩ := step
        obtain ⟨onward, shorter⟩ := decodeOne_append more one
        rw [decode?_cons one, Option.map_eq_some_iff] at read
        obtain ⟨others, read, rfl⟩ := read
        rw [decode?_cons onward, ih _ shorter read rfl, Option.map_map]
        rfl

theorem decode?_encode {codes : Codes} (scalars : ∀ code ∈ codes, isScalar code) :
    decode? (codes.flatMap encodeCode) = some codes := by
  induction codes with
  | nil => rfl
  | cons code rest ih =>
    obtain ⟨scalar, scalars⟩ := List.forall_mem_cons.mp scalars
    rw [List.flatMap_cons, decode?_cons (decodeOne_encode scalar _), ih scalars]
    rfl

theorem encode?_some {codes : Codes} {bytes : List Nat} :
    encode? codes = some bytes ↔ (∀ code ∈ codes, isScalar code) ∧ bytes = codes.flatMap encodeCode := by
  rw [encode?]
  split
  · rename_i scalars
    rw [Option.some.injEq]
    exact ⟨fun same => ⟨scalars, same.symm⟩, fun both => both.2.symm⟩
  · rename_i surrogate
    constructor
    · intro none_
      cases none_
    · exact fun both => absurd both.1 surrogate

theorem decode?_of_encode? {codes : Codes} {bytes : List Nat} (encoded : encode? codes = some bytes) :
    decode? bytes = some codes := by
  obtain ⟨scalars, rfl⟩ := encode?_some.mp encoded
  exact decode?_encode scalars

theorem encode?_injective {xs ys : Codes} {bytes : List Nat} (left : encode? xs = some bytes)
    (right : encode? ys = some bytes) : xs = ys :=
  Option.some.inj ((decode?_of_encode? left).symm.trans (decode?_of_encode? right))

end Utf8
end Sippycup.Python

/-! Files opened as text: UTF-8 with universal newlines, read line by line. -/
namespace Sippycup.Python
open Sippycup.Ip

namespace TextFile

/-- `\r\n` and `\r` as `\n`; whether a `\r` came last says what a `\n` adds. -/
@[grind =] def newlines (afterReturn : Bool) : Codes → Codes
  | [] => []
  | code :: rest =>
    if code = 13 then 10 :: newlines true rest
    else if code = 10 ∧ afterReturn then newlines false rest
    else code :: newlines false rest

/-- Lines with their ends, which the last one may lack. -/
@[grind =] def lines : Codes → List Codes
  | [] => []
  | code :: rest =>
    if code = 10 then [code] :: lines rest
    else
      match lines rest with
      | [] => [[code]]
      | line :: others => (code :: line) :: others

example : lines (newlines false [97, 13, 10, 98]) = [[97, 10], [98]] := by
  simp [newlines, lines]

/-- What a text file holds; nothing when it is not UTF-8. -/
def read? (bytes : List Nat) : Option Codes := (Utf8.decode? bytes).map (newlines false)

theorem newlines_append {codes more : Codes} (start : more.head? ≠ some 10) (flag : Bool) :
    newlines flag (codes ++ more) = newlines flag codes ++ newlines false more := by
  induction codes generalizing flag with
  | nil =>
    cases more with
    | nil => rfl
    | cons code rest =>
      have other : code ≠ 10 := fun same => start (congrArg some same)
      have skip (flag : Bool) : ¬(code = 10 ∧ flag = true) := fun both => other both.1
      rw [List.nil_append, newlines.eq_1, List.nil_append, newlines, newlines, if_neg (skip flag),
        if_neg (skip false)]
  | cons code rest ih =>
    rw [List.cons_append, newlines, newlines, ih, ih]
    split
    · rfl
    · split <;> rfl

theorem newlines_plain {codes : Codes} (plain : ∀ code ∈ codes, code ≠ 13) : newlines false codes = codes := by
  induction codes with
  | nil => rfl
  | cons code rest ih =>
    obtain ⟨first, others⟩ := List.forall_mem_cons.mp plain
    rw [newlines, if_neg first, if_neg (fun both => Bool.false_ne_true both.2), ih others]

theorem newlines_size (codes : Codes) (flag : Bool) :
    ((newlines flag codes).flatMap Utf8.encodeCode).length ≤ (codes.flatMap Utf8.encodeCode).length := by
  induction codes generalizing flag with
  | nil => exact Nat.le_refl _
  | cons code rest ih =>
    rw [newlines, List.flatMap_cons, List.length_append]
    split
    · rename_i same
      subst same
      rw [List.flatMap_cons, List.length_append]
      exact Nat.add_le_add_left (ih true) 1
    · split
      · exact Nat.le_trans (ih false) (Nat.le_add_left _ _)
      · rw [List.flatMap_cons, List.length_append]
        exact Nat.add_le_add_left (ih false) _

theorem lines_flatten (codes : Codes) : (lines codes).flatten = codes := by
  induction codes with
  | nil => rfl
  | cons code rest ih =>
    rw [lines]
    split
    · rw [List.flatten_cons, ih]
      rfl
    · split
      · rename_i none_
        rw [none_] at ih
        rw [← ih]
        rfl
      · rename_i line others some_
        rw [some_] at ih
        rw [← ih]
        rfl

theorem lines_append {codes : Codes} (more : Codes) (ended : ∀ line ∈ lines codes, line.getLast? = some 10) :
    lines (codes ++ more) = lines codes ++ lines more := by
  induction codes with
  | nil => rfl
  | cons code rest ih =>
    rw [lines] at ended
    rw [List.cons_append, lines, lines]
    split
    · rename_i same
      rw [if_pos same] at ended
      rw [ih fun line member => ended line (List.mem_cons_of_mem _ member)]
      rfl
    · rename_i other
      rw [if_neg other] at ended
      cases split_ : lines rest with
      | nil =>
        rw [split_] at ended
        have last := ended [code] List.mem_cons_self
        exact absurd (Option.some.inj last) other
      | cons line others =>
        rw [split_] at ended ih
        have last := ended (code :: line) List.mem_cons_self
        have first : line.getLast? = some 10 := by
          cases line with
          | nil => exact absurd (Option.some.inj last) other
          | cons c cs => rwa [List.getLast?_cons_cons] at last
        rw [ih fun l member => ?_]
        · rfl
        · rcases List.mem_cons.mp member with rfl | later
          · exact first
          · exact ended l (List.mem_cons_of_mem _ later)

/-- A text without an inner end of line is one line. -/
theorem lines_single {codes : Codes} (inner : ∀ code ∈ codes, code ≠ 10) :
    lines (codes ++ [10]) = [codes ++ [10]] := by
  induction codes with
  | nil => rfl
  | cons code rest ih =>
    obtain ⟨first, others⟩ := List.forall_mem_cons.mp inner
    rw [List.cons_append, lines, if_neg first, ih others]

end TextFile

namespace Utf8

theorem continues_iff {byte : Nat} : continues byte = true ↔ 0x80 ≤ byte ∧ byte < 0xC0 := decide_eq_true_iff

theorem decodeTwo_length {a code : Nat} {bytes rest : List Nat} (lead : a < 0xE0)
    (read : decodeTwo a bytes = some (code, rest)) : bytes.length + 1 = (encodeCode code).length + rest.length := by
  match bytes, read with
  | b :: tail, read =>
    rw [decodeTwo] at read
    split at read
    · rename_i valid
      rw [Option.some.injEq, Prod.mk.injEq] at read
      obtain ⟨same, rfl⟩ := read
      rw [continues_iff] at valid
      rw [encodeCode, if_neg (by omega), if_pos (by omega), List.length_cons]
      exact Nat.add_comm _ 2
    · cases read

theorem decodeThree_length {a code : Nat} {bytes rest : List Nat} (lead : a < 0xF0)
    (read : decodeThree a bytes = some (code, rest)) : bytes.length + 1 = (encodeCode code).length + rest.length := by
  match bytes, read with
  | b :: c :: tail, read =>
    rw [decodeThree] at read
    split at read
    · rename_i valid
      rw [Option.some.injEq, Prod.mk.injEq] at read
      obtain ⟨same, rfl⟩ := read
      rw [continues_iff, continues_iff] at valid
      rw [encodeCode, if_neg (by omega), if_neg (by omega), if_pos (by omega), List.length_cons,
        List.length_cons]
      exact Nat.add_comm _ 3
    · cases read

theorem decodeFour_length {a code : Nat} {bytes rest : List Nat}
    (read : decodeFour a bytes = some (code, rest)) : bytes.length + 1 = (encodeCode code).length + rest.length := by
  match bytes, read with
  | b :: c :: d :: tail, read =>
    rw [decodeFour] at read
    split at read
    · rename_i valid
      rw [Option.some.injEq, Prod.mk.injEq] at read
      obtain ⟨same, rfl⟩ := read
      rw [encodeCode, if_neg (by omega), if_neg (by omega), if_neg (by omega), List.length_cons,
        List.length_cons, List.length_cons]
      exact Nat.add_comm _ 4
    · cases read

theorem decodeOne_length {bytes rest : List Nat} {code : Nat} (read : decodeOne bytes = some (code, rest)) :
    bytes.length = (encodeCode code).length + rest.length := by
  cases bytes with
  | nil => cases read
  | cons a tail =>
    rw [decodeOne] at read
    rw [List.length_cons]
    split at read
    · rename_i one
      cases read
      rw [encodeCode, if_pos one]
      exact Nat.add_comm _ 1
    · split at read
      · rename_i two
        exact decodeTwo_length two.2 read
      · split at read
        · rename_i three
          exact decodeThree_length three.2 read
        · split at read
          · exact decodeFour_length read
          · cases read

/-- Strict decoding: text encodes in as many bytes as it was read from. -/
theorem decode?_length {bytes : List Nat} {codes : Codes} (read : decode? bytes = some codes) :
    bytes.length = (codes.flatMap encodeCode).length := by
  induction len : bytes.length using Nat.strong_induction_on generalizing bytes codes with
  | _ n ih =>
    subst len
    by_cases none_ : bytes = []
    · subst none_
      obtain rfl := Option.some.inj read
      rfl
    · cases one : decodeOne bytes with
      | none => rw [decode?_none none_ one] at read; cases read
      | some step =>
        obtain ⟨code, rest⟩ := step
        obtain ⟨-, shorter⟩ := decodeOne_append [] one
        rw [decode?_cons one, Option.map_eq_some_iff] at read
        obtain ⟨others, read, rfl⟩ := read
        rw [decodeOne_length one, ih _ shorter read rfl, List.flatMap_cons, List.length_append]

end Utf8
end Sippycup.Python
