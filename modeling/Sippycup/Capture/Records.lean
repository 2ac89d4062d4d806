import Mathlib.Data.List.Infix
import Sippycup.Python.Number

/-! Classic PCAP files: a header of 24 bytes, then records of a 16-byte header
and a packet each. A file that is being written can end inside a record. -/
namespace Sippycup.Capture
open Sippycup.Python

inductive Endian where
  | little
  | big
  deriving DecidableEq

def magic? (header : List Nat) : Option Endian :=
  if header.take 4 = [0xd4, 0xc3, 0xb2, 0xa1] then some .little
  else if header.take 4 = [0xa1, 0xb2, 0xc3, 0xd4] then some .big
  else none

/-- One integer of `struct.unpack`. -/
def Endian.number (endian : Endian) (bytes : List Nat) : Nat :=
  match endian with
  | .little => bytes.foldr (fun byte rest => byte + 256 * rest) 0
  | .big => bytes.foldl (fun rest byte => 256 * rest + byte) 0

structure Header where
  seconds : Nat
  fraction : Nat
  included : Nat
  original : Nat
  deriving DecidableEq

def field (endian : Endian) (bytes : List Nat) (index : Nat) : Nat :=
  endian.number ((bytes.drop (4 * index)).take 4)

/-- `struct.unpack(endian + "IIII", header)` -/
def header? (endian : Endian) (bytes : List Nat) : Option Header :=
  if 16 ≤ bytes.length then
    some ⟨field endian bytes 0, field endian bytes 1, field endian bytes 2, field endian bytes 3⟩
  else none

structure Record where
  seconds : Nat
  fraction : Nat
  original : Nat
  packet : List Nat
  deriving DecidableEq

def Header.record (header : Header) (packet : List Nat) : Record :=
  ⟨header.seconds, header.fraction, header.original, packet⟩

/-- The record that the bytes start with, if it is complete, and the bytes after it. -/
def splitRecord (endian : Endian) (bytes : List Nat) : Option (Record × List Nat) :=
  match header? endian bytes with
  | some header =>
    if bytes.length < 16 + header.included then none
    else some (header.record ((bytes.drop 16).take header.included), bytes.drop (16 + header.included))
  | none => none

@[grind =] def recordsUpTo (endian : Endian) : Nat → List Nat → List Record
  | 0, _ => []
  | bound + 1, bytes =>
    match splitRecord endian bytes with
    | some (record, rest) => record :: recordsUpTo endian bound rest
    | none => []

/-- The complete records of the bytes. -/
def records (endian : Endian) (bytes : List Nat) : List Record :=
  recordsUpTo endian bytes.length bytes

def endian? (file : List Nat) : Option Endian := if 24 ≤ file.length then magic? (file.take 24) else none

/-- The complete records of a capture file. -/
def traffic (file : List Nat) : List Record :=
  match endian? file with
  | some endian => records endian (file.drop 24)
  | none => []

/-- Records that the bytes start with, and the bytes after them. -/
inductive Parses (endian : Endian) : List Nat → List Record → List Nat → Prop where
  | nil {bytes : List Nat} : Parses endian bytes [] bytes
  | cons {bytes middle rest : List Nat} {record : Record} {others : List Record}
    (first : splitRecord endian bytes = some (record, middle)) (later : Parses endian middle others rest) :
    Parses endian bytes (record :: others) rest

variable {endian : Endian} {bytes middle rest : List Nat} {record : Record} {xs : List Record}

theorem Parses.snoc (before : Parses endian bytes xs middle)
    (last : splitRecord endian middle = some (record, rest)) : Parses endian bytes (xs ++ [record]) rest := by
  induction before with
  | nil => exact .cons last .nil
  | cons first _ ih => exact .cons first (ih last)

theorem splitRecord_some (split : splitRecord endian bytes = some (record, rest)) :
    ∃ header, header? endian bytes = some header ∧ 16 + header.included ≤ bytes.length ∧
      record = header.record ((bytes.drop 16).take header.included) ∧
      rest = bytes.drop (16 + header.included) := by
  unfold splitRecord at split
  split at split
  · rename_i header found
    split at split
    · cases split
    · rename_i whole
      cases split
      exact ⟨header, found, Nat.le_of_not_lt whole, rfl, rfl⟩
  · cases split

theorem splitRecord_shorter (split : splitRecord endian bytes = some (record, rest)) :
    rest.length < bytes.length := by
  obtain ⟨header, _, whole, _, rfl⟩ := splitRecord_some split
  rw [List.length_drop]
  omega

theorem recordsUpTo_eq {n m : Nat} (enough : bytes.length ≤ n) (others : bytes.length ≤ m) :
    recordsUpTo endian n bytes = recordsUpTo endian m bytes := by
  have short {bytes : List Nat} (none_ : bytes.length = 0) : splitRecord endian bytes = none := by
    rw [List.length_eq_zero_iff.mp none_]
    rfl
  induction n generalizing m bytes with
  | zero =>
    cases m with
    | zero => rfl
    | succ m => rw [recordsUpTo, recordsUpTo, short (Nat.le_zero.mp enough)]
  | succ n ih =>
    cases m with
    | zero => rw [recordsUpTo, recordsUpTo, short (Nat.le_zero.mp others)]
    | succ m =>
      rw [recordsUpTo, recordsUpTo]
      split
      · rename_i record rest split
        have shorter := splitRecord_shorter split
        rw [ih (m := m) (by omega) (by omega)]
      · rfl

theorem records_of_split (split : splitRecord endian bytes = some (record, rest)) :
    records endian bytes = record :: records endian rest := by
  have shorter := splitRecord_shorter split
  obtain ⟨n, size⟩ : ∃ n, bytes.length = n + 1 := ⟨bytes.length - 1, by omega⟩
  rw [records, size, recordsUpTo, split]
  exact congrArg (record :: ·) (recordsUpTo_eq (by omega) (Nat.le_refl _))

theorem records_of_none (incomplete : splitRecord endian bytes = none) : records endian bytes = [] := by
  rw [records]
  cases bytes.length with
  | zero => rfl
  | succ n => rw [recordsUpTo, incomplete]

/-- Records read so far, and those of the bytes after them. -/
theorem Parses.records (parses : Parses endian bytes xs rest) :
    Capture.records endian bytes = xs ++ Capture.records endian rest := by
  induction parses with
  | nil => rfl
  | cons first _ ih => rw [records_of_split first, ih, List.cons_append]

theorem header?_append {header : Header} (more : List Nat) (found : header? endian bytes = some header) :
    header? endian (bytes ++ more) = some header := by
  unfold header? at found ⊢
  split at found
  · rename_i whole
    have same (index : Nat) (inside : index ≤ 3) :
        field endian (bytes ++ more) index = field endian bytes index := by
      rw [field, field, List.drop_append_of_le_length (by omega),
        List.take_append_of_le_length (by rw [List.length_drop]; omega)]
    rw [if_pos (by rw [List.length_append]; omega), same 0 (by omega), same 1 (by omega),
      same 2 (by omega), same 3 (by omega)]
    exact found
  · cases found

theorem header?_take : header? endian (bytes.take 16) = header? endian bytes := by
  by_cases whole : 16 ≤ bytes.length
  · have short : 16 ≤ (bytes.take 16).length := by
      rw [List.length_take]
      omega
    have found : header? endian (bytes.take 16) = some _ := if_pos short
    have joined := header?_append (bytes.drop 16) found
    rw [List.take_append_drop] at joined
    rw [found, joined]
  · rw [List.take_of_length_le (by omega)]

/-- A complete record stays what it is when the file grows. -/
theorem splitRecord_append (more : List Nat) (split : splitRecord endian bytes = some (record, rest)) :
    splitRecord endian (bytes ++ more) = some (record, rest ++ more) := by
  obtain ⟨header, found, whole, rfl, rfl⟩ := splitRecord_some split
  rw [splitRecord, header?_append more found]
  dsimp only
  rw [if_neg (by rw [List.length_append]; omega), List.drop_append_of_le_length (by omega),
    List.take_append_of_le_length (by rw [List.length_drop]; omega),
    List.drop_append_of_le_length whole]

theorem Parses.append (more : List Nat) (parses : Parses endian bytes xs rest) :
    Parses endian (bytes ++ more) xs (rest ++ more) := by
  induction parses with
  | nil => exact .nil
  | cons first _ ih => exact .cons (splitRecord_append more first) ih

end Sippycup.Capture
