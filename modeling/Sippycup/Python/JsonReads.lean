import Sippycup.Python.JsonLoads

/-! Written documents read back. `Reads v codes` says that the scanner takes the
text for the value, whatever follows it; strings, numbers, lists and dicts have a
rule each, with blanks allowed where a writer puts them. -/
namespace Sippycup.Python
open Sippycup.Ip

namespace Json

/-- No number goes on in the text. -/
def Ends (codes : Codes) : Prop :=
  ∀ c ∈ codes.head?, isDigit c = false ∧ c ≠ 46 ∧ c ≠ 101 ∧ c ≠ 69

structure Reads (v : JsonValue) (codes : Codes) : Prop where
  head : ∃ c rest, codes = c :: rest ∧ isBlank c = false ∧ c ≠ 93 ∧ c < 128
  scan : ∀ bound tail, 2 * codes.length ≤ bound → Ends tail → scanValue bound (codes ++ tail) = .ok (v, tail)

/-- A string's text after its opening quote. -/
def ReadsText (t : Text) (codes : Codes) : Prop := ∀ tail, scanString (codes ++ tail) = .ok (t, tail)

section strings

theorem joinLow_plain {unit : Nat} (plain : isHigh unit = false) (rest : Codes) :
    joinLow unit rest = .ok (unit, rest) := by
  unfold joinLow
  split
  · rw [plain]
    rfl
  · rfl

theorem hexDigit_isHexDigit : ∀ d < 16, isHexDigit (Text.hexDigit d) = true := by decide

theorem scanHex_unit {unit : Nat} (small : unit < 0x10000) (tail : Codes) :
    scanHex (Text.hexPadded 4 unit ++ tail) = .ok (unit, tail) := by
  have digits : Text.hexPadded 4 unit = [Text.hexDigit (unit / 16 / 16 / 16 % 16),
      Text.hexDigit (unit / 16 / 16 % 16), Text.hexDigit (unit / 16 % 16),
      Text.hexDigit (unit % 16)] := rfl
  have hex (n : Nat) : isHexDigit (Text.hexDigit (n % 16)) = true :=
    hexDigit_isHexDigit _ (Nat.mod_lt _ (by decide))
  have value (n : Nat) : digitValue (Text.hexDigit (n % 16)) = n % 16 :=
    JsonText.digitValue_hexDigit _ (Nat.mod_lt _ (by decide))
  rw [digits]
  simp only [List.cons_append, List.nil_append, scanHex, List.all_cons, List.all_nil, hex, Bool.and_true,
    if_true, JsonText.hexValue, List.foldl_cons, List.foldl_nil, value]
  rw [Except.ok.injEq, Prod.mk.injEq]
  exact ⟨by omega, rfl⟩

/-- What one character of a body is scanned as. -/
def Scans (codes : Codes) (code : Nat) : Prop :=
  codes ≠ [] ∧ ∀ bound rest, scanBody (bound + 1) (codes ++ rest) =
    (do let (body, rest) ← scanBody bound rest
        return (code :: body, rest))

theorem scans_plain {code : Nat} (printed : 32 ≤ code) (quote : code ≠ 34) (slash : code ≠ 92) :
    Scans [code] code := by
  refine ⟨List.cons_ne_nil _ _, fun bound rest => ?_⟩
  rw [List.singleton_append, scanBody, if_neg quote, if_neg slash, if_neg (by omega)]

theorem scans_simple {letter code : Nat} (named : simpleEscape? letter = some code) (other : letter ≠ 117) :
    Scans [92, letter] code := by
  refine ⟨List.cons_ne_nil _ _, fun bound rest => ?_⟩
  rw [List.cons_append, List.singleton_append, scanBody, if_neg (by decide), if_pos rfl, scanEscape,
    if_neg other, named]
  rfl

theorem scans_unit {unit : Nat} (small : unit < 0x10000) (plain : isHigh unit = false) :
    Scans (escapeUnit unit) unit := by
  refine ⟨List.cons_ne_nil _ _, fun bound rest => ?_⟩
  have escaped : escapeUnit unit ++ rest = 92 :: 117 :: (Text.hexPadded 4 unit ++ rest) := rfl
  rw [escaped, scanBody, if_neg (by decide), if_pos rfl, scanEscape, if_pos rfl, scanHex_unit small,
    ok_bind]
  dsimp only
  rw [joinLow_plain plain]
  rfl

theorem control_not_high {code : Nat} (control : code < 32) : isHigh code = false := by
  unfold isHigh
  exact decide_eq_false (by omega)

theorem scans_raw (code : Nat) : Scans (escapeRaw code) code := by
  unfold escapeRaw
  split
  · rename_i same
    exact same ▸ scans_simple rfl (by decide)
  split
  · rename_i same
    exact same ▸ scans_simple rfl (by decide)
  split
  · rename_i same
    exact same ▸ scans_simple rfl (by decide)
  split
  · rename_i same
    exact same ▸ scans_simple rfl (by decide)
  split
  · rename_i same
    exact same ▸ scans_simple rfl (by decide)
  split
  · rename_i same
    exact same ▸ scans_simple rfl (by decide)
  split
  · rename_i same
    exact same ▸ scans_simple rfl (by decide)
  split
  · rename_i control
    exact scans_unit (by omega) (control_not_high control)
  · rename_i quote slash _ _ _ _ _ printed
    exact scans_plain (by omega) quote slash

/-- A string written character by character. -/
theorem readsText_of_scans {t : Text} {write : Nat → Codes} (each : ∀ code ∈ t.codes, Scans (write code) code) :
    ReadsText t (t.codes.flatMap write ++ [34]) := by
  suffices body : ∀ (codes tail : Codes) (bound : Nat), (∀ code ∈ codes, Scans (write code) code) →
      codes.length < bound → scanBody bound (codes.flatMap write ++ 34 :: tail) = .ok (codes, tail) by
    intro tail
    have enough : t.codes.length ≤ (t.codes.flatMap write).length := by
      generalize t.codes = codes at each
      induction codes with
      | nil => exact Nat.le_refl _
      | cons code rest ih =>
        obtain ⟨first, others⟩ := List.forall_mem_cons.mp each
        have positive := List.length_pos_iff.mpr first.1
        have later := ih others
        rw [List.flatMap_cons, List.length_append, List.length_cons]
        omega
    rw [scanString, List.append_assoc, List.singleton_append, body t.codes tail _ each]
    · rfl
    · rw [List.length_append, List.length_cons]
      omega
  intro codes tail bound each enough
  induction codes generalizing bound with
  | nil =>
    obtain ⟨bound, rfl⟩ : ∃ n, bound = n + 1 := ⟨bound - 1, by rw [List.length_nil] at enough; omega⟩
    rfl
  | cons code rest ih =>
    obtain ⟨bound, rfl⟩ : ∃ n, bound = n + 1 := ⟨bound - 1, by rw [List.length_cons] at enough; omega⟩
    obtain ⟨first, others⟩ := List.forall_mem_cons.mp each
    rw [List.flatMap_cons, List.append_assoc, first.2,
      ih bound others (by rw [List.length_cons] at enough; omega)]
    rfl

theorem readsText_raw (t : Text) : ReadsText t (t.codes.flatMap escapeRaw ++ [34]) :=
  readsText_of_scans fun code _ => scans_raw code

theorem reads_str {t : Text} {codes : Codes} (body : ReadsText t codes) : Reads (.str t) (34 :: codes) := by
  refine ⟨⟨34, codes, rfl, by decide⟩, fun bound tail enough _ => ?_⟩
  obtain ⟨bound, rfl⟩ : ∃ n, bound = n + 1 := ⟨bound - 1, by rw [List.length_cons] at enough; omega⟩
  rw [List.cons_append, scanValue, body]
  rfl

theorem reads_encodeRaw (t : Text) : Reads (.str t) (encodeRaw t) := reads_str (readsText_raw t)

end strings

section scalars

theorem scanScalar_word {word tail : Codes} {value : JsonValue} (listed : (word, value) ∈ words) :
    scanScalar (word ++ tail) = .ok (value, tail) := by
  have found : words.find? (fun other => other.1.isPrefixOf (word ++ tail)) = some (word, value) := by
    simp only [words, List.mem_cons, List.not_mem_nil, or_false, Prod.mk.injEq] at listed
    rcases listed with ⟨rfl, rfl⟩ | ⟨rfl, rfl⟩ | ⟨rfl, rfl⟩ | ⟨rfl, rfl⟩ | ⟨rfl, rfl⟩ | ⟨rfl, rfl⟩ <;> rfl
  rw [scanScalar, found]
  dsimp only
  rw [List.drop_left]

theorem reads_word {word : Codes} {value : JsonValue} (listed : (word, value) ∈ words) : Reads value word := by
  have first : ∀ w ∈ words, ∃ c rest, w.1 = c :: rest ∧ (isBlank c = false ∧ c ≠ 93 ∧ c < 128) ∧
      c ≠ 34 ∧ c ≠ 91 ∧ c ≠ 123 := by
    simp only [words, List.forall_mem_cons]
    refine ⟨⟨110, _, rfl, ?_⟩, ⟨116, _, rfl, ?_⟩, ⟨102, _, rfl, ?_⟩, ⟨78, _, rfl, ?_⟩, ⟨73, _, rfl, ?_⟩,
      ⟨45, _, rfl, ?_⟩, fun _ member => by cases member⟩ <;> decide
  obtain ⟨c, rest, rfl, head, quote, list, dict⟩ := first _ listed
  refine ⟨⟨c, rest, rfl, head⟩, fun bound tail enough _ => ?_⟩
  obtain ⟨bound, rfl⟩ : ∃ n, bound = n + 1 := ⟨bound - 1, by rw [List.length_cons] at enough; omega⟩
  have scanned := @scanScalar_word _ tail _ listed
  rw [List.cons_append] at scanned ⊢
  rw [scanValue.eq_def]
  dsimp only
  split
  · rename_i same
    exact absurd (List.cons.inj same).1 quote
  · rename_i same
    exact absurd (List.cons.inj same).1 list
  · rename_i same
    exact absurd (List.cons.inj same).1 dict
  · exact scanned

theorem reads_null : Reads .null (ascii "null") := reads_word (by simp [words])

theorem reads_bool (b : Bool) : Reads (.bool b) (encodeBool b) := by
  cases b
  · exact reads_word (by simp [words, encodeBool])
  · exact reads_word (by simp [words, encodeBool])

theorem digitsOf_append {digits tail : Codes} (all : ∀ c ∈ digits, isDigit c = true)
    (stops : ∀ c ∈ tail.head?, isDigit c = false) : digitsOf (digits ++ tail) = (digits, tail) := by
  have later : tail.takeWhile isDigit = [] ∧ tail.dropWhile isDigit = tail := by
    cases tail with
    | nil => exact ⟨rfl, rfl⟩
    | cons c rest =>
      have stop := stops c rfl
      exact ⟨List.takeWhile_cons_of_neg (by rw [stop]; decide),
        List.dropWhile_cons_of_neg (by rw [stop]; decide)⟩
  rw [digitsOf, List.takeWhile_append_of_pos all, List.dropWhile_append_of_pos all, later.1, later.2,
    List.append_nil]

theorem scanWhole_render (n : Nat) {tail : Codes} (ends : Ends tail) :
    scanWhole (renderNumeral 10 n ++ tail) = (renderNumeral 10 n, tail) := by
  have stops : ∀ c ∈ tail.head?, isDigit c = false := fun c head => (ends c head).1
  rcases Nat.eq_zero_or_pos n with rfl | positive
  · rcases @renderNumeral_zero 10 with zero | base
    · rw [zero]
      rfl
    · cases base
  · have whole := digitsOf_append (renderNumeral_decimal (n := n)) stops
    obtain ⟨c, rest, split⟩ := List.exists_cons_of_ne_nil (@renderNumeral_ne_nil 10 n)
    have leading : c ≠ 48 := by
      rintro rfl
      have zero := @renderNumeral_head 10 n (by decide) (by decide) (by rw [split]; rfl)
      omega
    unfold scanWhole
    split
    · rename_i same
      rw [split, List.cons_append] at same
      exact absurd (List.cons.inj same).1 leading
    · exact whole

theorem scanFraction_ends {tail : Codes} (ends : Ends tail) : scanFraction tail = ([], tail) := by
  unfold scanFraction
  split
  · exact absurd rfl (ends 46 rfl).2.1
  · rfl

theorem exponentOf_ends {tail : Codes} (ends : Ends tail) : exponentOf tail = none := by
  unfold exponentOf
  split
  · rename_i mark rest
    have other := (ends mark rfl).2.2
    rw [if_neg (by rw [not_or]; exact other)]
  · rfl

theorem scanUnsigned_render {negative : Bool} {n : Nat} (short : n < 10 ^ maxStrDigits) {tail : Codes}
    (ends : Ends tail) : scanUnsigned negative (renderNumeral 10 n ++ tail) =
      .ok (.int (if negative then -(n : Int) else n), tail) := by
  have length : ¬ maxStrDigits < (renderNumeral 10 n).length :=
    Nat.not_lt.2 (renderNumeral_length (by decide) short)
  have value : readNumeral 10 (renderNumeral 10 n) = n := readNumeral_render (by decide) (by decide)
  unfold scanUnsigned
  rw [scanWhole_render n ends]
  dsimp only
  rw [if_neg (by simpa using renderNumeral_ne_nil), scanFraction_ends ends]
  dsimp only
  rw [exponentOf_ends ends]
  dsimp only
  simp only [List.isEmpty_nil, if_true]
  rw [intOf, if_neg length, value]
  rfl

theorem word_heads : words.map (fun word => word.1.take 2) =
    [[110, 117], [116, 114], [102, 97], [78, 97], [73, 110], [45, 73]] := rfl

theorem isPrefixOf_heads {word codes : Codes} (held : word.isPrefixOf codes = true) :
    word.take 2 <+: codes :=
  (List.take_prefix 2 word).trans (List.isPrefixOf_iff_prefix.mp held)

/-- A number is none of the words. -/
theorem scanScalar_number {codes : Codes} (number : ∀ head ∈ [[110, 117], [116, 114], [102, 97], [78, 97],
    [73, 110], [45, 73]], ¬ head <+: codes) : scanScalar codes = scanNumber codes := by
  have none_ : words.find? (fun word => word.1.isPrefixOf codes) = none := by
    rw [List.find?_eq_none]
    intro word member held
    refine number (word.1.take 2) ?_ (isPrefixOf_heads held)
    rw [← word_heads]
    exact List.mem_map_of_mem member
  rw [scanScalar, none_]

theorem scanValue_scalar {bound : Nat} {c : Nat} {rest : Codes} (quote : c ≠ 34) (list : c ≠ 91)
    (dict : c ≠ 123) : scanValue (bound + 1) (c :: rest) = scanScalar (c :: rest) := by
  rw [scanValue.eq_def]
  dsimp only
  split
  · rename_i same
    exact absurd (List.cons.inj same).1 quote
  · rename_i same
    exact absurd (List.cons.inj same).1 list
  · rename_i same
    exact absurd (List.cons.inj same).1 dict
  · rfl

theorem reads_int {n : Int} (short : n.natAbs < 10 ^ maxStrDigits) : Reads (.int n) (intCodes n) := by
  obtain ⟨c, rest, split⟩ := List.exists_cons_of_ne_nil (@renderNumeral_ne_nil 10 n.natAbs)
  have digit : isDigit c = true := renderNumeral_decimal c (by rw [split]; exact List.mem_cons_self)
  have bounds : 48 ≤ c ∧ c ≤ 57 := of_decide_eq_true digit
  by_cases negative : n < 0
  · have written : intCodes n = 45 :: c :: rest := by
      rw [intCodes, decide_eq_true negative, split]
      rfl
    rw [written]
    refine ⟨⟨45, c :: rest, rfl, by decide⟩, fun bound tail enough ends => ?_⟩
    obtain ⟨bound, rfl⟩ : ∃ n, bound = n + 1 := ⟨bound - 1, by rw [List.length_cons] at enough; omega⟩
    have scanned := @scanUnsigned_render true _ short _ ends
    rw [split, List.cons_append] at scanned
    have value : -(n.natAbs : Int) = n := by omega
    rw [List.cons_append, List.cons_append, scanValue_scalar (by decide) (by decide) (by decide),
      scanScalar_number, scanNumber, scanned, if_pos rfl, value]
    intro head listed held
    simp only [List.mem_cons, List.not_mem_nil, or_false] at listed
    rcases listed with rfl | rfl | rfl | rfl | rfl | rfl <;>
      · simp only [List.cons_prefix_cons] at held
        omega
  · have written : intCodes n = c :: rest := by
      rw [intCodes, decide_eq_false negative, split]
      rfl
    rw [written]
    refine ⟨⟨c, rest, rfl, ?_, by omega, by omega⟩, fun bound tail enough ends => ?_⟩
    · simp only [isBlank, List.contains_eq_mem, List.mem_cons, List.not_mem_nil, or_false,
        decide_eq_false_iff_not]
      omega
    obtain ⟨bound, rfl⟩ : ∃ n, bound = n + 1 := ⟨bound - 1, by rw [List.length_cons] at enough; omega⟩
    have scanned := @scanUnsigned_render false _ short _ ends
    rw [split, List.cons_append] at scanned
    have value : (n.natAbs : Int) = n := by omega
    have unsigned : scanNumber (c :: (rest ++ tail)) = scanUnsigned false (c :: (rest ++ tail)) := by
      unfold scanNumber
      split
      · rename_i same
        have := (List.cons.inj same).1
        omega
      · rfl
    rw [List.cons_append, scanValue_scalar (by omega) (by omega) (by omega), scanScalar_number, unsigned,
      scanned]
    · simp only [Bool.false_eq_true, if_false, value]
    · intro head listed held
      simp only [List.mem_cons, List.not_mem_nil, or_false] at listed
      rcases listed with rfl | rfl | rfl | rfl | rfl | rfl <;>
        · simp only [List.cons_prefix_cons] at held
          omega

end scalars

section containers

def Blank (codes : Codes) : Prop := ∀ c ∈ codes, isBlank c = true

theorem blank_nil : Blank [] := nofun

theorem skip_blank {blanks codes : Codes} (blank : Blank blanks)
    (head : ∀ c ∈ codes.head?, isBlank c = false) : skip (blanks ++ codes) = codes := by
  rw [skip, List.dropWhile_append_of_pos blank]
  cases codes with
  | nil => rfl
  | cons c rest => exact List.dropWhile_cons_of_neg (by rw [head c rfl]; decide)

theorem Reads.skip_head {v : JsonValue} {codes : Codes} (reads : Reads v codes) (tail : Codes) :
    ∀ c ∈ (codes ++ tail).head?, isBlank c = false := by
  obtain ⟨c, rest, rfl, blank, -⟩ := reads.head
  intro d same
  cases same
  exact blank

theorem ends_blank {blanks codes : Codes} (blank : Blank blanks) (ends : Ends codes) :
    Ends (blanks ++ codes) := by
  cases blanks with
  | nil => exact ends
  | cons c rest =>
    intro d same
    cases same
    have blank : isBlank c = true := blank c List.mem_cons_self
    simp only [isBlank, List.contains_eq_mem, List.mem_cons, List.not_mem_nil, or_false,
      decide_eq_true_eq] at blank
    refine ⟨decide_eq_false ?_, ?_⟩ <;> omega

theorem ends_cons {c : Nat} (rest : Codes) (mark : c = 44 ∨ c = 93 ∨ c = 125) : Ends (c :: rest) := by
  intro d same
  cases same
  refine ⟨decide_eq_false ?_, ?_⟩ <;> omega

variable {before after : Codes}

/-- Parts as a writer separates them: blanks before each part after a comma, and after the last. -/
@[grind =] def separated (before after : Codes) : List Codes → Codes
  | [] => []
  | [part] => part ++ after
  | part :: rest => part ++ 44 :: before ++ separated before after rest

theorem separated_cons (part other : Codes) (rest : List Codes) :
    separated before after (part :: other :: rest) =
      part ++ 44 :: before ++ separated before after (other :: rest) := rfl

theorem scanElements_reads (blankBefore : Blank before) (blankAfter : Blank after) {items : List JsonValue}
    {parts : List Codes} (each : List.Forall₂ Reads items parts) (some_ : items ≠ []) (bound : Nat)
    (tail : Codes) (enough : 2 * (separated before after parts).length < bound) :
    scanElements bound (separated before after parts ++ 93 :: tail) = .ok (items, tail) := by
  induction each generalizing bound with
  | nil => exact absurd rfl some_
  | @cons item part items parts first others ih =>
    obtain ⟨bound, rfl⟩ : ∃ n, bound = n + 1 := ⟨bound - 1, by omega⟩
    cases others with
    | nil =>
      have size : 2 * part.length ≤ bound := by
        rw [separated, List.length_append] at enough
        omega
      have ends : Ends (after ++ 93 :: tail) := ends_blank blankAfter (ends_cons tail (by decide))
      rw [separated, List.append_assoc, scanElements, first.scan bound _ size ends, ok_bind]
      dsimp only
      rw [skip_blank blankAfter fun c same => by cases same; rfl]
      rfl
    | @cons next other more rest second later =>
      rw [separated_cons, List.length_append, List.length_append, List.length_cons] at enough
      have ends : Ends (44 :: (before ++ (separated before after (other :: rest) ++ 93 :: tail))) :=
        ends_cons _ (by decide)
      have start : ∀ c ∈ (separated before after (other :: rest) ++ 93 :: tail).head?,
          isBlank c = false := by
        cases rest with
        | nil =>
          rw [separated, List.append_assoc]
          exact second.skip_head _
        | cons third rest =>
          rw [separated_cons, List.append_assoc, List.append_assoc]
          exact second.skip_head _
      rw [separated_cons, List.append_assoc, List.append_assoc, List.cons_append, scanElements,
        first.scan bound _ (by omega) ends, ok_bind]
      dsimp only
      rw [skip, List.dropWhile_cons_of_neg (by decide)]
      change (scanElements bound (skip _) >>= fun x => pure (item :: x.1, x.2)) = _
      rw [skip_blank blankBefore start, ih nofun bound (by omega)]
      rfl

theorem reads_list (blankBefore : Blank before) (blankAfter : Blank after) {items : List JsonValue}
    {parts : List Codes} (each : List.Forall₂ Reads items parts) (some_ : items ≠ []) :
    Reads (.list items) (91 :: before ++ separated before after parts ++ [93]) := by
  have parts_ : ∃ first rest, parts = first :: rest ∧ ∃ v, Reads v first := by
    cases each with
    | nil => exact absurd rfl some_
    | cons first _ => exact ⟨_, _, rfl, _, first⟩
  obtain ⟨first, rest, rfl, v, reads⟩ := parts_
  obtain ⟨c, more, split, blank, bracket, -⟩ := reads.head
  have start (tail : Codes) : ∃ others, separated before after (first :: rest) ++ tail = c :: others := by
    cases rest with
    | nil => exact ⟨_, by rw [separated, split]; rfl⟩
    | cons second rest => exact ⟨_, by rw [separated_cons, split]; rfl⟩
  refine ⟨⟨91, _, rfl, by decide⟩, fun bound tail enough _ => ?_⟩
  rw [List.length_append, List.length_append, List.length_cons] at enough
  obtain ⟨bound, rfl⟩ : ∃ n, bound = n + 2 := ⟨bound - 2, by omega⟩
  obtain ⟨others, opened⟩ := start (93 :: tail)
  have inner : scanItems (bound + 1) (separated before after (first :: rest) ++ 93 :: tail) =
      .ok (items, tail) := by
    rw [scanItems]
    · exact scanElements_reads blankBefore blankAfter each some_ bound tail
        (by rw [List.length_singleton] at enough; omega)
    · intro rest same
      rw [opened] at same
      exact bracket (List.cons.inj same).1
  have shape : 91 :: before ++ separated before after (first :: rest) ++ [93] ++ tail =
      91 :: (before ++ (separated before after (first :: rest) ++ 93 :: tail)) := by simp
  rw [shape, scanValue, skip_blank blankBefore, inner]
  · rfl
  · rw [opened]
    intro d same
    cases same
    exact blank

theorem reads_list_nil : Reads (.list []) [91, 93] := by
  refine ⟨⟨91, [93], rfl, by decide⟩, fun bound tail enough _ => ?_⟩
  obtain ⟨bound, rfl⟩ : ∃ n, bound = n + 2 := ⟨bound - 2, by
    simp only [List.length_cons, List.length_nil] at enough
    omega⟩
  rfl

/-- One item of a dict, with blanks after its colon. -/
def ReadsEntry (gap : Codes) (entry : Text × JsonValue) (codes : Codes) : Prop :=
  ∃ name content, codes = 34 :: name ++ 58 :: gap ++ content ∧ ReadsText entry.1 name ∧
    Reads entry.2 content

/-- What `scanMembers` does after a value. -/
def afterValue (bound : Nat) (key : Text) (value : JsonValue) : Codes → Scan (JsonDict × Codes)
  | 125 :: rest => return ([(key, value)], rest)
  | 44 :: rest => do
    let (others, rest) ← scanMembers bound (skip rest)
    return ((key, value) :: others, rest)
  | _ => decodeError "Expecting ',' delimiter"

theorem scanMembers_reads {gap : Codes} (blankBefore : Blank before) (blankAfter : Blank after)
    (blankGap : Blank gap) {entries : JsonDict} {parts : List Codes}
    (each : List.Forall₂ (ReadsEntry gap) entries parts) (some_ : entries ≠ []) (bound : Nat) (tail : Codes)
    (enough : 2 * (separated before after parts).length < bound) :
    scanMembers bound (separated before after parts ++ 125 :: tail) = .ok (entries, tail) := by
  induction each generalizing bound with
  | nil => exact absurd rfl some_
  | @cons entry part entries parts first others ih =>
    obtain ⟨bound, rfl⟩ : ∃ n, bound = n + 1 := ⟨bound - 1, by omega⟩
    obtain ⟨name, content, rfl, key, value⟩ := first
    obtain ⟨k, v⟩ := entry
    have colon : skip (58 :: (gap ++ (content ++ tail))) = 58 :: (gap ++ (content ++ tail)) :=
      List.dropWhile_cons_of_neg (by decide)
    cases others with
    | nil =>
      rw [separated] at enough ⊢
      simp only [List.length_append, List.length_cons] at enough
      have ends : Ends (after ++ 125 :: tail) := ends_blank blankAfter (ends_cons tail (by decide))
      have shape : 34 :: name ++ 58 :: gap ++ content ++ after ++ 125 :: tail =
          34 :: (name ++ 58 :: (gap ++ (content ++ (after ++ 125 :: tail)))) := by simp
      rw [shape, scanMembers, key, ok_bind]
      dsimp only
      rw [skip, List.dropWhile_cons_of_neg (by decide)]
      change (scanValue bound (skip _) >>= fun x => afterValue bound k x.1 (skip x.2)) = _
      rw [skip_blank blankGap (value.skip_head _), value.scan bound _ (by omega) ends, ok_bind]
      dsimp only
      rw [skip_blank blankAfter fun c same => by cases same; rfl]
      rfl
    | @cons next other more rest second later =>
      have start : ∀ c ∈ (separated before after (other :: rest) ++ 125 :: tail).head?,
          isBlank c = false := by
        obtain ⟨_, _, rfl, -, -⟩ := second
        intro c same
        cases rest with
        | nil =>
          cases same
          rfl
        | cons third rest =>
          cases same
          rfl
      rw [separated_cons] at enough ⊢
      simp only [List.length_append, List.length_cons] at enough
      have ends : Ends (44 :: (before ++ (separated before after (other :: rest) ++ 125 :: tail))) :=
        ends_cons _ (by decide)
      have shape : 34 :: name ++ 58 :: gap ++ content ++ 44 :: before ++
          separated before after (other :: rest) ++ 125 :: tail =
          34 :: (name ++ 58 :: (gap ++ (content ++
            (44 :: (before ++ (separated before after (other :: rest) ++ 125 :: tail)))))) := by simp
      rw [shape, scanMembers, key, ok_bind]
      dsimp only
      rw [skip, List.dropWhile_cons_of_neg (by decide)]
      change (scanValue bound (skip _) >>= fun x => afterValue bound k x.1 (skip x.2)) = _
      rw [skip_blank blankGap (value.skip_head _), value.scan bound _ (by omega) ends, ok_bind]
      dsimp only
      rw [skip, List.dropWhile_cons_of_neg (by decide)]
      change (scanMembers bound (skip _) >>= fun x => pure ((k, v) :: x.1, x.2)) = _
      rw [skip_blank blankBefore start, ih nofun bound (by omega)]
      rfl

theorem reads_dict {gap : Codes} (blankBefore : Blank before) (blankAfter : Blank after)
    (blankGap : Blank gap) {entries : JsonDict} {parts : List Codes}
    (each : List.Forall₂ (ReadsEntry gap) entries parts) (some_ : entries ≠ [])
    (distinct : entries.keys.Nodup) :
    Reads (.dict entries) (123 :: before ++ separated before after parts ++ [125]) := by
  have parts_ : ∃ first rest, parts = first :: rest ∧ ∃ more, first = 34 :: more := by
    cases each with
    | nil => exact absurd rfl some_
    | cons first _ =>
      obtain ⟨name, content, rfl, -, -⟩ := first
      exact ⟨_, _, rfl, _, rfl⟩
  obtain ⟨first, rest, rfl, more, split⟩ := parts_
  have start (tail : Codes) : ∃ others, separated before after (first :: rest) ++ tail = 34 :: others := by
    cases rest with
    | nil => exact ⟨_, by rw [separated, split]; rfl⟩
    | cons second rest => exact ⟨_, by rw [separated_cons, split]; rfl⟩
  refine ⟨⟨123, _, rfl, by decide⟩, fun bound tail enough _ => ?_⟩
  rw [List.length_append, List.length_append, List.length_cons] at enough
  obtain ⟨bound, rfl⟩ : ∃ n, bound = n + 2 := ⟨bound - 2, by omega⟩
  obtain ⟨others, opened⟩ := start (125 :: tail)
  have inner : scanEntries (bound + 1) (separated before after (first :: rest) ++ 125 :: tail) =
      .ok (entries, tail) := by
    rw [scanEntries]
    · exact scanMembers_reads blankBefore blankAfter blankGap each some_ bound tail
        (by rw [List.length_singleton] at enough; omega)
    · intro rest same
      rw [opened] at same
      exact absurd (List.cons.inj same).1 (by decide)
  have shape : 123 :: before ++ separated before after (first :: rest) ++ [125] ++ tail =
      123 :: (before ++ (separated before after (first :: rest) ++ 125 :: tail)) := by simp
  rw [shape, scanValue, skip_blank blankBefore, inner, ok_bind]
  · dsimp only
    rw [JsonDict.lastOf_nodup distinct]
    rfl
  · rw [opened]
    intro d same
    cases same
    rfl

theorem reads_dict_nil : Reads (.dict []) [123, 125] := by
  refine ⟨⟨123, [125], rfl, by decide⟩, fun bound tail enough _ => ?_⟩
  obtain ⟨bound, rfl⟩ : ∃ n, bound = n + 2 := ⟨bound - 2, by
    simp only [List.length_cons, List.length_nil] at enough
    omega⟩
  rfl

/-- A document with blanks after it. -/
theorem decode_reads {v : JsonValue} {codes blanks : Codes} (reads : Reads v codes)
    (blank : Blank blanks) : decode (codes ++ blanks) = .ok v := by
  obtain ⟨c, rest, rfl, visible, -, small⟩ := reads.head
  have ends : Ends blanks := by
    have ends := @ends_blank blanks [] blank nofun
    rwa [List.append_nil] at ends
  have start : skip (c :: rest ++ blanks) = c :: rest ++ blanks :=
    List.dropWhile_cons_of_neg (by rw [visible]; decide)
  have nothing : skip blanks = [] := by
    have skipped := @skip_blank blanks [] blank nofun
    rwa [List.append_nil] at skipped
  rw [decode]
  dsimp only
  rw [start, reads.scan _ _ _ ends, ok_bind]
  · dsimp only
    rw [nothing]
    rfl
  · rw [List.length_append]
    omega

theorem loads_reads {v : JsonValue} {codes blanks : Codes} (reads : Reads v codes)
    (blank : Blank blanks) : loads ⟨codes ++ blanks⟩ = .ok v := by
  have unmarked : (codes ++ blanks).head? ≠ some 0xFEFF := by
    obtain ⟨c, rest, rfl, -, -, small⟩ := reads.head
    intro same
    obtain rfl := Option.some.inj same
    omega
  rw [loads, if_neg unmarked, decode_reads reads blank]

end containers

theorem separated_compact (parts : List Codes) : separated [] [] parts = comma.intercalate parts := by
  cases parts with
  | nil => rfl
  | cons first rest =>
    rw [JsonText.intercalate_comma]
    induction rest generalizing first with
    | nil => rfl
    | cons second rest ih => rw [separated_cons, ih, List.flatMap_cons, List.append_assoc, List.singleton_append,
      List.cons_append]

end Json

namespace JsonValue

mutual
/-- Documents without floats and without numbers too long to read, each key once. -/
@[grind =] def Plain : JsonValue → Prop
  | .float _ => False
  | .int n => n.natAbs < 10 ^ Json.maxStrDigits
  | .list items => PlainItems items
  | .dict entries => (JsonDict.keys entries).Nodup ∧ PlainEntries entries
  | _ => True

@[grind =] def PlainItems : List JsonValue → Prop
  | [] => True
  | item :: rest => Plain item ∧ PlainItems rest

@[grind =] def PlainEntries : List (Text × JsonValue) → Prop
  | [] => True
  | (_, value) :: rest => Plain value ∧ PlainEntries rest
end

mutual
theorem reads_dumpsRaw : ∀ v : JsonValue, v.Plain → Json.Reads v v.dumpsRaw
  | .null, _ => Json.reads_null
  | .bool b, _ => Json.reads_bool b
  | .int _, short => Json.reads_int short
  | .float _, plain => False.elim plain
  | .str t, _ => Json.reads_encodeRaw t
  | .list [], _ => Json.reads_list_nil
  | .list (item :: rest), plain => by
    have parts := reads_dumpRawItems (item :: rest) plain
    have reads := Json.reads_list Json.blank_nil Json.blank_nil parts nofun
    rw [Json.separated_compact] at reads
    exact reads
  | .dict [], _ => Json.reads_dict_nil
  | .dict (entry :: rest), plain => by
    have parts := reads_dumpRawEntries (entry :: rest) plain.2
    have reads := Json.reads_dict Json.blank_nil Json.blank_nil Json.blank_nil parts nofun plain.1
    rw [Json.separated_compact] at reads
    exact reads

theorem reads_dumpRawItems : ∀ items : List JsonValue, PlainItems items →
    List.Forall₂ Json.Reads items (dumpRawItems items)
  | [], _ => .nil
  | item :: rest, plain => .cons (reads_dumpsRaw item plain.1) (reads_dumpRawItems rest plain.2)

theorem reads_dumpRawEntries : ∀ entries : List (Text × JsonValue), PlainEntries entries →
    List.Forall₂ (Json.ReadsEntry []) entries (dumpRawEntries entries)
  | [], _ => .nil
  | (key, value) :: rest, plain => by
    refine .cons ⟨key.codes.flatMap Json.escapeRaw ++ [34], value.dumpsRaw, ?_, Json.readsText_raw key,
      reads_dumpsRaw value plain.1⟩ (reads_dumpRawEntries rest plain.2)
    simp [Json.encodeRaw]
end

/-- A line of a document's raw text reads back as the document. -/
theorem loads_dumpsRaw {v : JsonValue} (plain : v.Plain) {blanks : Codes} (blank : Json.Blank blanks) :
    Json.loads ⟨v.dumpsRaw ++ blanks⟩ = .ok v :=
  Json.loads_reads (reads_dumpsRaw v plain) blank

end JsonValue
end Sippycup.Python
