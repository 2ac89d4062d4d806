import Sippycup.Ip.Address

/-! Reading back what was printed: the text of every address parses to that
address, so a text in printed form determines its address. -/
namespace Sippycup.Ip
open Sippycup.Python

theorem digitValue_digitCode : ∀ d < 16, digitValue (digitCode d) = d := by decide

theorem digitCode_decimal : ∀ d < 10, isDigit (digitCode d) = true := by decide

theorem digitCode_hex : ∀ d < 16, isHexDigit (digitCode d) = true := by decide

theorem digitCode_zero : ∀ d < 16, digitCode d = zeroDigit → d = 0 := by decide

section numerals
variable {base n : Nat}

theorem readNumeral_render (two : 2 ≤ base) (small : base ≤ 16) :
    readNumeral base (renderNumeral base n) = n := by
  have values : (renderNumeral base n).map digitValue = Numeral.render base n := by
    rw [renderNumeral, List.map_map]
    conv_rhs => rw [← List.map_id (Numeral.render base n)]
    refine List.map_congr_left fun d member => ?_
    exact digitValue_digitCode d ((Numeral.render_lt two d member).trans_le small)
  rw [readNumeral, values, Numeral.read_render two]

theorem renderNumeral_ne_nil : renderNumeral base n ≠ [] := by
  simpa only [renderNumeral, ne_eq, List.map_eq_nil_iff] using Numeral.render_ne_nil

theorem renderNumeral_decimal : ∀ c ∈ renderNumeral 10 n, isDigit c = true := by
  intro c member
  obtain ⟨d, digit, rfl⟩ := List.mem_map.mp member
  exact digitCode_decimal d (Numeral.render_lt (by omega) d digit)

theorem renderNumeral_hex : ∀ c ∈ renderNumeral 16 n, isHexDigit c = true := by
  intro c member
  obtain ⟨d, digit, rfl⟩ := List.mem_map.mp member
  exact digitCode_hex d (Numeral.render_lt (by omega) d digit)

theorem renderNumeral_length {width : Nat} (positive : 0 < width) (small : n < base ^ width) :
    (renderNumeral base n).length ≤ width := by
  rw [renderNumeral, List.length_map]
  exact Numeral.render_length positive small

/-- The only numeral that starts with a zero is zero itself. -/
theorem renderNumeral_head (two : 2 ≤ base) (small : base ≤ 16)
    (leading : (renderNumeral base n).head? = some zeroDigit) : n = 0 := by
  have some_digit : Numeral.render base n ≠ [] := Numeral.render_ne_nil
  obtain ⟨d, rest, split⟩ := List.exists_cons_of_ne_nil some_digit
  rw [renderNumeral, split, List.map_cons, List.head?_cons, Option.some.injEq] at leading
  have bound := Numeral.render_lt two d (by rw [split]; exact List.mem_cons_self)
  obtain rfl := digitCode_zero d (bound.trans_le small) leading
  exact (Numeral.render_head two split).1

theorem renderNumeral_zero : renderNumeral base 0 = [zeroDigit] ∨ base = 0 := by
  rcases Nat.eq_zero_or_pos base with rfl | positive
  · exact .inr rfl
  · left
    simp [renderNumeral, Numeral.render, Numeral.digits, positive, digitCode, Text.hexDigit, zeroDigit]

end numerals

theorem mapM_map {α β : Type} {f : α → Option β} {g : β → α} {xs : List β}
    (inverse : ∀ x ∈ xs, f (g x) = some x) : (xs.map g).mapM f = some xs := by
  induction xs with
  | nil => rfl
  | cons x xs ih =>
    rw [List.map_cons, List.mapM_cons, inverse x List.mem_cons_self,
      ih fun y member => inverse y (List.mem_cons_of_mem x member)]
    rfl

theorem mapM_some {α β : Type} {f : α → Option β} {xs : List α} {ys : List β}
    (mapped : xs.mapM f = some ys) : ∀ x ∈ xs, ∃ y, f x = some y := by
  induction xs generalizing ys with
  | nil => simp
  | cons x xs ih =>
    rw [List.mapM_cons] at mapped
    obtain ⟨y, head, mapped⟩ := Option.bind_eq_some_iff.mp mapped
    obtain ⟨rest, tail, _⟩ := Option.bind_eq_some_iff.mp mapped
    intro z member
    rcases List.mem_cons.mp member with rfl | member
    · exact ⟨y, head⟩
    · exact ih tail z member

theorem parseOctet_render {n : Nat} (small : n < 256) : parseOctet (renderNumeral 10 n) = some n := by
  have digits : (renderNumeral 10 n).all isDigit = true :=
    List.all_eq_true.mpr renderNumeral_decimal
  have short : (renderNumeral 10 n).length ≤ 3 := renderNumeral_length (by omega) (by omega)
  have value : readNumeral 10 (renderNumeral 10 n) = n := readNumeral_render (by omega) (by omega)
  have leading : ¬ (renderNumeral 10 n ≠ [zeroDigit] ∧ (renderNumeral 10 n).head? = some zeroDigit) := by
    rintro ⟨other, head⟩
    obtain rfl := renderNumeral_head (by omega) (by omega) head
    exact other (renderNumeral_zero.resolve_right (by omega))
  unfold parseOctet
  rw [digits, value, if_neg (by simp [renderNumeral_ne_nil]), if_neg (by omega), if_neg leading,
    if_neg (by omega)]

theorem parseDotted_render {n : Nat} (small : n < 2 ^ 32) : parseDotted (renderDotted n) = some n := by
  have split : (renderDotted n).splitOn dot = (Numeral.blocks 256 4 n).map (renderNumeral 10) := by
    refine List.splitOn_intercalate dot ?_ ?_
    · intro octet member inside
      obtain ⟨m, _, rfl⟩ := List.mem_map.mp member
      exact absurd (renderNumeral_decimal dot inside) (by decide)
    · simp [Numeral.blocks]
  have octets : ((Numeral.blocks 256 4 n).map (renderNumeral 10)).mapM parseOctet =
      some (Numeral.blocks 256 4 n) :=
    mapM_map fun m member => parseOctet_render (Numeral.blocks_lt (by omega) m member)
  unfold parseDotted
  simp only [split, List.length_map, Numeral.length_blocks, ne_eq, not_true_eq_false, if_false, octets]
  exact congrArg some (Numeral.read_blocks small)

theorem parseHextet_render {n : Nat} (small : n < 65536) : parseHextet (renderNumeral 16 n) = some n := by
  have digits : (renderNumeral 16 n).all isHexDigit = true := List.all_eq_true.mpr renderNumeral_hex
  have short : (renderNumeral 16 n).length ≤ 4 := renderNumeral_length (by omega) (by omega)
  have plain : ¬ ((!(renderNumeral 16 n).all isHexDigit) = true ∨ 4 < (renderNumeral 16 n).length ∨
      renderNumeral 16 n = []) := by
    simp only [digits, Bool.not_true, Bool.false_eq_true, renderNumeral_ne_nil, or_false, false_or]
    omega
  rw [parseHextet, if_neg plain, readNumeral_render (by omega) (by omega)]

/-- Parts with one run of zeros left out, as they stand between colons. -/
def elided (front back : List Codes) : List Codes :=
  (if front = [] then [[]] else []) ++ front ++ [[]] ++ back ++ (if back = [] then [[]] else [])

theorem length_elided (front back : List Codes) :
    (elided front back).length = (if front.length = 0 then 1 else 0) + front.length + 1 + back.length +
      (if back.length = 0 then 1 else 0) := by
  unfold elided
  simp only [List.length_append, List.length_singleton, List.length_eq_zero_iff]
  split <;> split <;> rfl

theorem skipIndexes_elided {before after : List Codes} (front : before ≠ []) (back : after ≠ [])
    (inside : ∀ i, 1 ≤ i → i < before.length → before[i]? ≠ some [])
    (beyond : ∀ i, i + 1 < after.length → after[i]? ≠ some []) :
    skipIndexes (before ++ [] :: after) = [before.length] := by
  have first : 0 < before.length := List.length_pos_of_ne_nil front
  have last : 0 < after.length := List.length_pos_of_ne_nil back
  have only : skipIndexes (before ++ [] :: after) =
      (List.range (before ++ [] :: after).length).filter fun i => i == before.length := by
    refine List.filter_congr fun i _ => ?_
    rw [Bool.eq_iff_iff, decide_eq_true_eq, beq_iff_eq]
    constructor
    · rintro ⟨positive, early, empty⟩
      rcases lt_trichotomy i before.length with less | same | more
      · rw [List.getElem?_append_left less] at empty
        exact absurd empty (inside i positive less)
      · exact same
      · obtain ⟨j, rfl⟩ := Nat.exists_eq_add_of_lt more
        rw [List.getElem?_append_right (by omega),
          show before.length + j + 1 - before.length = j + 1 by omega, List.getElem?_cons_succ] at empty
        rw [List.length_append, List.length_cons] at early
        exact absurd empty (beyond j (by omega))
    · rintro rfl
      refine ⟨first, by simp; omega, ?_⟩
      rw [List.getElem?_append_right (Nat.le_refl _), Nat.sub_self, List.getElem?_cons_zero]
  rw [only, List.filter_beq, List.count_range, if_pos (by simp)]
  rfl

theorem getElem?_ne_nil {parts : List Codes} (full : ∀ p ∈ parts, p ≠ []) (i : Nat) :
    parts[i]? ≠ some [] := fun empty => full [] (List.mem_of_getElem? empty) rfl

theorem head?_ne_nil {parts : List Codes} (full : ∀ p ∈ parts, p ≠ []) : parts.head? ≠ some [] :=
  fun empty => full [] (List.mem_of_head? empty) rfl

theorem getLast?_ne_nil {parts : List Codes} (full : ∀ p ∈ parts, p ≠ []) : parts.getLast? ≠ some [] :=
  fun empty => full [] (List.mem_of_getLast? empty) rfl

theorem layout_plain {parts : List Codes} (eight : parts.length = 8) (full : ∀ p ∈ parts, p ≠ []) :
    layout parts = some (8, 0, 0) := by
  have none : skipIndexes parts = [] := by
    refine List.filter_eq_nil_iff.mpr fun i _ => ?_
    simp only [getElem?_ne_nil full i, and_false, decide_false, Bool.false_eq_true, not_false_eq_true]
  unfold layout
  simp only [none, eight, ne_eq, not_true_eq_false, head?_ne_nil full, getLast?_ne_nil full, or_self,
    if_false]

/-- What `layout` finds in parts with an elided run, and the parts it copies. -/
theorem layout_elided {front back : List Codes} (room : front.length + back.length < 8)
    (full : ∀ p ∈ front, p ≠ []) (full' : ∀ p ∈ back, p ≠ []) :
    layout (elided front back) =
        some (front.length, back.length, 8 - (front.length + back.length)) ∧
      (elided front back).take front.length = front ∧
      (elided front back).drop ((elided front back).length - back.length) = back := by
  rcases List.eq_nil_or_concat back with rfl | ⟨middle, last, rfl⟩
  · cases front with
    | nil => decide
    | cons first rest =>
      have skip : skipIndexes (first :: rest ++ [] :: [[]]) = [(first :: rest).length] :=
        skipIndexes_elided (by simp) (by simp) (fun i _ _ => getElem?_ne_nil full i) (by simp)
      have parts : elided (first :: rest) [] = first :: rest ++ [] :: [[]] := by simp [elided]
      have lead : ((first :: rest ++ [] :: [[]]).head? = some []) = False := by
        simpa using full first List.mem_cons_self
      have trail : ((first :: rest ++ [] :: [[]]).getLast? = some []) = True := by
        rw [List.getLast?_append]
        simp
      simp only [List.length_nil, Nat.add_zero] at room ⊢
      refine ⟨?_, by rw [parts, List.take_left], by rw [parts, Nat.sub_zero, List.drop_length]⟩
      unfold layout
      simp only [parts, skip, lead, trail, if_true, if_false, false_and, true_and, false_or]
      rw [if_neg (by rw [List.length_append]; simp at room ⊢; omega)]
      simp
  · rw [List.concat_eq_append] at room full' ⊢
    have nonempty : middle ++ [last] ≠ [] := by simp
    have trail : ∀ before : List Codes,
        ((before ++ [] :: (middle ++ [last])).getLast? = some []) = False := by
      intro before
      simpa [List.getLast?_append, List.getLast?_cons] using full' last (by simp)
    cases front with
    | nil =>
      have skip : skipIndexes ([[]] ++ [] :: (middle ++ [last])) = [1] :=
        skipIndexes_elided (by simp) nonempty (by intro i _ _; simp at *; omega)
          (fun i _ => getElem?_ne_nil full' i)
      have parts : elided [] (middle ++ [last]) = [[]] ++ [] :: (middle ++ [last]) := by
        simp [elided]
      have lead : (([[]] ++ [] :: (middle ++ [last])).head? = some []) = True := by simp
      refine ⟨?_, List.take_zero, ?_⟩
      · unfold layout
        simp only [parts, skip, lead, trail, if_true, if_false, false_and, true_and]
        rw [if_neg (by simp at *; omega)]
        simp
      · rw [parts, List.append_cons]
        exact List.drop_left' (by simp)
    | cons first rest =>
      have skip : skipIndexes (first :: rest ++ [] :: (middle ++ [last])) = [(first :: rest).length] :=
        skipIndexes_elided (by simp) nonempty (fun i _ _ => getElem?_ne_nil full i)
          (fun i _ => getElem?_ne_nil full' i)
      have parts : elided (first :: rest) (middle ++ [last]) =
          first :: rest ++ [] :: (middle ++ [last]) := by simp [elided]
      have lead : ((first :: rest ++ [] :: (middle ++ [last])).head? = some []) = False := by
        simpa using full first List.mem_cons_self
      refine ⟨?_, by rw [parts, List.take_left], ?_⟩
      · unfold layout
        simp only [parts, skip, lead, trail, if_false, false_and, false_or]
        rw [if_neg (by simp at *; omega)]
        simp
      · rw [parts, List.append_cons]
        exact List.drop_left' (by simp; omega)

/-- What a scan knows of the hextets it has seen. -/
structure ZeroScan.Holds (seen : List Codes) (scan : ZeroScan) : Prop where
  index : scan.index = seen.length
  running : 0 < scan.length → scan.start + scan.length = seen.length
  run : ∀ i, 0 < scan.length → scan.start ≤ i → i < seen.length → seen[i]? = some [zeroDigit]
  within : scan.bestStart + scan.bestLength ≤ seen.length
  best : ∀ i, scan.bestStart ≤ i → i < scan.bestStart + scan.bestLength → seen[i]? = some [zeroDigit]

theorem ZeroScan.Holds.step {seen : List Codes} {scan : ZeroScan} (holds : scan.Holds seen)
    (hextet : Codes) : (scan.step hextet).Holds (seen ++ [hextet]) := by
  have earlier : ∀ i, i < seen.length → (seen ++ [hextet])[i]? = seen[i]? :=
    fun i small => List.getElem?_append_left small
  have size : (seen ++ [hextet]).length = seen.length + 1 := by simp
  have kept : ∀ i, scan.bestStart ≤ i → i < scan.bestStart + scan.bestLength →
      (seen ++ [hextet])[i]? = some [zeroDigit] := by
    intro i low high
    rw [earlier i (by have := holds.within; omega)]
    exact holds.best i low high
  unfold ZeroScan.step
  by_cases zero : hextet = [zeroDigit]
  · have newest : (seen ++ [hextet])[seen.length]? = some [zeroDigit] := by simp [zero]
    have start : (if scan.length = 0 then scan.index else scan.start) + (scan.length + 1) =
        seen.length + 1 := by
      split
      · rw [holds.index]
        omega
      · have := holds.running (by omega)
        omega
    have zeros : ∀ i, (if scan.length = 0 then scan.index else scan.start) ≤ i →
        i < seen.length + 1 → (seen ++ [hextet])[i]? = some [zeroDigit] := by
      intro i low high
      rcases Nat.lt_succ_iff_lt_or_eq.mp high with less | rfl
      · rw [earlier i less]
        split at low
        · rw [holds.index] at low
          omega
        · exact holds.run i (by omega) low less
      · exact newest
    rw [if_pos zero]
    refine ⟨?_, ?_, ?_, ?_, ?_⟩ <;> dsimp only
    · rw [holds.index, size]
    · intro _
      rw [start, size]
    · intro i _ low high
      exact zeros i low (by rwa [size] at high)
    · have := holds.within
      rw [size]
      split <;> omega
    · intro i low high
      by_cases longer : scan.bestLength < scan.length + 1
      · rw [if_pos longer] at low high
        rw [if_pos longer] at high
        exact zeros i low (by omega)
      · rw [if_neg longer] at low high
        rw [if_neg longer] at high
        exact kept i low high
  · rw [if_neg zero]
    refine ⟨?_, by simp, by simp, ?_, kept⟩
    · rw [size]
      exact congrArg (· + 1) holds.index
    · have := holds.within
      rw [size]
      exact Nat.le_succ_of_le this

theorem longestZeros_holds (hextets : List Codes) : (longestZeros hextets).Holds hextets := by
  induction hextets using List.reverseRecOn with
  | nil =>
    refine ⟨rfl, by simp [longestZeros], by simp [longestZeros], by simp [longestZeros], ?_⟩
    intro i low high
    simp [longestZeros] at low high
  | append_singleton seen hextet ih =>
    rw [longestZeros, List.foldl_append]
    exact ih.step hextet

theorem zeros_of_renders {values : List Nat} {start length : Nat}
    (zeros : ∀ i, start ≤ i → i < start + length →
      (values.map (renderNumeral 16))[i]? = some [zeroDigit]) :
    values = values.take start ++ List.replicate length 0 ++ values.drop (start + length) := by
  have middle : (values.drop start).take length = List.replicate length 0 := by
    refine List.ext_getElem? fun i => ?_
    rw [List.getElem?_take, List.getElem?_replicate]
    split
    · rename_i small
      have printed := zeros (start + i) (by omega) (by omega)
      rw [List.getElem?_map, Option.map_eq_some_iff] at printed
      obtain ⟨n, found, text⟩ := printed
      rw [List.getElem?_drop, found]
      have leading : (renderNumeral 16 n).head? = some zeroDigit := by rw [text]; rfl
      exact congrArg some (renderNumeral_head (by omega) (by omega) leading)
    · rfl
  calc values = values.take start ++ values.drop start := (List.take_append_drop start values).symm
    _ = values.take start ++ ((values.drop start).take length ++ (values.drop start).drop length) := by
      rw [List.take_append_drop length]
    _ = _ := by rw [middle, List.drop_drop, List.append_assoc]

/-- The printed parts: all eight hextets, or two ends around an elided run. -/
theorem compressHextets_cases (values : List Nat) :
    compressHextets (values.map (renderNumeral 16)) = values.map (renderNumeral 16) ∨
      ∃ front back skipped, 1 < skipped ∧ values = front ++ List.replicate skipped 0 ++ back ∧
        compressHextets (values.map (renderNumeral 16)) =
          elided (front.map (renderNumeral 16)) (back.map (renderNumeral 16)) := by
  have holds := longestZeros_holds (values.map (renderNumeral 16))
  have within := holds.within
  unfold compressHextets
  generalize longestZeros (values.map (renderNumeral 16)) = scan at holds within
  rw [List.length_map] at within
  by_cases long : 1 < scan.bestLength
  · right
    refine ⟨values.take scan.bestStart, values.drop (scan.bestStart + scan.bestLength),
      scan.bestLength, long, zeros_of_renders holds.best, ?_⟩
    have atStart : values.take scan.bestStart = [] ↔ scan.bestStart = 0 := by
      rw [List.take_eq_nil_iff]
      refine ⟨?_, .inl⟩
      rintro (zero | rfl)
      · exact zero
      · simp at within
        omega
    have atEnd : values.drop (scan.bestStart + scan.bestLength) = [] ↔
        scan.bestStart + scan.bestLength = values.length := by
      rw [List.drop_eq_nil_iff]
      omega
    simp only [long, if_true, elided, ← List.map_take, ← List.map_drop, List.map_eq_nil_iff, atStart,
      atEnd, List.length_map]
  · left
    simp only [long, if_false]

theorem hextets_full (values : List Nat) : ∀ p ∈ values.map (renderNumeral 16), p ≠ [] := by
  intro p member
  obtain ⟨n, _, rfl⟩ := List.mem_map.mp member
  exact renderNumeral_ne_nil

theorem mem_elided {front back : List Codes} {p : Codes} (member : p ∈ elided front back) :
    p = [] ∨ p ∈ front ∨ p ∈ back := by
  unfold elided at member
  simp only [List.mem_append, List.mem_singleton] at member
  rcases member with (((lead | inside) | rfl) | inside) | trail
  · split at lead <;> simp_all
  · exact .inr (.inl inside)
  · exact .inl rfl
  · exact .inr (.inr inside)
  · split at trail <;> simp_all

theorem compressHextets_hex {values : List Nat} {p : Codes}
    (member : p ∈ compressHextets (values.map (renderNumeral 16))) : ∀ c ∈ p, isHexDigit c = true := by
  have printed : p = [] ∨ ∃ n, p = renderNumeral 16 n := by
    rcases compressHextets_cases values with same | ⟨front, back, skipped, _, _, same⟩
    · rw [same] at member
      obtain ⟨n, _, rfl⟩ := List.mem_map.mp member
      exact .inr ⟨n, rfl⟩
    · rw [same] at member
      rcases mem_elided member with rfl | inside | inside
      · exact .inl rfl
      · obtain ⟨n, _, rfl⟩ := List.mem_map.mp inside
        exact .inr ⟨n, rfl⟩
      · obtain ⟨n, _, rfl⟩ := List.mem_map.mp inside
        exact .inr ⟨n, rfl⟩
  rcases printed with rfl | ⟨n, rfl⟩
  · simp
  · exact renderNumeral_hex

theorem mapM_hextets {values : List Nat} (small : ∀ v ∈ values, v < 65536) :
    (values.map (renderNumeral 16)).mapM parseHextet = some values :=
  mapM_map fun v member => parseHextet_render (small v member)

/-- Parsing the parts that were printed gives the hextets back. -/
theorem parse_compressed {values : List Nat} (eight : values.length = 8)
    (small : ∀ v ∈ values, v < 65536) :
    ∃ high low skipped before after,
      3 ≤ (compressHextets (values.map (renderNumeral 16))).length ∧
      (compressHextets (values.map (renderNumeral 16))).length ≤ 9 ∧
      layout (compressHextets (values.map (renderNumeral 16))) = some (high, low, skipped) ∧
      ((compressHextets (values.map (renderNumeral 16))).take high).mapM parseHextet = some before ∧
      ((compressHextets (values.map (renderNumeral 16))).drop
        ((compressHextets (values.map (renderNumeral 16))).length - low)).mapM parseHextet = some after ∧
      before ++ List.replicate skipped 0 ++ after = values := by
  rcases compressHextets_cases values with same | ⟨front, back, skipped, long, whole, same⟩
  · have printed : (values.map (renderNumeral 16)).length = 8 := by rw [List.length_map, eight]
    rw [same]
    refine ⟨8, 0, 0, values, [], by omega, by omega, layout_plain printed (hextets_full values), ?_, ?_, ?_⟩
    · rw [List.take_of_length_le (by omega)]
      exact mapM_hextets small
    · rw [Nat.sub_zero, List.drop_length]
      rfl
    · simp
  · have size : front.length + skipped + back.length = 8 := by
      rw [← eight, whole]
      simp only [List.length_append, List.length_replicate]
    have room : (front.map (renderNumeral 16)).length + (back.map (renderNumeral 16)).length < 8 := by
      rw [List.length_map, List.length_map]
      omega
    obtain ⟨found, taken, dropped⟩ := layout_elided room (hextets_full front) (hextets_full back)
    have members : (∀ v ∈ front, v < 65536) ∧ ∀ v ∈ back, v < 65536 :=
      ⟨fun v member => small v (by rw [whole]; simp [member]),
        fun v member => small v (by rw [whole]; simp [member])⟩
    rw [same]
    refine ⟨_, _, _, front, back, ?_, ?_, found, by rw [taken]; exact mapM_hextets members.1,
      by rw [dropped]; exact mapM_hextets members.2, ?_⟩
    · rw [length_elided, List.length_map, List.length_map]
      split <;> split <;> omega
    · rw [length_elided, List.length_map, List.length_map]
      split <;> split <;> omega
    · rw [List.length_map, List.length_map, show 8 - (front.length + back.length) = skipped by omega,
        whole]

theorem parseHextets_render {n : Nat} (small : n < 2 ^ 128) : parseHextets (renderHextets n) = some n := by
  have bounded : ∀ v ∈ Numeral.blocks 65536 8 n, v < 65536 := fun v member =>
    Numeral.blocks_lt (by omega) v member
  obtain ⟨high, low, skipped, before, after, least, most, found, taken, dropped, whole⟩ :=
    parse_compressed (Numeral.length_blocks 8 n) bounded
  have hex : ∀ p ∈ compressHextets ((Numeral.blocks 65536 8 n).map (renderNumeral 16)),
      ∀ c ∈ p, isHexDigit c = true := fun _ member => compressHextets_hex member
  have value : Numeral.read 65536 (before ++ List.replicate skipped 0 ++ after) = n := by
    rw [whole]
    exact Numeral.read_blocks (by simpa using small)
  unfold parseHextets renderHextets
  generalize compressHextets ((Numeral.blocks 65536 8 n).map (renderNumeral 16)) = parts at *
  have split : ([colon].intercalate parts).splitOn colon = parts := by
    refine List.splitOn_intercalate colon ?_ ?_
    · intro p member inside
      exact absurd (hex p member colon inside) (by decide)
    · rintro rfl
      simp at least
  have undotted : expandSuffix parts = some parts := by
    obtain ⟨init, last, rfl⟩ : ∃ init last, parts = init ++ [last] := by
      rcases List.eq_nil_or_concat parts with rfl | ⟨init, last, rfl⟩
      · simp at least
      · exact ⟨init, last, List.concat_eq_append⟩
    unfold expandSuffix
    rw [List.getLast?_concat]
    refine if_pos fun inside => ?_
    exact absurd (hex last (by simp) dot inside) (by decide)
  simp only [split, undotted, found, taken, dropped, value, Option.bind_eq_bind, Option.bind_some,
    if_neg (Nat.not_lt.2 least), if_neg (Nat.not_lt.2 most)]
  rfl

/-- A dotted quad consists of digits and dots. -/
theorem parseDotted_codes {codes : Codes} {n : Nat} (parsed : parseDotted codes = some n) :
    ∀ c ∈ codes, isDigit c = true ∨ c = dot := by
  unfold parseDotted at parsed
  dsimp only at parsed
  split at parsed
  · cases parsed
  · obtain ⟨octets, mapped, _⟩ := Option.bind_eq_some_iff.mp parsed
    have digits : ∀ octet ∈ codes.splitOn dot, ∀ c ∈ octet, isDigit c = true := by
      intro octet member
      obtain ⟨v, value⟩ := mapM_some mapped octet member
      unfold parseOctet at value
      split at value
      · cases value
      · rename_i accepted
        simp only [not_or, Bool.not_eq_true', Bool.not_eq_false] at accepted
        exact List.all_eq_true.mp accepted.2
    intro c member
    have joined : List.intercalate [dot] (codes.splitOn dot) = codes := List.intercalate_splitOn dot
    rw [← joined] at member
    generalize codes.splitOn dot = octets at digits member
    induction octets with
    | nil => cases member
    | cons octet rest ih =>
      rcases List.eq_nil_or_concat rest with rfl | nonempty
      · rw [List.intercalate_singleton] at member
        exact .inl (digits octet List.mem_cons_self c member)
      · have ne : rest ≠ [] := by
          rintro rfl
          obtain ⟨_, _, impossible⟩ := nonempty
          simp at impossible
        rw [List.intercalate_cons_of_ne_nil ne] at member
        rcases List.mem_append.mp member with first | later
        · rcases List.mem_append.mp first with inside | separator
          · exact .inl (digits octet List.mem_cons_self c inside)
          · exact .inr (List.mem_singleton.mp separator)
        · exact ih (fun o inside => digits o (List.mem_cons_of_mem _ inside)) later

theorem mem_intercalate {parts : List Codes} {separator c : Nat}
    (member : c ∈ [separator].intercalate parts) : c = separator ∨ ∃ p ∈ parts, c ∈ p := by
  induction parts with
  | nil => cases member
  | cons part rest ih =>
    by_cases last : rest = []
    · subst last
      rw [List.intercalate_singleton] at member
      exact .inr ⟨part, List.mem_cons_self, member⟩
    · rw [List.intercalate_cons_of_ne_nil last] at member
      rcases List.mem_append.mp member with first | later
      · rcases List.mem_append.mp first with inside | separator
        · exact .inr ⟨part, List.mem_cons_self, inside⟩
        · exact .inl (List.mem_singleton.mp separator)
      · rcases ih later with same | ⟨p, inside, found⟩
        · exact .inl same
        · exact .inr ⟨p, List.mem_cons_of_mem _ inside, found⟩

theorem separator_mem_intercalate {parts : List Codes} {separator : Nat} (two : 2 ≤ parts.length) :
    separator ∈ [separator].intercalate parts := by
  match parts, two with
  | p :: q :: rest, _ =>
    rw [List.intercalate_cons_of_ne_nil (by simp)]
    simp

theorem renderDotted_codes {n c : Nat} (member : c ∈ renderDotted n) : isDigit c = true ∨ c = dot := by
  rcases mem_intercalate member with rfl | ⟨octet, inside, digit⟩
  · exact .inr rfl
  · obtain ⟨m, _, rfl⟩ := List.mem_map.mp inside
    exact .inl (renderNumeral_decimal c digit)

theorem renderHextets_codes {n c : Nat} (member : c ∈ renderHextets n) :
    isHexDigit c = true ∨ c = colon := by
  rcases mem_intercalate member with rfl | ⟨p, inside, digit⟩
  · exact .inr rfl
  · exact .inl (compressHextets_hex inside c digit)

theorem colon_mem_renderHextets (n : Nat) : colon ∈ renderHextets n := by
  have bounded : ∀ v ∈ Numeral.blocks 65536 8 n, v < 65536 := fun v member =>
    Numeral.blocks_lt (by omega) v member
  obtain ⟨_, _, _, _, _, least, _⟩ := parse_compressed (Numeral.length_blocks 8 n) bounded
  exact separator_mem_intercalate (by omega)

theorem not_mem_renderHextets {n c : Nat} (other : isHexDigit c = false) (notColon : c ≠ colon) :
    c ∉ renderHextets n := by
  intro member
  rcases renderHextets_codes member with digit | same
  · rw [other] at digit
    cases digit
  · exact notColon same

theorem splitScope_render {codes : Codes} {scope : Option Scope} (plain : percent ∉ codes) :
    splitScope (codes ++ Address.renderScope scope) = some (codes, scope) := by
  have before : ∀ c ∈ codes, decide (c ≠ percent) = true := by
    intro c member
    exact decide_eq_true fun same => plain (same ▸ member)
  cases scope with
  | none =>
    have nothing : codes.dropWhile (· ≠ percent) = [] := List.dropWhile_eq_nil_iff.mpr before
    simp only [Address.renderScope, List.append_nil, splitScope, nothing]
  | some scope =>
    have rest : (codes ++ percent :: scope.codes).dropWhile (· ≠ percent) = percent :: scope.codes := by
      rw [List.dropWhile_append_of_pos before]
      simp
    have first : (codes ++ percent :: scope.codes).takeWhile (· ≠ percent) = codes := by
      rw [List.takeWhile_append_of_pos before]
      simp
    unfold splitScope
    simp only [Address.renderScope, rest, first]
    rw [dif_pos ⟨scope.nonempty, scope.plain⟩]

theorem slash_not_mem_scope (scope : Option Scope) : slash ∉ Address.renderScope scope := by
  cases scope with
  | none => simp [Address.renderScope]
  | some scope =>
    rw [Address.renderScope, List.mem_cons, not_or]
    exact ⟨by decide, scope.plain.2⟩

theorem slash_not_mem_render (address : Address) : slash ∉ address.render := by
  cases address with
  | v4 ip =>
    intro member
    rcases renderDotted_codes member with digit | same
    · exact absurd digit (by decide)
    · exact absurd same (by decide)
  | v6 ip scope =>
    rw [Address.render, List.mem_append, not_or]
    exact ⟨not_mem_renderHextets (by decide) (by decide), slash_not_mem_scope scope⟩

theorem parseV4_render (ip : BitVec 32) : parseV4 (renderDotted ip.toNat) = some ip := by
  have plain := slash_not_mem_render (.v4 ip)
  rw [Address.render] at plain
  rw [parseV4, if_neg plain, parseDotted_render ip.isLt]
  simp

theorem parseV4_colon {codes : Codes} (inside : colon ∈ codes) : parseV4 codes = none := by
  unfold parseV4
  split
  · rfl
  · cases parsed : parseDotted codes with
    | none => rfl
    | some n =>
      rcases parseDotted_codes parsed colon inside with digit | same
      · exact absurd digit (by decide)
      · exact absurd same (by decide)

theorem parseV6_render (ip : BitVec 128) (scope : Option Scope) :
    parseV6 (Address.v6 ip scope).render = some (ip, scope) := by
  have unscoped : percent ∉ renderHextets ip.toNat := not_mem_renderHextets (by decide) (by decide)
  rw [parseV6, if_neg (slash_not_mem_render _), Address.render, splitScope_render unscoped]
  simp [parseHextets_render ip.isLt]

theorem colon_mem_render (ip : BitVec 128) (scope : Option Scope) :
    colon ∈ (Address.v6 ip scope).render :=
  List.mem_append_left _ (colon_mem_renderHextets ip.toNat)

/-- The text of an address reads back as that address. -/
theorem parseAddress_render (address : Address) : parseAddress address.render = some address := by
  cases address with
  | v4 ip => rw [parseAddress, Address.render, parseV4_render]
  | v6 ip scope =>
    rw [parseAddress, parseV4_colon (colon_mem_render ip scope), parseV6_render]
    rfl

theorem ipAddress_text (address : Address) : ipAddress (.str address.text) = some address :=
  parseAddress_render address

end Sippycup.Ip
