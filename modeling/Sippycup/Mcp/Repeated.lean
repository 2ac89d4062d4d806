import Sippycup.Mcp.Redaction

/-! Redaction repeated. After the first substitution every header value is the
mark, the second changes nothing, and the third leaves no token to take. -/
namespace Sippycup.Mcp
open Sippycup.Ip Sippycup.Python Sippycup.Python.Text

section words
variable {V W text front rest : Codes}

/-- The letters that the patterns are written with. -/
def IsLetter (letter : Nat) : Prop := 97 ≤ letter ∧ letter ≤ 122 ∨ letter = 58 ∨ letter = 45

instance (letter : Nat) : Decidable (IsLetter letter) := inferInstanceAs (Decidable (_ ∨ _))

theorem matchesLetter_inj {a b code : Nat} (here : matchesLetter a code = true) (there : matchesLetter b code = true)
    (small : IsLetter a) (other : IsLetter b) : a = b := by
  simp only [matchesLetter, Bool.or_eq_true, Bool.and_eq_true, decide_eq_true_eq, List.contains_iff_mem,
    List.mem_cons, List.not_mem_nil, or_false] at here there
  unfold IsLetter at small other
  omega

theorem not_space_of_letter {letter code : Nat} (here : matchesLetter letter code = true) (small : IsLetter letter) :
    isSpace code = false := by
  simp only [matchesLetter, Bool.or_eq_true, Bool.and_eq_true, decide_eq_true_eq, List.contains_iff_mem,
    List.mem_cons, List.not_mem_nil, or_false] at here
  unfold IsLetter at small
  simp only [isSpace, Bool.or_eq_false_iff, decide_eq_false_iff_not, List.contains_eq_mem, List.mem_cons,
    List.not_mem_nil, or_false]
  omega

theorem authorizationWord_eq :
    authorizationWord = [97, 117, 116, 104, 111, 114, 105, 122, 97, 116, 105, 111, 110, 58] := rfl

theorem proxyWord_eq : proxyWord = [112, 114, 111, 120, 121, 45] ++ authorizationWord := rfl

theorem bearerWord_eq : bearerWord = [98, 101, 97, 114, 101, 114] := rfl

theorem redactedMark_eq : redactedMark = [60, 114, 101, 100, 97, 99, 116, 101, 100, 62] := rfl

theorem matchesWord_get (same : matchesWord W text = true) {i letter : Nat} (at_ : W[i]? = some letter) :
    ∃ code, text[i]? = some code ∧ matchesLetter letter code = true := by
  induction W generalizing text i with
  | nil => simp at at_
  | cons first W ih =>
    cases text with
    | nil => cases same
    | cons code text =>
      simp only [matchesWord, Bool.and_eq_true] at same
      cases i with
      | zero =>
        rw [List.getElem?_cons_zero, Option.some.injEq] at at_
        exact ⟨code, rfl, at_ ▸ same.1⟩
      | succ i => exact ih same.2 at_

theorem matchesWord_append {tail : Codes} (size : front.length = V.length)
    (same : matchesWord (V ++ W) (front ++ tail) = true) :
    matchesWord V front = true ∧ matchesWord W tail = true := by
  induction V generalizing front with
  | nil =>
    obtain rfl := List.length_eq_zero_iff.mp size
    exact ⟨rfl, same⟩
  | cons letter V ih =>
    cases front with
    | nil => cases size
    | cons code front =>
      simp only [List.cons_append, matchesWord, Bool.and_eq_true] at same ⊢
      obtain ⟨first, second⟩ := ih (Nat.succ.inj size) same.2
      exact ⟨⟨same.1, first⟩, second⟩

theorem startsWord_get (starts : startsWord W text = true) {i letter : Nat} (at_ : W[i]? = some letter) :
    ∃ code, text[i]? = some code ∧ matchesLetter letter code = true := by
  obtain ⟨code, found, same⟩ := matchesWord_get starts at_
  rw [List.getElem?_take] at found
  split at found
  · exact ⟨code, found, same⟩
  · cases found

/-- Where one word stands, the other cannot start `k` places on. -/
def clashes (V W : Codes) (k : Nat) : Bool :=
  (List.range V.length).any fun i => decide (k + i < W.length) && decide (V[i]? ≠ W[k + i]?)

theorem not_starts_inside (letters : ∀ letter ∈ V, IsLetter letter) (others : ∀ letter ∈ W, IsLetter letter)
    (same : matchesWord W front = true) {k : Nat} (clash : clashes V W k = true) :
    ¬ startsWord V ((front ++ rest).drop k) = true := by
  intro starts
  simp only [clashes, List.any_eq_true, List.mem_range, Bool.and_eq_true, decide_eq_true_eq] at clash
  obtain ⟨i, short, inside, differ⟩ := clash
  obtain ⟨code, found, here⟩ := startsWord_get starts (List.getElem?_eq_getElem short)
  obtain ⟨other, there, matched⟩ := matchesWord_get same (List.getElem?_eq_getElem inside)
  have width := matchesWord_length same
  rw [List.getElem?_drop, List.getElem?_append_left (by omega), there, Option.some.injEq] at found
  subst found
  have equal := matchesLetter_inj here matched (letters _ (List.getElem_mem short)) (others _ (List.getElem_mem inside))
  rw [List.getElem?_eq_getElem short, List.getElem?_eq_getElem inside, equal] at differ
  exact differ rfl

/-- Where these codes stand, the word cannot start `k` places on. -/
def refuses (V codes : Codes) (k : Nat) : Bool :=
  (List.range V.length).any fun i =>
    match V[i]?, codes[k + i]? with
    | some letter, some code => !matchesLetter letter code
    | _, _ => false

theorem not_starts_refused {k : Nat} (refused : refuses V front k = true) :
    ¬ startsWord V ((front ++ rest).drop k) = true := by
  intro starts
  simp only [refuses, List.any_eq_true, List.mem_range] at refused
  obtain ⟨i, short, differ⟩ := refused
  split at differ
  · rename_i letter code here there
    obtain ⟨other, found, matched⟩ := startsWord_get starts here
    obtain ⟨inside, -⟩ := List.getElem?_eq_some_iff.mp there
    rw [List.getElem?_drop, List.getElem?_append_left inside, there, Option.some.injEq] at found
    rw [← found] at matched
    simp [matched] at differ
  · cases differ

theorem not_starts_space {code : Nat} (some_ : V ≠ []) (letters : ∀ letter ∈ V, IsLetter letter)
    (space : isSpace code = true) : ¬ startsWord V (code :: rest) = true := by
  intro starts
  obtain ⟨letter, others, rfl⟩ := List.exists_cons_of_ne_nil some_
  obtain ⟨other, found, matched⟩ := startsWord_get starts (i := 0) rfl
  rw [List.getElem?_cons_zero, Option.some.injEq] at found
  rw [found, not_space_of_letter matched (letters _ List.mem_cons_self)] at space
  cases space

theorem authorization_letters : ∀ letter ∈ authorizationWord, IsLetter letter := by
  rw [authorizationWord_eq]
  decide

theorem bearer_letters : ∀ letter ∈ bearerWord, IsLetter letter := by
  rw [bearerWord_eq]
  decide

end words

section patterns
variable {α : Type} {key : α → Nat} {items : List α}

theorem headerPattern_starts {word text : Codes} {span : Span} (found : headerPattern word text = some span) :
    startsWord word text = true := by
  unfold headerPattern at found
  split at found
  · assumption
  · cases found

theorem headerPattern_absent {word text : Codes} (absent : ¬ startsWord word text = true) :
    headerPattern word text = none := by
  unfold headerPattern
  rw [if_neg absent]

theorem bearerPattern_absent {text : Codes} (absent : ¬ startsWord bearerWord text = true) :
    bearerPattern text = none := by
  unfold bearerPattern
  rw [if_neg absent]

/-- A bearer token as the pattern takes it apart. -/
structure IsBearer (key : α → Nat) (name blank token rest : List α) : Prop where
  name : matchesWord bearerWord (name.map key) = true
  blank : blank ≠ [] ∧ ∀ x ∈ blank, isSpace (key x) = true
  token : token ≠ [] ∧ ∀ x ∈ token, isTokenCode (key x) = true
  ends : ∀ x ∈ rest.head?, isTokenCode (key x) = false

theorem not_space_of_token {code : Nat} (token : isTokenCode code = true) : isSpace code = false := by
  simp only [isTokenCode, Bool.or_eq_true, decide_eq_true_eq, List.contains_iff_mem, List.mem_cons,
    List.not_mem_nil, or_false] at token
  simp only [isSpace, Bool.or_eq_false_iff, decide_eq_false_iff_not, List.contains_eq_mem, List.mem_cons,
    List.not_mem_nil, or_false]
  omega

/-- The longest front of which every code passes a test. -/
theorem cut_while (key : α → Nat) (p : Nat → Bool) (items : List α) :
    ∃ block tail, items = block ++ tail ∧ (∀ x ∈ block, p (key x) = true) ∧ ∀ x ∈ tail.head?, p (key x) = false := by
  induction items with
  | nil => exact ⟨[], [], rfl, by simp, by simp⟩
  | cons x rest ih =>
    by_cases here : p (key x) = true
    · obtain ⟨block, tail, rfl, whole, ends⟩ := ih
      refine ⟨x :: block, tail, rfl, ?_, ends⟩
      intro y member
      rcases List.mem_cons.mp member with rfl | member
      · exact here
      · exact whole y member
    · refine ⟨[], x :: rest, rfl, by simp, ?_⟩
      intro y member
      cases member
      exact eq_false_of_ne_true here

theorem takeWhile_block {p : Nat → Bool} {block rest : List α} (whole : ∀ x ∈ block, p (key x) = true)
    (ends : ∀ x ∈ rest.head?, p (key x) = false) :
    ((block ++ rest).map key).takeWhile p = block.map key := by
  rw [List.map_append, List.takeWhile_append_of_pos (by simpa using whole)]
  cases rest with
  | nil => simp
  | cons x rest => simp [ends x rfl]

theorem bearerPattern_some {span : Span} (found : bearerPattern (items.map key) = some span) :
    ∃ name blank token rest, items = (name ++ blank) ++ (token ++ rest) ∧ IsBearer key name blank token rest ∧
      span = ⟨(name ++ blank).length, (name ++ blank).length + token.length⟩ := by
  unfold bearerPattern at found
  split at found
  · rename_i starts
    obtain ⟨front, after, split, same⟩ := startsWord_iff.1 starts
    obtain ⟨name, others, rfl, rfl, rfl⟩ := List.map_eq_append_iff.mp split
    have width := matchesWord_length same
    rw [List.length_map] at width
    have drop : ((name ++ others).map key).drop bearerWord.length = others.map key := by
      rw [List.map_append, ← width, ← List.length_map (f := key), List.drop_left]
    obtain ⟨blank, tail, rfl, blanks, stops⟩ := cut_while key isSpace others
    obtain ⟨token, rest, rfl, tokens, ends⟩ := cut_while key isTokenCode tail
    have later : ((blank ++ (token ++ rest)).map key).drop blank.length = (token ++ rest).map key := by
      rw [List.map_append, ← List.length_map (f := key), List.drop_left]
    dsimp only at found
    rw [drop, takeWhile_block blanks stops, List.length_map, later, takeWhile_block tokens ends, List.length_map] at found
    split at found
    · rename_i positive
      cases found
      refine ⟨name, blank, token, rest, by rw [List.append_assoc], ⟨same, ⟨?_, blanks⟩, ⟨?_, tokens⟩, ends⟩, ?_⟩
      · exact List.ne_nil_of_length_pos positive.1
      · exact List.ne_nil_of_length_pos positive.2
      · rw [List.length_append, width]
    · cases found
  · cases found

theorem bearerPattern_bearer {name blank token rest : List α} (bearer : IsBearer key name blank token rest) :
    bearerPattern (((name ++ blank) ++ (token ++ rest)).map key) =
      some ⟨(name ++ blank).length, (name ++ blank).length + token.length⟩ := by
  have width := matchesWord_length bearer.name
  rw [List.length_map] at width
  have drop : (((name ++ blank) ++ (token ++ rest)).map key).drop bearerWord.length =
      (blank ++ (token ++ rest)).map key := by
    rw [List.append_assoc, List.map_append, ← width, ← List.length_map (f := key), List.drop_left]
  have later : ((blank ++ (token ++ rest)).map key).drop blank.length = (token ++ rest).map key := by
    rw [List.map_append, ← List.length_map (f := key), List.drop_left]
  have stops : ∀ x ∈ (token ++ rest).head?, isSpace (key x) = false := by
    obtain ⟨x, others, rfl⟩ := List.exists_cons_of_ne_nil bearer.token.1
    intro y member
    cases member
    exact not_space_of_token (bearer.token.2 x List.mem_cons_self)
  unfold bearerPattern
  rw [if_pos (startsWord_iff.2 ⟨_, _, by rw [List.append_assoc, List.map_append], bearer.name⟩)]
  dsimp only
  rw [drop, takeWhile_block bearer.blank.2 stops, List.length_map, later, takeWhile_block bearer.token.2 bearer.ends,
    List.length_map, if_pos ⟨List.length_pos_of_ne_nil bearer.blank.1, List.length_pos_of_ne_nil bearer.token.1⟩,
    List.length_append, width]

theorem bearerPattern_sound : bearerPattern.Sound := by
  intro text span found
  rw [← List.map_id text] at found
  obtain ⟨name, blank, token, rest, split, bearer, rfl⟩ := bearerPattern_some found
  have positive := List.length_pos_of_ne_nil bearer.token.1
  have whole := congrArg List.length split
  simp only [List.length_append] at whole ⊢
  omega

end patterns

end Sippycup.Mcp

namespace Sippycup.Mcp
open Sippycup.Ip Sippycup.Python Sippycup.Python.Text

section tidy
variable {α : Type} {find : Pattern} {key : α → Nat} {mark items out rest : List α}

theorem Replaced.eq (sound : find.Sound) (walk : Replaced find key mark items out) :
    out = substitute find key mark 0 items := by
  induction walk with
  | nil => rw [substitute]
  | plain none _ ih => rw [substitute_plain none, ih]
  | hit found _ ih => rw [substitute_hit sound found, ih]

/-- The items start a line end, or end. -/
def EndsLine (key : α → Nat) (items : List α) : Prop := ∀ x ∈ items.head?, isNewline (key x) = true

theorem IsHeader.endsLine {word : Codes} {name blank value : List α}
    (header : IsHeader word key name blank value rest) : EndsLine key rest := by
  intro x member
  rcases header.ends with rfl | ⟨y, more, rfl, newline⟩
  · cases member
  · cases member
    exact newline

/-- A pattern that starts with a word leaves the end of a line alone. -/
theorem Replaced.endsLine {word : Codes} (some_ : word ≠ []) (letters : ∀ letter ∈ word, IsLetter letter)
    (starts : ∀ text, (find text).isSome = true → startsWord word text = true)
    (walk : Replaced find key mark items out) (ends : EndsLine key items) : EndsLine key out := by
  cases walk with
  | nil => exact ends
  | plain none later => exact ends
  | @hit kept dropped rest out found later =>
    rcases whole : kept ++ (dropped ++ rest) with _ | ⟨x, others⟩
    · simp only [List.append_eq_nil_iff] at whole
      obtain ⟨rfl, rfl, rfl⟩ := whole
      obtain ⟨letter, more, rfl⟩ := List.exists_cons_of_ne_nil some_
      have := starts _ (by rw [found]; rfl)
      cases this
    · rw [whole] at found ends
      have newline := ends x rfl
      have begun := starts ((x :: others).map key) (by rw [found]; rfl)
      exact absurd begun (not_starts_space some_ letters (isSpace_of_isNewline newline))

/-- After every header word stand a blank and the mark, up to the end of the
line, or nothing but line ends. -/
def Tidy (key : α → Nat) (mark items : List α) : Prop :=
  ∀ k, startsWord authorizationWord ((items.drop k).map key) = true →
    (∃ blank more, items.drop (k + authorizationWord.length) = blank ++ (mark ++ more) ∧
      (∀ x ∈ blank, isSpace (key x) = true) ∧ EndsLine key more) ∨
    ∀ x ∈ items.drop (k + authorizationWord.length), isNewline (key x) = true

theorem Tidy.drop (tidy : Tidy key mark items) (n : Nat) : Tidy key mark (items.drop n) := by
  intro k starts
  rw [List.drop_drop] at starts ⊢
  rw [← Nat.add_assoc]
  exact tidy (n + k) starts

theorem startsWord_split {word : Codes} (starts : startsWord word (items.map key) = true) :
    ∃ name rest, items = name ++ rest ∧ matchesWord word (name.map key) = true ∧ name.length = word.length := by
  obtain ⟨front, after, split, same⟩ := startsWord_iff.1 starts
  obtain ⟨name, rest, rfl, rfl, -⟩ := List.map_eq_append_iff.mp split
  have width := matchesWord_length same
  rw [List.length_map] at width
  exact ⟨name, rest, rfl, same, width⟩

theorem matchesWord_clear {word text : Codes} (letters : ∀ letter ∈ word, IsLetter letter)
    (same : matchesWord word text = true) : ∀ code ∈ text, code ≠ 60 := by
  induction word generalizing text with
  | nil =>
    cases text with
    | nil => simp
    | cons code text => cases same
  | cons letter word ih =>
    cases text with
    | nil => simp
    | cons code text =>
      simp only [matchesWord, Bool.and_eq_true] at same
      intro other member
      rcases List.mem_cons.mp member with rfl | member
      · rintro rfl
        have small := letters letter List.mem_cons_self
        have here := same.1
        simp only [matchesLetter, Bool.or_eq_true, Bool.and_eq_true, decide_eq_true_eq, List.contains_iff_mem,
          List.mem_cons, List.not_mem_nil, or_false] at here
        unfold IsLetter at small
        omega
      · exact ih (fun l there => letters l (List.mem_cons_of_mem _ there)) same.2 other member

theorem authorization_clash : ∀ k < authorizationWord.length, 0 < k →
    clashes authorizationWord authorizationWord k = true := by
  rw [authorizationWord_eq]
  decide

theorem bearer_clash : ∀ k < bearerWord.length, 0 < k → clashes bearerWord bearerWord k = true := by
  rw [bearerWord_eq]
  decide

theorem authorization_in_bearer : ∀ k < bearerWord.length, clashes authorizationWord bearerWord k = true := by
  rw [authorizationWord_eq, bearerWord_eq]
  decide

theorem bearer_in_authorization : ∀ k < authorizationWord.length,
    clashes bearerWord authorizationWord k = true := by
  rw [authorizationWord_eq, bearerWord_eq]
  decide

theorem authorization_in_mark : ∀ k < redactedMark.length, refuses authorizationWord redactedMark k = true := by
  rw [authorizationWord_eq, redactedMark_eq]
  decide

theorem bearer_in_mark : ∀ k < redactedMark.length, refuses bearerWord redactedMark k = true := by
  rw [bearerWord_eq, redactedMark_eq]
  decide

theorem authorizationWord_ne : authorizationWord ≠ [] := by
  rw [authorizationWord_eq]
  simp

theorem bearerWord_ne : bearerWord ≠ [] := by
  rw [bearerWord_eq]
  simp

/-- In a block of white space no word starts. -/
theorem not_starts_blank {word : Codes} {blank : List α} {k : Nat} (some_ : word ≠ [])
    (letters : ∀ letter ∈ word, IsLetter letter) (spaces : ∀ x ∈ blank, isSpace (key x) = true)
    (inside : k < blank.length) : ¬ startsWord word (((blank ++ rest).drop k).map key) = true := by
  rw [List.drop_append_of_le_length (Nat.le_of_lt inside)]
  rcases tail : blank.drop k with _ | ⟨x, others⟩
  · rw [List.drop_eq_nil_iff] at tail
    omega
  · exact not_starts_space some_ letters (spaces x (List.mem_of_mem_drop (tail ▸ List.mem_cons_self)))

theorem mark_opens (marked : mark.map key = redactedMark) : ∃ x rest, mark = x :: rest ∧ key x = 60 := by
  rw [redactedMark_eq] at marked
  obtain ⟨x, rest, rfl, opens, -⟩ := List.map_eq_cons_iff.mp marked
  exact ⟨x, rest, rfl, opens⟩

/-- A word cannot start inside another that it clashes with, nor in the blank or the mark behind it. -/
theorem not_starts_kept {V W : Codes} {name blank : List α} {k : Nat} (some_ : V ≠ [])
    (letters : ∀ letter ∈ V, IsLetter letter) (others : ∀ letter ∈ W, IsLetter letter)
    (marked : mark.map key = redactedMark) (refused : ∀ k < redactedMark.length, refuses V redactedMark k = true)
    (same : matchesWord W (name.map key) = true) (spaces : ∀ x ∈ blank, isSpace (key x) = true)
    (clash : k < W.length → clashes V W k = true) (inside : k < (name ++ blank).length + mark.length) :
    ¬ startsWord V ((((name ++ blank) ++ (mark ++ rest)).drop k).map key) = true := by
  have width := matchesWord_length same
  rw [List.length_map] at width
  rw [List.length_append] at inside
  by_cases first : k < name.length
  · rw [List.append_assoc, List.map_drop, List.map_append]
    exact not_starts_inside letters others same (clash (width ▸ first))
  · by_cases second : k < name.length + blank.length
    · rw [List.append_assoc, List.drop_append, List.drop_eq_nil_of_le (Nat.le_of_not_lt first), List.nil_append]
      exact not_starts_blank some_ letters spaces (by omega)
    · have size := congrArg List.length marked
      rw [List.length_map] at size
      rw [List.drop_append, List.drop_eq_nil_of_le (by rw [List.length_append]; omega), List.nil_append,
        List.map_drop, List.map_append, marked]
      apply not_starts_refused
      apply refused
      rw [List.length_append]
      omega

/-- Behind what a substitution kept and its mark comes what it made of the rest. -/
theorem drop_past {kept : List α} {n : Nat} (large : kept.length + mark.length ≤ n) :
    (kept ++ (mark ++ out)).drop n = out.drop (n - (kept.length + mark.length)) := by
  rw [← List.append_assoc, List.drop_append, List.drop_eq_nil_of_le (by rw [List.length_append]; omega),
    List.nil_append, List.length_append]

theorem tidy_header (marked : mark.map key = redactedMark)
    (walk : Replaced (headerPattern authorizationWord) key mark items out) : Tidy key mark out := by
  induction walk with
  | nil =>
    intro k starts
    rw [List.drop_nil, authorizationWord_eq] at starts
    cases starts
  | @plain x rest out none later ih =>
    intro k starts
    cases k with
    | succ k =>
      rw [show k + 1 + authorizationWord.length = k + authorizationWord.length + 1 by omega, List.drop_succ_cons]
      exact ih k starts
    | zero =>
      rw [List.drop_zero] at starts
      obtain ⟨name, tail, split, same, width⟩ := startsWord_split starts
      have clear : ∀ y ∈ name, key y ≠ 60 := fun y member =>
        matchesWord_clear authorization_letters same _ (List.mem_map_of_mem member)
      have whole : Replaced (headerPattern authorizationWord) key mark (x :: rest) (x :: out) := .plain none later
      obtain ⟨after, front⟩ := whole.front (mark_opens marked) split clear
      rw [front] at none whole
      have newlines := headerPattern_none same none
      have through : substitute (headerPattern authorizationWord) key mark 0 ((name ++ after) ++ []) =
          (name ++ after) ++ substitute (headerPattern authorizationWord) key mark 0 [] := by
        apply substitute_through
        intro done here cut some_
        rw [List.append_nil]
        rcases Nat.eq_zero_or_pos done.length with zero | positive
        · rw [List.length_eq_zero_iff.mp zero, List.nil_append] at cut
          rw [← cut]
          exact none
        · apply headerPattern_absent
          have place : here = (name ++ after).drop done.length := by rw [cut, List.drop_left]
          rw [place]
          by_cases first : done.length < name.length
          · rw [List.map_drop, List.map_append]
            exact not_starts_inside authorization_letters authorization_letters same
              (authorization_clash _ (width ▸ first) positive)
          · rw [List.drop_append, List.drop_eq_nil_of_le (Nat.le_of_not_lt first), List.nil_append,
              ← List.append_nil (after : List α)]
            apply not_starts_blank authorizationWord_ne authorization_letters fun y member =>
              isSpace_of_isNewline (newlines y member)
            have sizes := congrArg List.length cut
            have := List.length_pos_of_ne_nil some_
            simp only [List.length_append] at sizes
            omega
      have kept := whole.eq headerPattern_sound
      rw [List.append_nil, substitute, List.append_nil] at through
      rw [through] at kept
      refine .inr ?_
      rw [kept, Nat.zero_add, ← width, List.drop_left]
      exact newlines
  | @hit kept dropped rest out found later ih =>
    obtain ⟨name, blank, value, after, split, header, sizes⟩ := headerPattern_some found
    simp only [Span.mk.injEq] at sizes
    obtain ⟨rfl, others⟩ := List.append_inj split sizes.1
    obtain ⟨rfl, rfl⟩ := List.append_inj others (by omega)
    have width := matchesWord_length header.name
    rw [List.length_map] at width
    intro k starts
    by_cases early : k < (name ++ blank).length + mark.length
    · rcases Nat.eq_zero_or_pos k with rfl | positive
      · refine .inl ⟨blank, out, ?_, header.blank, ?_⟩
        · rw [Nat.zero_add, ← width, List.append_assoc, List.drop_left]
        · apply later.endsLine authorizationWord_ne authorization_letters ?_ header.endsLine
          intro text some_
          obtain ⟨span, found⟩ := Option.isSome_iff_exists.mp some_
          exact headerPattern_starts found
      · refine absurd starts (not_starts_kept authorizationWord_ne authorization_letters authorization_letters
          marked authorization_in_mark header.name header.blank (fun inside => ?_) early)
        exact authorization_clash k inside positive
    · rw [drop_past (by omega)] at starts
      rw [drop_past (by omega), show k + authorizationWord.length - ((name ++ blank).length + mark.length) =
        k - ((name ++ blank).length + mark.length) + authorizationWord.length by omega]
      exact ih _ starts

end tidy

end Sippycup.Mcp

namespace Sippycup.Mcp
open Sippycup.Ip Sippycup.Python Sippycup.Python.Text

section again
variable {α : Type} {key : α → Nat} {mark items out rest : List α}

theorem mark_value (marked : mark.map key = redactedMark) :
    mark ≠ [] ∧ (∀ x ∈ mark, isNewline (key x) = false) ∧ ∀ x ∈ mark.head?, isSpace (key x) = false ∧
      isTokenCode (key x) = false := by
  obtain ⟨x, others, rfl, opens⟩ := mark_opens marked
  refine ⟨List.cons_ne_nil x others, ?_, ?_⟩
  · intro y member
    have inside : key y ∈ redactedMark := marked ▸ List.mem_map_of_mem member
    rw [redactedMark_eq] at inside
    have plain : ∀ code ∈ [60, 114, 101, 100, 97, 99, 116, 101, 100, 62], isNewline code = false := by decide
    exact plain _ inside
  · intro y member
    cases member
    rw [opens]
    decide

/-- A value that the mark already stands for is replaced by itself. -/
theorem header_fixed {word ahead : Codes} (ends : word = ahead ++ authorizationWord)
    (marked : mark.map key = redactedMark) (tidy : Tidy key mark items) :
    substitute (headerPattern word) key mark 0 items = items := by
  have walk : Replaced (headerPattern word) key mark items (substitute (headerPattern word) key mark 0 items) :=
    replaced headerPattern_sound items
  generalize result : substitute (headerPattern word) key mark 0 items = out at walk ⊢
  clear result
  induction walk with
  | nil => rfl
  | plain none later ih => rw [ih (tidy.drop 1)]
  | @hit kept dropped rest out found later ih =>
    obtain ⟨name, blank, value, after, split, header, sizes⟩ := headerPattern_some found
    simp only [Span.mk.injEq] at sizes
    obtain ⟨rfl, others⟩ := List.append_inj split sizes.1
    obtain ⟨rfl, rfl⟩ := List.append_inj others (by omega)
    have width := matchesWord_length header.name
    rw [List.length_map] at width
    have starts : startsWord authorizationWord
        ((((name ++ blank) ++ (dropped ++ rest)).drop ahead.length).map key) = true := by
      have same := header.name
      rw [ends] at same width
      rw [List.length_append] at width
      obtain ⟨first, second, rfl, size⟩ : ∃ first second, name = first ++ second ∧ first.length = ahead.length :=
        ⟨name.take ahead.length, name.drop ahead.length, (List.take_append_drop ..).symm,
          by rw [List.length_take]; omega⟩
      have last : matchesWord authorizationWord (second.map key) = true := by
        rw [List.map_append] at same
        exact (matchesWord_append (by rw [List.length_map, size]) same).2
      rw [← size, List.append_assoc, List.append_assoc, List.drop_left]
      exact startsWord_iff.2 ⟨_, _, by rw [List.map_append], last⟩
    have good := tidy ahead.length starts
    have behind : ((name ++ blank) ++ (dropped ++ rest)).drop (ahead.length + authorizationWord.length) =
        blank ++ (dropped ++ rest) := by
      rw [← List.length_append, ← ends, ← width, List.append_assoc, List.drop_left]
    rw [behind] at good
    have fixed := ih (by
      have dropped_ := tidy.drop ((name ++ blank) ++ dropped).length
      rwa [← List.append_assoc, List.drop_left] at dropped_)
    rcases good with ⟨spaces, more, same, blanks, line⟩ | newlines
    · have marks := mark_value marked
      have header' : IsHeader word key name spaces mark more := by
        refine ⟨header.name, blanks, marks.1, marks.2.1, ?_⟩
        cases more with
        | nil => exact .inl rfl
        | cons x others => exact .inr ⟨x, others, rfl, line x rfl⟩
      have again := headerPattern_header header' fun x member => (marks.2.2 x member).1
      rw [List.append_assoc, ← same, ← List.append_assoc, found] at again
      simp only [Option.some.injEq, Span.mk.injEq, List.length_append] at again
      obtain ⟨rfl, others⟩ := List.append_inj same (by omega)
      obtain ⟨rfl, rfl⟩ := List.append_inj others (by omega)
      rw [fixed]
    · obtain ⟨x, others, rfl⟩ := List.exists_cons_of_ne_nil header.some_
      have newline := newlines x (by simp)
      rw [header.line x List.mem_cons_self] at newline
      cases newline

/-- What stands where no word starts is kept as it is. -/
theorem substitute_bearer_through {front : List α}
    (none : ∀ k < front.length, ¬ startsWord bearerWord (((front ++ rest).drop k).map key) = true) :
    substitute bearerPattern key mark 0 (front ++ rest) = front ++ substitute bearerPattern key mark 0 rest := by
  apply substitute_through
  intro done here cut some_
  apply bearerPattern_absent
  have place : here ++ rest = (front ++ rest).drop done.length := by rw [cut, List.append_assoc, List.drop_left]
  rw [place]
  apply none
  have := List.length_pos_of_ne_nil some_
  rw [cut, List.length_append]
  omega

theorem bearer_starts {text : Codes} (some_ : (bearerPattern text).isSome = true) :
    startsWord bearerWord text = true := by
  by_contra absent
  rw [bearerPattern_absent absent] at some_
  cases some_

theorem substitute_bearer_endsLine (ends : EndsLine key items) :
    EndsLine key (substitute bearerPattern key mark 0 items) :=
  (replaced bearerPattern_sound items).endsLine bearerWord_ne bearer_letters (fun _ => bearer_starts) ends

theorem substitute_bearer_newlines (newlines : ∀ x ∈ items, isNewline (key x) = true) :
    substitute bearerPattern key mark 0 items = items := by
  have through : substitute bearerPattern key mark 0 (items ++ []) =
      items ++ substitute bearerPattern key mark 0 [] :=
    substitute_bearer_through fun k inside => not_starts_blank bearerWord_ne bearer_letters
      (fun x member => isSpace_of_isNewline (newlines x member)) inside
  rwa [List.append_nil, substitute, List.append_nil] at through

theorem tidy_bearer (marked : mark.map key = redactedMark)
    (walk : Replaced bearerPattern key mark items out) (tidy : Tidy key mark items) : Tidy key mark out := by
  induction walk with
  | nil => exact tidy
  | @plain x rest out none later ih =>
    intro k starts
    cases k with
    | succ k =>
      rw [show k + 1 + authorizationWord.length = k + authorizationWord.length + 1 by omega, List.drop_succ_cons]
      exact ih (tidy.drop 1) k starts
    | zero =>
      rw [List.drop_zero] at starts
      obtain ⟨name, tail, split, same, width⟩ := startsWord_split starts
      have clear : ∀ y ∈ name, key y ≠ 60 := fun y member =>
        matchesWord_clear authorization_letters same _ (List.mem_map_of_mem member)
      have whole : Replaced bearerPattern key mark (x :: rest) (x :: out) := .plain none later
      obtain ⟨after, front⟩ := whole.front (mark_opens marked) split clear
      rw [front] at whole tidy
      have begun : startsWord authorizationWord (((name ++ after).drop 0).map key) = true := by
        rw [List.drop_zero, List.map_append]
        exact startsWord_iff.2 ⟨_, _, rfl, same⟩
      have good := tidy 0 begun
      rw [Nat.zero_add, ← width, List.drop_left] at good
      have kept := whole.eq bearerPattern_sound
      rw [substitute_bearer_through fun k inside => by
        rw [List.map_drop, List.map_append]
        exact not_starts_inside bearer_letters authorization_letters same
          (bearer_in_authorization k (width ▸ inside))] at kept
      rw [kept, Nat.zero_add, ← width, List.drop_left]
      rcases good with ⟨blank, more, rfl, blanks, line⟩ | newlines
      · refine .inl ⟨blank, substitute bearerPattern key mark 0 more, ?_, blanks, substitute_bearer_endsLine line⟩
        rw [substitute_bearer_through fun k inside =>
          not_starts_blank bearerWord_ne bearer_letters blanks inside]
        rw [substitute_bearer_through fun k inside => by
          rw [List.map_drop, List.map_append, marked]
          refine not_starts_refused (bearer_in_mark k ?_)
          rwa [← marked, List.length_map]]
      · rw [substitute_bearer_newlines newlines]
        exact .inr newlines
  | @hit kept dropped rest out found later ih =>
    obtain ⟨name, blank, token, after, split, bearer, sizes⟩ := bearerPattern_some found
    simp only [Span.mk.injEq] at sizes
    obtain ⟨rfl, others⟩ := List.append_inj split sizes.1
    obtain ⟨rfl, rfl⟩ := List.append_inj others (by omega)
    have rest_ := tidy.drop ((name ++ blank) ++ dropped).length
    rw [← List.append_assoc, List.drop_left] at rest_
    intro k starts
    by_cases early : k < (name ++ blank).length + mark.length
    · exact absurd starts (not_starts_kept authorizationWord_ne authorization_letters bearer_letters
        marked authorization_in_mark bearer.name bearer.blank.2 (authorization_in_bearer k) early)
    · rw [drop_past (by omega)] at starts
      rw [drop_past (by omega), show k + authorizationWord.length - ((name ++ blank).length + mark.length) =
        k - ((name ++ blank).length + mark.length) + authorizationWord.length by omega]
      exact ih rest_ _ starts

end again

end Sippycup.Mcp

namespace Sippycup.Mcp
open Sippycup.Ip Sippycup.Python Sippycup.Python.Text

section settled
variable {α : Type} {key : α → Nat} {mark items out : List α}

/-- Where a block ends does not depend on how the items are divided. -/
theorem block_unique {p : Nat → Bool} {a b u v : List α} (same : a ++ u = b ++ v)
    (left : ∀ x ∈ a, p (key x) = true) (right : ∀ x ∈ b, p (key x) = true)
    (leftEnds : ∀ x ∈ u.head?, p (key x) = false) (rightEnds : ∀ x ∈ v.head?, p (key x) = false) :
    a = b ∧ u = v := by
  induction a generalizing b with
  | nil =>
    cases b with
    | nil => exact ⟨rfl, same⟩
    | cons y b =>
      rw [List.nil_append] at same
      have ends := leftEnds y (by rw [same]; rfl)
      rw [right y List.mem_cons_self] at ends
      cases ends
  | cons x a ih =>
    cases b with
    | nil =>
      rw [List.nil_append] at same
      have ends := rightEnds x (by rw [← same]; rfl)
      rw [left x List.mem_cons_self] at ends
      cases ends
    | cons y b =>
      obtain ⟨rfl, tails⟩ := List.cons.inj same
      obtain ⟨rfl, rfl⟩ := ih tails (fun z member => left z (List.mem_cons_of_mem _ member))
        fun z member => right z (List.mem_cons_of_mem _ member)
      exact ⟨rfl, rfl⟩

theorem bearer_before_mark {name blank rest : List α} (marked : mark.map key = redactedMark)
    (same : matchesWord bearerWord (name.map key) = true) (blanks : ∀ x ∈ blank, isSpace (key x) = true) :
    bearerPattern (((name ++ blank) ++ (mark ++ rest)).map key) = none := by
  rcases found : bearerPattern (((name ++ blank) ++ (mark ++ rest)).map key) with _ | span
  · rfl
  · obtain ⟨other, spaces, token, after, split, bearer, -⟩ := bearerPattern_some found
    have width := matchesWord_length same
    have size := matchesWord_length bearer.name
    rw [List.length_map] at width size
    rw [List.append_assoc, List.append_assoc] at split
    obtain ⟨rfl, behind⟩ := List.append_inj split (width.trans size.symm)
    obtain ⟨x, others, rfl, -⟩ := mark_opens marked
    obtain ⟨y, more, rfl⟩ := List.exists_cons_of_ne_nil bearer.token.1
    have opens := (mark_value marked).2.2 x rfl
    have token := bearer.token.2 y List.mem_cons_self
    obtain ⟨-, tails⟩ := block_unique behind blanks bearer.blank.2 (fun z member => by cases member; exact opens.1)
      fun z member => by cases member; exact not_space_of_token token
    obtain ⟨rfl, -⟩ := List.cons.inj tails
    rw [opens.2] at token
    cases token

/-- After the substitution of tokens the pattern matches nowhere. -/
theorem bearer_gone (marked : mark.map key = redactedMark) (walk : Replaced bearerPattern key mark items out) :
    ∀ k, bearerPattern ((out.drop k).map key) = none := by
  induction walk with
  | nil =>
    intro k
    rw [List.drop_nil]
    apply bearerPattern_absent
    rw [bearerWord_eq]
    exact Bool.false_ne_true
  | @plain x rest out none later ih =>
    intro k
    cases k with
    | succ k => exact ih k
    | zero =>
      rw [List.drop_zero]
      rcases found : bearerPattern ((x :: out).map key) with _ | span
      · rfl
      · obtain ⟨name, blank, token, after, split, bearer, -⟩ := bearerPattern_some found
        obtain ⟨y, more, rfl⟩ := List.exists_cons_of_ne_nil bearer.token.1
        have first := bearer.token.2 y List.mem_cons_self
        have whole : Replaced bearerPattern key mark (x :: rest) (x :: out) := .plain none later
        have clear : ∀ z ∈ name ++ blank ++ [y], key z ≠ 60 := by
          intro z member opens
          simp only [List.mem_append, List.mem_singleton] at member
          rcases member with (member | member) | rfl
          · exact matchesWord_clear bearer_letters bearer.name _ (List.mem_map_of_mem member) opens
          · have space := bearer.blank.2 z member
            rw [opens] at space
            cases space
          · rw [opens] at first
            cases first
        have cut : x :: out = (name ++ blank ++ [y]) ++ (more ++ after) := by rw [split]; simp
        obtain ⟨tail, front⟩ := whole.front (mark_opens marked) cut clear
        obtain ⟨token, rest_, rfl, tokens, ends⟩ := cut_while key isTokenCode tail
        have again : IsBearer key name blank (y :: token) rest_ := by
          refine ⟨bearer.name, bearer.blank, ⟨List.cons_ne_nil y token, ?_⟩, ends⟩
          intro z member
          rcases List.mem_cons.mp member with rfl | member
          · exact first
          · exact tokens z member
        have matched := bearerPattern_bearer again
        rw [front, List.append_assoc, List.singleton_append] at none
        rw [List.cons_append, none] at matched
        cases matched
  | @hit kept dropped rest out found later ih =>
    obtain ⟨name, blank, token, after, split, bearer, sizes⟩ := bearerPattern_some found
    simp only [Span.mk.injEq] at sizes
    obtain ⟨rfl, others⟩ := List.append_inj split sizes.1
    intro k
    by_cases early : k < (name ++ blank).length + mark.length
    · rcases Nat.eq_zero_or_pos k with rfl | positive
      · rw [List.drop_zero]
        exact bearer_before_mark marked bearer.name bearer.blank.2
      · apply bearerPattern_absent
        apply not_starts_kept bearerWord_ne bearer_letters bearer_letters marked bearer_in_mark bearer.name
          bearer.blank.2 ?_ early
        intro inside
        exact bearer_clash k inside positive
    · rw [drop_past (by omega)]
      exact ih _

theorem bearer_fixed (gone : ∀ k, bearerPattern ((items.drop k).map key) = none) :
    substitute bearerPattern key mark 0 items = items := by
  have through : substitute bearerPattern key mark 0 (items ++ []) =
      items ++ substitute bearerPattern key mark 0 [] := by
    apply substitute_through
    intro done here cut _
    rw [List.append_nil, show here = items.drop done.length by rw [cut, List.drop_left]]
    exact gone _
  rwa [List.append_nil, substitute, List.append_nil] at through

/-- The second substitution never changes anything. -/
theorem redactItems_eq (marked : mark.map key = redactedMark) (items : List α) :
    redactItems key mark items = substitute bearerPattern key mark 0
      (substitute (headerPattern authorizationWord) key mark 0 items) := by
  have tidy := tidy_header marked (replaced headerPattern_sound items)
  simp only [redactItems, secretText, List.foldl_cons, List.foldl_nil]
  rw [header_fixed proxyWord_eq marked tidy]

theorem redactItems_again (marked : mark.map key = redactedMark) (items : List α) :
    redactItems key mark (redactItems key mark items) = redactItems key mark items := by
  have tidy := tidy_header marked (replaced headerPattern_sound items)
  have walk : Replaced bearerPattern key mark _ _ :=
    replaced bearerPattern_sound (substitute (headerPattern authorizationWord) key mark 0 items)
  rw [redactItems_eq marked (redactItems key mark items), redactItems_eq marked items,
    header_fixed (List.nil_append authorizationWord).symm marked (tidy_bearer marked walk tidy),
    bearer_fixed (bearer_gone marked walk)]

end settled

theorem redactText_again (text : Text) : redactText (redactText text) = redactText text :=
  congrArg Text.mk (redactItems_again (List.map_id _) text.codes)

mutual
/-- Redaction repeated changes nothing. -/
theorem redact_again : ∀ value : JsonValue, redact (redact value) = redact value
  | .null | .bool _ | .int _ | .float _ => by simp [redact]
  | .str text => by rw [redact, redact, redactText_again]
  | .list items => by rw [redact, redact, redactList_again items]
  | .dict entries => by rw [redact, redact, redactEntries_again entries]

theorem redactList_again : ∀ items, redactList (redactList items) = redactList items
  | [] => rfl
  | item :: rest => by rw [redactList, redactList, redact_again item, redactList_again rest]

theorem redactEntries_again : ∀ entries, redactEntries (redactEntries entries) = redactEntries entries
  | [] => rfl
  | (key, value) :: rest => by
    rw [redactEntries, redactEntries, redactEntries_again rest]
    split
    · rfl
    · rw [redact_again value]
end

end Sippycup.Mcp
