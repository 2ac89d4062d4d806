import Sippycup.Mcp.Repeated

/-! What redaction hides. The secret pieces of a text are labelled, the text
apart from them is its outline, and the substitutions go through a labelled
text from left to right. -/
namespace Sippycup.Mcp
open Sippycup.Ip Sippycup.Python Sippycup.Python.Text

/-- What went before, read backwards, ends in the word. -/
def endsWord (word past : Codes) : Bool := matchesWord word (past.take word.length).reverse

/-- What went before ends in the word bearer and white space. -/
def afterBearer (past : Codes) : Bool :=
  !(past.takeWhile isSpace).isEmpty && endsWord bearerWord (past.dropWhile isSpace)

/-- The code belongs to the token behind the word bearer and white space. -/
def inToken (past : Codes) (code : Nat) : Bool :=
  isTokenCode code && afterBearer (past.dropWhile isTokenCode)

/-- Every code of a text with whether it is secret: `keep` codes are the marker
of a header, `drop` codes its value. -/
@[grind =] def label : Nat → Nat → Codes → Codes → List (Nat × Bool)
  | _, _, _, [] => []
  | keep + 1, drop, past, code :: rest => (code, inToken past code) :: label keep drop (code :: past) rest
  | 0, drop + 1, past, code :: rest => (code, true) :: label 0 drop (code :: past) rest
  | 0, 0, past, code :: rest =>
    match headerPattern authorizationWord (code :: rest) with
    | some span => (code, inToken past code) :: label (span.kept - 1) (span.size - span.kept) (code :: past) rest
    | none => (code, inToken past code) :: label 0 0 (code :: past) rest

/-- What is left of a text without its secret pieces, each of which leaves a `none`. -/
@[grind =] def outline : Bool → List (Nat × Bool) → List (Option Nat)
  | _, [] => []
  | _, (code, false) :: rest => some code :: outline false rest
  | within, (_, true) :: rest => if within then outline true rest else none :: outline true rest

def outlineText (text : Text) : List (Option Nat) := outline false (label 0 0 [] text.codes)

/-- No secret piece is followed by white space alone and another secret piece. -/
@[grind =] def separated : Bool → List (Option Nat) → Bool
  | _, [] => true
  | hot, some code :: rest => separated (hot && isSpace code) rest
  | hot, none :: rest => !hot && separated true rest

@[grind =] def fill : List (Option Nat) → Codes
  | [] => []
  | some code :: rest => code :: fill rest
  | none :: rest => redactedMark ++ fill rest

def labelledMark : List (Nat × Bool) := redactedMark.map fun code => (code, false)

/-- No secret code of the text is left in what redaction makes of it. -/
def HiddenText (text : Text) : Prop :=
  ∀ item ∈ redactItems Prod.fst labelledMark (label 0 0 [] text.codes), item.2 = false

/-- A document without its secret material. -/
inductive Outline where
  | scalar (value : JsonValue)
  | text (codes : List (Option Nat))
  | list (items : List Outline)
  | dict (entries : List (Text × Outline))
  | hidden

mutual
@[grind =] def outlineValue : JsonValue → Outline
  | .str text => .text (outlineText text)
  | .list items => .list (outlineList items)
  | .dict entries => .dict (outlineEntries entries)
  | value => .scalar value

@[grind =] def outlineList : List JsonValue → List Outline
  | [] => []
  | item :: rest => outlineValue item :: outlineList rest

@[grind =] def outlineEntries : List (Text × JsonValue) → List (Text × Outline)
  | [] => []
  | (key, value) :: rest => (key, if isSecretKey key then .hidden else outlineValue value) :: outlineEntries rest
end

mutual
/-- The texts that stand in the document outside of its secret fields. -/
@[grind =] def exposedTexts : JsonValue → List Text
  | .str text => [text]
  | .list items => exposedItems items
  | .dict entries => exposedEntries entries
  | _ => []

@[grind =] def exposedItems : List JsonValue → List Text
  | [] => []
  | item :: rest => exposedTexts item ++ exposedItems rest

@[grind =] def exposedEntries : List (Text × JsonValue) → List Text
  | [] => []
  | (key, value) :: rest => (if isSecretKey key then [] else exposedTexts value) ++ exposedEntries rest
end

section strip
variable {α : Type} {key : α → Nat} {mark items out : List α}

/-- The substitution of tokens from left to right, with what was kept since the
last token read backwards. -/
@[grind =] def strip (key : α → Nat) (mark : List α) : Codes → Bool → List α → List α
  | _, _, [] => []
  | past, dropping, x :: rest =>
    if dropping && isTokenCode (key x) then strip key mark past true rest
    else if isTokenCode (key x) && afterBearer past then mark ++ strip key mark [] true rest
    else x :: strip key mark (key x :: past) false rest

theorem strip_kept {x : α} {rest : List α} {past : Codes}
    (kept : isTokenCode (key x) = true → afterBearer past = false) :
    strip key mark past false (x :: rest) = x :: strip key mark (key x :: past) false rest := by
  rw [strip, Bool.false_and, if_neg Bool.false_ne_true, if_neg]
  intro both
  rw [Bool.and_eq_true] at both
  rw [kept both.1] at both
  exact Bool.false_ne_true both.2

theorem strip_token {x : α} {rest : List α} {past : Codes} (token : isTokenCode (key x) = true)
    (after : afterBearer past = true) :
    strip key mark past false (x :: rest) = mark ++ strip key mark [] true rest := by
  rw [strip, Bool.false_and, if_neg Bool.false_ne_true, token, after]
  rfl

theorem strip_dropped {token rest : List α} {past : Codes} (tokens : ∀ x ∈ token, isTokenCode (key x) = true) :
    strip key mark past true (token ++ rest) = strip key mark past true rest := by
  induction token with
  | nil => rfl
  | cons x token ih =>
    rw [List.cons_append, strip, tokens x List.mem_cons_self, Bool.true_and, if_pos rfl]
    exact ih fun y member => tokens y (List.mem_cons_of_mem _ member)

theorem strip_fresh {rest : List α} {past : Codes} (ends : ∀ x ∈ rest.head?, isTokenCode (key x) = false) :
    strip key mark past true rest = strip key mark past false rest := by
  cases rest with
  | nil => rfl
  | cons x rest => rw [strip, strip, ends x rfl, Bool.and_false, Bool.and_false]

theorem strip_front {front rest : List α} {past : Codes}
    (kept : ∀ before x behind, front = before ++ x :: behind → isTokenCode (key x) = true →
      afterBearer ((before.map key).reverse ++ past) = false) :
    strip key mark past false (front ++ rest) = front ++ strip key mark ((front.map key).reverse ++ past) false rest := by
  induction front generalizing past with
  | nil => rfl
  | cons x front ih =>
    have later := @ih (key x :: past) fun before y behind split token => by
      have := kept (x :: before) y behind (by rw [split]; rfl) token
      simpa using this
    have first : isTokenCode (key x) = true → afterBearer past = false := kept [] x front rfl
    rw [List.cons_append, strip_kept first, later]
    simp

theorem matchesWord_letter {word text : Codes} (same : matchesWord word text = true) :
    ∀ code ∈ text, ∃ letter ∈ word, matchesLetter letter code = true := by
  induction word generalizing text with
  | nil =>
    cases text with
    | nil => simp
    | cons code text => cases same
  | cons letter word ih =>
    cases text with
    | nil => simp
    | cons code text =>
      simp only [matchesWord, Bool.and_eq_true] at same
      intro other member
      rcases List.mem_cons.mp member with rfl | member
      · exact ⟨letter, List.mem_cons_self, same.1⟩
      · obtain ⟨found, there, matched⟩ := ih same.2 other member
        exact ⟨found, List.mem_cons_of_mem _ there, matched⟩

theorem matchesWord_not_space {word text : Codes} (letters : ∀ letter ∈ word, IsLetter letter)
    (same : matchesWord word text = true) : ∀ code ∈ text, isSpace code = false := by
  intro code member
  obtain ⟨letter, there, matched⟩ := matchesWord_letter same code member
  exact not_space_of_letter matched (letters letter there)

theorem afterBearer_iff {past : Codes} : afterBearer past = true ↔
    ∃ blank name more, past = blank ++ (name ++ more) ∧ blank ≠ [] ∧ (∀ c ∈ blank, isSpace c = true) ∧
      matchesWord bearerWord name.reverse = true := by
  constructor
  · intro after
    simp only [afterBearer, Bool.and_eq_true, Bool.not_eq_true', List.isEmpty_eq_false_iff] at after
    refine ⟨past.takeWhile isSpace, (past.dropWhile isSpace).take bearerWord.length,
      (past.dropWhile isSpace).drop bearerWord.length, ?_, after.1, ?_, after.2⟩
    · rw [List.take_append_drop, List.takeWhile_append_dropWhile]
    · intro c member
      exact List.mem_takeWhile_imp member
  · rintro ⟨blank, name, more, rfl, some_, spaces, same⟩
    have width := matchesWord_length same
    rw [List.length_reverse] at width
    have stops : ∀ c ∈ (name ++ more).head?, isSpace c = false := by
      intro c first
      rcases reversed : name with _ | ⟨d, name⟩
      · rw [reversed, bearerWord_eq] at width
        cases width
      · subst reversed
        cases first
        exact matchesWord_not_space bearer_letters same _ (by simp)
    have taken : (blank ++ (name ++ more)).takeWhile isSpace = blank := by
      have := @takeWhile_block _ id isSpace blank (name ++ more) spaces stops
      simpa using this
    have dropped : (blank ++ (name ++ more)).dropWhile isSpace = name ++ more := by
      have whole := List.takeWhile_append_dropWhile (p := isSpace) (l := blank ++ (name ++ more))
      rw [taken] at whole
      exact List.append_cancel_left whole
    rw [afterBearer, taken, dropped, endsWord, ← width, List.take_left, same]
    simpa using some_

theorem afterBearer_not_space {code : Nat} {past : Codes} (value : isSpace code = false) :
    afterBearer (code :: past) = false := by
  simp [afterBearer, value]

/-- A token behind what was kept would have been found where its word starts. -/
theorem not_after {front : Codes} (fresh : ∀ before here, front = before ++ here → here ≠ [] →
    bearerPattern (here ++ items.map key) = none) {x : α} {rest : List α} (split : items = x :: rest)
    (token : isTokenCode (key x) = true) : afterBearer front.reverse = false := by
  rcases after : afterBearer front.reverse with _ | _
  · rfl
  · obtain ⟨blank, name, more, cut, some_, spaces, same⟩ := afterBearer_iff.1 after
    have ends : front = more.reverse ++ (name.reverse ++ blank.reverse) := by
      rw [← List.reverse_reverse front, cut]
      simp
    have none := fresh _ _ ends (by simp [some_])
    obtain ⟨block, tail, found, tokens, stops⟩ := cut_while id isTokenCode (items.map key)
    have bearer : IsBearer id name.reverse blank.reverse block tail := by
      refine ⟨by rwa [List.map_id], ⟨by simpa using some_, by simpa using spaces⟩, ⟨?_, tokens⟩, stops⟩
      rintro rfl
      rw [List.nil_append] at found
      have := stops (key x) (by rw [← found, split]; rfl)
      rw [id, token] at this
      cases this
    have matched := bearerPattern_bearer bearer
    rw [List.map_id, ← found, none] at matched
    cases matched

/-- The substitution of tokens is such a walk from left to right. -/
theorem strip_eq (walk : Replaced bearerPattern key mark items out) {front : Codes}
    (fresh : ∀ before here, front = before ++ here → here ≠ [] → bearerPattern (here ++ items.map key) = none) :
    strip key mark front.reverse false items = out := by
  induction walk generalizing front with
  | nil => rfl
  | @plain x rest out none later ih =>
    have next := @ih (front ++ [key x]) fun before here split some_ => by
      rcases List.append_eq_append_iff.mp split with ⟨between, rfl, last⟩ | ⟨between, rfl, last⟩
      · rcases between with _ | ⟨y, between⟩
        · rw [List.nil_append] at last
          rw [← last]
          exact none
        · obtain ⟨rfl, ended⟩ := List.cons.inj last
          rw [List.append_eq_nil_iff.mp ended.symm |>.2] at some_
          exact absurd rfl some_
      · rw [last, List.append_assoc]
        by_cases empty : between = []
        · rw [empty]
          exact none
        · exact fresh before between rfl empty
    rw [List.reverse_append, List.reverse_singleton, List.singleton_append] at next
    rw [strip_kept fun token => not_after fresh rfl token, next]
  | @hit kept dropped rest out found later ih =>
    obtain ⟨name, blank, token, after, split, bearer, sizes⟩ := bearerPattern_some found
    simp only [Span.mk.injEq] at sizes
    obtain ⟨rfl, others⟩ := List.append_inj split sizes.1
    obtain ⟨rfl, rfl⟩ := List.append_inj others (by omega)
    obtain ⟨x, more, rfl⟩ := List.exists_cons_of_ne_nil bearer.token.1
    have fresh_ := @ih [] fun before here split some_ => by
      rw [List.append_eq_nil_iff.mp split.symm |>.2] at some_
      exact absurd rfl some_
    rw [strip_front]
    · have last : afterBearer (((name ++ blank).map key).reverse ++ front.reverse) = true := by
        apply afterBearer_iff.2
        refine ⟨(blank.map key).reverse, (name.map key).reverse, front.reverse, by simp, by simp [bearer.blank.1], ?_, ?_⟩
        · simpa using bearer.blank.2
        · rw [List.reverse_reverse]
          exact bearer.name
      rw [List.cons_append, strip_token (bearer.token.2 x List.mem_cons_self) last,
        strip_dropped fun y member => bearer.token.2 y (List.mem_cons_of_mem _ member), strip_fresh bearer.ends]
      rw [List.reverse_nil] at fresh_
      rw [fresh_]
    · intro before y behind split token
      rcases before with _ | ⟨z, before⟩
      · refine @not_after _ _ _ _ fresh y (behind ++ (x :: more ++ rest)) ?_ token
        rw [split]
        rfl
      · rcases List.append_eq_append_iff.mp split with ⟨between, cut, inside⟩ | ⟨between, cut, -⟩
        · have space := bearer.blank.2 y (by rw [inside]; simp)
          rw [not_space_of_token token] at space
          cases space
        · have last : ∃ before_ w, z :: before = before_ ++ [w] :=
            ⟨_, _, (List.dropLast_append_getLast (List.cons_ne_nil z before)).symm⟩
          obtain ⟨before_, w, ends⟩ := last
          rw [ends, List.map_append, List.reverse_append, List.map_singleton, List.reverse_singleton,
            List.append_assoc, List.singleton_append]
          apply afterBearer_not_space
          have inside : key w ∈ name.map key := List.mem_map_of_mem (by rw [cut, ends]; simp)
          exact matchesWord_not_space bearer_letters bearer.name _ inside

end strip

end Sippycup.Mcp

namespace Sippycup.Mcp
open Sippycup.Ip Sippycup.Python Sippycup.Python.Text

section agreement
variable {hot prev : Bool} {code : Nat} {out labelled : List (Nat × Bool)}

/-- The output hides the labelled codes exactly when the outline separates its
secret pieces, and then it is the outline filled with marks. -/
def Agrees (hot prev : Bool) (out labelled : List (Nat × Bool)) : Prop :=
  ((∀ x ∈ out, x.2 = false) ↔ separated hot (outline prev labelled) = true) ∧
    (separated hot (outline prev labelled) = true → out.map Prod.fst = fill (outline prev labelled))

theorem agrees_nil : Agrees hot prev [] [] := ⟨by simp [outline, separated], fun _ => rfl⟩

theorem agrees_shown (later : Agrees (hot && isSpace code) false out labelled) :
    Agrees hot prev ((code, false) :: out) ((code, false) :: labelled) := by
  obtain ⟨hidden, filled⟩ := later
  simp only [Agrees, outline, separated, fill, List.map_cons, List.forall_mem_cons, true_and]
  exact ⟨hidden, fun apart => by rw [filled apart]⟩

theorem agrees_within (later : Agrees hot true out labelled) : Agrees hot true out ((code, true) :: labelled) := later

theorem labelledMark_fst : labelledMark.map Prod.fst = redactedMark := by
  rw [labelledMark, List.map_map]
  exact List.map_id _

theorem agrees_mark (later : Agrees true true out labelled) :
    Agrees false false (labelledMark ++ out) ((code, true) :: labelled) := by
  obtain ⟨hidden, filled⟩ := later
  constructor
  · have marks : ∀ x ∈ labelledMark, x.2 = false := by simp [labelledMark]
    simp only [outline, separated, Bool.not_false, Bool.true_and, List.forall_mem_append, Bool.false_eq_true, if_false]
    rw [← hidden]
    exact ⟨fun both => both.2, fun rest => ⟨marks, rest⟩⟩
  · intro apart
    simp only [outline, separated, Bool.not_false, Bool.true_and, Bool.false_eq_true, if_false] at apart ⊢
    rw [List.map_append, labelledMark_fst, filled apart, fill]

/-- A secret code that is kept leaves two secret pieces with white space between them. -/
theorem agrees_kept : Agrees true false ((code, true) :: out) ((code, true) :: labelled) := by
  simp [Agrees, outline, separated]

end agreement

section standing
variable {front older recent past seen : Codes} {code : Nat}

/-- Of what was kept, nothing is part of a token. -/
def Shown (older front : Codes) : Prop :=
  ∀ newer x behind, front = newer ++ x :: behind → inToken (behind ++ older) x = false

theorem shown_nil : Shown older [] := by
  intro newer x behind split
  simp at split

theorem Shown.cons (shown : Shown older front) (plain : inToken (front ++ older) code = false) :
    Shown older (code :: front) := by
  intro newer x behind split
  rcases newer with _ | ⟨y, newer⟩
  · obtain ⟨rfl, rfl⟩ := List.cons.inj split
    exact plain
  · exact shown newer x behind (List.cons.inj split).2

theorem inToken_not_token (plain : isTokenCode code = false) : inToken seen code = false := by
  rw [inToken, plain, Bool.false_and]

theorem inToken_run {x : Nat} (token : isTokenCode code = true) (run : isTokenCode x = true) :
    inToken (x :: seen) code = inToken seen x := by
  rw [inToken, inToken, token, run, List.dropWhile_cons_of_pos run]

theorem inToken_first (token : isTokenCode code = true) (ends : ∀ x ∈ seen.head?, isTokenCode x = false) :
    inToken seen code = afterBearer seen := by
  rw [inToken, token, Bool.true_and]
  cases seen with
  | nil => rfl
  | cons x seen => rw [List.dropWhile_cons_of_neg (by rw [ends x rfl]; exact Bool.false_ne_true)]

theorem bearer_letter_token {letter c : Nat} (there : letter ∈ bearerWord) (same : matchesLetter letter c = true) :
    isTokenCode c = true := by
  have small := bearer_letters letter there
  rw [bearerWord_eq] at there
  simp only [List.mem_cons, List.not_mem_nil, or_false] at there
  simp only [matchesLetter, Bool.or_eq_true, Bool.and_eq_true, decide_eq_true_eq, List.contains_iff_mem,
    List.mem_cons, List.not_mem_nil, or_false] at same
  simp only [isTokenCode, Bool.or_eq_true, decide_eq_true_eq, List.contains_iff_mem, List.mem_cons,
    List.not_mem_nil, or_false]
  omega

/-- What stands before a code that no token holds matters only across white space. -/
theorem afterBearer_barrier (barrier : isTokenCode code = false)
    (value : ¬ ∀ c ∈ front ++ [code], isSpace c = true) :
    afterBearer (front ++ code :: older) = afterBearer (front ++ [code]) := by
  rw [Bool.eq_iff_iff, afterBearer_iff, afterBearer_iff]
  have word : ∀ {name : Codes}, matchesWord bearerWord name.reverse = true → code ∉ name := by
    intro name same member
    obtain ⟨letter, there, matched⟩ := matchesWord_letter same code (List.mem_reverse.mpr member)
    rw [bearer_letter_token there matched] at barrier
    cases barrier
  constructor
  · rintro ⟨blank, name, more, cut, some_, spaces, same⟩
    have absent := word same
    have kept : ∀ behind, front = blank ++ name ++ behind → ∃ blank_ name_ more_,
        front ++ [code] = blank_ ++ (name_ ++ more_) ∧ blank_ ≠ [] ∧ (∀ c ∈ blank_, isSpace c = true) ∧
          matchesWord bearerWord name_.reverse = true := by
      intro behind split
      exact ⟨blank, name, behind ++ [code], by rw [split]; simp, some_, spaces, same⟩
    rw [← List.append_assoc] at cut
    rcases List.append_eq_append_iff.mp cut with ⟨between, whole, behind⟩ | ⟨between, split, -⟩
    · rcases between with _ | ⟨c, between⟩
      · exact kept [] (by rw [whole]; simp)
      · -- the word or the white space would reach the code that no token holds
        obtain ⟨rfl, -⟩ := List.cons.inj behind
        rcases List.append_eq_append_iff.mp whole with ⟨last, -, reach⟩ | ⟨last, reach, inside⟩
        · exact absurd (by rw [reach]; simp) absent
        · rcases last with _ | ⟨d, last⟩
          · rw [List.nil_append] at inside
            exact absurd (by rw [← inside]; simp) absent
          · obtain ⟨rfl, -⟩ := List.cons.inj inside
            refine absurd ?_ value
            intro c member
            apply spaces
            rw [reach]
            simp only [List.mem_append, List.mem_cons, List.not_mem_nil, or_false] at member ⊢
            rcases member with member | member
            · exact .inl member
            · exact .inr (.inl member)
    · exact kept between split
  · rintro ⟨blank, name, more, cut, some_, spaces, same⟩
    refine ⟨blank, name, more ++ older, ?_, some_, spaces, same⟩
    rw [show front ++ code :: older = (front ++ [code]) ++ older by simp, cut]
    simp

/-- Where the walk stands: what it has seen, what it keeps of it since the last
secret piece, whether it drops a token, and what the outline ends with. -/
inductive Standing : Codes → Codes → Bool → Bool → Bool → Prop
  | start {past : Codes} (shown : Shown [] past) : Standing past past false false false
  | dropping {x : Nat} {seen : Codes} (token : isTokenCode x = true) (within : inToken seen x = true) :
      Standing (x :: seen) [] true true true
  | after {recent older : Codes} {code : Nat} (barrier : isTokenCode code = false)
      (shown : Shown older (recent ++ [code])) :
      Standing (recent ++ code :: older) (recent ++ [code]) false ((recent ++ [code]).all isSpace) false

variable {hot prev dropping : Bool} {rest labelled : List (Nat × Bool)}

/-- The walk goes past a code that is not secret. -/
theorem Standing.kept (standing : Standing seen past dropping hot prev) (plain : inToken seen code = false)
    (stops : dropping = true → isTokenCode code = false) :
    Standing (code :: seen) (code :: past) false (hot && isSpace code) false := by
  cases standing with
  | start shown =>
    rw [Bool.false_and]
    apply Standing.start
    apply shown.cons
    rwa [List.append_nil]
  | @dropping x seen token within =>
    have here : Standing ([] ++ code :: x :: seen) ([] ++ [code]) false (([] ++ [code]).all isSpace) false :=
      Standing.after (stops rfl) (shown_nil.cons plain)
    simpa using here
  | @after recent older c barrier shown =>
    rw [Bool.and_comm]
    have here : Standing ((code :: recent) ++ c :: older) ((code :: recent) ++ [c]) false
        (((code :: recent) ++ [c]).all isSpace) false := by
      apply Standing.after barrier
      apply shown.cons
      rwa [List.append_assoc]
    exact here

/-- Where the code before is no part of a token, a token starts behind the word
bearer only, and the walk knows it. -/
theorem Standing.first (standing : Standing seen past false hot prev) (value : hot = false) :
    afterBearer seen = afterBearer past := by
  cases standing with
  | start shown => rfl
  | after barrier shown =>
    apply afterBearer_barrier barrier
    intro spaces
    rw [List.all_eq_true.mpr spaces] at value
    cases value

theorem Standing.run (standing : Standing seen past false hot prev) {x : Nat} {behind : Codes}
    (split : past = x :: behind) (token : isTokenCode x = true) :
    ∃ more, seen = x :: more ∧ inToken more x = false := by
  cases standing with
  | start shown =>
    have plain := shown [] x behind split
    rw [List.append_nil] at plain
    exact ⟨behind, split, plain⟩
  | @after recent older c barrier shown =>
    rcases recent with _ | ⟨y, recent⟩
    · obtain ⟨rfl, -⟩ := List.cons.inj split
      rw [token] at barrier
      cases barrier
    · obtain ⟨rfl, -⟩ := List.cons.inj split
      have plain := shown [] y (recent ++ [c]) rfl
      rw [List.append_assoc] at plain
      exact ⟨recent ++ c :: older, rfl, plain⟩

theorem Standing.head (standing : Standing seen past false hot prev) : seen.head? = past.head? ∧ prev = false := by
  cases standing with
  | start shown => exact ⟨rfl, rfl⟩
  | @after recent older c barrier shown => cases recent <;> exact ⟨rfl, rfl⟩

/-- Behind a secret piece and white space the walk has no word to go by. -/
theorem Standing.warm (standing : Standing seen past false true prev) : afterBearer past = false := by
  generalize hot_ : true = hot at standing
  generalize open_ : false = dropping at standing
  cases standing with
  | start shown => cases hot_
  | dropping token within => cases open_
  | @after recent older c barrier shown =>
    have spaces := List.all_eq_true.mp hot_.symm
    rcases after : afterBearer (recent ++ [c]) with _ | _
    · rfl
    · obtain ⟨blank, name, more, split, -, -, same⟩ := afterBearer_iff.1 after
      have some_ := matchesWord_length same
      rw [bearerWord_eq] at some_
      obtain ⟨x, rest, rfl⟩ := List.exists_cons_of_length_pos (l := name) (by
        rw [List.length_reverse] at some_
        rw [some_]
        exact Nat.succ_pos 5)
      have here := spaces x (by rw [split]; simp)
      rw [matchesWord_not_space bearer_letters same x (by simp)] at here
      cases here

/-- One code of the text, as the label and the walk see it. -/
theorem Standing.step (standing : Standing seen past dropping hot prev)
    (next : ∀ past dropping hot prev, Standing (code :: seen) past dropping hot prev →
      Agrees hot prev (strip Prod.fst labelledMark past dropping rest) labelled) :
    Agrees hot prev (strip Prod.fst labelledMark past dropping ((code, inToken seen code) :: rest))
      ((code, inToken seen code) :: labelled) := by
  by_cases token : isTokenCode code = true
  · cases dropping with
    | true =>
      cases standing with
      | dropping run within =>
        rw [inToken_run token run, within, strip, Bool.true_and, if_pos token]
        apply agrees_within
        apply next
        apply Standing.dropping token
        rw [inToken_run token run, within]
    | false =>
      have shown : inToken seen code = false → afterBearer past = false →
          Agrees hot prev (strip Prod.fst labelledMark past false ((code, inToken seen code) :: rest))
            ((code, inToken seen code) :: labelled) := by
        intro plain quiet
        rw [plain, strip_kept fun _ => quiet]
        apply agrees_shown
        apply next
        apply standing.kept plain
        intro impossible
        cases impossible
      by_cases run : ∃ x behind, past = x :: behind ∧ isTokenCode x = true
      · obtain ⟨x, behind, split, run⟩ := run
        obtain ⟨more, rfl, plain⟩ := standing.run split run
        apply shown
        · rw [inToken_run token run, plain]
        · rw [split]
          exact afterBearer_not_space (not_space_of_token run)
      · obtain ⟨heads, rfl⟩ := standing.head
        have first : inToken seen code = afterBearer seen := by
          apply inToken_first token
          intro x head
          by_contra run_
          rw [heads] at head
          rcases past with _ | ⟨y, behind⟩
          · cases head
          · cases head
            exact run ⟨_, behind, rfl, eq_true_of_ne_false run_⟩
        cases hot with
        | true =>
          rcases after : afterBearer seen with _ | _
          · exact shown (first.trans after) standing.warm
          · rw [first, after, strip_kept fun _ => standing.warm]
            exact agrees_kept
        | false =>
          have same := standing.first rfl
          rcases after : afterBearer past with _ | _
          · exact shown (by rw [first, same, after]) after
          · rw [first, same, after, strip_token token after]
            apply agrees_mark
            apply next
            apply Standing.dropping token
            rw [first, same, after]
  · have plain := eq_false_of_ne_true token
    rw [inToken_not_token plain]
    have kept : strip Prod.fst labelledMark past dropping ((code, false) :: rest) =
        (code, false) :: strip Prod.fst labelledMark (code :: past) false rest := by
      rw [strip, plain, Bool.and_false, Bool.false_and]
      rfl
    rw [kept]
    apply agrees_shown
    apply next
    exact standing.kept (inToken_not_token plain) fun _ => plain

/-- The labels of codes that stand outside of header values. -/
@[grind =] def tokens : Codes → Codes → List (Nat × Bool)
  | _, [] => []
  | seen, code :: rest => (code, inToken seen code) :: tokens (code :: seen) rest

theorem Standing.block {front : Codes} (standing : Standing seen past dropping hot prev)
    (next : ∀ past dropping hot prev, Standing (front.reverse ++ seen) past dropping hot prev →
      Agrees hot prev (strip Prod.fst labelledMark past dropping rest) labelled) :
    Agrees hot prev (strip Prod.fst labelledMark past dropping (tokens seen front ++ rest))
      (tokens seen front ++ labelled) := by
  induction front generalizing seen past dropping hot prev with
  | nil => exact next _ _ _ _ standing
  | cons code front ih =>
    apply standing.step
    intro past dropping hot prev standing
    apply ih standing
    intro past dropping hot prev standing
    apply next
    rwa [List.reverse_cons, List.append_assoc]

end standing

section labels
variable {keep drop : Nat} {seen front text : Codes}

theorem label_fst : ∀ (text : Codes) (keep drop : Nat) (seen : Codes),
    (label keep drop seen text).map Prod.fst = text
  | [], keep, drop, seen => by
    cases keep <;> cases drop <;> rfl
  | code :: rest, keep + 1, drop, seen => by rw [label, List.map_cons, label_fst rest]
  | code :: rest, 0, drop + 1, seen => by rw [label, List.map_cons, label_fst rest]
  | code :: rest, 0, 0, seen => by
    rw [label]
    split
    · rw [List.map_cons, label_fst rest]
    · rw [List.map_cons, label_fst rest]

theorem label_keep : label (front.length + keep) drop seen (front ++ text) =
    tokens seen front ++ label keep drop (front.reverse ++ seen) text := by
  induction front generalizing seen with
  | nil =>
    rw [List.length_nil, Nat.zero_add]
    rfl
  | cons code front ih =>
    rw [List.length_cons, show front.length + 1 + keep = front.length + keep + 1 by omega, List.cons_append, label, ih,
      List.reverse_cons, List.append_assoc]
    rfl

theorem label_drop : label 0 (front.length + drop) seen (front ++ text) =
    front.map (fun code => (code, true)) ++ label 0 drop (front.reverse ++ seen) text := by
  induction front generalizing seen with
  | nil =>
    rw [List.length_nil, Nat.zero_add]
    rfl
  | cons code front ih =>
    rw [List.length_cons, show front.length + 1 + drop = front.length + drop + 1 by omega, List.cons_append, label, ih,
      List.reverse_cons, List.append_assoc]
    rfl

theorem label_plain {code : Nat} (none : headerPattern authorizationWord (code :: text) = none) :
    label 0 0 seen (code :: text) = (code, inToken seen code) :: label 0 0 (code :: seen) text := by
  rw [label, none]

theorem label_header {value rest : Codes} (some_ : front ≠ [])
    (found : headerPattern authorizationWord (front ++ (value ++ rest)) =
      some ⟨front.length, front.length + value.length⟩) :
    label 0 0 seen (front ++ (value ++ rest)) =
      tokens seen front ++ (value.map (fun code => (code, true)) ++
        label 0 0 (value.reverse ++ (front.reverse ++ seen)) rest) := by
  obtain ⟨code, more, rfl⟩ := List.exists_cons_of_ne_nil some_
  have kept := @label_keep 0 value.length (code :: seen) more (value ++ rest)
  have dropped := @label_drop 0 (more.reverse ++ code :: seen) value rest
  rw [Nat.add_zero] at kept dropped
  rw [List.cons_append] at found ⊢
  rw [label, found]
  dsimp only
  rw [List.length_cons, Nat.add_sub_cancel, Nat.add_sub_cancel_left, kept, dropped, List.reverse_cons, List.append_assoc]
  rfl

theorem tokens_length : ∀ (text seen : Codes), (tokens seen text).length = text.length
  | [], _ => rfl
  | code :: rest, seen => by rw [tokens, List.length_cons, tokens_length rest, List.length_cons]

theorem tokens_append {more : Codes} :
    tokens seen (front ++ more) = tokens seen front ++ tokens (front.reverse ++ seen) more := by
  induction front generalizing seen with
  | nil => rfl
  | cons code front ih =>
    rw [List.cons_append, tokens, ih, List.reverse_cons, List.append_assoc]
    rfl

end labels

end Sippycup.Mcp

/-! One walk over a text: header values first, then tokens. -/
namespace Sippycup.Mcp
open Sippycup.Ip Sippycup.Python Sippycup.Python.Text

section walk
variable {front older past seen : Codes} {code : Nat} {hot prev dropping : Bool}
variable {rest labelled out : List (Nat × Bool)}

/-- A code that is in no token and no white space is a wall before the words behind it. -/
theorem afterBearer_wall (barrier : isTokenCode code = false) (value : isSpace code = false) :
    afterBearer (front ++ code :: older) = afterBearer front := by
  rw [Bool.eq_iff_iff, afterBearer_iff, afterBearer_iff]
  constructor
  · rintro ⟨blank, name, more, cut, some_, spaces, same⟩
    have absent : code ∉ blank ++ name := by
      intro member
      rcases List.mem_append.mp member with member | member
      · rw [spaces code member] at value
        cases value
      · obtain ⟨letter, there, matched⟩ := matchesWord_letter same code (List.mem_reverse.mpr member)
        rw [bearer_letter_token there matched] at barrier
        cases barrier
    rw [← List.append_assoc] at cut
    rcases List.append_eq_append_iff.mp cut with ⟨between, whole, behind⟩ | ⟨between, split, -⟩
    · rcases between with _ | ⟨c, between⟩
      · exact ⟨blank, name, [], by rw [List.append_nil, whole, List.append_nil], some_, spaces, same⟩
      · obtain ⟨rfl, -⟩ := List.cons.inj behind
        exact absurd (by rw [whole]; simp) absent
    · exact ⟨blank, name, between, by rw [split, List.append_assoc], some_, spaces, same⟩
  · rintro ⟨blank, name, more, rfl, some_, spaces, same⟩
    exact ⟨blank, name, more ++ code :: older, by simp, some_, spaces, same⟩

theorem strip_wall (barrier : isTokenCode code = false) (value : isSpace code = false) :
    strip Prod.fst labelledMark (front ++ code :: older) false rest = strip Prod.fst labelledMark front false rest := by
  induction rest generalizing front with
  | nil => rfl
  | cons x rest ih =>
    rw [strip, strip, afterBearer_wall barrier value, ← @ih (x.1 :: front)]
    rfl

theorem Standing.settled (standing : Standing (code :: seen) past dropping hot prev)
    (barrier : isTokenCode code = false) (value : isSpace code = false) :
    dropping = false ∧ hot = false ∧ prev = false := by
  generalize whole : code :: seen = all at standing
  cases standing with
  | start shown => exact ⟨rfl, rfl, rfl⟩
  | dropping token within =>
    obtain ⟨rfl, -⟩ := List.cons.inj whole
    rw [token] at barrier
    cases barrier
  | @after recent older c barrier_ shown =>
    refine ⟨rfl, ?_, rfl⟩
    rcases recent with _ | ⟨x, recent⟩
    · obtain ⟨rfl, -⟩ := List.cons.inj whole
      simp [value]
    · obtain ⟨rfl, -⟩ := List.cons.inj whole
      simp [value]

theorem not_token_of_space (space : isSpace code = true) : isTokenCode code = false := by
  by_contra token
  rw [not_space_of_token (eq_true_of_ne_false token)] at space
  cases space

theorem Standing.blank (standing : Standing seen past false false false) (spaces : ∀ c ∈ front, isSpace c = true)
    (next : ∀ past, Standing (front.reverse ++ seen) past false false false →
      Agrees false false (strip Prod.fst labelledMark past false rest) labelled) :
    Agrees false false (strip Prod.fst labelledMark past false (tokens seen front ++ rest))
      (tokens seen front ++ labelled) := by
  induction front generalizing seen past with
  | nil => exact next past standing
  | cons code front ih =>
    have space := not_token_of_space (spaces code List.mem_cons_self)
    have plain : inToken seen code = false := inToken_not_token space
    rw [tokens, plain, List.cons_append, List.cons_append, strip_kept fun token => by rw [space] at token; cases token]
    apply agrees_shown
    rw [Bool.false_and]
    apply ih
    · have kept := standing.kept plain fun impossible => by cases impossible
      rwa [Bool.false_and] at kept
    · intro c member
      exact spaces c (List.mem_cons_of_mem _ member)
    · intro past standing
      apply next
      rwa [List.reverse_cons, List.append_assoc]

theorem agrees_value {value : Codes} (some_ : value ≠ []) (later : Agrees true true out labelled) :
    Agrees false false (labelledMark ++ out) (value.map (fun code => (code, true)) ++ labelled) := by
  obtain ⟨code, more, rfl⟩ := List.exists_cons_of_ne_nil some_
  apply agrees_mark
  induction more with
  | nil => exact later
  | cons c more ih =>
    apply agrees_within
    apply ih
    exact List.cons_ne_nil _ _

theorem redactedMark_codes : ∀ c ∈ redactedMark, isSpace c = false := by
  rw [redactedMark_eq]
  decide

theorem strip_mark : strip Prod.fst labelledMark past false (labelledMark ++ rest) =
    labelledMark ++ strip Prod.fst labelledMark (redactedMark.reverse ++ past) false rest := by
  rw [strip_front, labelledMark_fst]
  intro before x behind split token
  have codes : redactedMark = before.map Prod.fst ++ x.1 :: behind.map Prod.fst := by
    rw [← labelledMark_fst, split, List.map_append, List.map_cons]
  rcases last : (before.map Prod.fst).reverse with _ | ⟨c, others⟩
  · rw [List.reverse_eq_nil_iff] at last
    rw [last, List.nil_append, redactedMark_eq] at codes
    rw [← (List.cons.inj codes).1] at token
    cases token
  · apply afterBearer_not_space
    apply redactedMark_codes
    rw [codes, List.mem_append, ← List.mem_reverse, last]
    exact .inl List.mem_cons_self

end walk

theorem authorizationWord_colon {name : Codes} (same : matchesWord authorizationWord name = true) :
    ∃ before, name = before ++ [58] := by
  have width := matchesWord_length same
  rcases List.eq_nil_or_concat name with rfl | ⟨before, code, rfl⟩
  · rw [authorizationWord_eq] at width
    cases width
  · rw [List.concat_eq_append] at same width ⊢
    rw [authorizationWord_eq, List.length_append, List.length_singleton] at width
    have word : authorizationWord = authorizationWord.take 13 ++ [58] := by
      rw [authorizationWord_eq]
      rfl
    rw [word] at same
    have colon := (matchesWord_append (by
      rw [authorizationWord_eq]
      simpa using width) same).2
    have here : code = 58 := by
      simpa [matchesWord, matchesLetter] using colon
    exact ⟨before, by rw [here]⟩

/-- The walk of both substitutions over a text agrees with its label. -/
theorem standing_agrees (text : Codes) {seen past : Codes} {dropping hot prev : Bool}
    (standing : Standing seen past dropping hot prev) :
    Agrees hot prev (strip Prod.fst labelledMark past dropping
      (substitute (headerPattern authorizationWord) Prod.fst labelledMark 0 (label 0 0 seen text)))
      (label 0 0 seen text) := by
  obtain ⟨size, bound⟩ : ∃ n, text.length ≤ n := ⟨_, Nat.le_refl _⟩
  induction size generalizing text seen past dropping hot prev with
  | zero =>
    rw [List.length_eq_zero_iff.mp (Nat.le_zero.mp bound)]
    exact agrees_nil
  | succ size ih =>
    rcases text with _ | ⟨code, text⟩
    · exact agrees_nil
    have plain : ∀ {code : Nat} {text seen : Codes}, headerPattern authorizationWord (code :: text) = none →
        substitute (headerPattern authorizationWord) Prod.fst labelledMark 0 (label 0 0 seen (code :: text)) =
          (code, inToken seen code) ::
            substitute (headerPattern authorizationWord) Prod.fst labelledMark 0 (label 0 0 (code :: seen) text) := by
      intro code text seen none
      rw [label_plain none, substitute_plain]
      rwa [List.map_cons, label_fst]
    rcases found : headerPattern authorizationWord (code :: text) with _ | span
    · rw [plain found, label_plain found]
      apply standing.step
      intro past dropping hot prev standing
      exact ih text standing (Nat.le_of_succ_le_succ bound)
    · rw [← List.map_id (code :: text)] at found
      obtain ⟨name, blank, value, rest, split, header, rfl⟩ := headerPattern_some found
      rw [List.map_id, split] at found
      rw [split] at bound ⊢
      have name_ := header.name
      rw [List.map_id] at name_
      obtain ⟨before, rfl⟩ := authorizationWord_colon name_
      have opened : before ++ [58] ++ blank ≠ [] := by simp
      have labels := @label_header seen (before ++ [58] ++ blank) value rest opened found
      have marked : substitute (headerPattern authorizationWord) Prod.fst labelledMark 0
          (label 0 0 seen ((before ++ [58] ++ blank) ++ (value ++ rest))) =
            tokens seen (before ++ [58] ++ blank) ++ (labelledMark ++
              substitute (headerPattern authorizationWord) Prod.fst labelledMark 0
                (label 0 0 (value.reverse ++ ((before ++ [58] ++ blank).reverse ++ seen)) rest)) := by
        have keys := label_fst ((before ++ [58] ++ blank) ++ (value ++ rest)) 0 0 seen
        rw [labels] at keys ⊢
        apply substitute_hit headerPattern_sound
        rw [keys, found, tokens_length, List.length_map]
      rw [marked, labels]
      generalize value.reverse ++ ((before ++ [58] ++ blank).reverse ++ seen) = far
      rw [tokens_append, List.append_assoc (tokens seen (before ++ [58])),
        List.append_assoc (tokens seen (before ++ [58]))]
      apply standing.block
      intro past dropping hot prev standing
      rw [List.reverse_append, List.reverse_singleton, List.singleton_append, List.cons_append] at standing ⊢
      obtain ⟨rfl, rfl, rfl⟩ := standing.settled (by decide) (by decide)
      apply standing.blank (by simpa using header.blank)
      intro past standing
      rw [strip_mark]
      apply agrees_value header.some_
      -- the line ends here, and no word reaches over the mark
      rcases header.ends with rfl | ⟨newline, more, rfl, ends⟩
      · exact agrees_nil
      · have space := isSpace_of_isNewline ends
        rw [id] at space
        have token := not_token_of_space space
        have unlabelled : inToken far newline = false := inToken_not_token token
        have none : headerPattern authorizationWord (newline :: more) = none :=
          headerPattern_absent (not_starts_space authorizationWord_ne authorization_letters space)
        have fresh : Standing ([] ++ newline :: far) ([] ++ [newline]) false (([] ++ [newline]).all isSpace) false :=
          Standing.after token (shown_nil.cons unlabelled)
        have quiet : ∀ past : Codes, isTokenCode newline = true → afterBearer past = false := by
          intro past held
          rw [token] at held
          cases held
        have walls : strip Prod.fst labelledMark (newline :: (redactedMark.reverse ++ past)) false
            (substitute (headerPattern authorizationWord) Prod.fst labelledMark 0 (label 0 0 (newline :: far) more)) =
              strip Prod.fst labelledMark [newline] false
                (substitute (headerPattern authorizationWord) Prod.fst labelledMark 0
                  (label 0 0 (newline :: far) more)) := by
          rw [redactedMark_eq]
          exact @strip_wall [newline] _ 62 _ (by decide) (by decide)
        rw [plain none, label_plain none, unlabelled, strip_kept (quiet _), walls]
        apply agrees_shown
        have short : more.length ≤ size := by
          simp only [List.length_append, List.length_cons] at bound
          omega
        have later := ih more fresh short
        simpa using later

/-- Redaction hides the secret codes of a text exactly when white space alone
never separates two secret pieces, and then it fills the outline. -/
theorem text_agrees (text : Text) : Agrees false false
    (redactItems Prod.fst labelledMark (label 0 0 [] text.codes)) (label 0 0 [] text.codes) := by
  have walk : Replaced bearerPattern Prod.fst labelledMark _ _ := replaced bearerPattern_sound
    (substitute (headerPattern authorizationWord) Prod.fst labelledMark 0 (label 0 0 [] text.codes))
  have walked := @strip_eq _ _ _ _ _ walk [] fun before here split some_ => by
    rw [List.append_eq_nil_iff.mp split.symm |>.2] at some_
    exact absurd rfl some_
  rw [redactItems_eq labelledMark_fst, ← walked]
  exact standing_agrees text.codes (Standing.start shown_nil)

theorem redactItems_map {α β : Type} {key : α → Nat} {keyOf : β → Nat} {f : α → β}
    (same : ∀ x, keyOf (f x) = key x) (mark items : List α) :
    (redactItems key mark items).map f = redactItems keyOf (mark.map f) (items.map f) := by
  simp only [redactItems, secretText, List.foldl_cons, List.foldl_nil, substitute_map same]

theorem redactText_fst (text : Text) :
    (redactItems Prod.fst labelledMark (label 0 0 [] text.codes)).map Prod.fst = (redactText text).codes := by
  have mapped := redactItems_map (fun item : Nat × Bool => (rfl : id item.1 = item.1)) labelledMark
    (label 0 0 [] text.codes)
  rw [labelledMark_fst, label_fst] at mapped
  exact mapped

theorem hiddenText_iff (text : Text) : HiddenText text ↔ separated false (outlineText text) = true :=
  (text_agrees text).1

theorem redactText_fill {text : Text} (apart : separated false (outlineText text) = true) :
    redactText text = ⟨fill (outlineText text)⟩ := by
  have filled := (text_agrees text).2 apart
  rw [redactText_fst] at filled
  exact congrArg Text.mk filled

mutual
/-- What redaction makes of a document depends on its outline alone. -/
theorem redact_outline : ∀ value other : JsonValue,
    (∀ text ∈ exposedTexts value, separated false (outlineText text) = true) →
      outlineValue other = outlineValue value → redact other = redact value
  | .null, other, _, same | .bool _, other, _, same | .int _, other, _, same | .float _, other, _, same => by
    cases other <;> simp_all [outlineValue]
  | .str text, other, apart, same => by
    cases other with
    | str text_ =>
      simp only [outlineValue, Outline.text.injEq] at same
      have here := apart text (by simp [exposedTexts])
      rw [redact, redact, redactText_fill here, redactText_fill (by rwa [same]), same]
    | _ => simp [outlineValue] at same
  | .list items, other, apart, same => by
    cases other with
    | list items_ =>
      simp only [outlineValue, Outline.list.injEq] at same
      rw [redact, redact, redactList_outline items items_ apart same]
    | _ => simp [outlineValue] at same
  | .dict entries, other, apart, same => by
    cases other with
    | dict entries_ =>
      simp only [outlineValue, Outline.dict.injEq] at same
      rw [redact, redact, redactEntries_outline entries entries_ apart same]
    | _ => simp [outlineValue] at same

theorem redactList_outline : ∀ items other : List JsonValue,
    (∀ text ∈ exposedItems items, separated false (outlineText text) = true) →
      outlineList other = outlineList items → redactList other = redactList items
  | [], other, _, same => by
    cases other with
    | nil => rfl
    | cons _ _ => simp [outlineList] at same
  | item :: rest, other, apart, same => by
    cases other with
    | nil => simp [outlineList] at same
    | cons item_ rest_ =>
      simp only [outlineList, List.cons.injEq] at same
      simp only [exposedItems, List.forall_mem_append] at apart
      rw [redactList, redactList, redact_outline item item_ apart.1 same.1,
        redactList_outline rest rest_ apart.2 same.2]

theorem redactEntries_outline : ∀ entries other : List (Text × JsonValue),
    (∀ text ∈ exposedEntries entries, separated false (outlineText text) = true) →
      outlineEntries other = outlineEntries entries → redactEntries other = redactEntries entries
  | [], other, _, same => by
    cases other with
    | nil => rfl
    | cons _ _ => simp [outlineEntries] at same
  | (key, value) :: rest, other, apart, same => by
    cases other with
    | nil => simp [outlineEntries] at same
    | cons entry rest_ =>
      obtain ⟨key_, value_⟩ := entry
      simp only [outlineEntries, List.cons.injEq, Prod.mk.injEq] at same
      obtain ⟨⟨rfl, here⟩, later⟩ := same
      simp only [exposedEntries, List.forall_mem_append] at apart
      rw [redactEntries, redactEntries, redactEntries_outline rest rest_ apart.2 later]
      by_cases secret : isSecretKey key_ = true
      · rw [if_pos secret, if_pos secret]
      · rw [if_neg secret, if_neg secret] at here
        have exposed := apart.1
        rw [if_neg secret] at exposed
        rw [if_neg secret, if_neg secret, redact_outline value value_ exposed here]
end

/-- Redaction gives one result for all documents that differ in secret material
alone, leaves no secret code of an exposed text, and does nothing when repeated,
exactly when in every exposed text no secret piece is followed by white space
alone and another secret piece. -/
theorem redact_hides_iff (value : JsonValue) :
    ((∀ other, outlineValue other = outlineValue value → redact other = redact value) ∧
      (∀ text ∈ exposedTexts value, HiddenText text) ∧ redact (redact value) = redact value) ↔
        ∀ text ∈ exposedTexts value, separated false (outlineText text) = true := by
  constructor
  · rintro ⟨-, hidden, -⟩ text member
    exact (hiddenText_iff text).mp (hidden text member)
  · intro apart
    refine ⟨fun other same => redact_outline value other apart same, ?_, redact_again value⟩
    intro text member
    exact (hiddenText_iff text).mpr (apart text member)

/-- A token that is the word bearer itself takes the word away from the next one. -/
theorem second_token_shows :
    outlineValue (.str "Bearer bearer abc") = outlineValue (.str "Bearer bearer xyz") ∧
      redact (.str "Bearer bearer abc") = .str "Bearer <redacted> abc" ∧
      redact (.str "Bearer bearer xyz") = .str "Bearer <redacted> xyz" := by
  refine ⟨?_, ?_, ?_⟩
  · have same : outlineText "Bearer bearer abc" = outlineText "Bearer bearer xyz" := by decide +kernel
    rw [outlineValue, outlineValue, same]
  · have here : redactText "Bearer bearer abc" = "Bearer <redacted> abc" := by decide +kernel
    rw [redact, here]
  · have here : redactText "Bearer bearer xyz" = "Bearer <redacted> xyz" := by decide +kernel
    rw [redact, here]

end Sippycup.Mcp
