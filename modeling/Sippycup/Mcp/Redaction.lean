import Mathlib.Data.List.Infix
import Sippycup.Python.JsonValue

/-! Redaction of tool results. Three substitutions run one after the other over
every exposed text; a text whose characters carry a label shows which of them
a substitution keeps. -/
namespace Sippycup.Mcp
open Sippycup.Ip Sippycup.Python Sippycup.Python.Text

/-- What a pattern takes from the front of a text: the group that is kept, and all of it. -/
structure Span where
  kept : Nat
  size : Nat

abbrev Pattern := Codes → Option Span

/-- `pattern.sub(r"\1" + mark, text)`, on items that carry a code. -/
@[grind =] def substitute {α : Type} (find : Pattern) (key : α → Nat) (mark : List α) : Nat → List α → List α
  | _, [] => []
  | skip + 1, _ :: rest => substitute find key mark skip rest
  | 0, item :: rest =>
    match find ((item :: rest).map key) with
    | some span => (item :: rest).take span.kept ++ mark ++ substitute find key mark (span.size - 1) rest
    | none => item :: substitute find key mark 0 rest

/-- A code that a lower case letter matches under `re.IGNORECASE`. -/
def matchesLetter (letter code : Nat) : Bool :=
  decide (code = letter) || decide (97 ≤ letter ∧ letter ≤ 122 ∧ code + 32 = letter) ||
    (decide (letter = 105) && [0x130, 0x131].contains code) ||
    (decide (letter = 115) && decide (code = 0x17F)) || (decide (letter = 107) && decide (code = 0x212A))

@[grind =] def matchesWord : Codes → Codes → Bool
  | [], text => text.isEmpty
  | letter :: word, code :: text => matchesLetter letter code && matchesWord word text
  | _ :: _, [] => false

/-- The word stands at the front of the text. -/
def startsWord (word text : Codes) : Bool := matchesWord word (text.take word.length)

def isNewline (code : Nat) : Bool := decide (code = 10 ∨ code = 13)

/-- `[A-Za-z0-9._~+/=-]`, ignoring case. -/
def isTokenCode (code : Nat) : Bool :=
  decide ((48 ≤ code ∧ code ≤ 57) ∨ (65 ≤ code ∧ code ≤ 90) ∨ (97 ≤ code ∧ code ≤ 122)) ||
    [46, 95, 126, 43, 47, 61, 45, 0x130, 0x131, 0x17F, 0x212A].contains code

/-- `\s*` before `[^\r\n]+`: as much white space as leaves a value behind it. -/
@[grind =] def blankBefore : Codes → Option Nat
  | [] => none
  | code :: rest =>
    if isSpace code then
      match blankBefore rest with
      | some blank => some (blank + 1)
      | none => if isNewline code then none else some 0
    else some 0

def authorizationWord : Codes := (Text.ofString "authorization:").codes

def proxyWord : Codes := (Text.ofString "proxy-authorization:").codes

def bearerWord : Codes := (Text.ofString "bearer").codes

/-- `(?i)(authorization:\s*)([^\r\n]+)`, and the same for the longer word. -/
def headerPattern (word : Codes) : Pattern := fun text =>
  if startsWord word text then
    (blankBefore (text.drop word.length)).map fun blank =>
      let kept := word.length + blank
      ⟨kept, kept + ((text.drop kept).takeWhile fun code => !isNewline code).length⟩
  else none

/-- `(?i)(bearer\s+)[A-Za-z0-9._~+/=-]+` -/
def bearerPattern : Pattern := fun text =>
  if startsWord bearerWord text then
    let after := text.drop bearerWord.length
    let blank := (after.takeWhile isSpace).length
    let token := ((after.drop blank).takeWhile isTokenCode).length
    if 0 < blank ∧ 0 < token then some ⟨bearerWord.length + blank, bearerWord.length + blank + token⟩
    else none
  else none

/-- `_SECRET_TEXT` -/
def secretText : List Pattern := [headerPattern authorizationWord, headerPattern proxyWord, bearerPattern]

def redactItems {α : Type} (key : α → Nat) (mark : List α) (items : List α) : List α :=
  secretText.foldl (fun items find => substitute find key mark 0 items) items

def redactedMark : Codes := (Text.ofString "<redacted>").codes

def redactText (text : Text) : Text := ⟨redactItems id redactedMark text.codes⟩

/-- `_SECRET_KEY` -/
def secretKeys : List Codes :=
  ["password", "passwd", "secret", "token", "access_token", "refresh_token", "private_key",
    "authorization_header", "proxy_authorization", "credential_value"].map fun key => (Text.ofString key).codes

def isSecretKey (key : Text) : Bool := secretKeys.any fun word => matchesWord word key.codes

mutual
@[grind =] def redact : JsonValue → JsonValue
  | .str text => .str (redactText text)
  | .list items => .list (redactList items)
  | .dict entries => .dict (redactEntries entries)
  | value => value

@[grind =] def redactList : List JsonValue → List JsonValue
  | [] => []
  | item :: rest => redact item :: redactList rest

@[grind =] def redactEntries : List (Text × JsonValue) → List (Text × JsonValue)
  | [] => []
  | (key, value) :: rest =>
    (key, if isSecretKey key then .str "<redacted>" else redact value) :: redactEntries rest
end

end Sippycup.Mcp

/-! The three substitutions leave nothing for a second pass. -/
namespace Sippycup.Mcp
open Sippycup.Ip Sippycup.Python Sippycup.Python.Text

section substitution
variable {α β : Type} {find : Pattern} {key : α → Nat} {mark items out : List α}

/-- A pattern takes a nonempty piece of the text and keeps a part of it. -/
def Pattern.Sound (find : Pattern) : Prop :=
  ∀ text span, find text = some span → span.kept ≤ span.size ∧ 0 < span.size ∧ span.size ≤ text.length

/-- How a substitution goes through the items. -/
inductive Replaced (find : Pattern) (key : α → Nat) (mark : List α) : List α → List α → Prop
  | nil : Replaced find key mark [] []
  | plain {x : α} {rest out : List α} (none : find ((x :: rest).map key) = none)
      (later : Replaced find key mark rest out) : Replaced find key mark (x :: rest) (x :: out)
  | hit {kept dropped rest out : List α}
      (found : find ((kept ++ (dropped ++ rest)).map key) = some ⟨kept.length, kept.length + dropped.length⟩)
      (later : Replaced find key mark rest out) :
      Replaced find key mark (kept ++ (dropped ++ rest)) (kept ++ (mark ++ out))

theorem substitute_skip (skip : Nat) :
    substitute find key mark skip items = substitute find key mark 0 (items.drop skip) := by
  induction skip generalizing items with
  | zero => rw [List.drop_zero]
  | succ skip ih =>
    cases items with
    | nil => rw [List.drop_nil, substitute, substitute]
    | cons x rest => rw [substitute, ih, List.drop_succ_cons]

theorem substitute_plain {x : α} {rest : List α} (none : find ((x :: rest).map key) = none) :
    substitute find key mark 0 (x :: rest) = x :: substitute find key mark 0 rest := by
  rw [substitute, none]

theorem substitute_hit {kept dropped rest : List α} (sound : find.Sound)
    (found : find ((kept ++ (dropped ++ rest)).map key) = some ⟨kept.length, kept.length + dropped.length⟩) :
    substitute find key mark 0 (kept ++ (dropped ++ rest)) =
      kept ++ (mark ++ substitute find key mark 0 rest) := by
  have positive := (sound _ _ found).2.1
  dsimp only at positive
  rcases split : kept ++ (dropped ++ rest) with _ | ⟨x, others⟩
  · have empty := congrArg List.length split
    simp only [List.length_append, List.length_nil] at empty
    omega
  · rw [split] at found
    have later : others.drop (kept.length + dropped.length - 1) = rest := by
      have whole : (x :: others).drop (kept.length + dropped.length) = rest := by
        rw [← split, ← List.drop_drop, List.drop_left, List.drop_left]
      rwa [show kept.length + dropped.length = kept.length + dropped.length - 1 + 1 by omega,
        List.drop_succ_cons] at whole
    rw [substitute, found]
    dsimp only
    rw [substitute_skip, later, ← split, List.take_left, List.append_assoc]

/-- Every substitution is such a walk. -/
theorem replaced (sound : find.Sound) (items : List α) :
    Replaced find key mark items (substitute find key mark 0 items) := by
  obtain ⟨size, bound⟩ : ∃ n, items.length ≤ n := ⟨_, Nat.le_refl _⟩
  induction size generalizing items with
  | zero =>
    rw [List.length_eq_zero_iff.mp (Nat.le_zero.mp bound), substitute]
    exact .nil
  | succ size ih =>
    rcases items with _ | ⟨x, rest⟩
    · rw [substitute]
      exact .nil
    rcases found : find ((x :: rest).map key) with _ | ⟨kept, whole⟩
    · rw [substitute_plain found]
      apply Replaced.plain found
      apply ih
      exact Nat.le_of_succ_le_succ bound
    · obtain ⟨less, positive, within⟩ := sound _ _ found
      rw [List.length_map] at within
      dsimp only at less positive within
      obtain ⟨front, dropped, after, split, sizeFront, sizeDropped⟩ : ∃ front dropped after : List α,
          x :: rest = front ++ (dropped ++ after) ∧ front.length = kept ∧
            kept + dropped.length = whole := by
        refine ⟨(x :: rest).take kept, ((x :: rest).drop kept).take (whole - kept), (x :: rest).drop whole, ?_, ?_, ?_⟩
        · conv_lhs => rw [← List.take_append_drop kept (x :: rest),
            ← List.take_append_drop (whole - kept) ((x :: rest).drop kept), List.drop_drop]
          rw [show kept + (whole - kept) = whole by omega]
        · rw [List.length_take]
          omega
        · rw [List.length_take, List.length_drop]
          omega
      rw [split] at found bound ⊢
      rw [← sizeDropped, ← sizeFront] at found
      rw [substitute_hit sound found]
      apply Replaced.hit found
      apply ih
      simp only [List.length_append] at bound
      omega

theorem substitute_through {front : List α}
    (none : ∀ done here, front = done ++ here → here ≠ [] → find ((here ++ items).map key) = none) :
    substitute find key mark 0 (front ++ items) = front ++ substitute find key mark 0 items := by
  induction front with
  | nil => rfl
  | cons x rest ih =>
    have here := none [] (x :: rest) rfl (List.cons_ne_nil x rest)
    have later := ih fun done there split some_ => none (x :: done) there (by rw [split]; rfl) some_
    rw [List.cons_append] at here ⊢
    rw [substitute_plain here, later]
    rfl

theorem substitute_map {keyOf : β → Nat} {f : α → β} (same : ∀ x, keyOf (f x) = key x) (skip : Nat) :
    (substitute find key mark skip items).map f = substitute find keyOf (mark.map f) skip (items.map f) := by
  have keys : ∀ items : List α, (items.map f).map keyOf = items.map key := by
    intro items
    rw [List.map_map]
    exact List.map_congr_left fun x _ => same x
  induction items generalizing skip with
  | nil => cases skip <;> rfl
  | cons x rest ih =>
    cases skip with
    | succ skip => exact ih skip
    | zero =>
      have keys := keys (x :: rest)
      rw [List.map_cons] at keys
      rw [List.map_cons, substitute, substitute, keys]
      cases find ((x :: rest).map key) with
      | none =>
        dsimp only
        rw [List.map_cons, ih 0]
      | some span =>
        dsimp only
        rw [List.map_append, List.map_append, List.map_take, ih _, List.map_cons]

/-- Up to the first mark the result is the text. -/
theorem Replaced.front {opening : Nat} {front tail : List α} (walk : Replaced find key mark items out)
    (starts : ∃ x rest, mark = x :: rest ∧ key x = opening) (split : out = front ++ tail)
    (clear : ∀ x ∈ front, key x ≠ opening) : ∃ rest, items = front ++ rest := by
  induction walk generalizing front with
  | nil =>
    obtain ⟨rfl, rfl⟩ := List.nil_eq_append_iff.mp split
    exact ⟨[], rfl⟩
  | @plain x rest out none later ih =>
    cases front with
    | nil => exact ⟨_, rfl⟩
    | cons y front =>
      obtain ⟨rfl, same⟩ := List.cons.inj split
      obtain ⟨more, rfl⟩ := ih same fun z member => clear z (List.mem_cons_of_mem _ member)
      exact ⟨more, rfl⟩
  | @hit kept dropped rest out found later ih =>
    obtain ⟨x, others, rfl, opens⟩ := starts
    rcases List.append_eq_append_iff.mp split with ⟨between, rfl, more⟩ | ⟨between, rfl, -⟩
    · cases between with
      | nil => exact ⟨dropped ++ rest, by rw [List.append_nil]⟩
      | cons y between =>
        obtain ⟨rfl, -⟩ := List.cons.inj more
        exact absurd opens (clear x (by simp))
    · exact ⟨between ++ (dropped ++ rest), by rw [List.append_assoc]⟩

end substitution

end Sippycup.Mcp

namespace Sippycup.Mcp
open Sippycup.Ip Sippycup.Python Sippycup.Python.Text

section patterns

theorem matchesWord_length {word text : Codes} (same : matchesWord word text = true) :
    text.length = word.length := by
  induction word generalizing text with
  | nil => simpa [matchesWord] using same
  | cons letter word ih =>
    cases text with
    | nil => cases same
    | cons code text =>
      simp only [matchesWord, Bool.and_eq_true] at same
      rw [List.length_cons, List.length_cons, ih same.2]

theorem startsWord_iff {word text : Codes} :
    startsWord word text = true ↔ ∃ front rest, text = front ++ rest ∧ matchesWord word front = true := by
  constructor
  · intro starts
    exact ⟨_, _, (List.take_append_drop word.length text).symm, starts⟩
  · rintro ⟨front, rest, rfl, same⟩
    rw [startsWord, ← matchesWord_length same, List.take_left]
    exact same

theorem isSpace_of_isNewline {code : Nat} (newline : isNewline code = true) : isSpace code = true := by
  rcases of_decide_eq_true newline with rfl | rfl
  · decide
  · decide

/-- The blank before a value: white space, then something on the same line. -/
theorem blankBefore_some {text : Codes} {size : Nat} (found : blankBefore text = some size) :
    ∃ blank code rest, text = blank ++ code :: rest ∧ blank.length = size ∧
      (∀ c ∈ blank, isSpace c = true) ∧ isNewline code = false := by
  induction text generalizing size with
  | nil => cases found
  | cons code rest ih =>
    rw [blankBefore] at found
    split at found
    · rename_i space
      split at found
      · rename_i blank later
        obtain ⟨front, value, after, rfl, rfl, spaces, here⟩ := ih later
        cases found
        refine ⟨code :: front, value, after, rfl, rfl, ?_, here⟩
        intro c member
        rcases List.mem_cons.mp member with rfl | member
        · exact space
        · exact spaces c member
      · split at found
        · cases found
        · rename_i here
          cases found
          exact ⟨[], code, rest, rfl, rfl, by simp, eq_false_of_ne_true here⟩
    · rename_i value
      cases found
      refine ⟨[], code, rest, rfl, rfl, by simp, ?_⟩
      by_contra newline
      exact value (isSpace_of_isNewline (eq_true_of_ne_false newline))

theorem blankBefore_none {text : Codes} (none : blankBefore text = none) : ∀ c ∈ text, isNewline c = true := by
  induction text with
  | nil => simp
  | cons code rest ih =>
    rw [blankBefore] at none
    split at none
    · split at none
      · cases none
      · rename_i later
        split at none
        · rename_i newline
          intro c member
          rcases List.mem_cons.mp member with rfl | member
          · exact newline
          · exact ih later c member
        · cases none
    · cases none

theorem blankBefore_value {blank : Codes} {code : Nat} {rest : Codes} (spaces : ∀ c ∈ blank, isSpace c = true)
    (value : isSpace code = false) : blankBefore (blank ++ code :: rest) = some blank.length := by
  induction blank with
  | nil => rw [List.nil_append, blankBefore, value]; rfl
  | cons c blank ih =>
    rw [List.cons_append, blankBefore, if_pos (spaces c List.mem_cons_self),
      ih fun d member => spaces d (List.mem_cons_of_mem _ member)]
    rfl

theorem takeWhile_line (line : Codes) (rest : Codes) (whole : ∀ c ∈ line, isNewline c = false)
    (ends : rest = [] ∨ ∃ c more, rest = c :: more ∧ isNewline c = true) :
    (line ++ rest).takeWhile (fun code => !isNewline code) = line := by
  rw [List.takeWhile_append_of_pos fun c member => by rw [whole c member]; rfl]
  rcases ends with rfl | ⟨c, more, rfl, newline⟩
  · simp
  · simp [newline]

variable {α : Type} {key : α → Nat} {word : Codes}

/-- A header as the pattern takes it apart: its word and blank, its value, and
what follows the line. -/
structure IsHeader (word : Codes) (key : α → Nat) (name blank value rest : List α) : Prop where
  name : matchesWord word (name.map key) = true
  blank : ∀ x ∈ blank, isSpace (key x) = true
  some_ : value ≠ []
  line : ∀ x ∈ value, isNewline (key x) = false
  ends : rest = [] ∨ ∃ x more, rest = x :: more ∧ isNewline (key x) = true

theorem headerPattern_some {items : List α} {span : Span} (found : headerPattern word (items.map key) = some span) :
    ∃ name blank value rest, items = (name ++ blank) ++ (value ++ rest) ∧ IsHeader word key name blank value rest ∧
      span = ⟨(name ++ blank).length, (name ++ blank).length + value.length⟩ := by
  unfold headerPattern at found
  split at found
  · rename_i starts
    rw [Option.map_eq_some_iff] at found
    obtain ⟨size, measured, rfl⟩ := found
    obtain ⟨front, after, split, same⟩ := startsWord_iff.1 starts
    obtain ⟨name, others, rfl, rfl, rfl⟩ := List.map_eq_append_iff.mp split
    have width := matchesWord_length same
    rw [List.length_map] at width
    rw [List.map_append, ← width, ← List.length_map (f := key), List.drop_left] at measured
    obtain ⟨spaces, code, tail, split, rfl, blanks, here⟩ := blankBefore_some measured
    obtain ⟨blank, others, rfl, rfl, valued⟩ := List.map_eq_append_iff.mp split
    have cut := List.takeWhile_append_dropWhile (p := fun x => !isNewline (key x)) (l := others)
    refine ⟨name, blank, others.takeWhile fun x => !isNewline (key x),
      others.dropWhile fun x => !isNewline (key x), ?_, ⟨same, ?_, ?_, ?_, ?_⟩, ?_⟩
    · rw [cut, List.append_assoc]
    · intro x member
      exact blanks _ (List.mem_map_of_mem member)
    · rcases others with _ | ⟨x, others⟩
      · cases valued
      · rw [List.map_cons, List.cons.injEq] at valued
        rw [← valued.1] at here
        simp [here]
    · intro x member
      simpa using List.mem_takeWhile_imp member
    · rcases ended : others.dropWhile (fun x => !isNewline (key x)) with _ | ⟨x, more⟩
      · exact .inl rfl
      · refine .inr ⟨x, more, rfl, ?_⟩
        have := List.head?_dropWhile_not (fun x => !isNewline (key x)) others
        rw [ended] at this
        simpa using this
    · have drop : ((name ++ (blank ++ others)).map key).drop (word.length + blank.length) = others.map key := by
        rw [← width, ← List.length_append, ← List.append_assoc, List.map_append, ← List.length_map (f := key),
          List.drop_left]
      dsimp only
      rw [List.length_map, drop, List.takeWhile_map, List.length_map, List.length_append, width]
      rfl
  · cases found

theorem headerPattern_header {name blank value rest : List α} (header : IsHeader word key name blank value rest)
    (whole : ∀ x ∈ value.head?, isSpace (key x) = false) :
    headerPattern word (((name ++ blank) ++ (value ++ rest)).map key) =
      some ⟨(name ++ blank).length, (name ++ blank).length + value.length⟩ := by
  have width := matchesWord_length header.name
  rw [List.length_map] at width
  obtain ⟨x, more, rfl⟩ := List.exists_cons_of_ne_nil header.some_
  have starts : startsWord word (((name ++ blank) ++ (x :: more ++ rest)).map key) = true :=
    startsWord_iff.2 ⟨name.map key, _, by rw [List.append_assoc, List.map_append], header.name⟩
  have after : (((name ++ blank) ++ (x :: more ++ rest)).map key).drop word.length =
      blank.map key ++ key x :: (more ++ rest).map key := by
    rw [List.append_assoc, List.map_append, ← width, ← List.length_map (f := key), List.drop_left, List.map_append]
    rfl
  have valued : (((name ++ blank) ++ (x :: more ++ rest)).map key).drop (word.length + blank.length) =
      (x :: more).map key ++ rest.map key := by
    rw [← width, ← List.length_append, List.map_append, ← List.length_map (f := key), List.drop_left, List.map_append]
  have line : ((x :: more).map key ++ rest.map key).takeWhile (fun code => !isNewline code) = (x :: more).map key := by
    apply takeWhile_line
    · intro c member
      obtain ⟨y, there, rfl⟩ := List.mem_map.mp member
      exact header.line y there
    · rcases header.ends with rfl | ⟨y, others, rfl, newline⟩
      · exact .inl rfl
      · exact .inr ⟨_, _, rfl, newline⟩
  unfold headerPattern
  rw [if_pos starts, after, blankBefore_value (by simpa using header.blank) (whole x rfl), Option.map_some]
  dsimp only
  rw [List.length_map, valued, line, List.length_map, List.length_append, width]

theorem headerPattern_none {name rest : List α} (same : matchesWord word (name.map key) = true)
    (none : headerPattern word ((name ++ rest).map key) = none) : ∀ x ∈ rest, isNewline (key x) = true := by
  have width := matchesWord_length same
  unfold headerPattern at none
  rw [if_pos (startsWord_iff.2 ⟨_, _, List.map_append, same⟩), List.map_append, ← width, List.drop_left,
    Option.map_eq_none_iff] at none
  intro x member
  exact blankBefore_none none _ (List.mem_map_of_mem member)

theorem headerPattern_sound : (headerPattern word).Sound := by
  intro text span found
  rw [← List.map_id text] at found
  obtain ⟨name, blank, value, rest, split, header, rfl⟩ := headerPattern_some found
  have positive := List.length_pos_of_ne_nil header.some_
  have whole := congrArg List.length split
  simp only [List.length_append] at whole ⊢
  omega

end patterns

end Sippycup.Mcp
