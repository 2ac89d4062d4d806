import Sippycup.Journal.Append
import Sippycup.Webrtc.OwnErrors

/-! Which exceptions leave the verification of a journal. Besides its own error come those of a stream
that cannot be decoded, of a document that the reader gives up on, of lists that cannot be sorted as a
set, and of text that cannot be encoded; each is said of the line behind the lines that were accepted. -/
namespace Sippycup.Journal
open Sippycup.Python Sippycup.Ip
open Sippycup.Webrtc (After after_ok after_pure after_bind after_congr ownErrors_then)

section stream

/-- What a text stream gives: lines, and whether it then fails to decode what follows. -/
structure TextStream where
  lines : List Text
  broken : Bool

/-- The streams of a file. Where it is no UTF-8 the buffer decides how many of the complete lines before
the fault come first. -/
inductive Streams (bytes : List Nat) : TextStream → Prop
  | whole {codes : Codes} (read : TextFile.read? bytes = some codes) :
      Streams bytes ⟨(TextFile.lines codes).map Text.mk, false⟩
  | broken {front back : List Nat} {codes : Codes} {lines : List Text} (unread : TextFile.read? bytes = none)
      (split : bytes = front ++ back) (read : TextFile.read? front = some codes)
      (given : lines <+: (TextFile.lines codes).map Text.mk)
      (ended : ∀ line ∈ lines, line.codes.getLast? = some newline) : Streams bytes ⟨lines, true⟩

/-- `_verify_stream`; `UnicodeDecodeError` is a `ValueError`. -/
def verifySource (loads : Loads) (stream : TextStream) : Result Verification := do
  let read ← verifyStream loads stream.lines
  if stream.broken then .error (.builtin .valueError) else return read

end stream

section readers

@[simp] theorem ownErrors_fail {α : Type} (message : String) : OwnErrors (fail message : Result α) := ownErrors_own _

@[simp] theorem ownErrors_validateText (name : String) (value : JsonValue) (maximum : Nat) (empty : Bool) :
    OwnErrors (validateText name value maximum empty) := by
  unfold validateText
  split
  · exact ownErrors_ite (ownErrors_fail _) (ownErrors_ite (ownErrors_fail _) (ownErrors_ite (ownErrors_fail _)
      (ownErrors_ok _)))
  · exact ownErrors_fail _

@[simp] theorem ownErrors_readKind (value : JsonValue) (expected : Nat) : OwnErrors (readKind value expected) := by
  unfold readKind
  split
  · split
    · exact ownErrors_ok _
    · exact ownErrors_fail _
  · exact ownErrors_fail _

@[simp] theorem ownErrors_readDigest (value : JsonValue) (expected : Nat) : OwnErrors (readDigest value expected) := by
  unfold readDigest
  split
  · exact ownErrors_ite (ownErrors_ok _) (ownErrors_fail _)
  · exact ownErrors_fail _

@[simp] theorem ownErrors_boundedList (value : JsonValue) (maximum : Nat) (message : String) :
    OwnErrors (boundedList value maximum message) := by
  unfold boundedList
  split
  · exact ownErrors_ite (ownErrors_fail _) (ownErrors_ok _)
  · exact ownErrors_fail _

@[simp] theorem ownErrors_safeReference (value : Text) : OwnErrors (safeReference value) := by
  apply ownErrors_bind.mpr
  constructor
  · exact ownErrors_validateText _ _ _ _
  · exact fun _ _ => ownErrors_ite (ownErrors_pure _) (ownErrors_fail _)

@[simp] theorem ownErrors_checkReferences (references : List Text) : OwnErrors (checkReferences references) := by
  induction references with
  | nil => exact ownErrors_ok _
  | cons reference rest ih => exact ownErrors_bind.mpr ⟨ownErrors_safeReference _, fun _ _ => ih⟩

/-- Items that can be put into a set and sorted: of one kind that has an order, or all null. -/
def Sortable (items : List JsonValue) : Prop :=
  (∀ item ∈ items, item.hashable = true) ∧
    ((∀ item ∈ items, item.text?.isSome = true) ∨ (∀ item ∈ items, item.number?.isSome = true) ∨
      ∀ item ∈ items, item = .null)

theorem mapM_text_none {items : List JsonValue} :
    items.mapM JsonValue.text? = none ↔ ¬ ∀ item ∈ items, item.text?.isSome = true := by
  induction items with
  | nil => simp
  | cons item rest ih =>
    rw [List.mapM_cons, List.forall_mem_cons]
    cases item.text? with
    | none => simp
    | some t =>
      rcases found : rest.mapM JsonValue.text? with _ | texts
      · exact iff_of_true rfl fun both => (ih.mp found) both.2
      · have all : ∀ item ∈ rest, item.text?.isSome = true := by
          by_contra missing
          exact absurd (ih.mpr missing) (by rw [found]; exact Option.some_ne_none _)
        exact iff_of_false (by simp) (not_not.mpr ⟨rfl, all⟩)

theorem isNull_iff {item : JsonValue} : isNull item = true ↔ item = .null := by
  cases item <;> simp [isNull]

theorem ownErrors_sortedTexts {items : List JsonValue} {unsorted untyped : String} :
    OwnErrors (sortedTexts items unsorted untyped) ↔ Sortable items := by
  rw [sortedTexts, Sortable]
  by_cases hashed : items.any (fun item => !item.hashable) = true
  · rw [if_pos hashed]
    refine iff_of_false (ownErrors_builtin _) fun both => ?_
    obtain ⟨item, member, unhashable⟩ := List.any_eq_true.mp hashed
    rw [both.1 item member] at unhashable
    cases unhashable
  · have each : ∀ item ∈ items, item.hashable = true := by
      intro item member
      by_contra unhashable
      exact hashed (List.any_eq_true.mpr ⟨item, member, by simpa using unhashable⟩)
    rw [if_neg hashed, and_iff_right each]
    rcases texts : items.mapM JsonValue.text? with _ | found
    · have mixed := mapM_text_none.1 texts
      have kinds : comparable items = true ↔ (∀ item ∈ items, item.number?.isSome = true) ∨ ∀ item ∈ items, item = .null := by
        simp only [comparable, Bool.or_eq_true, List.all_eq_true, isNull_iff]
      dsimp only
      rw [or_iff_right mixed, ← kinds]
      by_cases sortable : comparable items = true
      · rw [if_pos sortable]
        exact iff_of_true (ownErrors_fail _) sortable
      · rw [if_neg sortable]
        exact iff_of_false (ownErrors_builtin _) sortable
    · have all : ∀ item ∈ items, item.text?.isSome = true := by
        by_contra missing
        exact absurd (mapM_text_none.2 missing) (by rw [texts]; exact Option.some_ne_none _)
      exact iff_of_true (ownErrors_ite (ownErrors_ok _) (ownErrors_fail _)) (.inl all)

theorem ownErrors_canonical {d : JsonDict} :
    OwnErrors (canonical d) ↔ ∀ code ∈ (JsonValue.dict d).canonicalRaw, isScalar code := by
  unfold canonical Utf8.encode?
  by_cases scalars : ∀ code ∈ (JsonValue.dict d).canonicalRaw, isScalar code
  · rw [if_pos scalars]
    exact iff_of_true (ownErrors_ok _) scalars
  · rw [if_neg scalars]
    exact iff_of_false (ownErrors_builtin _) scalars

theorem ownErrors_guard {α : Type} {c : Prop} [Decidable c] {message : String} {rest : Result α} :
    OwnErrors (if c then fail message else rest) ↔ (¬c → OwnErrors rest) := by
  by_cases stop : c <;> simp [stop]

theorem after_guard {α : Type} {c : Prop} [Decidable c] {message : String} {rest : Result α} {holds : α → Prop} :
    After (if c then fail message else rest) holds ↔ (¬c → After rest holds) := by
  by_cases stop : c <;> simp [stop, After, fail]

end readers

section entry

/-- An entry up to its references. -/
def evidenceListed (d : JsonDict) (expected : Nat) : Result (List JsonValue) := do
  if !keysAre d entryKeys then fail s!"journal entry {expected} has invalid fields"
  else if !(d.find "apiVersion").isText entryVersion then
    fail s!"journal entry {expected} has an unsupported version"
  else if !(d.find "sequence").eq (.int expected) then fail s!"journal sequence must be {expected}"
  else
    let _ ← validateText "recordedAt" (d.find "recordedAt") 64 false
    let _ ← readKind (d.find "kind") expected
    let _ ← validateText "summary" (d.find "summary") maxSummaryChars false
    let _ ← validateText "detail" (d.find "detail") maxDetailChars true
    boundedList (d.find "evidence") maxReferences s!"journal entry {expected} evidence must be sorted and unique"

/-- From the references to the tags. -/
def tagsListed (d : JsonDict) (expected : Nat) (references : List JsonValue) : Result (List JsonValue) := do
  let evidence ← sortedTexts references
    s!"journal entry {expected} evidence must be sorted and unique" "evidence references must be text"
  checkReferences evidence
  boundedList (d.find "tags") maxTags s!"journal entry {expected} tags must be sorted safe identifiers"

/-- From the tags to the digest. -/
def digestStated (d : JsonDict) (expected : Nat) (previous : Option Text) (identifiers : List JsonValue) :
    Result Text := do
  let tags ← sortedTexts identifiers
    s!"journal entry {expected} tags must be sorted safe identifiers"
    s!"journal entry {expected} tags must be sorted safe identifiers"
  if !tags.all isTag then fail s!"journal entry {expected} tags must be sorted safe identifiers"
  else if !readPrevious (d.find "previousSha256") previous then
    fail s!"journal entry {expected} breaks the hash chain"
  else readDigest (d.find "entrySha256") expected

/-- An entry whose references and tags can be sorted as sets, and whose text can be encoded, each where
the checks before it are passed. -/
def EntrySafe (d : JsonDict) (expected : Nat) (previous : Option Text) : Prop :=
  After (evidenceListed d expected) fun references =>
    Sortable references ∧ After (tagsListed d expected references) fun identifiers =>
      Sortable identifiers ∧ After (digestStated d expected previous identifiers) fun _ =>
        ∀ code ∈ (JsonValue.dict (material d)).canonicalRaw, isScalar code

theorem ownErrors_validateFields (d : JsonDict) (expected : Nat) (previous : Option Text) :
    OwnErrors (validateFields d expected previous) ↔ EntrySafe d expected previous := by
  rw [validateFields, EntrySafe, evidenceListed, ownErrors_guard, after_guard]
  refine imp_congr_right fun _ => ?_
  rw [ownErrors_guard, after_guard]
  refine imp_congr_right fun _ => ?_
  rw [ownErrors_guard, after_guard]
  refine imp_congr_right fun _ => ?_
  rw [ownErrors_then (ownErrors_validateText _ _ _ _), after_bind]
  refine after_congr fun recordedAt => ?_
  rw [ownErrors_then (ownErrors_readKind _ _), after_bind]
  refine after_congr fun kind => ?_
  rw [ownErrors_then (ownErrors_validateText _ _ _ _), after_bind]
  refine after_congr fun summary => ?_
  rw [ownErrors_then (ownErrors_validateText _ _ _ _), after_bind]
  refine after_congr fun detail => ?_
  rw [ownErrors_then (ownErrors_boundedList _ _ _)]
  refine after_congr fun references => ?_
  rw [tagsListed, ownErrors_bind, ownErrors_sortedTexts, after_bind]
  refine and_congr_right fun _ => after_congr fun evidence => ?_
  rw [ownErrors_then (ownErrors_checkReferences _), after_bind]
  refine after_congr fun _ => ?_
  rw [ownErrors_then (ownErrors_boundedList _ _ _)]
  refine after_congr fun identifiers => ?_
  rw [digestStated, ownErrors_bind, ownErrors_sortedTexts, after_bind]
  refine and_congr_right fun _ => after_congr fun tags => ?_
  rw [ownErrors_guard, after_guard]
  refine imp_congr_right fun _ => ?_
  rw [ownErrors_guard, after_guard]
  refine imp_congr_right fun _ => ?_
  rw [ownErrors_then (ownErrors_readDigest _ _)]
  refine after_congr fun digest => ?_
  rw [ownErrors_bind, entryDigest, ownErrors_bind, ownErrors_canonical]
  refine ⟨fun own => own.1.1, fun scalars => ⟨⟨scalars, fun _ _ => ownErrors_pure _⟩, fun _ _ => ?_⟩⟩
  exact ownErrors_ite (ownErrors_pure _) (ownErrors_fail _)

theorem ownErrors_validateEntry (value : JsonValue) (expected : Nat) (previous : Option Text) :
    OwnErrors (validateEntry value expected previous) ↔ ∀ d, value = .dict d → EntrySafe d expected previous := by
  cases value with
  | dict d => simp [validateEntry, ownErrors_validateFields]
  | _ => simp [validateEntry]

end entry

section decoding

theorem decodeOne_scalar {bytes rest : List Nat} {code : Nat} (read : Utf8.decodeOne bytes = some (code, rest)) :
    isScalar code := by
  cases bytes with
  | nil => cases read
  | cons a bytes =>
    rw [Utf8.decodeOne] at read
    split at read
    · cases read
      exact .inl (by omega)
    split at read
    · cases bytes with
      | nil => cases read
      | cons b bytes =>
        simp only [Utf8.decodeTwo, Utf8.continues, decide_eq_true_eq, Option.ite_none_right_eq_some, Option.some.injEq,
          Prod.mk.injEq] at read
        exact .inl (by omega)
    split at read
    · rcases bytes with _ | ⟨b, _ | ⟨c, bytes⟩⟩
      · cases read
      · cases read
      · rw [Utf8.decodeThree, Option.ite_none_right_eq_some] at read
        obtain ⟨⟨-, -, scalar⟩, same⟩ := read
        rw [← (Prod.mk.inj (Option.some.inj same)).1]
        exact scalar
    split at read
    · rcases bytes with _ | ⟨b, _ | ⟨c, _ | ⟨d, bytes⟩⟩⟩
      · cases read
      · cases read
      · cases read
      · rw [Utf8.decodeFour, Option.ite_none_right_eq_some] at read
        obtain ⟨⟨-, above, below⟩, same⟩ := read
        rw [← (Prod.mk.inj (Option.some.inj same)).1]
        exact .inr ⟨Nat.le_trans (by decide) above, below⟩
    · cases read

theorem decodeUpTo_scalars {bound : Nat} {bytes : List Nat} {codes : Codes}
    (read : Utf8.decodeUpTo bound bytes = some codes) : ∀ code ∈ codes, isScalar code := by
  induction bound generalizing bytes codes with
  | zero =>
    cases bytes with
    | nil =>
      cases read
      simp
    | cons => cases read
  | succ bound ih =>
    cases bytes with
    | nil =>
      cases read
      simp
    | cons byte bytes =>
      simp only [Utf8.decodeUpTo, Option.pure_def, Option.bind_eq_bind, Option.bind_eq_some_iff, Option.some.injEq,
        Prod.exists] at read
      obtain ⟨code, rest, first, others, later, rfl⟩ := read
      exact List.forall_mem_cons.mpr ⟨decodeOne_scalar first, ih later⟩

theorem newlines_scalars {codes : Codes} (scalars : ∀ code ∈ codes, isScalar code) (flag : Bool) :
    ∀ code ∈ TextFile.newlines flag codes, isScalar code := by
  induction codes generalizing flag with
  | nil => simp [TextFile.newlines]
  | cons code rest ih =>
    obtain ⟨first, others⟩ := List.forall_mem_cons.mp scalars
    rw [TextFile.newlines]
    split
    · exact List.forall_mem_cons.mpr ⟨.inl (by omega), ih others true⟩
    split
    · exact ih others false
    · exact List.forall_mem_cons.mpr ⟨first, ih others false⟩

theorem lines_scalars {bytes : List Nat} {codes : Codes} (read : TextFile.read? bytes = some codes) :
    ∀ line ∈ (TextFile.lines codes).map Text.mk, line.Scalars := by
  obtain ⟨decoded, from_, rfl⟩ := Option.map_eq_some_iff.mp read
  have scalars := newlines_scalars (decodeUpTo_scalars from_) false
  intro line member code inside
  obtain ⟨codes, among, rfl⟩ := List.mem_map.mp member
  apply scalars
  rw [← TextFile.lines_flatten (TextFile.newlines false decoded)]
  exact List.mem_flatten.mpr ⟨codes, among, inside⟩

theorem Streams.scalars {bytes : List Nat} {stream : TextStream} (given : Streams bytes stream) :
    ∀ line ∈ stream.lines, line.Scalars := by
  cases given with
  | whole read => exact lines_scalars read
  | broken _ _ read given _ => exact fun line member => lines_scalars read line (given.subset member)

end decoding

section run
variable (loads : Loads)

/-- What a line passes before it is read as a document. -/
def admitLine (total : Nat) (read : Verification) (line : Text) : Result Unit := do
  let number := read.entries.length + 1
  let size ← encodedSize line
  if maxJournalBytes < total + size then fail "journal exceeds the 32 MiB verification limit"
  else if maxEntryBytes < size then fail s!"journal line {number} exceeds the 1 MiB limit"
  else if line.codes.getLast? ≠ some newline then fail s!"journal line {number} is incomplete"
  else if line.strip.codes.isEmpty then fail s!"journal line {number} is empty"
  else if maxEntries ≤ read.entries.length then fail "journal exceeds the 100,000 entry limit"
  else return ()

/-- A line that the reader of documents does not give up on, and that is no entry or a safe one. -/
def LineSafe (total : Nat) (read : Verification) (line : Text) : Prop :=
  After (admitLine total read line) fun _ =>
    OwnErrors (loads line) ∧
      ∀ d, loads line = .ok (.dict d) → EntrySafe d (read.entries.length + 1) read.finalSha256

theorem ownErrors_loadLine (number : Nat) (line : Text) :
    OwnErrors (loadLine loads number line) ↔ OwnErrors (loads line) := by
  unfold loadLine
  rcases loads line with (_ | _) | _ <;> simp

theorem loadLine_ok {number : Nat} {line : Text} {value : JsonValue} :
    loadLine loads number line = .ok value ↔ loads line = .ok value := by
  unfold loadLine
  rcases loads line with (_ | _) | _ <;> simp [fail]

theorem ownErrors_encodedSize {line : Text} (scalars : line.Scalars) : OwnErrors (encodedSize line) := by
  rw [encodedSize, Utf8.encode?, if_pos (show ∀ code ∈ line.codes, isScalar code from scalars)]
  exact ownErrors_ok _

theorem ownErrors_verifyLine {line : Text} (scalars : line.Scalars) (total : Nat) (read : Verification) :
    OwnErrors (verifyLine loads total read line) ↔ LineSafe loads total read line := by
  rw [verifyLine, LineSafe, admitLine, ownErrors_then (ownErrors_encodedSize scalars), after_bind]
  refine after_congr fun size => ?_
  rw [ownErrors_guard, after_guard]
  refine imp_congr_right fun _ => ?_
  rw [ownErrors_guard, after_guard]
  refine imp_congr_right fun _ => ?_
  rw [ownErrors_guard, after_guard]
  refine imp_congr_right fun _ => ?_
  rw [ownErrors_guard, after_guard]
  refine imp_congr_right fun _ => ?_
  rw [ownErrors_guard, after_guard]
  refine imp_congr_right fun _ => ?_
  rw [after_pure, ownErrors_bind, ownErrors_loadLine]
  refine and_congr_right fun _ => ?_
  simp only [loadLine_ok, ownErrors_bind, ownErrors_validateEntry, ownErrors_pure, implies_true, and_true]
  constructor
  · exact fun safe d loaded => safe _ loaded d rfl
  · rintro safe _ loaded d rfl
    exact safe d loaded

/-- Over the lines: each is safe behind those that were accepted before it. -/
theorem ownErrors_verifyLines {lines : List Text} (scalars : ∀ line ∈ lines, line.Scalars) (total : Nat)
    (read : Verification) :
    OwnErrors (verifyLines loads total read lines) ↔
      ∀ front line back, lines = front ++ line :: back →
        After (verifyLines loads total read front) fun before => LineSafe loads before.1 before.2 line := by
  induction lines generalizing total read with
  | nil =>
    refine iff_of_true (ownErrors_ok _) fun front line back split => ?_
    exact absurd split.symm (by simp)
  | cons line rest ih =>
    obtain ⟨first, others⟩ := List.forall_mem_cons.mp scalars
    rw [verifyLines, ownErrors_bind, ownErrors_verifyLine loads first]
    constructor
    · rintro ⟨safe, later⟩ front line' back split
      cases front with
      | nil =>
        obtain ⟨rfl, rfl⟩ := List.cons.inj split
        exact after_ok.mpr safe
      | cons line'' front =>
        obtain ⟨rfl, behind⟩ := List.cons.inj split
        rw [verifyLines, after_bind]
        intro next accepted
        exact (ih others _ _).mp (later next accepted) front line' back behind
    · intro each
      constructor
      · have now := each [] line rest rfl
        rwa [verifyLines, after_ok] at now
      · intro next accepted
        refine (ih others _ _).mpr fun front line' back split => ?_
        have behind := each (line :: front) line' back (by rw [split, List.cons_append])
        rw [verifyLines, after_bind] at behind
        exact behind next accepted

/-- Verification accepts or raises its own error exactly where every line that it comes to is safe, and
no undecodable bytes follow lines that it has all accepted. -/
theorem verify_fails_closed_iff (bytes : List Nat) (stream : TextStream) (given : Streams bytes stream) :
    OwnErrors (verifySource loads stream) ↔
      (∀ front line back, stream.lines = front ++ line :: back →
        After (verifyLines loads 0 .empty front) fun before => LineSafe loads before.1 before.2 line) ∧
      (stream.broken = true → ∀ read, verifyLines loads 0 .empty stream.lines ≠ .ok read) := by
  rw [verifySource, verifyStream, bind_assoc, ownErrors_bind, ownErrors_verifyLines loads given.scalars]
  refine and_congr_right fun _ => ?_
  cases stream.broken with
  | false => simp
  | true =>
    simp only [pure_bind, if_true, ownErrors_builtin, imp_false, forall_const]

/-- A journal of one empty list: it is no entry, which is the journal's own error. -/
theorem list_is_refused_as_journal : OwnErrors (verifySource Json.loads ⟨[⟨[91, 93, 10]⟩], false⟩) := by
  have file : TextFile.read? [91, 93, 10] = some [91, 93, 10] := rfl
  have read : Json.loads ⟨[91, 93, 10]⟩ = .ok (.list []) := rfl
  apply (verify_fails_closed_iff Json.loads [91, 93, 10] _ (.whole file)).mpr
  constructor
  · intro front line back split
    cases front with
    | nil =>
      obtain ⟨rfl, rfl⟩ := List.cons.inj split
      refine after_ok.mpr fun _ _ => ?_
      constructor
      · rw [read]
        exact ownErrors_ok _
      · intro d loaded
        cases read.symm.trans loaded
    | cons first others =>
      obtain ⟨-, none_⟩ := List.cons.inj split
      exact absurd none_ (List.append_ne_nil_of_right_ne_nil others (List.cons_ne_nil _ _)).symm
  · intro broken
    cases broken

/-- A journal of one byte that is no UTF-8: what escapes is the error of decoding. -/
theorem undecodable_journal_escapes :
    ∃ stream, Streams [0xFF] stream ∧ verifySource Json.loads stream = .error (.builtin .valueError) := by
  refine ⟨⟨[], true⟩, ?_, rfl⟩
  have split : [0xFF] = ([] : List Nat) ++ [0xFF] := rfl
  have read : TextFile.read? [] = some [] := rfl
  exact .broken rfl split read List.nil_prefix fun _ member => absurd member List.not_mem_nil

end run
end Sippycup.Journal
