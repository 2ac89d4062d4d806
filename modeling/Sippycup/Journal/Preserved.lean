import Sippycup.Journal.Written

/-! Appends one after another: which of them keep the journal verifiable. -/
namespace Sippycup.Journal
open Sippycup.Python Sippycup.Ip

/-- A line after a journal that verifies is read as the journal and then the line. -/
theorem readJournal_append {journal bytes : List Nat} {entry : Entry} {read : Verification}
    (verified : readJournal journal = .ok read)
    (fits : Acceptable entry (read.entries.length + 1) read.finalSha256)
    (text : canonical (document entry) = .ok bytes) (small : bytes.length + 1 ≤ maxEntryBytes)
    (whole : journal.length + (bytes.length + 1) ≤ maxJournalBytes) (room : read.entries.length < maxEntries) :
    readJournal (journal ++ (bytes ++ [newline])) =
      .ok ⟨read.entries ++ [entry], some entry.entrySha256⟩ := by
  obtain ⟨codes, decoded, ok⟩ := bind_ok.mp verified
  obtain ⟨⟨total, last⟩, run, same⟩ := bind_ok.mp ok
  obtain rfl := pure_ok.mp same
  unfold readText TextFile.read? at decoded
  split at decoded
  case h_2 => cases decoded
  rename_i found
  cases decoded
  obtain ⟨plain, decoded, rfl⟩ := Option.map_eq_some_iff.mp found
  obtain ⟨sized, ended⟩ := verifyLines_size run
  -- the text of the line, without a line end inside
  have raw := canonicalRaw_document fits.sequence
  have printable : Printable (JsonValue.dict (document entry)).canonicalRaw :=
    raw ▸ printable_dumpsRaw _
  obtain ⟨rest, brace⟩ := canonicalRaw_brace (document entry)
  have line : Utf8.decode? (bytes ++ [newline]) = some (lineOf (document entry)).codes :=
    Utf8.decode?_of_encode? (encode?_newline (canonical_ok text))
  have start : (lineOf (document entry)).codes.head? ≠ some 10 := by
    rw [lineOf, brace]
    exact fun same => absurd (Option.some.inj same) (by decide)
  have kept : TextFile.newlines false (lineOf (document entry)).codes = (lineOf (document entry)).codes := by
    refine TextFile.newlines_plain (List.forall_mem_append.mpr ⟨fun code member => ?_, by decide⟩)
    have visible := printable code member
    omega
  have single : TextFile.lines (lineOf (document entry)).codes = [(lineOf (document entry)).codes] := by
    refine TextFile.lines_single fun code member => ?_
    have visible := printable code member
    omega
  have content : readText (journal ++ (bytes ++ [newline])) =
      .ok (TextFile.newlines false plain ++ (lineOf (document entry)).codes) := by
    rw [readText, TextFile.read?, Utf8.decode?_append decoded, line, Option.map_some, Option.map_some,
      TextFile.newlines_append start, kept]
  have split : TextFile.lines (TextFile.newlines false plain ++ (lineOf (document entry)).codes) =
      TextFile.lines (TextFile.newlines false plain) ++ [(lineOf (document entry)).codes] := by
    rw [TextFile.lines_append _ fun l member => ended ⟨l⟩ (List.mem_map_of_mem member), single]
  have bounded : total ≤ journal.length := by
    have texts : ((TextFile.lines (TextFile.newlines false plain)).map Text.mk).map Text.codes =
        TextFile.lines (TextFile.newlines false plain) := by
      rw [List.map_map]
      exact List.map_id _
    rw [sized, texts, TextFile.lines_flatten, Utf8.decode?_length decoded, Nat.zero_add]
    exact TextFile.newlines_size plain false
  rw [readJournal, content, ok_bind, split, List.map_append, verifyStream, verifyLines_append, run, ok_bind]
  dsimp only
  rw [List.map_cons, List.map_nil, verifyLines,
    verifyLine_written fits text small (Nat.le_trans (Nat.add_le_add_right bounded _) whole) room]
  rfl

section stamps

theorem length_padded (width n : Nat) : (padded width n).length = width := by
  induction width generalizing n with
  | zero => rfl
  | succ width ih => rw [padded, List.length_append, ih, List.length_singleton]

theorem padded_digits (width n : Nat) : ∀ code ∈ padded width n, 48 ≤ code := by
  induction width generalizing n with
  | zero => exact nofun
  | succ width ih =>
    rw [padded, List.forall_mem_append]
    exact ⟨ih _, List.forall_mem_singleton.mpr (Nat.le_add_right _ _)⟩

theorem utcNow_accepted (now : Instant) :
    validateText "recordedAt" (.str (utcNow now)) 64 false = .ok (utcNow now) := by
  have visible : (utcNow now).strip.codes.isEmpty = false := by
    have digit : ∀ d < 10, Text.isSpace (48 + d) = false := by decide
    obtain ⟨code, rest, year, shown⟩ : ∃ code rest, padded 4 now.year = code :: rest ∧ Text.isSpace code = false :=
      ⟨_, _, rfl, digit _ (Nat.mod_lt _ (by decide))⟩
    simp only [utcNow, year, List.cons_append]
    exact strip_visible shown
  have nul : 0 ∉ (utcNow now).codes := by
    have printed : ∀ code ∈ (utcNow now).codes, 45 ≤ code := by
      have digits (width n : Nat) : ∀ code ∈ padded width n, 45 ≤ code := fun code member =>
        Nat.le_trans (by decide) (padded_digits width n code member)
      simp only [utcNow, List.forall_mem_append, List.forall_mem_singleton]
      repeat' apply And.intro
      all_goals first | exact digits _ _ | decide
    intro member
    exact absurd (printed 0 member) (by decide)
  have short : (utcNow now).length = 27 := by
    simp only [utcNow, Text.length, List.length_append, length_padded, List.length_singleton]
  rw [validateText, visible, if_neg (by simp), if_neg nul, short, if_neg (by decide)]

theorem validateText_again {name : String} {value : JsonValue} {maximum : Nat} {empty : Bool} {t : Text}
    (ok : validateText name value maximum empty = .ok t) : validateText name (.str t) maximum empty = .ok t :=
  validateText_ok ok ▸ ok

/-- Whether the verifier takes what `recorded_at` gives. -/
def stampFits (recordedAt : Option Text) : Bool :=
  match recordedAt with
  | some t => t.codes.isEmpty || (validateText "recordedAt" (.str t) 64 false).isOk
  | none => true

theorem recorded_accepted {recordedAt : Option Text} (fits : stampFits recordedAt = true) (now : Instant) :
    validateText "recordedAt" (.str (recorded recordedAt now)) 64 false = .ok (recorded recordedAt now) := by
  cases recordedAt with
  | none => exact utcNow_accepted now
  | some t =>
    rw [recorded]
    split
    · exact utcNow_accepted now
    · rename_i given
      rw [stampFits, Bool.or_eq_true, or_iff_right given] at fits
      obtain ⟨u, accepted⟩ := isOk_iff.mp fits
      cases validateText_ok accepted
      exact accepted

end stamps

theorem readArgumentKind_ok {t : Text} {kind : Kind} (ok : readArgumentKind t = .ok kind) :
    kindNamed? kind.name = some kind := by
  unfold readArgumentKind at ok
  split at ok
  · rename_i named
    cases ok
    rw [← kindNamed?_some named, named]
  · cases ok

theorem safe_references {given read : List Text}
    (safe : List.Forall₂ (fun t u => safeReference t = .ok u) given read) :
    ∀ t ∈ read, (safeReference t).isOk = true := by
  induction safe with
  | nil => exact nofun
  | cons one _ ih =>
    obtain rfl := safeReference_ok one
    exact List.forall_mem_cons.mpr ⟨isOk_iff.mpr ⟨_, one⟩, ih⟩

/-- What the checked arguments make is accepted, once its time is. -/
theorem compose_acceptable {a : Arguments} {d : Draft} {stamp : Text} {read : Verification} {entry : Entry}
    (checked : draft a = .ok d) (stamped : validateText "recordedAt" (.str stamp) 64 false = .ok stamp)
    (composed : compose d stamp read = .ok entry) :
    Acceptable entry (read.entries.length + 1) read.finalSha256 := by
  obtain ⟨digest, signed, same⟩ := bind_ok.mp composed
  obtain rfl := pure_ok.mp same
  obtain ⟨kind, named, checked⟩ := bind_ok.mp checked
  obtain ⟨summary, summarized, checked⟩ := bind_ok.mp checked
  obtain ⟨detail, detailed, checked⟩ := bind_ok.mp checked
  obtain ⟨references, safe, checked⟩ := bind_ok.mp checked
  dsimp only at checked
  split at checked
  · cases checked
  rename_i few
  split at checked
  · cases checked
  rename_i tagged
  obtain rfl := pure_ok.mp checked
  rw [not_or, Nat.not_lt, Bool.not_eq_true, Bool.not_eq_false'] at tagged
  have each := safe_references (mapM_ok safe)
  exact {
    sequence := rfl
    recordedAt := stamped
    kind := readArgumentKind_ok named
    summary := validateText_again summarized
    detail := validateText_again detailed
    references := Nat.le_of_not_lt few
    evidence := sortTexts_dedup references
    safe := fun t member => each t (mem_sortTexts.1 member)
    identifiers := tagged.1
    tags := sortTexts_dedup a.tags
    tagged := tagged.2
    previous := rfl
    digest := signed }

/-- What one append leaves of a journal that reads as `read`. -/
def Kept (read : Verification) : Result Entry × Engagement → Prop
  | (.ok entry, after) => verify after = .ok ⟨read.entries ++ [entry], some entry.entrySha256⟩
  | (.error _, after) => ∃ later, verify after = .ok later ∧ read.entries <+: later.entries

/-- Every append of a run keeps the journal it finds. -/
def EachKept : Engagement → List Call → Prop
  | _, [] => True
  | before, call :: rest =>
    (∃ read, verify before = .ok read ∧ Kept read (append before call)) ∧
      EachKept (append before call).2 rest

/-- Whether the line is not written at all, and the append raises. -/
def Written.nothing : Written → Bool
  | .refused _ => true
  | .wrote count unsynced => decide (count = 0) && unsynced.isSome

def Written.whole (size : Nat) : Written → Bool
  | .refused _ => false
  | .wrote count _ => decide (size ≤ count)

/-- An append that gets to the write has a time the verifier takes and room for one more
entry, and all of its line is written. -/
def Met (before : Engagement) (call : Call) : Prop :=
  ∀ entry line read, prepare before call = .ok (entry, line) → readJournal before.journal = .ok read →
    call.written.nothing = true ∨ (stampFits call.arguments.recordedAt = true ∧
      read.entries.length < maxEntries ∧ call.written.whole line.length = true)

def EachMet : Engagement → List Call → Prop
  | _, [] => True
  | before, call :: rest => Met before call ∧ EachMet (append before call).2 rest

theorem prepare_ok {before : Engagement} {call : Call} {entry : Entry} {line : List Nat}
    (ok : prepare before call = .ok (entry, line)) :
    ∃ d read bytes, draft call.arguments = .ok d ∧ readJournal before.journal = .ok read ∧
      compose d (recorded call.arguments.recordedAt call.now) read = .ok entry ∧
      canonical (document entry) = .ok bytes ∧ line = bytes ++ [newline] ∧ line.length ≤ maxEntryBytes ∧
      before.journal.length + line.length ≤ maxJournalBytes := by
  obtain ⟨-, -, ok⟩ := bind_ok.mp ok
  obtain ⟨-, -, ok⟩ := bind_ok.mp ok
  obtain ⟨d, checked, ok⟩ := bind_ok.mp ok
  obtain ⟨-, -, ok⟩ := bind_ok.mp ok
  obtain ⟨read, verified, ok⟩ := bind_ok.mp ok
  obtain ⟨composed, made, ok⟩ := bind_ok.mp ok
  obtain ⟨bytes, text, ok⟩ := bind_ok.mp ok
  dsimp only at ok
  split at ok
  · cases ok
  rename_i small
  split at ok
  · cases ok
  rename_i whole
  cases ok
  exact ⟨d, read, bytes, checked, verified, made, text, rfl, Nat.le_of_not_lt small, Nat.le_of_not_lt whole⟩

theorem append_kept {before : Engagement} {call : Call} {read : Verification}
    (verified : verify before = .ok read) (met : Met before call) : Kept read (append before call) := by
  obtain ⟨⟨⟩, loaded, verified⟩ := bind_ok.mp verified
  have unchanged (e : Raised JournalError) : Kept read (.error e, before) :=
    ⟨read, by rw [verify, loaded]; exact verified, List.prefix_refl _⟩
  unfold append
  cases prepared : prepare before call with
  | error e => exact unchanged e
  | ok pair =>
    obtain ⟨entry, line⟩ := pair
    obtain ⟨d, found, bytes, checked, same, composed, text, rfl, small, room⟩ := prepare_ok prepared
    obtain rfl : read = found := Except.ok.inj (verified.symm.trans same)
    rcases met entry _ read prepared verified with nothing | ⟨stamped, few, whole⟩
    · cases outcome : call.written with
      | refused reason => exact unchanged _
      | wrote count unsynced =>
        rw [outcome, Written.nothing, Bool.and_eq_true, decide_eq_true_eq] at nothing
        obtain ⟨rfl, failed⟩ := nothing
        obtain ⟨reason, rfl⟩ := Option.isSome_iff_exists.mp failed
        simp only [List.take_zero, List.append_nil]
        exact unchanged _
    · cases outcome : call.written with
      | refused reason => exact unchanged _
      | wrote count unsynced =>
        rw [outcome, Written.whole, decide_eq_true_eq] at whole
        rw [List.length_append, List.length_singleton] at small room
        have fits := compose_acceptable checked (recorded_accepted stamped call.now) composed
        have later := readJournal_append verified fits text small room few
        have accepted : verify { before with journal := before.journal ++ (bytes ++ [newline]) } =
            .ok ⟨read.entries ++ [entry], some entry.entrySha256⟩ := by
          change (loadMetadata before >>= fun _ => readJournal _) = _
          rw [loaded]
          exact later
        simp only [List.take_of_length_le whole]
        cases unsynced with
        | none => exact accepted
        | some reason => exact ⟨_, accepted, List.prefix_append _ _⟩

theorem verify_append {before : Engagement} {call : Call} {read : Verification}
    (kept : Kept read (append before call)) : ∃ later, verify (append before call).2 = .ok later := by
  cases run : append before call with
  | mk result after =>
    rw [run] at kept
    cases result with
    | ok entry => exact ⟨_, kept⟩
    | error e =>
      obtain ⟨later, verified, -⟩ := kept
      exact ⟨later, verified⟩

/-- A run of appends that all meet the condition keeps the journal verifiable throughout. -/
theorem appends_keep_journal (before : Engagement) (calls : List Call) (read : Verification)
    (verified : verify before = .ok read) (met : EachMet before calls) : EachKept before calls := by
  induction calls generalizing before read with
  | nil => exact trivial
  | cons call rest ih =>
    have kept := append_kept verified met.1
    obtain ⟨later, verified'⟩ := verify_append kept
    exact ⟨⟨read, verified, kept⟩, ih _ later verified' met.2⟩

theorem not_kept_of_refused {before : Engagement} {call : Call}
    (returned : (append before call).1.isOk = true) (refused : (verify (append before call).2).isOk = false) :
    ¬ ∃ read, verify before = .ok read ∧ Kept read (append before call) := by
  rintro ⟨read, -, kept⟩
  cases run : append before call with
  | mk result after =>
    rw [run] at returned refused kept
    obtain ⟨entry, rfl⟩ := isOk_iff.mp returned
    rw [show verify after = _ from kept] at refused
    cases refused

/-- A new engagement, with an empty journal. -/
def opening : Engagement where
  metadata := (Text.ofString ("\x7b\"apiVersion\": \"sippycup.dev/engagement/v1\", " ++
    "\"confidentiality\": \"private\", \"createdAt\": \"2026-01-01T00:00:00.000000Z\", " ++
    "\"journal\": \"journal.jsonl\", \"kind\": \"AssessmentEngagement\", \"owner\": \"lab\", " ++
    "\"title\": \"trial\"\x7d\n")).codes
  journal := []

def noteCall (recordedAt : Option Text) : Call where
  arguments := {
    kind := "note", summary := "Opened.", detail := "", evidence := [], tags := [], recordedAt }
  now := ⟨2026, 1, 1, 0, 0, 0, 0⟩
  directory := .ok ()
  opened := .ok ()
  written := .wrote maxEntryBytes none

theorem ofString_append (a b : String) : Text.ofString (a ++ b) = Text.ofString a ++ Text.ofString b := by
  rw [Text.ofString, String.toList_append, List.map_append]
  rfl

theorem opening_loads : loadMetadata opening = .ok () := by
  have loaded : (loadMetadata opening).isOk = true := by
    unfold loadMetadata opening
    simp only [ofString_append]
    decide +kernel
  obtain ⟨_, loaded⟩ := isOk_iff.mp loaded
  exact loaded

theorem loadMetadata_journal (e : Engagement) (journal : List Nat) :
    loadMetadata ⟨e.metadata, journal⟩ = loadMetadata e := rfl

theorem opening_verified : verify opening = .ok .empty := by
  rw [verify, opening_loads]
  rfl

theorem note_keeps_journal : EachKept opening [noteCall none] := by
  refine appends_keep_journal opening [noteCall none] .empty opening_verified ⟨?_, trivial⟩
  intro entry line read prepared verified
  obtain ⟨_, _, _, _, _, _, _, _, small, _⟩ := prepare_ok prepared
  obtain rfl := Except.ok.inj (show Except.ok Verification.empty = .ok read from verified)
  exact .inr ⟨rfl, by decide, decide_eq_true small⟩

/-- A time of one blank is recorded, and nothing verifies afterwards. -/
theorem blank_time_breaks_journal : ¬ ∀ before calls read, verify before = .ok read →
    EachKept before calls := by
  intro kept
  have prepares : (prepare opening (noteCall (some " "))).isOk = true := by
    unfold prepare compose entryDigest
    rw [opening_loads, Sha256.sha256Hex_unrolled]
    decide +kernel
  have rejects : ((prepare opening (noteCall (some " "))).bind fun prepared =>
      readJournal (prepared.2.take maxEntryBytes)).isOk = false := by
    unfold prepare compose entryDigest
    rw [opening_loads, Sha256.sha256Hex_unrolled]
    decide +kernel
  obtain ⟨⟨entry, encoded⟩, prepared⟩ := isOk_iff.mp prepares
  rw [prepared] at rejects
  have returned : (append opening (noteCall (some " "))).1.isOk = true := by
    rw [append, prepared]
    rfl
  have refused : (verify (append opening (noteCall (some " "))).2).isOk = false := by
    rw [append, prepared]
    change (verify ⟨opening.metadata, [] ++ encoded.take maxEntryBytes⟩).isOk = false
    rw [verify, loadMetadata_journal, opening_loads]
    exact rejects
  exact not_kept_of_refused returned refused (kept opening [noteCall (some " ")] .empty opening_verified).1

end Sippycup.Journal
