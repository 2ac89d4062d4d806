import Sippycup.Journal.Append

/-! The line that an append writes reads back as its entry. -/
namespace Sippycup.Journal
open Sippycup.Python Sippycup.Ip

section printable

/-- Text without control characters. -/
def Printable (codes : Codes) : Prop := ∀ code ∈ codes, 32 ≤ code

theorem Printable.append {xs ys : Codes} (left : Printable xs) (right : Printable ys) :
    Printable (xs ++ ys) := List.forall_mem_append.mpr ⟨left, right⟩

theorem Printable.cons {code : Nat} {codes : Codes} (first : 32 ≤ code) (others : Printable codes) :
    Printable (code :: codes) := List.forall_mem_cons.mpr ⟨first, others⟩

theorem printable_nil : Printable [] := nofun

theorem printable_intercalate {parts : List Codes} (each : ∀ part ∈ parts, Printable part) :
    Printable (Json.comma.intercalate parts) := by
  cases parts with
  | nil => exact printable_nil
  | cons first rest =>
    obtain ⟨head, others⟩ := List.forall_mem_cons.mp each
    rw [JsonText.intercalate_comma]
    refine head.append fun code member => ?_
    obtain ⟨part, listed, inside⟩ := List.mem_flatMap.mp member
    exact (others part listed).cons (by decide : 32 ≤ 44) code inside

theorem printable_escapeRaw (code : Nat) : Printable (Json.escapeRaw code) := by
  have named : ∀ code < 93, ∀ c ∈ Json.escapeRaw code, 32 ≤ c := by decide
  by_cases small : code < 93
  · exact named code small
  · have plain : Json.escapeRaw code = [code] := by
      unfold Json.escapeRaw
      repeat rw [if_neg (by omega)]
    rw [plain]
    exact printable_nil.cons (by omega)

theorem printable_encodeRaw (t : Text) : Printable (Json.encodeRaw t) := by
  refine (Printable.append (printable_nil.cons (by decide)) fun code member => ?_).append
    (printable_nil.cons (by decide))
  obtain ⟨c, -, inside⟩ := List.mem_flatMap.mp member
  exact printable_escapeRaw c code inside

theorem printable_number {codes : Codes} (number : ∀ c ∈ codes, JsonText.isNumberCode c = true) :
    Printable codes := by
  intro code member
  have one := number code member
  simp only [JsonText.isNumberCode, Bool.or_eq_true, isDigit, decide_eq_true_eq, List.contains_eq_mem,
    List.mem_cons, minus, plus, dot, exponentMark, List.not_mem_nil, or_false] at one
  omega

mutual
theorem printable_dumpsRaw : ∀ v : JsonValue, Printable v.dumpsRaw
  | .null => show ∀ code ∈ Json.ascii "null", 32 ≤ code by decide
  | .bool b => show ∀ code ∈ Json.encodeBool b, 32 ≤ code by cases b <;> decide
  | .int n => printable_number fun c member => JsonText.finite_number (JsonText.intCodes_finite n) c member
  | .float x => printable_number (JsonText.floatCodes_number x)
  | .str t => printable_encodeRaw t
  | .list items =>
    ((printable_intercalate (printable_items items)).append (printable_nil.cons (by decide))).cons (by decide)
  | .dict entries =>
    ((printable_intercalate (printable_entries entries)).append (printable_nil.cons (by decide))).cons
      (by decide)

theorem printable_items : ∀ items : List JsonValue, ∀ part ∈ JsonValue.dumpRawItems items, Printable part
  | [] => nofun
  | item :: rest => List.forall_mem_cons.mpr ⟨printable_dumpsRaw item, printable_items rest⟩

theorem printable_entries : ∀ entries : List (Text × JsonValue),
    ∀ part ∈ JsonValue.dumpRawEntries entries, Printable part
  | [] => nofun
  | (key, value) :: rest => List.forall_mem_cons.mpr
    ⟨(printable_encodeRaw key).append ((printable_dumpsRaw value).cons (by decide)), printable_entries rest⟩
end

end printable

section documents

def sortedUnsigned (entry : Entry) : JsonDict :=
  [("apiVersion", .str entryVersion), ("detail", .str entry.detail),
    ("evidence", .list (entry.evidence.map .str)), ("kind", .str entry.kind.name),
    ("previousSha256", textOrNull entry.previousSha256), ("recordedAt", .str entry.recordedAt),
    ("sequence", entry.sequence), ("summary", .str entry.summary), ("tags", .list (entry.tags.map .str))]

/-- The document as it is written and read back. -/
def sortedDocument (entry : Entry) : JsonDict :=
  [("apiVersion", .str entryVersion), ("detail", .str entry.detail),
    ("entrySha256", .str entry.entrySha256),
    ("evidence", .list (entry.evidence.map .str)), ("kind", .str entry.kind.name),
    ("previousSha256", textOrNull entry.previousSha256), ("recordedAt", .str entry.recordedAt),
    ("sequence", entry.sequence), ("summary", .str entry.summary), ("tags", .list (entry.tags.map .str))]

theorem sortItems_texts (texts : List Text) : JsonValue.sortItems (texts.map .str) = texts.map .str := by
  induction texts with
  | nil => rfl
  | cons t rest ih =>
    have self : (JsonValue.str t).sortKeys = .str t := rfl
    rw [List.map_cons, JsonValue.sortItems, ih, self]

theorem sortKeys_textOrNull (t : Option Text) : (textOrNull t).sortKeys = textOrNull t := by
  cases t <;> rfl

variable {entry : Entry} {n : Int}

theorem sortKeys_unsigned (numbered : entry.sequence = .int n) :
    (JsonValue.dict (unsigned entry)).sortKeys = .dict (sortedUnsigned entry) := by
  have each : JsonValue.sortEach (unsigned entry) = unsigned entry := by
    simp [unsigned, JsonValue.sortEach, JsonValue.sortKeys, sortItems_texts, sortKeys_textOrNull, numbered]
  rw [JsonValue.sortKeys, each]
  rfl

theorem sortKeys_sortedUnsigned (numbered : entry.sequence = .int n) :
    (JsonValue.dict (sortedUnsigned entry)).sortKeys = .dict (sortedUnsigned entry) := by
  have each : JsonValue.sortEach (sortedUnsigned entry) = sortedUnsigned entry := by
    simp [sortedUnsigned, JsonValue.sortEach, JsonValue.sortKeys, sortItems_texts, sortKeys_textOrNull,
      numbered]
  rw [JsonValue.sortKeys, each]
  rfl

theorem sortKeys_document (numbered : entry.sequence = .int n) :
    (JsonValue.dict (document entry)).sortKeys = .dict (sortedDocument entry) := by
  have each : JsonValue.sortEach (document entry) = document entry := by
    simp [document, unsigned, JsonDict.entry, JsonValue.sortEach, JsonValue.sortKeys, sortItems_texts,
      sortKeys_textOrNull, numbered]
  rw [JsonValue.sortKeys, each]
  rfl

/-- The digest does not depend on the order of the fields, nor on the digest itself. -/
theorem entryDigest_sorted (numbered : entry.sequence = .int n) :
    entryDigest (sortedDocument entry) = entryDigest (unsigned entry) := by
  have first : material (sortedDocument entry) = sortedUnsigned entry := rfl
  have second : material (unsigned entry) = unsigned entry := rfl
  rw [entryDigest, entryDigest, first, second, canonical, canonical, JsonValue.canonicalRaw,
    JsonValue.canonicalRaw, sortKeys_unsigned numbered, sortKeys_sortedUnsigned numbered]

theorem plainItems_texts (texts : List Text) : JsonValue.PlainItems (texts.map .str) := by
  induction texts with
  | nil => exact trivial
  | cons t rest ih => exact ⟨trivial, ih⟩

theorem plain_textOrNull (t : Option Text) : (textOrNull t).Plain := by cases t <;> exact trivial

theorem plain_document (numbered : entry.sequence = .int n) (short : n.natAbs < 10 ^ Json.maxStrDigits) :
    (JsonValue.dict (sortedDocument entry)).Plain := by
  have distinct : (JsonDict.keys (sortedDocument entry)).Nodup := by
    change (["apiVersion", "detail", "entrySha256", "evidence", "kind", "previousSha256", "recordedAt",
      "sequence", "summary", "tags"].map Text.ofString).Nodup
    decide
  refine ⟨distinct, trivial, trivial, trivial, plainItems_texts _, trivial, plain_textOrNull _, trivial, ?_,
    trivial, plainItems_texts _, trivial⟩
  rw [numbered]
  exact short

end documents

section fields

theorem sortTexts_dedup (texts : List Text) :
    (sortTexts texts.dedup) = sortTexts (sortTexts texts.dedup).dedup := by
  have perm : (sortTexts texts.dedup).Perm texts.dedup := List.perm_insertionSort _ _
  have distinct : (sortTexts texts.dedup).Nodup := perm.nodup_iff.mpr (List.nodup_dedup texts)
  rw [distinct.dedup]
  exact (sortTexts_eq_of_perm perm).symm

theorem mem_sortTexts {texts : List Text} {t : Text} : t ∈ sortTexts texts.dedup ↔ t ∈ texts :=
  (List.perm_insertionSort _ _).mem_iff.trans List.mem_dedup

theorem mapM_text? (texts : List Text) : (texts.map JsonValue.str).mapM JsonValue.text? = some texts := by
  induction texts with
  | nil => rfl
  | cons t rest ih =>
    rw [List.map_cons, List.mapM_cons, ih]
    rfl

/-- A sorted set of texts is read back as it is. -/
theorem sortedTexts_self {texts : List Text} (sorted : texts = sortTexts texts.dedup)
    (unsorted untyped : String) : sortedTexts (texts.map .str) unsorted untyped = .ok texts := by
  have hashed : ((texts.map JsonValue.str).any fun item => !item.hashable) = false := by
    rw [List.any_map, List.any_eq_false]
    exact fun t _ => Bool.false_ne_true
  rw [sortedTexts, hashed, if_neg Bool.false_ne_true, mapM_text?]
  exact if_pos sorted

theorem checkReferences_ok {references : List Text} (safe : ∀ t ∈ references, (safeReference t).isOk = true) :
    checkReferences references = .ok () := by
  induction references with
  | nil => rfl
  | cons t rest ih =>
    obtain ⟨first, others⟩ := List.forall_mem_cons.mp safe
    obtain ⟨u, read⟩ := isOk_iff.mp first
    rw [checkReferences, read]
    exact ih others

theorem safeReference_ok {t u : Text} (ok : safeReference t = .ok u) : u = t := by
  obtain ⟨_, -, ok⟩ := bind_ok.mp ok
  split at ok
  · exact (pure_ok.mp ok).symm
  · cases ok

/-- What a checked entry must satisfy to be accepted in its place. -/
structure Acceptable (entry : Entry) (expected : Nat) (previous : Option Text) : Prop where
  sequence : entry.sequence = .int expected
  recordedAt : validateText "recordedAt" (.str entry.recordedAt) 64 false = .ok entry.recordedAt
  kind : kindNamed? entry.kind.name = some entry.kind
  summary : validateText "summary" (.str entry.summary) maxSummaryChars false = .ok entry.summary
  detail : validateText "detail" (.str entry.detail) maxDetailChars true = .ok entry.detail
  references : entry.evidence.length ≤ maxReferences
  evidence : entry.evidence = sortTexts entry.evidence.dedup
  safe : ∀ t ∈ entry.evidence, (safeReference t).isOk = true
  identifiers : entry.tags.length ≤ maxTags
  tags : entry.tags = sortTexts entry.tags.dedup
  tagged : entry.tags.all isTag = true
  previous : entry.previousSha256 = previous
  digest : entryDigest (unsigned entry) = .ok entry.entrySha256

theorem boundedList_some {items : List JsonValue} {maximum : Nat} (short : items.length ≤ maximum)
    (message : String) : boundedList (.list items) maximum message = .ok items :=
  if_neg (Nat.not_lt.2 short)

theorem readDigest_ok {digest : Text} (ok : sha256Ok digest = true) (expected : Nat) :
    readDigest (.str digest) expected = .ok digest := if_pos ok

/-- An acceptable entry is read back from its document. -/
theorem validateFields_sorted {entry : Entry} {expected : Nat} {previous : Option Text}
    (fits : Acceptable entry expected previous) :
    validateFields (sortedDocument entry) expected previous = .ok entry := by
  obtain ⟨bytes, -, hashed⟩ := entryDigest_ok fits.digest
  have signed : sha256Ok entry.entrySha256 = true := hashed ▸ sha256Hex_ok bytes
  have keys : keysAre (sortedDocument entry) entryKeys = true := rfl
  have version : (sortedDocument entry).find "apiVersion" = .str entryVersion := rfl
  have sequence : (sortedDocument entry).find "sequence" = entry.sequence := rfl
  have recordedAt : (sortedDocument entry).find "recordedAt" = .str entry.recordedAt := rfl
  have kind : (sortedDocument entry).find "kind" = .str entry.kind.name := rfl
  have summary : (sortedDocument entry).find "summary" = .str entry.summary := rfl
  have detail : (sortedDocument entry).find "detail" = .str entry.detail := rfl
  have evidence : (sortedDocument entry).find "evidence" = .list (entry.evidence.map .str) := rfl
  have tags : (sortedDocument entry).find "tags" = .list (entry.tags.map .str) := rfl
  have linked : (sortedDocument entry).find "previousSha256" = textOrNull entry.previousSha256 := rfl
  have digest : (sortedDocument entry).find "entrySha256" = .str entry.entrySha256 := rfl
  have numbered : (JsonValue.int expected).eq (.int expected) = true := by
    simp [JsonValue.eq, JsonValue.scalarEq, JsonValue.number?]
  have same : readPrevious (textOrNull entry.previousSha256) previous = true :=
    readPrevious_iff.2 (fits.previous ▸ rfl)
  have named : readKind (.str entry.kind.name) expected = .ok entry.kind := by
    rw [readKind, fits.kind]
  rw [validateFields, keys, version, sequence, recordedAt, kind, summary, detail, evidence, tags, linked,
    digest, fits.sequence, numbered, fits.recordedAt, named, fits.summary, fits.detail, ok_bind, ok_bind,
    ok_bind, ok_bind, boundedList_some (by simpa using fits.references), ok_bind,
    sortedTexts_self fits.evidence, ok_bind, checkReferences_ok fits.safe, ok_bind,
    boundedList_some (by simpa using fits.identifiers), ok_bind, sortedTexts_self fits.tags, ok_bind,
    fits.tagged, same, readDigest_ok signed, ok_bind, entryDigest_sorted fits.sequence, fits.digest, ok_bind]
  have stated : entry = { entry with sequence := .int expected, previousSha256 := previous } := by
    rw [← fits.sequence, ← fits.previous]
  have versioned : (JsonValue.str entryVersion).isText entryVersion = true := JsonValue.isText_iff.2 rfl
  rw [versioned]
  simp only [Bool.not_true, Bool.false_eq_true, if_false, if_true]
  exact congrArg Except.ok stated.symm

end fields

section lines

theorem canonicalRaw_document {entry : Entry} {n : Int} (numbered : entry.sequence = .int n) :
    (JsonValue.dict (document entry)).canonicalRaw = (JsonValue.dict (sortedDocument entry)).dumpsRaw := by
  rw [JsonValue.canonicalRaw, sortKeys_document numbered]

theorem canonicalRaw_brace (d : JsonDict) : ∃ rest, (JsonValue.dict d).canonicalRaw = 123 :: rest := by
  rw [JsonValue.canonicalRaw, JsonValue.sortKeys, JsonValue.dumpsRaw]
  exact ⟨_, rfl⟩

theorem strip_visible {code : Nat} {rest : Codes} (visible : Text.isSpace code = false) :
    (Text.strip ⟨code :: rest⟩).codes.isEmpty = false := by
  rw [Text.strip, List.dropWhile_cons_of_neg (by rw [visible]; exact Bool.false_ne_true),
    List.isEmpty_eq_false_iff]
  intro nothing
  have blank := List.rdropWhile_eq_nil_iff.mp nothing code List.mem_cons_self
  rw [visible] at blank
  cases blank

theorem encode?_newline {codes : Codes} {bytes : List Nat} (encoded : Utf8.encode? codes = some bytes) :
    Utf8.encode? (codes ++ [newline]) = some (bytes ++ [newline]) := by
  obtain ⟨scalars, rfl⟩ := Utf8.encode?_some.mp encoded
  refine Utf8.encode?_some.mpr ⟨List.forall_mem_append.mpr ⟨scalars, by decide⟩, ?_⟩
  rw [List.flatMap_append]
  rfl

theorem loadLine_written {entry : Entry} {n : Int} (numbered : entry.sequence = .int n)
    (short : n.natAbs < 10 ^ Json.maxStrDigits) (number : Nat) :
    loadLine Json.loads number (lineOf (document entry)) = .ok (.dict (sortedDocument entry)) := by
  have blank : Json.Blank [newline] := List.forall_mem_singleton.mpr rfl
  rw [loadLine, lineOf, canonicalRaw_document numbered, JsonValue.loads_dumpsRaw (plain_document numbered short)
    blank]

/-- The line of an acceptable entry verifies, where it fits. -/
theorem verifyLine_written {entry : Entry} {read : Verification} {total : Nat} {bytes : List Nat}
    (fits : Acceptable entry (read.entries.length + 1) read.finalSha256)
    (text : canonical (document entry) = .ok bytes) (small : bytes.length + 1 ≤ maxEntryBytes)
    (whole : total + (bytes.length + 1) ≤ maxJournalBytes) (room : read.entries.length < maxEntries) :
    verifyLine Json.loads total read (lineOf (document entry)) =
      .ok (total + (bytes.length + 1), ⟨read.entries ++ [entry], some entry.entrySha256⟩) := by
  have size : encodedSize (lineOf (document entry)) = .ok (bytes.length + 1) := by
    rw [encodedSize, lineOf, encode?_newline (canonical_ok text)]
    exact congrArg Except.ok (List.length_append.trans rfl)
  have ended : (lineOf (document entry)).codes.getLast? = some newline := List.getLast?_concat
  have visible : (lineOf (document entry)).strip.codes.isEmpty = false := by
    obtain ⟨rest, brace⟩ := canonicalRaw_brace (document entry)
    rw [lineOf, brace, List.cons_append]
    exact strip_visible (by decide)
  have short : ((read.entries.length + 1 : Nat) : Int).natAbs < 10 ^ Json.maxStrDigits := by
    rw [Int.natAbs_natCast]
    calc read.entries.length + 1 ≤ 10 ^ 5 := room
      _ < 10 ^ Json.maxStrDigits := Nat.pow_lt_pow_right (by decide) (by decide)
  rw [verifyLine, size, ok_bind, if_neg (Nat.not_lt.2 whole), if_neg (Nat.not_lt.2 small),
    if_neg (not_not.mpr ended), visible, if_neg Bool.false_ne_true, if_neg (Nat.not_le.mpr room),
    loadLine_written fits.sequence short, ok_bind, validateEntry, validateFields_sorted fits]
  rfl

theorem verifyLine_size {loads : Loads} {total size : Nat} {read next : Verification} {line : Text}
    (ok : verifyLine loads total read line = .ok (size, next)) :
    size = total + (line.codes.flatMap Utf8.encodeCode).length ∧ line.codes.getLast? = some newline := by
  obtain ⟨lineSize, sized, ok⟩ := bind_ok.mp ok
  split at ok
  · cases ok
  split at ok
  · cases ok
  split at ok
  · cases ok
  rename_i ended
  split at ok
  · cases ok
  split at ok
  · cases ok
  simp only [bind_ok, pure_ok, Prod.mk.injEq] at ok
  obtain ⟨value, -, entry, -, rfl, -⟩ := ok
  refine ⟨?_, not_not.mp ended⟩
  unfold encodedSize at sized
  split at sized
  · rename_i bytes encoded
    cases sized
    rw [(Utf8.encode?_some.mp encoded).2]
  · cases sized

theorem verifyLines_size {loads : Loads} {total size : Nat} {read last : Verification} {lines : List Text}
    (ok : verifyLines loads total read lines = .ok (size, last)) :
    size = total + ((lines.map Text.codes).flatten.flatMap Utf8.encodeCode).length ∧
      ∀ line ∈ lines, line.codes.getLast? = some newline := by
  induction lines generalizing total read with
  | nil =>
    cases ok
    exact ⟨rfl, nofun⟩
  | cons line rest ih =>
    obtain ⟨⟨middle, next⟩, first, ok⟩ := bind_ok.mp ok
    obtain ⟨rfl, ended⟩ := verifyLine_size first
    obtain ⟨rfl, others⟩ := ih ok
    refine ⟨?_, List.forall_mem_cons.mpr ⟨ended, others⟩⟩
    rw [List.map_cons, List.flatten_cons, List.flatMap_append, List.length_append, Nat.add_assoc]

theorem verifyLines_append {loads : Loads} {total : Nat} {read : Verification} (lines more : List Text) :
    verifyLines loads total read (lines ++ more) = (do
      let (size, last) ← verifyLines loads total read lines
      verifyLines loads size last more) := by
  induction lines generalizing total read with
  | nil => rfl
  | cons line rest ih =>
    rw [List.cons_append, verifyLines, verifyLines]
    cases verifyLine loads total read line with
    | error e => rfl
    | ok pair => exact ih

end lines

end Sippycup.Journal
