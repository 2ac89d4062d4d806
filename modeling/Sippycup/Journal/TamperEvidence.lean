import Sippycup.Journal.Entry
import Sippycup.Machine.HashChain

/-! Tamper evidence: as long as none of the entries' texts collide, a journal's last
digest determines its entries, and so does any digest for the entries up to it. -/
namespace Sippycup.Journal
open Sippycup.Python Sippycup.Ip Sippycup.Machine

/-- `previousSha256` as the document holds it. -/
def textOrNull : Option Text → JsonValue
  | none => .null
  | some t => .str t

/-- What an accepted document states, field by field. -/
structure States (d : JsonDict) (expected : Nat) (entry : Entry) : Prop where
  keys : keysAre d entryKeys = true
  version : d.find "apiVersion" = .str entryVersion
  sequence : d.find "sequence" = entry.sequence
  numbered : entry.sequence.eq (.int expected) = true
  recordedAt : d.find "recordedAt" = .str entry.recordedAt
  kind : d.find "kind" = .str entry.kind.name
  summary : d.find "summary" = .str entry.summary
  detail : d.find "detail" = .str entry.detail
  evidence : d.find "evidence" = .list (entry.evidence.map .str)
  tags : d.find "tags" = .list (entry.tags.map .str)
  previous : d.find "previousSha256" = textOrNull entry.previousSha256
  digest : entryDigest d = .ok entry.entrySha256

theorem validateText_ok {name : String} {value : JsonValue} {maximum : Nat} {empty : Bool} {t : Text}
    (ok : validateText name value maximum empty = .ok t) : value = .str t := by
  unfold validateText at ok
  split at ok
  · split at ok
    · cases ok
    · split at ok
      · cases ok
      · split at ok
        · cases ok
        · cases ok
          rfl
  · cases ok

theorem kindNamed?_some {t : Text} {kind : Kind} (named : kindNamed? t = some kind) :
    t = Text.ofString kind.name := by
  unfold kindNamed? at named
  have same := List.find?_some named
  exact (of_decide_eq_true same).symm

theorem readKind_ok {value : JsonValue} {expected : Nat} {kind : Kind}
    (ok : readKind value expected = .ok kind) : value = .str kind.name := by
  unfold readKind at ok
  split at ok
  · split at ok
    · rename_i named
      cases ok
      rw [kindNamed?_some named]
    · cases ok
  · cases ok

theorem texts_of_mapM {items : List JsonValue} {texts : List Text}
    (read : items.mapM JsonValue.text? = some texts) : items = texts.map .str := by
  induction items generalizing texts with
  | nil =>
    cases read
    rfl
  | cons item rest ih =>
    rw [List.mapM_cons] at read
    cases item with
    | str t =>
      simp only [JsonValue.text?, Option.pure_def, Option.bind_eq_bind, Option.bind_some,
        Option.bind_eq_some_iff, Option.some.injEq] at read
      obtain ⟨others, later, rfl⟩ := read
      rw [ih later, List.map_cons]
    | _ => cases read

theorem sortedTexts_ok {items : List JsonValue} {unsorted untyped : String} {texts : List Text}
    (ok : sortedTexts items unsorted untyped = .ok texts) :
    items = texts.map .str ∧ texts = sortTexts texts.dedup := by
  unfold sortedTexts at ok
  split at ok
  · cases ok
  · split at ok
    · rename_i texts read
      split at ok
      · rename_i sorted
        cases ok
        exact ⟨texts_of_mapM read, sorted⟩
      · cases ok
    · split at ok <;> cases ok

theorem boundedList_ok {value : JsonValue} {maximum : Nat} {message : String} {items : List JsonValue}
    (ok : boundedList value maximum message = .ok items) : value = .list items := by
  unfold boundedList at ok
  split at ok
  · split at ok
    · cases ok
    · cases ok
      rfl
  · cases ok

theorem readPrevious_iff {value : JsonValue} {previous : Option Text} :
    readPrevious value previous = true ↔ value = textOrNull previous := by
  cases previous with
  | none => cases value <;> simp [readPrevious, isNull, textOrNull]
  | some digest => exact JsonValue.isText_iff

theorem validateFields_ok {d : JsonDict} {expected : Nat} {previous : Option Text} {entry : Entry}
    (ok : validateFields d expected previous = .ok entry) :
    States d expected entry ∧ entry.previousSha256 = previous := by
  unfold validateFields at ok
  split at ok
  · cases ok
  rename_i keys
  split at ok
  · cases ok
  rename_i version
  split at ok
  · cases ok
  rename_i numbered
  simp only [bind_ok] at ok
  obtain ⟨recordedAt, recorded, kind, kinded, summary, summarized, detail, detailed, references, bounded,
    evidence, sorted, _, _, identifiers, boundedTags, tags, sortedTags, ok⟩ := ok
  split at ok
  · cases ok
  split at ok
  · cases ok
  rename_i linked
  simp only [bind_ok] at ok
  obtain ⟨digest, -, computed, hashed, ok⟩ := ok
  split at ok
  · rename_i same
    cases ok
    have linked := readPrevious_iff.1 (by simpa using linked)
    refine ⟨{
      keys := by simpa using keys
      version := JsonValue.isText_iff.1 (by simpa using version)
      sequence := rfl
      numbered := by simpa using numbered
      recordedAt := validateText_ok recorded
      kind := readKind_ok kinded
      summary := validateText_ok summarized
      detail := validateText_ok detailed
      evidence := by rw [boundedList_ok bounded, (sortedTexts_ok sorted).1]
      tags := by rw [boundedList_ok boundedTags, (sortedTexts_ok sortedTags).1]
      previous := linked
      digest := by rw [hashed, same] }, rfl⟩
  · cases ok

theorem get?_material (d : JsonDict) {key : Text} (other : key ≠ Text.ofString "entrySha256") :
    (material d).get? key = d.get? key := by
  induction d with
  | nil => rfl
  | cons x rest ih =>
    obtain ⟨name, value⟩ := x
    unfold material at ih ⊢
    rw [List.filter_cons]
    split
    · rw [JsonDict.get?_cons, JsonDict.get?_cons, ih]
    · rename_i own
      have own : name = Text.ofString "entrySha256" := by simpa using own
      rw [ih, JsonDict.get?_cons, if_neg fun same => other (same.symm.trans own)]

theorem find_material (d : JsonDict) {key : Text} (other : key ≠ Text.ofString "entrySha256") :
    (material d).find key = d.find key := by
  rw [JsonDict.find, get?_material d other, JsonDict.find]

theorem material_keys {d : JsonDict} (keys : keysAre d entryKeys = true) :
    ∀ key ∈ (material d).keys, key.units = key := by
  intro key member
  obtain ⟨x, inside, rfl⟩ := List.mem_map.mp member
  unfold keysAre at keys
  have all := List.all_eq_true.mp (Bool.and_eq_true _ _ ▸ keys).2
  have known := all x.1 (List.mem_map_of_mem (List.mem_of_mem_filter inside))
  obtain ⟨name, listed, same⟩ := List.any_eq_true.mp known
  rw [← of_decide_eq_true same]
  have ascii : ∀ name ∈ entryKeys, (Text.ofString name).units = Text.ofString name := by decide
  exact ascii name listed

theorem entryDigest_ok {d : JsonDict} {digest : Text} (ok : entryDigest d = .ok digest) :
    ∃ bytes, canonical (material d) = .ok bytes ∧ digest = sha256Hex bytes := by
  obtain ⟨bytes, encoded, same⟩ := bind_ok.mp ok
  exact ⟨bytes, encoded, (pure_ok.mp same).symm⟩

theorem canonical_ok {d : JsonDict} {bytes : List Nat} (ok : canonical d = .ok bytes) :
    Utf8.encode? (JsonValue.dict d).canonicalRaw = some bytes := by
  unfold canonical at ok
  split at ok
  · cases ok
    assumption
  · cases ok

theorem same_find {xs ys : JsonDict} (same : JsonValue.Same (.dict xs) (.dict ys))
    (left : ∀ key ∈ xs.keys, key.units = key) (right : ∀ key ∈ ys.keys, key.units = key) (key : Text) :
    JsonValue.Same (xs.find key) (ys.find key) := by
  have lookup := same.get? left right key
  unfold JsonValue.Same JsonDict.find
  generalize xs.get? key = first, ys.get? key = second at lookup
  rcases first with _ | x <;> rcases second with _ | y
  · rfl
  · cases lookup
  · cases lookup
  · exact Option.some.inj lookup

theorem scalars_find {d : JsonDict} (scalars : (JsonValue.dict d).Scalars) (key : Text) :
    (d.find key).Scalars := by
  rw [JsonValue.Scalars, JsonValue.scalarEntries_iff] at scalars
  unfold JsonDict.find
  cases found : d.get? key with
  | none => exact trivial
  | some value => exact (scalars _ (JsonDict.mem_of_get? found)).2

theorem same_number {a b : JsonValue} {n m : Int} (left : a.eq (.int n) = true)
    (right : b.eq (.int m) = true) (same : JsonValue.Same a b) : a = b := by
  have plain {v : JsonValue} {n : Int} (number : v.eq (.int n) = true) : v.sortKeys.utf16 = v := by
    cases v with
    | str t => cases number
    | list items => cases number
    | dict entries => cases number
    | _ => rfl
  rw [← plain left, ← plain right]
  exact same

theorem same_texts {xs ys : List Text} (same : JsonValue.Same (.list (xs.map .str)) (.list (ys.map .str)))
    (left : (JsonValue.list (xs.map .str)).Scalars) (right : (JsonValue.list (ys.map .str)).Scalars) :
    xs = ys := by
  rw [JsonValue.Scalars, JsonValue.scalarItems_iff, List.forall_mem_map] at left right
  rw [JsonValue.same_list, List.forall₂_map_left_iff, List.forall₂_map_right_iff] at same
  induction same with
  | nil => rfl
  | cons one _ ih =>
    obtain ⟨first, left⟩ := List.forall_mem_cons.mp left
    obtain ⟨second, right⟩ := List.forall_mem_cons.mp right
    rw [one.str first second, ih left right]

theorem same_textOrNull {t u : Option Text} (same : JsonValue.Same (textOrNull t) (textOrNull u))
    (left : (textOrNull t).Scalars) (right : (textOrNull u).Scalars) : t = u := by
  cases t <;> cases u
  · rfl
  · cases same
  · cases same
  · exact congrArg some (same.str left right)

theorem kind_name_injective {a b : Kind} (same : Text.ofString a.name = Text.ofString b.name) : a = b := by
  have names := Text.ofString_inj.mp same
  cases a <;> cases b <;> first | rfl | exact absurd names (by decide)

/-- The text that is hashed covers every field, so it determines the entry. -/
theorem stated_unique {d d' : JsonDict} {n n' : Nat} {entry entry' : Entry} {bytes : List Nat}
    (stated : States d n entry) (stated' : States d' n' entry') (text : canonical (material d) = .ok bytes)
    (text' : canonical (material d') = .ok bytes) : entry = entry' := by
  have raw := Utf8.encode?_injective (canonical_ok text) (canonical_ok text')
  have same := JsonValue.canonicalRaw_injective raw
  have left := JsonValue.canonicalRaw_scalars (Utf8.encode?_some.mp (canonical_ok text)).1
  have right := JsonValue.canonicalRaw_scalars (Utf8.encode?_some.mp (canonical_ok text')).1
  have agree (name : String) (other : name ≠ "entrySha256") :
      JsonValue.Same (d.find name) (d'.find name) ∧ (d.find name).Scalars ∧ (d'.find name).Scalars := by
    have other : Text.ofString name ≠ Text.ofString "entrySha256" := fun h => other (Text.ofString_inj.mp h)
    have whole := same_find same (material_keys stated.keys) (material_keys stated'.keys) name
    have first := scalars_find left name
    have second := scalars_find right name
    rw [find_material d other] at whole first
    rw [find_material d' other] at whole second
    exact ⟨whole, first, second⟩
  have text_ {name : String} {t u : Text} (other : name ≠ "entrySha256") (first : d.find name = .str t)
      (second : d'.find name = .str u) : t = u := by
    obtain ⟨same, left, right⟩ := agree name other
    rw [first] at same left
    rw [second] at same right
    exact same.str left right
  have list_ {name : String} {xs ys : List Text} (other : name ≠ "entrySha256")
      (first : d.find name = .list (xs.map .str)) (second : d'.find name = .list (ys.map .str)) :
      xs = ys := by
    obtain ⟨same, left, right⟩ := agree name other
    rw [first] at same left
    rw [second] at same right
    exact same_texts same left right
  have sequence : entry.sequence = entry'.sequence := by
    have same := (agree "sequence" (by decide)).1
    rw [stated.sequence, stated'.sequence] at same
    exact same_number stated.numbered stated'.numbered same
  have previous : entry.previousSha256 = entry'.previousSha256 := by
    obtain ⟨same, left, right⟩ := agree "previousSha256" (by decide)
    rw [stated.previous] at same left
    rw [stated'.previous] at same right
    exact same_textOrNull same left right
  have digest : entry.entrySha256 = entry'.entrySha256 := by
    obtain ⟨first, encoded, hashed⟩ := entryDigest_ok stated.digest
    obtain ⟨second, encoded', hashed'⟩ := entryDigest_ok stated'.digest
    rw [hashed, hashed', Except.ok.inj (encoded.symm.trans text), Except.ok.inj (encoded'.symm.trans text')]
  have recordedAt := text_ (by decide) stated.recordedAt stated'.recordedAt
  have kind := kind_name_injective (text_ (by decide) stated.kind stated'.kind)
  have summary := text_ (by decide) stated.summary stated'.summary
  have detail := text_ (by decide) stated.detail stated'.detail
  have evidence := list_ (by decide) stated.evidence stated'.evidence
  have tags := list_ (by decide) stated.tags stated'.tags
  cases entry
  cases entry'
  simp_all

/-- The texts hashed when the lines are verified. -/
def hashed (loads : Loads) (lines : List Text) : List (List Nat) :=
  lines.filterMap fun line =>
    match loads line with
    | .ok (.dict d) => (canonical (material d)).toOption
    | _ => none

/-- An entry of a document whose text is among those hashed. -/
def Recorded (texts : List (List Nat)) (entry : Entry) : Prop :=
  ∃ d n bytes, States d n entry ∧ canonical (material d) = .ok bytes ∧ bytes ∈ texts

/-- What holds of the entries read so far. -/
structure Traced (texts : List (List Nat)) (read : Verification) : Prop where
  chain : HashChain.Linked Entry.entrySha256 Entry.previousSha256 read.entries read.finalSha256
  recorded : ∀ entry ∈ read.entries, Recorded texts entry

theorem Traced.mono {texts more : List (List Nat)} {read : Verification} (traced : Traced texts read)
    (kept : texts ⊆ more) : Traced more read where
  chain := traced.chain
  recorded := fun entry member => by
    obtain ⟨d, n, bytes, stated, text, inside⟩ := traced.recorded entry member
    exact ⟨d, n, bytes, stated, text, kept inside⟩

theorem verifyLine_ok {loads : Loads} {total size : Nat} {read next : Verification} {line : Text}
    (ok : verifyLine loads total read line = .ok (size, next)) :
    ∃ d entry, loads line = .ok (.dict d) ∧
      validateFields d (read.entries.length + 1) read.finalSha256 = .ok entry ∧
      next = ⟨read.entries ++ [entry], some entry.entrySha256⟩ := by
  obtain ⟨lineSize, -, ok⟩ := bind_ok.mp ok
  split at ok
  · cases ok
  split at ok
  · cases ok
  split at ok
  · cases ok
  split at ok
  · cases ok
  split at ok
  · cases ok
  simp only [bind_ok, pure_ok, Prod.mk.injEq] at ok
  obtain ⟨value, loaded, entry, validated, -, rfl⟩ := ok
  have loaded : loads line = .ok value := by
    unfold loadLine at loaded
    split at loaded <;> cases loaded
    assumption
  cases value with
  | dict d => exact ⟨d, entry, loaded, validated, rfl⟩
  | _ => cases validated

theorem verifyLine_traced {loads : Loads} {total size : Nat} {read next : Verification} {line : Text}
    {texts : List (List Nat)} (traced : Traced texts read)
    (ok : verifyLine loads total read line = .ok (size, next)) :
    Traced (texts ++ hashed loads [line]) next := by
  obtain ⟨d, entry, loaded, validated, rfl⟩ := verifyLine_ok ok
  obtain ⟨stated, linked⟩ := validateFields_ok validated
  obtain ⟨bytes, text, -⟩ := entryDigest_ok stated.digest
  have before := traced.mono (List.subset_append_left texts (hashed loads [line]))
  refine ⟨.snoc (linked ▸ before.chain), fun other member => ?_⟩
  rcases List.mem_append.mp member with earlier | last
  · exact before.recorded other earlier
  · rw [List.mem_singleton.mp last]
    refine ⟨d, _, bytes, stated, text, List.mem_append_right _ ?_⟩
    simp [hashed, loaded, text, Except.toOption]

theorem verifyLines_traced {loads : Loads} {total size : Nat} {read last : Verification}
    {lines : List Text} {texts : List (List Nat)} (traced : Traced texts read)
    (ok : verifyLines loads total read lines = .ok (size, last)) :
    Traced (texts ++ hashed loads lines) last := by
  induction lines generalizing total read texts with
  | nil =>
    cases ok
    exact traced.mono (List.subset_append_left _ _)
  | cons line rest ih =>
    obtain ⟨⟨total, next⟩, first, ok⟩ := bind_ok.mp ok
    have onward := ih (verifyLine_traced traced first) ok
    have split : hashed loads (line :: rest) = hashed loads [line] ++ hashed loads rest :=
      List.filterMap_append (l := [line])
    rw [split, ← List.append_assoc]
    exact onward

theorem verifyStream_traced {loads : Loads} {lines : List Text} {read : Verification}
    (ok : verifyStream loads lines = .ok read) : Traced (hashed loads lines) read := by
  obtain ⟨⟨size, last⟩, run, same⟩ := bind_ok.mp ok
  obtain rfl := pure_ok.mp same
  have start : Traced [] Verification.empty := ⟨.nil, fun _ member => by cases member⟩
  exact verifyLines_traced start run

theorem recorded_unique {texts : List (List Nat)} {x y : Entry} (free : CollisionFree sha256Hex texts)
    (left : Recorded texts x) (right : Recorded texts y) (same : x.entrySha256 = y.entrySha256) : x = y := by
  obtain ⟨d, n, bytes, stated, text, inside⟩ := left
  obtain ⟨d', n', bytes', stated', text', inside'⟩ := right
  obtain ⟨_, encoded, digest⟩ := entryDigest_ok stated.digest
  obtain ⟨_, encoded', digest'⟩ := entryDigest_ok stated'.digest
  cases encoded.symm.trans text
  cases encoded'.symm.trans text'
  obtain rfl := free _ inside _ inside' (digest.symm.trans (same.trans digest'))
  exact stated_unique stated stated' text text'

/-- A note's document, and the line that holds it. -/
def noteDocument (sequence : Int) (summary : String) (previous : Option Text) (digest : Text) : JsonDict :=
  [("apiVersion", .str entryVersion), ("sequence", .int sequence),
    ("recordedAt", .str "2026-01-01T00:00:00Z"), ("kind", .str "note"), ("summary", .str summary),
    ("detail", .str ""), ("evidence", .list []), ("tags", .list []),
    ("previousSha256", textOrNull previous), ("entrySha256", .str digest)]

def lineOf (d : JsonDict) : Text := ⟨(JsonValue.dict d).canonicalRaw ++ [newline]⟩

def opened : JsonDict := noteDocument 1 "Opened." none
  "46fe288c5befe3be5204728bf2b6e4c096848272bd6a7be5029a9f2ff6b4ff15"

def oneNote : Loads := fun line =>
  if line = lineOf opened then .ok (.dict opened)
  else .error (.own "Expecting value: line 1 column 1 (char 0)")

end Sippycup.Journal
