import Sippycup.Workbench.Profile

/-! When a rehearsal returns, when it reports ready, and when ready means that
the profile is authorized. -/
namespace Sippycup.Workbench
open Sippycup.Python Sippycup.Ip

/-- A field of a section, or `None`. -/
def field (document : Dict) (name key : String) : Value :=
  match document.get? name with
  | some (.dict section_) => Dict.getD section_ key .none
  | _ => .none

def sectionFields : List (String × List String) :=
  [("target", targetFields), ("authorization", authorizationFields), ("limits", limitFields),
    ("capture", captureFields), ("features", featureFields)]

/-- What a ready profile promises, at a time. -/
structure Authorized (library : Library) (document : Dict) (now : Aware) : Prop where
  status : field document "authorization" "status" = .str "approved"
  approvalId : ∃ id, field document "authorization" "approval_id" = .str id ∧ id.codes ≠ []
  approver : ∃ name, field document "authorization" "approved_by" = .str name ∧ name.codes ≠ []
  time : ∃ instant stop, astimezone now = .ok instant ∧
    parseTime library (field document "authorization" "valid_until") "authorization.valid_until" = .ok (some stop) ∧
      instant < stop ∧
        (field document "authorization" "valid_from" = .none ∨ ∃ start, start ≤ instant ∧
          parseTime library (field document "authorization" "valid_from") "authorization.valid_from" = .ok (some start))
  addresses : ∃ texts : List Text, field document "target" "approved_addresses" = .list (texts.map .str) ∧
    texts ≠ [] ∧ texts.Nodup ∧ ∀ text ∈ texts, (ipAddress (.str text)).isSome = true
  limits : ∀ name ∈ limitFields, ∃ n : Int, field document "limits" name = .int n ∧ 1 ≤ n
  concurrency : ∃ concurrent most : Int, field document "limits" "max_concurrency" = .int concurrent ∧
    field document "limits" "max_calls" = .int most ∧ concurrent ≤ most
  output : ∃ text, field document "capture" "output" = .str text ∧ Text.codes "work/" <+: text.codes ∧
    [dot, dot] ∉ pathParts text.codes
  topLevel : ∀ key ∈ document.keys, ∃ name ∈ topLevelFields, key = .str name
  inner : ∀ known ∈ sectionFields, ∀ section_ : Dict, document.get? known.1 = some (.dict section_) →
    ∀ key ∈ section_.keys, ∃ name ∈ known.2, key = .str name

/-- The rehearsal returns, and reports ready only for an authorized profile. -/
def FailsClosed (library : Library) (document : Dict) (now : Aware) : Prop :=
  ∃ rehearsal, rehearse library document now = .ok rehearsal ∧
    (rehearsal.ready = true → Authorized library document now)

/-- A time that is written with a zone falls into the years 1 to 9999. -/
def Representable (library : Library) (value : Value) : Prop :=
  ∀ text fields offset, value = .str text → text.codes ≠ [] →
    library.fromisoformat (zoned text) = some ⟨fields, some offset⟩ →
      0 ≤ fields - offset ∧ fields - offset < timeLimit

def Named (section_ : Dict) : Prop := ∀ key ∈ section_.keys, key.text?.isSome = true

/-- The values of the sections that are hashed, sorted, written or moved to UTC allow it. -/
structure Readable (library : Library) (found : Sections) (now : Aware) : Prop where
  named : ∀ entry ∈ found.all, Named entry.2.1
  transport : hashable library (found.target.getD "transport" .none) = true
  addresses : ∀ items, found.target.getD "approved_addresses" .none = .list items →
    items.all (hashable library) = true
  status : hashable library (found.authorization.getD "status" .none) = true
  written : ∀ n, found.authorization.getD "status" .none = .int n → n.natAbs < 10 ^ Json.maxStrDigits
  validFrom : Representable library (found.authorization.getD "valid_from" .none)
  validUntil : Returns (parseTime library (found.authorization.getD "valid_from" .none) "authorization.valid_from") →
    Representable library (found.authorization.getD "valid_until" .none)
  now : 0 ≤ now.fields - now.offset ∧ now.fields - now.offset < timeLimit

/-- Every key of the document is a text, and its sections, where all are there, can be read. -/
structure Rehearsable (library : Library) (document : Dict) (now : Aware) : Prop where
  named : Named document
  sections : ∀ found, sections document = .ok found → Readable library found now

section returns
variable {library : Library} {document : Dict} {found : Sections} {now : Aware}

theorem renderTexts_returns (values : List Value) :
    Returns (renderTexts values : Except (Raised Empty) (List String)) ↔ ∀ v ∈ values, v.text?.isSome = true := by
  induction values with
  | nil => simp [renderTexts, Returns]
  | cons v rest ih =>
    cases v with
    | str t =>
      rw [renderTexts, returns_bind fun _ _ => returns_pure _, ih]
      simp [Value.text?]
    | _ => simp [renderTexts, Returns, Value.text?]

theorem sortedKeys_texts {values : List Value} (texts : ∀ v ∈ values, v.text?.isSome = true) :
    ∃ sorted, (sortedKeys values : Except (Raised Empty) (List Value)) = .ok sorted ∧ sorted.Perm values := by
  cases values with
  | nil => exact ⟨[], rfl, .refl _⟩
  | cons key rest =>
    have class_ : ∀ v ∈ key :: rest, v.orderClass = 0 := by
      intro v member
      have text := texts v member
      cases v with
      | str t => rfl
      | _ => cases text
    refine ⟨_, if_pos (List.all_eq_true.mpr ?_), List.perm_insertionSort _ _⟩
    intro v member
    rw [class_ v (List.mem_cons_of_mem _ member), class_ key List.mem_cons_self]
    rfl

theorem sortedKeys_perm {values sorted : List Value}
    (ok : (sortedKeys values : Except (Raised Empty) (List Value)) = .ok sorted) : sorted.Perm values := by
  unfold sortedKeys at ok
  split at ok
  · cases ok
    exact .refl _
  · split at ok
    · cases ok
      exact List.perm_insertionSort _ _
    · cases ok

theorem joined_returns (values : List Value) :
    Returns (do joinTexts (← sortedKeys values) : Except (Raised Empty) String) ↔
      ∀ v ∈ values, v.text?.isSome = true := by
  constructor
  · rintro ⟨joined, ok⟩
    obtain ⟨sorted, first, second⟩ := bind_ok.mp ok
    obtain ⟨texts, rendered, -⟩ := bind_ok.mp second
    intro v member
    exact (renderTexts_returns sorted).mp ⟨texts, rendered⟩ v ((sortedKeys_perm first).mem_iff.mpr member)
  · intro texts
    obtain ⟨sorted, first, perm⟩ := sortedKeys_texts texts
    obtain ⟨rendered, ok⟩ := (renderTexts_returns sorted).mpr fun v member => texts v (perm.mem_iff.mp member)
    refine ⟨", ".intercalate rendered, ?_⟩
    rw [first, ok_bind, joinTexts, ok]
    rfl

theorem mem_unknownKeys {d : Dict} {known : List String} {key : Value} :
    key ∈ unknownKeys d known ↔ key ∈ d.keys ∧ ∀ name ∈ known, key ≠ .str name := by
  simp only [unknownKeys, List.mem_filter, Bool.not_eq_true', List.any_eq_false, Value.isText_iff]

theorem named_iff (d : Dict) (known : List String) :
    Named d ↔ ∀ key ∈ unknownKeys d known, key.text?.isSome = true := by
  constructor
  · intro named key member
    exact named key (mem_unknownKeys.1 member).1
  · intro unknown key member
    by_cases listed : ∃ name ∈ known, key = .str name
    · obtain ⟨name, -, rfl⟩ := listed
      rfl
    · apply unknown key
      refine mem_unknownKeys.2 ⟨member, ?_⟩
      intro name there same
      exact listed ⟨name, there, same⟩

/-- A set of unknown fields can be reported when all of them are texts. -/
theorem unknownErrors_returns (kind : String) (d : Dict) (known : List String) :
    Returns (unknownErrors kind d known) ↔ Named d := by
  rw [named_iff d known, ← joined_returns]
  unfold unknownErrors
  dsimp only
  split
  · rename_i none
    rw [none]
    exact ⟨fun _ => ⟨_, rfl⟩, fun _ => ⟨_, rfl⟩⟩
  · split
    · rename_i names ok
      exact ⟨fun _ => ⟨names, ok⟩, fun _ => ⟨_, rfl⟩⟩
    · rename_i failure raised
      rw [raised]
      simp [Returns]

theorem unknownErrors_nil {kind : String} {d : Dict} {known : List String} {errors : List String}
    (ok : unknownErrors kind d known = .ok errors) : errors = [] ↔ unknownKeys d known = [] := by
  unfold unknownErrors at ok
  dsimp only at ok
  split at ok
  · rename_i none
    cases ok
    simp [none]
  · rename_i some_
    split at ok
    · cases ok
      simp [some_]
    · cases ok

theorem sectionErrors_returns (entries : List (String × Dict × List String)) :
    Returns (sectionErrors entries) ↔ ∀ entry ∈ entries, Named entry.2.1 := by
  induction entries with
  | nil => simp [sectionErrors, Returns]
  | cons entry rest ih =>
    obtain ⟨name, d, known⟩ := entry
    rw [sectionErrors, returns_bind fun _ _ => returns_bind fun _ _ => returns_pure _, unknownErrors_returns, ih]
    simp

theorem sectionErrors_nil {entries : List (String × Dict × List String)} {errors : List String}
    (ok : sectionErrors entries = .ok errors) :
    errors = [] ↔ ∀ entry ∈ entries, unknownKeys entry.2.1 entry.2.2 = [] := by
  induction entries generalizing errors with
  | nil =>
    cases ok
    simp
  | cons entry rest ih =>
    obtain ⟨name, d, known⟩ := entry
    obtain ⟨first, here, ok⟩ := bind_ok.mp ok
    obtain ⟨others, later, ok⟩ := bind_ok.mp ok
    cases ok
    rw [List.append_eq_nil_iff, unknownErrors_nil here, ih later]
    simp

theorem oneOf_returns (value : Value) (names : List String) :
    Returns (oneOf library value names) ↔ hashable library value = true := by
  unfold oneOf
  split
  · rename_i hashed
    exact ⟨fun _ => hashed, fun _ => ⟨_, rfl⟩⟩
  · rename_i other
    simpa [Returns] using other

theorem addressErrors_returns (addresses : Value) : Returns (addressErrors library addresses) ↔
    ∀ items, addresses = .list items → items.all (hashable library) = true := by
  cases addresses with
  | list items =>
    rw [addressErrors]
    split
    · rename_i hashed
      refine ⟨fun _ other same => ?_, fun _ => ⟨_, rfl⟩⟩
      cases same
      exact hashed
    · rename_i other
      constructor
      · rintro ⟨_, impossible⟩
        cases impossible
      · intro all
        exact absurd (all items rfl) other
  | _ =>
    constructor
    · intro _ items impossible
      cases impossible
    · intro _
      exact ⟨_, rfl⟩

theorem statusErrors_returns (status approvalId approvedBy : Value) (addresses : List Value) :
    Returns (statusErrors library status approvalId approvedBy addresses) ↔ hashable library status = true ∧
      ∀ n, status = .int n → n.natAbs < 10 ^ Json.maxStrDigits := by
  have written : Returns (writtenStatus library status) ↔
      ∀ n, status = .int n → n.natAbs < 10 ^ Json.maxStrDigits := by
    cases status with
    | int n =>
      rw [writtenStatus]
      split
      · rename_i short
        refine ⟨fun _ m same => ?_, fun _ => ⟨_, rfl⟩⟩
        cases same
        exact short
      · rename_i long
        constructor
        · rintro ⟨_, impossible⟩
          cases impossible
        · intro all
          exact absurd (all n rfl) long
    | _ =>
      constructor
      · intro _ n impossible
        cases impossible
      · intro _
        exact ⟨_, rfl⟩
  rw [statusErrors, returns_bind fun _ _ => returns_bind fun _ _ => returns_pure _, oneOf_returns, written, and_true]

theorem astimezone_ok (time : Aware) : Returns (astimezone time) ↔
    0 ≤ time.fields - time.offset ∧ time.fields - time.offset < timeLimit := by
  unfold astimezone
  dsimp only
  split
  · rename_i inside
    exact ⟨fun _ => inside, fun _ => ⟨_, rfl⟩⟩
  · rename_i outside
    simpa [Returns] using outside

theorem returns_of_own {time : Aware} (own : OwnErrors (astimezone time)) : Returns (astimezone time) := by
  unfold astimezone at own ⊢
  dsimp only at own ⊢
  split
  · exact ⟨_, rfl⟩
  · rename_i outside
    rw [if_neg outside] at own
    exact absurd own (ownErrors_builtin _)

/-- A time is parsed or refused when it can be moved to UTC. -/
theorem parseTime_own (value : Value) (name : String) :
    OwnErrors (parseTime library value name) ↔ Representable library value := by
  cases value with
  | str text =>
    rw [parseTime]
    split
    · rename_i empty
      constructor
      · intro _ other fields offset same some_
        cases same
        exact absurd empty some_
      · intro _
        exact ownErrors_own _
    · rename_i some_
      cases read : library.fromisoformat (zoned text) with
      | none =>
        constructor
        · intro _ other fields offset same _ there
          cases same
          rw [read] at there
          cases there
        · intro _
          exact ownErrors_own _
      | some time =>
        obtain ⟨fields, offset | offset⟩ := time
        · constructor
          · intro _ other fields offset same _ there
            cases same
            rw [read] at there
            cases there
          · intro _
            exact ownErrors_own _
        · dsimp only
          rw [ownErrors_bind, and_iff_left fun _ _ => ownErrors_pure _]
          constructor
          · intro own other fields' offset' same _ there
            cases same
            rw [read] at there
            cases there
            exact (astimezone_ok ⟨fields, offset⟩).mp (returns_of_own own)
          · intro inside
            obtain ⟨instant, ok⟩ := (astimezone_ok ⟨fields, offset⟩).mpr (inside text fields offset rfl some_ read)
            rw [ok]
            exact ownErrors_ok _
  | none =>
    constructor
    · intro _ text fields offset impossible
      cases impossible
    · intro _
      exact ownErrors_ok _
  | _ =>
    constructor
    · intro _ text fields offset impossible
      cases impossible
    · intro _
      exact ownErrors_own _

theorem times_returns (validFrom validUntil : Value) : Returns (times library validFrom validUntil) ↔
    Representable library validFrom ∧
      (Returns (parseTime library validFrom "authorization.valid_from") → Representable library validUntil) := by
  have both : Returns (times library validFrom validUntil) ↔ OwnErrors (do
      let start ← parseTime library validFrom "authorization.valid_from"
      let stop ← parseTime library validUntil "authorization.valid_until"
      return (start, stop) : Except (Raised String) (Option Int × Option Int)) := by
    unfold times
    split
    · rename_i ok
      rw [ok]
      exact ⟨fun _ => ownErrors_ok _, fun _ => ⟨_, rfl⟩⟩
    · rename_i refused
      rw [refused]
      exact ⟨fun _ => ownErrors_own _, fun _ => ⟨_, rfl⟩⟩
    · rename_i raised
      rw [raised]
      simp [Returns]
  rw [both, ownErrors_bind, parseTime_own]
  refine and_congr_right' ?_
  constructor
  · rintro own ⟨start, ok⟩
    exact (parseTime_own _ _).mp (ownErrors_bind.mp (own start ok)).1
  · intro inside start ok
    exact ownErrors_bind.mpr ⟨(parseTime_own _ _).mpr (inside ⟨start, ok⟩), fun _ _ => ownErrors_pure _⟩

theorem instantOf_returns (now : Aware) : Returns (instantOf now) ↔
    0 ≤ now.fields - now.offset ∧ now.fields - now.offset < timeLimit := by
  rw [← astimezone_ok]
  unfold instantOf
  split
  · rename_i ok
    exact ⟨fun _ => ⟨_, ok⟩, fun _ => ⟨_, rfl⟩⟩
  · rename_i raised
    rw [raised]
    simp [Returns]

theorem returns_then {α β : Type} {first : Except Builtin α} {then_ : α → Except Builtin β} {here holds : Prop}
    (now : Returns first ↔ here) (later : ∀ value, Returns (then_ value) ↔ holds) :
    Returns (first >>= then_) ↔ here ∧ holds :=
  (returns_bind fun value _ => later value).trans (and_congr_left' now)

theorem rehearseSections_returns (before : List String) :
    Returns (rehearseSections library document found now before) ↔ Readable library found now := by
  have chain : Returns (rehearseSections library document found now before) ↔ _ :=
    returns_then (sectionErrors_returns found.all) fun _ =>
      returns_then (oneOf_returns (found.target.getD "transport" .none) _) fun _ =>
        returns_then (addressErrors_returns (found.target.getD "approved_addresses" .none)) fun _ =>
          returns_then (statusErrors_returns (found.authorization.getD "status" .none) _ _ _) fun _ =>
            returns_then (times_returns _ _) fun _ =>
              returns_then (instantOf_returns now) fun _ =>
                returns_then (unknownErrors_returns "features" found.features featureFields) fun _ =>
                  returns_pure _
  rw [chain]
  constructor
  · rintro ⟨named, transport, addresses, ⟨status, written⟩, ⟨validFrom, validUntil⟩, now, -⟩
    exact { named, transport, addresses, status, written, validFrom, validUntil, now }
  · intro readable
    refine ⟨readable.named, readable.transport, readable.addresses, ⟨readable.status, readable.written⟩,
      ⟨readable.validFrom, readable.validUntil⟩, readable.now, ?_, trivial⟩
    exact readable.named ("features", found.features, featureFields) (by simp [Sections.all])

/-- The rehearsal returns when the document can be read. -/
theorem rehearse_returns : Returns (rehearse library document now) ↔ Rehearsable library document now := by
  have chain : Returns (rehearse library document now) ↔ Named document ∧
      ∀ found, sections document = .ok found → Readable library found now := by
    refine returns_then (unknownErrors_returns "top-level fields" document topLevelFields) fun unknown => ?_
    cases there : sections document with
    | error reason =>
      constructor
      · intro _ found impossible
        cases impossible
      · intro _
        exact ⟨_, rfl⟩
    | ok found =>
      refine (rehearseSections_returns _).trans ⟨fun readable other same => ?_, fun all => all found rfl⟩
      cases same
      exact readable
  rw [chain]
  exact ⟨fun ⟨named, sections⟩ => ⟨named, sections⟩, fun ⟨named, sections⟩ => ⟨named, sections⟩⟩

end returns

/-- The checks of a profile whose sections are there, with every answer a ready one gets. -/
structure Passes (library : Library) (document : Dict) (found : Sections) (now : Aware) : Prop where
  version : Value.eq (document.getD "schema_version" .none) (.str profileVersion) = true
  topLevel : unknownKeys document topLevelFields = []
  name : safeName (document.getD "name" .none) = true
  known : ∀ entry ∈ found.all, unknownKeys entry.2.1 entry.2.2 = []
  host : safeHost (found.target.getD "host" .none) = true
  port : safePort (found.target.getD "port" .none) = true
  transport : ["udp", "tcp", "tls"].any (fun name => (found.target.getD "transport" .none).isText name) = true
  addresses : ∃ items, found.target.getD "approved_addresses" .none = .list items ∧
    items.all (isAddress library) = true ∧ distinct items = true ∧ items ≠ []
  status : found.authorization.getD "status" .none = .str "approved"
  approvalId : ∃ id, found.authorization.getD "approval_id" .none = .str id ∧ id.codes ≠ []
  approver : ∃ name, found.authorization.getD "approved_by" .none = .str name ∧ name.strip.codes ≠ []
  time : ∃ instant start stop, astimezone now = .ok instant ∧
    parseTime library (found.authorization.getD "valid_from" .none) "authorization.valid_from" = .ok start ∧
      parseTime library (found.authorization.getD "valid_until" .none) "authorization.valid_until" = .ok (some stop) ∧
        (∀ time ∈ start, time ≤ instant ∧ time < stop) ∧ instant < stop
  limits : ∀ name ∈ limitFields, integerFrom 1 (found.limits.getD name .none) = true
  calls : withinCalls found.limits = true
  interface : safeInterface (found.capture.getD "interface" .none) = true
  output : ∃ text, found.capture.getD "output" .none = .str text ∧ safeOutput text.codes = true
  features : ∀ name ∈ featureFields, (found.features.get? name).all isBool = true
  keyed : (!(truthy library (found.features.getD "dtls_srtp" .none) &&
    !truthy library (found.features.getD "srtp" .none))) = true

section ready
variable {library : Library} {document : Dict} {found : Sections} {now : Aware}

@[simp] theorem check_nil {holds : Bool} {reason : String} : check holds reason = [] ↔ holds = true := by
  cases holds
  · simp [check]
  · simp [check]

theorem mapping_ok {key : String} {d : Dict} : mapping document key = .ok d ↔ document.get? key = some (.dict d) := by
  unfold mapping
  split
  · rename_i found
    simp [found]
  · rename_i other
    constructor
    · intro impossible
      cases impossible
    · intro found
      exact absurd found (other d)

theorem sections_ok : sections document = .ok found ↔ document.get? "target" = some (.dict found.target) ∧
    document.get? "authorization" = some (.dict found.authorization) ∧
      document.get? "limits" = some (.dict found.limits) ∧ document.get? "capture" = some (.dict found.capture) ∧
        document.get? "features" = some (.dict found.features) := by
  simp only [sections, bind_ok, pure_ok, mapping_ok]
  constructor
  · rintro ⟨target, first, authorization, second, limits, third, capture, fourth, features, fifth, rfl⟩
    exact ⟨first, second, third, fourth, fifth⟩
  · rintro ⟨first, second, third, fourth, fifth⟩
    exact ⟨_, first, _, second, _, third, _, fourth, _, fifth, rfl⟩

theorem addressErrors_nil {addresses : Value} {errors : List String} {items : List Value}
    (ok : addressErrors library addresses = .ok (errors, items)) : errors = [] ↔
      addresses = .list items ∧ items.all (isAddress library) = true ∧ distinct items = true := by
  cases addresses with
  | list found =>
    rw [addressErrors] at ok
    split at ok
    · cases ok
      simp [List.append_eq_nil_iff]
    · cases ok
  | _ =>
    cases ok
    simp

theorem addressErrors_items {items addresses : List Value} {errors : List String}
    (ok : addressErrors library (.list items) = .ok (errors, addresses)) : items = addresses := by
  rw [addressErrors] at ok
  split at ok
  · cases ok
    rfl
  · cases ok

theorem oneOf_ok {value : Value} {names : List String} {known : Bool} (ok : oneOf library value names = .ok known) :
    known = names.any fun name => value.isText name := by
  unfold oneOf at ok
  split at ok
  · cases ok
    rfl
  · cases ok

theorem statusErrors_nil {status approvalId approvedBy : Value} {addresses : List Value} {errors : List String}
    (ok : statusErrors library status approvalId approvedBy addresses = .ok errors) : errors = [] ↔
      status = .str "approved" ∧ (∃ id, approvalId = .str id ∧ id.codes ≠ []) ∧
        (∃ name, approvedBy = .str name ∧ name.strip.codes ≠ []) ∧ addresses ≠ [] := by
  obtain ⟨known, first, ok⟩ := bind_ok.mp ok
  obtain ⟨written, -, ok⟩ := bind_ok.mp ok
  cases ok
  rw [oneOf_ok first]
  simp only [List.append_eq_nil_iff, check_nil]
  constructor
  · rintro ⟨⟨⟨⟨⟨-, isId⟩, id⟩, approver⟩, isApproved⟩, addresses⟩
    refine ⟨Value.isText_iff.1 isApproved, ?_, ?_, ?_⟩
    · cases approvalId with
      | str text =>
        refine ⟨text, rfl, ?_⟩
        simpa [isApproved, Value.text?] using id
      | _ => cases isId
    · cases approvedBy with
      | str text => exact ⟨text, rfl, by simpa [Value.text?] using approver⟩
      | _ => cases approver
    · simpa using addresses
  · rintro ⟨rfl, ⟨id, rfl, some_⟩, ⟨name, rfl, named⟩, addresses⟩
    have isApproved : approved (.str (Text.ofString "approved")) = true := Value.isText_iff.2 rfl
    simp [isApproved, Value.text?, some_, named, addresses]

theorem times_ok {validFrom validUntil : Value} {valid : Times} (ok : times library validFrom validUntil = .ok valid)
    (none_ : valid.errors = []) : parseTime library validFrom "authorization.valid_from" = .ok valid.validFrom ∧
      parseTime library validUntil "authorization.valid_until" = .ok valid.validUntil := by
  unfold times at ok
  split at ok
  · rename_i start stop both
    cases ok
    obtain ⟨_, first, both⟩ := bind_ok.mp both
    obtain ⟨_, second, both⟩ := bind_ok.mp both
    cases both
    exact ⟨first, second⟩
  · cases ok
    cases none_
  · cases ok

theorem times_of_ok {validFrom validUntil : Value} {start stop : Option Int}
    (first : parseTime library validFrom "authorization.valid_from" = .ok start)
    (second : parseTime library validUntil "authorization.valid_until" = .ok stop) :
    times library validFrom validUntil = .ok ⟨[], start, stop⟩ := by
  unfold times
  rw [first, ok_bind, second]
  rfl

theorem timeErrors_nil {instant : Int} {status : Value} {valid : Times} (isApproved : approved status = true) :
    timeErrors instant status valid = [] ↔ valid.errors = [] ∧ ∃ stop, valid.validUntil = some stop ∧
      (∀ time ∈ valid.validFrom, time ≤ instant ∧ time < stop) ∧ instant < stop := by
  obtain ⟨errors, start, stop⟩ := valid
  simp only [timeErrors, List.append_eq_nil_iff, check_nil, isApproved]
  cases stop with
  | none => simp
  | some stop =>
    cases start with
    | none => simp
    | some start =>
      simp only [Option.all_some, decide_eq_true_eq, Option.isNone_some, Bool.and_false, Bool.not_false, and_true,
        Option.some.injEq, Option.mem_def, exists_eq_left', forall_eq']
      tauto

theorem limitErrors_nil {limits : Dict} : limitErrors limits = [] ↔
    (∀ name ∈ limitFields, integerFrom 1 (limits.getD name .none) = true) ∧ withinCalls limits = true := by
  simp only [limitErrors, List.append_eq_nil_iff, List.flatMap_eq_nil_iff, check_nil]

theorem outputErrors_nil {output : Value} :
    outputErrors output = [] ↔ ∃ text, output = .str text ∧ safeOutput text.codes = true := by
  cases output with
  | str text =>
    obtain ⟨codes⟩ := text
    cases codes with
    | nil =>
      constructor
      · intro impossible
        cases impossible
      · rintro ⟨_, same, safe⟩
        cases same
        cases safe
    | cons code rest =>
      rw [outputErrors, check_nil]
      exact ⟨fun safe => ⟨_, rfl, safe⟩, fun ⟨_, same, safe⟩ => by cases same; exact safe⟩
  | _ =>
    constructor
    · intro impossible
      cases impossible
    · rintro ⟨_, impossible, -⟩
      cases impossible

theorem featureErrors_nil {features : Dict} : featureErrors library features = [] ↔
    (∀ name ∈ featureFields, (features.get? name).all isBool = true) ∧
      (!(truthy library (features.getD "dtls_srtp" .none) && !truthy library (features.getD "srtp" .none))) = true := by
  simp only [featureErrors, List.append_eq_nil_iff, List.flatMap_eq_nil_iff, check_nil]

theorem instantOf_ok {instant : Int} : instantOf now = .ok instant ↔ astimezone now = .ok instant := by
  unfold instantOf
  split
  · rename_i ok
    rw [ok]
    simp
  · rename_i raised
    rw [raised]
    simp

/-- What the top-level checks leave empty. -/
theorem before_nil {unknown : List String}
    (ok : unknownErrors "top-level fields" document topLevelFields = .ok unknown) :
    check (Value.eq (document.getD "schema_version" .none) (.str profileVersion))
        "unsupported or missing schema_version" ++ unknown ++
      check (safeName (document.getD "name" .none)) "name must be 1-64 safe display characters" = [] ↔
    Value.eq (document.getD "schema_version" .none) (.str profileVersion) = true ∧
      unknownKeys document topLevelFields = [] ∧ safeName (document.getD "name" .none) = true := by
  simp only [List.append_eq_nil_iff, check_nil, unknownErrors_nil ok]
  tauto

/-- A rehearsal of the sections is ready when every check passes. -/
theorem rehearseSections_ready {before : List String} {rehearsal : Rehearsal}
    (ok : rehearseSections library document found now before = .ok rehearsal)
    (topLevel : before = [] ↔ Value.eq (document.getD "schema_version" .none) (.str profileVersion) = true ∧
      unknownKeys document topLevelFields = [] ∧ safeName (document.getD "name" .none) = true) :
    rehearsal.ready = true ↔ Passes library document found now := by
  obtain ⟨unknown, known, ok⟩ := bind_ok.mp ok
  obtain ⟨carried, transport, ok⟩ := bind_ok.mp ok
  obtain ⟨⟨literal, addresses⟩, addressed, ok⟩ := bind_ok.mp ok
  obtain ⟨standing, status, ok⟩ := bind_ok.mp ok
  obtain ⟨valid, timed, ok⟩ := bind_ok.mp ok
  obtain ⟨instant, moment, ok⟩ := bind_ok.mp ok
  obtain ⟨features, featured, ok⟩ := bind_ok.mp ok
  cases ok
  dsimp only
  rw [List.isEmpty_iff]
  simp only [List.append_eq_nil_iff, check_nil, topLevel, sectionErrors_nil known, oneOf_ok transport,
    addressErrors_nil addressed, statusErrors_nil status, limitErrors_nil, outputErrors_nil, featureErrors_nil,
    unknownErrors_nil featured]
  constructor
  · rintro ⟨⟨⟨⟨⟨⟨⟨⟨⟨⟨⟨⟨⟨version, topLevel, name⟩, known⟩, host⟩, port⟩, transport⟩, list, literal, apart⟩,
      isStatus, approvalId, approver, some_⟩, time⟩, limits, calls⟩, interface⟩, output⟩, -⟩, features, keyed⟩
    have isApproved : approved (found.authorization.getD "status" .none) = true := Value.isText_iff.2 isStatus
    obtain ⟨none_, stop, until_, start, last⟩ := (timeErrors_nil isApproved).mp time
    obtain ⟨first, second⟩ := times_ok timed none_
    rw [until_] at second
    exact {
      version, topLevel, name, known, host, port, transport, approvalId, approver, limits, calls, interface, output
      features, keyed, addresses := ⟨addresses, list, literal, apart, some_⟩, status := isStatus
      time := ⟨instant, valid.validFrom, stop, instantOf_ok.1 moment, first, second, start, last⟩ }
  · intro passes
    obtain ⟨items, list, isLiteral, apart, some_⟩ := passes.addresses
    obtain ⟨here, start, stop, moved, first, second, within, last⟩ := passes.time
    have isApproved : approved (found.authorization.getD "status" .none) = true := Value.isText_iff.2 passes.status
    rw [list] at addressed
    obtain rfl := addressErrors_items addressed
    rw [times_of_ok first second] at timed
    cases timed
    rw [instantOf_ok.2 moved] at moment
    cases moment
    have time : timeErrors instant (found.authorization.getD "status" .none) ⟨[], start, some stop⟩ = [] :=
      (timeErrors_nil isApproved).mpr ⟨rfl, stop, rfl, within, last⟩
    refine ⟨⟨⟨⟨⟨⟨⟨⟨⟨⟨⟨⟨⟨passes.version, passes.topLevel, passes.name⟩, passes.known⟩, passes.host⟩, passes.port⟩,
      passes.transport⟩, list, isLiteral, apart⟩, passes.status, passes.approvalId, passes.approver, some_⟩, time⟩,
      passes.limits, passes.calls⟩, passes.interface⟩, passes.output⟩, ?_⟩, passes.features, passes.keyed⟩
    exact passes.known ("features", found.features, featureFields) (by simp [Sections.all])

/-- The rehearsal is ready when the sections are there and every check passes. -/
theorem rehearse_ready {rehearsal : Rehearsal} (ok : rehearse library document now = .ok rehearsal) :
    rehearsal.ready = true ↔ ∃ found, sections document = .ok found ∧ Passes library document found now := by
  obtain ⟨unknown, topLevel, ok⟩ := bind_ok.mp ok
  dsimp only at ok
  split at ok
  · rename_i missing
    cases ok
    simp [missing]
  · rename_i found there
    rw [rehearseSections_ready ok (before_nil topLevel), there]
    simp


theorem field_of_get {name key : String} {section_ : Dict} (there : document.get? name = some (.dict section_)) :
    field document name key = section_.getD key .none := by
  rw [field, there]

theorem parseTime_none {value : Value} {name : String} (ok : parseTime library value name = .ok none) :
    value = .none := by
  cases value with
  | none => rfl
  | str text =>
    rw [parseTime] at ok
    split at ok
    · cases ok
    · split at ok
      · cases ok
      · cases ok
      · obtain ⟨instant, -, impossible⟩ := bind_ok.mp ok
        cases impossible
  | _ => cases ok

theorem unknownKeys_nil {d : Dict} {known : List String} (none_ : unknownKeys d known = []) :
    ∀ key ∈ d.keys, ∃ name ∈ known, key = .str name := by
  intro key member
  by_contra other
  push Not at other
  have listed : key ∈ unknownKeys d known := mem_unknownKeys.2 ⟨member, other⟩
  rw [none_] at listed
  cases listed

theorem strip_nil : (⟨[]⟩ : Text).strip.codes = [] := by
  rw [Text.strip]
  rfl

/-- Values that are texts, as texts. -/
theorem texts_of (values : List Value) (all : ∀ v ∈ values, v.text?.isSome = true) :
    ∃ texts : List Text, values = texts.map .str := by
  induction values with
  | nil => exact ⟨[], rfl⟩
  | cons v rest ih =>
    obtain ⟨texts, rfl⟩ := ih fun w member => all w (List.mem_cons_of_mem _ member)
    cases v with
    | str text => exact ⟨text :: texts, rfl⟩
    | _ => cases all _ List.mem_cons_self

theorem nodup_of_distinct {texts : List Text} (apart : distinct (texts.map .str) = true) : texts.Nodup := by
  induction texts with
  | nil => exact .nil
  | cons text rest ih =>
    simp only [List.map_cons, distinct, Bool.and_eq_true, Bool.not_eq_true', List.any_eq_false, List.mem_map] at apart
    refine List.nodup_cons.mpr ⟨fun member => ?_, ih apart.2⟩
    exact apart.1 (.str text) ⟨text, member, rfl⟩ (by simp)

theorem withinCalls_le {limits : Dict} {concurrent most : Int} (within : withinCalls limits = true)
    (first : concurrency limits = .int concurrent) (second : calls limits = .int most) : concurrent ≤ most := by
  rw [withinCalls, first, second] at within
  exact of_decide_eq_true within

theorem integerFrom_int {least : Int} {v : Value} (large : integerFrom least v = true) :
    ∃ n : Int, v = .int n ∧ least ≤ n := by
  cases v with
  | int n => exact ⟨n, rfl, of_decide_eq_true large⟩
  | _ => cases large

theorem safeOutput_work {codes : Codes} (safe : safeOutput codes = true) :
    Text.codes "work/" <+: codes ∧ [dot, dot] ∉ pathParts codes := by
  simp only [safeOutput, Bool.and_eq_true, decide_eq_true_eq] at safe
  exact ⟨List.isPrefixOf_iff_prefix.mp safe.1.1, safe.1.2⟩

/-- A profile that passes and approves only texts is authorized. -/
theorem passes_authorized (there : sections document = .ok found) (passes : Passes library document found now)
    (texts : ∀ items, found.target.getD "approved_addresses" .none = .list items →
      ∀ v ∈ items, v.text?.isSome = true) :
    Authorized library document now := by
  obtain ⟨target, authorization, limits, capture, features⟩ := sections_ok.1 there
  obtain ⟨items, list, literal, apart, some_⟩ := passes.addresses
  obtain ⟨addresses, rfl⟩ := texts_of items (texts items list)
  obtain ⟨name, approvedBy, named⟩ := passes.approver
  obtain ⟨instant, start, stop, moved, first, second, within, last⟩ := passes.time
  have limited : ∀ name ∈ limitFields, ∃ n : Int, field document "limits" name = .int n ∧ 1 ≤ n := by
    intro name member
    rw [field_of_get limits]
    exact integerFrom_int (passes.limits name member)
  obtain ⟨concurrent, here, -⟩ := limited "max_concurrency" (by simp [limitFields])
  obtain ⟨most, total, -⟩ := limited "max_calls" (by simp [limitFields])
  obtain ⟨text, output, safe⟩ := passes.output
  constructor
  · rw [field_of_get authorization]
    exact passes.status
  · rw [field_of_get authorization]
    exact passes.approvalId
  · rw [field_of_get authorization]
    refine ⟨name, approvedBy, fun none_ => named ?_⟩
    obtain ⟨codes⟩ := name
    cases none_
    exact strip_nil
  · rw [field_of_get authorization, field_of_get authorization]
    refine ⟨instant, stop, moved, second, last, ?_⟩
    cases start with
    | none => exact .inl (parseTime_none first)
    | some start => exact .inr ⟨start, (within start rfl).1, first⟩
  · rw [field_of_get target]
    refine ⟨addresses, list, fun none_ => some_ (by rw [none_]; rfl), nodup_of_distinct apart, ?_⟩
    intro text member
    exact List.all_eq_true.mp literal _ (List.mem_map_of_mem member)
  · exact limited
  · exact ⟨concurrent, most, here, total, withinCalls_le passes.calls ((field_of_get limits).symm.trans here)
      ((field_of_get limits).symm.trans total)⟩
  · rw [field_of_get capture]
    exact ⟨text, output, safeOutput_work safe⟩
  · exact unknownKeys_nil passes.topLevel
  · intro known member section_ same
    have inside : ∀ name listed d, (name, d, listed) ∈ found.all → document.get? name = some (.dict d) →
        document.get? name = some (.dict section_) → ∀ key ∈ section_.keys, ∃ text ∈ listed, key = .str text := by
      intro name listed d member there same
      rw [there] at same
      cases same
      exact unknownKeys_nil (passes.known _ member)
    simp only [sectionFields, List.mem_cons, List.not_mem_nil, or_false] at member
    obtain rfl | rfl | rfl | rfl | rfl := member
    · exact inside _ _ found.target (by simp [Sections.all]) target same
    · exact inside _ _ found.authorization (by simp [Sections.all]) authorization same
    · exact inside _ _ found.limits (by simp [Sections.all]) limits same
    · exact inside _ _ found.capture (by simp [Sections.all]) capture same
    · exact inside _ _ found.features (by simp [Sections.all]) features same

/-- Where every other check of a profile passes, the approved addresses are texts. -/
def TextAddresses (library : Library) (document : Dict) (now : Aware) : Prop :=
  ∀ found, sections document = .ok found → Passes library document found now →
    ∀ items, found.target.getD "approved_addresses" .none = .list items → ∀ v ∈ items, v.text?.isSome = true

/-- The rehearsal fails closed when the document can be read and the addresses that
would make it ready are texts. -/
theorem rehearsal_fails_closed_iff (library : Library) (document : Dict) (now : Aware) :
    FailsClosed library document now ↔
      Rehearsable library document now ∧ TextAddresses library document now := by
  rw [← rehearse_returns]
  constructor
  · rintro ⟨rehearsal, ok, ready⟩
    refine ⟨⟨rehearsal, ok⟩, fun found there passes items list => ?_⟩
    obtain ⟨texts, same, -, -, -⟩ := (ready ((rehearse_ready ok).mpr ⟨found, there, passes⟩)).addresses
    rw [field_of_get (sections_ok.mp there).1, list] at same
    cases same
    intro v member
    obtain ⟨text, -, rfl⟩ := List.mem_map.mp member
    rfl
  · rintro ⟨⟨rehearsal, ok⟩, texts⟩
    refine ⟨rehearsal, ok, fun ready => ?_⟩
    obtain ⟨found, there, passes⟩ := (rehearse_ready ok).mp ready
    exact passes_authorized there passes (texts found there passes)

end ready

/-- A library that reads one time, the first of the year 2030, and no address beyond those of JSON. -/
def plainLibrary : Library where
  fromisoformat text :=
    if text = "2030-01-01T00:00:00+00:00" then some ⟨64029052800 * 1000000, some 0⟩ else none
  frozen _ := true
  truthy _ _ := true
  literal _ _ := false

/-- A document with the key 1 raises a type error: the unknown keys are joined as texts. -/
theorem numbered_key_raises : ¬ FailsClosed plainLibrary [(.int 1, .none)] ⟨63766828800 * 1000000, 0⟩ := by
  rintro ⟨rehearsal, ok, -⟩
  cases ok

/-- A profile that approves the integer 1, an address to `ip_address`. -/
def numberedProfile : Dict :=
  [Dict.entry "schema_version" (.str profileVersion), Dict.entry "name" (.str "lab"),
    Dict.entry "target" (.dict [Dict.entry "host" (.str "lab.example"), Dict.entry "port" (.int 5060),
      Dict.entry "transport" (.str "udp"), Dict.entry "approved_addresses" (.list [.int 1])]),
    Dict.entry "authorization" (.dict [Dict.entry "status" (.str "approved"),
      Dict.entry "approved_by" (.str "operator"), Dict.entry "approval_id" (.str "A-1"),
      Dict.entry "valid_until" (.str "2030-01-01T00:00:00Z")]),
    Dict.entry "limits" (.dict [Dict.entry "max_calls" (.int 1), Dict.entry "max_concurrency" (.int 1),
      Dict.entry "max_calls_per_second" (.int 1), Dict.entry "max_duration_seconds" (.int 60)]),
    Dict.entry "capture" (.dict [Dict.entry "interface" (.str "eth0"),
      Dict.entry "output" (.str "work/lab.pcap")]),
    Dict.entry "features" (.dict [])]

/-- It is reported ready. -/
theorem numbered_address_ready : ¬ FailsClosed plainLibrary numberedProfile ⟨63766828800 * 1000000, 0⟩ := by
  rintro ⟨rehearsal, ok, authorized⟩
  have ready : (rehearse plainLibrary numberedProfile ⟨63766828800 * 1000000, 0⟩).toOption.map Rehearsal.ready =
      some true := by decide +kernel
  rw [ok] at ready
  obtain ⟨texts, list, -, -, -⟩ := (authorized (Option.some.inj ready)).addresses
  have written : field numberedProfile "target" "approved_addresses" = .list [.int 1] := rfl
  rw [written] at list
  cases texts with
  | nil => cases list
  | cons text rest => cases list

/-- A profile that is ready at two times is ready at every time between them, in whatever zones these are given. -/
theorem ready_between (library : Library) (document : Dict) (first now last : Aware)
    (after : first.fields - first.offset ≤ now.fields - now.offset)
    (before : now.fields - now.offset ≤ last.fields - last.offset) (a b : Rehearsal)
    (rehearsed : rehearse library document first = .ok a ∧ a.ready = true)
    (again : rehearse library document last = .ok b ∧ b.ready = true) :
    ∃ rehearsal, rehearse library document now = .ok rehearsal ∧ rehearsal.ready = true := by
  obtain ⟨found, there, early⟩ := (rehearse_ready rehearsed.1).mp rehearsed.2
  obtain ⟨other, same, late⟩ := (rehearse_ready again.1).mp again.2
  cases there.symm.trans same
  obtain ⟨named, sections⟩ := rehearse_returns.mp ⟨a, rehearsed.1⟩
  have low := (sections found there).now
  have high := ((rehearse_returns.mp ⟨b, again.1⟩).sections found there).now
  have within : 0 ≤ now.fields - now.offset ∧ now.fields - now.offset < timeLimit := by omega
  obtain ⟨rehearsal, ok⟩ := rehearse_returns.mpr ⟨named, fun other same => by
    cases there.symm.trans same
    exact { sections found there with now := within }⟩
  refine ⟨rehearsal, ok, (rehearse_ready ok).mpr ⟨found, there, { early with time := ?_ }⟩⟩
  obtain ⟨i, start, stop, at_, from_, until_, opened, -⟩ := early.time
  obtain ⟨j, _, stop', at', -, until', -, open_⟩ := late.time
  cases until_.symm.trans until'
  have instant {time : Aware} {n : Int} (moved : astimezone time = .ok n) : n = time.fields - time.offset := by
    unfold astimezone at moved
    dsimp only at moved
    split at moved
    · exact (Except.ok.inj moved).symm
    · cases moved
  rw [instant at'] at open_
  rw [instant at_] at opened
  refine ⟨now.fields - now.offset, start, stop, if_pos within, from_, until_, fun time member => ?_, by omega⟩
  exact ⟨(opened time member).1.trans after, (opened time member).2⟩

theorem numbered_ready_between : ∃ rehearsal,
    rehearse plainLibrary numberedProfile ⟨63766828900 * 1000000, 0⟩ = .ok rehearsal ∧ rehearsal.ready = true := by
  have ready {second : Int} (there : (rehearse plainLibrary numberedProfile ⟨second, 0⟩).toOption.map Rehearsal.ready =
      some true) : ∃ a, rehearse plainLibrary numberedProfile ⟨second, 0⟩ = .ok a ∧ a.ready = true := by
    cases ok : rehearse plainLibrary numberedProfile ⟨second, 0⟩ with
    | error kind => rw [ok] at there; cases there
    | ok a => exact ⟨a, rfl, by rw [ok] at there; exact Option.some.inj there⟩
  obtain ⟨a, first⟩ := @ready (63766828800 * 1000000) (by decide +kernel)
  obtain ⟨b, last⟩ := @ready (63766829000 * 1000000) (by decide +kernel)
  exact ready_between plainLibrary numberedProfile ⟨_, 0⟩ _ ⟨_, 0⟩ (by decide) (by decide) a b first last

end Sippycup.Workbench
