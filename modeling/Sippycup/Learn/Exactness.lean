import Sippycup.Learn.Outputs

/-! When the comparison of two packs finds nothing, and when it is exact: it misses
null-valued keys, other keys of a window and the spelling of timing observations. -/
namespace Sippycup.Learn
open Sippycup.Python Sippycup.Machine
open JsonValue (Proper proper_dict proper_list)

section relations

/-- `==` of two normalized packs. -/
structure NormalizedPack.Equal (left right : NormalizedPack) : Prop where
  model : left.model.Equal right.model
  verdict : left.oracle.verdict.eq right.oracle.verdict = true
  dialogs : List.Forall₂ (fun x y => x.eq y = true) left.oracle.dialogs right.oracle.dialogs
  streams : List.Forall₂ (fun x y => x.eq y = true) left.oracle.streams right.oracle.streams
  assertions : (JsonValue.dict left.oracle.assertions).eq (.dict right.oracle.assertions) = true

/-- Equal windows, or windows with the same bounds of which one is there. -/
def WindowsAgree (before after : JsonValue) : Prop :=
  before.eq after = true ∨ (∀ name ∈ timingFields, fieldOf before name = fieldOf after name) ∧
    ∃ name ∈ timingFields, isNull (fieldOf before name) = false

/-- Transactions that agree in every field, or in a window that agrees. -/
def TransactionsAgree (before after : JsonValue) : Prop :=
  WindowsAgree (fieldOf before "timingWindowMs") (fieldOf after "timingWindowMs") ∧
    ∀ field : Text, field ≠ "timingWindowMs" → Agrees (fieldOf before field) (fieldOf after field)

/-- The streams of each direction agree, in their order. -/
def StreamsAgree (xs ys : List JsonValue) : Prop :=
  ∀ direction, List.Forall₂ Agrees (inDirection direction xs) (inDirection direction ys)

/-- Equal assertions, those that agree, and timing assertions with equal numbers. -/
def AssertionsAgree (digit : Nat → Option Nat) (identifier : Text) (before after : Option JsonValue) : Prop :=
  sameAssertion before after = true ∨ timingWithin digit 0 identifier before after = .ok true ∨
    Agrees (before.getD .null) (after.getD .null)

/-- Packs between which the comparison sees no change. -/
structure NormalizedPack.Similar (digit : Nat → Option Nat) (left right : NormalizedPack) : Prop where
  dialog : Agrees left.model.dialog right.model.dialog
  dialogs : List.Forall₂ Agrees left.oracle.dialogs right.oracle.dialogs
  verdict : left.oracle.verdict.eq right.oracle.verdict = true
  transactions : List.Forall₂ TransactionsAgree left.model.transactions right.model.transactions
  sdpRevisions : List.Forall₂ Agrees left.model.sdpRevisions right.model.sdpRevisions
  mediaPackets : List.Forall₂ Agrees left.model.mediaPackets right.model.mediaPackets
  streams : StreamsAgree left.oracle.streams right.oracle.streams
  assertions : ∀ identifier, AssertionsAgree digit identifier (left.oracle.assertions.get? identifier)
    (right.oracle.assertions.get? identifier)

end relations

section lists
variable {xs ys : List JsonValue} {R : JsonValue → JsonValue → Prop}

theorem countChanges_nil {path category : Text} {refs : Refs} {m n : Nat} :
    countChanges path category refs m n = [] ↔ m = n := by
  rw [countChanges]
  split <;> simp_all

/-- A count and a walk of the pairs find nothing in lists related item by item. -/
theorem counted_nil {path category : Text} {refs : Refs} {pairs : List Change}
    (walked : xs.length = ys.length → (pairs = [] ↔ List.Forall₂ R xs ys)) :
    countChanges path category refs xs.length ys.length ++ pairs = [] ↔ List.Forall₂ R xs ys := by
  rw [List.append_eq_nil_iff, countChanges_nil]
  constructor
  · rintro ⟨sizes, silent⟩
    exact (walked sizes).mp silent
  · exact fun related => ⟨related.length_eq, (walked related.length_eq).mpr related⟩

theorem listChanges_nil {key : Text} {left right : Pack} {index : Nat} (sizes : xs.length = ys.length)
    (proper : ∀ item ∈ xs, item.Proper) (proper' : ∀ item ∈ ys, item.Proper) :
    listChanges key left right index xs ys = [] ↔ List.Forall₂ Agrees xs ys := by
  induction xs generalizing ys index with
  | nil =>
    obtain rfl := List.length_eq_zero_iff.mp sizes.symm
    exact ⟨fun _ => .nil, fun _ => rfl⟩
  | cons x xs ih =>
    cases ys with
    | nil => cases sizes
    | cons y ys =>
      obtain ⟨head, tail⟩ := List.forall_mem_cons.mp proper
      obtain ⟨head', tail'⟩ := List.forall_mem_cons.mp proper'
      rw [listChanges, List.append_eq_nil_iff, walkChanges_nil head head', List.forall₂_cons,
        ih (Nat.succ.inj sizes) tail tail']

theorem streamPairs_nil {path : Text} {refs : Refs} {index : Nat} (sizes : xs.length = ys.length)
    (proper : ∀ item ∈ xs, item.Proper) (proper' : ∀ item ∈ ys, item.Proper) :
    streamPairs path refs index xs ys = [] ↔ List.Forall₂ Agrees xs ys := by
  induction xs generalizing ys index with
  | nil =>
    obtain rfl := List.length_eq_zero_iff.mp sizes.symm
    exact ⟨fun _ => .nil, fun _ => rfl⟩
  | cons x xs ih =>
    cases ys with
    | nil => cases sizes
    | cons y ys =>
      obtain ⟨head, tail⟩ := List.forall_mem_cons.mp proper
      obtain ⟨head', tail'⟩ := List.forall_mem_cons.mp proper'
      rw [streamPairs, List.append_eq_nil_iff, walkChanges_nil head head', List.forall₂_cons,
        ih (Nat.succ.inj sizes) tail tail']

theorem mem_unionTexts {xs ys : List Text} {text : Text} :
    text ∈ unionTexts xs ys ↔ text ∈ xs ∨ text ∈ ys := by
  rw [unionTexts, sortTexts, (List.perm_insertionSort _ _).mem_iff, List.mem_dedup, List.mem_append]

theorem streamChanges_nil {left right : Pack} (proper : ∀ item ∈ xs, item.Proper)
    (proper' : ∀ item ∈ ys, item.Proper) :
    streamChanges left right xs ys = [] ↔ StreamsAgree xs ys := by
  have inside : ∀ direction, ∀ item ∈ inDirection direction xs, item.Proper :=
    fun direction item member => proper item (List.mem_filter.mp member).1
  have inside' : ∀ direction, ∀ item ∈ inDirection direction ys, item.Proper :=
    fun direction item member => proper' item (List.mem_filter.mp member).1
  have each : ∀ direction, directionChanges left right xs ys direction = [] ↔
      List.Forall₂ Agrees (inDirection direction xs) (inDirection direction ys) := fun direction =>
    counted_nil fun sizes => streamPairs_nil sizes (inside direction) (inside' direction)
  rw [streamChanges, List.flatMap_eq_nil_iff]
  constructor
  · intro silent direction
    by_cases used : direction ∈ unionTexts (xs.map directionText) (ys.map directionText)
    · exact (each direction).mp (silent direction used)
    · rw [mem_unionTexts, not_or] at used
      have none : ∀ {items : List JsonValue}, direction ∉ items.map directionText →
          inDirection direction items = [] := by
        intro items absent
        rw [inDirection, List.filter_eq_nil_iff]
        intro item member is
        exact absent (List.mem_map.mpr ⟨item, member, of_decide_eq_true is⟩)
      rw [none used.1, none used.2]
      exact .nil
  · exact fun agree direction _ => (each direction).mpr (agree direction)

end lists

section windows

/-- Bounds within no tolerance of each other are the same. -/
theorem windowChanges_nil {path : Text} {refs : Refs} {before after : JsonValue}
    (bounds : ∀ name ∈ timingFields, IsBound (fieldOf before name))
    (bounds' : ∀ name ∈ timingFields, IsBound (fieldOf after name)) :
    windowChanges 0 path before after refs = [] ↔ WindowsAgree before after := by
  have first := bounds "earliest" (by decide)
  have second := bounds "latest" (by decide)
  have first' := bounds' "earliest" (by decide)
  have second' := bounds' "latest" (by decide)
  rw [WindowsAgree, windowChanges]
  by_cases equal : before.eq after = true
  · rw [if_pos equal]
    exact ⟨fun _ => .inl equal, fun _ => rfl⟩
  · rw [if_neg equal, or_iff_right equal]
    simp only [timingFields, List.forall_mem_cons, List.any_cons, List.any_nil, Bool.or_false,
      List.filterMap_cons, List.filterMap_nil, List.exists_mem_cons_iff]
    generalize fieldOf before "earliest" = a, fieldOf before "latest" = b, fieldOf after "earliest" = c,
      fieldOf after "latest" = d at first second first' second'
    -- Each bound is null or an integer: sixteen cases of arithmetic.
    obtain rfl | ⟨m, rfl⟩ := first <;> obtain rfl | ⟨n, rfl⟩ := second <;>
      obtain rfl | ⟨k, rfl⟩ := first' <;> obtain rfl | ⟨l, rfl⟩ := second' <;>
      simp [isNull, sub_eq_zero]

end windows

section transactions
variable {before after : JsonValue}

theorem fieldOf_absent {value : JsonValue} {key : Text} (absent : key ∉ keysOf value) :
    fieldOf value key = .null := by
  cases value with
  | dict d =>
    rw [fieldOf, JsonDict.find, JsonDict.get?_eq_none.mpr absent]
    rfl
  | _ => rfl

theorem afterBye_nil {post : Bool} {changes : List Change} : afterBye post changes = [] ↔ changes = [] := by
  rw [afterBye]
  split
  · exact List.map_eq_nil_iff
  · exact Iff.rfl

theorem fieldsChanges_nil {path : Text} {post : Bool} {refs : Refs} (proper : before.Proper)
    (proper' : after.Proper) (bounded : Bounded before) (bounded' : Bounded after) :
    (unionTexts (keysOf before) (keysOf after)).flatMap (fieldChanges 0 path post before after refs) = [] ↔
      TransactionsAgree before after := by
  have each : ∀ field : Text, field ≠ "timingWindowMs" →
      (fieldChanges 0 path post before after refs field = [] ↔
        Agrees (fieldOf before field) (fieldOf after field)) := by
    intro field other
    rw [fieldChanges, if_neg other, afterBye_nil]
    exact walkChanges_nil (proper_fieldOf proper field) (proper_fieldOf proper' field) _ _
  have window : fieldChanges 0 path post before after refs "timingWindowMs" = [] ↔
      WindowsAgree (fieldOf before "timingWindowMs") (fieldOf after "timingWindowMs") := by
    rw [fieldChanges, if_pos rfl]
    exact windowChanges_nil bounded bounded'
  rw [List.flatMap_eq_nil_iff, TransactionsAgree]
  constructor
  · intro silent
    have absent : ∀ {field : Text}, field ∉ unionTexts (keysOf before) (keysOf after) →
        fieldOf before field = .null ∧ fieldOf after field = .null := by
      intro field unused
      rw [mem_unionTexts, not_or] at unused
      exact ⟨fieldOf_absent unused.1, fieldOf_absent unused.2⟩
    constructor
    · by_cases used : Text.ofString "timingWindowMs" ∈ unionTexts (keysOf before) (keysOf after)
      · exact window.mp (silent _ used)
      · obtain ⟨first, second⟩ := absent used
        rw [first, second]
        exact .inl rfl
    · intro field other
      by_cases used : field ∈ unionTexts (keysOf before) (keysOf after)
      · exact (each field other).mp (silent field used)
      · obtain ⟨first, second⟩ := absent used
        rw [first, second]
        exact agrees_null_left.2 rfl
  · rintro ⟨windows, others⟩ field -
    by_cases timing : field = "timingWindowMs"
    · rw [timing]
      exact window.mpr windows
    · exact (each field timing).mpr (others field timing)

theorem pairChanges_nil {left right : Pack} {bye index : Nat} {xs ys : List JsonValue}
    (sizes : xs.length = ys.length) (inside : ∀ item ∈ xs, item.Proper ∧ Bounded item)
    (inside' : ∀ item ∈ ys, item.Proper ∧ Bounded item) :
    pairChanges 0 left right bye index xs ys = [] ↔ List.Forall₂ TransactionsAgree xs ys := by
  induction xs generalizing ys index with
  | nil =>
    obtain rfl := List.length_eq_zero_iff.mp sizes.symm
    exact ⟨fun _ => .nil, fun _ => rfl⟩
  | cons x xs ih =>
    cases ys with
    | nil => cases sizes
    | cons y ys =>
      obtain ⟨⟨proper, bounded⟩, tail⟩ := List.forall_mem_cons.mp inside
      obtain ⟨⟨proper', bounded'⟩, tail'⟩ := List.forall_mem_cons.mp inside'
      rw [pairChanges, List.append_eq_nil_iff, fieldsChanges_nil proper proper' bounded bounded',
        List.forall₂_cons, ih (Nat.succ.inj sizes) tail tail']

theorem transactionChanges_nil {left right : Pack} {xs ys : List JsonValue}
    (inside : ∀ item ∈ xs, item.Proper ∧ Bounded item)
    (inside' : ∀ item ∈ ys, item.Proper ∧ Bounded item) :
    transactionChanges 0 left right xs ys = [] ↔ List.Forall₂ TransactionsAgree xs ys := by
  rw [transactionChanges, List.append_assoc]
  refine counted_nil fun sizes => ?_
  have extra : extraChanges left right (byeIndex xs) xs ys = [] := by
    rw [extraChanges, sizes]
    simp
  rw [extra, List.append_nil]
  exact pairChanges_nil sizes inside inside'

end transactions

section assertions
variable {digit : Nat → Option Nat} {xs ys : JsonDict}

theorem walk_assertions {path : Text} {refs : Refs} {before after : Option JsonValue}
    (proper : ∀ value, before = some value → value.Proper)
    (proper' : ∀ value, after = some value → value.Proper) :
    walkChanges path refs (before.getD .null) (after.getD .null) = [] ↔
      Agrees (before.getD .null) (after.getD .null) := by
  refine walkChanges_nil ?_ ?_ path refs
  · cases before with
    | none => trivial
    | some value => exact proper value rfl
  · cases after with
    | none => trivial
    | some value => exact proper' value rfl

/-- The numbers of a timing assertion can be compared. -/
def TimingRead (digit : Nat → Option Nat) (identifier : Text) (before after : Option JsonValue) : Prop :=
  sameAssertion before after = true ∨ ∃ within, timingWithin digit 0 identifier before after = .ok within

theorem assertionChange_ok {left right : Pack} {identifier : Text} :
    (∃ changes, assertionChange digit 0 left right xs ys identifier = .ok changes) ↔
      TimingRead digit identifier (xs.get? identifier) (ys.get? identifier) := by
  rw [assertionChange, TimingRead]
  by_cases same : sameAssertion (xs.get? identifier) (ys.get? identifier) = true
  · simp only [same, if_true, true_or, iff_true]
    exact ⟨_, rfl⟩
  · simp only [if_neg same, or_iff_right same]
    rcases timingWithin digit 0 identifier (xs.get? identifier) (ys.get? identifier) with raised | within
    · exact ⟨fun ⟨_, is⟩ => (nomatch is), fun ⟨_, is⟩ => (nomatch is)⟩
    · refine ⟨fun _ => ⟨within, rfl⟩, fun _ => ?_⟩
      cases within <;> exact ⟨_, rfl⟩

theorem assertionChange_nil {left right : Pack} {identifier : Text} {changes : List Change}
    (proper : ∀ value, xs.get? identifier = some value → value.Proper)
    (proper' : ∀ value, ys.get? identifier = some value → value.Proper)
    (ran : assertionChange digit 0 left right xs ys identifier = .ok changes) :
    changes = [] ↔ AssertionsAgree digit identifier (xs.get? identifier) (ys.get? identifier) := by
  rw [AssertionsAgree, ← walk_assertions proper proper']
  rw [assertionChange] at ran
  by_cases same : sameAssertion (xs.get? identifier) (ys.get? identifier) = true
  · simp only [same, if_true] at ran
    obtain rfl := Except.ok.inj ran
    exact ⟨fun _ => .inl same, fun _ => rfl⟩
  · simp only [if_neg same] at ran
    rw [or_iff_right same]
    rcases timed : timingWithin digit 0 identifier (xs.get? identifier) (ys.get? identifier) with
      raised | within
    · rw [timed] at ran
      cases ran
    · rw [timed] at ran
      cases within with
      | true =>
        obtain rfl := Except.ok.inj ran
        exact ⟨fun _ => .inl rfl, fun _ => rfl⟩
      | false =>
        obtain rfl := Except.ok.inj ran
        rw [or_iff_right (by simp)]

theorem assertionChanges_ok {left right : Pack} {identifiers : List Text} :
    (∃ changes, assertionChanges digit 0 left right xs ys identifiers = .ok changes) ↔
      ∀ identifier ∈ identifiers, TimingRead digit identifier (xs.get? identifier) (ys.get? identifier) := by
  induction identifiers with
  | nil => exact ⟨fun _ _ member => absurd member (List.not_mem_nil), fun _ => ⟨_, rfl⟩⟩
  | cons identifier rest ih =>
    rw [List.forall_mem_cons, ← ih, ← @assertionChange_ok digit xs ys left right, assertionChanges]
    constructor
    · rintro ⟨changes, ran⟩
      obtain ⟨first, head, next⟩ := bind_ok.mp ran
      obtain ⟨others, tail, -⟩ := bind_ok.mp next
      exact ⟨⟨first, head⟩, others, tail⟩
    · rintro ⟨⟨first, head⟩, others, tail⟩
      exact ⟨first ++ others, by rw [head, ok_bind, tail, ok_bind]; rfl⟩

theorem assertionChanges_nil {left right : Pack} {identifiers : List Text} {changes : List Change}
    (proper : ∀ entry ∈ xs, entry.2.Proper) (proper' : ∀ entry ∈ ys, entry.2.Proper)
    (ran : assertionChanges digit 0 left right xs ys identifiers = .ok changes) :
    changes = [] ↔ ∀ identifier ∈ identifiers,
      AssertionsAgree digit identifier (xs.get? identifier) (ys.get? identifier) := by
  induction identifiers generalizing changes with
  | nil =>
    obtain rfl := Except.ok.inj ran
    exact ⟨fun _ _ member => absurd member (List.not_mem_nil), fun _ => rfl⟩
  | cons identifier rest ih =>
    rw [assertionChanges] at ran
    obtain ⟨first, head, next⟩ := bind_ok.mp ran
    obtain ⟨others, tail, done⟩ := bind_ok.mp next
    obtain rfl := Except.ok.inj done
    rw [List.append_eq_nil_iff, List.forall_mem_cons, ih tail,
      assertionChange_nil (fun value held => proper _ (JsonDict.mem_of_get? held))
        (fun value held => proper' _ (JsonDict.mem_of_get? held)) head]

theorem assertionsAgree_absent {identifier : Text} : AssertionsAgree digit identifier none none := .inl rfl

end assertions

section verdict

/-- What a `for` loop can visit. -/
def Iterable (value : JsonValue) : Prop := ∃ items, iterate value = .ok items

theorem verdictEvidence_ok {items : List JsonDict} :
    (∃ refs, verdictEvidence items = .ok refs) ↔ ∀ item ∈ items, Iterable (getArray item "evidence") := by
  induction items with
  | nil => exact ⟨fun _ _ member => absurd member (List.not_mem_nil), fun _ => ⟨_, rfl⟩⟩
  | cons item rest ih =>
    rw [List.forall_mem_cons, ← ih, verdictEvidence]
    constructor
    · rintro ⟨refs, ran⟩
      obtain ⟨first, head, next⟩ := bind_ok.mp ran
      obtain ⟨others, tail, -⟩ := bind_ok.mp next
      exact ⟨⟨first, head⟩, others, tail⟩
    · rintro ⟨⟨first, head⟩, others, tail⟩
      exact ⟨first ++ others, by rw [head, ok_bind, tail, ok_bind]; rfl⟩

/-- The evidence of all assertions can be listed, or the verdicts are the same. -/
def EvidenceRead (rawLeft rawRight : Pack) (before after : JsonValue) : Prop :=
  before.eq after = true ∨
    (∀ item ∈ objectsAt rawLeft.oracle "assertions", Iterable (getArray item "evidence")) ∧
      ∀ item ∈ objectsAt rawRight.oracle "assertions", Iterable (getArray item "evidence")

theorem verdictChanges_ok {rawLeft rawRight : Pack} {before after : JsonValue} :
    (∃ changes, verdictChanges rawLeft rawRight before after = .ok changes) ↔
      EvidenceRead rawLeft rawRight before after := by
  rw [verdictChanges, EvidenceRead, ← verdictEvidence_ok, ← verdictEvidence_ok]
  by_cases same : before.eq after = true
  · rw [if_pos same]
    exact ⟨fun _ => .inl same, fun _ => ⟨_, rfl⟩⟩
  · rw [if_neg same, or_iff_right same]
    constructor
    · rintro ⟨changes, ran⟩
      obtain ⟨first, head, next⟩ := bind_ok.mp ran
      obtain ⟨second, tail, -⟩ := bind_ok.mp next
      exact ⟨⟨first, head⟩, second, tail⟩
    · rintro ⟨⟨first, head⟩, second, tail⟩
      exact ⟨_, by rw [head, ok_bind, tail, ok_bind]; rfl⟩

theorem verdictChanges_nil {rawLeft rawRight : Pack} {before after : JsonValue} {changes : List Change}
    (ran : verdictChanges rawLeft rawRight before after = .ok changes) :
    changes = [] ↔ before.eq after = true := by
  rw [verdictChanges] at ran
  by_cases same : before.eq after = true
  · rw [if_pos same] at ran
    obtain rfl := Except.ok.inj ran
    exact ⟨fun _ => same, fun _ => rfl⟩
  · rw [if_neg same] at ran
    obtain ⟨first, -, next⟩ := bind_ok.mp ran
    obtain ⟨second, -, done⟩ := bind_ok.mp next
    obtain rfl := Except.ok.inj done
    exact ⟨nofun, fun is => absurd is same⟩

end verdict

section exactness
variable {digit : Nat → Option Nat} {rawLeft rawRight : Pack} {left right : NormalizedPack}

/-- The comparison can read what it lists and what it compares as numbers. -/
structure Readable (digit : Nat → Option Nat) (rawLeft rawRight : Pack) (left right : NormalizedPack) :
    Prop where
  evidence : EvidenceRead rawLeft rawRight left.oracle.verdict right.oracle.verdict
  timing : ∀ identifier, TimingRead digit identifier (left.oracle.assertions.get? identifier)
    (right.oracle.assertions.get? identifier)

theorem get?_absent {xs ys : JsonDict} {identifier : Text}
    (unused : identifier ∉ unionTexts xs.keys ys.keys) :
    xs.get? identifier = none ∧ ys.get? identifier = none := by
  rw [mem_unionTexts, not_or] at unused
  exact ⟨JsonDict.get?_eq_none.mpr unused.1, JsonDict.get?_eq_none.mpr unused.2⟩

/-- The comparison returns exactly where everything it needs can be read. -/
theorem changesOf_ok : (∃ changes, changesOf digit 0 rawLeft rawRight left right = .ok changes) ↔
    Readable digit rawLeft rawRight left right := by
  constructor
  · rintro ⟨changes, ran⟩
    obtain ⟨verdict, verdictRan, next⟩ := bind_ok.mp ran
    obtain ⟨assertions, assertionsRan, -⟩ := bind_ok.mp next
    refine ⟨verdictChanges_ok.1 ⟨verdict, verdictRan⟩, fun identifier => ?_⟩
    by_cases used : identifier ∈ unionTexts left.oracle.assertions.keys right.oracle.assertions.keys
    · exact assertionChanges_ok.1 ⟨assertions, assertionsRan⟩ identifier used
    · obtain ⟨first, second⟩ := get?_absent used
      rw [first, second]
      exact .inl rfl
  · rintro ⟨evidence, timing⟩
    obtain ⟨verdict, verdictRan⟩ := verdictChanges_ok.2 evidence
    obtain ⟨assertions, assertionsRan⟩ := assertionChanges_ok.2 fun identifier _ => timing identifier
    exact ⟨_, by rw [changesOf, verdictRan, ok_bind, assertionsRan, ok_bind]; rfl⟩

theorem changesOf_nil {changes : List Change} (formed : WellFormed left) (formed' : WellFormed right)
    (ran : changesOf digit 0 rawLeft rawRight left right = .ok changes) :
    changes = [] ↔ left.Similar digit right := by
  obtain ⟨verdict, verdictRan, next⟩ := bind_ok.mp ran
  obtain ⟨assertions, assertionsRan, done⟩ := bind_ok.mp next
  obtain rfl := Except.ok.inj done
  have listed : ∀ {items : List JsonValue}, (∀ item ∈ items, item.Proper) → (JsonValue.list items).Proper :=
    fun each => proper_list.mpr each
  have sequence : ∀ (key category : Text) {xs ys : List JsonValue}, (∀ item ∈ xs, item.Proper) →
      (∀ item ∈ ys, item.Proper) →
      (sequenceChanges key category rawLeft rawRight xs ys = [] ↔ List.Forall₂ Agrees xs ys) :=
    fun key category _ _ proper proper' => counted_nil fun sizes => listChanges_nil sizes proper proper'
  simp only [List.append_eq_nil_iff, walkChanges_nil formed.dialog formed'.dialog,
    walkChanges_nil (listed formed.dialogs) (listed formed'.dialogs), agrees_list,
    verdictChanges_nil verdictRan, transactionChanges_nil formed.transactions formed'.transactions,
    sequence _ _ formed.sdpRevisions formed'.sdpRevisions,
    sequence _ _ formed.mediaPackets formed'.mediaPackets,
    streamChanges_nil formed.streams formed'.streams,
    assertionChanges_nil (fun entry member => (formed.assertions entry member).1)
      (fun entry member => (formed'.assertions entry member).1) assertionsRan]
  constructor
  · rintro ⟨⟨⟨⟨⟨⟨⟨dialog, dialogs⟩, verdict⟩, transactions⟩, revisions⟩, packets⟩, streams⟩, assertions⟩
    refine ⟨dialog, dialogs, verdict, transactions, revisions, packets, streams, fun identifier => ?_⟩
    by_cases used : identifier ∈ unionTexts left.oracle.assertions.keys right.oracle.assertions.keys
    · exact assertions identifier used
    · obtain ⟨first, second⟩ := get?_absent used
      rw [first, second]
      exact assertionsAgree_absent
  · rintro ⟨dialog, dialogs, verdict, transactions, revisions, packets, streams, assertions⟩
    exact ⟨⟨⟨⟨⟨⟨⟨dialog, dialogs⟩, verdict⟩, transactions⟩, revisions⟩, packets⟩, streams⟩,
      fun identifier _ => assertions identifier⟩

theorem diffOf_equal (tolerance : Int) (changes : List Change) :
    (diffOf tolerance changes).verdict = "equal" ↔ changes = [] := by
  have size := (List.perm_insertionSort (fun a b : Change => a.before b = true) changes).length_eq
  rw [diffOf]
  constructor
  · intro verdict
    by_contra some_
    rw [← List.length_eq_zero_iff, ← size, List.length_eq_zero_iff] at some_
    simp only [List.isEmpty_iff, if_neg some_] at verdict
    exact absurd verdict (by decide)
  · rintro rfl
    rfl

theorem forall₂_agrees {xs ys : List JsonValue} (proper : ∀ item ∈ xs, item.Proper)
    (proper' : ∀ item ∈ ys, item.Proper) (equal : List.Forall₂ (fun x y => x.eq y = true) xs ys) :
    List.Forall₂ Agrees xs ys :=
  forall₂_imp_of_mem equal fun x inside y inside' same => agrees_of_eq (proper x inside) (proper' y inside') same

theorem fieldOf_eq_of_eq {before after : JsonValue} (proper : before.Proper) (proper' : after.Proper)
    (equal : before.eq after = true) (field : Text) :
    (fieldOf before field).eq (fieldOf after field) = true := by
  cases before with
  | dict d =>
    obtain ⟨d', rfl⟩ := JsonValue.eq_dict_left equal
    have same := (JsonValue.eq_dict (proper_dict.1 proper).1 (proper_dict.1 proper').1).mp equal field
    rw [fieldOf, fieldOf, JsonDict.find, JsonDict.find]
    generalize JsonDict.get? d field = held, JsonDict.get? d' field = held' at same
    cases same with
    | none => rfl
    | some related => exact related
  | list items =>
    obtain ⟨items', rfl⟩ := JsonValue.eq_list_left equal
    rfl
  | _ =>
    have apart := JsonValue.eq_scalar_left (fun _ => JsonValue.noConfusion)
      (fun _ => JsonValue.noConfusion) equal
    cases after with
    | dict d => exact absurd rfl (apart.2 d)
    | _ => rfl

theorem transactionsAgree_of_eq {before after : JsonValue} (proper : before.Proper) (proper' : after.Proper)
    (equal : before.eq after = true) : TransactionsAgree before after :=
  ⟨.inl (fieldOf_eq_of_eq proper proper' equal _), fun field _ =>
    agrees_of_eq (proper_fieldOf proper field) (proper_fieldOf proper' field)
      (fieldOf_eq_of_eq proper proper' equal field)⟩

/-- Equal packs are similar, but for streams whose directions are equal and not the same text. -/
theorem similar_of_equal (formed : WellFormed left) (formed' : WellFormed right) (equal : left.Equal right) :
    left.Similar digit right ↔ StreamsAgree left.oracle.streams right.oracle.streams := by
  refine ⟨fun similar => similar.streams, fun streams => ?_⟩
  exact {
    dialog := agrees_of_eq formed.dialog formed'.dialog equal.model.dialog
    dialogs := forall₂_agrees formed.dialogs formed'.dialogs equal.dialogs
    verdict := equal.verdict
    transactions := forall₂_imp_of_mem equal.model.transactions fun x inside y inside' same =>
      transactionsAgree_of_eq (formed.transactions x inside).1 (formed'.transactions y inside').1 same
    sdpRevisions := forall₂_agrees formed.sdpRevisions formed'.sdpRevisions equal.model.sdpRevisions
    mediaPackets := forall₂_agrees formed.mediaPackets formed'.mediaPackets equal.model.mediaPackets
    streams
    assertions := fun identifier => by
      have same := (JsonValue.eq_dict formed.unique formed'.unique).mp equal.assertions identifier
      left
      generalize left.oracle.assertions.get? identifier = held,
        right.oracle.assertions.get? identifier = held' at same
      cases same with
      | none => rfl
      | some related => exact related }

/-- Packs that differ, in a way that the comparison passes over. -/
def Overlooked (digit : Nat → Option Nat) (left right : NormalizedPack) : Prop :=
  left.Similar digit right ∧ ¬ left.Equal right

/-- Equal packs whose streams are grouped under other texts. -/
def Regrouped (left right : NormalizedPack) : Prop :=
  left.Equal right ∧ ¬ StreamsAgree left.oracle.streams right.oracle.streams

/-- With no tolerance the comparison is exact unless it passes over the difference of the packs,
tells equal directions apart by their text, or raises. -/
theorem compareBehaviorPacks_exact_iff (digit : Nat → Option Nat) (rawLeft rawRight : Pack)
    (left right : NormalizedPack) (proper : Proper (.dict rawLeft.model) ∧ Proper (.dict rawLeft.oracle))
    (proper' : Proper (.dict rawRight.model) ∧ Proper (.dict rawRight.oracle))
    (run : normalizePack rawLeft = .ok left) (run' : normalizePack rawRight = .ok right) :
    (∃ diff, compareBehaviorPacks digit rawLeft rawRight 0 = .ok diff ∧
      (diff.verdict = "equal" ↔ left.Equal right)) ↔
    Readable digit rawLeft rawRight left right ∧ ¬ Overlooked digit left right ∧ ¬ Regrouped left right := by
  have formed := wellFormed proper.1 proper.2 run
  have formed' := wellFormed proper'.1 proper'.2 run'
  have compared : compareBehaviorPacks digit rawLeft rawRight 0 =
      (changesOf digit 0 rawLeft rawRight left right).map (diffOf 0) := by
    rw [compareBehaviorPacks, run, run']
    rfl
  rw [compared, ← changesOf_ok]
  constructor
  · rintro ⟨diff, ran, exactly⟩
    rcases found : changesOf digit 0 rawLeft rawRight left right with raised | changes
    · rw [found] at ran
      cases ran
    · rw [found] at ran
      obtain rfl := Except.ok.inj ran
      rw [diffOf_equal, changesOf_nil formed formed' found] at exactly
      refine ⟨⟨changes, rfl⟩, ?_, ?_⟩
      · rintro ⟨similar, differ⟩
        exact differ (exactly.mp similar)
      · rintro ⟨equal, regrouped⟩
        exact regrouped ((similar_of_equal formed formed' equal).mp (exactly.mpr equal))
  · rintro ⟨⟨changes, found⟩, overlooked, regrouped⟩
    refine ⟨diffOf 0 changes, by rw [found]; rfl, ?_⟩
    rw [diffOf_equal, changesOf_nil formed formed' found]
    constructor
    · exact fun similar => by_contra fun differ => overlooked ⟨similar, differ⟩
    · intro equal
      rw [similar_of_equal formed formed' equal]
      exact by_contra fun other => regrouped ⟨equal, other⟩

def exampleModelDocument (media : JsonValue) : JsonDict := [
  JsonDict.entry "schema" (.str "sippycup.learned-dialog/v1"), JsonDict.entry "dialog" (.dict []),
  JsonDict.entry "transactions" (.list []),
  JsonDict.entry "sdpRevisions" (.list [.dict [JsonDict.entry "media" media]])]

def exampleOracleDocument : JsonDict := [
  JsonDict.entry "schema_version" (.str "sippycup.results/v1"), JsonDict.entry "dialogs" (.list []),
  JsonDict.entry "streams" (.list []), JsonDict.entry "assertions" (.list []),
  JsonDict.entry "verdict" (.str "pass")]

def examplePack (media : JsonValue) : Pack := ⟨exampleModelDocument media, exampleOracleDocument⟩

theorem examplePack_proper {media : JsonValue} (proper : media.Proper) :
    Proper (.dict (examplePack media).model) ∧ Proper (.dict (examplePack media).oracle) := by
  have model : (["schema", "dialog", "transactions", "sdpRevisions"].map Text.ofString).Nodup := by decide
  have oracle : (["schema_version", "dialogs", "streams", "assertions", "verdict"].map Text.ofString).Nodup := by
    decide
  have revision : (["media"].map Text.ofString).Nodup := by decide
  exact ⟨⟨model, trivial, ⟨List.nodup_nil, trivial⟩, trivial, ⟨⟨revision, proper, trivial⟩, trivial⟩, trivial⟩,
    oracle, trivial, trivial, trivial, trivial, trivial, trivial⟩

theorem examplePacks_exact_iff : ∃ left right,
    normalizePack (examplePack (.str "audio")) = .ok left ∧
    normalizePack (examplePack (.str "video")) = .ok right ∧
    ((∃ diff, compareBehaviorPacks (fun _ => none) (examplePack (.str "audio")) (examplePack (.str "video")) 0 =
        .ok diff ∧ (diff.verdict = "equal" ↔ left.Equal right)) ↔
      Readable (fun _ => none) (examplePack (.str "audio")) (examplePack (.str "video")) left right ∧
        ¬ Overlooked (fun _ => none) left right ∧ ¬ Regrouped left right) :=
  ⟨_, _, rfl, rfl, compareBehaviorPacks_exact_iff _ _ _ _ _ (examplePack_proper trivial)
    (examplePack_proper trivial) rfl rfl⟩

/-- A key that holds null is not told from one that is absent. -/
theorem nullKey_overlooked : ∃ left right diff,
    loadBehaviorPack (exampleModelDocument (.dict [JsonDict.entry "codec" .null])) exampleOracleDocument =
      .ok (examplePack (.dict [JsonDict.entry "codec" .null])) ∧
    loadBehaviorPack (exampleModelDocument (.dict [])) exampleOracleDocument = .ok (examplePack (.dict [])) ∧
    normalizePack (examplePack (.dict [JsonDict.entry "codec" .null])) = .ok left ∧
    normalizePack (examplePack (.dict [])) = .ok right ∧
    compareBehaviorPacks (fun _ => none) (examplePack (.dict [JsonDict.entry "codec" .null]))
      (examplePack (.dict [])) 0 = .ok diff ∧
    diff.verdict = "equal" ∧ ¬ left.Equal right := by
  refine ⟨_, _, _, rfl, rfl, rfl, rfl, rfl, rfl, fun equal => ?_⟩
  have revisions := equal.model.sdpRevisions
  rw [← JsonValue.eq_list] at revisions
  exact absurd revisions (by decide)

end exactness

end Sippycup.Learn
