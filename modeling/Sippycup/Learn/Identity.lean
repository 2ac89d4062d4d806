import Sippycup.Learn.Recovery
import Sippycup.Machine.Pointwise

/-! Models with equal semantic models: their compared fields differ in the names of
placeholders and in the origins of both clocks only. -/
namespace Sippycup.Learn
open Sippycup.Python Sippycup.Machine

def comparedTransaction (transaction : JsonDict) : JsonValue :=
  projectTransaction transaction ((objects? (getArray transaction "responses")).getD [])

/-- The fields of a model that are compared, before they are normalized. -/
def compared (parts : ModelParts) : SemanticModel where
  dialog := projectDialog parts.dialog
  transactions := parts.transactions.map comparedTransaction
  sdpRevisions := parts.sdpRevisions.map projectRevision
  mediaPackets := parts.mediaPackets.map (projectPacket 0)

def comparedFields (model : JsonDict) : Result SemanticModel := do
  return compared (← readModel model)

/-- `==` of two semantic models. -/
structure SemanticModel.Equal (a b : SemanticModel) : Prop where
  dialog : a.dialog.eq b.dialog = true
  transactions : List.Forall₂ (fun x y => x.eq y = true) a.transactions b.transactions
  sdpRevisions : List.Forall₂ (fun x y => x.eq y = true) a.sdpRevisions b.sdpRevisions
  mediaPackets : List.Forall₂ (fun x y => x.eq y = true) a.mediaPackets b.mediaPackets

/-- No ephemeral port in the fields that are normalized. -/
structure SemanticModel.NoPorts (a : SemanticModel) : Prop where
  transactions : ∀ item ∈ a.transactions, Learn.NoPorts "" item
  sdpRevisions : ∀ item ∈ a.sdpRevisions, Learn.NoPorts "" item
  mediaPackets : ∀ item ∈ a.mediaPackets, Learn.NoPorts "" item

section displays
variable {xs ys : JsonDict}

/-- Two displays of the same keys are equal when their values are. -/
theorem eq_display (keys : xs.keys = ys.keys) (unique : xs.keys.Nodup) :
    (JsonValue.dict xs).eq (.dict ys) = true ↔ List.Forall₂ (fun x y => x.2.eq y.2 = true) xs ys := by
  rw [JsonValue.eq_dict unique (keys ▸ unique)]
  constructor
  · exact forall₂_of_lookups keys unique
  · intro each
    refine lookups_of_forall₂ (R := fun x y => x.eq y = true) ?_
    clear unique
    induction each with
    | nil => exact .nil
    | cons head _ ih =>
      obtain ⟨same, rest⟩ := List.cons.inj keys
      exact .cons ⟨same, head⟩ (ih rest)

end displays

section bounds

/-- What a bound of a window may be. -/
def IsBound (value : JsonValue) : Prop := value = .null ∨ ∃ n, value = .int n

theorem isBound_of_integer {value : JsonValue} {field : String} {ns : List Int}
    (read : integer? value field = .ok ns) : IsBound value := by
  cases value with
  | null => exact .inl rfl
  | int n => exact .inr ⟨n, rfl⟩
  | _ => cases read

theorem IsBound.rename {ρ : Renaming} {value : JsonValue} (bound : IsBound value) :
    Learn.rename ρ value = value := by
  obtain rfl | ⟨n, rfl⟩ := bound <;> rfl

theorem eq_int {m n : Int} : (JsonValue.int m).eq (.int n) = true ↔ m = n := by
  simp [JsonValue.eq, JsonValue.scalarEq, JsonValue.number?, Number.eq]

/-- Values equal from their own origins are a shift of each other. -/
theorem IsBound.shifted {value other : JsonValue} (bound : IsBound value) (bound' : IsBound other)
    {a b : Int} (equal : (shiftInt (-a) value).eq (shiftInt (-b) other) = true) :
    (shiftInt (b - a) value).eq other = true := by
  obtain rfl | ⟨m, rfl⟩ := bound
  · obtain rfl | ⟨n, rfl⟩ := bound'
    · exact equal
    · cases equal
  · obtain rfl | ⟨n, rfl⟩ := bound'
    · simp [shiftInt, JsonValue.eq, JsonValue.scalarEq, JsonValue.number?] at equal
    · rw [shiftInt, shiftInt, eq_int] at equal
      rw [shiftInt, eq_int]
      omega

structure HasWindow (transaction window : JsonDict) : Prop where
  find : transaction.find "timingWindowMs" = .dict window
  unique : window.keys.Nodup
  bounds : ∀ field ∈ timingFields, ∀ value, window.get? field = some value → IsBound value

theorem HasWindow.rename {ρ : Renaming} {transaction window : JsonDict}
    (has : HasWindow transaction window) :
    HasWindow (renameDict ρ transaction) (renameDict ρ window) where
  find := by rw [find_renameDict (by decide) (by decide), has.find, rename_dict]
  unique := by rw [keys_renameDict]; exact has.unique
  bounds := by
    intro field member value held
    have apart : ∀ field ∈ timingFields, field ≠ "type" ∧ field ≠ "name" := by decide
    rw [get?_renameDict (apart field member).1 (apart field member).2] at held
    obtain ⟨old, before, rfl⟩ := Option.map_eq_some_iff.mp held
    have bound := has.bounds field member old before
    rw [bound.rename]
    exact bound

theorem hasWindow {index : Nat} {transaction : JsonDict} {starts : List Int}
    (proper : (JsonValue.dict transaction).Proper) (read : windowStarts index transaction = .ok starts) :
    ∃ window, HasWindow transaction window := by
  rw [windowStarts] at read
  cases held : transaction.find "timingWindowMs" with
  | dict window =>
    rw [held] at read
    obtain ⟨earliest, first, others⟩ := bind_ok.mp read
    obtain ⟨latest, second, -⟩ := bind_ok.mp others
    refine ⟨window, held, ?_, ?_⟩
    · have found : transaction.get? "timingWindowMs" = some (.dict window) := by
        rw [JsonDict.find] at held
        cases looked : transaction.get? "timingWindowMs" with
        | none => rw [looked] at held; cases held
        | some value => rw [looked] at held; exact congrArg some held
      have inner := (JsonValue.proper_dict.1 proper).2 _ (JsonDict.mem_of_get? found)
      exact (JsonValue.proper_dict.1 inner).1
    · intro field member value looked
      have isFind : JsonDict.find window field = value := by
        rw [JsonDict.find, looked]
        rfl
      simp only [timingFields, List.mem_cons, List.not_mem_nil, or_false] at member
      rcases member with rfl | rfl
      · exact isFind ▸ isBound_of_integer first
      · exact isFind ▸ isBound_of_integer second
  | _ => rw [held] at read; cases read

theorem shiftWindow_shifted {window other : JsonDict} {first second : JsonDict}
    (has : HasWindow first window) (has' : HasWindow second other) {a b : Int}
    (equal : (shiftWindow (-a) (.dict window)).eq (shiftWindow (-b) (.dict other)) = true) :
    (shiftWindow (b - a) (.dict window)).eq (.dict other) = true := by
  have keys : ∀ by_ (d : JsonDict),
      JsonDict.keys (d.map fun entry => (entry.1, shiftField by_ entry.1 entry.2)) = d.keys := by
    intro by_ d
    simp [JsonDict.keys, Function.comp_def]
  rw [shiftWindow_dict, shiftWindow_dict, JsonValue.eq_dict (by rw [keys]; exact has.unique)
    (by rw [keys]; exact has'.unique)] at equal
  rw [shiftWindow_dict, JsonValue.eq_dict (by rw [keys]; exact has.unique) has'.unique]
  intro key
  have agree := equal key
  rw [JsonDict.get?_map (shiftField (-a)), JsonDict.get?_map (shiftField (-b))] at agree
  rw [JsonDict.get?_map (shiftField (b - a))]
  rcases left : window.get? key with _ | value <;> rcases right : other.get? key with _ | value' <;>
    rw [left, right] at agree
  · exact .none
  · cases agree
  · cases agree
  · refine .some ?_
    cases agree with
    | some same =>
      rw [shiftField] at same ⊢
      by_cases timing : key ∈ timingFields
      · rw [if_pos timing, shiftField, if_pos timing] at same
        rw [if_pos timing]
        exact (has.bounds key timing value left).shifted (has'.bounds key timing value' right) same
      · rw [if_neg timing, shiftField, if_neg timing] at same
        rw [if_neg timing]
        exact same

end bounds

section parts
variable {ρ : Renaming}

theorem comparedTransaction_rename (transaction : JsonDict) :
    comparedTransaction (renameDict ρ transaction) = rename ρ (comparedTransaction transaction) := by
  rw [comparedTransaction, getArray_renameDict (by decide) (by decide), objects?_rename,
    comparedTransaction, ← projectTransaction_rename]
  cases objects? (getArray transaction "responses") <;> rfl

/-- Of the compared fields a shift changes the window. -/
theorem comparedTransaction_shift (by_ : Int) (transaction : JsonDict) :
    comparedTransaction (shiftTransaction by_ transaction) = .dict [
      JsonDict.entry "method" (transaction.find "method"),
      JsonDict.entry "direction" (transaction.find "direction"),
      JsonDict.entry "flow" (transaction.find "flow"),
      JsonDict.entry "timingWindowMs" (shiftWindow by_ (transaction.find "timingWindowMs")),
      JsonDict.entry "requestHasSdp" (transaction.find "requestHasSdp"),
      JsonDict.entry "responses" (.list
        (((objects? (getArray transaction "responses")).getD []).map projectResponse))] := by
  have other : ∀ key : Text, key ≠ "timingWindowMs" →
      (shiftTransaction by_ transaction).find key = transaction.find key :=
    fun _ => find_shiftTransaction_of_ne by_ transaction
  rw [comparedTransaction, getArray_shiftTransaction, projectTransaction, find_shiftTransaction,
    other "method" (by decide), other "direction" (by decide), other "flow" (by decide),
    other "requestHasSdp" (by decide)]

theorem comparedTransaction_eq (transaction : JsonDict) :
    comparedTransaction transaction = .dict [
      JsonDict.entry "method" (transaction.find "method"),
      JsonDict.entry "direction" (transaction.find "direction"),
      JsonDict.entry "flow" (transaction.find "flow"),
      JsonDict.entry "timingWindowMs" (transaction.find "timingWindowMs"),
      JsonDict.entry "requestHasSdp" (transaction.find "requestHasSdp"),
      JsonDict.entry "responses" (.list
        (((objects? (getArray transaction "responses")).getD []).map projectResponse))] := rfl

theorem transaction_shifted {first window second other : JsonDict} (has : HasWindow first window)
    (has' : HasWindow second other) {a b : Int}
    (equal : (comparedTransaction (shiftTransaction (-a) first)).eq
      (comparedTransaction (shiftTransaction (-b) second)) = true) :
    (comparedTransaction (shiftTransaction (b - a) first)).eq (comparedTransaction second) = true := by
  have keys : ["method", "direction", "flow", "timingWindowMs", "requestHasSdp", "responses"].map
    Text.ofString |>.Nodup := by decide
  rw [comparedTransaction_shift, comparedTransaction_shift, eq_display (by rfl) (by exact keys)] at equal
  rw [comparedTransaction_shift, comparedTransaction_eq, eq_display (by rfl) (by exact keys)]
  simp only [List.forall₂_cons, JsonDict.entry] at equal ⊢
  obtain ⟨method, direction, flow, window, rest⟩ := equal
  refine ⟨method, direction, flow, ?_, rest⟩
  rw [has.find, has'.find] at window
  rw [has.find, has'.find]
  exact shiftWindow_shifted has has' window

theorem packet_shifted {first second : JsonDict} (bound : IsBound (first.find "offsetMs"))
    (bound' : IsBound (second.find "offsetMs")) {a b : Int}
    (equal : (projectPacket a first).eq (projectPacket b second) = true) :
    (projectPacket 0 (shiftPacket (b - a) first)).eq (projectPacket 0 second) = true := by
  have moved : projectPacket 0 (shiftPacket (b - a) first) = projectPacket (a - b) first := by
    rw [← projectPacket_shift (a - b) (b - a)]
    congr 1
    omega
  have keys : ["ssrc", "sequence", "timestamp", "payloadType", "offsetMs"].map
    Text.ofString |>.Nodup := by decide
  rw [projectPacket, projectPacket, eq_display (by rfl) (by exact keys)] at equal
  rw [moved, projectPacket, projectPacket, eq_display (by rfl) (by exact keys)]
  simp only [List.forall₂_cons, JsonDict.entry] at equal ⊢
  obtain ⟨ssrc, sequence, timestamp, payloadType, offset, rest⟩ := equal
  refine ⟨ssrc, sequence, timestamp, payloadType, ?_, rest⟩
  have still : shiftInt (-0) (second.find "offsetMs") = second.find "offsetMs" := by
    obtain null | ⟨n, is⟩ := bound'
    · rw [null]; rfl
    · rw [is, shiftInt]; simp
  rw [still, show -(a - b) = b - a by omega]
  exact bound.shifted bound' offset

theorem isBound_of_offsets {packets : List JsonDict} {offsets : List Int}
    (read : packetOffsets packets = .ok offsets) : ∀ packet ∈ packets, IsBound (packet.find "offsetMs") := by
  induction packets generalizing offsets with
  | nil => exact fun _ member => absurd member (List.not_mem_nil)
  | cons packet rest ih =>
    rw [packetOffsets] at read
    obtain ⟨offset, first, next⟩ := bind_ok.mp read
    obtain ⟨others, second, -⟩ := bind_ok.mp next
    exact List.forall_mem_cons.mpr ⟨isBound_of_integer first, ih second⟩

theorem hasWindow_of_starts {index : Nat} {transactions : List JsonDict} {starts : List Int}
    (proper : ∀ transaction ∈ transactions, (JsonValue.dict transaction).Proper)
    (read : timingStarts index transactions = .ok starts) :
    ∀ transaction ∈ transactions, ∃ window, HasWindow transaction window := by
  induction transactions generalizing index starts with
  | nil => exact fun _ member => absurd member (List.not_mem_nil)
  | cons transaction rest ih =>
    rw [timingStarts] at read
    obtain ⟨own, first, next⟩ := bind_ok.mp read
    obtain ⟨others, second, -⟩ := bind_ok.mp next
    obtain ⟨head, tail⟩ := List.forall_mem_cons.mp proper
    exact List.forall_mem_cons.mpr ⟨hasWindow head first, ih tail second⟩

theorem normalizeTransactions_ok {names after : Names} {index : Nat} {transactions : List JsonDict}
    {outputs : List JsonValue}
    (run : normalizeTransactions names index transactions = .ok (outputs, after)) :
    normalizeItems names "" ((transactions.map comparedTransaction).map JsonValue.sortKeys) =
      .ok (outputs, after) := by
  induction transactions generalizing names index outputs with
  | nil => exact run
  | cons transaction rest ih =>
    rw [normalizeTransactions] at run
    obtain ⟨responses, read, run⟩ := bind_ok.mp run
    obtain ⟨⟨first, between⟩, head, run⟩ := bind_ok.mp run
    obtain ⟨⟨others, last⟩, tail, done⟩ := bind_ok.mp run
    have is : comparedTransaction transaction = projectTransaction transaction responses := by
      rw [readObjects] at read
      rw [comparedTransaction]
      cases held : objects? (getArray transaction "responses") with
      | none => rw [held] at read; cases read
      | some items => rw [held] at read; rw [← Except.ok.inj read]; rfl
    obtain ⟨rfl, rfl⟩ := Prod.mk.inj (Except.ok.inj done)
    rw [List.map_cons, List.map_cons, normalizeItems, is, head, ok_bind]
    simp only [ih tail, ok_bind]
    rfl

/-- How a semantic model is made: three runs that share their names. -/
structure Made (parts : ModelParts) (a : SemanticModel) (origin packetOrigin : Int)
    (first second third : Names) : Prop where
  dialog : a.dialog = projectDialog parts.dialog
  windows : (∀ transaction ∈ parts.transactions, (JsonValue.dict transaction).Proper) →
    ∀ transaction ∈ parts.transactions, ∃ window, HasWindow transaction window
  transactions : normalizeItems (fun _ => []) ""
    (((parts.transactions.map (shiftTransaction (-origin))).map comparedTransaction).map
      JsonValue.sortKeys) = .ok (a.transactions, first)
  revisions : normalizeItems first "" ((parts.sdpRevisions.map projectRevision).map JsonValue.sortKeys) =
    .ok (a.sdpRevisions, second)
  offsets : ∀ packet ∈ parts.mediaPackets, IsBound (packet.find "offsetMs")
  packets : normalizeItems second ""
    ((parts.mediaPackets.map (projectPacket packetOrigin)).map JsonValue.sortKeys) =
      .ok (a.mediaPackets, third)

theorem normalizeParts_ok {parts : ModelParts} {a : SemanticModel} (run : normalizeParts parts = .ok a) :
    ∃ origin packetOrigin first second third, Made parts a origin packetOrigin first second third := by
  rw [normalizeParts] at run
  obtain ⟨transactions, timed, run⟩ := bind_ok.mp run
  obtain ⟨⟨outputs, first⟩, one, run⟩ := bind_ok.mp run
  obtain ⟨⟨revisions, second⟩, two, run⟩ := bind_ok.mp run
  obtain ⟨offsets, read, run⟩ := bind_ok.mp run
  obtain ⟨⟨packets, third⟩, three, done⟩ := bind_ok.mp run
  obtain rfl := Except.ok.inj done
  rw [normalizeTiming] at timed
  obtain ⟨starts, started, shifted⟩ := bind_ok.mp timed
  obtain rfl := Except.ok.inj shifted
  refine ⟨originOf starts, originOf offsets, first, second, third, {
    dialog := rfl
    windows := fun proper => hasWindow_of_starts proper started
    transactions := normalizeTransactions_ok one
    revisions := ?_
    offsets := isBound_of_offsets read
    packets := ?_ }⟩
  · rw [List.map_map]
    exact two
  · rw [List.map_map]
    exact three

end parts

section proper
open JsonValue (Proper proper_dict proper_list proper_find)

theorem proper_getArray {d : JsonDict} (proper : Proper (.dict d)) (key : Text) :
    Proper (getArray d key) := by
  rw [getArray]
  cases held : d.get? key with
  | none => exact trivial
  | some value => exact (proper_dict.1 proper).2 _ (JsonDict.mem_of_get? held)

theorem proper_map {d : JsonDict} {f : Text → JsonValue → JsonValue} (proper : Proper (.dict d))
    (each : ∀ key value, Proper value → Proper (f key value)) :
    Proper (.dict (d.map fun entry => (entry.1, f entry.1 entry.2))) := by
  obtain ⟨unique, inner⟩ := proper_dict.1 proper
  rw [proper_dict]
  constructor
  · simpa [JsonDict.keys, Function.comp_def] using unique
  · intro entry member
    obtain ⟨old, listed, rfl⟩ := List.mem_map.mp member
    exact each old.1 old.2 (inner old listed)

theorem proper_shiftInt {value : JsonValue} (by_ : Int) (proper : Proper value) :
    Proper (shiftInt by_ value) := by
  cases value with
  | int n => exact trivial
  | _ => exact proper

theorem proper_shiftTransaction {transaction : JsonDict} (by_ : Int) (proper : Proper (.dict transaction)) :
    Proper (.dict (shiftTransaction by_ transaction)) := by
  refine proper_map (f := shiftOwnWindow by_) proper fun key value inner => ?_
  rw [shiftOwnWindow]
  split
  · cases value with
    | dict window =>
      refine proper_map (f := shiftField by_) inner fun key value inner => ?_
      rw [shiftField]
      split
      · exact proper_shiftInt by_ inner
      · exact inner
    | _ => exact inner
  · exact inner

theorem proper_comparedTransaction {transaction : JsonDict} (proper : Proper (.dict transaction)) :
    Proper (comparedTransaction transaction) := by
  have keys : (["method", "direction", "flow", "timingWindowMs", "requestHasSdp", "responses"].map
    Text.ofString).Nodup := by decide
  have responseKeys : (["status", "optional"].map Text.ofString).Nodup := by decide
  rw [comparedTransaction_eq, proper_dict]
  refine ⟨keys, ?_⟩
  simp only [List.forall_mem_cons, JsonDict.entry]
  refine ⟨proper_find proper _, proper_find proper _, proper_find proper _, proper_find proper _,
    proper_find proper _, ?_, fun _ member => absurd member (List.not_mem_nil)⟩
  rw [proper_list]
  intro item member
  obtain ⟨response, listed, rfl⟩ := List.mem_map.mp member
  have inner : Proper (.dict response) := by
    cases read : objects? (getArray transaction "responses") with
    | none => rw [read] at listed; cases listed
    | some responses =>
      rw [read] at listed
      have array := proper_getArray proper "responses"
      rw [objects?_some read, proper_list] at array
      exact array _ (List.mem_map_of_mem listed)
  rw [projectResponse, proper_dict]
  refine ⟨responseKeys, ?_⟩
  simp only [List.forall_mem_cons, JsonDict.entry]
  exact ⟨proper_find inner _, proper_find inner _, fun _ member => absurd member (List.not_mem_nil)⟩

theorem proper_projectRevision {revision : JsonDict} (proper : Proper (.dict revision)) :
    Proper (projectRevision revision) := by
  have keys : (["role", "method", "status", "media"].map Text.ofString).Nodup := by decide
  rw [projectRevision, proper_dict]
  refine ⟨keys, ?_⟩
  simp only [List.forall_mem_cons, JsonDict.entry]
  exact ⟨proper_find proper _, proper_find proper _, proper_find proper _, proper_find proper _,
    fun _ member => absurd member (List.not_mem_nil)⟩

theorem proper_projectPacket {packet : JsonDict} (origin : Int) (proper : Proper (.dict packet)) :
    Proper (projectPacket origin packet) := by
  have keys : (["ssrc", "sequence", "timestamp", "payloadType", "offsetMs"].map Text.ofString).Nodup := by
    decide
  rw [projectPacket, proper_dict]
  refine ⟨keys, ?_⟩
  simp only [List.forall_mem_cons, JsonDict.entry]
  exact ⟨proper_find proper _, proper_find proper _, proper_find proper _, proper_find proper _,
    proper_shiftInt _ (proper_find proper _), fun _ member => absurd member (List.not_mem_nil)⟩

theorem noPorts_shiftWindow {window : JsonDict} {field : Text} (by_ : Int)
    (noPorts : NoPorts field (.dict window)) : NoPorts field (shiftWindow by_ (.dict window)) := by
  have plain : ∀ key ∈ timingFields, endsWithPort key = false := by decide
  rw [noPorts_dict] at noPorts
  rw [shiftWindow_dict, noPorts_dict]
  intro entry member
  obtain ⟨old, listed, rfl⟩ := List.mem_map.mp member
  have before := noPorts old listed
  simp only [shiftField]
  split
  · rename_i timing
    cases held : old.2 with
    | int n => simp [shiftInt, NoPorts, ephemeralPort, plain old.1 timing]
    | _ => rw [held] at before; exact before
  · exact before

theorem noPorts_shifted {transaction window : JsonDict} (has : HasWindow transaction window) (by_ : Int)
    (noPorts : NoPorts "" (comparedTransaction transaction)) :
    NoPorts "" (comparedTransaction (shiftTransaction by_ transaction)) := by
  rw [comparedTransaction_eq, noPorts_dict] at noPorts
  rw [comparedTransaction_shift, noPorts_dict]
  simp only [List.forall_mem_cons, JsonDict.entry] at noPorts ⊢
  obtain ⟨method, direction, flow, timing, rest⟩ := noPorts
  refine ⟨method, direction, flow, ?_, rest⟩
  rw [has.find] at timing ⊢
  exact noPorts_shiftWindow by_ timing

theorem noPorts_packet {packet : JsonDict} (bound : IsBound (packet.find "offsetMs")) (origin : Int)
    (noPorts : NoPorts "" (projectPacket 0 packet)) : NoPorts "" (projectPacket origin packet) := by
  rw [projectPacket, noPorts_dict] at noPorts ⊢
  simp only [List.forall_mem_cons, JsonDict.entry] at noPorts ⊢
  obtain ⟨ssrc, sequence, timestamp, payloadType, -, rest⟩ := noPorts
  refine ⟨ssrc, sequence, timestamp, payloadType, ?_, rest⟩
  have plain : endsWithPort "offsetMs" = false := by decide
  obtain null | ⟨n, is⟩ := bound
  · rw [null]; exact rfl
  · rw [is]; simp [shiftInt, NoPorts, ephemeralPort, plain]

/-- Every part of a model has each key once. -/
structure ProperParts (parts : ModelParts) : Prop where
  transactions : ∀ item ∈ parts.transactions, Proper (.dict item)
  sdpRevisions : ∀ item ∈ parts.sdpRevisions, Proper (.dict item)
  mediaPackets : ∀ item ∈ parts.mediaPackets, Proper (.dict item)

theorem properParts {model : JsonDict} {parts : ModelParts} (proper : Proper (.dict model))
    (read : ReadFrom model parts) : ProperParts parts := by
  have array : ∀ {items : List JsonDict}, Proper (.list (items.map JsonValue.dict)) →
      ∀ item ∈ items, Proper (.dict item) :=
    fun held item member => proper_list.mp held _ (List.mem_map_of_mem member)
  have entries := (proper_dict.1 proper).2
  refine ⟨array (entries _ (JsonDict.mem_of_get? read.transactions)),
    array (entries _ (JsonDict.mem_of_get? read.revisions)), array ?_⟩
  rw [← read.packets]
  exact proper_getArray proper _

end proper

section model
variable {parts parts' : ModelParts} {a b : SemanticModel}

theorem compared_transform (ρ : Renaming) (c d : Int) :
    compared (transformParts ρ c d parts) = {
      dialog := projectDialog parts.dialog
      transactions := parts.transactions.map fun transaction =>
        comparedTransaction (shiftTransaction c (renameDict ρ transaction))
      sdpRevisions := parts.sdpRevisions.map fun revision => rename ρ (projectRevision revision)
      mediaPackets := parts.mediaPackets.map fun packet =>
        projectPacket 0 (shiftPacket d (renameDict ρ packet)) } := by
  rw [compared, transformParts, projectDialog_transform]
  congr 1
  · rw [List.map_map]; rfl
  · rw [List.map_map]
    exact List.map_congr_left fun revision _ => projectRevision_rename revision
  · rw [List.map_map]; rfl

/-- Parts whose semantic models are equal are the same up to names and clock origins. -/
theorem parts_recovered (proper : ProperParts parts) (proper' : ProperParts parts')
    (noPorts : (compared parts).NoPorts) (noPorts' : (compared parts').NoPorts)
    (run : normalizeParts parts = .ok a) (run' : normalizeParts parts' = .ok b) (equal : a.Equal b) :
    ∃ ρ c d, (∀ kind, Function.Injective (ρ kind)) ∧
      (compared (transformParts ρ c d parts)).Equal (compared parts') := by
  obtain ⟨origin, packetOrigin, first, second, third, made⟩ := normalizeParts_ok run
  obtain ⟨origin', packetOrigin', first', second', third', made'⟩ := normalizeParts_ok run'
  have windows := made.windows proper.transactions
  have windows' := made'.windows proper'.transactions
  have each : ∀ items : List JsonValue, ∀ item ∈ items, Recovered item := fun _ item _ => recovered item
  have start : Corresponds (fun _ => []) (fun _ => []) := fun _ => ⟨List.nodup_nil, List.nodup_nil, rfl⟩
  have shifted : ∀ {parts : ModelParts} (origin : Int), ProperParts parts → (compared parts).NoPorts →
      (∀ transaction ∈ parts.transactions, ∃ window, HasWindow transaction window) →
      ∀ item ∈ (parts.transactions.map (shiftTransaction (-origin))).map comparedTransaction,
        item.Proper ∧ NoPorts "" item := by
    intro parts origin proper noPorts windows item member
    rw [List.map_map] at member
    obtain ⟨transaction, listed, rfl⟩ := List.mem_map.mp member
    obtain ⟨window, has⟩ := windows transaction listed
    exact ⟨proper_comparedTransaction (proper_shiftTransaction _ (proper.transactions transaction listed)),
      noPorts_shifted has _ (noPorts.transactions _ (List.mem_map_of_mem listed))⟩
  have revised : ∀ {parts : ModelParts}, ProperParts parts →
      ∀ item ∈ parts.sdpRevisions.map projectRevision, item.Proper := by
    intro parts proper item member
    obtain ⟨revision, listed, rfl⟩ := List.mem_map.mp member
    exact proper_projectRevision (proper.sdpRevisions revision listed)
  have sent : ∀ {parts : ModelParts} (origin : Int), ProperParts parts → (compared parts).NoPorts →
      (∀ packet ∈ parts.mediaPackets, IsBound (packet.find "offsetMs")) →
      ∀ item ∈ parts.mediaPackets.map (projectPacket origin), item.Proper ∧ NoPorts "" item := by
    intro parts origin proper noPorts offsets item member
    obtain ⟨packet, listed, rfl⟩ := List.mem_map.mp member
    exact ⟨proper_projectPacket origin (proper.mediaPackets packet listed),
      noPorts_packet (offsets packet listed) origin (noPorts.mediaPackets _ (List.mem_map_of_mem listed))⟩
  have timed := shifted origin proper noPorts windows
  have timed' := shifted origin' proper' noPorts' windows'
  have packets := sent packetOrigin proper noPorts made.offsets
  have packets' := sent packetOrigin' proper' noPorts' made'.offsets
  have one := items_explained (each _) (fun item member => (timed item member).1)
    (fun item member => (timed item member).2) (fun item member => (timed' item member).1)
    (fun item member => (timed' item member).2) start made.transactions made'.transactions
    equal.transactions
  have two := items_explained (each _) (revised proper) noPorts.sdpRevisions (revised proper')
    noPorts'.sdpRevisions one.corresponds made.revisions made'.revisions equal.sdpRevisions
  have three := items_explained (each _) (fun item member => (packets item member).1)
    (fun item member => (packets item member).2) (fun item member => (packets' item member).1)
    (fun item member => (packets' item member).2) two.corresponds made.packets made'.packets
    equal.mediaPackets
  obtain ⟨ρ, injective, maps⟩ := exists_maps three.corresponds
  obtain ⟨maps, samePackets⟩ := three.explain ρ maps
  obtain ⟨maps, sameRevisions⟩ := two.explain ρ maps
  obtain ⟨-, sameTransactions⟩ := one.explain ρ maps
  refine ⟨ρ, origin' - origin, packetOrigin' - packetOrigin, injective, ?_⟩
  rw [compared_transform]
  refine ⟨?_, ?_, ?_, ?_⟩
  · have same := equal.dialog
    rw [made.dialog, made'.dialog] at same
    exact same
  · rw [List.map_map, List.map_map, List.forall₂_map_left_iff, List.forall₂_map_right_iff] at sameTransactions
    simp only [compared]
    rw [List.forall₂_map_left_iff, List.forall₂_map_right_iff]
    refine forall₂_imp_of_mem sameTransactions fun transaction inside transaction' inside' same => ?_
    obtain ⟨window, has⟩ := windows transaction inside
    obtain ⟨window', has'⟩ := windows' transaction' inside'
    refine transaction_shifted (has.rename (ρ := ρ)) has' ?_
    rw [← renameDict_shiftTransaction, comparedTransaction_rename]
    exact same
  · rw [List.forall₂_map_left_iff] at sameRevisions
    simp only [compared]
    rw [List.forall₂_map_left_iff]
    exact sameRevisions
  · rw [List.forall₂_map_left_iff, List.forall₂_map_right_iff] at samePackets
    simp only [compared]
    rw [List.forall₂_map_left_iff, List.forall₂_map_right_iff]
    refine forall₂_imp_of_mem samePackets fun packet inside packet' inside' same => ?_
    have bound := made.offsets packet inside
    have renamed : (renameDict ρ packet).find "offsetMs" = packet.find "offsetMs" := by
      rw [find_renameDict (by decide) (by decide), bound.rename]
    refine packet_shifted (renamed ▸ bound) (made'.offsets packet' inside') ?_
    rw [projectPacket_rename]
    exact same

theorem comparedFields_ok {model : JsonDict} {x : SemanticModel} (fields : comparedFields model = .ok x) :
    ∃ parts, readModel model = .ok parts ∧ x = compared parts := by
  obtain ⟨parts, read, done⟩ := bind_ok.mp fields
  exact ⟨parts, read, (Except.ok.inj done).symm⟩

theorem semanticModel_recovered {model other : JsonDict} {x y : SemanticModel}
    (proper : (JsonValue.dict model).Proper) (proper' : (JsonValue.dict other).Proper)
    (run : semanticModel model = .ok a) (run' : semanticModel other = .ok b) (equal : a.Equal b)
    (fields : comparedFields model = .ok x) (fields' : comparedFields other = .ok y)
    (noPorts : x.NoPorts) (noPorts' : y.NoPorts) :
    ∃ ρ c d z, (∀ kind, Function.Injective (ρ kind)) ∧
      comparedFields (transformModel ρ c d model) = .ok z ∧ z.Equal y := by
  obtain ⟨parts, read, rfl⟩ := comparedFields_ok fields
  obtain ⟨parts', read', rfl⟩ := comparedFields_ok fields'
  rw [semanticModel, read, ok_bind] at run
  rw [semanticModel, read', ok_bind] at run'
  obtain ⟨ρ, c, d, injective, same⟩ := parts_recovered (properParts proper (readModel_ok read))
    (properParts proper' (readModel_ok read')) noPorts noPorts' run run' equal
  refine ⟨ρ, c, d, compared (transformParts ρ c d parts), injective, ?_, same⟩
  rw [comparedFields, readModel_transform, read]
  rfl

end model

end Sippycup.Learn
