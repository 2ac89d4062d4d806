import Sippycup.Oracle.Conservation
import Sippycup.Oracle.Pairing

/-! When the keys of reconstructed transactions are distinct. The builders are
opened as the messages of the frames open their keys. -/
namespace Sippycup.Oracle
open Python Pairing

/-- The key of the frame's own direction, and whether it is a request. -/
def FrameRecord.message (upper : Text → Text) (frame : FrameRecord) :
    Option (Message TransactionKey) := do
  let base ← frame.baseKey upper
  let flow ← frame.flow
  return ⟨⟨base, flow⟩, (frame.requestMethod upper).isSome⟩

def messages (upper : Text → Text) (frames : List FrameRecord) : List (Message TransactionKey) :=
  (FrameRecord.inOrder frames).filterMap (FrameRecord.message upper)

def TransactionBuilder.opener (builder : TransactionBuilder) : Message TransactionKey :=
  ⟨builder.key, builder.request.isSome⟩

theorem TransactionKey.reverse_involutive : Function.Involutive TransactionKey.reverse :=
  TransactionKey.reverse_reverse

theorem map_amendFirst {α β : Type} {p : α → Bool} {change : α → α} {items : List α} {f : α → β}
    (kept : ∀ item, f (change item) = f item) : (amendFirst p change items).map f = items.map f := by
  induction items with
  | nil => rfl
  | cons first rest ih =>
    rw [amendFirst]
    split
    · rw [List.map_cons, List.map_cons, kept]
    · rw [List.map_cons, List.map_cons, ih]

namespace Grouping
variable {grouping : Grouping} {frame : FrameRecord} {key : TransactionKey}

def openers (grouping : Grouping) : List (Message TransactionKey) :=
  grouping.builders.map TransactionBuilder.opener

theorem openers_amend {p : TransactionBuilder → Bool}
    {change : TransactionBuilder → TransactionBuilder}
    (kept : ∀ b, (change b).opener = b.opener) : (grouping.amend p change).openers = grouping.openers :=
  map_amendFirst kept

theorem openers_addRequest :
    (grouping.addRequest frame key).openers = receive TransactionKey.reverse grouping.openers ⟨key, true⟩ := by
  have found : grouping.builders.any (TransactionBuilder.requested key) = true ↔
      ⟨key, true⟩ ∈ grouping.openers := by
    simp only [List.any_eq_true, openers, List.mem_map, TransactionBuilder.requested,
      TransactionBuilder.serves, TransactionBuilder.opener, Bool.and_eq_true, decide_eq_true_eq,
      Message.mk.injEq]
  unfold Grouping.addRequest receive
  rw [if_pos rfl]
  by_cases opened : ⟨key, true⟩ ∈ grouping.openers
  · rw [if_pos (found.mpr opened), if_pos opened]
    exact openers_amend fun _ => rfl
  · rw [if_neg (found.not.mpr opened), if_neg opened]
    exact List.map_append

theorem openers_addResponse :
    (grouping.addResponse frame key).openers =
      receive TransactionKey.reverse grouping.openers ⟨key, false⟩ := by
  have found : (grouping.openers.any fun opener => opener.key = key.reverse) =
      grouping.builders.any (TransactionBuilder.serves key.reverse) := by
    rw [openers, List.any_map]
    rfl
  have served : ∀ {first rest}, grouping.builders.filter (TransactionBuilder.serves key.reverse) =
      first :: rest → grouping.builders.any (TransactionBuilder.serves key.reverse) = true := by
    intro first rest matching
    have among : first ∈ grouping.builders.filter (TransactionBuilder.serves key.reverse) :=
      matching ▸ List.mem_cons_self
    exact List.any_eq_true.mpr ⟨first, List.mem_filter.mp among⟩
  unfold Grouping.addResponse receive
  rw [if_neg (by simp), found]
  split
  · rename_i none
    have unserved : ¬ grouping.builders.any (TransactionBuilder.serves key.reverse) = true := by
      rw [List.any_eq_true]
      rintro ⟨b, member, serves⟩
      have among := List.mem_filter.mpr ⟨member, serves⟩
      rw [none] at among
      exact absurd among List.not_mem_nil
    rw [if_neg unserved]
    exact List.map_append
  · rename_i matching
    rw [if_pos (served matching)]
    refine openers_amend fun b => ?_
    unfold TransactionBuilder.answer
    split <;> rfl
  · rename_i several
    cases matching : grouping.builders.filter (TransactionBuilder.serves key.reverse) with
    | nil => exact absurd matching (by assumption)
    | cons first rest =>
      rw [if_pos (served matching), openers, List.map_map]
      refine List.map_congr_left fun b _ => ?_
      rw [Function.comp_apply, TransactionBuilder.doubt]
      split <;> rfl

theorem openers_add (upper : Text → Text) :
    (grouping.add upper frame).openers =
      (frame.message upper).elim grouping.openers (receive TransactionKey.reverse grouping.openers) := by
  unfold Grouping.add
  by_cases plain : frame.sip.isNone = true
  · have silent : frame.message upper = none := by
      have absent := Option.isNone_iff_eq_none.mp plain
      simp [FrameRecord.message, FrameRecord.baseKey, FrameRecord.sipValue, absent]
    rw [if_pos plain, silent, Option.elim_none]
  · rw [if_neg plain]
    split
    · rename_i base flow keyed flows
      have spoken : frame.message upper = some ⟨⟨base, flow⟩, (frame.requestMethod upper).isSome⟩ := by
        simp [FrameRecord.message, keyed, flows]
      rw [spoken, Option.elim_some]
      split
      · rename_i request
        rw [request]
        exact openers_addRequest
      · rename_i response
        rw [Bool.not_eq_true _ |>.mp response]
        exact openers_addResponse
    · rename_i partly
      have silent : frame.message upper = none := by
        unfold FrameRecord.message
        cases keyed : frame.baseKey upper with
        | none => rfl
        | some base =>
          cases flows : frame.flow with
          | none => rfl
          | some flow => exact absurd flows (partly base flow keyed)
      rw [silent, Option.elim_none]
      rfl

end Grouping

section run
variable (upper : Text → Text)

theorem groupFrames_append (frames : List FrameRecord) (frame : FrameRecord) :
    groupFrames upper (frames ++ [frame]) = (groupFrames upper frames).add upper frame := by
  rw [groupFrames, List.foldl_append]
  rfl

/-- The builders are opened by the messages of the frames, in their order. -/
theorem groupFrames_openers (frames : List FrameRecord) :
    (groupFrames upper frames).openers =
      openers TransactionKey.reverse (frames.filterMap (FrameRecord.message upper)) := by
  induction frames using List.reverseRecOn with
  | nil => rfl
  | append_singleton frames frame ih =>
    rw [groupFrames_append, Grouping.openers_add, ih, List.filterMap_append]
    cases spoken : frame.message upper with
    | none => simp [spoken]
    | some message =>
      rw [List.filterMap_cons_some spoken, List.filterMap_nil, openers_append, Option.elim_some]

variable {upper}

theorem Grouping.keys_eq (grouping : Grouping) :
    grouping.builders.map TransactionBuilder.key = grouping.openers.map Message.key := by
  rw [Grouping.openers, List.map_map]
  rfl

theorem Grouping.openers_add_grows (grouping : Grouping) (frame : FrameRecord) :
    grouping.openers <+: (grouping.add upper frame).openers := by
  rw [Grouping.openers_add]
  cases frame.message upper with
  | none => exact List.prefix_rfl
  | some message => exact receive_grows _ message

/-- While the keys are distinct no response has two builders to go to. -/
theorem Grouping.add_clear {grouping : Grouping} (frame : FrameRecord)
    (nodup : (grouping.builders.map TransactionBuilder.key).Nodup)
    (clear : ∀ b ∈ grouping.builders, b.ambiguous = false) :
    ∀ b ∈ (grouping.add upper frame).builders, b.ambiguous = false := by
  have amended {p : TransactionBuilder → Bool} {change : TransactionBuilder → TransactionBuilder}
      (kept : ∀ b, (change b).ambiguous = b.ambiguous) :
      ∀ b ∈ (grouping.amend p change).builders, b.ambiguous = false := by
    intro b member
    rcases mem_amendFirst member with old | ⟨old, inside, -, rfl⟩
    · exact clear b old
    · rw [kept]
      exact clear old inside
  have appended (new : TransactionBuilder) (plain : new.ambiguous = false) :
      ∀ b ∈ grouping.builders ++ [new], b.ambiguous = false := by
    intro b member
    rcases List.mem_append.mp member with old | last
    · exact clear b old
    · rw [List.mem_singleton.mp last]
      exact plain
  unfold Grouping.add
  split
  · exact clear
  · split
    · split
      · unfold Grouping.addRequest
        split
        · exact amended fun _ => rfl
        · exact appended _ rfl
      · unfold Grouping.addResponse
        split
        · exact appended _ rfl
        · refine amended fun b => ?_
          unfold TransactionBuilder.answer
          split <;> rfl
        · rename_i base flow _ _ _ _ none one
          exfalso
          generalize TransactionKey.reverse ⟨base, flow⟩ = key at none one
          cases matching : grouping.builders.filter (TransactionBuilder.serves key) with
          | nil => exact none matching
          | cons first rest =>
            cases rest with
            | nil => exact one first matching
            | cons second rest =>
              have served : ∀ b ∈ first :: second :: rest, b.key = key := by
                intro b member
                rw [← matching] at member
                exact of_decide_eq_true (List.mem_filter.mp member).2
              have sub := (List.filter_sublist
                (l := grouping.builders) (p := TransactionBuilder.serves key)).map
                  TransactionBuilder.key
              have distinct := nodup.sublist sub
              rw [matching, List.map_cons, List.map_cons, served first (by simp),
                served second (by simp)] at distinct
              exact (List.nodup_cons.mp distinct).1 (by simp)
    · exact clear

theorem groupFrames_clear (frames : List FrameRecord)
    (nodup : ((groupFrames upper frames).builders.map TransactionBuilder.key).Nodup) :
    ∀ b ∈ (groupFrames upper frames).builders, b.ambiguous = false := by
  induction frames using List.reverseRecOn with
  | nil => exact fun b member => absurd member List.not_mem_nil
  | append_singleton frames frame ih =>
    rw [groupFrames_append] at nodup ⊢
    have before : ((groupFrames upper frames).builders.map TransactionBuilder.key).Nodup := by
      rw [Grouping.keys_eq] at nodup ⊢
      exact nodup.sublist ((Grouping.openers_add_grows _ frame).sublist.map _)
    exact Grouping.add_clear frame before (ih before)

end run

/-- The keys of the transactions are distinct, and none of them is ambiguous, exactly when no
two frames with one key clash: an unanswered response with a request, or with another such
response. -/
theorem keys_identify_iff (upper : Text → Text) (frames : List FrameRecord) :
    (((reconstructTransactions upper frames).1.map TransactionRecord.key).Nodup ∧
        ∀ transaction ∈ (reconstructTransactions upper frames).1,
          transaction.ambiguity = .known false) ↔
      LoneOpeners TransactionKey.reverse (messages upper frames) := by
  have keys : (reconstructTransactions upper frames).1.map TransactionRecord.key =
      (groupFrames upper (FrameRecord.inOrder frames)).builders.map TransactionBuilder.key := by
    rw [reconstructTransactions, List.map_map]
    rfl
  rw [keys, messages, ← openers_nodup_iff TransactionKey.reverse_involutive,
    ← groupFrames_openers, ← Grouping.keys_eq]
  refine ⟨And.left, fun nodup => ⟨nodup, ?_⟩⟩
  intro transaction member
  obtain ⟨builder, inside, rfl⟩ := List.mem_map.mp member
  have clear := groupFrames_clear _ nodup builder inside
  exact if_neg (by simp [clear])

/-- Two responses to nothing open one key twice, and a third that travels the other way can
answer neither. -/
theorem repeated_orphans_share_a_key :
    let transactions := (reconstructTransactions id
      [FrameRecord.response 1 "b" "a" "INVITE" 1 200, FrameRecord.response 2 "b" "a" "INVITE" 1 200,
        FrameRecord.response 3 "a" "b" "INVITE" 1 200]).1
    ¬ (transactions.map TransactionRecord.key).Nodup ∧
      transactions.map TransactionRecord.ambiguity =
        List.replicate 2 (.unknown .ambiguous "multiple transactions matched a response") := by
  decide

end Sippycup.Oracle
