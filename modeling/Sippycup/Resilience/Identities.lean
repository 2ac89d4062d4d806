import Mathlib.Tactic.IntervalCases
import Sippycup.Resilience.Injection
import Sippycup.Resilience.Isolation

/-! Planning ends for every count and seed, and the identities that it deals out are distinct. -/
namespace Sippycup.Python.Sha256

def State.words (s : State) : List Nat := [s.a, s.b, s.c, s.d, s.e, s.f, s.g, s.h]

theorem words_compress (s : State) (block : List Nat) : ∀ w ∈ (compress s block).words, w < wordSize := by
  have positive : 0 < wordSize := by decide
  simp only [State.words, compress, List.forall_mem_cons, Nat.mod_lt _ positive, true_and]
  exact List.forall_mem_nil _

/-- The words of a digest are words. -/
theorem digestWords_lt (bytes : List Nat) : ∀ w ∈ digestWords bytes, w < wordSize := by
  show ∀ w ∈ ((blocks 64 ((pad bytes).length / 64) (pad bytes)).foldl compress initial).words, w < wordSize
  rcases List.eq_nil_or_concat (blocks 64 ((pad bytes).length / 64) (pad bytes)) with none | ⟨parts, part, some⟩
  · rw [none]
    decide
  · rw [some, List.concat_eq_append, List.foldl_append, List.foldl_cons, List.foldl_nil]
    exact words_compress _ part

end Sippycup.Python.Sha256

namespace Sippycup.Resilience.Isolation
open Sippycup.Python Sippycup.Ip Sippycup.Machine.Probing

section numerals
variable {base width n m : Nat}

theorem readNumeral_zeroPadded (two : 2 ≤ base) (small : base ≤ 16) :
    readNumeral base (zeroPadded base width n) = n := by
  rw [zeroPadded, readNumeral_append, readNumeral_zeros, Nat.zero_mul, Nat.zero_add, readNumeral_render two small]

theorem zeroPadded_injective (two : 2 ≤ base) (small : base ≤ 16)
    (same : zeroPadded base width n = zeroPadded base width m) : n = m := by
  have read := congrArg (readNumeral base) same
  rwa [readNumeral_zeroPadded two small, readNumeral_zeroPadded two small] at read

theorem length_zeroPadded (positive : 0 < width) (bounded : n < base ^ width) :
    (zeroPadded base width n).length = width := by
  have narrow := renderNumeral_length positive bounded
  rw [zeroPadded, List.length_append, zeroDigits, List.length_replicate]
  exact Nat.sub_add_cancel narrow

theorem zeroPadded_binary : ∀ code ∈ zeroPadded 2 width n, code = 48 ∨ code = 49 := by
  intro code member
  rcases List.mem_append.mp member with zero | digit
  · exact .inl (List.eq_of_mem_replicate zero)
  · obtain ⟨d, place, rfl⟩ := List.mem_map.mp digit
    have binary := Numeral.render_lt (by decide) d place
    interval_cases d
    · exact .inl rfl
    · exact .inr rfl

theorem zeroPadded_decimal : AllDigits (zeroPadded 10 width n) :=
  allDigits_append zeroDigits_decimal (allDigits_numeral n)

theorem identity_injective {i j : Nat} (same : identity i = identity j) : i = j := by
  have codes := List.append_cancel_left (congrArg Text.codes same)
  exact Nat.succ.inj (zeroPadded_injective (by decide) (by decide) codes)

theorem length_identity {index : Nat} (small : index < maxCalls) : (identity index).length = 11 := by
  have bounded : index + 1 < 10 ^ 6 := by
    unfold maxCalls at small
    omega
  show ("call-".toList.map Char.toNat ++ zeroPadded 10 6 (index + 1)).length = 11
  rw [List.length_append, length_zeroPadded (by decide) bounded]
  rfl

theorem markerText_injective {v w : Nat} (same : markerText v = markerText w) : v = w :=
  zeroPadded_injective (by decide) (by decide) (congrArg Text.codes same)

theorem length_markerText {v : Nat} (small : v < 2 ^ 32) : (markerText v).length = 32 :=
  length_zeroPadded (by decide) small

theorem isBinary_markerText (v : Nat) : isBinary (markerText v) = true := by
  rw [isBinary, List.all_eq_true]
  intro code member
  exact decide_eq_true (zeroPadded_binary code member)

theorem dtmfText_injective {r s : Nat} (same : dtmfText r = dtmfText s) : r = s :=
  zeroPadded_injective (by decide) (by decide) (congrArg Text.codes same)

end numerals

section probing

theorem nextMarker_iterate {v : Nat} (small : v < 2 ^ 32) (k : Nat) : nextMarker^[k] v = (v + k) % 2 ^ 32 := by
  induction k with
  | zero => exact (Nat.mod_eq_of_lt small).symm
  | succ k ih =>
    rw [Function.iterate_succ_apply', ih, nextMarker]
    omega

/-- SSRCs are counted from one, so that the cycle is one shorter than that of the markers. -/
theorem nextSsrc_iterate {s : Nat} (positive : 0 < s) (small : s < 2 ^ 32) (k : Nat) :
    nextSsrc^[k] s = (s - 1 + k) % (2 ^ 32 - 1) + 1 := by
  induction k with
  | zero =>
    rw [Function.iterate_zero_apply]
    omega
  | succ k ih =>
    rw [Function.iterate_succ_apply', ih, nextSsrc, orOne]
    split <;> omega

theorem marker_spread {v count : Nat} (small : v < 2 ^ 32) (few : count < 2 ^ 32 - 1) :
    Spread nextMarker markerText count v := by
  intro i left j right same
  have values := markerText_injective same
  rw [nextMarker_iterate small, nextMarker_iterate small] at values
  change i ≤ count at left
  change j ≤ count at right
  omega

theorem ssrc_spread {s count : Nat} (positive : 0 < s) (small : s < 2 ^ 32) (few : count < 2 ^ 32 - 1) :
    Spread nextSsrc id count s := by
  intro i left j right same
  simp only [id_eq, nextSsrc_iterate positive small] at same
  change i ≤ count at left
  change j ≤ count at right
  omega

end probing

section planning
variable {seed : Text} {calls : List PlannedCall} {call : PlannedCall} {fuel : Nat}

/-- What the call at an index is given. -/
structure Dealt (seed : Text) (index : Nat) (call : PlannedCall) : Prop where
  callId : call.callId = identity index
  ssrc : 1 ≤ call.ssrc ∧ call.ssrc < 2 ^ 32
  marker : ∃ value < 2 ^ 32, call.marker = markerText value
  dtmf : ∃ words, material seed call.callId = .ok words ∧ call.dtmf = dtmfText (dtmfResidue words)
  sourcePort : call.sourcePort = 20000 + index * 2
  destinationPort : call.destinationPort = 20001 + index * 2

structure Planned (seed : Text) (calls : List PlannedCall) : Prop where
  each : ∀ index call, calls[index]? = some call → Dealt seed index call
  ssrcs : (calls.map PlannedCall.ssrc).Nodup
  markers : (calls.map PlannedCall.marker).Nodup

theorem planned_nil : Planned seed [] := by
  constructor
  · intro index call at_
    cases at_
  · exact List.nodup_nil
  · exact List.nodup_nil

theorem settled_ok {α : Type} {found : Option α} {a : α} : settled found = .ok a ↔ found = some a := by
  cases found <;> simp [settled]

theorem orOne_range {n : Nat} (small : n < 2 ^ 32) : 1 ≤ orOne n ∧ orOne n < 2 ^ 32 := by
  rw [orOne]
  split <;> omega

theorem nextSsrc_range (s : Nat) : 1 ≤ nextSsrc s ∧ nextSsrc s < 2 ^ 32 :=
  orOne_range (Nat.mod_lt _ (by decide))

theorem material_words {identity : Text} {words : List Nat} (hashed : material seed identity = .ok words) (place : Nat) :
    word words place < 2 ^ 32 := by
  rw [material] at hashed
  split at hashed
  · cases hashed
    rw [word, List.getD_eq_getElem?_getD]
    rcases at_ : (Sha256.digestWords _)[place]? with _ | w
    · exact Nat.two_pow_pos 32
    · exact Sha256.digestWords_lt _ w (List.mem_of_getElem? at_)
  · cases hashed

theorem nodup_concat {α : Type} {xs : List α} {x : α} (distinct : xs.Nodup) (fresh : x ∉ xs) : (xs ++ [x]).Nodup :=
  List.nodup_append.mpr ⟨distinct, List.nodup_singleton x, fun a member b last => by
    rw [List.mem_singleton.mp last]
    exact ne_of_mem_of_not_mem member fresh⟩

/-- The next call is dealt identities that no call has. -/
theorem planCall_planned (planned : Planned seed calls) (made : planCall fuel seed calls = .ok call) :
    Planned seed (calls ++ [call]) := by
  simp only [planCall, bind_ok, settled_ok, pure_ok] at made
  obtain ⟨words, hashed, ssrc, ssrcFound, value, markerFound, rfl⟩ := made
  have range : 1 ≤ ssrc ∧ ssrc < 2 ^ 32 :=
    probe_invariant (P := fun s => 1 ≤ s ∧ s < 2 ^ 32) ssrcFound (orOne_range (material_words hashed 0)) fun s _ => nextSsrc_range s
  have bounded : value < 2 ^ 32 :=
    probe_invariant (P := fun v => v < 2 ^ 32) markerFound (material_words hashed 1) fun v _ => Nat.mod_lt _ (by decide)
  constructor
  · intro index other at_
    rw [List.getElem?_append] at at_
    split at at_
    · exact planned.each index other at_
    · rename_i beyond
      have inside := (List.getElem?_eq_some_iff.mp at_).1
      rw [List.length_singleton] at inside
      obtain rfl : index = calls.length := by omega
      rw [Nat.sub_self] at at_
      cases at_
      exact ⟨rfl, range, ⟨value, bounded, rfl⟩, ⟨words, hashed, rfl⟩, rfl, rfl⟩
  · have fresh : ssrc ∉ calls.map PlannedCall.ssrc := probe_free ssrcFound
    rw [List.map_append]
    exact nodup_concat planned.ssrcs fresh
  · have fresh : markerText value ∉ calls.map PlannedCall.marker := probe_free markerFound
    rw [List.map_append]
    exact nodup_concat planned.markers fresh

/-- With fuel for one turn more than there are calls, both probes find an identity. -/
theorem planCall_ends (seed : Text) (few : calls.length < maxCalls) :
    ∃ result, result ≠ .error .running ∧ ∀ fuel, maxCalls ≤ fuel → planCall fuel seed calls = result := by
  rcases hashed : material seed (identity calls.length) with halt | words
  · refine ⟨.error halt, ?_, fun fuel _ => ?_⟩
    · rintro ⟨⟩
      rw [material] at hashed
      split at hashed <;> cases hashed
    · rw [planCall, hashed]
      rfl
  · have count : calls.length < 2 ^ 32 - 1 := few.trans (by decide)
    obtain ⟨positive, small⟩ := orOne_range (material_words hashed 0)
    have ssrcs : Spread nextSsrc id (calls.map PlannedCall.ssrc).length (orOne (word words 0)) :=
      ssrc_spread positive small (by rwa [List.length_map])
    have markers : Spread nextMarker markerText (calls.map PlannedCall.marker).length (word words 1) :=
      marker_spread (material_words hashed 1) (by rwa [List.length_map])
    obtain ⟨ssrc, ssrcFound⟩ := probe_finds ssrcs
    obtain ⟨value, markerFound⟩ := probe_finds markers
    rw [List.length_map] at ssrcFound markerFound
    refine ⟨planCall (calls.length + 1) seed calls, ?_, fun fuel enough => ?_⟩
    · simp only [planCall, hashed, ok_bind, ssrcFound, markerFound, settled]
      rintro ⟨⟩
    · have turns : calls.length + 1 ≤ fuel := Nat.le_trans few enough
      simp only [planCall, hashed, ok_bind, ssrcFound, markerFound, probe_more ssrcFound turns,
        probe_more markerFound turns]

theorem planCalls_planned {remaining : Nat} {planned : List PlannedCall} (before : Planned seed calls)
    (made : planCalls fuel seed remaining calls = .ok planned) :
    Planned seed planned ∧ planned.length = calls.length + remaining := by
  induction remaining generalizing calls with
  | zero =>
    cases made
    exact ⟨before, rfl⟩
  | succ remaining ih =>
    rw [planCalls, bind_ok] at made
    obtain ⟨call, next, made⟩ := made
    obtain ⟨after, count⟩ := ih (planCall_planned before next) made
    refine ⟨after, ?_⟩
    rw [count, List.length_append, List.length_singleton]
    omega

theorem planCalls_ends (seed : Text) {remaining : Nat} (few : calls.length + remaining ≤ maxCalls) :
    ∃ result, result ≠ .error .running ∧
      ∀ fuel, maxCalls ≤ fuel → planCalls fuel seed remaining calls = result := by
  induction remaining generalizing calls with
  | zero => exact ⟨.ok calls, by rintro ⟨⟩, fun _ _ => rfl⟩
  | succ remaining ih =>
    obtain ⟨first, ended, made⟩ := planCall_ends seed (show calls.length < maxCalls by omega)
    rcases first with halt | call
    · refine ⟨.error halt, fun same => ended ?_, fun fuel enough => ?_⟩
      · cases same
        rfl
      · rw [planCalls, made fuel enough]
        rfl
    · have fewer : (calls ++ [call]).length + remaining ≤ maxCalls := by
        rw [List.length_append, List.length_singleton]
        omega
      obtain ⟨result, ended, rest⟩ := ih fewer
      refine ⟨result, ended, fun fuel enough => ?_⟩
      rw [planCalls, made fuel enough]
      exact rest fuel enough

/-- Planning ends, whatever the count and the seed are. -/
theorem planIsolation_ends (callCount seed : JsonValue) :
    ∃ result, result ≠ .error .running ∧
      ∀ fuel, maxCalls ≤ fuel → planIsolation fuel callCount seed = result := by
  rcases counted : boundedInt callCount "callCount" 2 maxCalls with e | count
  · refine ⟨.error (.raised (.own e)), by rintro ⟨⟩, fun fuel _ => ?_⟩
    rw [planIsolation, counted]
    rfl
  rcases named : nonemptyString seed "seed" 128 with e | text
  · refine ⟨.error (.raised (.own e)), by rintro ⟨⟩, fun fuel _ => ?_⟩
    rw [planIsolation, counted, named]
    rfl
  have few : ([] : List PlannedCall).length + count.toNat ≤ maxCalls := by
    obtain ⟨-, -, most⟩ := boundedInt_ok.mp counted
    rw [List.length_nil]
    omega
  obtain ⟨result, ended, made⟩ := planCalls_ends text few
  rcases result with halt | calls
  · refine ⟨.error halt, fun same => ended ?_, fun fuel enough => ?_⟩
    · cases same
      rfl
    · simp only [planIsolation, counted, named, checked, ok_bind, made fuel enough]
      rfl
  · refine ⟨.ok ⟨text, count, calls⟩, by rintro ⟨⟩, fun fuel enough => ?_⟩
    simp only [planIsolation, counted, named, checked, ok_bind, made fuel enough]
    rfl

theorem checked_ok {α : Type} {read : Result α} {a : α} : checked read = .ok a ↔ read = .ok a := by
  cases read <;> simp [checked]

theorem planIsolation_ok {callCount seedValue : JsonValue} {plan : IsolationPlan}
    (made : planIsolation fuel callCount seedValue = .ok plan) :
    Planned plan.seed plan.calls ∧ callCount = .int plan.callCount ∧ seedValue = .str plan.seed ∧
      (plan.calls.length : Int) = plan.callCount ∧ 2 ≤ plan.callCount ∧ plan.callCount ≤ maxCalls := by
  simp only [planIsolation, bind_ok, checked_ok, boundedInt_ok, nonemptyString_ok, pure_ok] at made
  obtain ⟨count, ⟨counted, least, most⟩, text, ⟨named, -⟩, calls, made, rfl⟩ := made
  obtain ⟨planned, length⟩ := planCalls_planned planned_nil made
  refine ⟨planned, counted, named, ?_, least, most⟩
  rw [length, List.length_nil, Nat.zero_add]
  exact Int.toNat_of_nonneg (Int.le_trans (by decide) least)

theorem material_hashed (encodable : seed.Scalars) (index : Nat) :
    ∃ words, material seed (identity index) = .ok words := by
  have scalars : ∀ code ∈ (seed ++ ":" ++ identity index).codes, isScalar code := by
    intro code member
    rcases List.mem_append.mp member with front | name
    · rcases List.mem_append.mp front with inside | colon
      · exact encodable code inside
      · exact (by decide : ∀ code ∈ (Text.ofString ":").codes, isScalar code) code colon
    · rcases List.mem_append.mp name with call | digits
      · exact (by decide : ∀ code ∈ (Text.ofString "call-").codes, isScalar code) code call
      · have digit := zeroPadded_decimal code digits
        simp only [isDigit, decide_eq_true_eq] at digit
        exact .inl (by omega)
  rw [material, Utf8.encode?_some.mpr ⟨scalars, rfl⟩]
  exact ⟨_, rfl⟩

/-- A seed that can be encoded halts no plan. -/
theorem planCalls_running {remaining : Nat} {halt : Halt} (encodable : seed.Scalars)
    (ended : planCalls fuel seed remaining calls = .error halt) : halt = .running := by
  induction remaining generalizing calls with
  | zero => cases ended
  | succ remaining ih =>
    rw [planCalls] at ended
    rcases next : planCall fuel seed calls with other | call
    · obtain ⟨words, hashed⟩ := material_hashed encodable calls.length
      rw [next] at ended
      cases ended
      simp only [planCall, hashed, ok_bind] at next
      rcases ssrc : probe nextSsrc id (calls.map PlannedCall.ssrc) fuel (orOne (word words 0)) with _ | s
      · rw [ssrc] at next
        cases next
        rfl
      · rcases marker : probe nextMarker markerText (calls.map PlannedCall.marker) fuel (word words 1) with _ | v
        · rw [ssrc, marker] at next
          cases next
          rfl
        · rw [ssrc, marker] at next
          cases next
    · rw [next] at ended
      exact ih ended

/-- Every count in bounds and every seed that can be encoded has a plan. -/
theorem planIsolation_accepts {count : Int} (least : 2 ≤ count) (most : count ≤ maxCalls)
    (short : ¬ (seed.length = 0 ∨ 128 < seed.length)) (encodable : seed.Scalars) :
    ∃ plan, ∀ fuel, maxCalls ≤ fuel → planIsolation fuel (.int count) (.str seed) = .ok plan := by
  obtain ⟨result, ended, made⟩ := planIsolation_ends (.int count) (.str seed)
  rcases result with halt | plan
  · have ended := made maxCalls (Nat.le_refl _)
    have counted : boundedInt (.int count) "callCount" 2 maxCalls = .ok count := boundedInt_ok.mpr ⟨rfl, least, most⟩
    have named : nonemptyString (.str seed) "seed" 128 = .ok seed := nonemptyString_ok.mpr ⟨rfl, short⟩
    simp only [planIsolation, counted, named, checked, ok_bind] at ended
    rcases listed : planCalls maxCalls seed count.toNat [] with other | calls
    · rw [listed] at ended
      cases ended
      exact absurd (congrArg Except.error (planCalls_running encodable listed)) ended
    · rw [listed] at ended
      cases ended
  · exact ⟨plan, made⟩

end planning
end Sippycup.Resilience.Isolation
