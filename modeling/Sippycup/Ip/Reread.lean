import Sippycup.Python.JsonReread

/-! An address text that a JSON document carries: read back, it is the same address, and only
the scope of an IPv6 address may be spelled with other code points. -/
namespace Sippycup.Ip
open Sippycup.Python

/-- Not half of a pair, and no code point that a pair stands for. -/
def Apart (code : Nat) : Prop := code < 0xD800

theorem isHigh_apart {code : Nat} (apart : Apart code) : isHigh code = false := by
  unfold Apart at apart
  exact decide_eq_false (by omega)

theorem rejoin_apart {codes : Codes} (apart : ∀ c ∈ codes, Apart c) : rejoin codes = codes :=
  rejoin_scalars fun c member => .inl (apart c member)

theorem mem_rejoin {codes : Codes} {c : Nat} (apart : Apart c) : c ∈ rejoin codes ↔ c ∈ codes := by
  unfold Apart at apart
  fun_induction rejoin codes with
  | case1 high low rest isPair ih =>
    obtain ⟨first, second⟩ := pair_bounds isPair
    have large := joinPair_ge high low
    have others : c ≠ joinPair high low ∧ c ≠ high ∧ c ≠ low := by omega
    simp [ih, others]
  | case2 high low rest _ ih => simp [ih]
  | case3 => rfl

theorem rejoin_eq_nil {codes : Codes} : rejoin codes = [] ↔ codes = [] := by
  fun_induction rejoin codes with
  | case1 => simp
  | case2 => simp
  | case3 => rfl

theorem splitOn_rejoin {separator : Nat} (apart : Apart separator) (codes : Codes) :
    (rejoin codes).splitOn separator = (codes.splitOn separator).map rejoin := by
  fun_induction rejoin codes with
  | case1 high low rest isPair ih =>
    obtain ⟨first, second⟩ := pair_bounds isPair
    have large := joinPair_ge high low
    unfold Apart at apart
    rw [List.splitOn_cons_eq_if_modifyHead, List.splitOn_cons_eq_if_modifyHead, List.splitOn_cons_eq_if_modifyHead,
      if_neg (by simp; omega), if_neg (by simp; omega), if_neg (by simp; omega), ih]
    cases rest.splitOn separator with
    | nil => rfl
    | cons part others =>
      simp only [List.modifyHead_cons, List.map_cons]
      rw [rejoin, if_pos isPair]
  | case2 high low rest single ih =>
    rw [List.splitOn_cons_eq_if_modifyHead, ih, List.splitOn_cons_eq_if_modifyHead high (low :: rest)]
    split
    · rfl
    · -- The next part starts with what follows, so a pair is not split either.
      rw [List.splitOn_cons_eq_if_modifyHead low rest]
      split
      · rfl
      · cases rest.splitOn separator with
        | nil => rfl
        | cons part others =>
          simp only [List.modifyHead_cons, List.map_cons]
          rw [rejoin.eq_def (high :: low :: part)]
          dsimp only
          rw [if_neg single]
  | case3 codes other =>
    rcases codes with _ | ⟨code, _ | ⟨low, rest⟩⟩
    · rfl
    · rw [List.splitOn_cons_eq_if_modifyHead]
      split <;> rfl
    · exact absurd rfl (other code low rest)

theorem parseDotted_rejoin {codes : Codes} {n : Nat} (parsed : parseDotted codes = some n) :
    rejoin codes = codes := by
  refine rejoin_apart fun c member => ?_
  rcases parseDotted_codes parsed c member with digit | rfl
  · have bounds := of_decide_eq_true digit
    unfold Apart
    omega
  · exact (by decide : dot < 0xD800)

theorem hexDigit_apart {c : Nat} (digit : isHexDigit c = true) : Apart c := by
  unfold Apart
  simp only [isHexDigit, isHexCode, isDigit, Bool.or_eq_true, decide_eq_true_eq] at digit
  omega

theorem parseHextet_rejoin {hextet : Codes} {n : Nat} (parsed : parseHextet hextet = some n) :
    rejoin hextet = hextet := by
  unfold parseHextet at parsed
  split at parsed
  · cases parsed
  · rename_i accepted
    simp only [not_or, Bool.not_eq_true', Bool.not_eq_false] at accepted
    exact rejoin_apart fun c member => hexDigit_apart (List.all_eq_true.mp accepted.1 c member)

theorem mapM_rejoin {parts : List Codes} {values : List Nat} (mapped : parts.mapM parseHextet = some values) :
    parts.map rejoin = parts := by
  refine (List.map_congr_left fun part member => ?_).trans (List.map_id parts)
  obtain ⟨value, parsed⟩ := mapM_some mapped part member
  exact parseHextet_rejoin parsed

theorem option_rejoin_nil (part : Option Codes) : (part.map rejoin = some []) = (part = some []) := by
  cases part with
  | none => rfl
  | some codes => simp [rejoin_eq_nil]

theorem layout_rejoin (parts : List Codes) : layout (parts.map rejoin) = layout parts := by
  have skipped : skipIndexes (parts.map rejoin) = skipIndexes parts := by
    simp only [skipIndexes, List.length_map, List.getElem?_map, option_rejoin_nil]
  simp only [layout, skipped, List.length_map, List.head?_map, List.getLast?_map, option_rejoin_nil]

theorem expandSuffix_rejoin {split parts : List Codes} (expanded : expandSuffix split = some parts) :
    expandSuffix (split.map rejoin) = some (parts.map rejoin) := by
  unfold expandSuffix at expanded ⊢
  rw [List.getLast?_map]
  cases ending : split.getLast? with
  | none =>
    rw [ending] at expanded
    cases expanded
    rfl
  | some last =>
    rw [ending] at expanded
    dsimp only [Option.map_some] at expanded ⊢
    simp only [mem_rejoin (c := dot) (by decide : dot < 0xD800),
      mem_rejoin (c := slash) (by decide : slash < 0xD800)]
    split at expanded
    · rename_i plain
      cases expanded
      rw [if_pos plain]
    · rename_i dotted
      rw [if_neg dotted]
      split at expanded
      · cases expanded
      · rename_i whole
        rw [if_neg whole]
        obtain ⟨ip, parsed, same⟩ := Option.bind_eq_some_iff.mp expanded
        cases same
        have numeral (n : Nat) : rejoin (renderNumeral 16 n) = renderNumeral 16 n :=
          rejoin_apart fun c member => hexDigit_apart (renderNumeral_hex c member)
        rw [parseDotted_rejoin parsed, parsed]
        simp [numeral, List.map_dropLast]

theorem parseHextets_rejoin {codes : Codes} {n : Nat} (parsed : parseHextets codes = some n) :
    parseHextets (rejoin codes) = some n := by
  unfold parseHextets at parsed ⊢
  dsimp only at parsed ⊢
  rw [splitOn_rejoin (by decide : colon < 0xD800), List.length_map]
  split at parsed
  · cases parsed
  rename_i enough
  rw [if_neg enough]
  obtain ⟨parts, expanded, parsed⟩ := Option.bind_eq_some_iff.mp parsed
  refine Option.bind_eq_some_iff.mpr ⟨_, expandSuffix_rejoin expanded, ?_⟩
  rw [List.length_map]
  split at parsed
  · cases parsed
  rename_i few
  rw [if_neg few]
  obtain ⟨⟨high, low, skipped⟩, laid, parsed⟩ := Option.bind_eq_some_iff.mp parsed
  refine Option.bind_eq_some_iff.mpr ⟨(high, low, skipped), (layout_rejoin parts).trans laid, ?_⟩
  obtain ⟨before, front, parsed⟩ := Option.bind_eq_some_iff.mp parsed
  obtain ⟨after, back, same⟩ := Option.bind_eq_some_iff.mp parsed
  refine Option.bind_eq_some_iff.mpr ⟨before, ?_, Option.bind_eq_some_iff.mpr ⟨after, ?_, same⟩⟩
  · rw [← List.map_take, mapM_rejoin front, front]
  · rw [← List.map_drop, mapM_rejoin back, back]

theorem colon_of_parseHextets {codes : Codes} {n : Nat} (parsed : parseHextets codes = some n) :
    colon ∈ codes := by
  by_contra absent
  rw [parseHextets, List.splitOn_eq_singleton absent] at parsed
  simp at parsed

theorem rejoin_mark {mark : Nat} (apart : Apart mark) (front back : Codes) :
    rejoin (front ++ mark :: back) = rejoin front ++ mark :: rejoin back := by
  have alone (codes : Codes) : rejoin (mark :: codes) = mark :: rejoin codes := by
    cases codes with
    | nil => rfl
    | cons next rest =>
      rw [rejoin, isHigh_apart apart, Bool.false_and, if_neg Bool.false_ne_true]
  fun_induction rejoin front with
  | case1 high low rest isPair ih =>
    rw [List.cons_append, List.cons_append, rejoin, if_pos isPair, ih, List.cons_append]
  | case2 high low rest single ih =>
    rw [List.cons_append, List.cons_append, rejoin, if_neg single, ← List.cons_append, ih, List.cons_append]
  | case3 codes other =>
    rcases codes with _ | ⟨code, _ | ⟨low, rest⟩⟩
    · exact alone back
    · have low : isLow mark = false := by
        unfold Apart at apart
        exact decide_eq_false (by omega)
      rw [List.singleton_append, rejoin, low, Bool.and_false, if_neg Bool.false_ne_true, alone,
        List.singleton_append]
    · exact absurd rfl (other code low rest)

theorem splitScope_subset {codes address : Codes} {scope : Option Scope}
    (split : splitScope codes = some (address, scope)) : address ⊆ codes := by
  unfold splitScope at split
  split at split
  · cases split
    exact List.Subset.refl _
  · split at split
    · cases split
      exact (List.takeWhile_sublist _).subset
    · cases split

/-- What is before the scope, and the scope, are read back on their own. -/
theorem splitScope_rejoin {codes address : Codes} {scope : Option Scope}
    (split : splitScope codes = some (address, scope)) :
    ∃ other, splitScope (rejoin codes) = some (rejoin address, other) := by
  by_cases marked : percent ∈ codes
  · obtain ⟨front, back, rfl, plain⟩ := List.eq_append_cons_of_mem marked
    have apart : Apart percent := (by decide : percent < 0xD800)
    have first : ∀ c ∈ front, decide (c ≠ percent) = true := fun c member =>
      decide_eq_true fun same => plain (same ▸ member)
    have second : ∀ c ∈ rejoin front, decide (c ≠ percent) = true := fun c member =>
      decide_eq_true fun same => plain ((mem_rejoin apart).mp (same ▸ member))
    rw [rejoin_mark apart]
    unfold splitScope at split ⊢
    rw [List.dropWhile_append_of_pos first, List.dropWhile_cons_of_neg (by simp),
      List.takeWhile_append_of_pos first, List.takeWhile_cons_of_neg (by simp), List.append_nil] at split
    rw [List.dropWhile_append_of_pos second, List.dropWhile_cons_of_neg (by simp),
      List.takeWhile_append_of_pos second, List.takeWhile_cons_of_neg (by simp), List.append_nil]
    dsimp only at split ⊢
    split at split
    · rename_i valid
      cases split
      have kept : rejoin back ≠ [] ∧ percent ∉ rejoin back ∧ slash ∉ rejoin back :=
        ⟨rejoin_eq_nil.not.mpr valid.1, (mem_rejoin apart).not.mpr valid.2.1,
          (mem_rejoin (by decide : slash < 0xD800)).not.mpr valid.2.2⟩
      exact ⟨_, dif_pos kept⟩
    · cases split
  · have whole : ∀ c ∈ codes, decide (c ≠ percent) = true := fun c member =>
      decide_eq_true fun same => marked (same ▸ member)
    have reread : ∀ c ∈ rejoin codes, decide (c ≠ percent) = true := fun c member =>
      decide_eq_true fun same =>
        marked ((mem_rejoin (by decide : percent < 0xD800)).mp (same ▸ member))
    unfold splitScope at split ⊢
    rw [List.dropWhile_eq_nil_iff.mpr whole] at split
    rw [List.dropWhile_eq_nil_iff.mpr reread]
    cases split
    exact ⟨none, rfl⟩

/-- The same number in the same version. -/
def Address.Alike : Address → Address → Prop
  | .v4 a, .v4 b => a = b
  | .v6 a _, .v6 b _ => a = b
  | _, _ => False

theorem Address.Alike.refl (address : Address) : address.Alike address := by
  cases address <;> rfl

theorem Address.Alike.classes {a b : Address} (alike : a.Alike b) :
    a.isMulticast = b.isMulticast ∧ a.isUnspecified = b.isUnspecified ∧ a.isLoopback = b.isLoopback ∧
      a.isPrivate = b.isPrivate ∧ a.isLinkLocal = b.isLinkLocal := by
  cases a <;> cases b
  · exact (show _ = _ from alike) ▸ ⟨rfl, rfl, rfl, rfl, rfl⟩
  · exact alike.elim
  · exact alike.elim
  · exact (show _ = _ from alike) ▸ ⟨rfl, rfl, rfl, rfl, rfl⟩

/-- A text that reads as an address still does after a trip through JSON. -/
theorem parseAddress_rejoin {codes : Codes} {address : Address} (parsed : parseAddress codes = some address) :
    ∃ other, parseAddress (rejoin codes) = some other ∧ address.Alike other := by
  unfold parseAddress at parsed
  split at parsed
  · rename_i ip four
    cases parsed
    refine ⟨.v4 ip, ?_, rfl⟩
    have plain := four
    unfold parseV4 at plain
    split at plain
    · cases plain
    · obtain ⟨n, dotted, -⟩ := Option.map_eq_some_iff.mp plain
      rw [parseDotted_rejoin dotted, parseAddress, four]
  · obtain ⟨⟨ip, scope⟩, six, same⟩ := Option.map_eq_some_iff.mp parsed
    cases same
    unfold parseV6 at six
    split at six
    · cases six
    rename_i whole
    obtain ⟨⟨text, scope⟩, split, six⟩ := Option.bind_eq_some_iff.mp six
    obtain ⟨n, hextets, same⟩ := Option.bind_eq_some_iff.mp six
    cases same
    obtain ⟨other, scope', reread⟩ : ∃ other, splitScope (rejoin codes) = some (rejoin text, other) ∧
        parseHextets (rejoin text) = some n := by
      obtain ⟨other, read⟩ := splitScope_rejoin split
      exact ⟨other, read, parseHextets_rejoin hextets⟩
    have coloned : colon ∈ rejoin codes := by
      have inside := colon_of_parseHextets hextets
      exact (mem_rejoin (by decide : colon < 0xD800)).mpr (splitScope_subset split inside)
    refine ⟨.v6 (BitVec.ofNat 128 n) other, ?_, rfl⟩
    have plain : slash ∉ rejoin codes := (mem_rejoin (by decide : slash < 0xD800)).not.mpr whole
    rw [parseAddress, parseV4_colon coloned, parseV6, if_neg plain, scope']
    dsimp only [Option.bind_eq_bind, Option.bind_some]
    rw [reread]
    rfl

end Sippycup.Ip
