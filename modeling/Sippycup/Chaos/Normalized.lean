import Sippycup.Chaos.AcceptedTopology
import Sippycup.Chaos.Profile
import Sippycup.Python.DecimalText

/-! Normalised settings are a fixed point: what a compiled plan writes of them
reads back as the same settings, with every whole number as an integer. -/
namespace Sippycup.Chaos
open Sippycup.Python Sippycup.Ip

/-- The number `value` reads as `d`, within `0..maximum`. -/
structure Reads (maximum : Nat) (value : JsonValue) (d : Decimal) : Prop where
  low : 0 ≤ d.value
  high : d.value ≤ maximum
  number : (∃ n : Int, n.natAbs < 10 ^ Json.maxStrDigits ∧ value = .int n ∧ d = .ofInt n) ∨
    ∃ x : Shortest, value = .float (.finite x) ∧ d = .ofText x.repr

theorem ranged_ok {d e : Decimal} {field : String} {maximum : Nat} :
    ranged d field maximum = .ok e ↔ (0 ≤ d.value ∧ d.value ≤ maximum) ∧ d = e := by
  rw [ranged]
  split
  · rename_i within
    simp [within]
  · rename_i outside
    simp [profileError, outside]

theorem decimal_ok {value : JsonValue} {field : String} {maximum : Nat} {d : Decimal} :
    decimal value field maximum = .ok d ↔ Reads maximum value d := by
  constructor
  · intro read
    rw [decimal.eq_def] at read
    split at read
    · rename_i n
      split at read
      · cases read
      · rename_i short
        obtain ⟨⟨low, high⟩, rfl⟩ := ranged_ok.1 read
        exact ⟨low, high, .inl ⟨n, Nat.lt_of_not_le short, rfl, rfl⟩⟩
    · rename_i x
      obtain ⟨⟨low, high⟩, rfl⟩ := ranged_ok.1 read
      exact ⟨low, high, .inr ⟨x, rfl, rfl⟩⟩
    · cases read
  · rintro ⟨low, high, ⟨n, short, rfl, rfl⟩ | ⟨x, rfl, rfl⟩⟩
    · rw [decimal, if_neg (Nat.not_le.mpr short)]
      exact ranged_ok.2 ⟨⟨low, high⟩, rfl⟩
    · exact ranged_ok.2 ⟨⟨low, high⟩, rfl⟩

theorem readPercent_ok {value : JsonValue} {field : String} {d : Decimal} :
    readPercent field value = .ok d ↔ Reads percentLimit value d := decimal_ok

theorem integer_ok {value : JsonValue} {field : String} {low high n : Int} :
    integer value field low high = .ok n ↔ value = .int n ∧ low ≤ n ∧ n ≤ high := by
  cases value with
  | int m =>
    rw [integer]
    split
    · rename_i within
      simp only [Except.ok.injEq, JsonValue.int.injEq]
      exact ⟨fun same => ⟨same, same ▸ within⟩, And.left⟩
    · rename_i outside
      simp only [profileError, reduceCtorEq, JsonValue.int.injEq, false_iff, not_and]
      rintro rfl low high
      exact outside ⟨low, high⟩
  | _ => simp [integer, profileError]

theorem optional_ok {α : Type} {d : JsonDict} {key : Text} {read : JsonValue → Result α}
    {result : Option α} :
    optional d key read = .ok result ↔
      Option.Rel (fun value a => read value = .ok a) (d.get? key) result := by
  rw [optional]
  cases d.get? key with
  | none =>
    constructor
    · rintro ⟨⟩
      exact .none
    · rintro ⟨⟩
      rfl
  | some value =>
    simp only [bind_ok, pure_ok]
    constructor
    · rintro ⟨a, read, rfl⟩
      exact .some read
    · rintro ⟨⟩
      rename_i a read
      exact ⟨a, read, rfl⟩

theorem exactKeys_ok {d : JsonDict} {field : String} {allowed required : List Text} {u : Unit} :
    exactKeys d field allowed required = .ok u ↔
      (∀ k ∈ d.keys, k ∈ allowed) ∧ ∀ k ∈ required, d.contains k = true := by
  simp [exactKeys, bind_ok, refuse_ok, List.filter_eq_nil_iff]

theorem requirePositive_ok {d : Decimal} {message : String} {u : Unit} :
    requirePositive d message = .ok u ↔ 0 < d.value := by
  simp [requirePositive, refuse_ok]

namespace Reads
variable {maximum : Nat} {value : JsonValue} {d : Decimal}

theorem ofNumber (read : Reads maximum value d) : d.OfNumber := by
  obtain ⟨-, -, ⟨n, -, -, rfl⟩ | ⟨x, -, rfl⟩⟩ := read
  · exact .int n
  · exact Decimal.ofNumber_repr x

theorem short {n : Int} (small : maximum ≤ 60000) (low : 0 ≤ (Decimal.ofInt n).value)
    (high : (Decimal.ofInt n).value ≤ maximum) : n.natAbs < 10 ^ Json.maxStrDigits := by
  rw [Decimal.value_toInt (Decimal.ofInt_integral n), Decimal.toInt_ofInt] at low high
  have below : n ≤ maximum := by exact_mod_cast high
  have above : 0 ≤ n := by exact_mod_cast low
  have power : 10 ^ 5 ≤ 10 ^ Json.maxStrDigits := Nat.pow_le_pow_right (by decide) (by decide)
  have room : n.natAbs ≤ 60000 := by omega
  exact lt_of_lt_of_le (by omega) power

theorem json (small : maximum ≤ 60000) (read : Reads maximum value d) :
    Reads maximum (jsonNumber d) d.settled := by
  have low : 0 ≤ d.settled.value := by
    rw [Decimal.value_settled]
    exact read.low
  have high : d.settled.value ≤ maximum := by
    rw [Decimal.value_settled]
    exact read.high
  refine ⟨low, high, ?_⟩
  by_cases integral : d.isIntegral = true
  · rw [Decimal.settled, if_pos integral] at low high ⊢
    rw [jsonNumber, if_pos integral]
    exact .inl ⟨d.toInt, short small low high, rfl, rfl⟩
  · rw [Decimal.settled, if_neg integral, jsonNumber, if_neg integral]
    obtain ⟨-, -, ⟨n, -, -, rfl⟩ | ⟨x, -, rfl⟩⟩ := read
    · exact absurd (Decimal.ofInt_integral n) integral
    · rw [Bool.not_eq_true] at integral
      refine .inr ⟨_, rfl, ?_⟩
      rw [Decimal.ofText_repr_ofDecimal integral]

end Reads

/-- A required item of a dict, as a number. -/
def ReadsAt (maximum : Nat) (d : JsonDict) (key : String) (number : Decimal) : Prop :=
  ∃ value, d.get? key = some value ∧ Reads maximum value number

/-- An item of a dict, as a number where the dict has it. -/
def ReadsOptional (maximum : Nat) (d : JsonDict) (key : String) (number : Option Decimal) : Prop :=
  Option.Rel (Reads maximum) (d.get? key) number

structure ReadsDelay (delay : JsonDict) (d : Delay Decimal) : Prop where
  keys : ∀ k ∈ delay.keys, k ∈ delayKeys
  milliseconds : ReadsAt millisecondsLimit delay "milliseconds" d.milliseconds
  positive : 0 < d.milliseconds.value
  jitter : ReadsOptional millisecondsLimit delay "jitterMilliseconds" d.jitter
  jitterBound : ∀ j ∈ d.jitter, 0 < j.value ∧ j.value ≤ d.milliseconds.value
  alone : d.jitter = none → d.correlation = none ∧ d.distribution = none
  correlation : ReadsOptional percentLimit delay "correlationPercent" d.correlation
  distribution : delay.get? "distribution" = d.distribution.map .str
  known : ∀ t ∈ d.distribution, t ∈ distributions

theorem readDistribution_ok {value : JsonValue} {field : String} {t : Text} :
    readDistribution field value = .ok t ↔ value = .str t ∧ t ∈ distributions := by
  rw [readDistribution.eq_def]
  cases value with
  | str u =>
    by_cases known : u ∈ distributions
    · simp only [known, if_true, Except.ok.injEq, JsonValue.str.injEq]
      exact ⟨fun same => ⟨same, same ▸ known⟩, And.left⟩
    · simp only [known, if_false, profileError, reduceCtorEq, JsonValue.str.injEq, false_iff,
        not_and]
      rintro rfl
      exact known
  | _ => simp [JsonValue.hashable, profileError]

theorem rel_eq {α β : Type} {f : β → α} {p : β → Prop} {value : Option α} {result : Option β} :
    Option.Rel (fun a b => a = f b ∧ p b) value result ↔
      value = result.map f ∧ ∀ b ∈ result, p b := by
  cases value <;> cases result <;> simp

theorem rel_none {α β : Type} {r : α → β → Prop} {value : Option α} :
    Option.Rel r value none ↔ value = none := by
  cases value <;> simp

theorem contains_none {d : JsonDict} {key : Text} : d.contains key = false ↔ d.get? key = none := by
  simp [JsonDict.contains]

theorem readJitter_ok {delay : JsonDict} {field : String} {milliseconds : Decimal}
    {jitter : Option Decimal} :
    readJitter delay field milliseconds = .ok jitter ↔
      ReadsOptional millisecondsLimit delay "jitterMilliseconds" jitter ∧
        (∀ j ∈ jitter, 0 < j.value ∧ j.value ≤ milliseconds.value) ∧
          (jitter = none → delay.get? "correlationPercent" = none ∧
            delay.get? "distribution" = none) := by
  rw [readJitter, ReadsOptional]
  cases delay.get? "jitterMilliseconds" with
  | none =>
    simp only [bind_ok, refuse_ok, pure_ok, Bool.or_eq_false_iff, contains_none, exists_const]
    constructor
    · rintro ⟨absent, rfl⟩
      exact ⟨.none, fun j none_ => (by cases none_), fun _ => absent⟩
    · rintro ⟨⟨⟩, -, absent⟩
      exact ⟨absent rfl, rfl⟩
  | some value =>
    simp only [bind_ok, refuse_ok, pure_ok, decimal_ok, decide_eq_false_iff_not, not_or, not_le,
      not_lt, exists_const]
    constructor
    · rintro ⟨j, read, bound, rfl⟩
      refine ⟨.some read, fun k same => ?_, fun none_ => by cases none_⟩
      obtain rfl := Option.some.inj same
      exact bound
    · rintro ⟨⟨⟩, bound, -⟩
      rename_i j read
      exact ⟨j, read, bound j rfl, rfl⟩

theorem normalizeDelay_ok {value : JsonValue} {field : String} {d : Delay Decimal} :
    normalizeDelay field value = .ok d ↔ ∃ delay, value = .dict delay ∧ ReadsDelay delay d := by
  simp only [normalizeDelay, bind_ok, pure_ok, expectMapping_ok, exactKeys_ok, JsonDict.item_ok,
    decimal_ok, requirePositive_ok, readJitter_ok, optional_ok, readPercent_ok,
    readDistribution_ok, exists_const, rel_eq]
  constructor
  · rintro ⟨delay, rfl, ⟨keys, -⟩, first, found, milliseconds, read, positive, jitter,
      ⟨readJitter, bound, alone⟩, correlation, readCorrelation, distribution, ⟨text, known⟩, rfl⟩
    refine ⟨delay, rfl, keys, ⟨first, found, read⟩, positive, readJitter, bound, ?_,
      readCorrelation, text, known⟩
    intro none_
    obtain ⟨noCorrelation, noDistribution⟩ := alone none_
    rw [noCorrelation] at readCorrelation
    rw [noDistribution] at text
    cases readCorrelation
    exact ⟨rfl, Option.map_eq_none_iff.mp text.symm⟩
  · rintro ⟨delay, rfl, reads⟩
    obtain ⟨first, found, read⟩ := reads.milliseconds
    refine ⟨delay, rfl, ⟨reads.keys, ?_⟩, first, found, d.milliseconds, read, reads.positive,
      d.jitter, ⟨reads.jitter, reads.jitterBound, ?_⟩, d.correlation, reads.correlation,
      d.distribution, ⟨reads.distribution, reads.known⟩, rfl⟩
    · simp [JsonDict.contains, found]
    · intro none_
      obtain ⟨noCorrelation, noDistribution⟩ := reads.alone none_
      have absent := reads.correlation
      rw [noCorrelation] at absent
      rw [reads.distribution, noDistribution]
      exact ⟨rel_none.1 absent, rfl⟩

structure ReadsRandom (loss : JsonDict) (percent : Decimal) (correlation : Option Decimal) :
    Prop where
  model : loss.get? "model" = some (str "random")
  keys : ∀ k ∈ loss.keys, k ∈ randomKeys
  positive : 0 < percent.value
  percent : ReadsAt percentLimit loss "percent" percent
  correlation : ReadsOptional percentLimit loss "correlationPercent" correlation

structure ReadsGemodel (loss : JsonDict) (start recovery bad good : Decimal) : Prop where
  model : loss.get? "model" = some (str "gemodel")
  keys : ∀ k ∈ loss.keys, k ∈ gemodelKeys
  positive : 0 < start.value ∧ 0 < recovery.value
  start : ReadsAt percentLimit loss "startPercent" start
  recovery : ReadsAt percentLimit loss "recoveryPercent" recovery
  bad : ReadsAt percentLimit loss "badLossPercent" bad
  good : ReadsAt percentLimit loss "goodLossPercent" good

def ReadsLoss (loss : JsonDict) : Loss Decimal → Prop
  | .random percent correlation => ReadsRandom loss percent correlation
  | .gemodel start recovery bad good => ReadsGemodel loss start recovery bad good

theorem find_isText {d : JsonDict} {key t : Text} :
    (d.find key).isText t = true ↔ d.get? key = some (.str t) := by
  rw [JsonValue.isText_iff, JsonDict.find]
  cases d.get? key <;> simp

theorem ReadsAt.contains {maximum : Nat} {d : JsonDict} {key : String} {number : Decimal}
    (reads : ReadsAt maximum d key number) : d.contains key = true := by
  obtain ⟨value, found, -⟩ := reads
  simp [JsonDict.contains, found]

theorem normalizeRandom_ok {loss : JsonDict} {field : String} {l : Loss Decimal}
    (model : loss.get? "model" = some (str "random")) :
    normalizeRandom field loss = .ok l ↔
      ∃ percent correlation, l = .random percent correlation ∧ ReadsRandom loss percent correlation := by
  simp only [normalizeRandom, bind_ok, pure_ok, exactKeys_ok, JsonDict.item_ok, readPercent_ok,
    requirePositive_ok, optional_ok, exists_const]
  constructor
  · rintro ⟨⟨keys, -⟩, first, found, percent, read, positive, correlation, readCorrelation, rfl⟩
    exact ⟨percent, correlation, rfl, model, keys, positive, ⟨first, found, read⟩, readCorrelation⟩
  · rintro ⟨percent, correlation, rfl, reads⟩
    obtain ⟨first, found, read⟩ := reads.percent
    refine ⟨⟨reads.keys, ?_⟩, first, found, percent, read, reads.positive, correlation,
      reads.correlation, rfl⟩
    simp [JsonDict.contains, found, model]

theorem normalizeGemodel_ok {loss : JsonDict} {field : String} {l : Loss Decimal}
    (model : loss.get? "model" = some (str "gemodel")) :
    normalizeGemodel field loss = .ok l ↔
      ∃ start recovery bad good, l = .gemodel start recovery bad good ∧
        ReadsGemodel loss start recovery bad good := by
  simp only [normalizeGemodel, bind_ok, pure_ok, exactKeys_ok, JsonDict.item_ok, readPercent_ok,
    refuse_ok, decide_eq_false_iff_not, not_or, not_le, exists_const]
  constructor
  · rintro ⟨⟨keys, -⟩, _, foundStart, start, readStart, _, foundRecovery, recovery, readRecovery,
      _, foundBad, bad, readBad, _, foundGood, good, readGood, positive, rfl⟩
    exact ⟨start, recovery, bad, good, rfl, model, keys, positive, ⟨_, foundStart, readStart⟩,
      ⟨_, foundRecovery, readRecovery⟩, ⟨_, foundBad, readBad⟩, ⟨_, foundGood, readGood⟩⟩
  · rintro ⟨start, recovery, bad, good, rfl, reads⟩
    obtain ⟨_, foundStart, readStart⟩ := reads.start
    obtain ⟨_, foundRecovery, readRecovery⟩ := reads.recovery
    obtain ⟨_, foundBad, readBad⟩ := reads.bad
    obtain ⟨_, foundGood, readGood⟩ := reads.good
    refine ⟨⟨reads.keys, ?_⟩, _, foundStart, start, readStart, _, foundRecovery, recovery,
      readRecovery, _, foundBad, bad, readBad, _, foundGood, good, readGood, reads.positive, rfl⟩
    simp [gemodelKeys, JsonDict.contains, model, foundStart, foundRecovery, foundBad, foundGood]

theorem normalizeLoss_ok {value : JsonValue} {field : String} {l : Loss Decimal} :
    normalizeLoss field value = .ok l ↔ ∃ loss, value = .dict loss ∧ ReadsLoss loss l := by
  simp only [normalizeLoss, bind_ok, expectMapping_ok]
  constructor
  · rintro ⟨loss, rfl, read⟩
    refine ⟨loss, rfl, ?_⟩
    split at read
    · rename_i model
      obtain ⟨percent, correlation, rfl, reads⟩ := (normalizeRandom_ok (find_isText.1 model)).mp read
      exact reads
    split at read
    · rename_i model
      obtain ⟨start, recovery, bad, good, rfl, reads⟩ := (normalizeGemodel_ok (find_isText.1 model)).mp read
      exact reads
    · cases read
  · rintro ⟨loss, rfl, reads⟩
    refine ⟨loss, rfl, ?_⟩
    cases l with
    | random percent correlation =>
      rw [if_pos (find_isText.2 reads.model)]
      exact (normalizeRandom_ok reads.model).mpr ⟨percent, correlation, rfl, reads⟩
    | gemodel start recovery bad good =>
      have other : ¬ (JsonDict.find loss "model").isText "random" = true := by
        rw [find_isText, reads.model, str]
        simp
      rw [if_neg other, if_pos (find_isText.2 reads.model)]
      exact (normalizeGemodel_ok reads.model).mpr ⟨start, recovery, bad, good, rfl, reads⟩

structure ReadsEffect (effect : JsonDict) (e : Effect Decimal) : Prop where
  keys : ∀ k ∈ effect.keys, k ∈ (["percent", "correlationPercent"] : List Text)
  percent : ReadsAt percentLimit effect "percent" e.percent
  positive : 0 < e.percent.value
  correlation : ReadsOptional percentLimit effect "correlationPercent" e.correlation

theorem normalizePercentEffect_ok {value : JsonValue} {field : String} {e : Effect Decimal} :
    normalizePercentEffect field value = .ok e ↔
      ∃ effect, value = .dict effect ∧ ReadsEffect effect e := by
  simp only [normalizePercentEffect, bind_ok, pure_ok, expectMapping_ok, exactKeys_ok,
    JsonDict.item_ok, readPercent_ok, requirePositive_ok, optional_ok, exists_const]
  constructor
  · rintro ⟨effect, rfl, ⟨keys, -⟩, first, found, percent, read, positive, correlation,
      readCorrelation, rfl⟩
    exact ⟨effect, rfl, keys, ⟨first, found, read⟩, positive, readCorrelation⟩
  · rintro ⟨effect, rfl, reads⟩
    obtain ⟨first, found, read⟩ := reads.percent
    refine ⟨effect, rfl, ⟨reads.keys, ?_⟩, first, found, e.percent, read, reads.positive,
      e.correlation, reads.correlation, rfl⟩
    simp [reads.percent.contains]

structure ReadsReorder (reorder : JsonDict) (r : Reorder Decimal) : Prop where
  keys : ∀ k ∈ reorder.keys, k ∈ (["percent", "correlationPercent", "gap"] : List Text)
  percent : ReadsAt percentLimit reorder "percent" r.percent
  positive : 0 < r.percent.value
  correlation : ReadsOptional percentLimit reorder "correlationPercent" r.correlation
  gap : reorder.get? "gap" = r.gap.map .int
  gapBound : ∀ n ∈ r.gap, 1 ≤ n ∧ n ≤ 1000000

theorem normalizeReorder_ok {value : JsonValue} {field : String} {r : Reorder Decimal} :
    normalizeReorder field value = .ok r ↔
      ∃ reorder, value = .dict reorder ∧ ReadsReorder reorder r := by
  simp only [normalizeReorder, bind_ok, pure_ok, expectMapping_ok, exactKeys_ok,
    JsonDict.item_ok, readPercent_ok, requirePositive_ok, optional_ok, integer_ok, exists_const,
    rel_eq]
  constructor
  · rintro ⟨reorder, rfl, ⟨keys, -⟩, first, found, percent, read, positive, correlation,
      readCorrelation, gap, ⟨text, bound⟩, rfl⟩
    exact ⟨reorder, rfl, keys, ⟨first, found, read⟩, positive, readCorrelation, text, bound⟩
  · rintro ⟨reorder, rfl, reads⟩
    obtain ⟨first, found, read⟩ := reads.percent
    refine ⟨reorder, rfl, ⟨reads.keys, ?_⟩, first, found, r.percent, read, reads.positive,
      r.correlation, reads.correlation, r.gap, ⟨reads.gap, reads.gapBound⟩, rfl⟩
    simp [reads.percent.contains]

/-- Exactly one of the two bounds stands in the dict. -/
def ReadsBound (rate : JsonDict) (burstBytes : Int) : RateBound → Prop
  | .latencyMilliseconds n => rate.get? "latencyMilliseconds" = some (.int n) ∧
      rate.get? "limitBytes" = none ∧ 1 ≤ n ∧ n ≤ 60000
  | .limitBytes n => rate.get? "latencyMilliseconds" = none ∧
      rate.get? "limitBytes" = some (.int n) ∧ burstBytes ≤ n ∧ n ≤ 1073741824

structure ReadsRate (rate : JsonDict) (r : Rate) : Prop where
  keys : ∀ k ∈ rate.keys, k ∈ rateKeys
  kbit : rate.get? "kbit" = some (.int r.kbit)
  kbitBound : 8 ≤ r.kbit ∧ r.kbit ≤ 10000000
  burstBytes : rate.get? "burstBytes" = some (.int r.burstBytes)
  burstBound : 256 ≤ r.burstBytes ∧ r.burstBytes ≤ 16777216
  bound : ReadsBound rate r.burstBytes r.bound

theorem normalizeRate_ok {value : JsonValue} {field : String} {r : Rate} :
    normalizeRate field value = .ok r ↔ ∃ rate, value = .dict rate ∧ ReadsRate rate r := by
  simp only [normalizeRate, bind_ok, expectMapping_ok, exactKeys_ok, refuse_ok,
    JsonDict.item_ok, integer_ok, exists_const]
  constructor
  · rintro ⟨rate, rfl, ⟨keys, -⟩, one, _, foundKbit, kbit, ⟨rfl, kbitBound⟩, _, foundBurst, burst,
      ⟨rfl, burstBound⟩, read⟩
    refine ⟨rate, rfl, ?_⟩
    split at read
    · rename_i latency found
      simp only [bind_ok, integer_ok, pure_ok] at read
      obtain ⟨n, ⟨rfl, bound⟩, rfl⟩ := read
      simp only [JsonDict.contains, found] at one
      have absent : rate.get? "limitBytes" = none := by simpa using one
      exact ⟨keys, foundKbit, kbitBound, foundBurst, burstBound, found, absent, bound⟩
    · rename_i absent
      simp only [bind_ok, JsonDict.item_ok, integer_ok, pure_ok] at read
      obtain ⟨_, found, n, ⟨rfl, bound⟩, rfl⟩ := read
      exact ⟨keys, foundKbit, kbitBound, foundBurst, burstBound, absent, found, bound⟩
  · rintro ⟨rate, rfl, reads⟩
    obtain ⟨kbit, burstBytes, bound⟩ := r
    have bounds := reads.bound
    refine ⟨rate, rfl, ⟨reads.keys, ?_⟩, ?_, _, reads.kbit, kbit, ⟨rfl, reads.kbitBound⟩, _,
      reads.burstBytes, burstBytes, ⟨rfl, reads.burstBound⟩, ?_⟩
    · simp [JsonDict.contains, reads.kbit, reads.burstBytes]
    · cases bound with
      | latencyMilliseconds n => simp [JsonDict.contains, bounds.1, bounds.2.1]
      | limitBytes n => simp [JsonDict.contains, bounds.1, bounds.2.1]
    · cases bound with
      | latencyMilliseconds n =>
        obtain ⟨found, -, bound⟩ := bounds
        rw [found]
        exact bind_ok.mpr ⟨n, integer_ok.2 ⟨rfl, bound⟩, rfl⟩
      | limitBytes n =>
        obtain ⟨absent, found, bound⟩ := bounds
        rw [absent]
        exact bind_ok.mpr ⟨_, JsonDict.item_ok.mpr found, bind_ok.mpr ⟨n, integer_ok.2 ⟨rfl, bound⟩, rfl⟩⟩

def Impairment.emulates {α : Type} (i : Impairment α) : Bool :=
  i.delay.isSome || i.loss.isSome || i.reorder.isSome || i.duplicate.isSome || i.corrupt.isSome

/-- An item that is a dict, where the dict has it. -/
def ReadsGroup {α : Type} (reads : JsonDict → α → Prop) (d : JsonDict) (key : String)
    (group : Option α) : Prop :=
  Option.Rel (fun value a => ∃ e, value = .dict e ∧ reads e a) (d.get? key) group

/-- What a normalised direction says about the dict it was read from. -/
structure ReadsImpairment (impairment : JsonDict) (i : Impairment Decimal) : Prop where
  keys : ∀ k ∈ impairment.keys, k ∈ impairmentKeys
  delay : ReadsGroup ReadsDelay impairment "delay" i.delay
  loss : ReadsGroup ReadsLoss impairment "loss" i.loss
  reorder : ReadsGroup ReadsReorder impairment "reorder" i.reorder
  delayed : i.reorder.isSome = true → i.delay.isSome = true
  duplicate : ReadsGroup ReadsEffect impairment "duplicate" i.duplicate
  corrupt : ReadsGroup ReadsEffect impairment "corrupt" i.corrupt
  queuePackets : impairment.get? "queuePackets" = i.queuePackets.map .int
  queueBound : ∀ n ∈ i.queuePackets, i.emulates = true ∧ 1 ≤ n ∧ n ≤ 1000000
  rate : ReadsGroup ReadsRate impairment "rate" i.rate
  mtu : impairment.get? "mtu" = i.mtu.map .int
  mtuBound : ∀ n ∈ i.mtu, 1280 ≤ n ∧ n ≤ 9000

theorem readReorder_ok {impairment : JsonDict} {field : String} {delay : Option (Delay Decimal)}
    {reorder : Option (Reorder Decimal)} :
    readReorder impairment field delay = .ok reorder ↔
      ReadsGroup ReadsReorder impairment "reorder" reorder ∧
        (reorder.isSome = true → delay.isSome = true) := by
  simp only [readReorder, optional_ok, bind_ok, refuse_ok, normalizeReorder_ok, ReadsGroup,
    exists_const]
  cases impairment.get? "reorder" <;> cases reorder <;> cases delay <;> simp

theorem readQueue_ok {impairment : JsonDict} {field : String} {netem : Bool} {queue : Option Int} :
    readQueue impairment field netem = .ok queue ↔
      impairment.get? "queuePackets" = queue.map .int ∧
        ∀ n ∈ queue, netem = true ∧ 1 ≤ n ∧ n ≤ 1000000 := by
  simp only [readQueue, optional_ok, bind_ok, refuse_ok, integer_ok, Bool.not_eq_false',
    exists_const]
  rw [← rel_eq]
  have swap : ∀ (value : JsonValue) (n : Int),
      (netem = true ∧ value = .int n ∧ 1 ≤ n ∧ n ≤ 1000000) ↔
        (value = .int n ∧ netem = true ∧ 1 ≤ n ∧ n ≤ 1000000) := fun _ _ => and_left_comm
  simp only [swap]

theorem normalizeImpairment_ok {value : JsonValue} {field : String} {i : Impairment Decimal} :
    normalizeImpairment field value = .ok i ↔
      ∃ impairment, value = .dict impairment ∧ ReadsImpairment impairment i := by
  simp only [normalizeImpairment, bind_ok, pure_ok, expectMapping_ok, exactKeys_ok, optional_ok,
    normalizeDelay_ok, normalizeLoss_ok, readReorder_ok, normalizePercentEffect_ok, readQueue_ok,
    normalizeRate_ok, integer_ok, exists_const, rel_eq]
  constructor
  · rintro ⟨impairment, rfl, ⟨keys, -⟩, delay, readDelay, loss, readLoss, reorder,
      ⟨readReorder, delayed⟩, duplicate, readDuplicate, corrupt, readCorrupt, queue,
      ⟨readQueue, queueBound⟩, rate, readRate, mtu, ⟨readMtu, mtuBound⟩, rfl⟩
    exact ⟨impairment, rfl, keys, readDelay, readLoss, readReorder, delayed, readDuplicate,
      readCorrupt, readQueue, queueBound, readRate, readMtu, mtuBound⟩
  · rintro ⟨impairment, rfl, reads⟩
    exact ⟨impairment, rfl, ⟨reads.keys, by simp⟩, i.delay, reads.delay, i.loss, reads.loss,
      i.reorder, ⟨reads.reorder, reads.delayed⟩, i.duplicate, reads.duplicate, i.corrupt,
      reads.corrupt, i.queuePackets, ⟨reads.queuePackets, reads.queueBound⟩, i.rate, reads.rate,
      i.mtu, ⟨reads.mtu, reads.mtuBound⟩, rfl⟩

section json
open JsonDict (get?_append get?_entry)

@[simp] theorem get?_item {α : Type} (key other : String) (render : α → JsonValue) (v : Option α) :
    JsonDict.get? (item? key render v) other = if key = other then v.map render else none := by
  cases v <;> simp [item?]

variable {allowed : List Text}

theorem keys_append {xs ys : JsonDict} (left : ∀ k ∈ xs.keys, k ∈ allowed)
    (right : ∀ k ∈ ys.keys, k ∈ allowed) : ∀ k ∈ JsonDict.keys (xs ++ ys), k ∈ allowed := by
  simp only [JsonDict.keys, List.map_append, List.mem_append]
  rintro k (inside | inside)
  · exact left k inside
  · exact right k inside

theorem keys_item {α : Type} {key : String} {render : α → JsonValue} (v : Option α)
    (known : Text.ofString key ∈ allowed) : ∀ k ∈ (item? key render v).keys, k ∈ allowed := by
  cases v with
  | none => simp [item?, JsonDict.keys]
  | some a => simpa [item?, JsonDict.keys, JsonDict.entry] using known

theorem keys_entry {key : String} {value : JsonValue} {rest : JsonDict}
    (known : Text.ofString key ∈ allowed) (others : ∀ k ∈ rest.keys, k ∈ allowed) :
    ∀ k ∈ JsonDict.keys (JsonDict.entry key value :: rest), k ∈ allowed :=
  List.forall_mem_cons.mpr ⟨known, others⟩

theorem keys_nil : ∀ k ∈ JsonDict.keys [], k ∈ allowed := by
  simp [JsonDict.keys]

variable {maximum : Nat}

theorem readsAt_json {d e : JsonDict} {key : String} {number : Decimal} (small : maximum ≤ 60000)
    (read : ReadsAt maximum d key number) (found : e.get? key = some (jsonNumber number)) :
    ReadsAt maximum e key number.settled := by
  obtain ⟨value, -, reads⟩ := read
  exact ⟨_, found, reads.json small⟩

theorem readsOptional_json {d e : JsonDict} {key : String} {number : Option Decimal}
    (small : maximum ≤ 60000) (read : ReadsOptional maximum d key number)
    (found : e.get? key = number.map jsonNumber) :
    ReadsOptional maximum e key (number.map Decimal.settled) := by
  rw [ReadsOptional] at read ⊢
  rw [found]
  generalize d.get? key = value at read
  cases read with
  | none => exact .none
  | some reads => exact .some (reads.json small)

theorem ReadsDelay.json {delay : JsonDict} {d : Delay Decimal} (reads : ReadsDelay delay d) :
    ReadsDelay (d.map jsonNumber).toDict (d.map Decimal.settled) where
  keys := by
    rw [Delay.toDict]
    apply keys_append
    · apply keys_append
      · exact keys_entry (by decide) (keys_item _ (by decide))
      · exact keys_item _ (by decide)
    · exact keys_item _ (by decide)
  milliseconds := readsAt_json le_rfl reads.milliseconds (by simp [Delay.toDict, Delay.map])
  positive := by
    rw [Delay.map, Decimal.value_settled]
    exact reads.positive
  jitter := readsOptional_json le_rfl reads.jitter (by simp [Delay.toDict, Delay.map, get?_append])
  jitterBound := by
    intro j settled
    obtain ⟨k, read, rfl⟩ := Option.map_eq_some_iff.mp settled
    simp only [Delay.map, Decimal.value_settled]
    exact reads.jitterBound k read
  alone := by
    simp only [Delay.map, Option.map_eq_none_iff]
    exact reads.alone
  correlation := readsOptional_json (by decide) reads.correlation
    (by simp [Delay.toDict, Delay.map, get?_append])
  distribution := by simp [Delay.toDict, Delay.map, get?_append]
  known := reads.known

theorem ReadsLoss.json {loss : JsonDict} {l : Loss Decimal} (reads : ReadsLoss loss l) :
    ReadsLoss (l.map jsonNumber).toDict (l.map Decimal.settled) := by
  cases l with
  | random percent correlation =>
    have reads : ReadsRandom loss percent correlation := reads
    refine ⟨by simp [Loss.map, Loss.toDict], ?_, ?_, ?_, ?_⟩
    · rw [Loss.map, Loss.toDict]
      refine keys_entry (by decide) ?_
      exact keys_entry (by decide) (keys_item _ (by decide))
    · rw [Decimal.value_settled]
      exact reads.positive
    · exact readsAt_json (by decide) reads.percent (by simp [Loss.map, Loss.toDict])
    · exact readsOptional_json (by decide) reads.correlation (by simp [Loss.map, Loss.toDict])
  | gemodel start recovery bad good =>
    have reads : ReadsGemodel loss start recovery bad good := reads
    refine ⟨by simp [Loss.map, Loss.toDict], ?_, ?_, ?_, ?_, ?_, ?_⟩
    · rw [Loss.map, Loss.toDict]
      iterate 5 refine keys_entry (by decide) ?_
      exact keys_nil
    · rw [Decimal.value_settled, Decimal.value_settled]
      exact reads.positive
    · exact readsAt_json (by decide) reads.start (by simp [Loss.map, Loss.toDict])
    · exact readsAt_json (by decide) reads.recovery (by simp [Loss.map, Loss.toDict])
    · exact readsAt_json (by decide) reads.bad (by simp [Loss.map, Loss.toDict])
    · exact readsAt_json (by decide) reads.good (by simp [Loss.map, Loss.toDict])

theorem ReadsEffect.json {effect : JsonDict} {e : Effect Decimal} (reads : ReadsEffect effect e) :
    ReadsEffect (e.map jsonNumber).toDict (e.map Decimal.settled) where
  keys := keys_entry (by decide) (keys_item _ (by decide))
  percent := readsAt_json (by decide) reads.percent (by simp [Effect.toDict, Effect.map])
  positive := by
    rw [Effect.map, Decimal.value_settled]
    exact reads.positive
  correlation := readsOptional_json (by decide) reads.correlation
    (by simp [Effect.toDict, Effect.map])

theorem ReadsReorder.json {reorder : JsonDict} {r : Reorder Decimal}
    (reads : ReadsReorder reorder r) :
    ReadsReorder (r.map jsonNumber).toDict (r.map Decimal.settled) where
  keys := by
    rw [Reorder.toDict]
    apply keys_append
    · exact keys_entry (by decide) (keys_item _ (by decide))
    · exact keys_item _ (by decide)
  percent := readsAt_json (by decide) reads.percent (by simp [Reorder.toDict, Reorder.map])
  positive := by
    rw [Reorder.map, Decimal.value_settled]
    exact reads.positive
  correlation := readsOptional_json (by decide) reads.correlation
    (by simp [Reorder.toDict, Reorder.map, get?_append])
  gap := by simp [Reorder.toDict, Reorder.map, get?_append]
  gapBound := reads.gapBound

theorem ReadsRate.json {rate : JsonDict} {r : Rate} (reads : ReadsRate rate r) :
    ReadsRate r.toDict r := by
  obtain ⟨kbit, burstBytes, bound⟩ := r
  have bounds := reads.bound
  refine ⟨?_, by simp [Rate.toDict], reads.kbitBound, by simp [Rate.toDict], reads.burstBound, ?_⟩
  · rw [Rate.toDict]
    cases bound <;> iterate 3 refine keys_entry (by decide) ?_
    · exact keys_nil
    · exact keys_nil
  · cases bound with
    | latencyMilliseconds n => simpa [ReadsBound, Rate.toDict] using bounds.2.2
    | limitBytes n => simpa [ReadsBound, Rate.toDict] using bounds.2.2

theorem readsGroup_json {α : Type} {reads : JsonDict → α → Prop} {write : α → JsonDict}
    {settle : α → α} {d e : JsonDict} {key : String} {group : Option α}
    (each : ∀ x a, reads x a → reads (write a) (settle a)) (read : ReadsGroup reads d key group)
    (found : e.get? key = group.map (.dict ∘ write)) :
    ReadsGroup reads e key (group.map settle) := by
  rw [ReadsGroup] at read ⊢
  rw [found]
  generalize d.get? key = value at read
  cases read with
  | none => exact .none
  | some inside =>
    obtain ⟨x, -, inside⟩ := inside
    exact .some ⟨_, rfl, each x _ inside⟩

theorem ReadsImpairment.json {impairment : JsonDict} {i : Impairment Decimal}
    (reads : ReadsImpairment impairment i) :
    ReadsImpairment (i.map jsonNumber).toDict (i.map Decimal.settled) where
  keys := by
    rw [Impairment.toDict]
    iterate 7 refine keys_append ?_ (keys_item _ (by decide))
    exact keys_item _ (by decide)
  delay := readsGroup_json (fun _ _ => ReadsDelay.json) reads.delay
    (by simp [Impairment.toDict, Impairment.map, get?_append, Function.comp_def])
  loss := readsGroup_json (fun _ _ => ReadsLoss.json) reads.loss
    (by simp [Impairment.toDict, Impairment.map, get?_append, Function.comp_def])
  reorder := readsGroup_json (fun _ _ => ReadsReorder.json) reads.reorder
    (by simp [Impairment.toDict, Impairment.map, get?_append, Function.comp_def])
  delayed := by simpa [Impairment.map] using reads.delayed
  duplicate := readsGroup_json (fun _ _ => ReadsEffect.json) reads.duplicate
    (by simp [Impairment.toDict, Impairment.map, get?_append, Function.comp_def])
  corrupt := readsGroup_json (fun _ _ => ReadsEffect.json) reads.corrupt
    (by simp [Impairment.toDict, Impairment.map, get?_append, Function.comp_def])
  queuePackets := by simp [Impairment.toDict, Impairment.map, get?_append]
  queueBound := by simpa [Impairment.map, Impairment.emulates] using reads.queueBound
  rate := by
    have same : ∀ rate : Option Rate, rate.map id = rate := fun rate => congrFun Option.map_id rate
    rw [← same (i.map Decimal.settled).rate]
    exact readsGroup_json (fun _ _ => ReadsRate.json) reads.rate
      (by simp [Impairment.toDict, Impairment.map, get?_append])
  mtu := by simp [Impairment.toDict, Impairment.map, get?_append]
  mtuBound := reads.mtuBound

end json

section numbers
variable {α : Type}

def Delay.numbers (d : Delay α) : List α :=
  d.milliseconds :: (d.jitter.toList ++ d.correlation.toList)

def Loss.numbers : Loss α → List α
  | .random percent correlation => percent :: correlation.toList
  | .gemodel start recovery bad good => [start, recovery, bad, good]

def Effect.numbers (e : Effect α) : List α := e.percent :: e.correlation.toList

def Reorder.numbers (r : Reorder α) : List α := r.percent :: r.correlation.toList

/-- The percentages and delays of one direction. -/
def Impairment.numbers (i : Impairment α) : List α :=
  i.delay.toList.flatMap Delay.numbers ++ i.loss.toList.flatMap Loss.numbers ++
    i.reorder.toList.flatMap Reorder.numbers ++ i.duplicate.toList.flatMap Effect.numbers ++
      i.corrupt.toList.flatMap Effect.numbers

end numbers

theorem zero_normal : 0 % 10 ≠ 0 ∨ 0 = 0 ∧ (0 : Int) = 0 := .inr ⟨rfl, rfl⟩

def negativeZero : JsonValue := .float (.finite ⟨true, 0, 0, zero_normal⟩)

theorem ofText_negativeZero {x : Shortest} :
    (Decimal.ofText x.repr).IsNegativeZero ↔ x = ⟨true, 0, 0, .inr ⟨rfl, rfl⟩⟩ := by
  rw [Shortest.ofText_repr, Decimal.IsNegativeZero]
  obtain ⟨negative, digits, exponent, normal⟩ := x
  have same : (Shortest.mk negative digits exponent normal =
      ⟨true, 0, 0, .inr ⟨rfl, rfl⟩⟩) ↔ negative = true ∧ digits = 0 := by
    rw [Shortest.mk.injEq]
    constructor
    · rintro ⟨negative, zero, -⟩
      exact ⟨negative, zero⟩
    · rintro ⟨negative, zero⟩
      rcases normal with normal | ⟨-, none_⟩
      · exact absurd (by rw [zero]) normal
      · exact ⟨negative, zero, none_⟩
  rw [same]
  split <;> simp

theorem Reads.zero {maximum : Nat} {value : JsonValue} {d : Decimal}
    (reads : Reads maximum value d) : d.IsNegativeZero ↔ value = negativeZero := by
  obtain ⟨-, -, ⟨n, -, rfl, rfl⟩ | ⟨x, rfl, rfl⟩⟩ := reads
  · simp only [Decimal.IsNegativeZero, Decimal.ofInt, negativeZero, reduceCtorEq, iff_false]
    rintro ⟨below, zero⟩
    have := of_decide_eq_true below
    omega
  · rw [ofText_negativeZero, negativeZero, JsonValue.float.injEq, PyFloat.finite.injEq]

end Sippycup.Chaos
