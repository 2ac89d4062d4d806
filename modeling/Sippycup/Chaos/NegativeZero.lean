import Sippycup.Chaos.Compile
import Sippycup.Chaos.Normalized
import Sippycup.Python.JsonText

/-! The one number that a compiled plan does not hold: JSON settings turn a
negative zero into an integer, which is rendered without its sign. -/
namespace Sippycup.Chaos
open Sippycup.Python Sippycup.Ip

/-- The dict holds the number. -/
def Holds (d : JsonDict) (value : JsonValue) : Prop := ∃ key, d.get? key = some value

theorem holds_iff {d : JsonDict} {value : JsonValue} {allowed : List Text}
    (keys : ∀ k ∈ d.keys, k ∈ allowed) :
    Holds d value ↔ ∃ key ∈ allowed, d.get? key = some value := by
  constructor
  · rintro ⟨key, found⟩
    exact ⟨key, keys key (JsonDict.mem_keys_of_get? found), found⟩
  · rintro ⟨key, -, found⟩
    exact ⟨key, found⟩

section zero
variable {maximum : Nat} {d : JsonDict} {key : String}

theorem ReadsAt.zero {number : Decimal} (reads : ReadsAt maximum d key number) :
    d.get? key = some negativeZero ↔ number.IsNegativeZero := by
  obtain ⟨value, found, reads⟩ := reads
  rw [found, Option.some.injEq, reads.zero]

theorem ReadsOptional.zero {number : Option Decimal} (reads : ReadsOptional maximum d key number) :
    d.get? key = some negativeZero ↔ ∃ n ∈ number, n.IsNegativeZero := by
  rw [ReadsOptional] at reads
  generalize d.get? key = value at reads
  cases reads with
  | none => simp
  | some reads => simp [reads.zero]

theorem text_ne_zero {d : JsonDict} {key : Text} {text : Option Text}
    (found : d.get? key = text.map .str) : d.get? key ≠ some negativeZero := by
  rw [found]
  cases text <;> simp [negativeZero]

theorem int_ne_zero {d : JsonDict} {key : Text} {n : Option Int}
    (found : d.get? key = n.map .int) : d.get? key ≠ some negativeZero := by
  rw [found]
  cases n <;> simp [negativeZero]

end zero

theorem ReadsDelay.zero {delay : JsonDict} {d : Delay Decimal} (reads : ReadsDelay delay d) :
    Holds delay negativeZero ↔ ∃ n ∈ d.numbers, n.IsNegativeZero := by
  rw [holds_iff reads.keys]
  simp [delayKeys, Delay.numbers, reads.milliseconds.zero, reads.jitter.zero,
    reads.correlation.zero, text_ne_zero reads.distribution, or_and_right, exists_or]

theorem ReadsLoss.zero {loss : JsonDict} {l : Loss Decimal} (reads : ReadsLoss loss l) :
    Holds loss negativeZero ↔ ∃ n ∈ l.numbers, n.IsNegativeZero := by
  cases l with
  | random percent correlation =>
    have reads : ReadsRandom loss percent correlation := reads
    have model : loss.get? "model" ≠ some negativeZero := by
      rw [reads.model]
      simp [str, negativeZero]
    rw [holds_iff reads.keys]
    simp [randomKeys, Loss.numbers, model, reads.percent.zero, reads.correlation.zero]
  | gemodel start recovery bad good =>
    have reads : ReadsGemodel loss start recovery bad good := reads
    have model : loss.get? "model" ≠ some negativeZero := by
      rw [reads.model]
      simp [str, negativeZero]
    rw [holds_iff reads.keys]
    simp [gemodelKeys, Loss.numbers, model, reads.start.zero, reads.recovery.zero,
      reads.bad.zero, reads.good.zero]

theorem ReadsEffect.zero {effect : JsonDict} {e : Effect Decimal} (reads : ReadsEffect effect e) :
    Holds effect negativeZero ↔ ∃ n ∈ e.numbers, n.IsNegativeZero := by
  rw [holds_iff reads.keys]
  simp [Effect.numbers, reads.percent.zero, reads.correlation.zero]

theorem ReadsReorder.zero {reorder : JsonDict} {r : Reorder Decimal}
    (reads : ReadsReorder reorder r) :
    Holds reorder negativeZero ↔ ∃ n ∈ r.numbers, n.IsNegativeZero := by
  rw [holds_iff reads.keys]
  simp [Reorder.numbers, reads.percent.zero, reads.correlation.zero, int_ne_zero reads.gap]

theorem ReadsRate.zero {rate : JsonDict} {r : Rate} (reads : ReadsRate rate r) :
    ¬ Holds rate negativeZero := by
  obtain ⟨kbit, burstBytes, bound⟩ := r
  have bounds := reads.bound
  rw [holds_iff reads.keys]
  cases bound with
  | latencyMilliseconds n =>
    obtain ⟨latency, limit, -⟩ := bounds
    simp [rateKeys, reads.kbit, reads.burstBytes, latency, limit, negativeZero]
  | limitBytes n =>
    obtain ⟨latency, limit, -⟩ := bounds
    simp [rateKeys, reads.kbit, reads.burstBytes, latency, limit, negativeZero]

/-- A group of the settings holds the number. -/
def GroupHolds (d : JsonDict) (key : Text) (value : JsonValue) : Prop :=
  ∃ e, d.get? key = some (.dict e) ∧ Holds e value

theorem ReadsGroup.zero {α : Type} {reads : JsonDict → α → Prop} {numbers : α → List Decimal}
    {d : JsonDict} {key : String} {group : Option α} (read : ReadsGroup reads d key group)
    (each : ∀ e a, reads e a → (Holds e negativeZero ↔ ∃ n ∈ numbers a, n.IsNegativeZero)) :
    GroupHolds d key negativeZero ↔ ∃ n ∈ group.toList.flatMap numbers, n.IsNegativeZero := by
  rw [ReadsGroup] at read
  rw [GroupHolds]
  generalize d.get? key = value at read
  cases read with
  | none => simp
  | some inside =>
    obtain ⟨e, rfl, inside⟩ := inside
    simp [each e _ inside]

theorem ReadsImpairment.zero {impairment : JsonDict} {i : Impairment Decimal}
    (reads : ReadsImpairment impairment i) :
    (∃ group, GroupHolds impairment group negativeZero) ↔ ∃ n ∈ i.numbers, n.IsNegativeZero := by
  have known : (∃ group, GroupHolds impairment group negativeZero) ↔
      ∃ group ∈ impairmentKeys, GroupHolds impairment group negativeZero := by
    constructor
    · rintro ⟨group, e, found, held⟩
      exact ⟨group, reads.keys group (JsonDict.mem_keys_of_get? found), e, found, held⟩
    · rintro ⟨group, -, held⟩
      exact ⟨group, held⟩
  have queue : ¬ GroupHolds impairment "queuePackets" negativeZero := by
    rintro ⟨e, found, -⟩
    rw [reads.queuePackets] at found
    cases packets : i.queuePackets <;> simp [packets] at found
  have mtu : ¬ GroupHolds impairment "mtu" negativeZero := by
    rintro ⟨e, found, -⟩
    rw [reads.mtu] at found
    cases unit : i.mtu <;> simp [unit] at found
  have rate : ¬ GroupHolds impairment "rate" negativeZero := by
    rintro ⟨e, found, held⟩
    have read := reads.rate
    rw [ReadsGroup, found] at read
    generalize i.rate = rate at read
    cases read with
    | some inside =>
      obtain ⟨x, same, inside⟩ := inside
      obtain rfl := JsonValue.dict.inj same
      exact inside.zero held
  rw [known]
  simp only [impairmentKeys, List.mem_cons, List.not_mem_nil, or_false, exists_eq_left,
    or_assoc, Impairment.numbers, List.mem_append, or_and_right, exists_or,
    reads.delay.zero fun _ _ => ReadsDelay.zero, reads.loss.zero fun _ _ => ReadsLoss.zero,
    reads.reorder.zero fun _ _ => ReadsReorder.zero,
    reads.duplicate.zero fun _ _ => ReadsEffect.zero,
    reads.corrupt.zero fun _ _ => ReadsEffect.zero, queue, mtu, rate]

section map
variable {α β γ : Type}

theorem Delay.map_map (f : α → β) (g : β → γ) (d : Delay α) : (d.map f).map g = d.map (g ∘ f) := by
  simp [Delay.map]

theorem Loss.map_map (f : α → β) (g : β → γ) (l : Loss α) : (l.map f).map g = l.map (g ∘ f) := by
  cases l <;> simp [Loss.map]

theorem Effect.map_map (f : α → β) (g : β → γ) (e : Effect α) : (e.map f).map g = e.map (g ∘ f) := by
  simp [Effect.map]

theorem Reorder.map_map (f : α → β) (g : β → γ) (r : Reorder α) :
    (r.map f).map g = r.map (g ∘ f) := by
  simp [Reorder.map]

theorem Impairment.map_map (f : α → β) (g : β → γ) (i : Impairment α) :
    (i.map f).map g = i.map (g ∘ f) := by
  simp [Impairment.map, Function.comp_def, Delay.map_map, Loss.map_map, Effect.map_map,
    Reorder.map_map]

theorem Delay.map_congr {f g : α → β} {d : Delay α} (same : ∀ n ∈ d.numbers, f n = g n) :
    d.map f = d.map g := by
  obtain ⟨milliseconds, jitter, correlation, distribution⟩ := d
  cases jitter <;> cases correlation <;> simp_all [Delay.map, Delay.numbers]

theorem Loss.map_congr {f g : α → β} {l : Loss α} (same : ∀ n ∈ l.numbers, f n = g n) :
    l.map f = l.map g := by
  cases l with
  | random percent correlation => cases correlation <;> simp_all [Loss.map, Loss.numbers]
  | gemodel start recovery bad good => simp_all [Loss.map, Loss.numbers]

theorem Effect.map_congr {f g : α → β} {e : Effect α} (same : ∀ n ∈ e.numbers, f n = g n) :
    e.map f = e.map g := by
  obtain ⟨percent, correlation⟩ := e
  cases correlation <;> simp_all [Effect.map, Effect.numbers]

theorem Reorder.map_congr {f g : α → β} {r : Reorder α} (same : ∀ n ∈ r.numbers, f n = g n) :
    r.map f = r.map g := by
  obtain ⟨percent, correlation, gap⟩ := r
  cases correlation <;> simp_all [Reorder.map, Reorder.numbers]

theorem option_map_congr {δ : Type} {numbers : δ → List α} {f g : δ → γ} {value : Option δ}
    {P : α → Prop} (each : ∀ x, (∀ n ∈ numbers x, P n) → f x = g x)
    (holds : ∀ n ∈ value.toList.flatMap numbers, P n) : value.map f = value.map g := by
  cases value with
  | none => rfl
  | some x => exact congrArg some (each x (by simpa using holds))

theorem Impairment.map_congr {f g : α → β} {i : Impairment α} (same : ∀ n ∈ i.numbers, f n = g n) :
    i.map f = i.map g := by
  simp only [Impairment.numbers, List.mem_append, or_imp, forall_and] at same
  obtain ⟨⟨⟨⟨delay, loss⟩, reorder⟩, duplicate⟩, corrupt⟩ := same
  simp only [Impairment.map, Impairment.mk.injEq, and_true]
  exact ⟨option_map_congr (fun _ => Delay.map_congr) delay,
    option_map_congr (fun _ => Loss.map_congr) loss,
    option_map_congr (fun _ => Reorder.map_congr) reorder,
    option_map_congr (fun _ => Effect.map_congr) duplicate,
    option_map_congr (fun _ => Effect.map_congr) corrupt⟩

end map

section arguments
variable {κ : Type} {h : Text → κ} {f g : Decimal → Text}

/-- Both renderings of the number show as the same under `h`, in one of its two units. -/
def Shown (h : Text → κ) (f g : Decimal → Text) (n : Decimal) : Prop :=
  h (percentText (f n)) = h (percentText (g n)) ∨
    h (millisecondsText (f n)) = h (millisecondsText (g n))

theorem delayArgs_shown {d : Delay Decimal} (alone : d.jitter = none → d.correlation = none)
    (same : (delayArgs (d.map f)).map h = (delayArgs (d.map g)).map h) :
    ∀ n ∈ d.numbers, Shown h f g n := by
  obtain ⟨milliseconds, jitter, correlation, distribution⟩ := d
  cases jitter with
  | none =>
    obtain rfl : correlation = none := alone rfl
    simp_all [delayArgs, Delay.map, Delay.numbers, Shown]
  | some j => cases correlation <;> simp_all [delayArgs, Delay.map, Delay.numbers, Shown, percentArgs]

theorem lossArgs_shown {l : Loss Decimal}
    (same : (lossArgs (l.map f)).map h = (lossArgs (l.map g)).map h) :
    ∀ n ∈ l.numbers, Shown h f g n := by
  cases l with
  | random percent correlation =>
    cases correlation <;> simp_all [lossArgs, Loss.map, Loss.numbers, Shown, percentArgs]
  | gemodel start recovery bad good => simp_all [lossArgs, Loss.map, Loss.numbers, Shown]

theorem effectArgs_shown {name : String} {e : Effect Decimal}
    (same : (effectArgs name (e.map f)).map h = (effectArgs name (e.map g)).map h) :
    ∀ n ∈ e.numbers, Shown h f g n := by
  obtain ⟨percent, correlation⟩ := e
  cases correlation <;> simp_all [effectArgs, Effect.map, Effect.numbers, Shown, percentArgs]

theorem reorderArgs_shown {r : Reorder Decimal}
    (same : (reorderArgs (r.map f)).map h = (reorderArgs (r.map g)).map h) :
    ∀ n ∈ r.numbers, Shown h f g n := by
  obtain ⟨percent, correlation, gap⟩ := r
  cases correlation <;> simp_all [reorderArgs, Reorder.map, Reorder.numbers, Shown, percentArgs]

theorem argsOf_shown {α β : Type} {render : β → List Text} {left right : α → β}
    {numbers : α → List Decimal} {value : Option α}
    (each : ∀ a ∈ value, (render (left a)).map h = (render (right a)).map h →
      ∀ n ∈ numbers a, Shown h f g n)
    (same : (argsOf render (value.map left)).map h = (argsOf render (value.map right)).map h) :
    ∀ n ∈ value.toList.flatMap numbers, Shown h f g n := by
  cases value with
  | none => simp
  | some a => simpa using each a rfl same

theorem argsOf_length {α β : Type} {render : β → List Text} {left right : α → β} {value : Option α}
    (each : ∀ a, (render (left a)).length = (render (right a)).length) :
    (argsOf render (value.map left)).length = (argsOf render (value.map right)).length := by
  cases value with
  | none => rfl
  | some a => exact each a

theorem length_delayArgs (d : Delay Decimal) :
    (delayArgs (d.map f)).length = (delayArgs (d.map g)).length := by
  obtain ⟨milliseconds, jitter, correlation, distribution⟩ := d
  cases jitter <;> cases correlation <;> simp [delayArgs, Delay.map, percentArgs]

theorem length_lossArgs (l : Loss Decimal) :
    (lossArgs (l.map f)).length = (lossArgs (l.map g)).length := by
  cases l with
  | random percent correlation => cases correlation <;> simp [lossArgs, Loss.map, percentArgs]
  | gemodel start recovery bad good => rfl

theorem length_effectArgs (name : String) (e : Effect Decimal) :
    (effectArgs name (e.map f)).length = (effectArgs name (e.map g)).length := by
  obtain ⟨percent, correlation⟩ := e
  cases correlation <;> simp [effectArgs, Effect.map, percentArgs]

theorem length_reorderArgs (r : Reorder Decimal) :
    (reorderArgs (r.map f)).length = (reorderArgs (r.map g)).length := by
  obtain ⟨percent, correlation, gap⟩ := r
  cases correlation <;> simp [reorderArgs, Reorder.map, percentArgs]

theorem length_settingArgs (i : Impairment Decimal) (f g : Decimal → Text) :
    (settingArgs (i.map f)).length = (settingArgs (i.map g)).length := by
  simp only [settingArgs, Impairment.map, List.length_append]
  rw [argsOf_length length_delayArgs, argsOf_length length_lossArgs,
    argsOf_length (length_effectArgs "corrupt"), argsOf_length (length_effectArgs "duplicate"),
    argsOf_length length_reorderArgs]

/-- Arguments that agree under `h` agree number by number. -/
theorem settingArgs_shown {i : Impairment Decimal}
    (alone : ∀ d ∈ i.delay, d.jitter = none → d.correlation = none)
    (same : (settingArgs (i.map f)).map h = (settingArgs (i.map g)).map h) :
    ∀ n ∈ i.numbers, Shown h f g n := by
  simp only [settingArgs, Impairment.map, List.map_append] at same
  have reorder := List.append_inj_right' same
    (by rw [List.length_map, List.length_map, argsOf_length length_reorderArgs])
  replace same := List.append_inj_left' same
    (by rw [List.length_map, List.length_map, argsOf_length length_reorderArgs])
  have duplicate := List.append_inj_right' same
    (by rw [List.length_map, List.length_map, argsOf_length (length_effectArgs "duplicate")])
  replace same := List.append_inj_left' same
    (by rw [List.length_map, List.length_map, argsOf_length (length_effectArgs "duplicate")])
  have corrupt := List.append_inj_right' same
    (by rw [List.length_map, List.length_map, argsOf_length (length_effectArgs "corrupt")])
  replace same := List.append_inj_left' same
    (by rw [List.length_map, List.length_map, argsOf_length (length_effectArgs "corrupt")])
  have loss := List.append_inj_right' same
    (by rw [List.length_map, List.length_map, argsOf_length length_lossArgs])
  replace same := List.append_inj_left' same
    (by rw [List.length_map, List.length_map, argsOf_length length_lossArgs])
  have delay := List.append_inj_right' same
    (by rw [List.length_map, List.length_map, argsOf_length length_delayArgs])
  intro n member
  simp only [Impairment.numbers, List.mem_append] at member
  rcases member with (((member | member) | member) | member) | member
  · exact argsOf_shown (fun d inside => delayArgs_shown (alone d inside)) delay n member
  · exact argsOf_shown (fun _ _ => lossArgs_shown) loss n member
  · exact argsOf_shown (fun _ _ => reorderArgs_shown) reorder n member
  · exact argsOf_shown (fun _ _ => effectArgs_shown) duplicate n member
  · exact argsOf_shown (fun _ _ => effectArgs_shown) corrupt n member

end arguments

section sound
variable {maximum : Nat} {d : JsonDict} {key : String}

/-- What rendering needs to know of a number that was read. -/
def Sound (n : Decimal) : Prop := n.OfNumber ∧ 0 ≤ n.value

theorem ReadsAt.sound {number : Decimal} (reads : ReadsAt maximum d key number) : Sound number := by
  obtain ⟨value, -, reads⟩ := reads
  exact ⟨reads.ofNumber, reads.low⟩

theorem ReadsOptional.sound {number : Option Decimal} (reads : ReadsOptional maximum d key number) :
    ∀ n ∈ number, Sound n := by
  rw [ReadsOptional] at reads
  generalize d.get? key = value at reads
  cases reads with
  | none => rintro n ⟨⟩
  | some reads =>
    rintro n ⟨⟩
    exact ⟨reads.ofNumber, reads.low⟩

theorem ReadsDelay.sound {delay : JsonDict} {d : Delay Decimal} (reads : ReadsDelay delay d) :
    ∀ n ∈ d.numbers, Sound n := by
  simp only [Delay.numbers, List.forall_mem_cons, List.forall_mem_append, Option.mem_toList]
  exact ⟨reads.milliseconds.sound, reads.jitter.sound, reads.correlation.sound⟩

theorem ReadsLoss.sound {loss : JsonDict} {l : Loss Decimal} (reads : ReadsLoss loss l) :
    ∀ n ∈ l.numbers, Sound n := by
  cases l with
  | random percent correlation =>
    have reads : ReadsRandom loss percent correlation := reads
    simp only [Loss.numbers, List.mem_cons, Option.mem_toList, forall_eq_or_imp]
    exact ⟨reads.percent.sound, reads.correlation.sound⟩
  | gemodel start recovery bad good =>
    have reads : ReadsGemodel loss start recovery bad good := reads
    simp only [Loss.numbers, List.forall_mem_cons]
    exact ⟨reads.start.sound, reads.recovery.sound, reads.bad.sound, reads.good.sound,
      fun n absent => nomatch absent⟩

theorem ReadsEffect.sound {effect : JsonDict} {e : Effect Decimal} (reads : ReadsEffect effect e) :
    ∀ n ∈ e.numbers, Sound n := by
  simp only [Effect.numbers, List.mem_cons, Option.mem_toList, forall_eq_or_imp]
  exact ⟨reads.percent.sound, reads.correlation.sound⟩

theorem ReadsReorder.sound {reorder : JsonDict} {r : Reorder Decimal}
    (reads : ReadsReorder reorder r) : ∀ n ∈ r.numbers, Sound n := by
  simp only [Reorder.numbers, List.mem_cons, Option.mem_toList, forall_eq_or_imp]
  exact ⟨reads.percent.sound, reads.correlation.sound⟩

theorem ReadsGroup.sound {α : Type} {reads : JsonDict → α → Prop} {numbers : α → List Decimal}
    {group : Option α} (read : ReadsGroup reads d key group)
    (each : ∀ e a, reads e a → ∀ n ∈ numbers a, Sound n) :
    ∀ n ∈ group.toList.flatMap numbers, Sound n := by
  rw [ReadsGroup] at read
  generalize d.get? key = value at read
  cases read with
  | none => simp
  | some inside =>
    obtain ⟨e, -, inside⟩ := inside
    simpa using each e _ inside

theorem ReadsImpairment.sound {impairment : JsonDict} {i : Impairment Decimal}
    (reads : ReadsImpairment impairment i) : ∀ n ∈ i.numbers, Sound n := by
  simp only [Impairment.numbers, List.mem_append, or_imp, forall_and]
  exact ⟨⟨⟨⟨reads.delay.sound fun _ _ => ReadsDelay.sound,
    reads.loss.sound fun _ _ => ReadsLoss.sound⟩,
    reads.reorder.sound fun _ _ => ReadsReorder.sound⟩,
    reads.duplicate.sound fun _ _ => ReadsEffect.sound⟩,
    reads.corrupt.sound fun _ _ => ReadsEffect.sound⟩

end sound

theorem jsonNumber_settled (d : Decimal) : jsonNumber d.settled = jsonNumber d := by
  by_cases integral : d.isIntegral = true
  · rw [Decimal.settled, if_pos integral, jsonNumber, jsonNumber,
      if_pos (Decimal.ofInt_integral d.toInt), if_pos integral, Decimal.toInt_ofInt]
  · rw [Decimal.settled, if_neg integral]

theorem json_settled (i : Impairment Decimal) : (i.map Decimal.settled).json = i.json := by
  rw [Impairment.json, Impairment.json, Impairment.map_map]
  have same : jsonNumber ∘ Decimal.settled = jsonNumber := funext jsonNumber_settled
  rw [same]

theorem values_settled (i : Impairment Decimal) :
    (i.map Decimal.settled).map Decimal.value = i.map Decimal.value := by
  have same : Decimal.value ∘ Decimal.settled = Decimal.value := funext Decimal.value_settled
  rw [Impairment.map_map, same]

theorem negativeZero_eq {n : Decimal} (number : n.OfNumber) (zero : n.IsNegativeZero) :
    n = ⟨true, 0, -1⟩ := by
  obtain ⟨negative, none_⟩ := zero
  cases number with
  | int m =>
    simp only [Decimal.ofInt, decide_eq_true_eq, Int.natAbs_eq_zero] at negative none_
    omega
  | padded sign m => simp_all
  | whole sign m e positive => simp_all
  | fraction sign m e normal => simp_all

theorem negativeZero_not_shown :
    ¬ Shown Text.units (renderNumber ∘ Decimal.settled) renderNumber ⟨true, 0, -1⟩ := by
  rw [Shown]
  decide +kernel

theorem ReadsImpairment.alone {impairment : JsonDict} {i : Impairment Decimal}
    (reads : ReadsImpairment impairment i) : ∀ d ∈ i.delay, d.jitter = none → d.correlation = none := by
  intro d present none_
  have read := reads.delay
  rw [ReadsGroup, Option.mem_def.mp present] at read
  generalize impairment.get? "delay" = value at read
  cases read with
  | some inside =>
    obtain ⟨e, -, inside⟩ := inside
    exact (inside.alone none_).1

/-- Without a negative zero the settled numbers are rendered like the numbers. -/
theorem rendered_settled {impairment : JsonDict} {i : Impairment Decimal}
    (reads : ReadsImpairment impairment i) (plain : ∀ n ∈ i.numbers, ¬ n.IsNegativeZero) :
    (i.map Decimal.settled).map renderNumber = i.map renderNumber := by
  rw [Impairment.map_map]
  apply Impairment.map_congr
  intro n member
  obtain ⟨number, low⟩ := reads.sound n member
  exact congrArg Text.mk ((Decimal.renderNumber_settled number low).mpr (plain n member))

/-- With one they are not, and the arguments tell. -/
theorem settingArgs_settled_iff {impairment : JsonDict} {i : Impairment Decimal}
    (reads : ReadsImpairment impairment i) :
    (settingArgs ((i.map Decimal.settled).map renderNumber)).map Text.units =
        (settingArgs (i.map renderNumber)).map Text.units ↔
      ∀ n ∈ i.numbers, ¬ n.IsNegativeZero := by
  constructor
  · intro same n member zero
    rw [Impairment.map_map] at same
    have shown := settingArgs_shown reads.alone same n member
    rw [negativeZero_eq (reads.sound n member).1 zero] at shown
    exact negativeZero_not_shown shown
  · intro plain
    rw [rendered_settled reads plain]

end Sippycup.Chaos
