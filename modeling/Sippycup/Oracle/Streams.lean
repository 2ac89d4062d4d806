import Mathlib.Tactic.Positivity
import Sippycup.Oracle.Media

/-! RTP streams and the assertion about their sequence. The counts of a stream balance; its jumps do
not depend on where the timestamps start, but its jitter does; and it is given out as whole when the
packets after one without its time were never looked at. -/
namespace Sippycup.Oracle
open Python

structure MediaFlowKey where
  sourceAddress : Text
  sourcePort : Int
  destinationAddress : Text
  destinationPort : Int
  transport : Transport
  ssrc : Option Nat
  deriving DecidableEq

/-- A stream with the metrics of its packets. -/
structure RtpStream (dialog : DialogRecord) (toleranceMs : Rat) where
  key : MediaFlowKey
  frames : List MediaFrame
  encrypted : Bool
  metrics : SequenceMetrics
  measured : streamMetrics dialog toleranceMs frames = .ok metrics

inductive Verdict
  | pass
  | fail
  | unknown
  deriving DecidableEq

structure AssertionResult where
  verdict : Verdict
  message : String
  evidence : List EvidenceRef
  observed : Value (List SequenceMetrics)

/-- The expectations that the metrics and the sequence assertion read. -/
structure MediaExpectations where
  maxLossFraction : Rat := 0
  maxDuplicates : Int := 0
  maxReordered : Int := 0
  timestampJumpToleranceMs : Rat := 200

/-- `_fallback_evidence` -/
def fallbackEvidence (dialog : DialogRecord) : Except Builtin (List EvidenceRef) :=
  match dialog.transitions, dialog.sdpRevisions with
  | transition :: _, _ => .ok [transition.evidence]
  | [], revision :: _ => .ok [revision.revision.evidence]
  | [], [] => .error .valueError

section assertion

/-- A loss, a count or a jump beyond what is expected. The counts are known together. -/
def SequenceMetrics.exceeds (expectations : MediaExpectations) (metrics : SequenceMetrics) : Bool :=
  match metrics.lost, metrics.expected, metrics.duplicates, metrics.reordered, metrics.timestampJumps with
  | .known lost, .known expected, .known duplicates, .known reordered, .known jumps =>
    decide (expectations.maxLossFraction < lost / max expected 1) || decide (expectations.maxDuplicates < duplicates) ||
      decide (expectations.maxReordered < reordered) || decide (0 < jumps)
  | _, _, _, _, _ => false

variable {dialog : DialogRecord} {toleranceMs : Rat}

def RtpStream.counted (stream : RtpStream dialog toleranceMs) : Bool := stream.metrics.lost.known?.isSome

/-- The `media.sequence` assertion of `evaluate_invariants`. -/
def mediaSequence (expectations : MediaExpectations) (fallback : List EvidenceRef)
    (streams : List (RtpStream dialog toleranceMs)) : AssertionResult :=
  let failures := streams.filter fun stream => stream.metrics.exceeds expectations
  let evidence := failures.filterMap fun stream => stream.frames.head?.map fun frame => frame.evidence
  let whole := streams.all RtpStream.counted && !streams.isEmpty
  { verdict := if !failures.isEmpty then .fail else if !whole then .unknown else .pass
    message :=
      if !failures.isEmpty then "loss, duplication, reordering, or timestamp jump exceeded limits"
      else if !whole then "sequence metrics unavailable for encrypted/incomplete media"
      else "sequence and timestamp continuity are within limits"
    evidence := if evidence.isEmpty then fallback else evidence
    observed :=
      if whole then .known (streams.map RtpStream.metrics)
      else .unknown (if streams.any RtpStream.encrypted then .unsupportedEncryption else .missingField) "sequence metrics" }

end assertion

section metrics
variable {dialog : DialogRecord} {toleranceMs : Rat} {frames : List MediaFrame}

variable (dialog toleranceMs) in
theorem streamMetrics_available (available : Available frames) (nonempty : frames ≠ []) :
    ∃ first ∈ frames, streamMetrics dialog toleranceMs frames = .ok
      { received := frames.length
        unique := .known (sequenceMetrics ((frames.filterMap MediaFrame.sequence?).map Fin.val)).unique
        expected := .known (sequenceMetrics ((frames.filterMap MediaFrame.sequence?).map Fin.val)).expected
        lost := .known (sequenceMetrics ((frames.filterMap MediaFrame.sequence?).map Fin.val)).lost
        duplicates := .known (sequenceMetrics ((frames.filterMap MediaFrame.sequence?).map Fin.val)).duplicates
        reordered := .known (sequenceMetrics ((frames.filterMap MediaFrame.sequence?).map Fin.val)).reordered
        jitterMs := jitterMs (Timing.start.follow dialog toleranceMs frames).jitter (clockRate dialog first)
        timestampJumps := .known (Timing.start.follow dialog toleranceMs frames).jumps } := by
  obtain ⟨first, rest, rfl⟩ := List.exists_cons_of_ne_nil nonempty
  refine ⟨first, List.mem_cons_self, ?_⟩
  unfold streamMetrics
  exact if_pos available

theorem streamMetrics_unavailable (hidden : ¬ Available frames) : streamMetrics dialog toleranceMs frames =
    .ok (unavailableMetrics frames.length (frames.any MediaFrame.encrypted)) := by
  unfold streamMetrics
  exact if_neg hidden

theorem length_sequences (available : Available frames) :
    (frames.filterMap MediaFrame.sequence?).length = frames.length :=
  List.filterMap_length_eq_length.mpr available.2

/-- The counts of a stream belong together, whatever the order and repetition of its packets. -/
structure SequenceMetrics.Balance (metrics : SequenceMetrics) (frames : List MediaFrame) : Prop where
  received : metrics.received = frames.length
  counted : ∃ unique expected lost duplicates reordered : Nat,
    metrics.unique = .known unique ∧ metrics.expected = .known expected ∧ metrics.lost = .known lost ∧
    metrics.duplicates = .known duplicates ∧ metrics.reordered = .known reordered ∧
    metrics.received = unique + duplicates ∧ (lost : Int) = expected - unique ∧
    1 ≤ unique ∧ unique ≤ expected ∧ (reordered : Int) ≤ unique - 1

theorem metrics_balance (dialog : DialogRecord) (toleranceMs : Rat) (frames : List MediaFrame)
    (available : Available frames) (nonempty : frames ≠ []) :
    ∃ metrics, streamMetrics dialog toleranceMs frames = .ok metrics ∧ metrics.Balance frames := by
  obtain ⟨first, -, measured⟩ := streamMetrics_available dialog toleranceMs available nonempty
  have long := length_sequences available
  have some : (frames.filterMap MediaFrame.sequence?).map Fin.val ≠ [] := by
    rw [← List.length_pos_iff, List.length_map, long]
    exact List.length_pos_iff.mpr nonempty
  have balance := sequenceMetrics_balance some
  rw [List.length_map, long] at balance
  obtain ⟨received, expected, unique, reordered⟩ := balance
  refine ⟨_, measured, rfl, _, _, _, _, _, rfl, rfl, rfl, rfl, rfl, received, ?_, unique, ?_, ?_⟩ <;> omega

theorem wrapped_metrics_balance :
    Available [.packet (.known 2) "10.0.0.1" "10.0.0.2" 65535 (.known 0), .packet (.known 3) "10.0.0.1" "10.0.0.2" 0 (.known 0)] ∧
    ∃ metrics, streamMetrics (.negotiated "10.0.0.1" "10.0.0.2") 200
      [.packet (.known 2) "10.0.0.1" "10.0.0.2" 65535 (.known 0), .packet (.known 3) "10.0.0.1" "10.0.0.2" 0 (.known 0)] =
        .ok metrics ∧ metrics.Balance
      [.packet (.known 2) "10.0.0.1" "10.0.0.2" 65535 (.known 0), .packet (.known 3) "10.0.0.1" "10.0.0.2" 0 (.known 0)] := by
  refine ⟨by decide, ?_⟩
  exact metrics_balance _ _ _ (by decide) (List.cons_ne_nil _ _)

end metrics

section examined
variable {dialog : DialogRecord} {toleranceMs : Rat}

/-- Every packet has its arrival, its timestamp and a clock rate. -/
def Examined (dialog : DialogRecord) (frames : List MediaFrame) : Prop :=
  ∀ frame ∈ frames, (frame.sample? dialog).isSome = true

instance (dialog : DialogRecord) (frames : List MediaFrame) : Decidable (Examined dialog frames) :=
  inferInstanceAs (Decidable (∀ frame ∈ frames, _))

/-- The jumps are given only for streams whose packets were all examined, and the assertion passes only
over such streams. -/
structure FailClosed (expectations : MediaExpectations) (fallback : List EvidenceRef)
    (streams : List (RtpStream dialog toleranceMs)) : Prop where
  jumps : ∀ stream ∈ streams, ∀ count, stream.metrics.timestampJumps = .known count → Examined dialog stream.frames
  passed : (mediaSequence expectations fallback streams).verdict = .pass →
    ∀ stream ∈ streams, Examined dialog stream.frames

theorem RtpStream.nonempty (stream : RtpStream dialog toleranceMs) : stream.frames ≠ [] := by
  intro empty
  have measured := stream.measured
  rw [empty] at measured
  cases measured

theorem RtpStream.known_of_available (stream : RtpStream dialog toleranceMs) (available : Available stream.frames) :
    ∃ count, stream.metrics.timestampJumps = .known count := by
  obtain ⟨first, -, measured⟩ :=
    streamMetrics_available dialog toleranceMs available stream.nonempty
  rw [Except.ok.inj (stream.measured.symm.trans measured)]
  exact ⟨_, rfl⟩

theorem RtpStream.unknown_of_unavailable (stream : RtpStream dialog toleranceMs) (hidden : ¬ Available stream.frames) :
    stream.metrics = unavailableMetrics stream.frames.length (stream.frames.any MediaFrame.encrypted) :=
  Except.ok.inj (stream.measured.symm.trans (streamMetrics_unavailable hidden))

/-- The assertion passes only over streams with counts. -/
theorem available_of_pass {expectations : MediaExpectations} {fallback : List EvidenceRef}
    {streams : List (RtpStream dialog toleranceMs)} (passed : (mediaSequence expectations fallback streams).verdict = .pass)
    {stream : RtpStream dialog toleranceMs} (member : stream ∈ streams) : Available stream.frames := by
  by_contra hidden
  have uncounted : stream.counted = false := by
    rw [RtpStream.counted, stream.unknown_of_unavailable hidden]
    rfl
  have partial_ : (streams.all RtpStream.counted && !streams.isEmpty) = false := by
    rw [Bool.and_eq_false_iff]
    exact .inl (List.all_eq_false.mpr ⟨stream, member, by simp [uncounted]⟩)
  unfold mediaSequence at passed
  simp only [partial_, Bool.not_false, if_true] at passed
  split at passed <;> cases passed

/-- A stream with counts is examined only as far as its packets have all that is needed. -/
theorem fail_closed_iff (expectations : MediaExpectations) (fallback : List EvidenceRef)
    (streams : List (RtpStream dialog toleranceMs)) : FailClosed expectations fallback streams ↔
      ∀ stream ∈ streams, Available stream.frames → Examined dialog stream.frames := by
  constructor
  · rintro ⟨jumps, -⟩ stream member available
    obtain ⟨count, known⟩ := stream.known_of_available available
    exact jumps stream member count known
  · intro examined
    constructor
    · intro stream member count known
      apply examined stream member
      by_contra hidden
      rw [stream.unknown_of_unavailable hidden] at known
      cases known
    · intro passed stream member
      exact examined stream member (available_of_pass passed member)

/-- A stream whose second packet has no timestamp. -/
def halfExamined : RtpStream (.negotiated "10.0.0.1" "10.0.0.2") 200 where
  key := ⟨"10.0.0.1", 4000, "10.0.0.2", 4002, .udp, some 1⟩
  frames := [.packet (.known 2) "10.0.0.1" "10.0.0.2" 7 (.known 160),
    .packet (.known 3) "10.0.0.1" "10.0.0.2" 8 (.unknown .missingField none)]
  encrypted := false
  metrics := ⟨2, .known 2, .known 2, .known 0, .known 0, .known 0,
    .unknown .missingField "RTP clock rate or timestamp", .known 0⟩
  measured := by decide +kernel

/-- No jump is reported over the half of the packets, and the assertion passes. -/
theorem half_examined_passes : halfExamined.metrics.timestampJumps = .known 0 ∧
    (mediaSequence {} [] [halfExamined]).verdict = .pass ∧ ¬ FailClosed {} [] [halfExamined] := by
  refine ⟨rfl, by decide +kernel, ?_⟩
  rintro ⟨jumps, -⟩
  have missing : ¬ Examined (.negotiated "10.0.0.1" "10.0.0.2") halfExamined.frames := by decide +kernel
  exact missing (jumps halfExamined List.mem_cons_self 0 rfl)

end examined

section translation
variable {dialog : DialogRecord} {toleranceMs : Rat} {k : RtpTimestamp} {samples : List Sample} {frames : List MediaFrame}

def Sample.shift (k : RtpTimestamp) (sample : Sample) : Sample :=
  { sample with timestamp := sample.timestamp + k }

/-- The packet with its timestamp moved on. -/
def MediaFrame.shift (k : RtpTimestamp) (frame : MediaFrame) : MediaFrame :=
  { frame with rtp := frame.rtp.map fun rtp =>
      { rtp with timestamp := match rtp.timestamp with
        | .known timestamp => .known (timestamp + k)
        | .unknown reason detail => .unknown reason detail } }

/-- The timestamp passes its largest value when it is moved on. -/
def Sample.carries (k : RtpTimestamp) (sample : Sample) : Bool := decide (2 ^ 32 ≤ sample.timestamp.val + k.val)

/-- All timestamps pass the largest value, or none does. -/
def Even (k : RtpTimestamp) (samples : List Sample) : Prop :=
  ∀ sample ∈ samples, ∀ other ∈ samples, sample.carries k = other.carries k

/-- From each packet to the next the transit changes by less than half of the timestamps' range. -/
def Steady (samples : List Sample) : Prop := samples.IsChain fun a b => |b.transit - a.transit| < 2 ^ 31

theorem Sample.transit_shift (sample : Sample) :
    (sample.shift k).transit = sample.transit - k.val + if sample.carries k then 2 ^ 32 else 0 := by
  have small := sample.timestamp.isLt
  have small' := k.isLt
  have moved : ((sample.timestamp + k).val : Int) =
      sample.timestamp.val + k.val - if sample.carries k then 2 ^ 32 else 0 := by
    rw [Fin.val_add]
    by_cases carries : 2 ^ 32 ≤ sample.timestamp.val + k.val
    · simp only [Sample.carries, carries, decide_true, if_true]
      omega
    · simp only [Sample.carries, carries, decide_false, Bool.false_eq_true, if_false]
      omega
  have moved' : ((sample.timestamp + k).val : Rat) =
      sample.timestamp.val + k.val - if sample.carries k then 2 ^ 32 else 0 := by
    have cast := congrArg (Int.cast : Int → Rat) moved
    push_cast at cast
    exact cast
  unfold Sample.shift Sample.transit
  dsimp only
  rw [moved']
  ring

theorem Sample.jumps_shift (previous sample : Sample) :
    (previous.shift k).jumps toleranceMs (sample.shift k) = previous.jumps toleranceMs sample := by
  have delta : ((((sample.timestamp + k).val : Int) - (previous.timestamp + k).val) % 2 ^ 32) =
      (((sample.timestamp.val : Int) - previous.timestamp.val) % 2 ^ 32) := by
    rw [Fin.val_add, Fin.val_add]
    omega
  unfold Sample.jumps Sample.shift
  simp only [delta]

theorem Sample.delta_shift (previous sample : Sample) :
    (sample.shift k).transit - (previous.shift k).transit = sample.transit - previous.transit +
      ((if sample.carries k then 2 ^ 32 else 0) - if previous.carries k then 2 ^ 32 else 0) := by
  rw [Sample.transit_shift, Sample.transit_shift]
  ring

theorem Sample.delta_even {previous sample : Sample} (same : sample.carries k = previous.carries k) :
    |(sample.shift k).transit - (previous.shift k).transit| = |sample.transit - previous.transit| := by
  rw [Sample.delta_shift, same, sub_self, add_zero]

theorem Sample.delta_uneven {previous sample : Sample} (distinct : sample.carries k ≠ previous.carries k)
    (steady : |sample.transit - previous.transit| < 2 ^ 31) :
    |sample.transit - previous.transit| < |(sample.shift k).transit - (previous.shift k).transit| := by
  obtain ⟨low, high⟩ := abs_lt.mp steady
  rw [Sample.delta_shift, lt_abs]
  cases sample_eq : sample.carries k <;> cases previous_eq : previous.carries k
  · exact absurd (sample_eq.trans previous_eq.symm) distinct
  · right
    simp only [if_true, Bool.false_eq_true, if_false]
    refine abs_lt.mpr ⟨?_, ?_⟩ <;> linarith
  · left
    simp only [if_true, Bool.false_eq_true, if_false]
    refine abs_lt.mpr ⟨?_, ?_⟩ <;> linarith
  · exact absurd (sample_eq.trans previous_eq.symm) distinct

section run

/-- The samples of a run, and of the run with shifted timestamps. -/
abbrev timed (toleranceMs : Rat) (samples : List Sample) : Timing := samples.foldl (Timing.step toleranceMs) .start

theorem timed_append (last : Sample) : timed toleranceMs (samples ++ [last]) =
    (timed toleranceMs samples).step toleranceMs last := List.foldl_concat ..

theorem timed_previous : (timed toleranceMs samples).previous = samples.getLast? := by
  induction samples using List.reverseRecOn with
  | nil => rfl
  | append_singleton samples last _ =>
    rw [timed_append, Timing.step, List.getLast?_concat]
    split <;> rfl

theorem timed_jumps : (timed toleranceMs (samples.map (Sample.shift k))).jumps = (timed toleranceMs samples).jumps := by
  induction samples using List.reverseRecOn with
  | nil => rfl
  | append_singleton samples last ih =>
    rw [List.map_append, List.map_singleton, timed_append, timed_append, Timing.step, Timing.step, timed_previous,
      timed_previous, List.getLast?_map]
    cases samples.getLast? with
    | none => exact ih
    | some previous =>
      dsimp only [Option.map_some]
      rw [Sample.jumps_shift, ih]

theorem even_append {last : Sample} (even : Even k (samples ++ [last])) :
    Even k samples ∧ ∀ previous ∈ samples, last.carries k = previous.carries k := by
  constructor
  · intro sample member other member'
    exact even sample (List.mem_append_left _ member) other (List.mem_append_left _ member')
  · intro previous member
    exact even last (by simp) previous (List.mem_append_left _ member)

/-- An even shift changes no difference of transits. -/
theorem timed_even (even : Even k samples) :
    (timed toleranceMs (samples.map (Sample.shift k))).jitter = (timed toleranceMs samples).jitter := by
  induction samples using List.reverseRecOn with
  | nil => rfl
  | append_singleton samples last ih =>
    obtain ⟨before, same⟩ := even_append even
    rw [List.map_append, List.map_singleton, timed_append, timed_append, Timing.step, Timing.step, timed_previous,
      timed_previous, List.getLast?_map]
    cases found : samples.getLast? with
    | none => exact ih before
    | some previous =>
      dsimp only [Option.map_some]
      rw [Sample.delta_even (same previous (List.mem_of_getLast? found)), ih before]

/-- The estimate with shifted timestamps is never below, and it is above once the shift was uneven. -/
structure Above (uneven : Prop) (own shifted : Option Rat) : Prop where
  both : shifted.isSome = own.isSome
  above : ∀ x y, own = some x → shifted = some y → x ≤ y
  apart : uneven → ∃ x y, own = some x ∧ shifted = some y ∧ x < y

def estimate (jitter : Option Rat) (delta : Rat) : Rat := jitter.elim delta fun jitter => jitter + (delta - jitter) / 16

theorem Above.estimate {uneven uneven' : Prop} {own shifted : Option Rat} (above : Above uneven own shifted)
    {delta delta' : Rat} (le : delta ≤ delta') (apart : uneven' → uneven ∨ delta < delta') :
    Above uneven' (some (estimate own delta)) (some (estimate shifted delta')) := by
  refine ⟨rfl, ?_, ?_⟩
  · rintro _ _ ⟨⟩ ⟨⟩
    rcases own with _ | x <;> rcases shifted with _ | y
    · exact le
    · cases above.both
    · cases above.both
    · have := above.above x y rfl rfl
      simp only [Oracle.estimate, Option.elim_some]
      linarith
  · intro later
    refine ⟨_, _, rfl, rfl, ?_⟩
    rcases apart later with before | lt
    · obtain ⟨x, y, rfl, rfl, low⟩ := above.apart before
      simp only [Oracle.estimate, Option.elim_some]
      linarith
    · rcases own with _ | x <;> rcases shifted with _ | y
      · exact lt
      · cases above.both
      · cases above.both
      · have := above.above x y rfl rfl
        simp only [Oracle.estimate, Option.elim_some]
        linarith

theorem steady_append {last : Sample} (steady : Steady (samples ++ [last])) :
    Steady samples ∧ ∀ previous, samples.getLast? = some previous → |last.transit - previous.transit| < 2 ^ 31 := by
  obtain ⟨before, -, across⟩ := List.isChain_append.mp steady
  refine ⟨before, fun previous found => ?_⟩
  exact across previous found last rfl

variable (toleranceMs k) in
theorem timed_above (steady : Steady samples) : Above (¬ Even k samples)
    (timed toleranceMs samples).jitter (timed toleranceMs (samples.map (Sample.shift k))).jitter := by
  induction samples using List.reverseRecOn with
  | nil =>
    refine ⟨rfl, ?_, ?_⟩
    · rintro x y ⟨⟩
    · intro uneven
      exact absurd (fun sample member => by cases member) uneven
  | append_singleton samples last ih =>
    obtain ⟨before, close⟩ := steady_append steady
    rw [List.map_append, List.map_singleton, timed_append, timed_append, Timing.step, Timing.step, timed_previous,
      timed_previous, List.getLast?_map]
    cases found : samples.getLast? with
    | none =>
      obtain rfl := List.getLast?_eq_none_iff.mp found
      refine ⟨rfl, ?_, ?_⟩
      · rintro x y ⟨⟩
      · intro uneven
        refine absurd ?_ uneven
        intro sample member other member'
        rw [List.mem_singleton.mp member, List.mem_singleton.mp member']
    | some previous =>
      have inside := List.mem_of_getLast? found
      refine (ih before).estimate ?_ ?_
      · by_cases same : last.carries k = previous.carries k
        · exact (Sample.delta_even same).ge
        · exact (Sample.delta_uneven same (close previous found)).le
      · intro uneven
        by_cases same : last.carries k = previous.carries k
        · left
          intro even
          apply uneven
          have like : ∀ sample ∈ samples ++ [last], sample.carries k = previous.carries k := by
            intro sample member
            rcases List.mem_append.mp member with old | new
            · exact even sample old previous inside
            · rw [List.mem_singleton.mp new, same]
          intro sample member other member'
          exact (like sample member).trans (like other member').symm
        · exact .inr (Sample.delta_uneven same (close previous found))

end run

@[simp] theorem MediaFrame.shift_sequence? (frame : MediaFrame) : (frame.shift k).sequence? = frame.sequence? := by
  unfold MediaFrame.sequence? MediaFrame.shift
  cases frame.rtp <;> rfl

@[simp] theorem MediaFrame.shift_encrypted (frame : MediaFrame) : (frame.shift k).encrypted = frame.encrypted := by
  unfold MediaFrame.encrypted MediaFrame.shift
  cases frame.rtp <;> rfl

theorem shift_any_encrypted : (frames.map (MediaFrame.shift k)).any MediaFrame.encrypted =
    frames.any MediaFrame.encrypted := by
  rw [List.any_map]
  congr 1
  funext frame
  exact frame.shift_encrypted

theorem available_shift : Available (frames.map (MediaFrame.shift k)) ↔ Available frames := by
  unfold Available
  rw [shift_any_encrypted, List.forall_mem_map]
  simp only [MediaFrame.shift_sequence?]

theorem clockRate_shift (frame : MediaFrame) : clockRate dialog (frame.shift k) = clockRate dialog frame := by
  unfold clockRate MediaFrame.shift
  cases frame.rtp <;> rfl

theorem sample?_shift (frame : MediaFrame) :
    (frame.shift k).sample? dialog = (frame.sample? dialog).map (Sample.shift k) := by
  unfold MediaFrame.sample?
  rw [clockRate_shift]
  have evidence : (frame.shift k).evidence = frame.evidence := rfl
  rw [evidence]
  cases frame.evidence.time with
  | none => rfl
  | some arrival =>
    have timestamp : ((frame.shift k).rtp.bind fun rtp => rtp.timestamp.known?) =
        (frame.rtp.bind fun rtp => rtp.timestamp.known?).map (· + k) := by
      unfold MediaFrame.shift
      rcases frame.rtp with _ | rtp
      · rfl
      · dsimp only [Option.map_some, Option.bind_some]
        cases rtp.timestamp <;> rfl
    rw [timestamp]
    cases frame.rtp.bind fun rtp => rtp.timestamp.known? with
    | none => rfl
    | some own => cases clockRate dialog frame <;> rfl

/-- The samples of the packets. -/
def samplesOf (dialog : DialogRecord) (frames : List MediaFrame) : List Sample :=
  frames.filterMap (MediaFrame.sample? dialog)

theorem samplesOf_shift : samplesOf dialog (frames.map (MediaFrame.shift k)) =
    (samplesOf dialog frames).map (Sample.shift k) := by
  unfold samplesOf
  rw [List.filterMap_map, List.map_filterMap]
  exact List.filterMap_congr fun frame _ => sample?_shift frame

theorem follow_examined (examined : Examined dialog frames) (timing : Timing) :
    timing.follow dialog toleranceMs frames = (samplesOf dialog frames).foldl (Timing.step toleranceMs) timing := by
  induction frames generalizing timing with
  | nil => rfl
  | cons first rest ih =>
    obtain ⟨sample, found⟩ := Option.isSome_iff_exists.mp (examined first List.mem_cons_self)
    rw [Timing.follow, samplesOf, List.filterMap_cons, found]
    exact ih (fun frame member => examined frame (List.mem_cons_of_mem first member)) _

theorem examined_shift (examined : Examined dialog frames) : Examined dialog (frames.map (MediaFrame.shift k)) := by
  unfold Examined
  rw [List.forall_mem_map]
  intro frame member
  rw [sample?_shift, Option.isSome_map]
  exact examined frame member

def jitterOf (dialog : DialogRecord) (toleranceMs : Rat) (frames : List MediaFrame) : Except Builtin (Value Rat) :=
  (streamMetrics dialog toleranceMs frames).map SequenceMetrics.jitterMs

def jumpsOf (dialog : DialogRecord) (toleranceMs : Rat) (frames : List MediaFrame) : Except Builtin (Value Nat) :=
  (streamMetrics dialog toleranceMs frames).map SequenceMetrics.timestampJumps

/-- No metrics, no clock, or no packet that passes the largest timestamp while another does not. -/
def Translatable (dialog : DialogRecord) (k : RtpTimestamp) (frames : List MediaFrame) : Prop :=
  ¬ Available frames ∨ frames.head?.bind (clockRate dialog) = some 0 ∨ Even k (samplesOf dialog frames)

theorem jitterMs_zero (jitter : Option Rat) :
    jitterMs jitter (some 0) = .unknown .missingField "RTP clock rate or timestamp" := by
  cases jitter with
  | none => rfl
  | some _ => simp only [jitterMs, if_true]

theorem jitterMs_inj {rate : Int} (nonzero : rate ≠ 0) {x y : Rat}
    (same : jitterMs (some x) (some rate) = jitterMs (some y) (some rate)) : x = y := by
  unfold jitterMs at same
  simp only [nonzero, if_false, Value.known.injEq] at same
  have rate_ne : (rate : Rat) ≠ 0 := Int.cast_ne_zero.mpr nonzero
  have scaled := (div_left_inj' rate_ne).mp same
  linarith

section available
variable {first : MediaFrame} {rest : List MediaFrame} (available : Available (first :: rest))
  (examined : Examined dialog (first :: rest))
include available examined

theorem jumpsOf_available : jumpsOf dialog toleranceMs (first :: rest) =
    .ok (.known (timed toleranceMs (samplesOf dialog (first :: rest))).jumps) := by
  have own : streamMetrics dialog toleranceMs (first :: rest) = _ := if_pos available
  rw [jumpsOf, own, timed, ← follow_examined examined]
  rfl

theorem jitterOf_available : jitterOf dialog toleranceMs (first :: rest) =
    .ok (jitterMs (timed toleranceMs (samplesOf dialog (first :: rest))).jitter (clockRate dialog first)) := by
  have own : streamMetrics dialog toleranceMs (first :: rest) = _ := if_pos available
  rw [jitterOf, own, timed, ← follow_examined examined]
  rfl

theorem jumpsOf_shift : jumpsOf dialog toleranceMs ((first :: rest).map (MediaFrame.shift k)) =
    .ok (.known (timed toleranceMs (samplesOf dialog (first :: rest))).jumps) := by
  rw [List.map_cons, jumpsOf_available (available_shift.2 available) (examined_shift examined), ← List.map_cons,
    samplesOf_shift, timed_jumps]

theorem jitterOf_shift : jitterOf dialog toleranceMs ((first :: rest).map (MediaFrame.shift k)) =
    .ok (jitterMs (timed toleranceMs ((samplesOf dialog (first :: rest)).map (Sample.shift k))).jitter
      (clockRate dialog first)) := by
  rw [List.map_cons, jitterOf_available (available_shift.2 available) (examined_shift examined), ← List.map_cons,
    samplesOf_shift, clockRate_shift]

theorem jitter_kept (kept : clockRate dialog first = some 0 ∨ Even k (samplesOf dialog (first :: rest))) :
    jitterOf dialog toleranceMs ((first :: rest).map (MediaFrame.shift k)) =
      jitterOf dialog toleranceMs (first :: rest) := by
  rw [jitterOf_shift available examined, jitterOf_available available examined]
  rcases kept with zero | even
  · rw [zero, jitterMs_zero, jitterMs_zero]
  · rw [timed_even even]

theorem jitter_moved (steady : Steady (samplesOf dialog (first :: rest))) (clock : clockRate dialog first ≠ some 0)
    (uneven : ¬ Even k (samplesOf dialog (first :: rest))) :
    jitterOf dialog toleranceMs ((first :: rest).map (MediaFrame.shift k)) ≠
      jitterOf dialog toleranceMs (first :: rest) := by
  obtain ⟨x, y, own, shifted, lower⟩ := (timed_above toleranceMs k steady).apart uneven
  obtain ⟨sample, found⟩ := Option.isSome_iff_exists.mp (examined first List.mem_cons_self)
  have rate : ∃ rate, clockRate dialog first = some rate := by
    unfold MediaFrame.sample? at found
    cases clock : clockRate dialog first with
    | some rate => exact ⟨rate, rfl⟩
    | none =>
      rw [clock] at found
      cases arrival : first.evidence.time <;> cases timestamp : first.rtp.bind fun rtp => rtp.timestamp.known? <;>
        simp [arrival, timestamp] at found
  obtain ⟨rate, rate_eq⟩ := rate
  rw [rate_eq, ne_eq, Option.some.injEq] at clock
  rw [jitterOf_shift available examined, jitterOf_available available examined, own, shifted, rate_eq]
  intro same
  exact lower.ne' (jitterMs_inj clock (Except.ok.inj same))

end available

/-- Moving all timestamps on changes no count of jumps. It keeps the jitter where all timestamps pass the
largest value or none does, and over steady packets only there. -/
theorem translation_iff (dialog : DialogRecord) (toleranceMs : Rat) (k : RtpTimestamp) (frames : List MediaFrame)
    (examined : Examined dialog frames) :
    jumpsOf dialog toleranceMs (frames.map (MediaFrame.shift k)) = jumpsOf dialog toleranceMs frames ∧
    (Translatable dialog k frames →
      jitterOf dialog toleranceMs (frames.map (MediaFrame.shift k)) = jitterOf dialog toleranceMs frames) ∧
    (Steady (samplesOf dialog frames) →
      (jitterOf dialog toleranceMs (frames.map (MediaFrame.shift k)) = jitterOf dialog toleranceMs frames ↔
        Translatable dialog k frames)) := by
  by_cases available : Available frames
  swap
  · have unavailable : streamMetrics dialog toleranceMs (frames.map (MediaFrame.shift k)) =
        streamMetrics dialog toleranceMs frames := by
      rw [streamMetrics_unavailable available, streamMetrics_unavailable (mt available_shift.mp available),
        shift_any_encrypted, List.length_map]
    unfold jumpsOf jitterOf
    rw [unavailable]
    exact ⟨rfl, fun _ => rfl, fun _ => ⟨fun _ => .inl available, fun _ => rfl⟩⟩
  rcases frames with _ | ⟨first, rest⟩
  · refine ⟨rfl, fun _ => rfl, fun _ => ⟨fun _ => .inr (.inr ?_), fun _ => rfl⟩⟩
    rintro sample ⟨⟩
  have kept (meets : Translatable dialog k (first :: rest)) :
      jitterOf dialog toleranceMs ((first :: rest).map (MediaFrame.shift k)) =
        jitterOf dialog toleranceMs (first :: rest) := by
    rcases meets with hidden | kept
    · exact absurd available hidden
    · exact jitter_kept available examined kept
  refine ⟨?_, kept, fun steady => ⟨fun same => ?_, kept⟩⟩
  · rw [jumpsOf_shift available examined, jumpsOf_available available examined]
  · by_contra fails
    obtain ⟨-, fails⟩ := not_or.mp fails
    obtain ⟨clock, uneven⟩ := not_or.mp fails
    exact jitter_moved available examined steady clock uneven same

/-- Two packets in time, the second just past the largest timestamp: one every twenty milliseconds. -/
def pastWrap (start : RtpTimestamp) : List MediaFrame :=
  [.packet (.known 2) "10.0.0.1" "10.0.0.2" 7 (.known start),
    .packet (.known (2 + 1 / 50)) "10.0.0.1" "10.0.0.2" 8 (.known (start + 160))]

theorem early_stream_is_translatable : Examined (.negotiated "10.0.0.1" "10.0.0.2") (pastWrap 0) ∧
    jitterOf (.negotiated "10.0.0.1" "10.0.0.2") 200 ((pastWrap 0).map (MediaFrame.shift 1000)) =
      jitterOf (.negotiated "10.0.0.1" "10.0.0.2") 200 (pastWrap 0) := by
  have examined : Examined (.negotiated "10.0.0.1" "10.0.0.2") (pastWrap 0) := by decide +kernel
  have even : Even 1000 (samplesOf (.negotiated "10.0.0.1" "10.0.0.2") (pastWrap 0)) := by
    unfold Even
    decide +kernel
  exact ⟨examined, (translation_iff _ 200 1000 (pastWrap 0) examined).2.1 (.inr (.inr even))⟩

/-- A stream without jitter has one of six days when its timestamps pass the largest value. -/
theorem wrap_is_jitter : Examined (.negotiated "10.0.0.1" "10.0.0.2") (pastWrap 0) ∧
    jitterOf (.negotiated "10.0.0.1" "10.0.0.2") 200 (pastWrap 0) = .ok (.known 0) ∧
    jitterOf (.negotiated "10.0.0.1" "10.0.0.2") 200 ((pastWrap 0).map (MediaFrame.shift (-160))) =
      .ok (.known 536870912) := by
  refine ⟨?_, ?_, ?_⟩ <;> decide +kernel

end translation

end Sippycup.Oracle
