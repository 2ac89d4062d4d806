import Sippycup.Mission.Telemetry
import Sippycup.Machine.Trace

/-! When drop telemetry is exact: what a drained buffer has handed out, and what the reducer
makes of it. -/
namespace Sippycup.Telemetry
open Sippycup.Python Sippycup.Trace

section reducer
variable {state : ViewState} {e : Event} {source : Text} {events : List Event}

theorem lateAfter_eq_none : state.lateAfter e = none ↔ ∀ last, state.lastSequence e.source = some last → last < e.sequence := by
  simp only [ViewState.lateAfter, Option.filter_eq_none_iff, decide_eq_true_eq, Nat.not_le]

/-- The counter moves by the count of a drop event that is not late. -/
theorem reduceEvent_dropped (state : ViewState) (e : Event) : (reduceEvent state e).dropped =
    state.dropped + if state.lateAfter e = none ∧ e.kind = ("ui.dropped" : Text) then droppedCount e.payload else 0 := by
  unfold reduceEvent
  cases late : state.lateAfter e with
  | some last => simp
  | none =>
    dsimp only
    by_cases kind : e.kind = ("ui.dropped" : Text)
    · rw [if_pos kind, if_pos ⟨rfl, kind⟩]
    · have other : ¬ ((none : Option Nat) = none ∧ e.kind = ("ui.dropped" : Text)) := fun both => kind both.2
      rw [if_neg kind, if_neg other]
      by_cases schema : e.kind = ("ui.schema-error" : Text)
      · rw [if_pos schema]
        rfl
      · rw [if_neg schema]
        rfl

theorem reduceEvent_lastSequence (state : ViewState) (e : Event) :
    (reduceEvent state e).lastSequence = if state.lateAfter e = none then (state.taken e).lastSequence
      else state.lastSequence := by
  unfold reduceEvent
  cases late : state.lateAfter e with
  | some last => simp
  | none =>
    dsimp only
    rw [if_pos rfl]
    split
    · rfl
    · split <;> rfl

/-- What a view holds of the sequence numbers of the events before it. -/
structure Follows (state : ViewState) (events : List Event) : Prop where
  known : ∀ source last, state.lastSequence source = some last →
    ∃ f ∈ events, f.source = source ∧ f.sequence = last
  newest : ∀ f ∈ events, ∃ last, state.lastSequence f.source = some last ∧ f.sequence ≤ last

theorem follows_reduce (follows : Follows state events) : Follows (reduceEvent state e) (events ++ [e]) := by
  by_cases fresh : state.lateAfter e = none
  · have next : (reduceEvent state e).lastSequence = (state.taken e).lastSequence := by
      rw [reduceEvent_lastSequence, if_pos fresh]
    constructor
    · intro source last found
      rw [next] at found
      change (if source = e.source then some e.sequence else state.lastSequence source) = some last at found
      split at found
      · rename_i same
        cases found
        exact ⟨e, List.mem_append_right _ (List.mem_singleton.mpr rfl), same.symm, rfl⟩
      · obtain ⟨f, member, facts⟩ := follows.known source last found
        exact ⟨f, List.mem_append_left _ member, facts⟩
    · intro f member
      rw [next]
      change ∃ last, (if f.source = e.source then some e.sequence else state.lastSequence f.source) = some last ∧ _
      rcases List.mem_append.mp member with earlier | new
      · obtain ⟨last, found, bound⟩ := follows.newest f earlier
        split
        · rename_i same
          refine ⟨e.sequence, rfl, ?_⟩
          rw [same] at found
          have := lateAfter_eq_none.1 fresh last found
          omega
        · exact ⟨last, found, bound⟩
      · rw [List.mem_singleton.mp new, if_pos rfl]
        exact ⟨e.sequence, rfl, le_rfl⟩
  · have next : (reduceEvent state e).lastSequence = state.lastSequence := by
      rw [reduceEvent_lastSequence, if_neg fresh]
    constructor
    · intro source last found
      rw [next] at found
      obtain ⟨f, member, facts⟩ := follows.known source last found
      exact ⟨f, List.mem_append_left _ member, facts⟩
    · intro f member
      rw [next]
      rcases List.mem_append.mp member with earlier | new
      · exact follows.newest f earlier
      · rw [List.mem_singleton.mp new]
        simp only [lateAfter_eq_none, not_forall, Nat.not_lt] at fresh
        obtain ⟨last, found, bound⟩ := fresh
        exact ⟨last, found, bound⟩

/-- An event is late exactly if an earlier one of its source has a sequence number as high. -/
theorem Follows.late (follows : Follows state events) (e : Event) :
    state.lateAfter e ≠ none ↔ ∃ f ∈ events, f.source = e.source ∧ e.sequence ≤ f.sequence := by
  rw [Ne, lateAfter_eq_none]
  constructor
  · intro late
    simp only [not_forall, Nat.not_lt] at late
    obtain ⟨last, found, bound⟩ := late
    obtain ⟨f, member, source, rfl⟩ := follows.known _ last found
    exact ⟨f, member, source, bound⟩
  · rintro ⟨f, member, source, bound⟩ fresh
    obtain ⟨last, found, above⟩ := follows.newest f member
    rw [source] at found
    have := fresh last found
    omega

end reducer

section consumer
variable {o : Obtained} {obtained : List Obtained}

theorem consume_concat (obtained : List Obtained) (o : Obtained) :
    consume (obtained ++ [o]) = (consume obtained).turn o.event := by
  rw [consume, List.foldl_append]
  rfl

theorem consume_follows (obtained : List Obtained) :
    Follows (consume obtained).view (obtained.map Obtained.event) := by
  induction obtained using List.reverseRecOn with
  | nil =>
    constructor
    · intro source last found
      cases found
    · intro f member
      cases member
  | append_singleton obtained o ih =>
    rw [consume_concat, List.map_append]
    exact follows_reduce ih

/-- The turn of an item moves the counter unless its event is late or of another kind. -/
theorem consume_dropped (obtained : List Obtained) (o : Obtained) :
    (consume (obtained ++ [o])).view.dropped = (consume obtained).view.dropped +
      if (consume obtained).view.lateAfter o.event = none ∧ o.event.kind = ("ui.dropped" : Text) then
        droppedCount o.event.payload else 0 := by
  rw [consume_concat]
  exact reduceEvent_dropped _ _

theorem droppedCount_pos (payload : JsonDict) : 0 < droppedCount payload := by
  unfold droppedCount
  split
  · split <;> omega
  · exact Nat.one_pos

def Counted (e : Event) : Prop := shown e.payload = true ∧ e.source ≠ ("ui-buffer" : Text)

instance (e : Event) : Decidable (Counted e) := inferInstanceAs (Decidable (_ ∧ _))

def delivered (obtained : List Obtained) : List Event := obtained.filterMap Obtained.delivered?

/-- `task_done` reaches the queue for the delivered events that are shown and not the buffer's own. -/
theorem consume_tasksDone (obtained : List Obtained) :
    (consume obtained).tasksDone = (delivered obtained).countP fun e => decide (Counted e) := by
  induction obtained using List.reverseRecOn with
  | nil => rfl
  | append_singleton obtained o ih =>
    rw [consume_concat, delivered, List.filterMap_append, List.countP_append, ← delivered, ← ih]
    cases o with
    | delivered e =>
      change (if Counted e then _ else _) = _ + List.countP _ [e]
      rw [List.countP_singleton]
      by_cases counted : Counted e <;> simp [counted]
    | report count sequence =>
      change (if Counted (Obtained.report count sequence).event then (consume obtained).tasksDone + 1
        else (consume obtained).tasksDone) = _
      rw [if_neg fun counted => counted.2 rfl]
      rfl

end consumer

/-- The reports are numbered from one on, and each reports some drops. -/
def Numbered (obtained : List Obtained) : Prop :=
  ∀ before count sequence after, obtained = before ++ .report count sequence :: after →
    0 < count ∧ ∀ o ∈ before, o.delivered? = none → o.event.sequence < sequence

/-- What holds of a buffer after any interleaving of steps. -/
structure Balanced (b : Buffer) : Prop where
  delivered : b.accepted = b.delivered ++ b.queue
  refused : b.refused = b.refusing + b.dropped + (b.obtained.map Obtained.reported).sum
  numbered : Numbered b.obtained
  sequence : ∀ o ∈ b.obtained, o.delivered? = none → o.event.sequence ≤ b.diagnosticSequence

theorem numbered_delivered {obtained : List Obtained} {e : Event} (numbered : Numbered obtained) :
    Numbered (obtained ++ [.delivered e]) := by
  intro before count sequence after split
  rcases concat_split split with ⟨-, same⟩ | ⟨middle, rfl, whole⟩
  · cases same
  · exact numbered before count sequence middle whole

theorem balanced_step {capacity : Capacity} {b c : Buffer} (balanced : Balanced b) (step : Step capacity b c) :
    Balanced c := by
  cases step with
  | accept record e decoded room =>
    refine ⟨?_, balanced.refused, balanced.numbered, balanced.sequence⟩
    rw [balanced.delivered, List.append_assoc]
    rfl
  | refuse full =>
    refine ⟨balanced.delivered, ?_, balanced.numbered, balanced.sequence⟩
    have := balanced.refused
    dsimp only
    omega
  | count n refusing =>
    refine ⟨balanced.delivered, ?_, balanced.numbered, balanced.sequence⟩
    have := balanced.refused
    dsimp only
    omega
  | report drops =>
    constructor
    · rw [balanced.delivered]
      simp [Buffer.delivered, Obtained.delivered?]
    · have := balanced.refused
      dsimp only
      rw [List.map_append, List.sum_append]
      change _ = _ + _ + (_ + (b.dropped + 0))
      omega
    · intro before count sequence after split
      rcases concat_split split with ⟨rfl, same⟩ | ⟨middle, rfl, whole⟩
      · cases same
        refine ⟨Nat.pos_of_ne_zero drops, fun o member own => ?_⟩
        exact Nat.lt_succ_of_le (balanced.sequence o member own)
      · exact balanced.numbered before count sequence middle whole
    · intro o member own
      rcases List.mem_append.mp member with earlier | new
      · exact Nat.le_succ_of_le (balanced.sequence o earlier own)
      · rw [List.mem_singleton.mp new]
        exact le_rfl
  | wait none => exact ⟨balanced.delivered, balanced.refused, balanced.numbered, balanced.sequence⟩
  | take n e rest waiting head =>
    refine ⟨?_, ?_, numbered_delivered balanced.numbered, ?_⟩
    · rw [balanced.delivered, head]
      simp [Buffer.delivered, Obtained.delivered?]
    · rw [List.map_append, List.sum_append]
      exact balanced.refused
    · intro o member own
      rcases List.mem_append.mp member with earlier | new
      · exact balanced.sequence o earlier own
      · rw [List.mem_singleton.mp new] at own
        cases own
  | giveUp n waiting empty => exact ⟨balanced.delivered, balanced.refused, balanced.numbered, balanced.sequence⟩

theorem reachable_balanced {capacity : Capacity} {b : Buffer} (reached : Reachable capacity b) : Balanced b := by
  induction reached with
  | refl =>
    refine ⟨rfl, rfl, fun before count sequence after split => ?_, fun o member => absurd member List.not_mem_nil⟩
    simp [Buffer.initial] at split
  | tail _ step ih => exact balanced_step ih step

section drained
variable {b : Buffer}

theorem mem_delivered {obtained : List Obtained} {e : Event} :
    e ∈ delivered obtained ↔ Obtained.delivered e ∈ obtained := by
  rw [delivered, List.mem_filterMap]
  constructor
  · rintro ⟨o, member, same⟩
    cases o with
    | delivered f =>
      cases same
      exact member
    | report => cases same
  · exact fun member => ⟨_, member, rfl⟩

/-- Among fair events a drop report is never late. -/
theorem report_fresh {before : List Obtained} {count sequence : Nat}
    (fair : ∀ e ∈ delivered before, e.source ≠ ("ui-buffer" : Text))
    (newer : ∀ o ∈ before, o.delivered? = none → o.event.sequence < sequence) :
    (consume before).view.lateAfter (Obtained.report count sequence).event = none := by
  by_contra late
  obtain ⟨f, listed, source, bound⟩ := ((consume_follows before).late _).mp late
  obtain ⟨o, member, rfl⟩ := List.mem_map.mp listed
  cases o with
  | delivered e => exact fair e (mem_delivered.2 member) source
  | report other number =>
    have := newer _ member rfl
    exact absurd bound (Nat.not_le.mpr this)

/-- Fair events leave the counter to the reports. -/
theorem fair_reports (balanced : Balanced b) (fair : Fair b.accepted) {before after : List Obtained} {o : Obtained}
    (split : b.obtained = before ++ o :: after) :
    (consume (before ++ [o])).view.dropped = (consume before).view.dropped + o.reported := by
  have parts : b.accepted = delivered before ++ (delivered (o :: after) ++ b.queue) := by
    rw [balanced.delivered, Buffer.delivered, split, List.filterMap_append, List.append_assoc]
    rfl
  rw [consume_dropped]
  cases o with
  | report count sequence =>
    obtain ⟨some_, newer⟩ := balanced.numbered before count sequence after split
    have fresh : (consume before).view.lateAfter (Obtained.report count sequence).event = none :=
      report_fresh (fun e member => fair.source e (by rw [parts]; exact List.mem_append_left _ member)) newer
    rw [if_pos ⟨fresh, rfl⟩]
    change _ + (if (1 : Int) ≤ count then (count : Int).toNat else 1) = _ + count
    rw [if_pos (by omega), Int.toNat_natCast]
  | delivered e =>
    rw [if_neg]
    · rfl
    · rintro ⟨fresh, kind⟩
      obtain ⟨f, member, late⟩ := fair.late (delivered before) e (delivered after ++ b.queue) parts kind
      refine ((consume_follows before).late e).mpr ⟨f, ?_, late⟩ fresh
      exact List.mem_map.mpr ⟨.delivered f, mem_delivered.1 member, rfl⟩

theorem dropped_sum {obtained : List Obtained}
    (reports : ∀ before o after, obtained = before ++ o :: after →
      (consume (before ++ [o])).view.dropped = (consume before).view.dropped + o.reported) :
    (consume obtained).view.dropped = (obtained.map Obtained.reported).sum := by
  induction obtained using List.reverseRecOn with
  | nil => rfl
  | append_singleton obtained o ih =>
    rw [reports obtained o [] rfl, List.map_append, List.sum_append, ih]
    · rfl
    · intro before o' after split
      exact reports before o' (after ++ [o]) (by rw [split]; simp)

theorem fair_exact (balanced : Balanced b) (drained : b.Drained) (fair : Fair b.accepted) : b.Exact := by
  have whole : b.delivered = b.accepted := by
    rw [balanced.delivered, drained.queue, List.append_nil]
  have reports : ∀ before o after, b.obtained = before ++ o :: after →
      (consume (before ++ [o])).view.dropped = (consume before).view.dropped + o.reported :=
    fun _ _ _ split => fair_reports balanced fair split
  refine ⟨?_, whole, ?_, reports⟩
  · rw [dropped_sum reports, balanced.refused, drained.refusing, drained.dropped, Nat.zero_add]
  · rw [consume_tasksDone]
    change List.countP _ b.delivered = _
    rw [List.countP_eq_length, whole]
    exact fun e member => decide_eq_true ⟨fair.shown e member, fair.source e member⟩

/-- Where an event was delivered. -/
theorem delivered_split {obtained : List Obtained} {before after : List Event} {e : Event}
    (split : delivered obtained = before ++ e :: after) :
    ∃ earlier later, obtained = earlier ++ .delivered e :: later ∧ delivered earlier = before := by
  obtain ⟨first, second, rfl, start, rest⟩ := List.filterMap_eq_append_iff.mp split
  obtain ⟨skipped, o, later, rfl, reports, same, -⟩ := List.filterMap_eq_cons_iff.mp rest
  refine ⟨first ++ skipped, later, ?_, ?_⟩
  · cases o with
    | delivered f =>
      cases same
      rw [List.append_assoc]
    | report => cases same
  · rw [delivered, List.filterMap_append, start, List.filterMap_eq_nil_iff.mpr reports, List.append_nil]

theorem exact_fair (exact_ : b.Exact) : Fair b.accepted := by
  have counted : ∀ e ∈ b.delivered, Counted e := by
    have tasks := exact_.tasks
    rw [consume_tasksDone] at tasks
    change List.countP _ b.delivered = _ at tasks
    exact fun e member => of_decide_eq_true (List.countP_eq_length.mp tasks e member)
  rw [exact_.delivered] at counted
  refine ⟨fun e member => (counted e member).2, fun e member => (counted e member).1, ?_⟩
  intro before e after split kind
  have source := (counted e (by rw [split]; simp)).2
  rw [← exact_.delivered] at split
  obtain ⟨earlier, later, obtained, rfl⟩ := delivered_split split
  have still := exact_.reports earlier _ later obtained
  rw [consume_dropped] at still
  have late : (consume earlier).view.lateAfter e ≠ none := by
    intro fresh
    rw [if_pos ⟨fresh, kind⟩] at still
    have := droppedCount_pos e.payload
    change _ + droppedCount e.payload = _ + 0 at still
    omega
  obtain ⟨f, listed, same, bound⟩ := ((consume_follows earlier).late e).mp late
  obtain ⟨o, member, rfl⟩ := List.mem_map.mp listed
  cases o with
  | delivered f => exact ⟨f, mem_delivered.2 member, same, bound⟩
  | report => exact absurd same.symm source

end drained

def single : Capacity := ⟨1, by omega, by omega⟩

def record (source : String) (sequence : Int) : JsonDict :=
  [JsonDict.entry "schema" (.str eventSchema), JsonDict.entry "sequence" (.int sequence),
    JsonDict.entry "source" (.str source), JsonDict.entry "kind" (.str "run.started")]

def started (source : Text) (sequence : Nat) : Event := { sequence, source, kind := "run.started", payload := [] }

theorem campaign_decoded : decodeEvent (record "campaign" 1) = .ok (started "campaign" 1) := by rfl

theorem buffer_decoded : decodeEvent (record "ui-buffer" 9) = .ok (started "ui-buffer" 9) := by rfl

/-- An event goes in, another is refused, and the event is taken; then the drop is reported. -/
def overtaken (e : Event) : Buffer := ⟨[], 0, 1, 0, 0, [e], 1, [.delivered e, .report 1 1]⟩

theorem overtaken_reached {given : JsonDict} {e : Event} (decoded : decodeEvent given = .ok e) :
    Reachable single (overtaken e) := by
  have waiting : Reachable single ⟨[], 0, 0, 0, 1, [], 0, []⟩ := .single (.wait .initial rfl)
  have accepted : Reachable single ⟨[e], 0, 0, 0, 1, [e], 0, []⟩ :=
    waiting.tail (.accept _ given e decoded (by decide))
  have refused : Reachable single ⟨[e], 0, 0, 1, 1, [e], 1, []⟩ := accepted.tail (.refuse _ (by simp [single]))
  have counted : Reachable single ⟨[e], 1, 0, 0, 1, [e], 1, []⟩ := refused.tail (.count _ 0 rfl)
  have taken : Reachable single ⟨[], 1, 0, 0, 0, [e], 1, [.delivered e]⟩ :=
    counted.tail (.take _ 0 e [] rfl rfl)
  exact taken.tail (.report _ Nat.one_ne_zero)

theorem overtaken_drained (e : Event) : (overtaken e).Drained := ⟨rfl, rfl, rfl⟩

end Sippycup.Telemetry
