import Sippycup.Mission.App

/-! Which runs of mission control no producer can break: when reading a record
and draining the buffer return, and what a drain has applied. -/
namespace Sippycup.Telemetry
open Sippycup.Python

section dashboard
variable {payload : JsonDict} {name : Text} {e : Event}

theorem returns_metric (value : JsonValue) : Returns (metric value) ↔ metricOk value = true := by
  have of : ∀ text status, Returns (Metric.of text status) ↔ metricStatuses.contains status = true := by
    intro text status
    unfold Metric.of
    split
    · rename_i known
      exact ⟨fun _ => known, fun _ => ⟨_, rfl⟩⟩
    · rename_i other
      simpa [Returns] using other
  cases value with
  | dict d => exact of _ _
  | _ =>
    rw [metric, of]
    simp [metricOk, metricStatuses]
    all_goals simp

theorem returns_metrics (entries : JsonDict) :
    Returns (metrics entries) ↔ (entries.all fun item => metricOk item.2) = true := by
  induction entries with
  | nil => simp [metrics, Returns]
  | cons entry rest ih =>
    obtain ⟨name, value⟩ := entry
    rw [metrics, returns_bind fun _ _ => returns_bind fun _ _ => returns_pure _, returns_metric, ih]
    simp

theorem returns_group (old : List (Text × Metric)) :
    Returns (group payload name old) ↔ groupOk (payload.get? name) = true := by
  unfold group
  cases payload.get? name with
  | none => exact ⟨fun _ => rfl, fun _ => ⟨old, rfl⟩⟩
  | some value =>
    cases value with
    | dict entries => exact returns_metrics entries
    | _ => exact ⟨fun _ => rfl, fun _ => ⟨old, rfl⟩⟩

theorem returns_gauge (old : Metric) :
    Returns (gauge payload name old) ↔ ((payload.get? name).map metricOk).getD true = true := by
  unfold gauge
  cases payload.get? name with
  | none => simp [Returns]
  | some value => exact returns_metric value

/-- The dashboard takes an event exactly when its metrics have known statuses. -/
theorem returns_dashboard (model : DashboardModel) :
    Returns (applyDashboardEvent model e) ↔ shown e.payload = true := by
  unfold applyDashboardEvent
  dsimp only
  rw [returns_bind fun _ _ => returns_bind fun _ _ => returns_bind fun _ _ => returns_bind fun _ _ =>
    returns_bind fun _ _ => returns_bind fun _ _ => returns_bind fun _ _ => returns_pure _]
  simp only [returns_group, returns_gauge, shown, List.all_cons, List.all_nil, Bool.and_true, Bool.and_eq_true,
    and_true, and_assoc]

end dashboard

end Sippycup.Telemetry

namespace Sippycup.Telemetry
open Sippycup.Python

namespace MissionApp

/-- What the coming gets hand out. -/
def pending (app : MissionApp) : List Taken :=
  (if app.dropped = 0 then [] else [.report app.dropped (app.bufferSequence + 1)]) ++ app.queue.map .queued

end MissionApp

def viewed (view : ViewState) (items : List Taken) : ViewState :=
  items.foldl (fun view item => reduceEvent view item.event) view

def dashboard (model : DashboardModel) (items : List Taken) : Except Builtin DashboardModel :=
  items.foldlM (fun model item => applyDashboardEvent model item.event) model

/-- A drain returns with an empty buffer, has applied every item to the view and
to the dashboard, and each of the app's own reports shows in the view. -/
structure Drains (app : MissionApp) : Prop where
  returns : (app.drain MissionApp.drainLimit).2 = none
  empties : (app.drain MissionApp.drainLimit).1.pending = []
  view : (app.drain MissionApp.drainLimit).1.view = viewed app.view app.pending
  model : dashboard app.model app.pending = .ok (app.drain MissionApp.drainLimit).1.model
  schemaErrors : ∀ before sequence reason after,
    app.pending = before ++ .queued (.diagnostic sequence reason) :: after →
      (viewed app.view (before ++ [.queued (.diagnostic sequence reason)])).schemaErrors =
        (viewed app.view before).schemaErrors + 1
  drops : ∀ before count sequence after, app.pending = before ++ .report count sequence :: after →
    (viewed app.view (before ++ [.report count sequence])).dropped = (viewed app.view before).dropped + count

/-- At most the limit waits, every producer's event can be shown, the numbers in
a warning can be written, and the app's own reports are not late. -/
structure Drainable (app : MissionApp) : Prop where
  few : app.pending.length ≤ MissionApp.drainLimit
  shown : ∀ e, .produced e ∈ app.queue → shown e.payload = true
  written : ∀ before item after, app.pending = before ++ item :: after →
    ∀ last, (viewed app.view before).lateAfter item.event = some last → last < 10 ^ Json.maxStrDigits
  heard : ∀ before item after, app.pending = before ++ item :: after → item.own = true →
    (viewed app.view before).lateAfter item.event = none

section drain
variable {app : MissionApp} {view : ViewState} {items : List Taken}

/-- Every item can be reduced and shown in its turn. -/
def Smooth (view : ViewState) : List Taken → Prop
  | [] => True
  | item :: rest => view.overflows item.event = false ∧ shown item.event.payload = true ∧
      Smooth (reduceEvent view item.event) rest

theorem pending_nil : app.pending = [] ↔ app.get = none := by
  unfold MissionApp.pending MissionApp.get
  by_cases drops : app.dropped = 0
  · rw [if_pos drops, if_neg (not_not_intro drops)]
    cases app.queue <;> simp
  · rw [if_neg drops, if_pos drops]
    simp

theorem get_pending {item : Taken} {next : MissionApp} (got : app.get = some (item, next)) :
    app.pending = item :: next.pending ∧ next.view = app.view ∧ next.model = app.model := by
  unfold MissionApp.get at got
  unfold MissionApp.pending
  split at got
  · rename_i drops
    cases got
    rw [if_neg drops]
    simp
  · rename_i none
    rw [if_pos (not_not.mp none)]
    split at got
    · cases got
    · rename_i first rest waiting
      cases got
      simp [waiting, not_not.mp none]

theorem turn_ok {e : Event} :
    (app.turn e).2 = none ↔ app.view.overflows e = false ∧ shown e.payload = true := by
  unfold MissionApp.turn
  split
  · rename_i overflows
    simp [overflows]
  · rename_i fits
    dsimp only
    rw [← returns_dashboard app.model, Returns]
    cases applyDashboardEvent app.model e with
    | ok model => simpa using fits
    | error kind => simp

theorem turn_pending {e : Event} : (app.turn e).1.pending = app.pending := by
  unfold MissionApp.turn
  split
  · rfl
  · dsimp only
    split <;> rfl

theorem turn_applies {e : Event} (ok : (app.turn e).2 = none) :
    (app.turn e).1.view = reduceEvent app.view e ∧
      applyDashboardEvent app.model e = .ok (app.turn e).1.model := by
  unfold MissionApp.turn at ok ⊢
  split at ok
  · cases ok
  · rename_i fits
    rw [if_neg fits]
    dsimp only at ok ⊢
    split at ok
    · rename_i model applied
      exact ⟨rfl, applied⟩
    · cases ok

theorem drain_succ (limit : Nat) : app.drain (limit + 1) =
    match app.get with
    | none => (app, none)
    | some (item, next) =>
      if (next.turn item.event).2 = none then (next.turn item.event).1.drain limit else next.turn item.event := by
  rw [MissionApp.drain]
  cases app.get with
  | none => rfl
  | some got =>
    obtain ⟨item, next⟩ := got
    dsimp only
    rcases next.turn item.event with ⟨after, _ | kind⟩
    · rfl
    · rfl

/-- A drain gets through exactly when there is little enough and each item can be applied. -/
theorem drain_through (limit : Nat) (app : MissionApp) :
    ((app.drain limit).2 = none ∧ (app.drain limit).1.pending = []) ↔
      app.pending.length ≤ limit ∧ Smooth app.view app.pending := by
  induction limit generalizing app with
  | zero =>
    rw [MissionApp.drain]
    constructor
    · rintro ⟨-, empty⟩
      rw [empty]
      exact ⟨Nat.le_refl 0, trivial⟩
    · rintro ⟨few, -⟩
      exact ⟨rfl, List.length_eq_zero_iff.mp (Nat.le_zero.mp few)⟩
  | succ limit ih =>
    rw [drain_succ]
    rcases got : app.get with _ | ⟨item, next⟩
    · have empty := pending_nil.2 got
      simp [empty, Smooth]
    · obtain ⟨waits, view, -⟩ := get_pending got
      dsimp only
      rw [waits, List.length_cons, Smooth, ← view]
      by_cases ok : (next.turn item.event).2 = none
      · have turned := turn_ok.1 ok
        rw [if_pos ok, ih, turn_pending, (turn_applies ok).1]
        constructor
        · rintro ⟨few, smooth⟩
          exact ⟨Nat.succ_le_succ few, turned.1, turned.2, smooth⟩
        · rintro ⟨few, -, -, smooth⟩
          exact ⟨Nat.le_of_succ_le_succ few, smooth⟩
      · rw [if_neg ok]
        constructor
        · rintro ⟨returned, -⟩
          exact absurd returned ok
        · rintro ⟨-, fits, shows, -⟩
          exact absurd (turn_ok.2 ⟨fits, shows⟩) ok

theorem drain_applies (limit : Nat) (app : MissionApp) (returned : (app.drain limit).2 = none)
    (emptied : (app.drain limit).1.pending = []) : (app.drain limit).1.view = viewed app.view app.pending ∧
      dashboard app.model app.pending = .ok (app.drain limit).1.model := by
  induction limit generalizing app with
  | zero =>
    rw [MissionApp.drain] at emptied ⊢
    rw [emptied]
    exact ⟨rfl, rfl⟩
  | succ limit ih =>
    rw [drain_succ] at returned emptied ⊢
    rcases got : app.get with _ | ⟨item, next⟩
    · rw [pending_nil.2 got]
      exact ⟨rfl, rfl⟩
    · obtain ⟨waits, view, model⟩ := get_pending got
      rw [got] at returned emptied
      dsimp only at returned emptied ⊢
      by_cases ok : (next.turn item.event).2 = none
      · rw [if_pos ok] at returned emptied ⊢
        obtain ⟨shown_, applied⟩ := ih _ returned emptied
        obtain ⟨reduced, updated⟩ := turn_applies ok
        rw [turn_pending, reduced, view] at shown_
        rw [turn_pending] at applied
        rw [model] at updated
        refine ⟨by rw [waits, shown_]; rfl, ?_⟩
        rw [waits, dashboard, List.foldlM_cons, updated]
        exact applied
      · rw [if_neg ok] at returned
        exact absurd returned ok

theorem smooth_iff : Smooth view items ↔ (∀ item ∈ items, shown item.event.payload = true) ∧
    ∀ before item after, items = before ++ item :: after →
      ∀ last, (viewed view before).lateAfter item.event = some last → last < 10 ^ Json.maxStrDigits := by
  induction items generalizing view with
  | nil => simp [Smooth]
  | cons item rest ih =>
    have fits : view.overflows item.event = false ↔
        ∀ last, view.lateAfter item.event = some last → last < 10 ^ Json.maxStrDigits := by
      unfold ViewState.overflows
      cases view.lateAfter item.event with
      | none => simp
      | some last => simp
    rw [Smooth, ih, fits, List.forall_mem_cons]
    constructor
    · rintro ⟨first, shows, others, written⟩
      refine ⟨⟨shows, others⟩, ?_⟩
      intro before other after split
      rcases before with _ | ⟨head, before⟩
      · obtain ⟨rfl, -⟩ := List.cons.inj split
        exact first
      · obtain ⟨rfl, later⟩ := List.cons.inj split
        exact written before other after later
    · rintro ⟨⟨shows, others⟩, written⟩
      refine ⟨written [] item rest rfl, shows, others, ?_⟩
      intro before other after split
      exact written (item :: before) other after (by rw [split]; rfl)

theorem own_shown {item : Taken} (own : item.own = true) : shown item.event.payload = true := by
  cases item with
  | report count sequence => simp [Taken.event, Obtained.event, shown, groupOk]
  | queued item =>
    cases item with
    | produced e => cases own
    | diagnostic sequence reason => simp [Taken.event, Queued.event, shown, groupOk]

theorem viewed_concat (before : List Taken) (item : Taken) :
    viewed view (before ++ [item]) = reduceEvent (viewed view before) item.event := by
  rw [viewed, List.foldl_append]
  rfl

theorem viewed_diagnostic (before : List Taken) (sequence : Nat) (reason : Text) :
    (viewed view (before ++ [.queued (.diagnostic sequence reason)])).schemaErrors =
      (viewed view before).schemaErrors +
        if (viewed view before).lateAfter (Taken.queued (.diagnostic sequence reason)).event = none then 1 else 0 := by
  rw [viewed_concat]
  generalize viewed view before = earlier
  unfold reduceEvent
  cases late : earlier.lateAfter (Taken.queued (.diagnostic sequence reason)).event with
  | some last => simp
  | none =>
    have other : (Taken.queued (.diagnostic sequence reason)).event.kind ≠ ("ui.dropped" : Text) := by
      change ("ui.schema-error" : Text) ≠ "ui.dropped"
      decide
    have kind : (Taken.queued (.diagnostic sequence reason)).event.kind = ("ui.schema-error" : Text) := rfl
    dsimp only
    rw [if_neg other, if_pos kind]
    rfl

theorem report_pending {before after : List Taken} {count sequence : Nat}
    (split : app.pending = before ++ .report count sequence :: after) : count ≠ 0 := by
  have member : Taken.report count sequence ∈ app.pending := by
    rw [split]
    simp
  unfold MissionApp.pending at member
  rcases List.mem_append.mp member with reported | waiting
  · split at reported
    · cases reported
    · rename_i drops
      rw [List.mem_singleton] at reported
      cases reported
      exact drops
  · simp at waiting

/-- A drain keeps what is promised exactly when the app is drainable. -/
theorem drains_iff (app : MissionApp) : Drains app ↔ Drainable app := by
  have own_iff : (∀ item ∈ app.pending, shown item.event.payload = true) ↔
      ∀ e, .produced e ∈ app.queue → shown e.payload = true := by
    constructor
    · intro all e member
      exact all (.queued (.produced e)) (List.mem_append_right _ (List.mem_map_of_mem member))
    · intro produced item member
      by_cases own : item.own = true
      · exact own_shown own
      · rcases item with _ | e | _
        · exact absurd rfl own
        · rcases List.mem_append.mp member with reported | waiting
          · split at reported
            · cases reported
            · rw [List.mem_singleton] at reported
              cases reported
          · exact produced e (by simpa using waiting)
        · exact absurd rfl own
  constructor
  · intro drains
    obtain ⟨few, smooth⟩ := (drain_through _ app).mp ⟨drains.returns, drains.empties⟩
    obtain ⟨shows, written⟩ := smooth_iff.1 smooth
    refine ⟨few, own_iff.mp shows, written, ?_⟩
    intro before item after split own
    by_contra late
    rcases item with ⟨count, sequence⟩ | e | ⟨sequence, reason⟩
    · have counted := drains.drops before count sequence after split
      have positive := report_pending split
      rw [viewed_concat, reduceEvent_dropped, if_neg fun both => late both.1] at counted
      omega
    · cases own
    · have counted := drains.schemaErrors before sequence reason after split
      rw [viewed_diagnostic, if_neg late] at counted
      omega
  · intro drainable
    have smooth := smooth_iff.2 ⟨own_iff.mpr drainable.shown, drainable.written⟩
    obtain ⟨returned, emptied⟩ := (drain_through MissionApp.drainLimit app).mpr ⟨drainable.few, smooth⟩
    obtain ⟨view, model⟩ := drain_applies MissionApp.drainLimit app returned emptied
    refine ⟨returned, emptied, view, model, ?_, ?_⟩
    · intro before sequence reason after split
      have heard := drainable.heard before _ after split rfl
      rw [viewed_diagnostic, if_pos heard]
    · intro before count sequence after split
      have heard := drainable.heard before _ after split rfl
      have positive := report_pending split
      rw [viewed_concat, reduceEvent_dropped, if_pos ⟨heard, rfl⟩]
      congr 1
      change droppedCount [JsonDict.entry "count" (.int count)] = count
      simp only [droppedCount, JsonDict.get?_entry, if_pos]
      rw [if_pos (by omega), Int.toNat_natCast]

end drain

section ingest
variable (describe : Builtin → Text) (capacity : Capacity) (app : MissionApp) (raw : JsonValue) (assertionSequence : Int)

/-- Reading a record returns, and one that cannot be read waits as a diagnostic or is counted as dropped. -/
structure Ingests : Prop where
  returns : ∃ accepted, (app.ingest describe capacity raw assertionSequence).1 = .ok accepted
  counted : ∀ failure, readRecord raw assertionSequence = .error failure →
    (∃ reason, (app.ingest describe capacity raw assertionSequence).2.queue =
        app.queue ++ [.diagnostic (app.diagnosticSequence + 1) reason]) ∨
      (app.ingest describe capacity raw assertionSequence).2.dropped = app.dropped + 1

/-- A text that is JSON holds an object. -/
def Ingestible (raw : JsonValue) : Prop :=
  ∀ text value, raw = .str text → Json.loads text = .ok value → ∃ d, value = .dict d

variable {describe capacity app raw assertionSequence}

/-- Every exception is one that `ingest` catches. -/
def Caught {α : Type} (result : Adapted α) : Prop := ∀ failure, result = .error failure → caught failure = true

theorem caught_ok {α : Type} (value : α) : Caught (.ok value) := by
  intro failure impossible
  cases impossible

theorem caught_own {α : Type} (reason : Text) : Caught (.error (.own reason) : Adapted α) := by
  intro failure same
  cases same
  rfl

theorem caught_builtin {α : Type} {kind : Builtin} (listed : kind = .typeError ∨ kind = .valueError) :
    Caught (.error (.builtin kind) : Adapted α) := by
  intro failure same
  cases same
  exact decide_eq_true listed

theorem caught_bind {α β : Type} {first : Adapted α} {then_ : α → Adapted β} (first_ : Caught first)
    (later : ∀ value, first = .ok value → Caught (then_ value)) : Caught (first >>= then_) := by
  cases first with
  | error failure =>
    intro other same
    cases same
    exact first_ failure rfl
  | ok value => exact later value rfl

theorem caught_pair (item : JsonValue) : Caught (pairOf item) := by
  have pair : ∀ items : List JsonValue, Caught (pairOf (.list items)) := by
    intro items
    simp only [pairOf]
    split
    · split
      · exact caught_ok _
      · exact caught_builtin (.inl rfl)
    · exact caught_builtin (.inr rfl)
  cases item with
  | list items => exact pair items
  | str text => exact pair _
  | dict entries => exact pair _
  | _ => exact caught_builtin (.inl rfl)

theorem caught_pairs (items : List JsonValue) : Caught (items.mapM pairOf) := by
  induction items with
  | nil => exact caught_ok []
  | cons item rest ih =>
    rw [List.mapM_cons]
    apply caught_bind (caught_pair item)
    intro pair _
    apply caught_bind ih
    intro pairs _
    exact caught_ok _

theorem caught_recordOf (ingestible : Ingestible raw) : Caught (recordOf raw) := by
  cases raw with
  | str text =>
    rw [recordOf]
    split
    · exact caught_ok _
    · rename_i value other loaded
      obtain ⟨d, rfl⟩ := ingestible text value rfl loaded
      exact absurd rfl (other d)
    · exact caught_own _
    · exact caught_builtin (.inr rfl)
  | dict d => exact caught_ok _
  | list items =>
    rw [recordOf]
    apply caught_bind (caught_pairs items)
    intro pairs _
    exact caught_ok _
  | _ => exact caught_builtin (.inl rfl)

theorem caught_decodeRecord (record : JsonDict) (foreign : Bool) : Caught (decodeRecord record foreign) := by
  unfold decodeRecord
  extract_lets written
  clear_value written
  split
  · exact caught_builtin (.inl rfl)
  · split
    · split
      · exact caught_ok _
      · exact caught_builtin (.inr rfl)
    · split
      · exact caught_builtin (.inr rfl)
      · exact caught_own _

theorem caught_adaptCampaign (record : JsonDict) : Caught (adaptCampaign record) := by
  unfold adaptCampaign
  dsimp only
  split
  · exact caught_own _
  · split
    · split
      · exact caught_own _
      · split
        · split
          · exact caught_own _
          · split
            · split
              · exact caught_ok _
              · exact caught_ok _
            · exact caught_own _
        · exact caught_own _
    · exact caught_own _

theorem caught_counts (summary : JsonDict) (names : List Text) : Caught (names.mapM (countOf summary)) := by
  have count : ∀ name, Caught (countOf summary name) := by
    intro name
    unfold countOf
    split
    · split
      · exact caught_own _
      · exact caught_ok _
    · exact caught_own _
  induction names with
  | nil => exact caught_ok []
  | cons name rest ih =>
    rw [List.mapM_cons]
    apply caught_bind (count name)
    intro first _
    apply caught_bind ih
    intro others _
    exact caught_ok _

theorem caught_adaptAssertion (record : JsonDict) : Caught (adaptAssertion record assertionSequence) := by
  unfold adaptAssertion
  dsimp only
  split
  · exact caught_own _
  · split
    · exact caught_own _
    · split
      · exact caught_builtin (.inl rfl)
      · split
        · exact caught_own _
        · split
          · apply caught_bind (caught_counts _ _)
            intro counts _
            exact caught_ok _
          · exact caught_own _

theorem caught_readRecord (ingestible : Ingestible raw) : Caught (readRecord raw assertionSequence) := by
  unfold readRecord
  apply caught_bind (caught_recordOf ingestible)
  rintro ⟨record, foreign⟩ _
  dsimp only
  split
  · apply caught_bind (caught_decodeRecord record foreign)
    intro e _
    exact caught_ok _
  · split
    · exact caught_adaptCampaign record
    · split
      · apply caught_bind (caught_adaptAssertion record)
        intro e _
        exact caught_ok _
      · exact caught_own _

theorem put_counted (item : Queued) : (app.put capacity item).2.queue = app.queue ++ [item] ∨
    (app.put capacity item).2.dropped = app.dropped + 1 := by
  unfold MissionApp.put
  split
  · exact .inl rfl
  · exact .inr rfl

theorem ingest_unread {failure : Raised Text} (unread : readRecord raw assertionSequence = .error failure)
    (known : caught failure = true) : ∃ reason, app.ingest describe capacity raw assertionSequence =
      ((.ok (({ app with diagnosticSequence := app.diagnosticSequence + 1 } : MissionApp).put capacity
          (.diagnostic (app.diagnosticSequence + 1) reason)).1),
        (({ app with diagnosticSequence := app.diagnosticSequence + 1 } : MissionApp).put capacity
          (.diagnostic (app.diagnosticSequence + 1) reason)).2) := by
  unfold MissionApp.ingest
  rw [unread]
  cases failure with
  | own reason => exact ⟨reason, rfl⟩
  | builtin kind => exact ⟨describe kind, if_pos known⟩

/-- Reading a record keeps what is promised exactly when a text that is JSON holds an object. -/
theorem ingests_iff : Ingests describe capacity app raw assertionSequence ↔ Ingestible raw := by
  constructor
  · intro ingests text value isText loaded
    by_contra none
    have escapes : readRecord raw assertionSequence = .error (.builtin .attributeError) := by
      rw [readRecord, isText, recordOf, loaded]
      cases value with
      | dict d => exact absurd ⟨d, rfl⟩ none
      | _ => rfl
    obtain ⟨accepted, returned⟩ := ingests.returns
    unfold MissionApp.ingest at returned
    rw [escapes] at returned
    cases returned
  · intro ingestible
    have known := @caught_readRecord raw assertionSequence ingestible
    constructor
    · rcases read : readRecord raw assertionSequence with failure | _ | e
      · obtain ⟨reason, same⟩ := @ingest_unread describe capacity app _ _ _ read (known _ read)
        exact ⟨_, by rw [same]⟩
      · exact ⟨true, by rw [MissionApp.ingest, read]⟩
      · exact ⟨_, by rw [MissionApp.ingest, read]⟩
    · intro failure unread
      obtain ⟨reason, same⟩ := @ingest_unread describe capacity app _ _ _ unread (known _ unread)
      rw [same]
      rcases @put_counted capacity { app with diagnosticSequence := app.diagnosticSequence + 1 }
        (.diagnostic (app.diagnosticSequence + 1) reason) with queued | refused
      · exact .inl ⟨reason, queued⟩
      · exact .inr refused

end ingest

/-- In every step of the run what is promised holds. -/
def Survives (describe : Builtin → Text) (capacity : Capacity) : MissionApp → List AppStep → Prop
  | _, [] => True
  | app, step :: rest =>
    (match step with
      | .ingest raw assertionSequence => Ingests describe capacity app raw assertionSequence
      | .drain => Drains app) ∧ Survives describe capacity (app.next describe capacity step) rest

/-- Every record of the run can be read or is no object's text, and every drain finds the app drainable. -/
def Bearable (describe : Builtin → Text) (capacity : Capacity) : MissionApp → List AppStep → Prop
  | _, [] => True
  | app, step :: rest =>
    (match step with
      | .ingest raw _ => Ingestible raw
      | .drain => Drainable app) ∧ Bearable describe capacity (app.next describe capacity step) rest

/-- Mission control survives a run of records and drains exactly when it is bearable. -/
theorem mission_survives_iff (describe : Builtin → Text) (capacity : Capacity) (steps : List AppStep) :
    Survives describe capacity .initial steps ↔ Bearable describe capacity .initial steps := by
  generalize MissionApp.initial = app
  induction steps generalizing app with
  | nil => exact Iff.rfl
  | cons step rest ih =>
    cases step with
    | ingest raw assertionSequence => exact and_congr ingests_iff (ih _)
    | drain => exact and_congr (drains_iff app) (ih _)

def fewEvents : Capacity := ⟨256, by omega, by omega⟩

/-- An event that `decode_event` accepts, with a metric of another status. -/
def badMetric : JsonValue := .dict [("schema", .str "sippycup.ui-event/v1"), ("sequence", .int 1),
  ("source", .str "campaign"), ("kind", .str "run.started"),
  ("payload", .dict [("capture", .dict [("status", .str "bad")])])]

/-- A text that holds a list escapes from reading, and a metric of another
status from draining, after the event left the queue and reached the view. -/
theorem records_break_mission :
    let accepted := (MissionApp.initial.ingest (fun _ => "") fewEvents badMetric 1).2
    let drained := accepted.drain MissionApp.drainLimit
    (MissionApp.initial.ingest (fun _ => "") fewEvents (.str "[]") 1).1.isOk = false ∧
      accepted.queue.length = 1 ∧ drained.2 = some .valueError ∧ drained.1.queue.length = 0 ∧
        drained.1.view.phase = .running ∧ drained.1.model.firstRun = true ∧
          ¬ ∀ steps, Survives (fun _ => "") fewEvents .initial steps := by
  refine ⟨by decide +kernel, by decide +kernel, by decide +kernel, by decide +kernel, by decide +kernel,
    by decide +kernel, ?_⟩
  intro survives
  obtain ⟨-, drains, -⟩ := survives [.ingest badMetric 1, .drain]
  have raised : ((MissionApp.initial.next (fun _ => "") fewEvents (.ingest badMetric 1)).drain
      MissionApp.drainLimit).2 = some .valueError := by decide +kernel
  rw [Drains.returns drains] at raised
  cases raised

end Sippycup.Telemetry
