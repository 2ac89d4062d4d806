import Sippycup.Capture.Execution

/-! What is sure to happen at the end of a campaign run. Each step of the `finally` block
leaves the handlers of the run in place when it raises, and the steps after it undone; so
handlers, result and manifest are as they should be exactly when no step raises. -/
namespace Sippycup.Capture
open Sippycup.Machine Sippycup.Machine.Eff

/-- The capture is refused, or cannot be read or replaced. -/
def StrippingFails (answers : FinalAnswers) : Prop :=
  answers.retainPayload = false ∧ ∃ raw, answers.captured = some raw ∧
    ¬ (answers.readCapture = .ok () ∧ (∃ out, stripMediaPayload answers.mediaPorts answers.signalingPorts raw.val = .ok out) ∧
      answers.replaceCapture = .ok ())

/-- Nothing that finalization does raises. -/
structure Clean (answers : FinalAnswers) (p : PhaseEnd) : Prop where
  stop : p.captureStarted = true → answers.stopCapture = .ok ()
  strip : ¬ StrippingFails answers
  opened : answers.openReport = .ok ()
  report : answers.captured ≠ none → ∀ stop code, answers.report = .stopped stop code → stop = .ok ()
  result : answers.writeResult = .ok ()
  timestamps : answers.writeTimestamps = .ok ()
  manifest : answers.writeManifest = .ok ()

/-- The handlers are restored, the final result is written and inventoried, a run whose stripping
failed has not succeeded, and no capture with payload is left that should have none. -/
structure Survives (answers : FinalAnswers) (outcome : Except Failure RunResult) (remains : Remains) : Prop where
  handlers : remains.handlers = .previous
  recorded : ∃ result, remains.result = some result ∧ remains.manifest = some (some result) ∧
    ∀ returned, outcome = .ok returned → returned = result
  refused : StrippingFails answers → ∀ result, remains.result = some result → result.state ≠ "succeeded"
  sanitized : answers.retainPayload = false → ∀ file, remains.capture = some file →
    Stripped answers.mediaPorts answers.signalingPorts file

section steps
variable {answers : FinalAnswers} {p : PhaseEnd}

/-- The capture is as the capture process left it. -/
structure Begun (answers : FinalAnswers) (remains : Remains) : Prop where
  handlers : remains.handlers = .requestCancel
  manifest : remains.manifest = none
  capture : remains.capture = answers.captured.map Subtype.val

/-- The capture is as it may stay. -/
structure Sanitized (answers : FinalAnswers) (remains : Remains) : Prop where
  capture : answers.retainPayload = false → ∀ file, remains.capture = some file →
    Stripped answers.mediaPorts answers.signalingPorts file
  present : remains.capture ≠ none ↔ answers.captured ≠ none

/-- Where a step has raised. -/
def Broken (answers : FinalAnswers) (p : PhaseEnd) (_ : Failure) (remains : Remains) : Prop :=
  ¬ Clean answers p ∧ (remains.handlers = .requestCancel ∨ remains.manifest = none)

/-- An answer of the system: the step goes on only if it is none of failure. -/
theorem answered {α : Type} {P : Remains → Prop} (result : Except Failure α)
    (held : ∀ w, P w → w.handlers = .requestCancel ∨ w.manifest = none)
    (needed : Clean answers p → ∃ a, result = .ok a) :
    Triple P (ofExcept result : Final α) (fun a w => result = .ok a ∧ P w) (Broken answers p) := by
  refine triple_consequence (triple_ofExcept result) (fun _ => id) (fun _ _ => id) ?_
  rintro failure w ⟨raised, before⟩
  refine ⟨fun clean => ?_, held w before⟩
  obtain ⟨a, ok⟩ := needed clean
  rw [ok] at raised
  cases raised

theorem stopCapture_triple : Triple (Begun answers) (stopCapture answers p)
    (fun _ w => (p.captureStarted = true → answers.stopCapture = .ok ()) ∧ Begun answers w) (Broken answers p) := by
  unfold stopCapture
  split
  · rename_i started
    refine triple_consequence (answered answers.stopCapture (fun _ begun => .inl begun.handlers)
      fun clean => ⟨(), clean.stop started⟩) (fun _ => id) ?_ fun _ _ => id
    rintro ⟨⟩ w ⟨ok, begun⟩
    exact ⟨fun _ => ok, begun⟩
  · rename_i unstarted
    exact triple_consequence (triple_pure (Q := fun _ => Begun answers) ()) (fun _ => id)
      (fun _ _ begun => ⟨fun started => absurd started unstarted, begun⟩) fun _ _ broken => broken

/-- The handlers are still those of the run, and the capture is as it may stay. -/
structure Ready (answers : FinalAnswers) (remains : Remains) : Prop where
  handlers : remains.handlers = .requestCancel
  manifest : remains.manifest = none
  sanitized : Sanitized answers remains

theorem got {P : Remains → Prop} {E : Failure → Remains → Prop} :
    Triple P (get : Final Remains) (fun remains w => P remains ∧ P w) E :=
  triple_consequence (triple_get (Q := fun remains w => P remains ∧ P w)) (fun _ holds => ⟨holds, holds⟩)
    (fun _ _ => id) fun _ _ => id

theorem sanitizeCapture_triple : Triple (Begun answers) (sanitizeCapture answers)
    (fun _ w => ¬ StrippingFails answers ∧ Ready answers w) (Broken answers p) := by
  unfold sanitizeCapture
  refine triple_bind got fun remains => triple_fact fun begun => ?_
  have early : ∀ w, Begun answers w → w.handlers = .requestCancel ∨ w.manifest = none :=
    fun _ begun => .inl begun.handlers
  split
  · rename_i raw file unretained
    obtain ⟨octets, captured, rfl⟩ := Option.map_eq_some_iff.mp (begun.capture.symm.trans file)
    have needed (clean : Clean answers p) := not_not.mp fun broken => clean.strip ⟨unretained, octets, captured, broken⟩
    refine triple_bind (answered answers.readCapture early fun clean => ⟨(), (needed clean).1⟩)
      fun _ => triple_fact fun read => ?_
    refine triple_bind (answered _ early fun clean => ?_) fun out => triple_fact fun stripped => ?_
    · obtain ⟨out, ok⟩ := (needed clean).2.1
      exact ⟨out, by rw [ok]; rfl⟩
    refine triple_bind (answered answers.replaceCapture early fun clean => ⟨(), (needed clean).2.2⟩)
      fun _ => triple_fact fun replaced => ?_
    have ok : stripMediaPayload answers.mediaPorts answers.signalingPorts octets.val = .ok out := by
      cases outcome : stripMediaPayload answers.mediaPorts answers.signalingPorts octets.val with
      | error raised =>
        rw [outcome] at stripped
        cases stripped
      | ok found =>
        rw [outcome] at stripped
        cases stripped
        rfl
    refine triple_consequence (triple_modify _) (fun w begun => ?_) (fun _ _ => id) fun _ _ => id
    refine ⟨fun ⟨_, other, held, broken⟩ => ?_, ⟨begun.handlers, begun.manifest, fun _ file found => ?_, ?_⟩⟩
    · cases captured.symm.trans held
      exact broken ⟨read, ⟨out, ok⟩, replaced⟩
    · cases found
      exact stripMediaPayload_stripped octets.property ok
    · exact iff_of_true (Option.some_ne_none _) (by rw [captured]; exact Option.some_ne_none _)
  · rename_i other
    refine triple_consequence (triple_pure (Q := fun _ => Begun answers) _) (fun _ => id) (fun _ w begun => ?_)
      fun _ _ broken => broken
    have kept (retain : answers.retainPayload = false) (raw : Octets) : answers.captured ≠ some raw := by
      intro captured
      refine other raw.val ?_ retain
      rw [Begun.capture ‹_›, captured]
      rfl
    refine ⟨fun ⟨retain, raw, held, _⟩ => kept retain raw held, ⟨begun.handlers, begun.manifest, fun retain file found => ?_, ?_⟩⟩
    · rw [begun.capture] at found
      obtain ⟨raw, held, -⟩ := Option.map_eq_some_iff.mp found
      exact absurd held (kept retain raw)
    · rw [begun.capture, ne_eq, Option.map_eq_none_iff]

/-- What the report step needs of its answers. -/
def Reports (answers : FinalAnswers) : Prop :=
  answers.openReport = .ok () ∧
    (answers.captured ≠ none → ∀ stop code, answers.report = .stopped stop code → stop = .ok ())

theorem reportCode_triple (opened : answers.openReport = .ok ()) {remains : Remains} (ready : Ready answers remains) :
    Triple (Ready answers) (reportCode answers remains.capture) (fun _ w => Reports answers ∧ Ready answers w)
      (Broken answers p) := by
  have gives (code : Option Int) (reports : Reports answers) : Triple (Ready answers) (pure code : Final (Option Int))
      (fun _ w => Reports answers ∧ Ready answers w) (Broken answers p) :=
    triple_consequence (triple_pure (Q := fun _ => Ready answers) code) (fun _ => id) (fun _ _ ready => ⟨reports, ready⟩)
      fun _ _ broken => broken
  unfold reportCode
  split
  · rename_i absent
    exact gives none ⟨opened, fun present => absurd absent (ready.sanitized.present.mpr present)⟩
  · rename_i answer
    exact gives _ ⟨opened, fun _ stop code same => by rw [answer] at same; cases same⟩
  · rename_i answer
    exact gives _ ⟨opened, fun _ stop code same => by rw [answer] at same; cases same⟩
  · rename_i held stop code file answer
    have present : answers.captured ≠ none := ready.sanitized.present.mp (by rw [file]; exact Option.some_ne_none _)
    refine triple_bind (answered stop (fun _ ready => .inl ready.handlers)
      fun clean => ⟨(), clean.report present stop code answer⟩) fun _ => triple_fact fun ok => ?_
    refine gives _ ⟨opened, fun _ other code' same => ?_⟩
    rw [answer] at same
    cases same
    exact ok

theorem makeReport_triple : Triple (Ready answers) (makeReport answers)
    (fun _ w => Reports answers ∧ Ready answers w) (Broken answers p) := by
  have early : ∀ w, Ready answers w → w.handlers = .requestCancel ∨ w.manifest = none :=
    fun _ ready => .inl ready.handlers
  unfold makeReport
  refine triple_bind got fun remains => triple_fact fun ready => ?_
  refine triple_bind (answered answers.openReport early fun clean => ⟨(), clean.opened⟩)
    fun _ => triple_fact fun opened => ?_
  refine triple_bind (reportCode_triple opened ready) fun code => triple_fact fun reports => ?_
  refine triple_bind (Q := fun _ w => Reports answers ∧ Ready answers w) ?_
    fun _ => triple_pure (Q := fun _ w => Reports answers ∧ Ready answers w) code
  exact triple_consequence (triple_modify _) (fun w ready => ⟨reports, ready.handlers, ready.manifest, ready.sanitized.capture, ready.sanitized.present⟩)
    (fun _ _ => id) fun _ _ => id

/-- Restored, recorded and inventoried. -/
structure Recorded (answers : FinalAnswers) (result : RunResult) (remains : Remains) : Prop where
  handlers : remains.handlers = .previous
  written : remains.result = some result
  manifest : remains.manifest = some (some result)
  sanitized : Sanitized answers remains

/-- Either everything is done and no step raised, or one did and something is left undone. -/
theorem finalize_triple : Triple (Begun answers) (finalize answers p)
    (fun result w => Clean answers p ∧ Recorded answers result w) (Broken answers p) := by
  unfold finalize
  refine triple_bind stopCapture_triple fun _ => triple_fact fun stop => ?_
  refine triple_bind sanitizeCapture_triple fun _ => triple_fact fun strip => ?_
  refine triple_bind makeReport_triple fun code => triple_fact fun reports => ?_
  generalize finalResult answers p code = result
  unfold writeResult writeTimestamps restoreHandlers writeManifest
  have early : ∀ w, Ready answers w ∧ w.result = some result → w.handlers = .requestCancel ∨ w.manifest = none :=
    fun _ held => .inl held.1.handlers
  -- result.json
  refine triple_bind (Q := fun _ w => answers.writeResult = .ok () ∧ Ready answers w ∧ w.result = some result) ?_
    fun _ => triple_fact fun written => ?_
  · refine triple_bind (answered answers.writeResult (fun _ ready => .inl ready.handlers)
      fun clean => ⟨(), clean.result⟩) fun _ => triple_fact fun written => ?_
    exact triple_consequence (triple_modify _)
      (fun w ready => ⟨written, ⟨ready.handlers, ready.manifest, ready.sanitized.capture, ready.sanitized.present⟩, rfl⟩)
      (fun _ _ => id) fun _ _ => id
  -- timestamps.json
  refine triple_bind (Q := fun _ w => answers.writeTimestamps = .ok () ∧ Ready answers w ∧ w.result = some result) ?_
    fun _ => triple_fact fun stamped => ?_
  · refine triple_bind (answered answers.writeTimestamps early fun clean => ⟨(), clean.timestamps⟩)
      fun _ => triple_fact fun stamped => ?_
    exact triple_consequence (triple_modify _) (fun w ⟨ready, held⟩ =>
        ⟨stamped, ⟨ready.handlers, ready.manifest, ready.sanitized.capture, ready.sanitized.present⟩, held⟩)
      (fun _ _ => id) fun _ _ => id
  -- the handlers, and then the manifest
  refine triple_bind (Q := fun _ w => w.handlers = .previous ∧ w.manifest = none ∧ Sanitized answers w ∧
    w.result = some result) ?_ fun _ => ?_
  · exact triple_consequence (triple_modify _) (fun w ⟨ready, held⟩ =>
        ⟨rfl, ready.manifest, ⟨ready.sanitized.capture, ready.sanitized.present⟩, held⟩)
      (fun _ _ => id) fun _ _ => id
  refine triple_bind (Q := fun _ w => Clean answers p ∧ Recorded answers result w) ?_
    fun _ => triple_pure (Q := fun result w => Clean answers p ∧ Recorded answers result w) result
  refine triple_bind (answered answers.writeManifest (fun _ held => .inr held.2.1) fun clean => ⟨(), clean.manifest⟩)
    fun _ => triple_fact fun inventoried => ?_
  refine triple_consequence (triple_modify _) (fun w held => ?_) (fun _ _ => id) fun _ _ => id
  obtain ⟨restored, -, sanitized, recorded⟩ := held
  exact ⟨⟨stop, strip, reports.1, reports.2, written, stamped, inventoried⟩, restored, recorded,
    congrArg some recorded, sanitized.capture, sanitized.present⟩

end steps

section runs
variable (run : RunAnswers) (answers : FinalAnswers)

theorem start_begun : Begun answers (Remains.start answers) := ⟨rfl, rfl, rfl⟩

/-- However the run phase ends, finalization survives exactly when no step of it raises. -/
theorem finalization_survives_iff :
    Survives answers (executeCampaign run answers).1 (executeCampaign run answers).2 ↔
      Clean answers (runPhase run) := by
  have triple := finalize_triple (p := runPhase run) _ (start_begun answers)
  unfold executeCampaign
  rcases ran : finalize answers (runPhase run) (Remains.start answers) with ⟨failure | result, remains⟩
  · obtain ⟨unclean, left⟩ := triple.2 _ _ ran
    refine iff_of_false (fun survives => ?_) unclean
    obtain ⟨result, -, inventoried, -⟩ := survives.recorded
    rcases left with handlers | manifest
    · cases handlers.symm.trans survives.handlers
    · cases manifest.symm.trans inventoried
  · obtain ⟨clean, recorded⟩ := triple.1 _ _ ran
    refine iff_of_true ?_ clean
    dsimp only
    have returned (outcome : Except Failure RunResult) (given : outcome = .ok result ∨ ∃ failure, outcome = .error failure) :
        Survives answers outcome remains := by
      refine ⟨recorded.handlers, ⟨result, recorded.written, recorded.manifest, fun other same => ?_⟩,
        fun fails => absurd fails clean.strip, recorded.sanitized.capture⟩
      rcases given with rfl | ⟨failure, rfl⟩
      · exact (Except.ok.inj same).symm
      · cases same
    cases (runPhase run).raised with
    | none => exact returned _ (.inl rfl)
    | some failure => exact returned _ (.inr ⟨failure, rfl⟩)

end runs

section examples

/-- A run that succeeds, with a capture that the capture process left behind. -/
def exampleRun : RunAnswers := ⟨.ready, [], .ok ⟨0, "succeeded", 1⟩, none⟩

def exampleAnswers (captured : Octets) : FinalAnswers where
  retainPayload := false
  mediaPorts := ⟨10000, 10010⟩
  signalingPorts := [5060]
  captureDied := false
  stopCapture := .ok ()
  violation := none
  captured := some captured
  readCapture := .ok ()
  replaceCapture := .ok ()
  openReport := .ok ()
  report := .exits 0
  cancelledInReport := none
  writeResult := .ok ()
  writeTimestamps := .ok ()
  writeManifest := .ok ()

/-- The file header, and the first half of a record header. -/
def truncatedCapture : Octets := ⟨[0xd4, 0xc3, 0xb2, 0xa1] ++ List.replicate 28 0, by decide⟩

/-- A capture cut short inside a record: nothing is restored or written, and the file stays. -/
theorem truncated_capture_escapes :
    executeCampaign exampleRun (exampleAnswers truncatedCapture) =
      (.error (.runtime ⟨"capture record header is truncated"⟩), Remains.start (exampleAnswers truncatedCapture)) ∧
    ¬ Survives (exampleAnswers truncatedCapture) (executeCampaign exampleRun (exampleAnswers truncatedCapture)).1
        (executeCampaign exampleRun (exampleAnswers truncatedCapture)).2 := by
  have outcome : executeCampaign exampleRun (exampleAnswers truncatedCapture) =
      (.error (.runtime ⟨"capture record header is truncated"⟩), Remains.start (exampleAnswers truncatedCapture)) := by
    rfl
  refine ⟨outcome, fun survives => ?_⟩
  have handlers := survives.handlers
  rw [outcome] at handlers
  cases handlers

end examples

end Sippycup.Capture
