import Sippycup.Campaign.Generated
import Sippycup.Campaign.SequenceCover

/-! The language of call scripts. The generator's validator and the check of a
generated case accept the same scripts; and the generator selects none at all
exactly when its actions cannot make a script of the requested strength. -/
namespace Sippycup.Campaign
open Sippycup.Python Sippycup.Loop

section agreement
variable {field : String}

theorem validFrom_append (held failed : Bool) (beginning : ActionTuple) :
    validFrom held failed (beginning ++ [.hangup]) = validFrom held failed beginning := by
  induction beginning generalizing held failed with
  | nil => rfl
  | cons action rest ih => cases action <;> simp [validFrom, ih]

/-- The two machines go through the same states, hangup apart. -/
theorem checkActions_isOk {beginning : ActionTuple} (unended : Action.hangup ∉ beginning) (held failed : Bool) :
    (checkActions field held failed (beginning.map Action.name)).isOk = validFrom held failed beginning := by
  induction beginning generalizing held failed with
  | nil => rfl
  | cons action rest ih =>
    obtain ⟨other, later⟩ := not_or.mp (mt List.mem_cons.mpr unended)
    cases failed with
    | true =>
      cases action with
      | hangup => exact absurd rfl other
      | recover => exact ih later held false
      | _ => rfl
    | false =>
      cases action with
      | hangup => exact absurd rfl other
      | hold =>
        cases held with
        | true => rfl
        | false => exact ih later true false
      | resume =>
        cases held with
        | true => exact ih later false false
        | false => rfl
      | failure => exact ih later held true
      | recover => rfl
      | dtmf | reinvite => exact ih later held false

theorem string_action (action : Action) : string (.str action.name) field = .ok action.name := by
  cases action <;> rfl

theorem eachItem_actions (field : Nat → String) (index : Nat) (sequence : ActionTuple) :
    eachItem (fun index item => string item (field index)) index
      (sequence.map fun action => .str action.name) = .ok (sequence.map Action.name) := by
  induction sequence generalizing index with
  | nil => rfl
  | cons action rest ih =>
    rw [List.map_cons, eachItem, string_action, ok_bind, ih]
    rfl

theorem name_known (action : Action) :
    (matrixActions.any fun known => decide (action.name = Text.ofString known)) = true := by
  cases action <;> decide

theorem Action.name_inj {a b : Action} : a.name = b.name ↔ a = b := by
  cases a <;> cases b <;> decide

theorem name_mem {action : Action} {sequence : ActionTuple} :
    action.name ∈ sequence.map Action.name ↔ action ∈ sequence := by
  constructor
  · intro named
    obtain ⟨other, found, same⟩ := List.mem_map.mp named
    rwa [← Action.name_inj.1 same]
  · exact List.mem_map_of_mem

theorem last_name {action : Action} {sequence : ActionTuple} :
    (sequence.map Action.name).getLast? = some action.name ↔ sequence.getLast? = some action := by
  rw [List.getLast?_map, Option.map_eq_some_iff]
  constructor
  · rintro ⟨other, found, same⟩
    rwa [← Action.name_inj.1 same]
  · exact fun found => ⟨action, found, rfl⟩

/-- A generated case with the script. -/
def scripted (sequence : ActionTuple) : Dict :=
  [Dict.entry "actions" (.list (sequence.map fun action => .str action.name))]

theorem generatedActions_scripted (sequence : ActionTuple) :
    (generatedActions (scripted sequence) field).isOk =
      (decide (sequence.getLast? = some .hangup) && !sequence.dropLast.contains .hangup &&
        (checkActions field false false (sequence.dropLast.map Action.name)).isOk) := by
  cases sequence with
  | nil => rfl
  | cons first rest =>
    have read : list (field? (scripted (first :: rest)) "actions") s!"{field}.actions" =
        .ok ((first :: rest).map fun action => .str action.name) := rfl
    unfold generatedActions
    rw [read, ok_bind, eachItem_actions, ok_bind]
    generalize first :: rest = sequence
    have known : (sequence.map Action.name).any (fun action =>
        !matrixActions.any fun known => decide (action = Text.ofString known)) = false := by
      simp [name_known]
    have last : (sequence.map Action.name).getLast? = some (Text.ofString "hangup") ↔
        sequence.getLast? = some .hangup := @last_name .hangup sequence
    have inside : Text.ofString "hangup" ∈ (sequence.map Action.name).dropLast ↔
        Action.hangup ∈ sequence.dropLast := by
      rw [← List.map_dropLast]
      exact @name_mem .hangup sequence.dropLast
    rw [if_neg (by rw [known]; exact Bool.false_ne_true)]
    by_cases ends : sequence.getLast? = some .hangup ∧ Action.hangup ∉ sequence.dropLast
    · obtain ⟨closed, once⟩ := ends
      rw [if_neg (by rw [not_or, not_not, last, inside]; exact ⟨closed, once⟩), ← List.map_dropLast]
      cases checkActions field false false (sequence.dropLast.map Action.name) <;>
        simp [closed, once] <;> rfl
    · rw [if_pos (by rw [ne_eq, last, inside]; tauto)]
      rw [not_and_or, not_not] at ends
      rcases ends with unclosed | twice
      · simp [unclosed, fail, Except.isOk, Except.toBool]
      · simp [twice, fail, Except.isOk, Except.toBool]

/-- The generator's validator and the check of generated cases accept the same scripts. -/
theorem action_validators_agree (sequence : ActionTuple) :
    (generatedActions (scripted sequence) field).isOk = validActionSequence sequence := by
  rw [generatedActions_scripted, validActionSequence]
  cases last : decide (sequence.getLast? = some .hangup) with
  | false => rfl
  | true =>
    obtain ⟨beginning, rfl⟩ := List.getLast?_eq_some_iff.mp (of_decide_eq_true last)
    rw [List.dropLast_concat, validFrom_append]
    cases inside : beginning.contains .hangup with
    | true => rfl
    | false =>
      have unended : Action.hangup ∉ beginning := by simpa using inside
      rw [checkActions_isOk unended]

end agreement

section assignment
variable {texts : List Text} {start : ActionTuple}

/-- Scripts of any length exist: an action may repeat, or two of them alternate. -/
def Unlimited (texts : List Text) : Prop :=
  Action.dtmf.name ∈ texts ∨ Action.reinvite.name ∈ texts ∨
    (Action.hold.name ∈ texts ∧ Action.resume.name ∈ texts) ∨
    Action.failure.name ∈ texts ∧ Action.recover.name ∈ texts

/-- The most actions of a script otherwise: one hold, one failure, and the hangup. -/
def longestScript (texts : List Text) : Nat :=
  (if Action.hold.name ∈ texts then 1 else 0) + (if Action.failure.name ∈ texts then 1 else 0) + 1

/-- The actions make a script of the length, or a longer one. -/
def Scriptable (texts : List Text) (length : Nat) : Prop :=
  Unlimited texts ∨ length ≤ longestScript texts

/-- The two actions in turn. -/
@[grind =] def alternate (first second : Action) : Nat → ActionTuple
  | 0 => []
  | n + 1 => first :: alternate second first n

theorem alternate_length (first second : Action) (n : Nat) : (alternate first second n).length = n := by
  induction n generalizing first second with
  | zero => rfl
  | succ n ih => rw [alternate, List.length_cons, ih]

theorem mem_alternate {first second action : Action} {n : Nat} (member : action ∈ alternate first second n) :
    action = first ∨ action = second := by
  induction n generalizing first second with
  | zero => cases member
  | succ n ih =>
    rcases List.mem_cons.mp member with same | later
    · exact .inl same
    · exact (ih later).symm

theorem alternate_repeats (held : Bool) (n : Nat) :
    validFrom held false (alternate .dtmf .dtmf n) = true ∧
      validFrom held false (alternate .reinvite .reinvite n) = true := by
  induction n with
  | zero => exact ⟨rfl, rfl⟩
  | succ n ih => exact ih

theorem alternate_holds (n : Nat) :
    validFrom false false (alternate .hold .resume n) = true ∧
      validFrom true false (alternate .resume .hold n) = true := by
  induction n with
  | zero => exact ⟨rfl, rfl⟩
  | succ n ih => exact ⟨ih.2, ih.1⟩

theorem alternate_failures (n : Nat) :
    validFrom false false (alternate .failure .recover n) = true ∧
      validFrom false true (alternate .recover .failure n) = true := by
  induction n with
  | zero => exact ⟨rfl, rfl⟩
  | succ n ih => exact ⟨ih.2, ih.1⟩

/-- A beginning that both machines let through, over the given actions. -/
structure Beginning (texts : List Text) (start : ActionTuple) : Prop where
  given : ∀ action ∈ start, action.name ∈ texts
  unended : Action.hangup ∉ start
  valid : validFrom false false start = true

theorem Beginning.alternate {first second : Action} {n : Nat} (one : first.name ∈ texts)
    (two : second.name ∈ texts) (open_ : first ≠ .hangup ∧ second ≠ .hangup)
    (valid : validFrom false false (alternate first second n) = true) :
    Beginning texts (alternate first second n) where
  given := by
    intro action member
    rcases mem_alternate member with rfl | rfl
    · exact one
    · exact two
  unended := by
    intro member
    rcases mem_alternate member with same | same
    · exact open_.1 same.symm
    · exact open_.2 same.symm
  valid := valid

/-- At most one hold and one failure. -/
def shortBeginning (texts : List Text) : ActionTuple :=
  (if Action.hold.name ∈ texts then [.hold] else []) ++
    (if Action.failure.name ∈ texts then [.failure] else [])

theorem shortBeginning_length (texts : List Text) :
    (shortBeginning texts).length + 1 = longestScript texts := by
  rw [shortBeginning, longestScript, List.length_append]
  split <;> split <;> rfl

theorem shortBeginning_take (texts : List Text) (n : Nat) :
    Beginning texts ((shortBeginning texts).take n) where
  given := by
    intro action member
    have among := List.mem_of_mem_take member
    rcases List.mem_append.mp among with held | failed
    · split at held
      · rename_i given
        rwa [List.mem_singleton.mp held]
      · cases held
    · split at failed
      · rename_i given
        rwa [List.mem_singleton.mp failed]
      · cases failed
  unended := by
    intro member
    have among := List.mem_of_mem_take member
    rcases List.mem_append.mp among with held | failed
    · split at held <;> simp at held
    · split at failed <;> simp at failed
  valid := by
    rw [shortBeginning]
    split <;> split <;> match n with
    | 0 | 1 | 2 | n + 3 => rfl

theorem beginning_of_length {n : Nat} (scriptable : Scriptable texts (n + 1)) :
    ∃ start, Beginning texts start ∧ start.length = n := by
  rcases scriptable with (dtmf | reinvite | ⟨hold, resume⟩ | ⟨failure, recover⟩) | short
  · exact ⟨_, .alternate dtmf dtmf (by decide) (alternate_repeats false n).1, alternate_length _ _ n⟩
  · exact ⟨_, .alternate reinvite reinvite (by decide) (alternate_repeats false n).2,
      alternate_length _ _ n⟩
  · exact ⟨_, .alternate hold resume (by decide) (alternate_holds n).1, alternate_length _ _ n⟩
  · exact ⟨_, .alternate failure recover (by decide) (alternate_failures n).1, alternate_length _ _ n⟩
  · refine ⟨_, shortBeginning_take texts n, ?_⟩
    rw [← shortBeginning_length] at short
    exact List.length_take_of_le (Nat.le_of_succ_le_succ short)

/-- After a failure that cannot be recovered nothing follows. -/
theorem failed_stuck {held : Bool} (given : ∀ action ∈ start, action.name ∈ texts)
    (unended : Action.hangup ∉ start) (final_ : Action.recover.name ∉ texts)
    (valid : validFrom held true start = true) : start = [] := by
  cases start with
  | nil => rfl
  | cons action rest =>
    have known := given action List.mem_cons_self
    cases action with
    | hangup => exact absurd List.mem_cons_self unended
    | recover => exact absurd known final_
    | _ => cases valid

/-- A failure ends the script. -/
theorem failure_last {held : Bool} {rest : ActionTuple} (limited : ¬ Unlimited texts)
    (given : ∀ action ∈ Action.failure :: rest, action.name ∈ texts)
    (unended : Action.hangup ∉ Action.failure :: rest)
    (valid : validFrom held false (Action.failure :: rest) = true) :
    Action.failure.name ∈ texts ∧ rest = [] := by
  have known := given _ List.mem_cons_self
  refine ⟨known, failed_stuck (fun action later => given action (List.mem_cons_of_mem _ later))
    (fun later => unended (List.mem_cons_of_mem _ later)) (fun recover => ?_) valid⟩
  exact limited (.inr (.inr (.inr ⟨known, recover⟩)))

theorem held_length (limited : ¬ Unlimited texts) (holds : Action.hold.name ∈ texts)
    (given : ∀ action ∈ start, action.name ∈ texts) (unended : Action.hangup ∉ start)
    (valid : validFrom true false start = true) :
    start.length ≤ if Action.failure.name ∈ texts then 1 else 0 := by
  cases start with
  | nil => exact Nat.zero_le _
  | cons action rest =>
    have known := given action List.mem_cons_self
    cases action with
    | hangup => exact absurd List.mem_cons_self unended
    | dtmf => exact absurd (.inl known) limited
    | reinvite => exact absurd (.inr (.inl known)) limited
    | resume => exact absurd (.inr (.inr (.inl ⟨holds, known⟩))) limited
    | failure =>
      obtain ⟨-, rfl⟩ := failure_last limited given unended valid
      rw [if_pos known]
      exact le_rfl
    | hold | recover => cases valid

theorem Beginning.short (starts : Beginning texts start) (limited : ¬ Unlimited texts) :
    start.length + 1 ≤ longestScript texts := by
  obtain ⟨given, unended, valid⟩ := starts
  cases start with
  | nil => exact Nat.le_add_left 1 _
  | cons action rest =>
    have known := given action List.mem_cons_self
    rw [longestScript]
    cases action with
    | hangup => exact absurd List.mem_cons_self unended
    | dtmf => exact absurd (.inl known) limited
    | reinvite => exact absurd (.inr (.inl known)) limited
    | hold =>
      have rest_ := held_length limited known (fun action later => given action (List.mem_cons_of_mem _ later))
        (fun later => unended (List.mem_cons_of_mem _ later)) valid
      rw [if_pos known, List.length_cons]
      omega
    | failure =>
      obtain ⟨-, rfl⟩ := failure_last limited given unended valid
      rw [if_pos known]
      simp
    | resume | recover => cases valid

/-- The scripts of a length over the actions. -/
theorem scriptable_iff {n : Nat} :
    Scriptable texts (n + 1) ↔ ∃ start, Beginning texts start ∧ n ≤ start.length := by
  constructor
  · intro scriptable
    obtain ⟨start, starts, length⟩ := beginning_of_length scriptable
    exact ⟨start, starts, length.ge⟩
  · rintro ⟨start, starts, long⟩
    by_cases unlimited : Unlimited texts
    · exact .inl unlimited
    · exact .inr ((Nat.succ_le_succ long).trans (starts.short unlimited))

/-- A valid script is a beginning and the hangup. -/
theorem validWithin_iff {sequence : ActionTuple} {limit : Nat} (hangup : Action.hangup.name ∈ texts) :
    ValidWithin texts limit sequence ↔
      ∃ start, Beginning texts start ∧ sequence = start ++ [.hangup] ∧ start.length + 1 ≤ limit := by
  constructor
  · rintro ⟨among, valid, short⟩
    obtain ⟨start, rfl, unended⟩ := validActionSequence_ends valid
    rw [validActionSequence, Bool.and_eq_true, validFrom_append] at valid
    rw [List.length_append] at short
    exact ⟨start, ⟨fun action member => among action (List.mem_append_left _ member), unended, valid.2⟩,
      rfl, short⟩
  · rintro ⟨start, ⟨given, unended, valid⟩, rfl, short⟩
    refine ⟨fun action member => ?_, ?_, ?_⟩
    · rcases List.mem_append.mp member with early | last
      · exact given action early
      · rwa [List.mem_singleton.mp last]
    · rw [validActionSequence, validFrom_append, valid, List.dropLast_concat]
      simp [unended]
    · rw [List.length_append]
      exact short

/-- `sequences.sequences[index % len(sequences.sequences)]` -/
def sequenceAt (sequences : List ActionTuple) (index : Nat) : Result ActionTuple :=
  if sequences.length = 0 then .error (.builtin .arithmeticError)
  else match sequences[index % sequences.length]? with
    | some sequence => .ok sequence
    | none => .error (.builtin .indexError)

theorem sequenceAt_isOk {sequences : List ActionTuple} {index : Nat} :
    (sequenceAt sequences index).isOk = true ↔ sequences ≠ [] := by
  unfold sequenceAt
  split
  · rename_i empty
    rw [List.length_eq_zero_iff.mp empty]
    exact iff_of_false Bool.false_ne_true (fun some_ => some_ rfl)
  · rename_i some_
    have inside := Nat.mod_lt index (Nat.pos_of_ne_zero some_)
    rw [List.getElem?_eq_getElem inside]
    exact iff_of_true rfl fun empty => some_ (List.length_eq_zero_iff.mpr empty)

section selection
variable {κ : Type} [LinearOrder κ] {stableKey : Nat → String → Value → κ} {model : SequenceModel}

theorem selection_ends {fuel : Nat} {done : Selection} (exact_ : model.Exact texts)
    (ran : Loop.run (model.turn stableKey) fuel { uncovered := model.required, selected := [] } =
      some (.ok done)) : done.Covering model ∧ done.uncovered = [] := by
  obtain ⟨found, succeeded, covering, nothing⟩ := selection_succeeds stableKey exact_
  have same : some (Except.ok done : Result Selection) = some (.ok found) :=
    (run_mono ran (Nat.le_max_left _ _)).symm.trans (run_mono succeeded (Nat.le_max_right _ _))
  rw [Except.ok.inj (Option.some.inj same)]
  exact ⟨covering, nothing⟩

/-- Nothing is selected exactly when nothing is required. -/
theorem selected_iff {fuel : Nat} {done : Selection} (exact_ : model.Exact texts)
    (ran : Loop.run (model.turn stableKey) fuel { uncovered := model.required, selected := [] } =
      some (.ok done)) : done.selected ≠ [] ↔ model.required ≠ [] := by
  constructor
  · intro some_ none
    cases fuel with
    | zero => cases ran
    | succ fuel =>
      rw [none, run, SequenceModel.turn] at ran
      cases ran
      exact some_ rfl
  · intro some_ none
    obtain ⟨tuple, required⟩ := List.exists_mem_of_ne_nil _ some_
    obtain ⟨covering, nothing⟩ := selection_ends exact_ ran
    rcases covering.settled tuple required with waiting | ⟨sequence, selected, -⟩
    · rw [nothing] at waiting
      cases waiting
    · rw [none] at selected
      cases selected

theorem readBounded_bounds {value : Value} {minimum maximum : Int} {message : String} {n : Nat}
    (read : readBounded value minimum maximum message = .ok n) (positive : 0 ≤ minimum) :
    minimum ≤ n ∧ (n : Int) ≤ maximum := by
  have same := readBounded_ok positive read
  subst same
  simp only [readBounded] at read
  split at read
  · assumption
  · cases read

theorem prepareSequences_bounds {maxActions strength seed : Value}
    (prepared : prepareSequences texts maxActions strength seed = .ok model) :
    (0 < model.strength ∧ model.strength ≤ model.maxActions) ∧ Action.hangup.name ∈ texts := by
  unfold prepareSequences at prepared
  obtain ⟨n, -, prepared⟩ := bind_ok.1 prepared
  obtain ⟨limit, bounded, prepared⟩ := bind_ok.1 prepared
  obtain ⟨size, sized, prepared⟩ := bind_ok.1 prepared
  obtain ⟨actions, read, prepared⟩ := bind_ok.1 prepared
  obtain ⟨found, gathered, prepared⟩ := bind_ok.1 prepared
  obtain rfl := pure_ok.1 prepared
  obtain ⟨hangup, named⟩ := readActions_ok read
  have bounds := readBounded_bounds sized (by decide)
  exact ⟨by dsimp only; omega, (named .hangup).mp hangup⟩

theorem required_iff {maxActions strength seed : Value}
    (prepared : prepareSequences texts maxActions strength seed = .ok model) :
    model.required ≠ [] ↔ Scriptable texts model.strength := by
  obtain ⟨-, -, exact_⟩ := prepareSequences_ok prepared
  obtain ⟨⟨positive, bounded⟩, hangup⟩ := prepareSequences_bounds prepared
  obtain ⟨n, size⟩ := Nat.exists_eq_add_of_lt positive
  rw [Nat.zero_add] at size
  constructor
  · intro some_
    obtain ⟨tuple, required⟩ := List.exists_mem_of_ne_nil _ some_
    obtain ⟨length, sequence, candidate, within⟩ := (exact_.required tuple).mp required
    obtain ⟨start, starts, rfl, -⟩ := (validWithin_iff hangup).mp ((exact_.candidates sequence).mp candidate)
    have long := within.length_le
    rw [length, size, List.length_append] at long
    rw [size]
    exact scriptable_iff.2 ⟨start, starts, Nat.le_of_succ_le_succ long⟩
  · intro scriptable
    rw [size] at scriptable
    obtain ⟨start, starts, length⟩ := beginning_of_length scriptable
    have candidate := (exact_.candidates _).mpr ((validWithin_iff hangup).mpr
      ⟨start, starts, rfl, by rw [length, ← size]; exact bounded⟩)
    refine List.ne_nil_of_mem ((exact_.required (start ++ [Action.hangup])).mpr ⟨?_, _, candidate, .refl _⟩)
    rw [List.length_append, length, size]
    rfl

/-- The cyclic index is defined exactly when the actions make a script of the strength. -/
theorem cyclic_index_defined {maxActions strength seed : Value} {fuel : Nat} {cover : SequenceCover}
    (generated : generateEventSequences stableKey texts maxActions strength seed fuel = some (.ok cover)) :
    ∃ n : Nat, strength = .int n ∧
      (cover.sequences ≠ [] ↔ Scriptable texts n) ∧
      ((∀ index, (sequenceAt cover.sequences index).isOk = true) ↔ Scriptable texts n) := by
  unfold generateEventSequences at generated
  cases prepared : prepareSequences texts maxActions strength seed with
  | error raised =>
    rw [prepared] at generated
    cases generated
  | ok model =>
    rw [prepared, Option.map_eq_some_iff] at generated
    obtain ⟨outcome, ran, mapped⟩ := generated
    cases outcome with
    | error raised => cases mapped
    | ok done =>
      cases mapped
      obtain ⟨-, size, exact_⟩ := prepareSequences_ok prepared
      have selected : done.selected ≠ [] ↔ Scriptable texts model.strength :=
        (selected_iff exact_ ran).trans (required_iff prepared)
      refine ⟨model.strength, size, selected, ?_⟩
      simp only [sequenceAt_isOk]
      exact forall_const Nat |>.trans selected

end selection

/-- Two actions are asked for, and the hangup alone makes only scripts of one. -/
theorem hangup_alone_divides_by_zero :
    ∃ cover : SequenceCover, generateEventSequences (fun _ _ _ => (0 : Nat)) ["hangup"] (.int 2) (.int 2)
        (.int 0) 1 = some (.ok cover) ∧
      sequenceAt cover.sequences 0 = .error (.builtin .arithmeticError) := by
  let cover : SequenceCover := { sequences := [], requiredTuples := [], seed := 0, maxActions := 2,
                                 excludedTuples := [[.hangup, .hangup]], interactionStrength := 2 }
  exact ⟨cover, by decide +kernel, rfl⟩

theorem single_script_is_indexed :
    ∃ n : Nat, Value.int 1 = .int n ∧ ([[Action.hangup]] ≠ [] ↔ Scriptable ["hangup"] n) ∧
      ((∀ index, (sequenceAt [[.hangup]] index).isOk = true) ↔ Scriptable ["hangup"] n) := by
  have generated : generateEventSequences (fun _ _ _ => (0 : Nat)) ["hangup"] (.int 2) (.int 1) (.int 0) 2 =
      some (.ok { sequences := [[.hangup]], requiredTuples := [[.hangup]], excludedTuples := [], seed := 0,
                  interactionStrength := 1, maxActions := 2 }) := by
    decide +kernel
  exact cyclic_index_defined generated

end assignment
end Sippycup.Campaign
