import Sippycup.Mission.Controls

/-! Runs of a controller: which of them apply each request at most once and as requested. -/
namespace Sippycup.Mission
open Sippycup.Python Sippycup.Trace

/-- Whether the controller's own checks let the call through to the API. -/
def admits (c : Controller) (call : Invocation) : Bool :=
  decide (call.key.codes ≠ [] ∧ call.key.length ≤ 128) && (c.receipts call.key).isNone &&
    (decide (call.action ∉ dangerous) || (confirm c call).isOk) && (methods.lookup call.action).isSome

/-- An API method was called under the key and raised. -/
def Event.Raises (key : Text) : Event → Prop
  | .invoked call outcome => call.key = key ∧ outcome.called.isSome = true ∧ outcome.result.isOk = false
  | _ => False

/-- A key that has a receipt is used for the receipt's action only, and a key under which an
API method has raised does not get through to the API again. -/
def Step.Met (c : Controller) (past : List Event) : Step → Prop
  | .request _ _ => True
  | .invoke call => (∀ receipt, c.receipts call.key = some receipt → receipt.action = call.action) ∧
      (admits c call = true → ∀ e ∈ past, ¬ e.Raises call.key)

def EachMet : Controller → List Event → List Step → Prop
  | _, _, [] => True
  | c, past, s :: rest =>
    s.Met c past ∧ EachMet (step c s).2 (past ++ (step c s).1) rest

/-- The controller after a confirmation was taken. -/
def Controller.taken (c : Controller) (action : Text) : Controller :=
  if action ∈ dangerous then { c with confirmations := assign c.confirmations action none } else c

/-- What `invoke` can do. -/
inductive Did (c : Controller) (call : Invocation) : Outcome → Controller → Prop where
  | refused (f : Failure) : Did c call ⟨.error f, none, false⟩ c
  | repeated (receipt : Receipt) (held : c.receipts call.key = some receipt) :
    Did c call ⟨.ok receipt, none, false⟩ c
  | unconfirmed (f : Failure) (listed : call.action ∈ dangerous) :
    Did c call ⟨.error f, none, true⟩ (c.taken call.action)
  | raised (method : Method) (error : Text) (named : methods.lookup call.action = some method)
    (passed : admits c call = true) :
    Did c call ⟨.error (.api error), some method, decide (call.action ∈ dangerous)⟩ (c.taken call.action)
  | applied (method : Method) (named : methods.lookup call.action = some method)
    (passed : admits c call = true) :
    Did c call ⟨.ok ⟨call.action, call.phase, true, "campaign API acknowledged"⟩, some method,
        decide (call.action ∈ dangerous)⟩
      { c.taken call.action with
        receipts := assign c.receipts call.key
          (some ⟨call.action, call.phase, true, "campaign API acknowledged"⟩) }

theorem dispatch_did {c : Controller} {call : Invocation}
    (passed : (methods.lookup call.action).isSome = true → admits c call = true) :
    Did c call (dispatch (c.taken call.action) call (decide (call.action ∈ dangerous))).1
      (dispatch (c.taken call.action) call (decide (call.action ∈ dangerous))).2 := by
  have kept : (c.taken call.action).receipts = c.receipts := by
    unfold Controller.taken
    split <;> rfl
  unfold dispatch
  cases named : methods.lookup call.action with
  | none =>
    by_cases listed : call.action ∈ dangerous
    · rw [decide_eq_true listed]
      exact .unconfirmed _ listed
    · have same : c.taken call.action = c := if_neg listed
      rw [decide_eq_false listed, same]
      exact .refused _
  | some method =>
    have passed := passed (by rw [named]; rfl)
    cases outcome : call.apiError with
    | some error => exact .raised method error named passed
    | none =>
      dsimp only
      rw [kept]
      exact .applied method named passed

theorem invoke_did (c : Controller) (call : Invocation) : Did c call (invoke c call).1 (invoke c call).2 := by
  unfold invoke
  split
  · exact .refused _
  · rename_i key
    rw [not_or, Nat.not_lt] at key
    cases held : c.receipts call.key with
    | some receipt => exact .repeated receipt held
    | none =>
      dsimp only
      split
      · rename_i listed
        have taken : c.taken call.action =
            { c with confirmations := assign c.confirmations call.action none } := if_pos listed
        cases checked : confirm c call with
        | error f =>
          dsimp only
          rw [← taken]
          exact .unconfirmed f listed
        | ok _ =>
          dsimp only
          have whole := @dispatch_did c call fun named => by
            simp [admits, key, held, checked, named, Except.isOk, Except.toBool]
          rw [decide_eq_true listed, taken] at whole
          exact whole
      · rename_i other
        have whole := @dispatch_did c call fun named => by
          simp [admits, key, held, other, named]
        have same : c.taken call.action = c := if_neg other
        rw [decide_eq_false other, same] at whole
        exact whole

theorem confirm_ok {c : Controller} {call : Invocation} (ok : (confirm c call).isOk = true) :
    ∃ token, c.confirmations call.action = some token ∧ call.confirmation.getD "" = token.text := by
  unfold confirm at ok
  dsimp only at ok
  cases open_ : c.confirmations call.action with
  | none =>
    rw [open_] at ok
    cases ok
  | some expected =>
    rw [open_] at ok
    dsimp only at ok
    unfold compareDigest at ok
    split at ok
    · cases ok
    · rename_i same compared
      split at compared
      · cases compared
        split at ok
        · rename_i same
          exact ⟨expected, rfl, of_decide_eq_true same⟩
        · cases ok
      · cases compared

theorem taken_receipts (c : Controller) (action : Text) : (c.taken action).receipts = c.receipts := by
  unfold Controller.taken
  split <;> rfl

theorem taken_confirmations {c : Controller} {action name : Text} {token : Token}
    (held : (c.taken action).confirmations name = some token) :
    c.confirmations name = some token ∧ ¬ (action = name ∧ action ∈ dangerous) := by
  unfold Controller.taken at held
  split at held
  · change (if name = action then none else c.confirmations name) = some token at held
    split at held
    · cases held
    · rename_i other
      exact ⟨held, fun both => other both.1.symm⟩
  · rename_i other
    exact ⟨held, fun both => other both.2⟩

section outcomes
variable {c after : Controller} {call : Invocation} {outcome : Outcome}

theorem Did.called (did : Did c call outcome after) (called : outcome.called.isSome = true) :
    admits c call = true ∧ methods.lookup call.action = outcome.called ∧
      outcome.spent = decide (call.action ∈ dangerous) := by
  cases did with
  | refused => cases called
  | repeated => cases called
  | unconfirmed => cases called
  | raised method error named passed => exact ⟨passed, named, rfl⟩
  | applied method named passed => exact ⟨passed, named, rfl⟩

theorem Did.confirmations (did : Did c call outcome after) {action : Text} {token : Token}
    (held : after.confirmations action = some token) :
    c.confirmations action = some token ∧ ¬ (call.action = action ∧ outcome.spent = true) := by
  cases did with
  | refused => exact ⟨held, fun both => Bool.false_ne_true both.2⟩
  | repeated => exact ⟨held, fun both => Bool.false_ne_true both.2⟩
  | unconfirmed f listed =>
    obtain ⟨before, kept⟩ := taken_confirmations held
    exact ⟨before, fun both => kept ⟨both.1, listed⟩⟩
  | raised method error named passed =>
    obtain ⟨before, kept⟩ := taken_confirmations held
    exact ⟨before, fun both => kept ⟨both.1, of_decide_eq_true both.2⟩⟩
  | applied method named passed =>
    obtain ⟨before, kept⟩ := taken_confirmations held
    exact ⟨before, fun both => kept ⟨both.1, of_decide_eq_true both.2⟩⟩

/-- A receipt was there before, or is that of this very call. -/
theorem Did.receipts (did : Did c call outcome after) {key : Text} {receipt : Receipt}
    (held : after.receipts key = some receipt) :
    c.receipts key = some receipt ∨
      (Event.invoked call outcome).Calls key receipt.action := by
  cases did with
  | refused => exact .inl held
  | repeated => exact .inl held
  | unconfirmed f listed => exact .inl (taken_receipts c call.action ▸ held)
  | raised method error named passed => exact .inl (taken_receipts c call.action ▸ held)
  | applied method named passed =>
    change (if key = call.key then _ else c.receipts key) = some receipt at held
    split at held
    · rename_i same
      cases held
      exact .inr ⟨same.symm, rfl, named, rfl⟩
    · exact .inl held

theorem Did.keeps (did : Did c call outcome after) {key : Text} (held : (c.receipts key).isSome = true) :
    (after.receipts key).isSome = true := by
  cases did with
  | refused => exact held
  | repeated => exact held
  | unconfirmed => rwa [taken_receipts]
  | raised => rwa [taken_receipts]
  | applied method named passed =>
    change (if key = call.key then _ else c.receipts key).isSome = true
    split
    · rfl
    · exact held

/-- A call leaves a receipt, or has raised. -/
theorem Did.settles (did : Did c call outcome after) {key : Text}
    (called : (Event.invoked call outcome).CallsUnder key) :
    (after.receipts key).isSome = true ∨ (Event.invoked call outcome).Raises key := by
  obtain ⟨action, same, rfl, -, some_⟩ := called
  cases did with
  | refused => cases some_
  | repeated => cases some_
  | unconfirmed => cases some_
  | raised => exact .inr ⟨same, rfl, rfl⟩
  | applied =>
    refine .inl ?_
    change (if key = call.key then _ else c.receipts key).isSome = true
    rw [if_pos same.symm]
    rfl

/-- A receipt is returned for the key's earlier one, or for the call that was just made. -/
theorem Did.returns (did : Did c call outcome after) {receipt : Receipt} (ok : outcome.result = .ok receipt) :
    c.receipts call.key = some receipt ∨
      receipt.action = call.action ∧ (Event.invoked call outcome).Calls call.key call.action := by
  cases did with
  | refused => cases ok
  | repeated receipt held =>
    cases ok
    exact .inl held
  | unconfirmed => cases ok
  | raised => cases ok
  | applied method named passed =>
    cases ok
    exact .inr ⟨rfl, rfl, rfl, named, rfl⟩

end outcomes

/-- What a controller remembers of its past. -/
structure Remembers (c : Controller) (past : List Event) : Prop where
  applied : Applied past
  receipts : ∀ key receipt, c.receipts key = some receipt → ∃ f ∈ past, f.Calls key receipt.action
  calls : ∀ key, ∀ e ∈ past, e.CallsUnder key → (c.receipts key).isSome = true ∨ e.Raises key
  confirmations : ∀ action token, c.confirmations action = some token →
    Pending (Event.Confirms action token.text) (Event.Uses action) past

theorem remembers_initial : Remembers .initial [] where
  applied := {
    once := fun _ => .nil
    confirmed := fun _ _ _ => guarded_nil
    spends := fun _ _ _ _ member => absurd member List.not_mem_nil
    receipts := fun before e after split => by simp at split }
  receipts := fun _ _ held => by cases held
  calls := fun _ _ member => absurd member List.not_mem_nil
  confirmations := fun _ _ held => by cases held

theorem remembers_request {c : Controller} {past : List Event} {action : Text} (token : Token)
    (remembers : Remembers c past) :
    Remembers { c with confirmations := assign c.confirmations action (some token) }
      (past ++ [.confirmed action token]) where
  applied := {
    once := fun key => by
      refine List.pairwise_append.mpr ⟨remembers.applied.once key, List.pairwise_singleton _ _, ?_⟩
      rintro e - f last ⟨-, other, calls⟩
      rw [List.mem_singleton.mp last] at calls
      exact calls
    confirmed := fun name listed text =>
      guarded_concat.mpr ⟨remembers.applied.confirmed name listed text, fun calls => calls.elim⟩
    spends := fun name listed text e member calls => by
      rcases List.mem_append.mp member with earlier | last
      · exact remembers.applied.spends name listed text e earlier calls
      · rw [List.mem_singleton.mp last] at calls
        exact calls.elim
    receipts := fun before e after split call receipt returns => by
      rcases concat_split split with ⟨rfl, rfl⟩ | ⟨middle, rfl, whole⟩
      · obtain ⟨outcome, same, -⟩ := returns
        cases same
      · exact remembers.applied.receipts before e middle whole call receipt returns }
  receipts := fun key receipt held => by
    obtain ⟨f, member, calls⟩ := remembers.receipts key receipt held
    exact ⟨f, List.mem_append_left _ member, calls⟩
  calls := fun key e member calls => by
    rcases List.mem_append.mp member with earlier | last
    · exact remembers.calls key e earlier calls
    · obtain ⟨other, calls⟩ := calls
      rw [List.mem_singleton.mp last] at calls
      exact calls.elim
  confirmations := fun name given held => by
    change (if name = action then some token else c.confirmations name) = some given at held
    rw [pending_concat]
    split at held
    · rename_i same
      cases held
      exact .inl ⟨same.symm, rfl⟩
    · rename_i other
      exact .inr ⟨remembers.confirmations name given held, fun same => other same.symm⟩

/-- An `invoke` that meets the condition keeps what is remembered. -/
theorem remembers_invoke {c after : Controller} {past : List Event} {call : Invocation} {outcome : Outcome}
    (remembers : Remembers c past) (met : (Step.invoke call).Met c past) (did : Did c call outcome after) :
    Remembers after (past ++ [.invoked call outcome]) where
  applied := {
    once := fun key => by
      refine List.pairwise_append.mpr ⟨remembers.applied.once key, List.pairwise_singleton _ _, ?_⟩
      rintro e earlier f last ⟨before, now⟩
      rw [List.mem_singleton.mp last] at now
      obtain ⟨action, rfl, -, -, some_⟩ := now
      obtain ⟨passed, -, -⟩ := did.called some_
      rcases remembers.calls _ e earlier before with held | raised
      · simp only [admits, Bool.and_eq_true] at passed
        rw [Option.isNone_iff_eq_none.mp passed.1.1.2] at held
        cases held
      · exact met.2 passed e earlier raised
    confirmed := fun action listed token => by
      refine guarded_concat.mpr ⟨remembers.applied.confirmed action listed token, ?_⟩
      rintro ⟨rfl, some_, rfl⟩
      obtain ⟨passed, -, -⟩ := did.called some_
      simp only [admits, Bool.and_eq_true, Bool.or_eq_true, decide_eq_true_eq] at passed
      obtain ⟨given, open_, same⟩ := confirm_ok (passed.1.2.resolve_left fun other => other listed)
      rw [same]
      exact remembers.confirmations _ given open_
    spends := fun action listed token e member calls => by
      rcases List.mem_append.mp member with earlier | last
      · exact remembers.applied.spends action listed token e earlier calls
      · rw [List.mem_singleton.mp last] at calls ⊢
        obtain ⟨rfl, some_, -⟩ := calls
        obtain ⟨-, -, spent⟩ := did.called some_
        exact ⟨rfl, spent.trans (decide_eq_true listed)⟩
    receipts := fun before e rest split other receipt returns => by
      rcases concat_split split with ⟨rfl, rfl⟩ | ⟨middle, rfl, whole⟩
      · obtain ⟨_, same, ok⟩ := returns
        cases same
        rcases did.returns ok with held | ⟨same, calls⟩
        · obtain ⟨f, member, calls⟩ := remembers.receipts _ receipt held
          rw [met.1 receipt held] at calls ⊢
          exact ⟨rfl, f, List.mem_append_left _ member, calls⟩
        · exact ⟨same, _, List.mem_append_right _ (List.mem_singleton.mpr rfl), calls⟩
      · exact remembers.applied.receipts before e middle whole other receipt returns }
  receipts := fun key receipt held => by
    rcases did.receipts held with before | calls
    · obtain ⟨f, member, calls⟩ := remembers.receipts key receipt before
      exact ⟨f, List.mem_append_left _ member, calls⟩
    · exact ⟨_, List.mem_append_right _ (List.mem_singleton.mpr rfl), calls⟩
  calls := fun key e member calls => by
    rcases List.mem_append.mp member with earlier | last
    · exact (remembers.calls key e earlier calls).imp did.keeps id
    · rw [List.mem_singleton.mp last] at calls ⊢
      exact did.settles calls
  confirmations := fun action token held => by
    obtain ⟨before, kept⟩ := did.confirmations held
    exact pending_concat.mpr (.inr ⟨remembers.confirmations action token before, kept⟩)

theorem remembers_step {c : Controller} {past : List Event} {s : Step} (remembers : Remembers c past)
    (met : s.Met c past) : Remembers (step c s).2 (past ++ (step c s).1) := by
  cases s with
  | request action token =>
    by_cases listed : action ∈ dangerous
    · have made : step c (.request action token) = ([.confirmed action token],
          { c with confirmations := assign c.confirmations action (some token) }) := if_pos listed
      rw [made]
      exact remembers_request token remembers
    · have made : step c (.request action token) = ([], c) := if_neg listed
      rwa [made, List.append_nil]
  | invoke call => exact remembers_invoke remembers met (invoke_did c call)

theorem run_applied {c : Controller} {past : List Event} {steps : List Step} (remembers : Remembers c past)
    (met : EachMet c past steps) : Applied (run c past steps) := by
  induction steps generalizing c past with
  | nil => exact remembers.applied
  | cons s rest ih => exact ih (remembers_step remembers met.1) met.2

def graceful (key : Text) (apiError : Option Text) : Invocation :=
  { action := "graceful-stop", phase := "running", key, confirmation := none, apiError }

def emergency (key : Text) (confirmation : Text) : Invocation :=
  { action := "emergency-stop", phase := "running", key, confirmation := some confirmation, apiError := none }

end Sippycup.Mission
