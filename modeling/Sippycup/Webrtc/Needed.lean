import Sippycup.Webrtc.Shrinking

/-! How many revisions a finding takes: that many are always there, and in a longer transcript one of them can be
deleted with the finding kept. -/
namespace Sippycup.Webrtc.Sdp
open Sippycup.Python

section classes
variable {policy : Policy} {standing other : Standing} {revision : Revision} {code : FindingCode} {index : Nat}

/-- The codes of an answer or a rollback without an offer. -/
def unopenedCodes : List FindingCode := [.rollbackWithoutPendingOffer, .answerWithoutOffer]

/-- The codes of a revision that does not go with the pending offer. -/
def openedCodes : List FindingCode := [.rollbackByWrongActor, .offerWhilePending, .glare, .answerByOfferer]

/-- The findings of a revision on its own. -/
def Policy.ownFound (policy : Policy) (index : Nat) (revision : Revision) : Result (List Finding) :=
  if revision.kind = .rollback then .ok [] else policy.checkDescription index revision

/-- The findings of a revision beside what came before it. -/
def Policy.moveFound (policy : Policy) (standing : Standing) (index : Nat) (revision : Revision) : Result (List Finding) :=
  match revision.kind with
  | .rollback => .ok (Policy.rollbackFound standing index revision)
  | .offer => .ok (policy.offerFound standing index revision)
  | .answer => policy.answerFound standing index revision

theorem found_parts {found : List Finding} : policy.found standing index revision = .ok found ↔
    ∃ own move, policy.ownFound index revision = .ok own ∧ policy.moveFound standing index revision = .ok move ∧
      found = own ++ move := by
  unfold Policy.found Policy.ownFound Policy.moveFound
  cases revision.kind with
  | rollback =>
    constructor
    · intro added
      exact ⟨[], _, rfl, rfl, (Except.ok.inj added).symm⟩
    · rintro ⟨own, move, own_eq, move_eq, rfl⟩
      cases own_eq
      cases move_eq
      rfl
  | offer =>
    simp only [bind_ok, pure_ok]
    constructor
    · rintro ⟨own, checked, rfl⟩
      exact ⟨own, _, checked, rfl, rfl⟩
    · rintro ⟨own, move, checked, move_eq, rfl⟩
      cases move_eq
      exact ⟨own, checked, rfl⟩
  | answer =>
    simp only [bind_ok, pure_ok]
    constructor
    · rintro ⟨own, checked, move, answered, rfl⟩
      exact ⟨own, move, checked, answered, rfl⟩
    · rintro ⟨own, move, checked, answered, rfl⟩
      exact ⟨own, checked, move, answered, rfl⟩

theorem ownFound_codes {own : List Finding} (checked : policy.ownFound index revision = .ok own) :
    Within descriptionCodes own := by
  unfold Policy.ownFound at checked
  split at checked
  · cases checked
    exact fun finding member => by cases member
  · exact checkDescription_codes checked

/-- What a finding beside the pass says about it. -/
inductive Calls (policy : Policy) (standing : Standing) (revision : Revision) (code : FindingCode) : Prop
  | unopened (listed : code ∈ unopenedCodes) (closed : standing.pending = none)
  | opened (listed : code ∈ openedCodes ++ pairCodes) (pending : standing.pending.isSome = true)
  | retry (same : code = .retryWithoutRollback) (kind : revision.kind = .offer)
    (guarded : policy.negotiation.requireRollbackBeforeRetry = true) (required : revision.actor ∈ standing.rollbackRequired)
  | restart (listed : code ∈ restartCodes) (pending : standing.pending.isSome = true) (stable : standing.stable.isSome = true)

theorem rollback_calls {finding : Finding} (member : finding ∈ Policy.rollbackFound standing index revision) :
    Calls policy standing revision finding.code := by
  unfold Policy.rollbackFound at member
  cases pending : standing.pending with
  | none =>
    rw [pending] at member
    rw [List.mem_singleton.mp member]
    exact .unopened (show FindingCode.rollbackWithoutPendingOffer ∈ unopenedCodes by decide) pending
  | some offer =>
    rw [pending] at member
    exact .opened (List.mem_append_left _ (within_failIf (by decide) finding member)) (by rw [pending]; rfl)

theorem offer_calls {finding : Finding} (kind : revision.kind = .offer)
    (member : finding ∈ policy.offerFound standing index revision) : Calls policy standing revision finding.code := by
  unfold Policy.offerFound at member
  rcases List.mem_append.mp member with retry | move
  · cases guarded : standing.rollbackRequired.contains revision.actor && policy.negotiation.requireRollbackBeforeRetry with
    | false =>
      rw [guarded] at retry
      cases retry
    | true =>
      rw [guarded] at retry
      rw [List.mem_singleton.mp retry]
      rw [Bool.and_eq_true, List.contains_eq_mem, decide_eq_true_eq] at guarded
      exact .retry rfl kind guarded.2 guarded.1
  · cases pending : standing.pending with
    | none =>
      rw [pending] at move
      cases move
    | some offer =>
      rw [pending] at move
      have listed : finding.code ∈ openedCodes := by
        dsimp only at move
        split at move
        · rw [List.mem_singleton.mp move]
          exact (by decide : FindingCode.offerWhilePending ∈ openedCodes)
        · exact within_failIf (by decide) finding move
      exact .opened (List.mem_append_left _ listed) (by rw [pending]; rfl)

theorem answer_calls {move : List Finding} (answered : policy.answerFound standing index revision = .ok move)
    {finding : Finding} (member : finding ∈ move) : Calls policy standing revision finding.code := by
  unfold Policy.answerFound at answered
  cases pending : standing.pending with
  | none =>
    rw [pending] at answered
    cases answered
    rw [List.mem_singleton.mp member]
    exact .unopened (show FindingCode.answerWithoutOffer ∈ unopenedCodes by decide) pending
  | some offer =>
    have opens : standing.pending.isSome = true := by rw [pending]; rfl
    rw [pending] at answered
    dsimp only at answered
    split at answered
    · cases answered
      rw [List.mem_singleton.mp member]
      exact .opened (show FindingCode.answerByOfferer ∈ openedCodes ++ pairCodes by decide) opens
    · rcases (mem_checkPair answered finding).mp member with head | ⟨mid, offered, answered', -, own | restart⟩
      · exact .opened (List.mem_append_right _ (pairHead_codes finding head)) opens
      · obtain ⟨part, compared, inside⟩ := own
        exact .opened (List.mem_append_right _ (checkAnswered_codes compared finding inside)) opens
      · refine .restart (restartFound_codes finding restart) opens ?_
        cases stable : standing.stable with
        | none =>
          rw [stable] at restart
          cases restart
        | some pair => rfl

theorem move_calls {move : List Finding} (moved : policy.moveFound standing index revision = .ok move)
    {finding : Finding} (member : finding ∈ move) : Calls policy standing revision finding.code := by
  unfold Policy.moveFound at moved
  cases kind : revision.kind with
  | rollback =>
    rw [kind] at moved
    cases moved
    exact rollback_calls member
  | offer =>
    rw [kind] at moved
    cases moved
    exact offer_calls kind member
  | answer =>
    rw [kind] at moved
    exact answer_calls moved member

/-- A revision reports a finding of its own, or beside the pass. -/
theorem emits_cases (emits : Emits policy standing revision code) :
    code ∈ descriptionCodes ∨ Calls policy standing revision code := by
  obtain ⟨found, added, finding, member, rfl⟩ := emits
  obtain ⟨own, move, checked, moved, rfl⟩ := found_parts.1 added
  rcases List.mem_append.mp member with first | second
  · exact .inl (ownFound_codes checked finding first)
  · exact .inr (move_calls moved second)

end classes

section transfer
variable {policy : Policy} {standing other : Standing} {revision : Revision} {code : FindingCode}

theorem emits_allowed (emits : Emits policy standing revision code) :
    ∀ sect ∈ revision.media, sect.kind ∈ policy.media.allowedKinds := by
  obtain ⟨found, added, -⟩ := emits
  obtain ⟨own, move, checked, -⟩ := found_parts.1 added
  unfold Policy.ownFound at checked
  split at checked
  · rename_i rolls
    rw [revision.bare rolls]
    exact nofun
  · exact (Policy.checkDescription_total 0).mp ⟨own, checked⟩

/-- A finding moves to another standing where the findings beside the pass do. -/
theorem Emits.transfer (emits : Emits policy standing revision code)
    (moves : ∀ move move', policy.moveFound standing 0 revision = .ok move →
      policy.moveFound other 0 revision = .ok move' → ∀ finding ∈ move, finding.code = code →
        ∃ finding' ∈ move', finding'.code = code) :
    Emits policy other revision code := by
  obtain ⟨found', added'⟩ := found_total other 0 (emits_allowed emits)
  obtain ⟨found, added, finding, member, same⟩ := emits
  obtain ⟨own, move, checked, moved, rfl⟩ := found_parts.1 added
  obtain ⟨own', move', checked', moved', rfl⟩ := found_parts.1 added'
  obtain rfl := Except.ok.inj (checked.symm.trans checked')
  rcases List.mem_append.mp member with first | second
  · exact ⟨_, added', finding, List.mem_append_left _ first, same⟩
  · obtain ⟨finding', member', same'⟩ := moves move move' moved moved' finding second same
    exact ⟨_, added', finding', List.mem_append_right _ member', same'⟩

/-- A finding of a description does not depend on what came before. -/
theorem Emits.described (emits : Emits policy standing revision code) (listed : code ∈ descriptionCodes) :
    Emits policy other revision code := by
  refine emits.transfer fun move move' moved _ finding member same => ?_
  have apart : ∀ code ∈ descriptionCodes, code ∉ unopenedCodes ∧ code ∉ openedCodes ++ pairCodes ∧
      code ≠ .retryWithoutRollback ∧ code ∉ restartCodes := by decide
  obtain ⟨unopened, opened, retry, restart⟩ := apart code listed
  have calls := move_calls moved member
  rw [same] at calls
  cases calls with
  | unopened listed => exact absurd listed unopened
  | opened listed => exact absurd listed opened
  | retry same => exact absurd same retry
  | restart listed => exact absurd listed restart

/-- A finding but that of a retry depends on the pending offer and, for a restart, on the completed pair. -/
theorem Emits.keep (emits : Emits policy standing revision code) (notRetry : code ≠ .retryWithoutRollback)
    (pending : other.pending = standing.pending) (stable : code ∈ restartCodes → other.stable = standing.stable) :
    Emits policy other revision code := by
  refine emits.transfer fun move move' moved moved' finding member same => ?_
  unfold Policy.moveFound at moved moved'
  cases kind : revision.kind with
  | rollback =>
    rw [kind] at moved moved'
    cases moved
    cases moved'
    refine ⟨finding, ?_, same⟩
    unfold Policy.rollbackFound at member ⊢
    rwa [pending]
  | offer =>
    rw [kind] at moved moved'
    cases moved
    cases moved'
    refine ⟨finding, ?_, same⟩
    unfold Policy.offerFound at member ⊢
    rcases List.mem_append.mp member with retry | rest
    · have listed : finding.code ∈ [FindingCode.retryWithoutRollback] := within_failIf List.mem_cons_self finding retry
      exact absurd (same.symm.trans (List.mem_singleton.mp listed)) notRetry
    · rw [pending]
      exact List.mem_append_right _ rest
  | answer =>
    rw [kind] at moved moved'
    dsimp only at moved moved'
    refine ⟨finding, ?_, same⟩
    unfold Policy.answerFound at moved moved'
    rw [pending] at moved'
    cases open_ : standing.pending with
    | none =>
      rw [open_] at moved moved'
      cases moved
      cases moved'
      exact member
    | some offer =>
      rw [open_] at moved moved'
      dsimp only at moved moved'
      split at moved
      · rename_i own
        rw [if_pos own] at moved'
        cases moved
        cases moved'
        exact member
      · rename_i own
        rw [if_neg own] at moved'
        rw [mem_checkPair moved'] 
        rcases (mem_checkPair moved finding).mp member with head | ⟨mid, offered, answered, paired, compared | restart⟩
        · exact .inl head
        · exact .inr ⟨mid, offered, answered, paired, .inl compared⟩
        · rw [stable (same ▸ restartFound_codes finding restart)]
          exact .inr ⟨mid, offered, answered, paired, .inr restart⟩

/-- The finding of a retry depends on who has to roll back. -/
theorem Emits.retry (emits : Emits policy standing revision .retryWithoutRollback)
    (required : revision.actor ∈ other.rollbackRequired) : Emits policy other revision .retryWithoutRollback := by
  refine emits.transfer fun move move' moved moved' finding member same => ?_
  have calls := move_calls moved member
  rw [same] at calls
  cases calls with
  | unopened listed => exact absurd listed (by decide)
  | opened listed => exact absurd listed (by decide)
  | restart listed => exact absurd listed (by decide)
  | retry _ kind guarded _ =>
    unfold Policy.moveFound at moved'
    rw [kind] at moved'
    cases moved'
    refine ⟨⟨.retryWithoutRollback, 0, revision.actor.name⟩, List.mem_append_left _ ?_, rfl⟩
    rw [List.contains_eq_mem, decide_eq_true required, guarded]
    exact List.mem_singleton_self _

end transfer

section need
variable {policy : Policy} {revisions : List Revision} {code : FindingCode}

/-- How many revisions a finding takes. -/
def need (code : FindingCode) : Nat :=
  if code ∈ restartCodes then 4
  else if code = .retryWithoutRollback then 3
  else if code ∈ openedCodes ++ pairCodes then 2
  else 1

theorem need_cases (code : FindingCode) :
    (code ∈ descriptionCodes ∧ need code = 1) ∨ (code ∈ unopenedCodes ∧ need code = 1) ∨
    (code ∈ openedCodes ++ pairCodes ∧ need code = 2) ∨ (code = .retryWithoutRollback ∧ need code = 3) ∨
    (code ∈ restartCodes ∧ need code = 4) := by
  cases code <;> decide

/-- The kinds of codes exclude one another. -/
theorem apart_codes (code : FindingCode) :
    (code ∈ unopenedCodes → code ∉ descriptionCodes ∧ code ∉ openedCodes ++ pairCodes ∧ code ≠ .retryWithoutRollback ∧
      code ∉ restartCodes) ∧
    (code ∈ openedCodes ++ pairCodes → code ∉ descriptionCodes ∧ code ≠ .retryWithoutRollback ∧ code ∉ restartCodes) ∧
    (code ∈ restartCodes → code ∉ descriptionCodes ∧ code ≠ .retryWithoutRollback) := by
  cases code <;> decide

theorem emits_unopened {standing : Standing} {revision : Revision} (emits : Emits policy standing revision code)
    (listed : code ∈ unopenedCodes) : standing.pending = none := by
  obtain ⟨own, opened, retry, restart⟩ := (apart_codes code).1 listed
  rcases emits_cases emits with described | calls
  · exact absurd described own
  · cases calls with
    | unopened _ closed => exact closed
    | opened listed => exact absurd listed opened
    | retry same => exact absurd same retry
    | restart listed => exact absurd listed restart

theorem emits_opened {standing : Standing} {revision : Revision} (emits : Emits policy standing revision code)
    (listed : code ∈ openedCodes ++ pairCodes) : standing.pending.isSome = true := by
  obtain ⟨own, retry, restart⟩ := (apart_codes code).2.1 listed
  rcases emits_cases emits with described | calls
  · exact absurd described own
  · cases calls with
    | unopened listed' => exact absurd listed ((apart_codes code).1 listed').2.1
    | opened _ pending => exact pending
    | retry same => exact absurd same retry
    | restart listed => exact absurd listed restart

theorem emits_restart {standing : Standing} {revision : Revision} (emits : Emits policy standing revision code)
    (listed : code ∈ restartCodes) : standing.pending.isSome = true ∧ standing.stable.isSome = true := by
  obtain ⟨own, retry⟩ := (apart_codes code).2.2 listed
  rcases emits_cases emits with described | calls
  · exact absurd described own
  · cases calls with
    | unopened listed' => exact absurd listed ((apart_codes code).1 listed').2.2.2
    | opened listed' => exact absurd listed ((apart_codes code).2.1 listed').2.2
    | retry same => exact absurd same retry
    | restart _ pending stable => exact ⟨pending, stable⟩

theorem emits_retry {standing : Standing} {revision : Revision}
    (emits : Emits policy standing revision .retryWithoutRollback) : revision.actor ∈ standing.rollbackRequired := by
  rcases emits_cases emits with described | calls
  · exact absurd described (by decide)
  · cases calls with
    | unopened listed => exact absurd listed (by decide)
    | opened listed => exact absurd listed (by decide)
    | retry _ _ _ required => exact required
    | restart listed => exact absurd listed (by decide)

theorem need_le (produces : Produces policy code revisions) : need code ≤ revisions.length := by
  obtain ⟨before, revision, rest, rfl, emits⟩ := produces
  have long : before.length + 1 ≤ (before ++ revision :: rest).length := by
    rw [List.length_append, List.length_cons]
    omega
  refine le_trans ?_ long
  rcases need_cases code with ⟨-, takes⟩ | ⟨-, takes⟩ | ⟨listed, takes⟩ | ⟨rfl, takes⟩ | ⟨listed, takes⟩ <;> rw [takes]
  · omega
  · omega
  · obtain ⟨offer, pending⟩ := Option.isSome_iff_exists.mp (emits_opened emits listed)
    obtain ⟨front, last, rfl, -⟩ := exists_last pending
    rw [List.length_append, List.length_singleton]
    omega
  · have := rollback_long (emits_retry emits)
    omega
  · obtain ⟨opens, completed⟩ := emits_restart emits listed
    obtain ⟨offer, pending⟩ := Option.isSome_iff_exists.mp opens
    obtain ⟨pair, stable⟩ := Option.isSome_iff_exists.mp completed
    have := restart_long pending stable
    omega

/-- In a transcript with more revisions than a finding takes one can be deleted before the revision that
reports it. -/
theorem emits_shrinks {before : List Revision} {revision : Revision} (emits : Emits policy (stand policy before) revision code)
    (long : need code ≤ before.length) :
    ∃ i, i < before.length ∧ Emits policy (stand policy (before.eraseIdx i)) revision code := by
  rcases need_cases code with ⟨listed, takes⟩ | ⟨listed, takes⟩ | ⟨listed, takes⟩ | ⟨rfl, takes⟩ | ⟨listed, takes⟩ <;>
    rw [takes] at long
  · exact ⟨0, long, emits.described listed⟩
  · obtain ⟨-, -, retry, restart⟩ := (apart_codes code).1 listed
    have closed := emits_unopened emits listed
    exact ⟨0, long, emits.keep retry ((closed_tail closed).trans closed.symm) fun listed => absurd listed restart⟩
  · obtain ⟨-, retry, restart⟩ := (apart_codes code).2.1 listed
    obtain ⟨offer, pending⟩ := Option.isSome_iff_exists.mp (emits_opened emits listed)
    obtain ⟨i, inside, still⟩ := pending_shrinks pending long
    exact ⟨i, inside, emits.keep retry (still.trans pending.symm) fun listed => absurd listed restart⟩
  · obtain ⟨i, inside, still⟩ := rollback_shrinks (emits_retry emits) long
    exact ⟨i, inside, emits.retry still⟩
  · obtain ⟨-, retry⟩ := (apart_codes code).2.2 listed
    obtain ⟨offer, pending⟩ := Option.isSome_iff_exists.mp (emits_restart emits listed).1
    obtain ⟨i, inside, still, stable⟩ := restart_shrinks pending long
    exact ⟨i, inside, emits.keep retry (still.trans pending.symm) fun _ => stable⟩

/-- In a transcript with more revisions than a finding takes one can be deleted with the finding kept. -/
theorem produces_shrinks (produces : Produces policy code revisions) (long : need code < revisions.length) :
    ∃ i, i < revisions.length ∧ Produces policy code (revisions.eraseIdx i) := by
  obtain ⟨before, revision, rest, rfl, emits⟩ := produces
  rw [List.length_append, List.length_cons] at long ⊢
  cases rest with
  | nil =>
    rw [List.length_nil] at long
    obtain ⟨i, inside, still⟩ := emits_shrinks emits (by omega)
    refine ⟨i, by omega, before.eraseIdx i, revision, [], ?_, still⟩
    rw [List.eraseIdx_append_of_lt_length inside]
  | cons next rest =>
    refine ⟨before.length + 1, by rw [List.length_cons]; omega, before, revision, rest, ?_, emits⟩
    rw [List.eraseIdx_append_of_length_le (by omega), Nat.add_sub_cancel_left]
    rfl

end need

end Sippycup.Webrtc.Sdp
