import Mathlib.Data.List.Induction
import Mathlib.Data.List.Nodup

/-! Online pairing of requests with responses that carry the reversed key, for
any keys with an involution: a request opens its key unless the same request did,
a response opens its own key unless something opened the reversed one. Keys are
opened once exactly when no response that finds nothing shares its key with
another opener. -/
namespace Sippycup.Oracle.Pairing

@[ext] structure Message (κ : Type) where
  key : κ
  request : Bool
  deriving DecidableEq

variable {κ : Type} [DecidableEq κ] {reverse : κ → κ}

/-- The first message between the two ends of a key. -/
def firstBetween (reverse : κ → κ) (messages : List (Message κ)) (key : κ) : Option (Message κ) :=
  messages.find? fun message => message.key = key ∨ message.key = reverse key

/-- Nothing that came before opened the reversed key: no request did, and the first message
between the two ends did not travel in its direction. -/
def Unmatched (reverse : κ → κ) (before : List (Message κ)) (key : κ) : Prop :=
  ⟨reverse key, true⟩ ∉ before ∧
    ∀ first ∈ firstBetween reverse before key, first.key ≠ reverse key

theorem firstBetween_reverse (involutive : Function.Involutive reverse)
    (messages : List (Message κ)) (key : κ) :
    firstBetween reverse messages (reverse key) = firstBetween reverse messages key := by
  unfold firstBetween
  congr 1
  funext message
  rw [involutive key, decide_eq_decide]
  exact or_comm

theorem firstBetween_key {messages : List (Message κ)} {key : κ} {first : Message κ}
    (found : firstBetween reverse messages key = some first) :
    first.key = key ∨ first.key = reverse key := by
  have holds := List.find?_some found
  simpa only [decide_eq_true_eq] using holds

theorem firstBetween_none {messages : List (Message κ)} {key : κ}
    (none : firstBetween reverse messages key = none) {message : Message κ}
    (member : message ∈ messages) : ¬ (message.key = key ∨ message.key = reverse key) := by
  have absent := List.find?_eq_none.mp none message member
  simpa only [decide_eq_true_eq] using absent

section run

def receive (reverse : κ → κ) (openers : List (Message κ)) (message : Message κ) :
    List (Message κ) :=
  if message.request then if message ∈ openers then openers else openers ++ [message]
  else if openers.any fun opener => opener.key = reverse message.key then openers
  else openers ++ [message]

def openers (reverse : κ → κ) (messages : List (Message κ)) : List (Message κ) :=
  messages.foldl (receive reverse) []

theorem openers_append (messages : List (Message κ)) (message : Message κ) :
    openers reverse (messages ++ [message]) = receive reverse (openers reverse messages) message := by
  rw [openers, List.foldl_append]
  rfl

theorem mem_receive {opened : List (Message κ)} {message opener : Message κ}
    (member : opener ∈ receive reverse opened message) : opener ∈ opened ∨ opener = message := by
  unfold receive at member
  split at member
  · split at member
    · exact .inl member
    · simpa using member
  · split at member
    · exact .inl member
    · simpa using member

theorem opener_mem {messages : List (Message κ)} {opener : Message κ}
    (member : opener ∈ openers reverse messages) : opener ∈ messages := by
  induction messages using List.reverseRecOn with
  | nil => exact absurd member List.not_mem_nil
  | append_singleton messages message ih =>
    rw [openers_append] at member
    rcases mem_receive member with old | rfl
    · exact List.mem_append_left _ (ih old)
    · simp

theorem receive_grows (opened : List (Message κ)) (message : Message κ) :
    opened <+: receive reverse opened message := by
  unfold receive
  split
  · split
    · exact List.prefix_rfl
    · exact List.prefix_append _ _
  · split
    · exact List.prefix_rfl
    · exact List.prefix_append _ _

theorem request_opener {messages : List (Message κ)} {key : κ} (member : ⟨key, true⟩ ∈ messages) :
    ⟨key, true⟩ ∈ openers reverse messages := by
  induction messages using List.reverseRecOn with
  | nil => exact absurd member List.not_mem_nil
  | append_singleton messages message ih =>
    rw [openers_append]
    rcases List.mem_append.mp member with before | last
    · exact (receive_grows _ message).subset (ih before)
    · obtain rfl := List.mem_singleton.mp last
      unfold receive
      rw [if_pos rfl]
      split
      · assumption
      · simp

/-- A message adds its key unless it is a response to something opened. -/
theorem opened_receive (opened : List (Message κ)) (message : Message κ) (key : κ) :
    (∃ opener ∈ receive reverse opened message, opener.key = key) ↔
      (∃ opener ∈ opened, opener.key = key) ∨
        message.key = key ∧
          (message.request = true ∨ ¬ ∃ opener ∈ opened, opener.key = reverse key) := by
  constructor
  · rintro ⟨opener, member, rfl⟩
    rcases mem_receive member with old | rfl
    · exact .inl ⟨opener, old, rfl⟩
    · unfold receive at member
      split at member
      · rename_i request
        exact .inr ⟨rfl, .inl request⟩
      · split at member
        · exact .inl ⟨opener, member, rfl⟩
        · rename_i unanswered
          refine .inr ⟨rfl, .inr ?_⟩
          simpa using unanswered
  · rintro (⟨opener, old, rfl⟩ | ⟨rfl, free⟩)
    · exact ⟨opener, (receive_grows opened message).subset old, rfl⟩
    · refine ⟨message, ?_, rfl⟩
      unfold receive
      split
      · split
        · assumption
        · simp
      · rename_i response
        have unanswered := free.resolve_left response
        rw [if_neg (by simpa using unanswered)]
        simp

/-- A key has been opened when a request asked for it, or when the first message between its
two ends travelled in its direction. -/
theorem opened_iff (involutive : Function.Involutive reverse) (messages : List (Message κ))
    (key : κ) :
    (∃ opener ∈ openers reverse messages, opener.key = key) ↔
      ⟨key, true⟩ ∈ messages ∨
        ∃ first ∈ firstBetween reverse messages key, first.key = key := by
  induction messages using List.reverseRecOn generalizing key with
  | nil => simp [openers, firstBetween]
  | append_singleton messages message ih =>
    rw [openers_append, opened_receive, ih key, ih (reverse key), firstBetween_reverse involutive,
      List.mem_append, List.mem_singleton]
    have grown : firstBetween reverse (messages ++ [message]) key =
        (firstBetween reverse messages key).or (firstBetween reverse [message] key) :=
      List.find?_append
    rw [grown]
    cases found : firstBetween reverse messages key with
    | some first =>
      have ends := firstBetween_key found
      simp only [Option.some_or, Option.mem_def, Option.some.injEq, exists_eq_left']
      constructor
      · rintro ((asked | first) | ⟨rfl, request | open_⟩)
        · exact .inl (.inl asked)
        · exact .inr first
        · exact .inl (.inr (by rw [← request]))
        · exact .inr (ends.resolve_right fun other => open_ (.inr other))
      · rintro ((asked | rfl) | first)
        · exact .inl (.inl asked)
        · exact .inr ⟨rfl, .inl rfl⟩
        · exact .inl (.inr first)
    | none =>
      have fresh : ∀ m ∈ messages, ¬ (m.key = key ∨ m.key = reverse key) :=
        fun m member => firstBetween_none found member
      have unasked : (⟨key, true⟩ : Message κ) ∉ messages := fun asked => fresh _ asked (.inl rfl)
      have unasked' : (⟨reverse key, true⟩ : Message κ) ∉ messages :=
        fun asked => fresh _ asked (.inr rfl)
      simp only [unasked, unasked', Option.none_or, Option.mem_def, reduceCtorEq, false_and,
        exists_false, or_self, not_false_eq_true, or_true, and_true, false_or]
      constructor
      · rintro rfl
        exact .inr ⟨message, by simp [firstBetween], rfl⟩
      · rintro (rfl | ⟨first, alone, rfl⟩)
        · rfl
        · exact (List.mem_singleton.mp (List.mem_of_find?_eq_some alone)) ▸ rfl

theorem unmatched_iff (involutive : Function.Involutive reverse) (messages : List (Message κ))
    (key : κ) :
    Unmatched reverse messages key ↔
      ¬ ∃ opener ∈ openers reverse messages, opener.key = reverse key := by
  rw [opened_iff involutive, firstBetween_reverse involutive, Unmatched]
  push Not
  rfl

end run

section lone

/-- A response that finds nothing to answer. -/
def Unanswered (reverse : κ → κ) (before : List (Message κ)) (message : Message κ) : Prop :=
  message.request = false ∧ Unmatched reverse before message.key

/-- Two messages with one key of which one is an unanswered response and the other a request or
unanswered too. -/
def Clash (reverse : κ → κ) (before : List (Message κ)) (m : Message κ)
    (between : List (Message κ)) (n : Message κ) : Prop :=
  m.key = n.key ∧
    ((Unanswered reverse before m ∧
        (n.request = true ∨ Unanswered reverse (before ++ m :: between) n)) ∨
      (m.request = true ∧ Unanswered reverse (before ++ m :: between) n))

def LoneOpeners (reverse : κ → κ) (messages : List (Message κ)) : Prop :=
  ∀ before m between n after, messages = before ++ m :: (between ++ n :: after) →
    ¬ Clash reverse before m between n

theorem loneOpeners_append (messages : List (Message κ)) (n : Message κ) :
    LoneOpeners reverse (messages ++ [n]) ↔
      LoneOpeners reverse messages ∧
        ∀ before m between, messages = before ++ m :: between →
          ¬ Clash reverse before m between n := by
  constructor
  · intro lone
    refine ⟨?_, ?_⟩
    · rintro before m between n' after rfl
      exact lone before m between n' (after ++ [n]) (by simp)
    · rintro before m between rfl
      exact lone before m between n [] (by simp)
  · rintro ⟨lone, last⟩ before m between n' after split
    rcases List.eq_nil_or_concat after with rfl | ⟨after, final, rfl⟩
    · rw [← List.cons_append, ← List.append_assoc] at split
      obtain ⟨rfl, same⟩ := List.append_inj' split rfl
      obtain rfl := List.singleton_inj.mp same
      exact last before m between rfl
    · have regroup : before ++ m :: (between ++ n' :: after.concat final) =
          (before ++ m :: (between ++ n' :: after)) ++ [final] := by simp
      rw [regroup] at split
      obtain ⟨rfl, -⟩ := List.append_inj' split rfl
      exact lone before m between n' after rfl

theorem receive_unanswered (involutive : Function.Involutive reverse) {before : List (Message κ)}
    {message : Message κ} (unanswered : Unanswered reverse before message) :
    receive reverse (openers reverse before) message = openers reverse before ++ [message] := by
  have free := (unmatched_iff involutive before message.key).mp unanswered.2
  unfold receive
  rw [if_neg (by simp [unanswered.1]), if_neg (by simpa using free)]

theorem openers_grow (before after : List (Message κ)) :
    openers reverse before <+: openers reverse (before ++ after) := by
  induction after using List.reverseRecOn with
  | nil => simpa only [List.append_nil] using List.prefix_rfl
  | append_singleton after message ih =>
    rw [← List.append_assoc, openers_append]
    exact ih.trans (receive_grows _ message)

theorem unanswered_opener (involutive : Function.Involutive reverse)
    {before between : List (Message κ)} {message : Message κ}
    (unanswered : Unanswered reverse before message) :
    message ∈ openers reverse (before ++ message :: between) := by
  have opened : message ∈ openers reverse (before ++ [message]) := by
    rw [openers_append, receive_unanswered involutive unanswered]
    simp
  have longer : message ∈ openers reverse ((before ++ [message]) ++ between) :=
    (openers_grow (before ++ [message]) between).subset opened
  rwa [List.append_assoc, List.singleton_append] at longer

theorem response_opener (involutive : Function.Involutive reverse) {messages : List (Message κ)}
    {opener : Message κ} (member : opener ∈ openers reverse messages)
    (response : opener.request = false) :
    ∃ before between, messages = before ++ opener :: between ∧
      Unanswered reverse before opener := by
  induction messages using List.reverseRecOn with
  | nil => exact absurd member List.not_mem_nil
  | append_singleton messages message ih =>
    by_cases old : opener ∈ openers reverse messages
    · obtain ⟨before, between, rfl, unanswered⟩ := ih old
      exact ⟨before, between ++ [message], by simp, unanswered⟩
    · rw [openers_append] at member
      obtain rfl := (mem_receive member).resolve_left old
      refine ⟨messages, [], rfl, response, (unmatched_iff involutive messages _).mpr ?_⟩
      intro answered
      unfold receive at member
      rw [if_neg (by simp [response]), if_pos (by simpa using answered)] at member
      exact old member

/-- A message that opens its key is a new request or an unanswered response. -/
theorem receive_cases (involutive : Function.Involutive reverse) (messages : List (Message κ))
    (n : Message κ) :
    receive reverse (openers reverse messages) n = openers reverse messages ∨
      receive reverse (openers reverse messages) n = openers reverse messages ++ [n] ∧
        (n.request = true ∧ n ∉ openers reverse messages ∨ Unanswered reverse messages n) := by
  unfold receive
  by_cases request : n.request = true
  · rw [if_pos request]
    by_cases inside : n ∈ openers reverse messages
    · exact .inl (if_pos inside)
    · exact .inr ⟨if_neg inside, .inl ⟨request, inside⟩⟩
  · rw [if_neg request]
    split
    · exact .inl rfl
    · rename_i free
      refine .inr ⟨rfl, .inr ⟨by simpa using request, ?_⟩⟩
      exact (unmatched_iff involutive messages n.key).mpr (by simpa using free)

/-- Every key is opened once exactly when no two messages clash. -/
theorem openers_nodup_iff (involutive : Function.Involutive reverse)
    (messages : List (Message κ)) :
    ((openers reverse messages).map Message.key).Nodup ↔ LoneOpeners reverse messages := by
  induction messages using List.reverseRecOn with
  | nil =>
    refine ⟨fun _ before m between n after split => ?_, fun _ => List.nodup_nil⟩
    exact absurd split (by simp)
  | append_singleton messages n ih =>
    rw [loneOpeners_append, ← ih, openers_append]
    have old : ∀ m between before, messages = before ++ m :: between → Unanswered reverse before m →
        m ∈ openers reverse messages := by
      rintro m between before rfl unanswered
      exact unanswered_opener involutive unanswered
    constructor
    · intro nodup
      refine ⟨nodup.sublist ((receive_grows _ n).sublist.map _), ?_⟩
      rintro before m between split ⟨same, clash⟩
      have opened : m ∈ openers reverse messages := by
        rcases clash with ⟨unanswered, -⟩ | ⟨request, -⟩
        · exact old m between before split unanswered
        · have asked : ⟨m.key, true⟩ ∈ messages := by
            rw [← request, split]
            simp
          have opener : ⟨m.key, true⟩ ∈ openers reverse messages := request_opener asked
          rwa [← request] at opener
      have fresh : Unanswered reverse messages n → False := by
        intro unanswered
        rw [receive_unanswered involutive unanswered, List.map_append] at nodup
        have apart := (List.nodup_append.mp nodup).2.2 m.key (List.mem_map_of_mem opened) n.key
          (by simp)
        exact apart same
      rcases clash with ⟨unanswered, request | unanswered'⟩ | ⟨-, unanswered'⟩
      · have opened' : m ∈ receive reverse (openers reverse messages) n :=
          (receive_grows _ n).subset opened
        have asked : (⟨n.key, true⟩ : Message κ) ∈ messages ++ [n] := by
          rw [← request]
          simp
        have opener : (⟨n.key, true⟩ : Message κ) ∈ openers reverse (messages ++ [n]) :=
          request_opener asked
        rw [openers_append, ← request] at opener
        have equal := List.inj_on_of_nodup_map nodup opened' opener same
        rw [equal] at unanswered
        exact absurd (unanswered.1.symm.trans request) (by simp)
      · exact fresh (split ▸ unanswered')
      · exact fresh (split ▸ unanswered')
    · rintro ⟨nodup, last⟩
      rcases receive_cases involutive messages n with added | grown
      · rwa [added]
      · rw [grown.1, List.map_append, List.nodup_append]
        refine ⟨nodup, List.nodup_singleton _, ?_⟩
        rintro key member _ single rfl
        obtain ⟨o, opened, same⟩ := List.mem_map.mp member
        rw [List.map_singleton, List.mem_singleton] at single
        have same' : o.key = n.key := same.trans single
        cases kind : o.request with
        | false =>
          obtain ⟨before, between, split, unanswered⟩ := response_opener involutive opened kind
          refine last before o between split ⟨same', .inl ⟨unanswered, ?_⟩⟩
          exact grown.2.imp And.left fun unanswered' => split ▸ unanswered'
        | true =>
          rcases grown.2 with ⟨request, new⟩ | unanswered'
          · have equal : o = n := by
              rw [← request] at kind
              exact Message.ext same' kind
            exact new (equal ▸ opened)
          · obtain ⟨before, between, split⟩ := List.append_of_mem (opener_mem opened)
            exact last before o between split ⟨same', .inr ⟨kind, split ▸ unanswered'⟩⟩

end lone
end Sippycup.Oracle.Pairing
