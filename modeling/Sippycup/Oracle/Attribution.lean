import Sippycup.Oracle.Media

/-! Media attribution: a frame goes to the one dialog it fits strictly best, and to none if the best
score is shared. The negotiated pairs are those that are active at some time. -/
namespace Sippycup.Oracle
open Python

section scores
variable {scores : List Nat} {i j : Nat}

/-- The score at the index is positive and above all others. -/
def Wins (scores : List Nat) (i : Nat) : Prop :=
  ∃ best, scores[i]? = some best ∧ 0 < best ∧ ∀ j other : Nat, scores[j]? = some other → j ≠ i → other < best

/-- The score at the index is positive, above none, and some other is equal. -/
def Shares (scores : List Nat) (i : Nat) : Prop :=
  ∃ best, scores[i]? = some best ∧ 0 < best ∧ (∀ j other : Nat, scores[j]? = some other → other ≤ best) ∧
    ∃ j : Nat, j ≠ i ∧ scores[j]? = some best

theorem score_le_best (found : scores[i]? = some j) : j ≤ scores.foldl max 0 :=
  (le_foldl_max scores 0).2 j (List.mem_of_getElem? found)

theorem getD_of_found {best : Nat} (found : scores[i]? = some best) : scores.getD i 0 = best := by
  rw [List.getD_eq_getElem?_getD, found]
  rfl

theorem foldl_max_le {top : Nat} (bound : ∀ s ∈ scores, s ≤ top) (start : Nat) (low : start ≤ top) :
    scores.foldl max start ≤ top := by
  induction scores generalizing start with
  | nil => exact low
  | cons first rest ih =>
    refine ih (fun s member => bound s (List.mem_cons_of_mem first member)) _ ?_
    exact max_le low (bound first List.mem_cons_self)

theorem mem_candidateLegs : i ∈ candidateLegs scores ↔
    ∃ best, scores[i]? = some best ∧ 0 < best ∧ ∀ j other : Nat, scores[j]? = some other → other ≤ best := by
  rw [candidateLegs, List.mem_filter, List.mem_range]
  simp only [Bool.and_eq_true, decide_eq_true_eq]
  constructor
  · rintro ⟨inside, best, positive⟩
    have found : scores[i]? = some scores[i] := List.getElem?_eq_getElem inside
    rw [getD_of_found found] at best positive
    refine ⟨scores[i], found, positive, fun j other at_ => ?_⟩
    rw [best]
    exact score_le_best at_
  · rintro ⟨best, found, positive, most⟩
    obtain ⟨inside, -⟩ := List.getElem?_eq_some_iff.mp found
    rw [getD_of_found found]
    refine ⟨inside, le_antisymm (score_le_best found) (foldl_max_le ?_ 0 (Nat.zero_le best)), positive⟩
    intro s member
    obtain ⟨k, at_⟩ := List.mem_iff_getElem?.mp member
    exact most k s at_

theorem candidateLegs_nodup : (candidateLegs scores).Nodup := List.nodup_range.filter _

theorem candidates_equal (one : i ∈ candidateLegs scores) (other : j ∈ candidateLegs scores) :
    scores[i]? = scores[j]? := by
  obtain ⟨best, found, -, most⟩ := mem_candidateLegs.1 one
  obtain ⟨best', found', -, most'⟩ := mem_candidateLegs.1 other
  rw [found, found', le_antisymm (most' _ _ found) (most _ _ found')]

theorem candidateLegs_single : candidateLegs scores = [i] ↔ Wins scores i := by
  constructor
  · intro single
    obtain ⟨best, found, positive, most⟩ := mem_candidateLegs.1 (single ▸ List.mem_singleton_self i)
    refine ⟨best, found, positive, fun j other at_ distinct => lt_of_le_of_ne (most j other at_) ?_⟩
    rintro rfl
    have candidate : j ∈ candidateLegs scores := mem_candidateLegs.2 ⟨other, at_, positive, most⟩
    rw [single] at candidate
    exact distinct (List.mem_singleton.mp candidate)
  · rintro ⟨best, found, positive, above⟩
    have most : ∀ j other : Nat, scores[j]? = some other → other ≤ best := by
      intro j other at_
      by_cases same : j = i
      · subst same
        exact le_of_eq (Option.some.inj (at_.symm.trans found))
      · exact (above j other at_ same).le
    refine List.perm_singleton.mp ((List.perm_ext_iff_of_nodup candidateLegs_nodup (List.nodup_singleton i)).mpr ?_)
    intro j
    rw [List.mem_singleton]
    constructor
    · intro candidate
      by_contra distinct
      obtain ⟨own, at_, -, top⟩ := mem_candidateLegs.1 candidate
      exact absurd (above j own at_ distinct) (not_lt.2 (top i best found))
    · rintro rfl
      exact mem_candidateLegs.2 ⟨best, found, positive, most⟩

theorem shares_iff : Shares scores i ↔ i ∈ candidateLegs scores ∧ candidateLegs scores ≠ [i] := by
  constructor
  · rintro ⟨best, found, positive, most, j, distinct, equal⟩
    refine ⟨mem_candidateLegs.2 ⟨best, found, positive, most⟩, fun single => distinct ?_⟩
    have candidate : j ∈ candidateLegs scores := mem_candidateLegs.2 ⟨best, equal, positive, most⟩
    rw [single] at candidate
    exact List.mem_singleton.mp candidate
  · rintro ⟨candidate, several⟩
    obtain ⟨best, found, positive, most⟩ := mem_candidateLegs.1 candidate
    have other : ∃ j ∈ candidateLegs scores, j ≠ i := by
      by_contra none
      push Not at none
      refine several (List.perm_singleton.mp ?_)
      refine (List.perm_ext_iff_of_nodup candidateLegs_nodup (List.nodup_singleton i)).mpr fun j => ?_
      rw [List.mem_singleton]
      exact ⟨none j, fun same => same ▸ candidate⟩
    obtain ⟨j, member, distinct⟩ := other
    exact ⟨best, found, positive, most, j, distinct, (candidates_equal member candidate).trans found⟩

theorem wins_unique (one : Wins scores i) (other : Wins scores j) : i = j := by
  have same := (candidateLegs_single.2 one).symm.trans (candidateLegs_single.2 other)
  exact List.singleton_inj.mp same

theorem not_shares_of_wins (wins : Wins scores i) : ¬ Shares scores j := by
  intro shares
  obtain ⟨candidate, several⟩ := shares_iff.1 shares
  rw [candidateLegs_single.2 wins] at candidate several
  exact several (by rw [List.mem_singleton.mp candidate])

end scores

section partition
variable {dialogs : List DialogRecord} {frame : MediaFrame} {i : Nat}

theorem appendAt_getElem? {α : Type} (lists : List (List α)) (index : Nat) (item : α) :
    (appendAt lists index item)[i]? = lists[i]?.map fun items => if index = i then items ++ [item] else items := by
  rw [appendAt, List.getElem?_modify]
  by_cases same : index = i <;> simp [same]

theorem appendEach_getElem? {α : Type} (lists : List (List α)) (indices : List Nat) (distinct : indices.Nodup)
    (item : α) : (indices.foldl (fun lists index => appendAt lists index item) lists)[i]? =
      lists[i]?.map fun items => if i ∈ indices then items ++ [item] else items := by
  induction indices generalizing lists with
  | nil => simp
  | cons first rest ih =>
    obtain ⟨fresh, distinct⟩ := List.nodup_cons.mp distinct
    rw [List.foldl_cons, ih _ distinct, appendAt_getElem?, Option.map_map]
    congr 1
    funext items
    by_cases same : first = i
    · subst same
      simp [fresh]
    · simp [same, Ne.symm same]

open Classical in
theorem place_assigned (partition : Partition) : (partition.place dialogs frame).assigned[i]? =
    partition.assigned[i]?.map fun leg => if Wins (scores dialogs frame) i then leg ++ [frame] else leg := by
  unfold Partition.place
  split
  · rename_i none
    have loses : ¬ Wins (scores dialogs frame) i := fun wins => by
      rw [candidateLegs_single.2 wins] at none
      cases none
    simp [loses]
  · rename_i index single
    rw [appendAt_getElem?]
    simp only [← candidateLegs_single, single, List.singleton_inj]
  · rename_i candidates _ several
    have loses : ¬ Wins (scores dialogs frame) i := fun wins => several i (candidateLegs_single.2 wins)
    simp [loses]

open Classical in
theorem place_ambiguous (partition : Partition) : (partition.place dialogs frame).ambiguous[i]? =
    partition.ambiguous[i]?.map fun shared =>
      if Shares (scores dialogs frame) i then shared ++ [frame.evidence] else shared := by
  unfold Partition.place
  split
  · rename_i none
    simp [shares_iff, none]
  · rename_i index single
    have alone : ¬ Shares (scores dialogs frame) i := not_shares_of_wins (candidateLegs_single.1 single)
    simp [alone]
  · rename_i candidates _ several
    rw [appendEach_getElem? _ _ candidateLegs_nodup]
    have alone : candidateLegs (scores dialogs frame) ≠ [i] := fun single => several i single
    congr 1
    funext shared
    simp only [shares_iff, alone, ne_eq, not_false_eq_true, and_true]

open Classical in
/-- A run over frames appends to each leg the frames that the leg wins. -/
theorem placed_assigned (frames : List MediaFrame) (partition : Partition) :
    (frames.foldl (Partition.place dialogs) partition).assigned[i]? =
      partition.assigned[i]?.map (· ++ frames.filter fun frame => decide (Wins (scores dialogs frame) i)) := by
  induction frames generalizing partition with
  | nil => simp
  | cons first rest ih =>
    rw [List.foldl_cons, ih, place_assigned, Option.map_map]
    congr 1
    funext leg
    by_cases wins : Wins (scores dialogs first) i <;> simp [wins]

open Classical in
theorem placed_ambiguous (frames : List MediaFrame) (partition : Partition) :
    (frames.foldl (Partition.place dialogs) partition).ambiguous[i]? =
      partition.ambiguous[i]?.map
        (· ++ (frames.filter fun frame => decide (Shares (scores dialogs frame) i)).map fun frame => frame.evidence) := by
  induction frames generalizing partition with
  | nil => simp
  | cons first rest ih =>
    rw [List.foldl_cons, ih, place_ambiguous, Option.map_map]
    congr 1
    funext shared
    by_cases shares : Shares (scores dialogs first) i <;> simp [shares]

theorem partition_of_many (frames : List MediaFrame) (many : 2 ≤ dialogs.length) :
    partitionMediaFrames frames dialogs =
      (mediaFrames frames).foldl (Partition.place dialogs) ⟨dialogs.map fun _ => [], dialogs.map fun _ => []⟩ := by
  match dialogs, many with
  | _ :: _ :: _, _ => rfl

/-- What the attribution of frames to dialogs owes. -/
structure Attributed (frames : List MediaFrame) (dialogs : List DialogRecord) (partition : Partition) : Prop where
  /-- One leg and one list of evidence for each dialog, and no others. -/
  legs : ∀ i : Nat, partition.assigned[i]?.isSome = true ↔ i < dialogs.length
  shared : ∀ i : Nat, partition.ambiguous[i]?.isSome = true ↔ i < dialogs.length
  /-- A leg holds, in the order of capture, the media frames that its dialog wins. -/
  won : ∀ (i : Nat) (leg : List MediaFrame), partition.assigned[i]? = some leg →
    leg.Sublist (mediaFrames frames) ∧ ∀ frame, frame ∈ leg ↔ frame ∈ mediaFrames frames ∧ Wins (scores dialogs frame) i
  /-- Every occurrence of a frame is in the leg that wins it. -/
  count : ∀ (i : Nat) (leg : List MediaFrame) (frame : MediaFrame), partition.assigned[i]? = some leg → Wins (scores dialogs frame) i →
    leg.count frame = (mediaFrames frames).count frame
  exclusive : ∀ (i j : Nat) (leg other : List MediaFrame) (frame : MediaFrame), partition.assigned[i]? = some leg → partition.assigned[j]? = some other →
    frame ∈ leg → frame ∈ other → i = j
  /-- The evidence of a frame is withheld by exactly the dialogs that share its best score. -/
  ambiguous : ∀ (i : Nat) (evidence : List EvidenceRef), partition.ambiguous[i]? = some evidence → ∃ withheld : List MediaFrame,
    withheld.Sublist (mediaFrames frames) ∧ evidence = withheld.map (fun frame => frame.evidence) ∧
      (∀ frame, frame ∈ withheld ↔ frame ∈ mediaFrames frames ∧ Shares (scores dialogs frame) i) ∧
      ∀ frame, Shares (scores dialogs frame) i → withheld.count frame = (mediaFrames frames).count frame
  /-- A frame with a shared best score is in no leg. -/
  withheld : ∀ (i j : Nat) (leg : List MediaFrame) (frame : MediaFrame), partition.assigned[i]? = some leg → Shares (scores dialogs frame) j → frame ∉ leg
  /-- A frame that fits no dialog is won and shared by none. -/
  nowhere : ∀ (frame : MediaFrame) (i : Nat), (∀ s ∈ scores dialogs frame, s = 0) →
    ¬ Wins (scores dialogs frame) i ∧ ¬ Shares (scores dialogs frame) i

open Classical in
/-- Media attribution is exclusive. -/
theorem attribution_exclusive (frames : List MediaFrame) (dialogs : List DialogRecord) (many : 2 ≤ dialogs.length) :
    Attributed frames dialogs (partitionMediaFrames frames dialogs) := by
  have assigned (i : Nat) : (partitionMediaFrames frames dialogs).assigned[i]? =
      dialogs[i]?.map fun _ => (mediaFrames frames).filter fun frame => decide (Wins (scores dialogs frame) i) := by
    rw [partition_of_many frames many, placed_assigned, List.getElem?_map, Option.map_map]
    rfl
  have ambiguous (i : Nat) : (partitionMediaFrames frames dialogs).ambiguous[i]? = dialogs[i]?.map fun _ =>
      ((mediaFrames frames).filter fun frame => decide (Shares (scores dialogs frame) i)).map fun frame => frame.evidence := by
    rw [partition_of_many frames many, placed_ambiguous, List.getElem?_map, Option.map_map]
    rfl
  have leg_eq {i : Nat} {leg : List MediaFrame} (found : (partitionMediaFrames frames dialogs).assigned[i]? = some leg) :
      leg = (mediaFrames frames).filter fun frame => decide (Wins (scores dialogs frame) i) := by
    rw [assigned, Option.map_eq_some_iff] at found
    obtain ⟨_, _, rfl⟩ := found
    rfl
  have wins_of_mem {i : Nat} {leg : List MediaFrame} {frame : MediaFrame}
      (found : (partitionMediaFrames frames dialogs).assigned[i]? = some leg) (member : frame ∈ leg) :
      Wins (scores dialogs frame) i := by
    rw [leg_eq found, List.mem_filter] at member
    exact of_decide_eq_true member.2
  constructor
  · intro i
    rw [assigned, Option.isSome_map, isSome_getElem?]
  · intro i
    rw [ambiguous, Option.isSome_map, isSome_getElem?]
  · intro i leg found
    rw [leg_eq found]
    refine ⟨List.filter_sublist, fun frame => ?_⟩
    rw [List.mem_filter, decide_eq_true_iff]
  · intro i leg frame found wins
    rw [leg_eq found]
    exact List.count_filter (decide_eq_true wins)
  · intro i j leg other frame found found' member member'
    exact wins_unique (wins_of_mem found member) (wins_of_mem found' member')
  · intro i evidence found
    rw [ambiguous, Option.map_eq_some_iff] at found
    obtain ⟨_, _, rfl⟩ := found
    refine ⟨_, List.filter_sublist, rfl, fun frame => ?_, fun frame shares => ?_⟩
    · rw [List.mem_filter, decide_eq_true_iff]
    · exact List.count_filter (decide_eq_true shares)
  · intro i j leg frame found shares member
    exact not_shares_of_wins (wins_of_mem found member) shares
  · intro frame i zero
    constructor
    · rintro ⟨best, found, positive, -⟩
      exact positive.ne' (zero best (List.mem_of_getElem? found))
    · rintro ⟨best, found, positive, -, -⟩
      exact positive.ne' (zero best (List.mem_of_getElem? found))

theorem two_calls_attributed :
    2 ≤ [DialogRecord.negotiated "10.0.0.1" "10.0.0.2", DialogRecord.negotiated "10.0.0.1" "10.0.0.3"].length ∧
    Attributed [.packet (.known 2) "10.0.0.1" "10.0.0.2" 7 (.known 160)]
      [DialogRecord.negotiated "10.0.0.1" "10.0.0.2", DialogRecord.negotiated "10.0.0.1" "10.0.0.3"]
      (partitionMediaFrames [.packet (.known 2) "10.0.0.1" "10.0.0.2" 7 (.known 160)]
        [DialogRecord.negotiated "10.0.0.1" "10.0.0.2", DialogRecord.negotiated "10.0.0.1" "10.0.0.3"]) :=
  ⟨by decide, attribution_exclusive _ _ (by decide)⟩

end partition

section pairs

/-- The two searches await the same answer, and the active pair is one of those found. -/
structure Agree (pair : ActivePair) (found : SuccessfulPairs) : Prop where
  pending : pair.pendingOffer = found.pending
  active : (pair.offer = none ∧ pair.answer = none) ∨
    ∃ offer answer, pair.offer = some offer ∧ pair.answer = some answer ∧ (offer, answer) ∈ found.pairs

theorem SuccessfulPairs.step_answer {found : SuccessfulPairs} {offer answer : NegotiatedSdpRevision}
    (role : answer.role = .answer) (lenient : answer.lenient = true) (pending : found.pending = some offer) :
    (found.step answer).pending = some offer ∧
      ∀ pair, pair ∈ (found.step answer).pairs ↔ pair ∈ found.pairs ∨ pair = (offer, answer) := by
  simp only [SuccessfulPairs.step, role, lenient, pending]
  by_cases known : (offer, answer) ∈ found.pairs
  · rw [if_pos known]
    refine ⟨pending, fun pair => ⟨.inl, ?_⟩⟩
    rintro (member | rfl)
    · exact member
    · exact known
  · rw [if_neg known]
    exact ⟨rfl, fun pair => by simp⟩

/-- A revision adds no pair unless it is a lenient answer to a pending offer. -/
theorem SuccessfulPairs.step_other {found : SuccessfulPairs} {revision : NegotiatedSdpRevision}
    (other : ¬ (revision.role = .answer ∧ revision.lenient = true ∧ found.pending.isSome = true)) :
    (found.step revision).pairs = found.pairs := by
  unfold SuccessfulPairs.step
  cases role : revision.role with
  | offer => rfl
  | unknown => rfl
  | answer =>
    cases lenient : revision.lenient with
    | false =>
      dsimp only
      split <;> rfl
    | true =>
      cases pending : found.pending with
      | none =>
        dsimp only
        split <;> rfl
      | some offer => exact absurd ⟨role, lenient, by rw [pending]; rfl⟩ other

theorem Agree.step {pair : ActivePair} {found : SuccessfulPairs} (agree : Agree pair found)
    (revision : NegotiatedSdpRevision) : Agree (pair.step revision) (found.step revision) := by
  obtain ⟨pending, active⟩ := agree
  by_cases answered : revision.role = .answer ∧ revision.lenient = true ∧ found.pending.isSome = true
  · obtain ⟨role, lenient, waiting⟩ := answered
    obtain ⟨offer, found_eq⟩ := Option.isSome_iff_exists.mp waiting
    obtain ⟨pending', pairs⟩ := SuccessfulPairs.step_answer role lenient found_eq
    have stepped : pair.step revision = ⟨some offer, some offer, some revision⟩ := by
      simp [ActivePair.step, role, lenient, pending, found_eq]
    rw [stepped]
    exact ⟨pending'.symm, .inr ⟨offer, revision, rfl, rfl, (pairs _).mpr (.inr rfl)⟩⟩
  · have kept := SuccessfulPairs.step_other answered
    refine ⟨?_, ?_⟩
    · unfold ActivePair.step SuccessfulPairs.step
      cases role : revision.role with
      | offer => rfl
      | unknown => exact pending
      | answer =>
        cases lenient : revision.lenient with
        | false => by_cases failed : revision.failed <;> simp [failed, pending]
        | true =>
          cases waiting : found.pending with
          | none => by_cases failed : revision.failed <;> simp [failed, pending, waiting]
          | some offer => exact absurd ⟨role, lenient, by rw [waiting]; rfl⟩ answered
    · have same : (pair.step revision).offer = pair.offer ∧ (pair.step revision).answer = pair.answer := by
        unfold ActivePair.step
        cases role : revision.role with
        | offer => exact ⟨rfl, rfl⟩
        | unknown => exact ⟨rfl, rfl⟩
        | answer =>
          have idle : (revision.lenient && pair.pendingOffer.isSome) = false := by
            rw [pending, Bool.and_eq_false_imp]
            intro lenient
            exact Bool.eq_false_iff.mpr fun waiting => answered ⟨role, lenient, waiting⟩
          simp only [idle, Bool.false_eq_true, if_false]
          split <;> exact ⟨rfl, rfl⟩
      rw [same.1, same.2, kept]
      exact active

theorem SuccessfulPairs.step_keeps (found : SuccessfulPairs) (revision : NegotiatedSdpRevision) :
    found.pairs ⊆ (found.step revision).pairs := by
  intro pair member
  by_cases answered : revision.role = .answer ∧ revision.lenient = true ∧ found.pending.isSome = true
  · obtain ⟨role, lenient, waiting⟩ := answered
    obtain ⟨offer, found_eq⟩ := Option.isSome_iff_exists.mp waiting
    exact ((SuccessfulPairs.step_answer role lenient found_eq).2 pair).mpr (.inl member)
  · rw [SuccessfulPairs.step_other answered]
    exact member

theorem SuccessfulPairs.run_keeps (revisions : List NegotiatedSdpRevision) (found : SuccessfulPairs) :
    found.pairs ⊆ (revisions.foldl SuccessfulPairs.step found).pairs := by
  induction revisions generalizing found with
  | nil => exact List.Subset.refl _
  | cons first rest ih => exact List.Subset.trans (step_keeps found first) (ih _)

/-- The search for the active pair agrees with the collection over a part of the history. -/
theorem Agree.follow {pair : ActivePair} {found : SuccessfulPairs} (agree : Agree pair found) (at_ : Option Rat)
    (revisions : List NegotiatedSdpRevision) : ∃ found', Agree (pair.follow at_ revisions) found' ∧
      found'.pairs ⊆ (revisions.foldl SuccessfulPairs.step found).pairs := by
  induction revisions generalizing pair found with
  | nil => exact ⟨found, agree, List.Subset.refl _⟩
  | cons first rest ih =>
    rw [ActivePair.follow]
    by_cases later : first.isAfter at_
    · rw [if_pos later]
      exact ⟨found, agree, SuccessfulPairs.run_keeps (first :: rest) found⟩
    · rw [if_neg later]
      exact ih (agree.step first)

/-- Every pair found was completed at a revision, by a lenient answer to the offer pending there. -/
theorem SuccessfulPairs.completed {revisions : List NegotiatedSdpRevision} {offer answer : NegotiatedSdpRevision}
    (member : (offer, answer) ∈ (revisions.foldl SuccessfulPairs.step .none).pairs) :
    ∃ before after, revisions = before ++ answer :: after ∧ answer.role = .answer ∧ answer.lenient = true ∧
      (before.foldl SuccessfulPairs.step .none).pending = some offer := by
  induction revisions using List.reverseRecOn with
  | nil => cases member
  | append_singleton revisions last ih =>
    rw [List.foldl_concat] at member
    have earlier (known : (offer, answer) ∈ (revisions.foldl SuccessfulPairs.step .none).pairs) :
        ∃ before after, revisions ++ [last] = before ++ answer :: after ∧ answer.role = .answer ∧
          answer.lenient = true ∧ (before.foldl SuccessfulPairs.step .none).pending = some offer := by
      obtain ⟨before, after, split, completed⟩ := ih known
      exact ⟨before, after ++ [last], by rw [split]; simp, completed⟩
    by_cases answered : last.role = .answer ∧ last.lenient = true ∧
        (revisions.foldl SuccessfulPairs.step .none).pending.isSome = true
    · obtain ⟨role, lenient, waiting⟩ := answered
      obtain ⟨pending, found_eq⟩ := Option.isSome_iff_exists.mp waiting
      rcases ((SuccessfulPairs.step_answer role lenient found_eq).2 _).mp member with known | same
      · exact earlier known
      · obtain ⟨rfl, rfl⟩ := Prod.mk.inj same
        exact ⟨revisions, [], rfl, role, lenient, found_eq⟩
    · rw [SuccessfulPairs.step_other answered] at member
      exact earlier member

theorem ActivePair.follow_append {pair : ActivePair} {at_ : Option Rat} {before : List NegotiatedSdpRevision}
    (due : ∀ revision ∈ before, revision.isAfter at_ = false) (after : List NegotiatedSdpRevision) :
    pair.follow at_ (before ++ after) = (before.foldl ActivePair.step pair).follow at_ after := by
  induction before generalizing pair with
  | nil => rfl
  | cons first rest ih =>
    rw [List.cons_append, ActivePair.follow, if_neg (by simp [due first List.mem_cons_self])]
    exact ih fun revision member => due revision (List.mem_cons_of_mem first member)

theorem ActivePair.follow_later {pair : ActivePair} {at_ : Option Rat} {after : List NegotiatedSdpRevision}
    (later : ∀ revision ∈ after, revision.isAfter at_ = true) : pair.follow at_ after = pair := by
  cases after with
  | nil => rfl
  | cons first rest => rw [ActivePair.follow, if_pos (later first List.mem_cons_self)]

theorem Agree.run (revisions : List NegotiatedSdpRevision) :
    Agree (revisions.foldl ActivePair.step .none) (revisions.foldl SuccessfulPairs.step .none) := by
  induction revisions using List.reverseRecOn with
  | nil => exact ⟨rfl, .inl ⟨rfl, rfl⟩⟩
  | append_singleton revisions last ih =>
    rw [List.foldl_concat, List.foldl_concat]
    exact ih.step last

def NegotiatedSdpRevision.time (revision : NegotiatedSdpRevision) : Option Rat := revision.revision.evidence.time

theorem isAfter_known {revision : NegotiatedSdpRevision} {limit own : Rat} (known : revision.time = some own) :
    revision.isAfter (some limit) = decide (limit < own) := by
  unfold NegotiatedSdpRevision.time at known
  simp only [NegotiatedSdpRevision.isAfter, known]

/-- Every time is known and each is later than those before it. -/
structure Timed (revisions : List NegotiatedSdpRevision) : Prop where
  known : ∀ revision ∈ revisions, revision.time.isSome = true
  increasing : revisions.Pairwise fun earlier later =>
    ∀ s t : Rat, earlier.time = some s → later.time = some t → s < t

/-- With increasing times a pair found is active when its answer arrives. -/
theorem active_at_answer {dialog : DialogRecord} (timed : Timed dialog.sdpRevisions)
    {offer answer : NegotiatedSdpRevision} (member : (offer, answer) ∈ successfulPairs dialog) :
    activePair dialog answer.time = (some offer, some answer) := by
  obtain ⟨before, after, split, role, lenient, pending⟩ := SuccessfulPairs.completed member
  obtain ⟨known, increasing⟩ := timed
  rw [split] at known increasing
  obtain ⟨time, at_⟩ := Option.isSome_iff_exists.mp (known answer (by simp))
  obtain ⟨-, fromAnswer, across⟩ := List.pairwise_append.mp increasing
  have due : ∀ revision ∈ before ++ [answer], revision.isAfter answer.time = false := by
    intro revision inside
    obtain ⟨own, own_eq⟩ := Option.isSome_iff_exists.mp (known revision (by
      rcases List.mem_append.mp inside with first | last
      · exact List.mem_append_left _ first
      · rw [List.mem_singleton.mp last]
        simp))
    have soon : own ≤ time := by
      rcases List.mem_append.mp inside with first | last
      · exact (across revision first answer List.mem_cons_self own time own_eq at_).le
      · rw [List.mem_singleton.mp last, at_] at own_eq
        exact (Option.some.inj own_eq).ge
    rw [at_, isAfter_known own_eq]
    exact decide_eq_false (not_lt.2 soon)
  have later : ∀ revision ∈ after, revision.isAfter answer.time = true := by
    intro revision inside
    obtain ⟨own, own_eq⟩ := Option.isSome_iff_exists.mp (known revision (by simp [inside]))
    have beyond := List.rel_of_pairwise_cons fromAnswer inside time own at_ own_eq
    rw [at_, isAfter_known own_eq]
    exact decide_eq_true beyond
  have followed : ActivePair.none.follow answer.time dialog.sdpRevisions =
      (before ++ [answer]).foldl ActivePair.step .none := by
    rw [split, List.append_cons, ActivePair.follow_append due, ActivePair.follow_later later]
  have waiting : (before.foldl ActivePair.step .none).pendingOffer = some offer :=
    (Agree.run before).pending.trans pending
  rw [activePair, followed, List.foldl_concat]
  simp [ActivePair.step, role, lenient, waiting]

/-- The active pair is one of the successful pairs, and with increasing times each of those is active
when its answer arrives. -/
theorem pairs_agree (dialog : DialogRecord) :
    (∀ at_ : Option Rat, activePair dialog at_ = (none, none) ∨ ∃ offer answer,
      activePair dialog at_ = (some offer, some answer) ∧ (offer, answer) ∈ successfulPairs dialog) ∧
    (Timed dialog.sdpRevisions → ∀ offer answer, (offer, answer) ∈ successfulPairs dialog →
      activePair dialog answer.time = (some offer, some answer)) := by
  constructor
  · intro at_
    have start : Agree .none .none := ⟨rfl, .inl ⟨rfl, rfl⟩⟩
    obtain ⟨found, ⟨-, active⟩, part⟩ := start.follow at_ dialog.sdpRevisions
    rcases active with ⟨offer, answer⟩ | ⟨offer, answer, offer_eq, answer_eq, member⟩
    · exact .inl (Prod.ext offer answer)
    · exact .inr ⟨offer, answer, Prod.ext offer_eq answer_eq, part member⟩
  · intro timed offer answer member
    exact active_at_answer timed member

theorem negotiated_pair_is_active :
    (activePair (.negotiated "10.0.0.1" "10.0.0.2") (some 0) = (none, none)) ∧
    Timed (DialogRecord.negotiated "10.0.0.1" "10.0.0.2").sdpRevisions ∧
    activePair (.negotiated "10.0.0.1" "10.0.0.2") (some 1) =
      (some (.pcmu 0 .offer "10.0.0.1" 4000), some (.pcmu 1 .answer "10.0.0.2" 4002)) := by
  have timed : Timed (DialogRecord.negotiated "10.0.0.1" "10.0.0.2").sdpRevisions := by
    refine ⟨by decide, ?_⟩
    refine List.pairwise_pair.mpr ?_
    intro s t known known'
    obtain rfl := Option.some.inj known
    obtain rfl := Option.some.inj known'
    decide +kernel
  have found : (NegotiatedSdpRevision.pcmu 0 .offer "10.0.0.1" 4000, NegotiatedSdpRevision.pcmu 1 .answer "10.0.0.2" 4002) ∈
      successfulPairs (.negotiated "10.0.0.1" "10.0.0.2") := by decide +kernel
  refine ⟨by decide +kernel, timed, ?_⟩
  exact (pairs_agree (.negotiated "10.0.0.1" "10.0.0.2")).2 timed _ _ found

end pairs

end Sippycup.Oracle
