import Mathlib.Data.List.Dedup
import Sippycup.Oracle.Dialogs
import Sippycup.Oracle.Withheld

/-! The legs of a forked call. Frames of one leg withheld from the capture change nothing in the
dialog of another, as long as none of them is a challenge to the caller and none shares its
transaction with the frames that stay. -/
namespace Sippycup.Oracle
open Python Pairing

def FrameRecord.carries (tag : Text) (frame : FrameRecord) : Bool := frame.fromTag = some tag || frame.toTag = some tag

def withoutLeg (tag : Text) (frames : List FrameRecord) : List FrameRecord :=
  frames.filter fun frame => !frame.carries tag

section messages

/-- A message with no more of its transaction than the walk over a dialog reads. -/
def DialogMessage.strip (message : DialogMessage) : DialogMessage :=
  { message with
    transaction := { message.transaction with
      responses := [], retransmissions := [], state := .requestSeen, transitions := [], ambiguity := .known false } }

/-- Two legs with one key, whose first roots may differ in what they gathered. -/
structure DialogLeg.Same (leg other : DialogLeg) : Prop where
  key : other.root.key = leg.root.key
  request : other.rootRequest = leg.rootRequest
  callee : other.calleeTag = leg.calleeTag

variable {upper : Text → Text} {keep : FrameRecord → Bool} {before : List FrameRecord} {all left : Grouping}
  {leg other : DialogLeg} {b : TransactionBuilder}

theorem DialogLeg.Same.selected (same : leg.Same other) : other.selected = leg.selected := by
  funext transaction
  simp only [DialogLeg.selected, DialogLeg.callId, DialogLeg.callerTag, same.key, same.request, same.callee]

/-- What is read of each builder apart from what is withheld, over all of them. -/
theorem Split.flatMap {α : Type} (split : Split upper keep before all left) (read : TransactionBuilder → List α)
    (bare : ∀ b, read b.bare = read b) (gone : ∀ b ∈ all.builders, b.kept keep = false → read b = [])
    (stays : ∀ b ∈ all.builders, b.kept keep = true →
      read { b.bare with responses := b.responses.filter keep } = read b) :
    left.builders.flatMap read = all.builders.flatMap read := by
  have same : left.builders.flatMap read = (left.builders.map TransactionBuilder.bare).flatMap read := by
    rw [List.flatMap_map]
    exact List.flatMap_congr fun b _ => (bare b).symm
  rw [same, split.rest]
  have each {builders : List TransactionBuilder} (inside : ∀ b ∈ builders, b ∈ all.builders) :
      (builders.filterMap (TransactionBuilder.rest keep)).flatMap read = builders.flatMap read := by
    induction builders with
    | nil => rfl
    | cons first others ih =>
      have known := inside first (by simp)
      have later := ih fun b member => inside b (List.mem_cons_of_mem _ member)
      rw [List.flatMap_cons]
      cases side : first.kept keep with
      | false => rw [List.filterMap_cons_none (rest_none side), later, gone first known side, List.nil_append]
      | true => rw [List.filterMap_cons_some (rest_some side), List.flatMap_cons, later, stays first known side]
  exact each fun b member => member

/-- Only frames that stay belong to the leg. -/
def DialogLeg.Spared (keep : FrameRecord → Bool) (leg : DialogLeg) (frames : List FrameRecord) : Prop :=
  ∀ frame ∈ frames, frameBelongs frame leg.callId leg.callerTag leg.calleeTag = true → keep frame = true

theorem frames_selected {m : DialogMessage} (member : m ∈ leg.selected b.record) :
    m.frame ∈ b.frames ∧ frameBelongs m.frame leg.callId leg.callerTag leg.calleeTag = true := by
  obtain ⟨listed, belongs⟩ := List.mem_filter.mp member
  refine ⟨?_, belongs⟩
  rcases List.mem_append.mp listed with request | response
  · obtain ⟨frame, requested, rfl⟩ := List.mem_map.mp request
    exact List.mem_append_left _ requested
  · obtain ⟨frame, responded, rfl⟩ := List.mem_map.mp response
    exact List.mem_append_right _ responded

def DialogLeg.heard (leg : DialogLeg) (b : TransactionBuilder) : List DialogMessage :=
  (leg.selected b.record).map DialogMessage.strip

theorem heard_eq (leg : DialogLeg) (b : TransactionBuilder) : leg.heard b =
    ((b.request.toList.filter fun frame => frameBelongs frame leg.callId leg.callerTag leg.calleeTag).map fun frame =>
      (DialogMessage.mk frame b.record true).strip) ++
    (b.responses.filter fun frame => frameBelongs frame leg.callId leg.callerTag leg.calleeTag).map fun frame =>
      (DialogMessage.mk frame b.record false).strip := by
  simp only [DialogLeg.heard, DialogLeg.selected, List.filter_append, List.map_append, List.filter_map, List.map_map]
  rfl

theorem heard_bare (leg : DialogLeg) (b : TransactionBuilder) : leg.heard b.bare = leg.heard b := by
  rw [heard_eq, heard_eq]
  rfl

theorem heard_gone (owned : b.Owned upper keep before) (spared : leg.Spared keep before) (gone : b.kept keep = false) :
    leg.heard b = [] := by
  rw [DialogLeg.heard, List.map_eq_nil_iff, List.eq_nil_iff_forall_not_mem]
  intro m member
  obtain ⟨among, belongs⟩ := frames_selected member
  have stays := spared m.frame (owned.gathered _ among) belongs
  rw [TransactionBuilder.kept, List.any_eq_false] at gone
  exact gone _ among stays

theorem heard_stays (owned : b.Owned upper keep before) (spared : leg.Spared keep before) :
    leg.heard { b.bare with responses := b.responses.filter keep } = leg.heard b := by
  have responses : (b.responses.filter keep).filter (fun frame => frameBelongs frame leg.callId leg.callerTag leg.calleeTag) =
      b.responses.filter fun frame => frameBelongs frame leg.callId leg.callerTag leg.calleeTag := by
    rw [List.filter_filter]
    refine List.filter_congr fun frame inside => ?_
    cases belongs : frameBelongs frame leg.callId leg.callerTag leg.calleeTag with
    | false => rw [Bool.false_and]
    | true => rw [spared frame (owned.gathered _ (List.mem_append_right _ inside)) belongs, Bool.true_and]
  rw [heard_eq, heard_eq, responses]
  rfl

theorem heard_same (split : Split upper keep before all left) (spared : leg.Spared keep before) :
    left.builders.flatMap leg.heard = all.builders.flatMap leg.heard :=
  split.flatMap _ (heard_bare leg) (fun b inside => heard_gone (split.owned b inside) spared)
    fun b inside _ => heard_stays (split.owned b inside) spared

/-- The key of a transaction that a message of the leg is in, and whether it is in doubt. -/
def DialogLeg.listed (leg : DialogLeg) (b : TransactionBuilder) : List (TransactionKey × Value Bool) :=
  if (leg.heard b).isEmpty then [] else [(b.key, b.record.ambiguity)]

theorem listed_same (split : Split upper keep before all left) (spared : leg.Spared keep before) :
    left.builders.flatMap leg.listed = all.builders.flatMap leg.listed := by
  refine split.flatMap _ (fun b => ?_) (fun b inside gone => ?_) fun b inside stays => ?_
  · rw [DialogLeg.listed, heard_bare]
    rfl
  · rw [DialogLeg.listed, heard_gone (split.owned b inside) spared gone]
    rfl
  · rw [DialogLeg.listed, heard_stays (split.owned b inside) spared]
    rfl

theorem included_eq (leg : DialogLeg) (builders : List TransactionBuilder) :
    ((leg.included (builders.map TransactionBuilder.record)).map fun transaction =>
      (transaction.key, transaction.ambiguity)) = builders.flatMap leg.listed := by
  induction builders with
  | nil => rfl
  | cons first others ih =>
    rw [List.flatMap_cons, ← ih, List.map_cons, DialogLeg.included, List.filter_cons, DialogLeg.listed]
    have empty : (leg.heard first).isEmpty = (leg.selected first.record).isEmpty := List.isEmpty_map
    rw [empty]
    cases (leg.selected first.record).isEmpty <;> rfl

theorem messages_eq (leg : DialogLeg) (builders : List TransactionBuilder) :
    (leg.messages (builders.map TransactionBuilder.record)).map DialogMessage.strip =
      (builders.flatMap leg.heard).insertionSort fun a b => a.frame.frameNumber ≤ b.frame.frameNumber := by
  have sorted (messages : List DialogMessage) :
      (messages.insertionSort fun a b => a.frame.frameNumber ≤ b.frame.frameNumber).map DialogMessage.strip =
        (messages.map DialogMessage.strip).insertionSort fun a b => a.frame.frameNumber ≤ b.frame.frameNumber :=
    List.map_insertionSort _ _ _ _ fun _ _ _ _ => Iff.rfl
  rw [DialogLeg.messages, sorted, List.flatMap_map, List.map_flatMap]
  rfl

theorem progress_eq (leg : DialogLeg) (builders : List TransactionBuilder) :
    leg.progress upper (builders.map TransactionBuilder.record) =
      ((builders.flatMap leg.heard).insertionSort fun a b => a.frame.frameNumber ≤ b.frame.frameNumber).foldl
        (DialogProgress.step upper leg.root.key.flow) .initial := by
  rw [← messages_eq, List.foldl_map]
  rfl

/-- What a dialog tells of its course. -/
structure DialogRecord.SameCourse (dialog other : DialogRecord) : Prop where
  key : other.key = dialog.key
  state : other.state = dialog.state
  complete : other.complete = dialog.complete
  transitions : other.transitions = dialog.transitions
  sdpRevisions : other.sdpRevisions = dialog.sdpRevisions
  transactionKeys : other.transactionKeys = dialog.transactionKeys

/-- A SIP frame that is whole and has its key. -/
def FrameRecord.Whole (upper : Text → Text) (frame : FrameRecord) : Prop :=
  frame.status = .known .complete ∧ (frame.baseKey upper).isSome = true

theorem structurallyUncertain_eq {frames : List FrameRecord} (whole : ∀ frame ∈ frames, frame.Whole upper)
    (builders : List TransactionBuilder) :
    leg.structurallyUncertain upper (builders.map TransactionBuilder.record) frames =
      (builders.flatMap leg.listed).any fun listed => listed.2.known?.isNone := by
  have sources : (frames.any fun frame => frame.sip.isSome &&
      (frame.sipValue SipRecord.callId = some leg.callId ||
        frame.flow = some leg.root.key.flow || frame.flow = some leg.root.key.flow.reverse) &&
      (frame.status ≠ .known .complete || (frame.baseKey upper).isNone)) = false := by
    rw [List.any_eq_false]
    intro frame inside
    obtain ⟨status, keyed⟩ := whole frame inside
    simp [status, Option.isSome_iff_ne_none.mp keyed]
  rw [DialogLeg.structurallyUncertain, sources, Bool.false_or, ← included_eq, List.any_map]
  rfl

/-- A leg that is spared tells the same course without the frames that are withheld. -/
theorem dialog_same (split : Split upper keep before all left) {frames rest : List FrameRecord}
    (same : leg.Same other) (spared : leg.Spared keep before) (whole : ∀ frame ∈ frames, frame.Whole upper)
    (sublist : rest ⊆ frames) :
    (leg.dialog upper (all.builders.map TransactionBuilder.record) frames).SameCourse
      (other.dialog upper (left.builders.map TransactionBuilder.record) rest) := by
  have heard : other.heard = leg.heard := by
    funext b
    rw [DialogLeg.heard, DialogLeg.heard, same.selected]
  have listed : other.listed = leg.listed := by
    funext b
    rw [DialogLeg.listed, DialogLeg.listed, heard]
  have progress : other.progress upper (left.builders.map TransactionBuilder.record) =
      leg.progress upper (all.builders.map TransactionBuilder.record) := by
    rw [progress_eq, progress_eq, heard, same.key, heard_same split spared]
  have uncertain : other.structurallyUncertain upper (left.builders.map TransactionBuilder.record) rest =
      leg.structurallyUncertain upper (all.builders.map TransactionBuilder.record) frames := by
    rw [structurallyUncertain_eq whole, structurallyUncertain_eq fun frame inside => whole frame (sublist inside),
      listed, listed_same split spared]
  have keys (l : DialogLeg) (builders : List TransactionBuilder) :
      (l.included (builders.map TransactionBuilder.record)).map TransactionRecord.key =
        (builders.flatMap l.listed).map Prod.fst := by
    rw [← included_eq, List.map_map]
    rfl
  constructor
  · simp only [DialogLeg.dialog, DialogLeg.callId, DialogLeg.callerTag, same.key, same.request, same.callee]
  · simp only [DialogLeg.dialog, progress, uncertain]
  · simp only [DialogLeg.dialog, progress, uncertain]
  · simp only [DialogLeg.dialog, progress]
  · simp only [DialogLeg.dialog, progress]
  · simp only [DialogLeg.dialog, keys, listed, listed_same split spared]

end messages

section roots
variable (upper : Text → Text)

/-- What legs are made from: the first root, and the responses to all of them. -/
structure RootView where
  key : RootKey
  opened : TransactionKey
  request : FrameRecord
  answers : List FrameRecord

def Roots.view (roots : Roots) : RootView :=
  ⟨roots.key, roots.first.key, roots.request, (roots.first :: roots.others).flatMap TransactionRecord.responses⟩

def addView (views : List RootView) (new : RootView) : List RootView :=
  if views.any fun view => view.key = new.key then
    amendFirst (fun view => view.key = new.key) (fun view => { view with answers := view.answers ++ new.answers }) views
  else views ++ [new]

/-- The view of a root on its own. -/
def TransactionBuilder.view? (b : TransactionBuilder) : Option RootView :=
  (initialInvite upper b.record).map fun request =>
    ⟨⟨b.key.callId, request.fromTag, b.key.flow⟩, b.key, request, b.responses⟩

def addRoot? (views : List RootView) (b : TransactionBuilder) : List RootView := (b.view? upper).elim views (addView views)

theorem view_addRoot (groups : List Roots) (key : RootKey) (transaction : TransactionRecord) (request : FrameRecord) :
    (addRoot groups key transaction request).map Roots.view =
      addView (groups.map Roots.view) ⟨key, transaction.key, request, transaction.responses⟩ := by
  have found : ((groups.map Roots.view).any fun view => view.key = key) = groups.any fun group => group.key = key := by
    rw [List.any_map]
    rfl
  rw [addRoot, addView, found]
  split
  · rw [← List.filterMap_eq_map]
    refine filterMap_amendFirst_eq (fun group _ chosen => ⟨group.view, rfl, chosen, ?_⟩) fun group _ passed view known => ?_
    · simp [Roots.view]
    · rw [← Option.some.inj known]
      exact passed
  · rw [List.map_append]
    simp [Roots.view]

theorem rootsByCall_views (builders : List TransactionBuilder) :
    (rootsByCall upper (builders.map TransactionBuilder.record)).map Roots.view = builders.foldl (addRoot? upper) [] := by
  rw [rootsByCall, show ([] : List RootView) = ([] : List Roots).map Roots.view from rfl]
  generalize ([] : List Roots) = groups
  induction builders generalizing groups with
  | nil => rfl
  | cons first others ih =>
    rw [List.map_cons, List.foldl_cons, ih, List.foldl_cons]
    congr 1
    unfold addRoot? TransactionBuilder.view?
    cases initialInvite upper first.record with
    | none => rfl
    | some request => exact view_addRoot groups _ _ request

variable {upper} {keep : FrameRecord → Bool} {before : List FrameRecord} {all left : Grouping}

/-- What a view has left, where the tag of its caller decides whether it stays. -/
def RootView.rest (keep : FrameRecord → Bool) (stays : RootKey → Bool) (view : RootView) : Option RootView :=
  if stays view.key then some { view with answers := view.answers.filter keep } else none

theorem addView_rest (stays : RootKey → Bool) (views : List RootView) (new : RootView) :
    (addView views new).filterMap (RootView.rest keep stays) =
      ((new.rest keep stays).elim (views.filterMap (RootView.rest keep stays))
        (addView (views.filterMap (RootView.rest keep stays)))) := by
  unfold addView
  cases side : stays new.key with
  | false =>
    have gone : new.rest keep stays = none := by simp [RootView.rest, side]
    rw [gone, Option.elim_none]
    split
    · refine filterMap_amendFirst fun view _ same => ?_
      simp [RootView.rest, of_decide_eq_true same, side]
    · rw [List.filterMap_append, List.filterMap_cons_none gone, List.filterMap_nil, List.append_nil]
  | true =>
    have stay : new.rest keep stays = some { new with answers := new.answers.filter keep } := by simp [RootView.rest, side]
    have found : ((views.filterMap (RootView.rest keep stays)).any fun view => view.key = new.key) =
        views.any fun view => view.key = new.key := by
      rw [List.any_filterMap]
      refine List.any_congr rfl fun view => ?_
      by_cases same : view.key = new.key
      · simp [RootView.rest, same, side]
      · cases other : stays view.key <;> simp [RootView.rest, other, same]
    rw [stay, Option.elim_some, found]
    split
    · refine filterMap_amendFirst_eq (fun view _ same => ?_) fun view _ other seen known => ?_
      · have key : view.key = new.key := of_decide_eq_true same
        exact ⟨{ view with answers := view.answers.filter keep }, by simp [RootView.rest, key, side], same,
          by simp [RootView.rest, key, side]⟩
      · unfold RootView.rest at known
        split at known
        · rw [← Option.some.inj known]
          exact other
        · cases known
    · rw [List.filterMap_append, List.filterMap_cons_some stay, List.filterMap_nil]

theorem view?_filtered (b : TransactionBuilder) :
    ({ b.bare with responses := b.responses.filter keep } : TransactionBuilder).view? upper =
      (b.view? upper).map fun view => { view with answers := view.answers.filter keep } := by
  have same : initialInvite upper ({ b.bare with responses := b.responses.filter keep } : TransactionBuilder).record =
      initialInvite upper b.record := rfl
  rw [TransactionBuilder.view?, TransactionBuilder.view?, same]
  cases initialInvite upper b.record <;> rfl

theorem foldl_rest (stays : RootKey → Bool) (builders : List TransactionBuilder)
    (sides : ∀ b ∈ builders, ∀ view, b.view? upper = some view → stays view.key = b.kept keep) (views : List RootView) :
    (builders.foldl (addRoot? upper) views).filterMap (RootView.rest keep stays) =
      (builders.filterMap (TransactionBuilder.rest keep)).foldl (addRoot? upper)
        (views.filterMap (RootView.rest keep stays)) := by
  induction builders generalizing views with
  | nil => rfl
  | cons first others ih =>
    have here := sides first (by simp)
    rw [List.foldl_cons, ih fun b inside => sides b (List.mem_cons_of_mem _ inside), addRoot?]
    cases seen : first.view? upper with
    | none =>
      rw [Option.elim_none]
      cases side : first.kept keep with
      | false => rw [List.filterMap_cons_none (rest_none side)]
      | true =>
        rw [List.filterMap_cons_some (rest_some side), List.foldl_cons, addRoot?, view?_filtered, seen]
        rfl
    | some view =>
      have stay := here view seen
      rw [Option.elim_some, addView_rest]
      cases side : first.kept keep with
      | false =>
        rw [List.filterMap_cons_none (rest_none side), RootView.rest, stay, side]
        rfl
      | true =>
        rw [List.filterMap_cons_some (rest_some side), List.foldl_cons, addRoot?, view?_filtered, seen, RootView.rest,
          stay, side]
        rfl

/-- The roots of the frames that stay are what the roots of all frames have left. -/
theorem Split.roots (split : Split upper keep before all left) (stays : RootKey → Bool)
    (sides : ∀ b ∈ all.builders, ∀ view, b.view? upper = some view → stays view.key = b.kept keep) :
    (rootsByCall upper (left.builders.map TransactionBuilder.record)).map Roots.view =
      ((rootsByCall upper (all.builders.map TransactionBuilder.record)).map Roots.view).filterMap
        (RootView.rest keep stays) := by
  have bare : left.builders.foldl (addRoot? upper) [] =
      (left.builders.map TransactionBuilder.bare).foldl (addRoot? upper) [] := by
    rw [List.foldl_map]
    rfl
  rw [rootsByCall_views, rootsByCall_views, bare, split.rest]
  exact (foldl_rest stays all.builders sides []).symm

/-- A view is of a root among the builders, and its answers are responses gathered there. -/
structure Rooted (upper : Text → Text) (builders : List TransactionBuilder) (view : RootView) : Prop where
  root : ∃ b ∈ builders, ∃ first, b.view? upper = some first ∧ first.key = view.key ∧ first.request = view.request
  answers : ∀ answer ∈ view.answers, ∃ b ∈ builders, answer ∈ b.responses

theorem view?_answers {b : TransactionBuilder} {view : RootView} (seen : b.view? upper = some view) :
    view.answers = b.responses := by
  obtain ⟨request, _, rfl⟩ := Option.map_eq_some_iff.mp seen
  rfl

theorem addView_rooted {builders : List TransactionBuilder} {views : List RootView} {b : TransactionBuilder} {new : RootView}
    (rooted : ∀ view ∈ views, Rooted upper builders view) (inside : b ∈ builders) (seen : b.view? upper = some new) :
    ∀ view ∈ addView views new, Rooted upper builders view := by
  have own : ∀ answer ∈ new.answers, ∃ c ∈ builders, answer ∈ c.responses := by
    intro answer member
    rw [view?_answers seen] at member
    exact ⟨b, inside, member⟩
  intro view member
  unfold addView at member
  split at member
  · rcases mem_amendFirst member with old | ⟨old, among, _, rfl⟩
    · exact rooted view old
    · refine ⟨(rooted old among).root, fun answer gathered => ?_⟩
      rcases List.mem_append.mp gathered with before | after
      · exact (rooted old among).answers answer before
      · exact own answer after
  · rcases List.mem_append.mp member with old | last
    · exact rooted view old
    · obtain rfl := List.mem_singleton.mp last
      exact ⟨⟨b, inside, view, seen, rfl, rfl⟩, own⟩

theorem roots_rooted {builders : List TransactionBuilder} {roots : Roots}
    (member : roots ∈ rootsByCall upper (builders.map TransactionBuilder.record)) : Rooted upper builders roots.view := by
  have all (some_ : List TransactionBuilder) (within : some_ ⊆ builders) :
      ∀ view ∈ some_.foldl (addRoot? upper) [], Rooted upper builders view := by
    induction some_ using List.reverseRecOn with
    | nil => exact fun view absurd_ => absurd absurd_ List.not_mem_nil
    | append_singleton others last ih =>
      have before := ih fun b inside => within (List.mem_append_left _ inside)
      rw [List.foldl_append, List.foldl_cons, List.foldl_nil, addRoot?]
      cases seen : last.view? upper with
      | none => exact before
      | some new => exact addView_rooted before (within (by simp)) seen
  refine all builders (List.Subset.refl _) _ ?_
  rw [← rootsByCall_views]
  exact List.mem_map_of_mem member

def RootView.calleeTags (view : RootView) : List Text :=
  sortTexts (view.answers.filterMap fun response => if response.challenges then none else response.toTag).dedup

theorem calleeTags_view (roots : Roots) : roots.calleeTags = roots.view.calleeTags := by
  rw [Roots.calleeTags, RootView.calleeTags, Roots.view, List.filterMap_flatMap]

theorem mem_calleeTags {view : RootView} {tag : Text} :
    tag ∈ view.calleeTags ↔ ∃ response ∈ view.answers, response.challenges = false ∧ response.toTag = some tag := by
  have sorted {tags : List Text} : tag ∈ sortTexts tags ↔ tag ∈ tags := (List.perm_insertionSort _ _).mem_iff
  rw [RootView.calleeTags, sorted, List.mem_dedup, List.mem_filterMap]
  refine exists_congr fun response => and_congr_right fun _ => ?_
  cases response.challenges <;> simp

/-- The legs of a root, by the tag of the other side. -/
theorem mem_legs {roots : Roots} {leg : DialogLeg} : leg ∈ roots.legs ↔
    leg.root = roots.first ∧ leg.rootRequest = roots.request ∧
      leg.calleeTag.elim (roots.view.calleeTags = []) (· ∈ roots.view.calleeTags) := by
  obtain ⟨root, request, callee⟩ := leg
  rw [Roots.legs, calleeTags_view]
  cases tags : roots.view.calleeTags with
  | nil => cases callee <;> simp
  | cons first others =>
    cases callee with
    | none => simp
    | some tag =>
      simp only [List.isEmpty_cons, Bool.false_eq_true, if_false, List.mem_map, DialogLeg.mk.injEq, Option.some.injEq,
        Option.elim_some]
      constructor
      · rintro ⟨_, among, rfl, rfl, rfl⟩
        exact ⟨rfl, rfl, among⟩
      · rintro ⟨rfl, rfl, among⟩
        exact ⟨tag, among, rfl, rfl, rfl⟩

end roots

section fork
variable {upper : Text → Text} {frames : List FrameRecord} {call caller tag : Text} {flow : FlowKey}

/-- Whole frames of one call, between its caller and whoever answered, on one flow. -/
structure ForkedCall (upper : Text → Text) (call caller : Text) (flow : FlowKey) (frames : List FrameRecord) : Prop where
  whole : ∀ frame ∈ frames, frame.Whole upper
  ofCall : ∀ frame ∈ frames, frame.sipValue SipRecord.callId = some call
  parties : ∀ frame ∈ frames, frame.fromTag = some caller ∨ frame.toTag = some caller
  flows : ∀ frame ∈ frames, frame.flow = some flow ∨ frame.flow = some flow.reverse

/-- The legs of a call, each of which has a tag that is not the caller's. -/
def Independent (upper : Text → Text) (caller tag : Text) (frames : List FrameRecord) : Prop :=
  ∀ dialog ∈ (reconstructDialogs upper frames).dialogs, dialog.key.calleeTag ≠ .known tag →
    dialog.key.calleeTag ≠ .known caller →
      ∃ other ∈ (reconstructDialogs upper (withoutLeg tag frames)).dialogs, dialog.SameCourse other

theorem carries_same {frame item : FrameRecord} (same : TransactionBuilder.sameResponse frame item = true) :
    (!item.carries tag) = !frame.carries tag := by
  simp only [TransactionBuilder.sameResponse, Bool.and_eq_true, decide_eq_true_eq] at same
  obtain ⟨⟨⟨⟨_, fromTag⟩, toTag⟩, _⟩, _⟩ := same
  rw [FrameRecord.carries, FrameRecord.carries, FrameRecord.fromTag, FrameRecord.toTag, fromTag, toTag]
  rfl

/-- What belongs to a leg of the caller carries no other leg's tag, but for challenges. -/
theorem belongs_spared {leg : DialogLeg} {frame : FrameRecord} (root : leg.callerTag = some caller)
    (distinct : tag ≠ caller) (foreign : leg.calleeTag ≠ some tag)
    (unleaked : frame.fromTag = some caller → frame.toTag = some tag → frame.challenges = false)
    (belongs : frameBelongs frame leg.callId leg.callerTag leg.calleeTag = true) : (!frame.carries tag) = true := by
  have other : some caller ≠ some tag := fun same => distinct (Option.some.inj same).symm
  rw [Bool.not_eq_true', FrameRecord.carries, Bool.or_eq_false_iff, decide_eq_false_iff_not, decide_eq_false_iff_not]
  unfold frameBelongs at belongs
  rw [root] at belongs
  split at belongs
  · cases belongs
  split at belongs
  · rename_i challenge
    rw [Bool.and_eq_true, decide_eq_true_eq] at challenge
    obtain ⟨challenge, fromTag⟩ := challenge
    refine ⟨by rwa [fromTag], fun toTag => ?_⟩
    rw [unleaked fromTag toTag] at challenge
    cases challenge
  split at belongs
  · rename_i tags
    simp only [Bool.and_eq_true, Bool.or_eq_true, decide_eq_true_eq] at tags
    obtain ⟨_, ⟨fromTag, toTag⟩ | ⟨fromTag, toTag⟩⟩ := tags
    · exact ⟨by rwa [fromTag], by rwa [toTag]⟩
    · exact ⟨by rwa [fromTag], by rwa [toTag]⟩
  · rw [Bool.and_eq_true, decide_eq_true_eq, Option.isNone_iff_eq_none] at belongs
    obtain ⟨fromTag, toTag⟩ := belongs
    exact ⟨by rwa [fromTag], by simp [toTag]⟩

/-- The roots of a forked call are its caller's, and stay whatever leg goes. -/
theorem view?_caller (forked : ForkedCall upper call caller flow frames) {before : List FrameRecord}
    {keep : FrameRecord → Bool} {b : TransactionBuilder} {view : RootView} (owned : b.Owned upper keep before)
    (within : before ⊆ frames) (seen : b.view? upper = some view) :
    view.request.fromTag = some caller ∧ view.key.callerTag = some caller ∧ view.request.toTag = none ∧
      keep view.request = b.kept keep := by
  obtain ⟨request, initial, rfl⟩ := Option.map_eq_some_iff.mp seen
  obtain ⟨requested, untagged⟩ := Option.filter_eq_some_iff.mp initial
  rw [Bool.and_eq_true, Option.isNone_iff_eq_none] at untagged
  have known : b.request = some request := requested
  have inside : request ∈ frames := within (owned.gathered request (by simp [TransactionBuilder.frames, known]))
  have fromTag : request.fromTag = some caller := by
    rcases forked.parties request inside with known | known
    · exact known
    · rw [untagged.2] at known
      cases known
  obtain ⟨first, _, head, _, side⟩ := owned.opened
  obtain rfl : request = first := by simpa [TransactionBuilder.frames, known] using head
  exact ⟨fromTag, fromTag, untagged.2, side⟩

theorem inOrder_filter (keep : FrameRecord → Bool) (frames : List FrameRecord) :
    (FrameRecord.inOrder frames).filter keep = FrameRecord.inOrder (frames.filter keep) := by
  have total : Std.Total fun a b : FrameRecord => a.frameNumber ≤ b.frameNumber :=
    ⟨fun a b => le_total a.frameNumber b.frameNumber⟩
  have trans : IsTrans FrameRecord fun a b => a.frameNumber ≤ b.frameNumber := ⟨fun _ _ _ => le_trans⟩
  exact filter_insertionSort

/-- The leg's tag remains among those of the responses that stay, and no other comes to be. -/
theorem tags_remain (forked : ForkedCall upper call caller flow frames) {view : RootView} {leg : Option Text}
    (answers : ∀ answer ∈ view.answers, answer ∈ frames) (foreign : leg ≠ some tag) (callee : leg ≠ some caller)
    (distinct : tag ≠ caller) (tags : leg.elim (view.calleeTags = []) (· ∈ view.calleeTags)) :
    let left : RootView := { view with answers := view.answers.filter fun frame => !frame.carries tag }
    leg.elim (left.calleeTags = []) (· ∈ left.calleeTags) := by
  intro left
  cases leg with
  | none =>
    rw [Option.elim_none, List.eq_nil_iff_forall_not_mem] at tags ⊢
    intro other member
    obtain ⟨answer, gathered, known⟩ := mem_calleeTags.1 member
    exact tags other (mem_calleeTags.2 ⟨answer, (List.mem_filter.mp gathered).1, known⟩)
  | some mine =>
    rw [Option.elim_some] at tags ⊢
    obtain ⟨answer, gathered, plain, toTag⟩ := mem_calleeTags.1 tags
    refine mem_calleeTags.2 ⟨answer, List.mem_filter.mpr ⟨gathered, ?_⟩, plain, toTag⟩
    have fromTag : answer.fromTag = some caller := by
      rcases forked.parties answer (answers answer gathered) with known | known
      · exact known
      · exact absurd (toTag.symm.trans known) callee
    have other : some caller ≠ some tag := fun same => distinct (Option.some.inj same).symm
    rw [FrameRecord.carries, fromTag, toTag]
    simp [other, foreign]

def FrameRecord.tagged (frame : FrameRecord) (toTag : Value Text) (branch : Text) : FrameRecord :=
  { frame with sip := frame.sip.map fun sip => { sip with toTag, viaBranch := .known branch } }

/-- A call that two sides answered. -/
def answeredTwice : List FrameRecord := [
  (FrameRecord.request 1 "a" "b" "INVITE" 1).tagged (.unknown .missingField none) "invite",
  (FrameRecord.response 2 "b" "a" "INVITE" 1 200).tagged (.known "left") "invite",
  (FrameRecord.response 3 "b" "a" "INVITE" 1 200).tagged (.known "right") "invite",
  (FrameRecord.request 4 "a" "b" "ACK" 1).tagged (.known "left") "ack-left",
  (FrameRecord.request 5 "a" "b" "ACK" 1).tagged (.known "right") "ack-right"]

/-- The same call, where the left side challenges a later INVITE. -/
def challengedLeft : List FrameRecord := answeredTwice ++ [
  (FrameRecord.request 6 "a" "b" "INVITE" 2).tagged (.known "left") "reinvite",
  (FrameRecord.response 7 "b" "a" "INVITE" 2 401).tagged (.known "left") "reinvite"]

def exampleFlow : FlowKey := ⟨"a", 5060, "b", 5060, .udp⟩

instance (dialog other : DialogRecord) : Decidable (dialog.SameCourse other) :=
  decidable_of_iff (other.key = dialog.key ∧ other.state = dialog.state ∧ other.complete = dialog.complete ∧
    other.transitions = dialog.transitions ∧ other.sdpRevisions = dialog.sdpRevisions ∧
    other.transactionKeys = dialog.transactionKeys)
    ⟨fun ⟨key, state, complete, transitions, revisions, keys⟩ => ⟨key, state, complete, transitions, revisions, keys⟩,
      fun ⟨key, state, complete, transitions, revisions, keys⟩ => ⟨key, state, complete, transitions, revisions, keys⟩⟩

instance (upper : Text → Text) (frame : FrameRecord) : Decidable (frame.Whole upper) :=
  inferInstanceAs (Decidable (_ ∧ _))

instance (upper : Text → Text) (caller tag : Text) (frames : List FrameRecord) :
    Decidable (Independent upper caller tag frames) :=
  inferInstanceAs (Decidable (∀ dialog ∈ (reconstructDialogs upper frames).dialogs, dialog.key.calleeTag ≠ .known tag →
    dialog.key.calleeTag ≠ .known caller →
      ∃ other ∈ (reconstructDialogs upper (withoutLeg tag frames)).dialogs, dialog.SameCourse other))

theorem apart_of_messages (keep : FrameRecord → Bool)
    (apart : ∀ gone ∈ frames, keep gone = false → ∀ left ∈ frames, keep left = true →
      ∀ m ∈ (gone.message upper).toList, ∀ n ∈ (left.message upper).toList,
        requestKey m ≠ if m.request then requestKey n else (requestKey n).reverse) : Apart upper keep frames :=
  fun gone goes side stay stays other m n spoken heard =>
    apart gone goes side stay stays other m (by simp [spoken]) n (by simp [heard])

end fork

end Sippycup.Oracle
