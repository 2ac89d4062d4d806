import Sippycup.Learn.Canonical

/-! The local and the remote side of a dialog: who takes the roles, by the scope of its addresses, and what a
change of the scope exchanges. -/
namespace Sippycup.Learn.Canonical
open Sippycup.Python Sippycup.Ip
open Sippycup.Oracle (DialogRecord FlowKey TransactionKey)

section naming
variable {α β : Type}

theorem Placeholders.get_raw (table : Placeholders) (kind : PlaceholderKind) (raw : Raw) :
    (table.get kind raw).2.raw (table.get kind raw).1 = some raw := by
  unfold Placeholders.get Placeholders.raw
  by_cases known : raw ∈ table.values kind
  · rw [if_pos known]
    have inside := List.idxOf_lt_length_of_mem known
    simp only [Nat.add_sub_cancel]
    rw [List.getElem?_eq_getElem inside, List.getElem_idxOf]
  · rw [if_neg known]
    simp

/-- Every value that has a placeholder keeps it. -/
def Grows (action : Naming α) : Prop :=
  ∀ table kind, table.values kind <+: (action.run table).2.values kind

theorem grows_named (kind : PlaceholderKind) (raw : Raw) : Grows (named kind raw) := by
  intro table other
  change _ <+: (table.get kind raw).2.values other
  unfold Placeholders.get
  by_cases known : raw ∈ table.values kind
  · rw [if_pos known]
  · rw [if_neg known]
    by_cases same : other = kind
    · subst same
      simp
    · simp [Function.update_of_ne same]

/-- A value keeps its placeholder in what comes after. -/
theorem Grows.raw {action : Naming α} (grows : Grows action) {table : Placeholders} {placeholder : Placeholder} {raw : Raw}
    (known : table.raw placeholder = some raw) : (action.run table).2.raw placeholder = some raw := by
  obtain ⟨added, same⟩ := grows table placeholder.kind
  have inside := (List.getElem?_eq_some_iff.mp known).1
  rw [Placeholders.raw, ← same, List.getElem?_append_left inside]
  exact known

end naming

section parties
variable (networks : List Network) (dialog : DialogRecord)

/-- The address is one of the local scope. -/
def inScope (address : Text) : Bool := (isLocal networks address).toOption.getD false

/-- One side of a dialog. -/
structure Party where
  tag : Raw
  contact : Raw
  deriving DecidableEq

def caller : Party := ⟨tagRaw dialog.key.callerTag, contactRaw dialog.key.initialFlow⟩

def callee : Party := ⟨tagRaw dialog.key.calleeTag, contactRaw dialog.key.initialFlow.reverse⟩

def callerInScope : Bool := inScope networks dialog.key.initialFlow.initiatorAddress

def localParty : Party := if callerInScope networks dialog then caller dialog else callee dialog

def remoteParty : Party := if callerInScope networks dialog then callee dialog else caller dialog

def lastBye (keys : List TransactionKey) : Option TransactionKey :=
  (keys.filter fun key => decide (key.cseqMethod = bye)).getLast?

/-- The side that sent the last BYE. -/
def teardownBy (keys : List TransactionKey) : Teardown :=
  match lastBye keys with
  | none => .none
  | some key => teardownOf (inScope networks key.flow.initiatorAddress)

/-- Every role of the document is the one that the scope gives. -/
structure Consistent (document : Document) (table : Placeholders) : Prop where
  localTag : table.raw document.dialog.localTag = some (localParty networks dialog).tag
  remoteTag : table.raw document.dialog.remoteTag = some (remoteParty networks dialog).tag
  localContact : table.raw document.dialog.localContact = some (localParty networks dialog).contact
  remoteContact : table.raw document.dialog.remoteContact = some (remoteParty networks dialog).contact
  directions : document.transactions.map TransactionEntry.direction =
    dialog.transactionKeys.map fun key => directionOf (inScope networks key.flow.initiatorAddress)
  teardown : document.dialog.teardownInitiator = teardownBy networks dialog.transactionKeys

def Direction.exchange : Direction → Direction
  | localToRemote => remoteToLocal
  | remoteToLocal => localToRemote

def Teardown.exchange : Teardown → Teardown
  | none => none
  | .local => remote
  | remote => .local

/-- The entry without its direction. -/
def TransactionEntry.undirected (entry : TransactionEntry) : TransactionEntry := { entry with direction := .localToRemote }

/-- The document without its roles. -/
def Document.withoutRoles (document : Document) : Document :=
  { document with
    dialog := { document.dialog with
      localTag := ⟨.tag, 0⟩, remoteTag := ⟨.tag, 0⟩, localContact := ⟨.contact, 0⟩, remoteContact := ⟨.contact, 0⟩
      teardownInitiator := .none }
    transactions := document.transactions.map TransactionEntry.undirected }

/-- The address is one of the two sides of the dialog. -/
def OfParty (address : Text) : Prop :=
  address = dialog.key.initialFlow.initiatorAddress ∨ address = dialog.key.initialFlow.responderAddress

/-- The second document is the first one with its roles exchanged. -/
structure Exchanges (document : Document) (table : Placeholders) (document' : Document) (table' : Placeholders) : Prop where
  localTag : table'.raw document'.dialog.localTag = table.raw document.dialog.remoteTag
  remoteTag : table'.raw document'.dialog.remoteTag = table.raw document.dialog.localTag
  localContact : table'.raw document'.dialog.localContact = table.raw document.dialog.remoteContact
  remoteContact : table'.raw document'.dialog.remoteContact = table.raw document.dialog.localContact
  directions : ∀ (i : Nat) (key : TransactionKey), dialog.transactionKeys[i]? = some key →
    OfParty dialog key.flow.initiatorAddress → document'.transactions[i]?.map TransactionEntry.direction =
      document.transactions[i]?.map fun entry => entry.direction.exchange
  teardown : (∀ key, lastBye dialog.transactionKeys = some key → OfParty dialog key.flow.initiatorAddress) →
    document'.dialog.teardownInitiator = document.dialog.teardownInitiator.exchange
  rest : document'.withoutRoles = document.withoutRoles

end parties

section walk
variable {networks : List Network} {reconstruction : Reconstruction} {first : Rat}

theorem transactionEntry_direction (index : Nat) (key : TransactionKey) (transaction : CapturedTransaction)
    (request : CapturedFrame) (direction other : Direction) (table : Placeholders) :
    (transactionEntry first index key transaction request direction).run table =
      ({ ((transactionEntry first index key transaction request other).run table).1 with direction },
        ((transactionEntry first index key transaction request other).run table).2) := by
  simp only [transactionEntry, StateT.run_bind]
  rfl

/-- What one transaction adds. -/
theorem Walk.step_ok {walk walk' : Walk} {key : TransactionKey}
    (stepped : walk.step networks reconstruction first key = .ok walk') :
    ∃ transaction request, reconstruction.transaction key = some transaction ∧ transaction.request = some request ∧
      isLocal networks key.flow.initiatorAddress = .ok (inScope networks key.flow.initiatorAddress) ∧
      let entry := (transactionEntry first (walk.entries.length + 1) key transaction request
        (directionOf (inScope networks key.flow.initiatorAddress))).run walk.table
      walk' = {
        table := entry.2
        entries := walk.entries ++ [entry.1]
        usedFrames := walk.usedFrames ++ (request :: transaction.responses).filterMap CapturedFrame.number
        teardown := if key.cseqMethod = bye then teardownOf (inScope networks key.flow.initiatorAddress)
          else walk.teardown } := by
  unfold Walk.step at stepped
  cases found : reconstruction.transaction key with
  | none =>
    rw [found] at stepped
    cases stepped
  | some transaction =>
    cases requested : transaction.request with
    | none =>
      simp only [found, requested] at stepped
      cases stepped
    | some request =>
      simp only [found, requested, bind_ok] at stepped
      obtain ⟨fromLocal, located, same⟩ := stepped
      have inside : inScope networks key.flow.initiatorAddress = fromLocal := by
        rw [inScope, located]
        rfl
      rw [inside]
      exact ⟨transaction, request, rfl, requested, located, (pure_ok.mp same).symm⟩

/-- The walk has taken the transactions of `keys`. -/
structure Walk.Of (networks : List Network) (keys : List TransactionKey) (walk : Walk) : Prop where
  directions : walk.entries.map TransactionEntry.direction =
    keys.map fun key => directionOf (inScope networks key.flow.initiatorAddress)
  teardown : walk.teardown = teardownBy networks keys

theorem Walk.Of.step {keys : List TransactionKey} {walk walk' : Walk} {key : TransactionKey} (of : walk.Of networks keys)
    (stepped : walk.step networks reconstruction first key = .ok walk') : walk'.Of networks (keys ++ [key]) := by
  obtain ⟨transaction, request, -, -, -, rfl⟩ := Walk.step_ok stepped
  constructor
  · rw [List.map_append, List.map_append, of.directions]
    rfl
  · by_cases ends : key.cseqMethod = bye
    · simp [teardownBy, lastBye, ends, List.filter_append]
    · simp [teardownBy, lastBye, ends, List.filter_append, of.teardown]

theorem Walk.Of.run {keys rest : List TransactionKey} {walk walk' : Walk} (of : walk.Of networks keys)
    (run : rest.foldlM (Walk.step networks reconstruction first) walk = .ok walk') : walk'.Of networks (keys ++ rest) := by
  induction rest generalizing keys walk with
  | nil =>
    obtain rfl := pure_ok.mp run
    rwa [List.append_nil]
  | cons key rest ih =>
    rw [List.foldlM_cons] at run
    obtain ⟨next, stepped, run⟩ := bind_ok.mp run
    rw [← List.singleton_append, ← List.append_assoc]
    exact ih (of.step stepped) run

theorem transactionEntry_alike (index : Nat) (key : TransactionKey) (transaction : CapturedTransaction)
    (request : CapturedFrame) (direction other : Direction) (table : Placeholders) :
    let entry := (transactionEntry first index key transaction request direction).run table
    let entry' := (transactionEntry first index key transaction request other).run table
    entry.1.undirected = entry'.1.undirected ∧ entry.2 = entry'.2 := by
  rw [transactionEntry_direction index key transaction request direction other]
  generalize (transactionEntry first index key transaction request other).run table = entry
  exact ⟨rfl, rfl⟩

/-- Two walks that differ in directions and teardown alone. -/
structure Walk.Alike (walk other : Walk) : Prop where
  table : walk.table = other.table
  entries : walk.entries.map TransactionEntry.undirected = other.entries.map TransactionEntry.undirected
  usedFrames : walk.usedFrames = other.usedFrames

theorem Walk.Alike.step {others : List Network} {walk walk' other other' : Walk} {key : TransactionKey}
    (alike : walk.Alike other) (stepped : walk.step networks reconstruction first key = .ok walk')
    (stepped' : other.step others reconstruction first key = .ok other') : walk'.Alike other' := by
  obtain ⟨transaction, request, found, requested, -, rfl⟩ := Walk.step_ok stepped
  obtain ⟨_, _, found', requested', -, rfl⟩ := Walk.step_ok stepped'
  obtain rfl := Option.some.inj (found.symm.trans found')
  obtain rfl := Option.some.inj (requested.symm.trans requested')
  have long : walk.entries.length = other.entries.length := by
    have same := congrArg List.length alike.entries
    rwa [List.length_map, List.length_map] at same
  obtain ⟨entry, table⟩ := @transactionEntry_alike first (walk.entries.length + 1) key transaction request
    (directionOf (inScope networks key.flow.initiatorAddress)) (directionOf (inScope others key.flow.initiatorAddress))
    walk.table
  constructor
  · dsimp only
    rw [← alike.table, ← long]
    exact table
  · dsimp only
    rw [List.map_append, List.map_append, alike.entries, ← alike.table, ← long]
    exact congrArg (fun last => _ ++ [last]) entry
  · dsimp only
    rw [alike.usedFrames]

theorem Walk.Alike.run {others : List Network} {keys : List TransactionKey} {walk walk' other other' : Walk}
    (alike : walk.Alike other) (run : keys.foldlM (Walk.step networks reconstruction first) walk = .ok walk')
    (run' : keys.foldlM (Walk.step others reconstruction first) other = .ok other') : walk'.Alike other' := by
  induction keys generalizing walk other with
  | nil =>
    obtain rfl := pure_ok.mp run
    obtain rfl := pure_ok.mp run'
    exact alike
  | cons key rest ih =>
    rw [List.foldlM_cons] at run run'
    obtain ⟨next, stepped, run⟩ := bind_ok.mp run
    obtain ⟨next', stepped', run'⟩ := bind_ok.mp run'
    exact ih (alike.step stepped stepped') run run'

end walk

section dialog
variable {dialog : DialogRecord} {frames : List CapturedFrame}

/-- What the placeholders of the dialog stand for. -/
theorem dialogEntry_raw (dialog : DialogRecord) (callerLocal : Bool) (teardown : Teardown) (table : Placeholders) :
    let entry := (dialogEntry dialog callerLocal teardown).run table
    entry.2.raw entry.1.localTag = some (caller dialog).tag ∧ entry.2.raw entry.1.remoteTag = some (callee dialog).tag ∧
      entry.2.raw entry.1.localContact =
        some (if callerLocal then (caller dialog).contact else (callee dialog).contact) ∧
      entry.2.raw entry.1.remoteContact =
        some (if callerLocal then (callee dialog).contact else (caller dialog).contact) ∧
      entry.1.teardownInitiator = teardown := by
  simp only [dialogEntry, StateT.run_bind]
  refine ⟨?_, ?_, ?_, ?_, rfl⟩
  · exact (grows_named _ _).raw ((grows_named _ _).raw ((grows_named _ _).raw (Placeholders.get_raw _ _ _)))
  · exact (grows_named _ _).raw ((grows_named _ _).raw (Placeholders.get_raw _ _ _))
  · exact (grows_named _ _).raw (Placeholders.get_raw _ _ _)
  · exact Placeholders.get_raw _ _ _

/-- An accepted dialog, the scope of its two sides, the walk over its transactions and its document. -/
structure Run (reconstruction : Reconstruction) (frames : List CapturedFrame) (networks : List Network)
    (dialog : DialogRecord) (walk : Walk) (document : Document) (table : Placeholders) : Prop where
  selected : reconstruction.dialogs = [dialog]
  known : dialog.key.callerTag.known?.isSome = true ∧ dialog.key.calleeTag.known?.isSome = true
  apart : callerInScope networks dialog ≠ inScope networks dialog.key.initialFlow.responderAddress
  walked : walkOf networks reconstruction (firstTime frames) dialog.transactionKeys = .ok walk
  parts : (remainder dialog frames (callerInScope networks dialog) walk.teardown).run walk.table =
    ((document.sdpRevisions, document.mediaPackets, document.dialog), table)
  transactions : document.transactions = walk.entries
  constants : document.schema = "sippycup.learned-dialog/v1" ∧ document.localRole = "test-agent" ∧
    document.remoteRole = "target"
  sources : document.sourceFrames = (walk.usedFrames ++
    dialog.sdpRevisions.filterMap (fun negotiated => negotiated.revision.evidence.frameNumber.known?) ++
    (mediaFrames dialog frames).filterMap CapturedFrame.number).dedup.insertionSort (· ≤ ·)
  count : document.sourceFrameCount = frames.length

theorem selectDialog_ok {reconstruction : Reconstruction} (selected : selectDialog reconstruction = .ok dialog) :
    reconstruction.dialogs = [dialog] := by
  unfold selectDialog at selected
  match listed : reconstruction.dialogs with
  | [] =>
    rw [listed] at selected
    cases selected
  | [only] =>
    rw [listed] at selected
    cases selected
    rfl
  | _ :: _ :: _ =>
    rw [listed] at selected
    cases selected

theorem validateDialog_known {reconstruction : Reconstruction} (valid : validateDialog dialog reconstruction frames = .ok ()) :
    dialog.key.callerTag.known?.isSome = true ∧ dialog.key.calleeTag.known?.isSome = true := by
  unfold validateDialog at valid
  split at valid
  · cases valid
  split at valid
  · cases valid
  · rename_i known
    rw [not_or, Option.isNone_iff_eq_none, Option.isNone_iff_eq_none] at known
    exact ⟨Option.isSome_iff_ne_none.mpr known.1, Option.isSome_iff_ne_none.mpr known.2⟩

theorem isLocal_inScope {networks : List Network} {address : Text} {inside : Bool}
    (located : isLocal networks address = .ok inside) : inScope networks address = inside := by
  rw [inScope, located]
  rfl

theorem canonicalizeWith_ok {reconstruction : Reconstruction} {localNetworks : List Text} {document : Document}
    {table : Placeholders} (accepted : canonicalizeWith reconstruction frames localNetworks = .ok (document, table)) :
    ∃ networks dialog walk, readNetworks localNetworks = .ok networks ∧
      Run reconstruction frames networks dialog walk document table := by
  simp only [canonicalizeWith, bind_ok] at accepted
  obtain ⟨networks, read, dialog, selected, ⟨⟩, valid, callerLocal, located, calleeLocal, located', accepted⟩ := accepted
  split at accepted
  · cases accepted
  · rename_i apart
    obtain ⟨walk, walked, accepted⟩ := bind_ok.mp accepted
    obtain ⟨rfl, rfl⟩ := Prod.mk.inj (pure_ok.mp accepted)
    have inside := isLocal_inScope located
    have inside' := isLocal_inScope located'
    subst inside inside'
    exact ⟨networks, dialog, walk, read, selectDialog_ok selected, validateDialog_known valid, apart, walked, rfl, rfl,
      ⟨rfl, rfl, rfl⟩, rfl, rfl⟩

theorem remainder_run (callerLocal : Bool) (teardown : Teardown) (table : Placeholders) :
    (remainder dialog frames callerLocal teardown).run table =
      let sdp := (dialog.sdpRevisions.zipIdx.mapM sdpEntry).run table
      let packets := ((mediaFrames dialog frames).mapM (packetEntry (firstTime frames))).run sdp.2
      let entry := (dialogEntry dialog callerLocal teardown).run packets.2
      ((sdp.1, packets.1, entry.1), entry.2) := by
  simp only [remainder, StateT.run_bind]
  rfl

end dialog

section runs
variable {reconstruction : Reconstruction} {frames : List CapturedFrame} {networks : List Network} {dialog : DialogRecord}
  {walk : Walk} {document : Document} {table : Placeholders}

theorem Run.walk_of (run : Run reconstruction frames networks dialog walk document table) :
    walk.Of networks dialog.transactionKeys := by
  change walk.Of networks ([] ++ dialog.transactionKeys)
  exact Walk.Of.run ⟨rfl, rfl⟩ run.walked

/-- The tags are the caller's and the callee's whatever the scope; the contacts go by it. -/
theorem Run.raw (run : Run reconstruction frames networks dialog walk document table) :
    table.raw document.dialog.localTag = some (caller dialog).tag ∧
      table.raw document.dialog.remoteTag = some (callee dialog).tag ∧
      table.raw document.dialog.localContact = some (localParty networks dialog).contact ∧
      table.raw document.dialog.remoteContact = some (remoteParty networks dialog).contact ∧
      document.dialog.teardownInitiator = teardownBy networks dialog.transactionKeys := by
  have parts := run.parts
  rw [remainder_run] at parts
  obtain ⟨same, rfl⟩ := Prod.mk.inj parts
  obtain ⟨-, same⟩ := Prod.mk.inj same
  obtain ⟨-, same⟩ := Prod.mk.inj same
  rw [← same]
  obtain ⟨localTag, remoteTag, localContact, remoteContact, teardown⟩ := dialogEntry_raw dialog
    (callerInScope networks dialog) walk.teardown _
  refine ⟨localTag, remoteTag, localContact.trans ?_, remoteContact.trans ?_, teardown.trans run.walk_of.teardown⟩
  · rw [localParty]
    split <;> rfl
  · rw [remoteParty]
    split <;> rfl

theorem tagRaw_eq {tag other : Oracle.Value Text} (known : tag.known?.isSome = true) (known' : other.known?.isSome = true) :
    tagRaw tag = tagRaw other ↔ tag.known? = other.known? := by
  obtain ⟨value, same⟩ := Option.isSome_iff_exists.mp known
  obtain ⟨value', same'⟩ := Option.isSome_iff_exists.mp known'
  rw [tagRaw, tagRaw, same, same']
  simp

theorem Run.tags (run : Run reconstruction frames networks dialog walk document table) :
    (caller dialog).tag = (callee dialog).tag ↔ dialog.key.callerTag.known? = dialog.key.calleeTag.known? :=
  tagRaw_eq run.known.1 run.known.2

theorem Run.consistent_iff (run : Run reconstruction frames networks dialog walk document table) :
    Consistent networks dialog document table ↔
      callerInScope networks dialog = true ∨ dialog.key.callerTag.known? = dialog.key.calleeTag.known? := by
  obtain ⟨localTag, remoteTag, localContact, remoteContact, teardown⟩ := run.raw
  have directions := run.walk_of.directions
  rw [← run.transactions] at directions
  rw [← run.tags]
  constructor
  · intro consistent
    cases inside : callerInScope networks dialog with
    | true => exact .inl rfl
    | false =>
      have same := consistent.localTag
      rw [localTag, localParty, inside] at same
      exact .inr (Option.some.inj same)
  · intro condition
    refine ⟨localTag.trans ?_, remoteTag.trans ?_, localContact, remoteContact, directions, teardown⟩
    · rw [localParty]
      split
      · rfl
      · rename_i outside
        exact congrArg some (condition.resolve_left outside)
    · rw [remoteParty]
      split
      · rfl
      · rename_i outside
        exact congrArg some (condition.resolve_left outside).symm

variable {others : List Network} {walk' : Walk} {document' : Document} {table' : Placeholders}

theorem Run.exchanged_party (run : Run reconstruction frames networks dialog walk document table)
    (run' : Run reconstruction frames others dialog walk' document' table')
    (swapped : callerInScope others dialog = !callerInScope networks dialog) {address : Text}
    (party : OfParty dialog address) : inScope others address = !inScope networks address := by
  obtain rfl | rfl := party
  · exact swapped
  · have apart := run.apart
    have apart' := run'.apart
    rw [swapped] at apart'
    revert apart apart'
    cases callerInScope networks dialog <;> cases inScope networks dialog.key.initialFlow.responderAddress <;>
      cases inScope others dialog.key.initialFlow.responderAddress <;> simp

theorem directionOf_not (inside : Bool) : directionOf (!inside) = (directionOf inside).exchange := by cases inside <;> rfl

theorem teardownOf_not (inside : Bool) : teardownOf (!inside) = (teardownOf inside).exchange := by cases inside <;> rfl

/-- Nothing but the roles goes by the scope. -/
theorem Run.withoutRoles (run : Run reconstruction frames networks dialog walk document table)
    (run' : Run reconstruction frames others dialog walk' document' table') :
    document'.withoutRoles = document.withoutRoles := by
  obtain ⟨tables, entries, used⟩ := Walk.Alike.run ⟨rfl, rfl, rfl⟩ run'.walked run.walked
  have parts := run.parts
  have parts' := run'.parts
  rw [remainder_run, ← tables] at parts
  rw [remainder_run] at parts'
  obtain ⟨same, -⟩ := Prod.mk.inj parts
  obtain ⟨sdp, same⟩ := Prod.mk.inj same
  obtain ⟨packets, entry⟩ := Prod.mk.inj same
  obtain ⟨same', -⟩ := Prod.mk.inj parts'
  obtain ⟨sdp', same'⟩ := Prod.mk.inj same'
  obtain ⟨packets', entry'⟩ := Prod.mk.inj same'
  have transactions : document'.transactions.map TransactionEntry.undirected =
      document.transactions.map TransactionEntry.undirected := by
    rw [run'.transactions, run.transactions, entries]
  have sources : document'.sourceFrames = document.sourceFrames := by rw [run'.sources, run.sources, used]
  have count : document'.sourceFrameCount = document.sourceFrameCount := by rw [run'.count, run.count]
  have callId : document'.dialog.callId = document.dialog.callId := by
    rw [← entry, ← entry']
    rfl
  have state : document'.dialog.state = document.dialog.state := by
    rw [← entry, ← entry']
    rfl
  obtain ⟨schema, localRole, remoteRole⟩ := run.constants
  obtain ⟨schema', localRole', remoteRole'⟩ := run'.constants
  dsimp only [Document.withoutRoles]
  rw [transactions, sources, count, callId, state, schema, schema', localRole, localRole', remoteRole, remoteRole',
    ← sdp, ← sdp', ← packets, ← packets']

theorem Run.exchanges_iff (run : Run reconstruction frames networks dialog walk document table)
    (run' : Run reconstruction frames others dialog walk' document' table')
    (swapped : callerInScope others dialog = !callerInScope networks dialog) :
    Exchanges dialog document table document' table' ↔ dialog.key.callerTag.known? = dialog.key.calleeTag.known? := by
  obtain ⟨localTag, remoteTag, localContact, remoteContact, teardown⟩ := run.raw
  obtain ⟨localTag', remoteTag', localContact', remoteContact', teardown'⟩ := run'.raw
  rw [← run.tags]
  constructor
  · intro exchanges
    have same := exchanges.localTag
    rw [localTag', remoteTag] at same
    exact Option.some.inj same
  · intro same
    refine ⟨?_, ?_, ?_, ?_, ?_, ?_, run.withoutRoles run'⟩
    · rw [localTag', remoteTag, same]
    · rw [remoteTag', localTag, same]
    · rw [localContact', remoteContact, localParty, remoteParty, swapped]
      cases callerInScope networks dialog <;> rfl
    · rw [remoteContact', localContact, localParty, remoteParty, swapped]
      cases callerInScope networks dialog <;> rfl
    · intro i key at_ party
      have directions := congrArg (·[i]?) run.walk_of.directions
      have directions' := congrArg (·[i]?) run'.walk_of.directions
      rw [← run.transactions] at directions
      rw [← run'.transactions] at directions'
      simp only [List.getElem?_map, at_, Option.map_some] at directions directions'
      rw [directions', run.exchanged_party run' swapped party, directionOf_not]
      obtain ⟨entry, found, direction⟩ := Option.map_eq_some_iff.mp directions
      rw [found, Option.map_some, direction]
    · intro parties
      rw [teardown, teardown', teardownBy, teardownBy]
      cases last : lastBye dialog.transactionKeys with
      | none => rfl
      | some key =>
        dsimp only
        rw [run.exchanged_party run' swapped (parties key last), teardownOf_not]

end runs

/-- The roles of an accepted dialog are consistent just when the caller is the side in local scope or both tags are
one; and with the two sides of the scope exchanged the roles are exchanged just when both tags are one. -/
theorem roles_consistent_iff {reconstruction : Reconstruction} {frames : List CapturedFrame} {localNetworks : List Text}
    {document : Document} {table : Placeholders}
    (accepted : canonicalizeWith reconstruction frames localNetworks = .ok (document, table)) :
    ∃ networks dialog, readNetworks localNetworks = .ok networks ∧ reconstruction.dialogs = [dialog] ∧
      (Consistent networks dialog document table ↔
        callerInScope networks dialog = true ∨ dialog.key.callerTag.known? = dialog.key.calleeTag.known?) ∧
      ∀ otherNetworks others document' table', readNetworks otherNetworks = .ok others →
        canonicalizeWith reconstruction frames otherNetworks = .ok (document', table') →
        callerInScope others dialog = (!callerInScope networks dialog) →
        (Exchanges dialog document table document' table' ↔
          dialog.key.callerTag.known? = dialog.key.calleeTag.known?) := by
  obtain ⟨networks, dialog, walk, read, run⟩ := canonicalizeWith_ok accepted
  refine ⟨networks, dialog, read, run.selected, run.consistent_iff, ?_⟩
  intro otherNetworks others document' table' read' accepted' swapped
  obtain ⟨_, dialog', walk', again, run'⟩ := canonicalizeWith_ok accepted'
  obtain rfl := Except.ok.inj (read'.symm.trans again)
  obtain rfl : dialog = dialog' := by
    have same := run.selected.symm.trans run'.selected
    exact (List.cons.inj same).1
  exact run.exchanges_iff run' swapped

section examples

def sampleKey (number : Int) (method : Text) (flow : FlowKey) : TransactionKey := ⟨⟨"call", number, method, "z9hG4bK"⟩, flow⟩

def sampleTransaction (key : TransactionKey) : CapturedTransaction where
  key := key
  request := some
    { evidence := ⟨.known 1, .known 1⟩, status := .known .complete
      source := .known key.flow.initiatorAddress key.flow.initiatorPort
      destination := .known key.flow.responderAddress key.flow.responderPort
      sip := none, sdp := none, rtp := none, rtcp := none, originalLength := .known 400, protocols := ["sip"] }
  responses := []
  retransmissions := []
  ambiguity := .known false

/-- A call that the callee ends. -/
def sampleCall : Reconstruction :=
  let dialog := DialogRecord.between "192.0.2.10" "198.51.100.20" []
  let invite := sampleKey 1 "INVITE" dialog.key.initialFlow
  let ending := sampleKey 2 bye dialog.key.initialFlow.reverse
  ⟨[sampleTransaction invite, sampleTransaction ending],
    [{ dialog with state := .terminated, transactionKeys := [invite, ending] }]⟩

def callerNetworks : List Text := ["192.0.2.0/24"]

def calleeNetworks : List Text := ["198.51.100.0/24"]

theorem sampleCall_accepted : (canonicalizeWith sampleCall [] callerNetworks).isOk = true := by decide +kernel

theorem sampleCall_roles : ∃ document table, canonicalizeWith sampleCall [] callerNetworks = .ok (document, table) ∧
    ∃ networks dialog, readNetworks callerNetworks = .ok networks ∧ sampleCall.dialogs = [dialog] ∧
      (Consistent networks dialog document table ↔
        callerInScope networks dialog = true ∨ dialog.key.callerTag.known? = dialog.key.calleeTag.known?) ∧
      ∀ otherNetworks others document' table', readNetworks otherNetworks = .ok others →
        canonicalizeWith sampleCall [] otherNetworks = .ok (document', table') →
        callerInScope others dialog = (!callerInScope networks dialog) →
        (Exchanges dialog document table document' table' ↔
          dialog.key.callerTag.known? = dialog.key.calleeTag.known?) := by
  obtain ⟨⟨document, table⟩, accepted⟩ := isOk_iff.mp sampleCall_accepted
  exact ⟨document, table, accepted, roles_consistent_iff accepted⟩

/-- With the callee in local scope the local contact is the callee's, and the local tag the caller's. -/
theorem calleeScope_roles :
    (canonicalizeWith sampleCall [] calleeNetworks).toOption.map (fun (document, table) =>
      (table.raw document.dialog.localTag, table.raw document.dialog.localContact,
        document.transactions.map TransactionEntry.direction, document.dialog.teardownInitiator)) =
      some (some (.text "caller"), some (.contact "198.51.100.20" 5060), [.remoteToLocal, .localToRemote], .local) := by
  decide +kernel

end examples

end Sippycup.Learn.Canonical
