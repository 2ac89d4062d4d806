import Sippycup.Chaos.AcceptedProfile

/-! The lifecycle's check of an impairment plan: the settings it embeds are
compiled again, and the two plans must have one canonical text. -/
namespace Sippycup.Chaos
open Sippycup.Python Sippycup.Ip

def lifecycleError {α : Type} (message : String) : Result α := .error (.own (.lifecycle message))

def badDirections : String := "impairment directions are invalid or duplicated"

/-- Direction and settings of one item; the direction is looked up in a set. -/
def readSetting (index : Nat) (settings : JsonDict) (item : JsonValue) :
    Result (Text × JsonValue) :=
  match item with
  | .dict d =>
    match JsonDict.find d "direction" with
    | .str direction =>
      if direction ∉ directionNames ∨ settings.contains direction then lifecycleError badDirections
      else
        match JsonDict.find d "impairment" with
        | .dict impairment => .ok (direction, .dict impairment)
        | _ => lifecycleError "impairment settings must be an object"
    | value => if value.hashable then lifecycleError badDirections else .error (.builtin .typeError)
  | _ => lifecycleError s!"impairment direction {index} must be an object"

def readSettings : Nat → JsonDict → List JsonValue → Result JsonDict
  | _, settings, [] => .ok settings
  | index, settings, item :: rest => do
    let setting ← readSetting index settings item
    readSettings (index + 1) (settings ++ [setting]) rest

/-- `profile[key]`, a `KeyError` being reported. -/
def embeddedItem (profile : JsonDict) (key : String) : Result JsonValue :=
  match profile.get? key with
  | some value => .ok value
  | none => lifecycleError s!"invalid impairment plan: '{key}'"

section embedded
open JsonDict (entry)

def embeddedProfile (name seed duration direction : JsonValue) (settings : JsonDict) : JsonValue :=
  .dict [entry "apiVersion" (str profileVersion), entry "kind" (str "ChaosProfile"),
    entry "metadata" (.dict [entry "name" name]), entry "seed" seed,
    entry "durationSeconds" duration, entry "direction" direction,
    entry "directions" (.dict settings)]

end embedded

def embedProfile (profile settings : JsonDict) : Result (JsonValue × JsonValue) := do
  let source ← embeddedItem profile "sourceSha256"
  let name ← embeddedItem profile "name"
  let seed ← embeddedItem profile "seed"
  let duration ← embeddedItem profile "durationSeconds"
  let direction ← embeddedItem profile "direction"
  return (embeddedProfile name seed duration direction settings, source)

/-- The profile embedded in a plan, and the digest of its source. -/
def embeddedIn (plan : JsonValue) : Result (JsonValue × JsonValue) :=
  match plan with
  | .dict document =>
    match JsonDict.find document "profile", JsonDict.find document "directions" with
    | .dict profile, .list directions => do
      let settings ← readSettings 0 [] directions
      embedProfile profile settings
    | _, _ => lifecycleError "impairment plan profile/directions are malformed"
  | _ => lifecycleError "impairment plan must be an object"

/-- Compilation errors, as the lifecycle reports them. -/
def asInvalidPlan {α : Type} (result : Result α) : Result α :=
  match result with
  | .error (.own (.profile message)) => lifecycleError s!"invalid impairment plan: {message}"
  | .error (.builtin .keyError) => lifecycleError "invalid impairment plan"
  | result => result

def startsWith (t stem : Text) : Bool := stem.codes.isPrefixOf t.codes

/-- A full match of `sippycup-[0-9a-f]{8}-[0-9a-f]{8}`. -/
def ownerOk (owner : Text) : Bool :=
  decide (owner.length = 26) && startsWith owner "sippycup-" &&
    ((owner.codes.drop 9).take 8).all isHexCode && decide (owner.codes[17]? = some 45) &&
      (owner.codes.drop 18).all isHexCode

def readOwner (topology : JsonValue) (plan : JsonDict) : Result Text :=
  let message := "impairment owner does not bind to the topology plan"
  match plan.find "owner" with
  | .str owner =>
    if ownerOk owner && startsWith owner (ownerStem topology) then .ok owner else lifecycleError message
  | _ => lifecycleError message

def PlanCommand.withOwner (expected owner : Text) (c : PlanCommand) : PlanCommand :=
  { c with owns := owner ++ ⟨c.owns.codes.drop expected.length⟩ }

def rebindCommand (expected owner : Text) (c : PlanCommand) : Result PlanCommand :=
  if startsWith c.owns expected then .ok (c.withOwner expected owner)
  else lifecycleError "recompiled command ownership is inconsistent"

def ImpairmentPlan.rebind (p : ImpairmentPlan) (owner : Text) : Result ImpairmentPlan := do
  let commands ← p.commands.mapM (rebindCommand p.owner owner)
  return { p with owner, commands }

def confirmSame (rebound : ImpairmentPlan) (plan : JsonValue) : Result ImpairmentPlan :=
  if rebound.toJson.canonical = plan.canonical then .ok rebound
  else lifecycleError
    "impairment plan differs from deterministic recompilation; refusing injected or modified commands"

/-- The plan as compiled from its own settings. The check of its version and kind that ends the
source function cannot fail: the compiler has just written both. -/
def validateImpairmentPlan (isAlnum : Nat → Bool) (topology plan : JsonValue) :
    Result ImpairmentPlan := do
  let (embedded, source) ← embeddedIn plan
  let expected ← asInvalidPlan (compileProfile isAlnum topology embedded source)
  let owner ← readOwner topology (subDict plan)
  let rebound ← expected.rebind owner
  confirmSame rebound plan

end Sippycup.Chaos

/-! What the compiler makes of a normalised profile, and how a compiled plan
carries its owner. -/
namespace Sippycup.Chaos
open Sippycup.Python Sippycup.Ip

section digests

theorem digest_ok (value : JsonValue) : sha256Ok (digest value) = true := sha256Hex_ok _

/-- Eight lowercase hex digits. -/
def EightHex (t : Text) : Prop := t.codes.length = 8 ∧ ∀ c ∈ t.codes, isHexCode c = true

theorem shortDigest_hex (value : JsonValue) : EightHex (shortDigest (digest value)) := by
  have ok := digest_ok value
  rw [sha256Ok, Bool.and_eq_true, decide_eq_true_eq, List.all_eq_true] at ok
  have long : (digest value).codes.length = 64 := ok.1
  constructor
  · rw [shortDigest, List.length_take, long]
    rfl
  · exact fun c member => ok.2 c (List.mem_of_mem_take member)

/-- An owner that names the topology plan and ends in eight hex digits of its own. -/
def OwnerOf (topology : JsonValue) (owner : Text) : Prop :=
  ∃ suffix, owner = ownerStem topology ++ suffix ∧ EightHex suffix

theorem ownerStem_codes (topology : JsonValue) : (ownerStem topology).codes =
    (Text.ofString "sippycup-").codes ++ (shortDigest (digest topology)).codes ++ [45] := rfl

theorem ownerStem_length (topology : JsonValue) : (ownerStem topology).codes.length = 18 := by
  rw [ownerStem_codes, List.length_append, List.length_append, (shortDigest_hex topology).1]
  rfl

theorem ownerOk_of {topology : JsonValue} {owner : Text} (bound : OwnerOf topology owner) :
    (ownerOk owner && startsWith owner (ownerStem topology)) = true := by
  obtain ⟨suffix, rfl, eight, hex⟩ := bound
  obtain ⟨short, stemHex⟩ := shortDigest_hex topology
  have nine : (Text.ofString "sippycup-").codes.length = 9 := rfl
  have codes : (ownerStem topology ++ suffix).codes = (Text.ofString "sippycup-").codes ++
      ((shortDigest (digest topology)).codes ++ 45 :: suffix.codes) := by
    rw [Text.codes_append, ownerStem_codes]
    simp
  have stem : startsWith (ownerStem topology ++ suffix) (ownerStem topology) = true :=
    List.isPrefixOf_iff_prefix.mpr (List.prefix_append _ _)
  have named : startsWith (ownerStem topology ++ suffix) "sippycup-" = true := by
    rw [startsWith, codes]
    exact List.isPrefixOf_iff_prefix.mpr (List.prefix_append _ _)
  have long : (ownerStem topology ++ suffix).length = 26 := by
    rw [Text.length, codes]
    simp [nine, short, eight]
  have afterName : (ownerStem topology ++ suffix).codes.drop 9 =
      (shortDigest (digest topology)).codes ++ 45 :: suffix.codes := by
    rw [codes]
    exact List.drop_left' nine
  have first : ((ownerStem topology ++ suffix).codes.drop 9).take 8 =
      (shortDigest (digest topology)).codes := by
    rw [afterName]
    exact List.take_left' short
  have hyphen : (ownerStem topology ++ suffix).codes[17]? = some 45 := by
    rw [codes, List.getElem?_append_right (by rw [nine]; decide), nine,
      List.getElem?_append_right (by rw [short]), short]
    rfl
  have last : (ownerStem topology ++ suffix).codes.drop 18 = suffix.codes :=
    List.drop_left' (ownerStem_length topology)
  rw [ownerOk, long, named, first, hyphen, last, stem]
  simp only [decide_true, Bool.true_and, Bool.and_true, Bool.and_eq_true, List.all_eq_true]
  exact ⟨stemHex, hex⟩

theorem ownerOf_of {topology : JsonValue} {owner : Text} (ok : ownerOk owner = true)
    (stem : startsWith owner (ownerStem topology) = true) : OwnerOf topology owner := by
  obtain ⟨suffix, codes⟩ := List.isPrefixOf_iff_prefix.mp stem
  simp only [ownerOk, Bool.and_eq_true, decide_eq_true_eq, List.all_eq_true] at ok
  obtain ⟨⟨⟨⟨long, -⟩, -⟩, -⟩, hex⟩ := ok
  refine ⟨⟨suffix⟩, Text.ext codes.symm, ?_, ?_⟩
  · rw [Text.length, ← codes, List.length_append, ownerStem_length] at long
    show suffix.length = 8
    omega
  · rw [← codes, List.drop_left' (ownerStem_length topology)] at hex
    exact hex

theorem readOwner_ok {topology : JsonValue} {plan : JsonDict} {owner : Text} :
    readOwner topology plan = .ok owner ↔
      plan.get? "owner" = some (.str owner) ∧ OwnerOf topology owner := by
  rw [readOwner, JsonDict.find]
  constructor
  · intro read
    split at read
    · rename_i t found
      split at read
      · rename_i ok
        obtain rfl := Except.ok.inj read
        rw [Bool.and_eq_true] at ok
        refine ⟨?_, ownerOf_of ok.1 ok.2⟩
        cases present : plan.get? "owner" with
        | none => rw [present] at found; cases found
        | some value => rw [present] at found; exact congrArg some found
      · cases read
    · cases read
  · rintro ⟨found, bound⟩
    simp [found, ownerOk_of bound]

end digests

section commands
variable {t : Target} {owner : Text}

def Target.withOwner (t : Target) (owner : Text) : Target := { t with owner }

/-- The commands of a target, as what they are made of. -/
def Target.Made (t : Target) (c : PlanCommand) : Prop := ∃ id operation tag, c = t.command id operation tag

theorem made_starts {c : PlanCommand} (made : t.Made c) : startsWith c.owns t.owner = true := by
  obtain ⟨id, operation, tag, rfl⟩ := made
  exact List.isPrefixOf_iff_prefix.mpr (List.prefix_append _ _)

theorem command_withOwner (id tag : Text) (operation : Operation) :
    (t.command id operation tag).withOwner t.owner owner =
      (t.withOwner owner).command id operation tag := by
  have tail : (t.command id operation tag).owns.codes.drop t.owner.length =
      (Text.ofString ":" ++ t.direction ++ tag).codes := List.drop_left' rfl
  rw [PlanCommand.withOwner, tail]
  rfl

theorem filterCommands_made (index : Nat) (filters : List JsonDict) :
    ∀ c ∈ t.filterCommands index filters, t.Made c := by
  induction filters generalizing index with
  | nil => exact fun c absent => nomatch absent
  | cons f rest ih =>
    rw [Target.filterCommands, List.forall_mem_cons]
    exact ⟨⟨_, _, _, rfl⟩, ih _⟩

theorem filterCommands_withOwner (index : Nat) (filters : List JsonDict) :
    (t.filterCommands index filters).map (PlanCommand.withOwner t.owner owner) =
      (t.withOwner owner).filterCommands index filters := by
  induction filters generalizing index with
  | nil => rfl
  | cons f rest ih =>
    rw [Target.filterCommands, Target.filterCommands, List.map_cons, ih, command_withOwner]

theorem commands_made (i : Impairment Decimal) : ∀ c ∈ t.commands i, t.Made c := by
  have one : ∀ id operation tag, t.Made (t.command id operation tag) :=
    fun id operation tag => ⟨id, operation, tag, rfl⟩
  have mtu : ∀ c ∈ t.mtuCommands i.mtu, t.Made c := by
    cases present : i.mtu <;> simp [Target.mtuCommands, one]
  have rate : ∀ c ∈ t.rateCommands i.rate, t.Made c := by
    cases present : i.rate <;> simp [Target.rateCommands, one]
  have netem : ∀ args, ∀ c ∈ t.netemCommands i.rate args, t.Made c := by
    intro args
    rw [Target.netemCommands]
    split <;> simp [one]
  rw [Target.commands, List.forall_mem_append]
  refine ⟨mtu, ?_⟩
  rw [Target.shapingCommands]
  split
  · exact fun c absent => nomatch absent
  · rw [List.cons_append, List.cons_append, List.forall_mem_cons, List.forall_mem_append,
      List.forall_mem_append]
    exact ⟨one _ _ _, ⟨filterCommands_made 0 t.filters, rate⟩, netem _⟩

theorem commands_withOwner (i : Impairment Decimal) :
    (t.commands i).map (PlanCommand.withOwner t.owner owner) = (t.withOwner owner).commands i := by
  have mtu : (t.mtuCommands i.mtu).map (PlanCommand.withOwner t.owner owner) =
      (t.withOwner owner).mtuCommands i.mtu := by
    cases present : i.mtu <;> simp [Target.mtuCommands, command_withOwner]
  have rate : (t.rateCommands i.rate).map (PlanCommand.withOwner t.owner owner) =
      (t.withOwner owner).rateCommands i.rate := by
    cases present : i.rate <;> simp [Target.rateCommands, command_withOwner]
  have netem : ∀ args, (t.netemCommands i.rate args).map (PlanCommand.withOwner t.owner owner) =
      (t.withOwner owner).netemCommands i.rate args := by
    intro args
    rw [Target.netemCommands, Target.netemCommands]
    split <;> simp [command_withOwner]
  rw [Target.commands, Target.commands, List.map_append, mtu]
  refine congrArg _ ?_
  rw [Target.shapingCommands, Target.shapingCommands]
  split
  · rename_i empty
    exact (if_pos empty).symm
  · rename_i shaped
    rw [List.cons_append, List.cons_append, List.map_cons, List.map_append, List.map_append,
      command_withOwner, filterCommands_withOwner, rate, netem]
    exact (if_neg shaped).symm

theorem compiled_withOwner (i : Impairment Decimal) :
    (t.withOwner owner).compiled i = t.compiled i := by
  have ids : ((t.withOwner owner).commands i).map PlanCommand.id =
      (t.commands i).map PlanCommand.id := by
    rw [← commands_withOwner, List.map_map]
    rfl
  rw [Target.compiled, Target.compiled, ids]
  rfl

end commands

section compile
variable {topology : Topology}

/-- The topology has filters for the direction, and allows the change of its MTU. -/
def Ready (topology : Topology) (d : Text × Impairment Decimal) : Prop :=
  (topology.targets.filter fun target => (target.find "direction").isText d.1).isEmpty = false ∧
    checkMtu topology.plan topology.dangerous d.2.mtu = .ok ()

theorem compileDirections_ok {owner : Text} {seed : Int} {ds : List (Text × Impairment Decimal)}
    {result : List CompiledDirection × List PlanCommand} :
    compileDirections topology owner seed ds = .ok result ↔
      (∀ d ∈ ds, Ready topology d) ∧
        result = (ds.map fun d => (topology.target owner seed d.1).compiled d.2,
          ds.flatMap fun d => (topology.target owner seed d.1).commands d.2) := by
  induction ds generalizing result with
  | nil =>
    rw [compileDirections]
    simp [eq_comm]
  | cons d rest ih =>
    obtain ⟨direction, i⟩ := d
    simp only [compileDirections, compileDirection, bind_ok, refuse_ok, pure_ok, ih, exists_const,
      List.forall_mem_cons, Ready]
    constructor
    · rintro ⟨_, ⟨filters, ⟨⟩, mtu, rfl⟩, _, ⟨others, rfl⟩, rfl⟩
      exact ⟨⟨⟨filters, mtu⟩, others⟩, rfl⟩
    · rintro ⟨⟨⟨filters, mtu⟩, others⟩, rfl⟩
      exact ⟨_, ⟨filters, (), mtu, rfl⟩, _, ⟨others, rfl⟩, rfl⟩

/-- The plan of a normalised profile, under a given owner. -/
def planOf (topology : Topology) (owner : Text) (n : NormalizedProfile) (sourceSha256 : Text) :
    ImpairmentPlan where
  name := n.name
  sourceSha256
  seed := n.seed
  durationSeconds := n.durationSeconds
  direction := n.direction
  planSha256 := digest (.dict topology.plan)
  targetScopeSha256 := topology.plan.find "targetScopeSha256"
  snapshotSha256 := topology.plan.find "snapshotSha256"
  dangerous := topology.dangerous
  owner
  directions := n.directions.map fun d => (topology.target owner n.seed d.1).compiled d.2
  commands := n.directions.flatMap fun d => (topology.target owner n.seed d.1).commands d.2

def ownerOf (topology : Topology) (n : NormalizedProfile) : Text :=
  ownerStem (.dict topology.plan) ++ shortDigest (digest n.toJson)

theorem ownerOf_bound (topology : Topology) (n : NormalizedProfile) :
    OwnerOf (.dict topology.plan) (ownerOf topology n) := ⟨_, rfl, shortDigest_hex n.toJson⟩

/-- What the compiler asks of a normalised profile on the topology. -/
def Compiles (topology : Topology) (n : NormalizedProfile) : Prop :=
  (∀ d ∈ n.directions, (subDict (topology.plan.find "attachments")).contains d.1 = true) ∧
    ∀ d ∈ n.directions, Ready topology d

theorem compileNormalized_ok {n : NormalizedProfile} {source : JsonValue} {p : ImpairmentPlan} :
    compileNormalized topology n source = .ok p ↔
      Compiles topology n ∧ ∃ sourceSha256, readSource source n = .ok sourceSha256 ∧
        p = planOf topology (ownerOf topology n) n sourceSha256 := by
  simp only [compileNormalized, bind_ok, pure_ok, refuse_ok, Bool.not_eq_false', List.all_eq_true,
    exists_const, compileDirections_ok, Compiles]
  constructor
  · rintro ⟨attached, _, ⟨ready, rfl⟩, sourceSha256, read, rfl⟩
    exact ⟨⟨attached, ready⟩, sourceSha256, read, rfl⟩
  · rintro ⟨⟨attached, ready⟩, sourceSha256, read, rfl⟩
    exact ⟨attached, _, ⟨ready, rfl⟩, sourceSha256, read, rfl⟩

theorem compileProfile_ok {isAlnum : Nat → Bool} {document profile source : JsonValue}
    {p : ImpairmentPlan} :
    compileProfile isAlnum document profile source = .ok p ↔
      ∃ (topology : Topology) (n : NormalizedProfile) (sourceSha256 : Text),
        validateTopology document = .ok (topology.plan, topology.targets) ∧
          validateProfile isAlnum profile = .ok n ∧
            readDangerous topology.plan = .ok topology.dangerous ∧ Compiles topology n ∧
              readSource source n = .ok sourceSha256 ∧
                p = planOf topology (ownerOf topology n) n sourceSha256 := by
  simp only [compileProfile, bind_ok, compileNormalized_ok, Prod.exists]
  constructor
  · rintro ⟨plan, targets, accepted, n, validated, dangerous, flagged, compiles, sourceSha256, read,
      rfl⟩
    exact ⟨⟨plan, targets, dangerous⟩, n, sourceSha256, accepted, validated, flagged, compiles, read,
      rfl⟩
  · rintro ⟨⟨plan, targets, dangerous⟩, n, sourceSha256, accepted, validated, flagged, compiles,
      read, rfl⟩
    exact ⟨plan, targets, accepted, n, validated, dangerous, flagged, compiles, sourceSha256, read,
      rfl⟩

theorem readSource_ok {source : JsonValue} {n : NormalizedProfile} {t : Text}
    (read : readSource source n = .ok t) : sha256Ok t = true := by
  unfold readSource at read
  split at read
  · split at read
    · split at read
      · rename_i ok
        exact Except.ok.inj read ▸ ok
      · cases read
    · cases read
  · exact Except.ok.inj read ▸ digest_ok _

theorem readSource_given {n : NormalizedProfile} {t : Text} (ok : sha256Ok t = true) :
    readSource (.str t) n = .ok t := by
  have long : t.length = 64 := by
    rw [sha256Ok, Bool.and_eq_true, decide_eq_true_eq] at ok
    exact ok.1
  have truthy : (JsonValue.str t).truthy = true := by
    have some_ : t.codes ≠ [] := by
      rintro empty
      rw [Text.length, empty] at long
      cases long
    simp [JsonValue.truthy, some_]
  unfold readSource
  rw [if_pos truthy]
  exact if_pos ok

theorem mapM_rebind {expected owner : Text} {commands : List PlanCommand}
    (starts : ∀ c ∈ commands, startsWith c.owns expected = true) :
    commands.mapM (rebindCommand expected owner) =
      .ok (commands.map (PlanCommand.withOwner expected owner)) := by
  induction commands with
  | nil => rfl
  | cons c rest ih =>
    rw [List.forall_mem_cons] at starts
    rw [List.mapM_cons, rebindCommand, if_pos starts.1, ih starts.2]
    rfl

/-- A compiled plan is rebound to any owner as if it had been compiled under it. -/
theorem planOf_rebind (topology : Topology) (expected owner : Text) (n : NormalizedProfile) (sourceSha256 : Text) :
    (planOf topology expected n sourceSha256).rebind owner =
      .ok (planOf topology owner n sourceSha256) := by
  have starts : ∀ c ∈ (planOf topology expected n sourceSha256).commands,
      startsWith c.owns expected = true := by
    intro c member
    obtain ⟨d, -, inside⟩ := List.mem_flatMap.mp member
    exact made_starts (commands_made d.2 c inside)
  have commands : (planOf topology expected n sourceSha256).commands.map
      (PlanCommand.withOwner expected owner) = (planOf topology owner n sourceSha256).commands := by
    simp only [planOf, List.map_flatMap]
    refine List.flatMap_congr fun d _ => ?_
    exact commands_withOwner (t := topology.target expected n.seed d.1) d.2
  have directions : (planOf topology expected n sourceSha256).directions =
      (planOf topology owner n sourceSha256).directions := by
    refine List.map_congr_left fun d _ => ?_
    exact (compiled_withOwner (t := topology.target expected n.seed d.1) d.2).symm
  refine bind_ok.mpr ⟨_, mapM_rebind starts, ?_⟩
  have owned : (planOf topology expected n sourceSha256).owner = expected := rfl
  rw [owned, commands, directions]
  rfl

end compile

end Sippycup.Chaos
