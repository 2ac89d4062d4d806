import Sippycup.Chaos.Agreement
import Sippycup.Chaos.Compiled

/-! A compiled plan and its recompilation: the settings a plan embeds read back
as the settled ones, so the recompilation differs in a negative zero at most. -/
namespace Sippycup.Chaos
open Sippycup.Python Sippycup.Ip

section embedded
open JsonDict (entry get?_append)

def settingsOf (ds : List (Text × Impairment Decimal)) : JsonDict := ds.map fun d => (d.1, d.2.json)

theorem get?_settings {ds : List (Text × Impairment Decimal)} (distinct : (ds.map Prod.fst).Nodup) :
    ∀ d ∈ ds, (settingsOf ds).get? d.1 = some d.2.json := by
  induction ds with
  | nil => exact fun d absent => nomatch absent
  | cons first rest ih =>
    rw [List.map_cons, List.nodup_cons] at distinct
    rw [List.forall_mem_cons]
    constructor
    · simp [settingsOf]
    · intro d member
      have other : first.1 ≠ d.1 := fun same =>
        distinct.1 (same ▸ List.mem_map_of_mem member)
      rw [settingsOf, List.map_cons, JsonDict.get?_cons, if_neg other]
      exact ih distinct.2 d member

/-- The settings are collected direction by direction. -/
theorem readSettings_compiled {ds : List (Text × Impairment Decimal)}
    (target : Text × Impairment Decimal → Target) (named : ∀ d ∈ ds, (target d).direction = d.1)
    (known : ∀ d ∈ ds, d.1 ∈ directionNames) (distinct : (ds.map Prod.fst).Nodup) (index : Nat)
    (seen : JsonDict) (fresh : ∀ d ∈ ds, d.1 ∉ seen.keys) :
    readSettings index seen (ds.map fun d => .dict ((target d).compiled d.2).toDict) =
      .ok (seen ++ settingsOf ds) := by
  induction ds generalizing index seen with
  | nil =>
    rw [List.map_nil, readSettings, settingsOf, List.map_nil, List.append_nil]
  | cons first rest ih =>
    rw [List.forall_mem_cons] at named known fresh
    rw [List.map_cons, List.nodup_cons] at distinct
    have absent : ¬ (first.1 ∉ directionNames ∨ seen.contains first.1 = true) := by
      rw [JsonDict.contains_iff]
      exact not_or_intro (not_not_intro known.1) fresh.1
    have setting : readSetting index seen (.dict ((target first).compiled first.2).toDict) =
        .ok (first.1, first.2.json) := by
      simp only [readSetting, JsonDict.find, CompiledDirection.toDict, Target.compiled,
        JsonDict.get?_entry, Impairment.json, named.1]
      simp [absent]
    have later : ∀ d ∈ rest, d.1 ∉ JsonDict.keys (seen ++ [(first.1, first.2.json)]) := by
      intro d member
      simp only [JsonDict.keys, List.map_append, List.mem_append, not_or]
      refine ⟨fresh.2 d member, ?_⟩
      intro same
      have equal : d.1 = first.1 := List.mem_singleton.mp same
      exact distinct.1 (equal ▸ List.mem_map_of_mem member)
    rw [List.map_cons, readSettings, setting]
    refine (ih named.2 known.2 distinct.2 (index + 1) _ later).trans ?_
    rw [List.append_assoc]
    rfl

/-- The profile that a plan embeds. -/
def NormalizedProfile.settled (n : NormalizedProfile) : NormalizedProfile :=
  { n with
    metadata := [entry "name" (.str n.name)]
    directions := n.directions.map fun d => (d.1, d.2.map Decimal.settled) }

def NormalizedProfile.embedded (n : NormalizedProfile) : JsonValue :=
  embeddedProfile (.str n.name) (.int n.seed) (.int n.durationSeconds) (str n.direction.value)
    (settingsOf n.directions)

theorem requestedNames_nodup (direction : Direction) : (requestedNames direction).Nodup := by
  cases direction <;> decide

variable {isAlnum : Nat → Bool} {document : JsonDict} {n : NormalizedProfile}

theorem ReadsProfile.distinct (reads : ReadsProfile isAlnum document n) :
    (n.directions.map Prod.fst).Nodup := by
  obtain ⟨directions, -, -, read⟩ := reads.directions
  rw [read.names]
  exact requestedNames_nodup _

theorem ReadsProfile.known (reads : ReadsProfile isAlnum document n) :
    ∀ d ∈ n.directions, d.1 ∈ requestedNames n.direction := by
  obtain ⟨directions, -, -, read⟩ := reads.directions
  intro d member
  rw [requestedNames, ← read.names]
  exact List.mem_map_of_mem member

theorem embeddedIn_plan (reads : ReadsProfile isAlnum document n) (topology : Topology)
    (owner source : Text) :
    embeddedIn (planOf topology owner n source).toJson = .ok (n.embedded, .str source) := by
  have settings := readSettings_compiled (fun d => topology.target owner n.seed d.1)
    (fun _ _ => rfl) (fun d member => requested_known _ _ (reads.known d member)) reads.distinct 0 []
    (fun d _ => List.not_mem_nil)
  have collected : readSettings 0 []
      ((planOf topology owner n source).directions.map fun d => .dict d.toDict) =
        .ok (settingsOf n.directions) := by
    rw [planOf, List.map_map]
    exact settings
  rw [ImpairmentPlan.toJson, embeddedIn]
  simp only [JsonDict.find, JsonDict.get?_entry]
  simp only [String.reduceEq, reduceIte, Option.getD_some]
  rw [collected]
  simp [embedProfile, embeddedItem, planOf, NormalizedProfile.embedded, pure, Except.pure]

theorem sameSettings_settled (ds : List (Text × Impairment Decimal)) :
    sameSettings (ds.map fun d => (d.1, d.2.map Decimal.settled)) = sameSettings ds := by
  match ds with
  | [] => rfl
  | [_] => rfl
  | [(_, egress), (_, ingress)] => simp [sameSettings, values_settled]
  | _ :: _ :: _ :: _ => rfl

theorem checkSymmetry_settled (direction : Direction) (ds : List (Text × Impairment Decimal)) :
    checkSymmetry direction (ds.map fun d => (d.1, d.2.map Decimal.settled)) =
      checkSymmetry direction ds := by
  cases direction <;> simp [checkSymmetry, sameSettings_settled]

theorem readsDirections_settled {directions : JsonDict} {names : List String}
    {ds all : List (Text × Impairment Decimal)} (reads : ReadsDirections directions names ds)
    (found : ∀ d ∈ ds, (settingsOf all).get? d.1 = some d.2.json) :
    ReadsDirections (settingsOf all) names (ds.map fun d => (d.1, d.2.map Decimal.settled)) := by
  induction reads with
  | nil => exact .nil
  | cons first _ ih =>
    rw [List.forall_mem_cons] at found
    obtain ⟨named, e, -, inside⟩ := first
    refine .cons ⟨named, _, ?_, inside.json⟩ (ih found.2)
    rw [← named]
    exact found.1

/-- A plan embeds a profile that passes every check again. -/
theorem validateProfile_embedded (reads : ReadsProfile isAlnum document n) :
    validateProfile isAlnum n.embedded = .ok n.settled := by
  obtain ⟨directions, -, requested, read⟩ := reads.directions
  refine validateProfile_ok.2 ⟨_, rfl, ?_⟩
  refine {
    keys := by
      iterate 7 refine keys_entry (by decide) ?_
      exact keys_nil
    version := by simp [str]
    kind := by simp [str]
    metadata := by simp [NormalizedProfile.settled]
    metadataKeys := keys_entry (by decide) keys_nil
    name := by simp [NormalizedProfile.settled]
    identifier := reads.identifier
    description := by simp [checkDescription, NormalizedProfile.settled]
    seed := by simp [NormalizedProfile.settled]
    seedBound := reads.seedBound
    duration := by simp [NormalizedProfile.settled]
    durationBound := reads.durationBound
    direction := by simp [NormalizedProfile.settled, str]
    directions := ⟨settingsOf n.directions, by simp, ?_, ?_⟩
    symmetric := ?_ }
  · intro key member
    rw [JsonDict.keys, settingsOf, List.map_map] at member
    obtain ⟨d, inside, rfl⟩ := List.mem_map.mp member
    exact reads.known d inside
  · exact readsDirections_settled read (get?_settings reads.distinct)
  · exact (checkSymmetry_settled n.direction n.directions).trans reads.symmetric

end embedded

section same
open JsonDict (entry)

theorem texts_same {xs ys : List Text} (same : (texts xs).Same (texts ys)) :
    xs.map Text.units = ys.map Text.units := by
  rw [texts, texts, JsonValue.same_list, List.forall₂_map_left_iff, List.forall₂_map_right_iff]
    at same
  simp only [JsonValue.same_str] at same
  rw [← List.forall₂_eq_eq_eq, List.forall₂_map_left_iff, List.forall₂_map_right_iff]
  exact same

def shownArgv (c : PlanCommand) : List Text := c.argv.map Text.units

/-- Plans with one canonical text run the same arguments. -/
theorem argv_of_same {p q : ImpairmentPlan} (same : p.toJson.Same q.toJson) :
    p.commands.map shownArgv = q.commands.map shownArgv := by
  rw [ImpairmentPlan.toJson, ImpairmentPlan.toJson] at same
  have items := same.items (by rfl)
  simp only [entry, List.forall₂_cons] at items
  obtain ⟨-, -, -, -, -, -, -, commands, -⟩ := items
  rw [JsonValue.same_list, List.forall₂_map_left_iff, List.forall₂_map_right_iff] at commands
  rw [← List.forall₂_eq_eq_eq, List.forall₂_map_left_iff, List.forall₂_map_right_iff]
  refine commands.imp fun c d same => ?_
  have fields := same.items (by rfl)
  simp only [PlanCommand.toDict, entry, List.forall₂_cons] at fields
  exact texts_same fields.2.2.2.1

theorem flatMap_injective {α β : Type} {f g : α → List β} {xs : List α}
    (length : ∀ x ∈ xs, (f x).length = (g x).length) (same : xs.flatMap f = xs.flatMap g) :
    ∀ x ∈ xs, f x = g x := by
  induction xs with
  | nil => exact fun x absent => nomatch absent
  | cons first rest ih =>
    rw [List.forall_mem_cons] at length ⊢
    obtain ⟨head, tail⟩ := List.append_inj same length.1
    exact ⟨head, ih length.2 tail⟩

theorem wrap_map_injective {h : Text → Text} {name : Text} {xs ys : List Text}
    (same : (wrap name xs).map h = (wrap name ys).map h) : xs.map h = ys.map h := by
  rw [wrap, wrap] at same
  split at same
  · exact same
  · exact (List.cons.inj (List.cons.inj same).2).2

variable {t : Target} {i j : Impairment Decimal}

theorem emulator_injective {id parent tag : Text} {xs ys : List Text}
    (same : shownArgv (t.command id (.addNetem parent xs) tag) =
      shownArgv (t.command id (.addNetem parent ys) tag)) :
    xs.map Text.units = ys.map Text.units := by
  let front := words ["tc", "qdisc", "add", "dev"] ++ t.interface :: Text.ofString "parent" ::
    parent :: words ["handle", "20:", "netem"]
  have argv : (front ++ xs).map Text.units = (front ++ ys).map Text.units := wrap_map_injective same
  rw [List.map_append, List.map_append] at argv
  exact List.append_cancel_left argv

/-- The commands of two settings differ in the arguments of the emulator at most. -/
theorem commands_length (rate : i.rate = j.rate) (mtu : i.mtu = j.mtu)
    (length : (settingArgs (i.map renderNumber)).length = (settingArgs (j.map renderNumber)).length) :
    (t.commands i).length = (t.commands j).length := by
  have empty : (netemArgs (i.map renderNumber) t.seed).isEmpty =
      (netemArgs (j.map renderNumber) t.seed).isEmpty := by
    rw [netemArgs, netemArgs]
    cases left : settingArgs (i.map renderNumber) <;>
      cases right : settingArgs (j.map renderNumber) <;> simp_all
  rw [Target.commands, Target.commands, mtu, rate, List.length_append, List.length_append,
    Target.shapingCommands, Target.shapingCommands, Target.netemCommands, Target.netemCommands, empty]
  split
  · rfl
  · split <;> simp

theorem args_of_commands (rate : i.rate = j.rate) (mtu : i.mtu = j.mtu)
    (length : (settingArgs (i.map renderNumber)).length = (settingArgs (j.map renderNumber)).length)
    (same : (t.commands i).map shownArgv = (t.commands j).map shownArgv) :
    (settingArgs (i.map renderNumber)).map Text.units =
      (settingArgs (j.map renderNumber)).map Text.units := by
  rcases List.eq_nil_or_concat (settingArgs (j.map renderNumber)) with none_ | some_
  · rw [none_] at length ⊢
    rw [List.length_eq_zero_iff.mp length]
  have right : (settingArgs (j.map renderNumber)).isEmpty = false := by
    obtain ⟨init, last, shape⟩ := some_
    simp [shape]
  have left : (settingArgs (i.map renderNumber)).isEmpty = false := by
    rw [← Bool.not_eq_true, List.isEmpty_iff_length_eq_zero] at right ⊢
    omega
  have leftArgs : netemArgs (i.map renderNumber) t.seed =
      settingArgs (i.map renderNumber) ++ [Text.ofString "seed", renderNat t.seed] := by
    rw [netemArgs, left]
    rfl
  have rightArgs : netemArgs (j.map renderNumber) t.seed =
      settingArgs (j.map renderNumber) ++ [Text.ofString "seed", renderNat t.seed] := by
    rw [netemArgs, right]
    rfl
  have notEmpty : ∀ xs : List Text, (xs ++ [Text.ofString "seed", renderNat t.seed]).isEmpty = false := by
    intro xs
    cases xs <;> rfl
  rw [Target.commands, Target.commands, mtu, rate, leftArgs, rightArgs, Target.shapingCommands,
    Target.shapingCommands, notEmpty, notEmpty] at same
  simp only [Bool.false_eq_true, false_and, reduceIte, Target.netemCommands, notEmpty,
    List.map_append, List.map_cons, List.map_nil, List.append_cancel_left_eq,
    List.cons.injEq, and_true] at same
  have args := emulator_injective same
  rw [List.map_append, List.map_append] at args
  exact List.append_cancel_right args

end same

section exact_
variable {isAlnum : Nat → Bool} {topology profile plan source : JsonValue}
  {compiled : ImpairmentPlan}

def Accepts (isAlnum : Nat → Bool) (topology plan : JsonValue) : Prop :=
  ∃ expected, validateImpairmentPlan isAlnum topology plan = .ok expected

def ImpairmentPlan.withOwner (p : ImpairmentPlan) (owner : Text) : ImpairmentPlan :=
  { p with owner, commands := p.commands.map (PlanCommand.withOwner p.owner owner) }

/-- The plan is what its own embedded profile compiles to, under an owner of the same topology that
differs in its last eight digits at most. -/
def Recompiles (isAlnum : Nat → Bool) (topology plan : JsonValue) : Prop :=
  ∃ (embedded source : JsonValue) (compiled : ImpairmentPlan) (owner : Text),
    embeddedIn plan = .ok (embedded, source) ∧
      compileProfile isAlnum topology embedded source = .ok compiled ∧
        OwnerOf topology compiled.owner ∧ OwnerOf topology owner ∧
          (∀ c ∈ compiled.commands, ∃ tag, c.owns = compiled.owner ++ tag) ∧
            plan.Same (compiled.withOwner owner).toJson

theorem asInvalidPlan_ok {α : Type} {result : Result α} {a : α} :
    asInvalidPlan result = .ok a ↔ result = .ok a := by
  unfold asInvalidPlan
  split <;> simp [lifecycleError]

theorem confirmSame_ok {rebound confirmed : ImpairmentPlan} :
    confirmSame rebound plan = .ok confirmed ↔
      rebound.toJson.canonical = plan.canonical ∧ rebound = confirmed := by
  rw [confirmSame]
  split
  · rename_i same
    simp [same]
  · rename_i differ
    simp [lifecycleError, differ]

theorem validateImpairmentPlan_ok {expected : ImpairmentPlan} :
    validateImpairmentPlan isAlnum topology plan = .ok expected ↔
      ∃ embedded source compiled owner, embeddedIn plan = .ok (embedded, source) ∧
        compileProfile isAlnum topology embedded source = .ok compiled ∧
          readOwner topology (subDict plan) = .ok owner ∧ compiled.rebind owner = .ok expected ∧
            expected.toJson.canonical = plan.canonical := by
  simp only [validateImpairmentPlan, bind_ok, asInvalidPlan_ok, confirmSame_ok, Prod.exists]
  constructor
  · rintro ⟨embedded, source, found, compiled, compiles, owner, read, rebound, rebind, same, rfl⟩
    exact ⟨embedded, source, compiled, owner, found, compiles, read, rebind, same⟩
  · rintro ⟨embedded, source, compiled, owner, found, compiles, read, rebind, same⟩
    exact ⟨embedded, source, found, compiled, compiles, owner, read, expected, rebind, same, rfl⟩

theorem topology_of_accepted {t : Topology}
    (accepted : validateTopology topology = .ok (t.plan, t.targets)) :
    topology = .dict t.plan := (validateTopology_ok.mp accepted).1

/-- Whatever is accepted is a recompilation. -/
theorem accepted_recompiles (accepted : Accepts isAlnum topology plan) :
    Recompiles isAlnum topology plan := by
  obtain ⟨expected, validated⟩ := accepted
  obtain ⟨embedded, source, compiled, owner, found, compiles, read, rebind, same⟩ :=
    validateImpairmentPlan_ok.1 validated
  obtain ⟨t, n, sourceSha256, valid, -, -, -, -, rfl⟩ := compileProfile_ok.1 compiles
  obtain rfl := topology_of_accepted valid
  have starts : ∀ c ∈ (planOf t (ownerOf t n) n sourceSha256).commands,
      startsWith c.owns (ownerOf t n) = true := by
    intro c member
    obtain ⟨d, -, inside⟩ := List.mem_flatMap.mp member
    exact made_starts (commands_made d.2 c inside)
  refine ⟨embedded, source, _, owner, found, compiles, ownerOf_bound t n, (readOwner_ok.mp read).2,
    ?_, ?_⟩
  · intro c member
    obtain ⟨tag, codes⟩ := List.isPrefixOf_iff_prefix.mp (starts c member)
    exact ⟨⟨tag⟩, Text.ext codes.symm⟩
  · obtain ⟨commands, rebound, same_⟩ := bind_ok.mp rebind
    obtain rfl := Except.ok.inj ((mapM_rebind starts).symm.trans rebound)
    obtain rfl := pure_ok.mp same_
    exact JsonValue.canonical_injective same.symm

theorem compiles_settled {t : Topology} {n : NormalizedProfile} (compiles : Compiles t n) :
    Compiles t n.settled := by
  constructor
  · intro d member
    obtain ⟨e, inside, rfl⟩ := List.mem_map.mp member
    exact compiles.1 e inside
  · intro d member
    obtain ⟨e, inside, rfl⟩ := List.mem_map.mp member
    exact compiles.2 e inside

theorem netemArgs_isEmpty (a : Impairment Text) (seed : Nat) :
    (netemArgs a seed).isEmpty = (settingArgs a).isEmpty := by
  rw [netemArgs]
  cases settingArgs a <;> rfl

theorem netemArgs_settled (i : Impairment Decimal) (seed : Nat) :
    (netemArgs ((i.map Decimal.settled).map renderNumber) seed).isEmpty =
      (netemArgs (i.map renderNumber) seed).isEmpty := by
  have length := length_settingArgs i (renderNumber ∘ Decimal.settled) renderNumber
  rw [netemArgs_isEmpty, netemArgs_isEmpty, Impairment.map_map]
  rw [Bool.eq_iff_iff, List.isEmpty_iff_length_eq_zero, List.isEmpty_iff_length_eq_zero, length]

theorem ids_settled (t : Target) (i : Impairment Decimal) :
    (t.commands (i.map Decimal.settled)).map PlanCommand.id = (t.commands i).map PlanCommand.id := by
  have rate : (i.map Decimal.settled).rate = i.rate := rfl
  have mtu : (i.map Decimal.settled).mtu = i.mtu := rfl
  rw [Target.commands, Target.commands, rate, mtu, Target.shapingCommands, Target.shapingCommands,
    Target.netemCommands, Target.netemCommands, netemArgs_settled]
  split
  · rfl
  · split <;> simp [Target.command]

theorem compiled_settled (t : Target) (i : Impairment Decimal) :
    t.compiled (i.map Decimal.settled) = t.compiled i := by
  rw [Target.compiled, Target.compiled, netemArgs_settled, json_settled, ids_settled]

/-- The recompilation of a plan differs from the plan in its commands at most. -/
theorem planOf_settled (t : Topology) (owner : Text) (n : NormalizedProfile) (sourceSha256 : Text) :
    planOf t owner n.settled sourceSha256 =
      { planOf t owner n sourceSha256 with
        commands := n.directions.flatMap fun d =>
          (t.target owner n.seed d.1).commands (d.2.map Decimal.settled) } := by
  have directions : (planOf t owner n.settled sourceSha256).directions =
      (planOf t owner n sourceSha256).directions := by
    rw [planOf, planOf, NormalizedProfile.settled, List.map_map]
    exact List.map_congr_left fun d _ => compiled_settled _ d.2
  have commands : (planOf t owner n.settled sourceSha256).commands =
      n.directions.flatMap fun d =>
        (t.target owner n.seed d.1).commands (d.2.map Decimal.settled) := by
    rw [planOf, NormalizedProfile.settled, List.flatMap_map]
  dsimp only
  rw [← commands, ← directions]
  rfl

variable {document : JsonDict} {t : Topology} {n : NormalizedProfile} {sourceSha256 : Text}

theorem ReadsProfile.impairments (reads : ReadsProfile isAlnum document n) :
    ∀ d ∈ n.directions, ∃ e, ReadsImpairment e d.2 := by
  obtain ⟨directions, -, -, read⟩ := reads.directions
  intro d member
  obtain ⟨e, -, inside⟩ := read.mem d member
  exact ⟨e, inside⟩

/-- Equal texts leave no negative zero, since the commands of a plan show it. -/
theorem plain_of_same (reads : ReadsProfile isAlnum document n) {owner : Text}
    (same : (planOf t owner n.settled sourceSha256).toJson.Same
      (planOf t owner n sourceSha256).toJson) :
    ∀ d ∈ n.directions, ∀ x ∈ d.2.numbers, ¬ x.IsNegativeZero := by
  have argv := argv_of_same same
  rw [planOf_settled] at argv
  simp only [planOf, List.map_flatMap] at argv
  have length : ∀ i : Impairment Decimal,
      (settingArgs ((i.map Decimal.settled).map renderNumber)).length =
        (settingArgs (i.map renderNumber)).length := by
    intro i
    rw [Impairment.map_map]
    exact length_settingArgs i _ _
  have each := flatMap_injective (fun d _ => by
    rw [List.length_map, List.length_map]
    exact commands_length rfl rfl (length d.2)) argv
  intro d member
  obtain ⟨e, inside⟩ := reads.impairments d member
  exact (settingArgs_settled_iff inside).mp (args_of_commands rfl rfl (length d.2) (each d member))

theorem plan_of_plain (reads : ReadsProfile isAlnum document n) {owner : Text}
    (plain : ∀ d ∈ n.directions, ∀ x ∈ d.2.numbers, ¬ x.IsNegativeZero) :
    planOf t owner n.settled sourceSha256 = planOf t owner n sourceSha256 := by
  rw [planOf_settled]
  have commands : (n.directions.flatMap fun d =>
      (t.target owner n.seed d.1).commands (d.2.map Decimal.settled)) =
        (planOf t owner n sourceSha256).commands := by
    refine List.flatMap_congr fun d member => ?_
    obtain ⟨e, inside⟩ := reads.impairments d member
    rw [Target.commands, Target.commands, rendered_settled inside (plain d member)]
    rfl
  rw [commands]

theorem accepts_compiled_iff (valid : validateTopology (.dict t.plan) = .ok (t.plan, t.targets))
    (flagged : readDangerous t.plan = .ok t.dangerous) (reads : ReadsProfile isAlnum document n)
    (compiles : Compiles t n) (digest_ : sha256Ok sourceSha256 = true) :
    Accepts isAlnum (.dict t.plan) (planOf t (ownerOf t n) n sourceSha256).toJson ↔
      ∀ d ∈ n.directions, ∀ x ∈ d.2.numbers, ¬ x.IsNegativeZero := by
  have embedded := embeddedIn_plan reads t (ownerOf t n) sourceSha256
  have recompiled : compileProfile isAlnum (.dict t.plan) n.embedded (.str sourceSha256) =
      .ok (planOf t (ownerOf t n.settled) n.settled sourceSha256) :=
    compileProfile_ok.2 ⟨t, n.settled, sourceSha256, valid, validateProfile_embedded reads, flagged,
      compiles_settled compiles, readSource_given digest_, rfl⟩
  have owned : readOwner (.dict t.plan)
      (subDict (planOf t (ownerOf t n) n sourceSha256).toJson) = .ok (ownerOf t n) := by
    refine readOwner_ok.mpr ⟨?_, ownerOf_bound t n⟩
    simp [ImpairmentPlan.toJson, subDict, planOf]
  have rebound := planOf_rebind t (ownerOf t n.settled) (ownerOf t n) n.settled
    sourceSha256
  constructor
  · rintro ⟨expected, validated⟩
    obtain ⟨_, _, compiled, owner, found, again, read, rebind, same⟩ :=
      validateImpairmentPlan_ok.1 validated
    obtain ⟨rfl, rfl⟩ := Prod.mk.inj (Except.ok.inj (embedded.symm.trans found))
    obtain rfl := Except.ok.inj (recompiled.symm.trans again)
    obtain rfl := Except.ok.inj (owned.symm.trans read)
    obtain rfl := Except.ok.inj (rebound.symm.trans rebind)
    exact plain_of_same reads (JsonValue.canonical_injective same)
  · intro plain
    refine ⟨_, validateImpairmentPlan_ok.2 ⟨_, _, _, _, embedded, recompiled, owned, rebound, ?_⟩⟩
    rw [plan_of_plain reads plain]

theorem accepts_iff
    (compiles : compileProfile isAlnum topology profile source = .ok compiled) :
    Accepts isAlnum topology compiled.toJson ↔ ¬ SetsNegativeZero profile := by
  obtain ⟨t, n, sourceSha256, valid, validated, flagged, ready, read, rfl⟩ :=
    compileProfile_ok.1 compiles
  obtain rfl := topology_of_accepted valid
  obtain ⟨document, rfl, reads⟩ := validateProfile_ok.1 validated
  rw [accepts_compiled_iff valid flagged reads ready (readSource_ok read),
    setsNegativeZero_iff reads]
  push Not
  rfl

/-- What is accepted is a recompilation, and a compiled plan is accepted unless its profile sets a
percentage to `-0.0`. -/
theorem compiled_exactly_accepted_iff
    (compiles : compileProfile isAlnum topology profile source = .ok compiled) :
    (Accepts isAlnum topology compiled.toJson ∧
        ∀ plan, Accepts isAlnum topology plan → Recompiles isAlnum topology plan) ↔
      ¬ SetsNegativeZero profile := by
  rw [and_iff_left fun plan => accepted_recompiles]
  exact accepts_iff compiles

end exact_

section example_
open JsonDict (entry)

def asciiAlnum (c : Nat) : Bool := isDigit c || isLower c || decide (65 ≤ c ∧ c ≤ 90)

def exampleTopology : JsonValue :=
  match examplePlanning ["10.0.0.0/8"] with
  | .ok plan => .dict plan
  | .error _ => .null

/-- A jittered delay whose correlation is given. -/
def exampleProfile (correlation : JsonValue) : JsonValue :=
  .dict [entry "apiVersion" (str profileVersion), entry "kind" (str "ChaosProfile"),
    entry "metadata" (.dict [entry "name" (str "jitter")]), entry "seed" (.int 7),
    entry "durationSeconds" (.int 30), entry "direction" (str "egress"),
    entry "directions" (.dict [entry "egress" (.dict [entry "delay" (.dict
      [entry "milliseconds" (.int 100), entry "jitterMilliseconds" (.int 10),
        entry "correlationPercent" correlation])])])]

/-- A correlation of `-0.0` is rendered as `-0%`, its recompilation as `0%`. -/
theorem negative_zero_is_refused :
    ∃ compiled, compileProfile asciiAlnum exampleTopology (exampleProfile negativeZero) .null =
      .ok compiled ∧ ¬ Accepts asciiAlnum exampleTopology compiled.toJson := by
  obtain ⟨compiled, compiles⟩ := isOk_iff.mp (show (compileProfile asciiAlnum exampleTopology
    (exampleProfile negativeZero) .null).isOk = true by decide +kernel)
  refine ⟨compiled, compiles, fun accepted => (accepts_iff compiles).mp accepted ?_⟩
  exact ⟨"egress", "delay", "correlationPercent", rfl⟩

theorem get?_single {name : String} {key : Text} {value other : JsonValue} :
    JsonDict.get? [entry name value] key = some other ↔ Text.ofString name = key ∧ value = other := by
  rw [entry, JsonDict.get?_cons]
  split
  · rename_i same
    simp [same]
  · rename_i differ
    simp [differ]

theorem plain_correlation_is_accepted :
    ∃ compiled, compileProfile asciiAlnum exampleTopology (exampleProfile (.int 25)) .null =
      .ok compiled ∧ Accepts asciiAlnum exampleTopology compiled.toJson := by
  obtain ⟨compiled, compiles⟩ := isOk_iff.mp (show (compileProfile asciiAlnum exampleTopology
    (exampleProfile (.int 25)) .null).isOk = true by decide +kernel)
  refine ⟨compiled, compiles, ((compiled_exactly_accepted_iff compiles).mpr ?_).1⟩
  rintro ⟨direction, group, key, set⟩
  obtain ⟨_, _, ⟨⟩, found, set⟩ := valueAt_eq.mp set
  simp only [JsonDict.get?_entry, String.reduceEq, reduceIte, Option.some.injEq] at found
  subst found
  obtain ⟨_, _, ⟨⟩, found, set⟩ := valueAt_eq.mp set
  obtain ⟨-, rfl⟩ := get?_single.mp found
  obtain ⟨_, _, ⟨⟩, found, set⟩ := valueAt_eq.mp set
  obtain ⟨-, rfl⟩ := get?_single.mp found
  obtain ⟨_, _, ⟨⟩, found, set⟩ := valueAt_eq.mp set
  simp only [entry, JsonDict.get?_cons] at found
  obtain rfl := Option.some.inj set
  split at found
  · cases found
  split at found
  · cases found
  split at found
  · cases found
  · cases found

end example_

end Sippycup.Chaos
