import Sippycup.WebSecurity.ReadBack

/-! The compiler and the evidence validator agree on a plan if its version is short and no case of
a selected check is left out for a role or an origin the profile does not have. -/
namespace Sippycup.WebSecurity
open Sippycup.Python Sippycup.Ip
open Sippycup.Webrtc (reject require require_ok readArray readItems readEnum exactKeys)

section readers
variable {path : String}

theorem readEnum_ok {κ : Type} {name : κ → Text} {allowed : List κ} {value : JsonValue} {member : κ}
    (ok : (readEnum name allowed value path : Result κ) = .ok member) :
    value = .str (name member) ∧ member ∈ allowed := by
  unfold readEnum at ok
  split at ok
  · rename_i found
    cases ok
    have named := List.find?_some found
    exact ⟨JsonValue.isText_iff.1 named, List.mem_of_find?_eq_some found⟩
  · cases ok

theorem readItems_each_ok {α : Type} {read : JsonValue → String → Result α} {write : α → JsonValue} {index : Nat}
    {items : List JsonValue} {results : List α}
    (each : ∀ item path result, read item path = .ok result → item = write result)
    (ok : readItems read path index items = .ok results) : items = results.map write := by
  induction items generalizing index results with
  | nil =>
    cases ok
    rfl
  | cons item rest ih =>
    obtain ⟨first, head, ok⟩ := bind_ok.mp ok
    obtain ⟨others, tail, same⟩ := bind_ok.mp ok
    obtain rfl := pure_ok.mp same
    rw [List.map_cons, ← each item _ first head, ← ih tail]

/-- What each item that was read satisfies, and keys that repeat nothing. -/
theorem readFresh_ok {α κ ι : Type} {key : α → κ} {read : List κ → JsonValue → String → Result α}
    (part : κ → ι)
    (fresh : ∀ used item path result, read used item path = .ok result → part (key result) ∉ used.map part)
    {index : Nat} {used : List κ} {items : List JsonValue} {results : List α}
    (ok : readFresh key read path index used items = .ok results) :
    (results.map fun result => part (key result)).Nodup ∧
      ∀ result ∈ results, part (key result) ∉ used.map part := by
  induction items generalizing index used results with
  | nil =>
    cases ok
    exact ⟨List.nodup_nil, fun _ member => absurd member List.not_mem_nil⟩
  | cons item rest ih =>
    obtain ⟨first, head, ok⟩ := bind_ok.mp ok
    obtain ⟨others, tail, same⟩ := bind_ok.mp ok
    obtain rfl := pure_ok.mp same
    obtain ⟨distinct, unused⟩ := ih tail
    simp only [List.map_append, List.mem_append, not_or, List.map_cons, List.map_nil, List.mem_singleton] at unused
    refine ⟨List.nodup_cons.mpr ⟨fun member => ?_, distinct⟩, ?_⟩
    · obtain ⟨other, inside, same⟩ := List.mem_map.mp member
      exact (unused other inside).2 same
    · rintro result (_ | ⟨_, member⟩)
      · exact fresh used item _ first head
      · exact (unused result member).1

theorem readFresh_read {α κ : Type} {key : α → κ} {read : List κ → JsonValue → String → Result α} {index : Nat}
    {used : List κ} {items : List JsonValue} {results : List α}
    (ok : readFresh key read path index used items = .ok results) :
    results.length = items.length ∧ ∀ result ∈ results, ∃ used item path, read used item path = .ok result := by
  induction items generalizing index used results with
  | nil =>
    cases ok
    exact ⟨rfl, fun _ member => absurd member List.not_mem_nil⟩
  | cons item rest ih =>
    obtain ⟨first, head, ok⟩ := bind_ok.mp ok
    obtain ⟨others, tail, same⟩ := bind_ok.mp ok
    obtain rfl := pure_ok.mp same
    obtain ⟨length, each⟩ := ih tail
    refine ⟨congrArg Nat.succ length, ?_⟩
    rintro result (_ | ⟨_, member⟩)
    · exact ⟨used, item, _, head⟩
    · exact each result member

theorem not_contains {α : Type} [BEq α] [LawfulBEq α] {used : List α} {a : α} (fresh : (!used.contains a) = true) :
    a ∉ used := by
  rw [Bool.not_eq_true', ← Bool.not_eq_true, List.contains_iff_mem] at fresh
  exact fresh

theorem readSurfaces_ok {value : JsonValue} {surfaces : List Surface} (ok : readSurfaces value = .ok surfaces) :
    surfaces.Nodup := by
  obtain ⟨items, -, ok⟩ := bind_ok.mp ok
  obtain ⟨unique, counted, ok⟩ := bind_ok.mp ok
  obtain ⟨_, repeated, ok⟩ := bind_ok.mp ok
  obtain rfl := require_ok.1 repeated
  have written := @readItems_each_ok _ _ readSurface (fun surface => .str surface.name) _ _ _
    (fun _ _ _ read => (readEnum_ok read).1) ok
  subst written
  unfold distinct at counted
  split at counted
  · have apart := of_decide_eq_true (Except.ok.inj counted)
    rw [List.pairwise_map] at apart
    refine apart.imp fun different same => ?_
    subst same
    simp [JsonValue.eq] at different
  · cases counted

theorem readCase_fresh {checks : List Check} {routes : List Route} {used : List Identifier} {value : JsonValue}
    {case_ : Case} (ok : readCase checks routes used value path = .ok case_) : case_.id ∉ used := by
  obtain ⟨entries, -, ok⟩ := bind_ok.mp ok
  obtain ⟨-, -, ok⟩ := bind_ok.mp ok
  obtain ⟨id, -, ok⟩ := bind_ok.mp ok
  obtain ⟨_, fresh, ok⟩ := bind_ok.mp ok
  obtain ⟨check, -, ok⟩ := bind_ok.mp ok
  obtain ⟨routeId, -, ok⟩ := bind_ok.mp ok
  split at ok
  · obtain ⟨-, -, ok⟩ := bind_ok.mp ok
    obtain ⟨role, -, ok⟩ := bind_ok.mp ok
    obtain ⟨origin, -, ok⟩ := bind_ok.mp ok
    obtain ⟨-, -, ok⟩ := bind_ok.mp ok
    obtain ⟨outcome, -, same⟩ := bind_ok.mp ok
    obtain rfl := pure_ok.mp same
    exact not_contains (require_ok.1 fresh)
  · cases ok

theorem readCredential_fresh {used : List (Identifier × Identifier)} {value : JsonValue} {credential : Credential}
    (ok : readCredential used value path = .ok credential) :
    credential.id ∉ used.map Prod.fst ∧ credential.role ∉ used.map Prod.snd := by
  obtain ⟨entries, -, ok⟩ := bind_ok.mp ok
  obtain ⟨-, -, ok⟩ := bind_ok.mp ok
  obtain ⟨id, -, ok⟩ := bind_ok.mp ok
  obtain ⟨_, fresh, ok⟩ := bind_ok.mp ok
  obtain ⟨provider, -, ok⟩ := bind_ok.mp ok
  dsimp only at ok
  split at ok
  · obtain ⟨-, -, ok⟩ := bind_ok.mp ok
    obtain ⟨role, -, ok⟩ := bind_ok.mp ok
    obtain ⟨_, single, same⟩ := bind_ok.mp ok
    obtain rfl := pure_ok.mp same
    exact ⟨not_contains (require_ok.1 fresh), not_contains (require_ok.1 single)⟩
  · cases ok

end readers

section accepted
variable {library : Library} {now : Int} {profileDocument adapterDocument : JsonValue} {profile : Profile}
  {adapter : Adapter} {plan : Plan}

/-- An authorization that fits the execution class. -/
structure Authorization.Fits (authorization : Authorization) (executionClass : ExecutionClass) : Prop where
  approved : executionClass = .approvedTarget → authorization.window.isSome = true ∧
    authorization.reference.isSome = true ∧ authorization.surfaces ≠ []
  offline : executionClass ≠ .approvedTarget →
    authorization.window = none ∧ authorization.reference = none ∧ authorization.surfaces = []
  surfaces : authorization.surfaces.Nodup

theorem readAuthorization_fits {value : JsonValue} {executionClass : ExecutionClass} {authorization : Authorization}
    (ok : readAuthorization library value executionClass = .ok authorization) :
    authorization.Fits executionClass := by
  obtain ⟨entries, -, ok⟩ := bind_ok.mp ok
  obtain ⟨-, -, ok⟩ := bind_ok.mp ok
  obtain ⟨required, -, ok⟩ := bind_ok.mp ok
  obtain ⟨surfaces, read, ok⟩ := bind_ok.mp ok
  have nodup := readSurfaces_ok read
  split at ok
  · rename_i approved
    obtain ⟨-, -, ok⟩ := bind_ok.mp ok
    obtain ⟨reference, -, ok⟩ := bind_ok.mp ok
    obtain ⟨start, -, ok⟩ := bind_ok.mp ok
    obtain ⟨finish, -, ok⟩ := bind_ok.mp ok
    obtain ⟨-, -, ok⟩ := bind_ok.mp ok
    obtain ⟨-, -, ok⟩ := bind_ok.mp ok
    obtain ⟨_, surfaced, same⟩ := bind_ok.mp ok
    obtain rfl := pure_ok.mp same
    have some_ : surfaces ≠ [] := by
      rw [require_ok, Bool.not_eq_true', List.isEmpty_eq_false_iff] at surfaced
      exact surfaced
    exact ⟨fun _ => ⟨rfl, rfl, some_⟩, fun other => absurd approved other, nodup⟩
  · rename_i offline
    obtain ⟨_, empty, same⟩ := bind_ok.mp ok
    obtain rfl := pure_ok.mp same
    have none : surfaces = [] := by
      rw [require_ok, Bool.not_eq_true', Bool.or_eq_false_iff, Bool.or_eq_false_iff] at empty
      simpa using empty.1.2
    exact ⟨fun other => absurd other offline, fun _ => ⟨rfl, rfl, none⟩, nodup⟩

/-- What the validators have checked of a profile. -/
structure Profile.Valid (profile : Profile) : Prop where
  authorization : profile.authorization.Fits profile.executionClass
  destinations : profile.destinations ≠ [] ∧ profile.destinations.length ≤ 8
  reachable : ∀ destination ∈ profile.destinations,
    ∃ path, requireReachable profile.executionClass destination.connectAddress path = .ok ()
  refs : (profile.credentialRefs.map Credential.id).Nodup
  destined : ∀ check ∈ profile.checks, ∃ destination ∈ profile.destinations, destination.surface = check.surface
  authorized : profile.executionClass = .approvedTarget →
    ∀ check ∈ profile.checks, check.surface ∈ profile.authorization.surfaces

theorem readDestinations_ok {executionClass : ExecutionClass} {value : JsonValue} {destinations : List Destination}
    (ok : readDestinations executionClass value = .ok destinations) :
    (destinations ≠ [] ∧ destinations.length ≤ 8) ∧ ∀ destination ∈ destinations,
      ∃ path, requireReachable executionClass destination.connectAddress path = .ok () := by
  obtain ⟨items, -, ok⟩ := bind_ok.mp ok
  obtain ⟨_, counted, ok⟩ := bind_ok.mp ok
  rw [requireDestinations, require_ok, Bool.and_eq_true, Bool.not_eq_true', List.isEmpty_eq_false_iff,
    decide_eq_true_eq] at counted
  obtain ⟨length, each⟩ := readFresh_read ok
  refine ⟨⟨?_, length ▸ counted.2⟩, fun destination member => ?_⟩
  · rintro rfl
    exact counted.1 (List.length_eq_zero_iff.mp length.symm)
  · obtain ⟨used, item, path, read⟩ := each destination member
    exact ⟨path, readDestination_reachable read⟩

theorem readCredentials_ok {value : JsonValue} {credentials : List Credential}
    (ok : readCredentials value = .ok credentials) : (credentials.map Credential.id).Nodup := by
  obtain ⟨items, -, ok⟩ := bind_ok.mp ok
  obtain ⟨-, -, ok⟩ := bind_ok.mp ok
  exact (readFresh_ok Prod.fst (fun _ _ _ _ read => (readCredential_fresh read).1) ok).1

theorem validateProfile_valid (ok : validateProfile library profileDocument = .ok profile) : profile.Valid := by
  obtain ⟨entries, -, ok⟩ := bind_ok.mp ok
  obtain ⟨-, -, ok⟩ := bind_ok.mp ok
  obtain ⟨-, -, ok⟩ := bind_ok.mp ok
  obtain ⟨executionClass, -, ok⟩ := bind_ok.mp ok
  obtain ⟨adapterItems, -, ok⟩ := bind_ok.mp ok
  obtain ⟨-, -, ok⟩ := bind_ok.mp ok
  obtain ⟨id, -, ok⟩ := bind_ok.mp ok
  obtain ⟨version, -, ok⟩ := bind_ok.mp ok
  obtain ⟨authorization, authorized, ok⟩ := bind_ok.mp ok
  obtain ⟨destinations, reached, ok⟩ := bind_ok.mp ok
  obtain ⟨credentials, referenced, ok⟩ := bind_ok.mp ok
  obtain ⟨origins, -, ok⟩ := bind_ok.mp ok
  obtain ⟨checks, -, ok⟩ := bind_ok.mp ok
  obtain ⟨_, destined, ok⟩ := bind_ok.mp ok
  obtain ⟨_, surfaced, ok⟩ := bind_ok.mp ok
  obtain ⟨-, -, ok⟩ := bind_ok.mp ok
  obtain ⟨limits, -, same⟩ := bind_ok.mp ok
  obtain rfl := pure_ok.mp same
  obtain ⟨counted, reachable⟩ := readDestinations_ok reached
  refine ⟨readAuthorization_fits authorized, counted, reachable, readCredentials_ok referenced, ?_, ?_⟩
  · intro check member
    have held := List.all_eq_true.mp (require_ok.1 destined) check member
    exact List.mem_map.mp (List.contains_iff_mem.mp held)
  · intro approved check member
    have held := require_ok.1 surfaced
    rw [decide_eq_true approved, Bool.true_and, Bool.not_not] at held
    exact List.contains_iff_mem.mp (List.all_eq_true.mp held check member)

theorem validateAdapter_ids (ok : validateAdapter adapterDocument = .ok adapter) :
    (adapter.cases.map Case.id).Nodup := by
  obtain ⟨entries, -, ok⟩ := bind_ok.mp ok
  obtain ⟨-, -, ok⟩ := bind_ok.mp ok
  obtain ⟨-, -, ok⟩ := bind_ok.mp ok
  obtain ⟨id, -, ok⟩ := bind_ok.mp ok
  obtain ⟨version, -, ok⟩ := bind_ok.mp ok
  obtain ⟨checks, -, ok⟩ := bind_ok.mp ok
  obtain ⟨routeItems, -, ok⟩ := bind_ok.mp ok
  obtain ⟨-, -, ok⟩ := bind_ok.mp ok
  obtain ⟨routes, -, ok⟩ := bind_ok.mp ok
  obtain ⟨caseItems, -, ok⟩ := bind_ok.mp ok
  obtain ⟨-, -, ok⟩ := bind_ok.mp ok
  obtain ⟨cases_, read, same⟩ := bind_ok.mp ok
  obtain rfl := pure_ok.mp same
  exact (readFresh_ok (fun name => name) (fun used _ _ _ ok => by simpa using readCase_fresh ok) read).1

/-- The plan as the compiler makes it of a profile and an adapter. -/
structure Compiled (profile : Profile) (adapter : Adapter) (now : Int) (plan : Plan) : Prop where
  executionClass : plan.executionClass = profile.executionClass
  version : plan.adapterVersion = profile.adapterVersion
  authorization : (plan.state, plan.blockers) = profile.authorization.stateAt now
  reference : plan.reference = profile.authorization.reference
  surfaces : plan.surfaces = profile.authorization.surfaces
  destinations : plan.destinations = profile.destinations
  cases : plan.cases = adapter.cases.filterMap profile.compileCase
  few : plan.cases.length ≤ plan.limits.maxCases.val

theorem compilePlan_compiled (valid : validateProfile library profileDocument = .ok profile)
    (accepted : validateAdapter adapterDocument = .ok adapter)
    (ok : compilePlan library now profileDocument adapterDocument = .ok plan) :
    Compiled profile adapter now plan := by
  rw [compilePlan, valid, ok_bind, accepted, ok_bind] at ok
  obtain ⟨-, -, ok⟩ := bind_ok.mp ok
  obtain ⟨-, -, ok⟩ := bind_ok.mp ok
  obtain ⟨-, -, ok⟩ := bind_ok.mp ok
  obtain ⟨_, few, same⟩ := bind_ok.mp ok
  obtain rfl := pure_ok.mp same
  exact ⟨rfl, rfl, rfl, rfl, rfl, rfl, rfl, of_decide_eq_true (require_ok.1 few)⟩

theorem compileCase_some {case_ : Case} {compiled : PlanCase} (some_ : profile.compileCase case_ = some compiled) :
    profile.skips case_ = false ∧ compiled = ⟨case_, case_.credentialRole.bind profile.refOf⟩ := by
  unfold Profile.compileCase at some_
  split at some_
  · cases some_
  · rename_i kept
    exact ⟨Bool.not_eq_true _ ▸ kept, (Option.some.inj some_).symm⟩

theorem stateAt_window {authorization : Authorization} {start finish : Int}
    (window : authorization.window = some (start, finish)) :
    (authorization.stateAt now).1 ≠ .notRequired ∧
      ((authorization.stateAt now).1 = .blocked ↔ (authorization.stateAt now).2 ≠ []) := by
  rw [Authorization.stateAt, window]
  dsimp only
  split
  · simp
  · split <;> simp

theorem Compiled.wellFormed (compiled : Compiled profile adapter now plan) (valid : profile.Valid)
    (ids : (adapter.cases.map Case.id).Nodup) : plan.WellFormed := by
  have each : ∀ case_ ∈ plan.cases, ∃ source ∈ adapter.cases, profile.compileCase source = some case_ := by
    rw [compiled.cases]
    exact fun case_ member => List.mem_filterMap.mp member
  have state : plan.state = (profile.authorization.stateAt now).1 := congrArg Prod.fst compiled.authorization
  have blockers : plan.blockers = (profile.authorization.stateAt now).2 := congrArg Prod.snd compiled.authorization
  constructor
  · rw [state, blockers]
    cases window : profile.authorization.window with
    | none =>
      rw [Authorization.stateAt, window]
      simp
    | some bounds => exact (stateAt_window window).2
  · intro approved
    rw [compiled.executionClass] at approved
    obtain ⟨windowed, referenced, surfaced⟩ := valid.authorization.approved approved
    obtain ⟨bounds, window⟩ := Option.isSome_iff_exists.mp windowed
    rw [state, compiled.reference, compiled.surfaces]
    exact ⟨(stateAt_window window).1, referenced, surfaced⟩
  · intro offline
    rw [compiled.executionClass] at offline
    obtain ⟨window, reference, surfaces⟩ := valid.authorization.offline offline
    rw [state, compiled.reference, compiled.surfaces, Authorization.stateAt, window]
    exact ⟨rfl, reference, surfaces⟩
  · rw [compiled.surfaces]
    exact valid.authorization.surfaces
  · rw [compiled.destinations]
    exact valid.destinations
  · rw [compiled.destinations, compiled.executionClass]
    exact valid.reachable
  · -- The identifiers of the cases that are kept are among those of the adapter, in order.
    have kept : (plan.cases.map fun case_ => case_.id).Sublist (adapter.cases.map Case.id) := by
      rw [compiled.cases]
      generalize adapter.cases = cases_
      induction cases_ with
      | nil => exact List.Sublist.refl _
      | cons first rest ih =>
        rw [List.filterMap_cons]
        split
        · exact ih.cons _
        · rename_i case_ found
          obtain ⟨-, rfl⟩ := compileCase_some found
          exact ih.cons_cons _
    exact kept.nodup ids
  · exact compiled.few
  · intro approved case_ member
    obtain ⟨source, -, found⟩ := each case_ member
    obtain ⟨applied, rfl⟩ := compileCase_some found
    rw [compiled.executionClass] at approved
    rw [compiled.surfaces]
    refine valid.authorized approved source.check ?_
    rw [Profile.skips, Bool.or_eq_false_iff, Bool.or_eq_false_iff, Bool.not_eq_false'] at applied
    exact List.contains_iff_mem.mp applied.1.1
  · rw [compiled.version]
    exact version_apart profile.adapterVersion

/-- No reference without a role, and otherwise that of the entries with exactly the role. -/
def Credentialed (profile : Profile) (case_ : PlanCase) : Prop :=
  (case_.credentialRole = none ∧ case_.credentialRef = none) ∨
    ∃ credential ∈ profile.credentialRefs, case_.credentialRef = some credential.id ∧
      case_.credentialRole = some credential.role ∧
      ∀ other ∈ profile.credentialRefs, other.id = credential.id → other.role = credential.role

/-- Compiler and validator agree on the plan, and no case of a selected check is left out. -/
structure Agrees (profile : Profile) (adapter : Adapter) (plan : Plan) : Prop where
  accepted : ∃ read, validatePlan (stored plan.document) = .ok read
  selected : ∀ case_ ∈ plan.cases, case_.check ∈ profile.checks
  destined : ∀ case_ ∈ plan.cases, ∃ destination ∈ plan.destinations, destination.surface = case_.check.surface
  authorized : plan.executionClass = .approvedTarget →
    ∀ case_ ∈ plan.cases, case_.check.surface ∈ profile.authorization.surfaces
  credentialed : ∀ case_ ∈ plan.cases, Credentialed profile case_
  complete : ∀ case_ ∈ adapter.cases, case_.check ∈ profile.checks →
    ∃ compiled ∈ plan.cases, compiled.toCase = case_

/-- The profile has the role and an origin of the class that the case asks for. -/
def Provides (profile : Profile) (case_ : Case) : Prop :=
  (∀ role ∈ case_.credentialRole, ∃ credential ∈ profile.credentialRefs, credential.role = role) ∧
    ∀ originClass ∈ case_.originClass, ∃ origin ∈ profile.origins, origin.classification = originClass

theorem refOf_isNone {role : Identifier} :
    (profile.refOf role).isNone = false ↔ ∃ credential ∈ profile.credentialRefs, credential.role = role := by
  rw [Profile.refOf, Option.isNone_map, ← Bool.not_eq_true, Option.isNone_iff_eq_none, List.find?_eq_none]
  simp

theorem skips_iff {case_ : Case} : profile.skips case_ = false ↔
    case_.check ∈ profile.checks ∧ Provides profile case_ := by
  have classes (originClass : OriginClass) : (profile.origins.map Origin.classification).contains originClass = true ↔
      ∃ origin ∈ profile.origins, origin.classification = originClass := by
    rw [List.contains_iff_mem, List.mem_map]
  rw [Profile.skips, Bool.or_eq_false_iff, Bool.or_eq_false_iff, Bool.not_eq_false', List.contains_iff_mem, and_assoc,
    Provides, Option.any_eq_false, Option.any_eq_false]
  simp only [refOf_isNone, Bool.not_eq_false', classes, Option.mem_def]

theorem compileCase_iff {case_ : Case} {compiled : PlanCase} : profile.compileCase case_ = some compiled ↔
    (case_.check ∈ profile.checks ∧ Provides profile case_) ∧
      compiled = ⟨case_, case_.credentialRole.bind profile.refOf⟩ := by
  constructor
  · intro found
    obtain ⟨kept, same⟩ := compileCase_some found
    exact ⟨skips_iff.1 kept, same⟩
  · rintro ⟨provided, rfl⟩
    rw [Profile.compileCase, skips_iff.2 provided]
    rfl

theorem credentialed_bind (refs : (profile.credentialRefs.map Credential.id).Nodup) {case_ : Case}
    (provided : Provides profile case_) :
    Credentialed profile ⟨case_, case_.credentialRole.bind profile.refOf⟩ := by
  cases role : case_.credentialRole with
  | none => exact .inl ⟨role, rfl⟩
  | some name =>
    obtain ⟨known, member, same⟩ := provided.1 name role
    have found : (profile.credentialRefs.find? fun credential => credential.role = name).isSome = true :=
      List.find?_isSome.mpr ⟨known, member, decide_eq_true same⟩
    obtain ⟨credential, first⟩ := Option.isSome_iff_exists.mp found
    have inside := List.mem_of_find?_eq_some first
    have held := List.find?_some first
    have named : credential.role = name := of_decide_eq_true held
    refine .inr ⟨credential, inside, ?_, ?_, fun other among equal => ?_⟩
    · change (some name).bind profile.refOf = _
      rw [Option.bind_some, Profile.refOf, first]
      rfl
    · exact role.trans (congrArg some named.symm)
    · rw [List.inj_on_of_nodup_map refs among inside equal]

/-- Compiler and validator agree exactly if the version is short and the profile provides what
every case of its checks asks for. -/
theorem compile_agrees_iff (valid : validateProfile library profileDocument = .ok profile)
    (accepted : validateAdapter adapterDocument = .ok adapter)
    (ok : compilePlan library now profileDocument adapterDocument = .ok plan) :
    Agrees profile adapter plan ↔ profile.adapterVersion.val.length ≤ 32 ∧
      ∀ case_ ∈ adapter.cases, case_.check ∈ profile.checks → Provides profile case_ := by
  have compiled := compilePlan_compiled valid accepted ok
  have checked := validateProfile_valid valid
  have ids := validateAdapter_ids accepted
  have formed := compiled.wellFormed checked ids
  have each (case_ : PlanCase) : case_ ∈ plan.cases ↔ ∃ source ∈ adapter.cases,
      (source.check ∈ profile.checks ∧ Provides profile source) ∧
        case_ = ⟨source, source.credentialRole.bind profile.refOf⟩ := by
    rw [compiled.cases, List.mem_filterMap]
    simp only [compileCase_iff]
  constructor
  · intro agrees
    have short := (validatePlan_stored formed).mp agrees.accepted
    rw [compiled.version] at short
    refine ⟨short, fun case_ member selected => ?_⟩
    obtain ⟨kept, inside, same⟩ := agrees.complete case_ member selected
    obtain ⟨source, -, ⟨-, provided⟩, rfl⟩ := (each kept).mp inside
    exact same ▸ provided
  · rintro ⟨short, provided⟩
    have surfaces (case_ : PlanCase) (member : case_ ∈ plan.cases) : case_.check ∈ profile.checks := by
      obtain ⟨source, -, ⟨selected, -⟩, rfl⟩ := (each case_).mp member
      exact selected
    refine ⟨(validatePlan_stored formed).mpr (compiled.version ▸ short), surfaces, fun case_ member => ?_,
      fun approved case_ member => ?_, fun case_ member => ?_, fun case_ member selected => ?_⟩
    · rw [compiled.destinations]
      exact checked.destined case_.check (surfaces case_ member)
    · exact checked.authorized (compiled.executionClass ▸ approved) case_.check (surfaces case_ member)
    · obtain ⟨source, -, ⟨-, provided⟩, rfl⟩ := (each case_).mp member
      exact credentialed_bind checked.refs provided
    · exact ⟨_, (each _).mpr ⟨case_, member, ⟨selected, provided case_ member selected⟩, rfl⟩, rfl⟩

end accepted

section examples

def exampleTexts (texts : List String) : JsonValue := .list (texts.map fun text => .str text)

def exampleLimits : JsonDict :=
  [JsonDict.entry "maxCases" (.int 8), JsonDict.entry "maxConnections" (.int 1),
    JsonDict.entry "maxHttpRequests" (.int 20), JsonDict.entry "maxWsMessages" (.int 0),
    JsonDict.entry "maxAuthFailures" (.int 2), JsonDict.entry "maxBytes" (.int 65536),
    JsonDict.entry "maxDurationSeconds" (.int 30), JsonDict.entry "maxRequestsPerSecond" (.int 5)]

/-- A loopback profile whose one credential has the role `viewer`. -/
def exampleProfile : JsonValue :=
  .dict [
    JsonDict.entry "apiVersion" (.str profileVersion), JsonDict.entry "executionClass" (.str "offline_fixture"),
    JsonDict.entry "adapter" (.dict [JsonDict.entry "id" (.str "demo"), JsonDict.entry "version" (.str "1.0.0")]),
    JsonDict.entry "authorization" (.dict [
      JsonDict.entry "required" (.bool false), JsonDict.entry "reference" .null, JsonDict.entry "notBefore" .null,
      JsonDict.entry "notAfter" .null, JsonDict.entry "surfaces" (.list [])]),
    JsonDict.entry "destinations" (.list [.dict [
      JsonDict.entry "id" (.str "web"), JsonDict.entry "surface" (.str "admin"), JsonDict.entry "scheme" (.str "https"),
      JsonDict.entry "connectAddress" (.str "127.0.0.1"), JsonDict.entry "port" (.int 8443),
      JsonDict.entry "tlsServerName" (.str "localhost")]]),
    JsonDict.entry "credentialRefs" (.list [.dict [
      JsonDict.entry "id" (.str "account"), JsonDict.entry "provider" (.str "env"),
      JsonDict.entry "sourceRef" (.str "env://ACCOUNT"), JsonDict.entry "role" (.str "viewer")]]),
    JsonDict.entry "origins" (.list []), JsonDict.entry "checks" (exampleTexts ["admin.role-boundary"]),
    JsonDict.entry "limits" (.dict exampleLimits)]

def exampleCase (id role : String) : JsonValue :=
  .dict [
    JsonDict.entry "id" (.str id), JsonDict.entry "check" (.str "admin.role-boundary"),
    JsonDict.entry "routeId" (.str "page"), JsonDict.entry "credentialRole" (.str role),
    JsonDict.entry "originClass" .null, JsonDict.entry "expectedOutcome" (.str "denied")]

def exampleAdapter (cases : List JsonValue) : JsonValue :=
  .dict [
    JsonDict.entry "apiVersion" (.str adapterVersion), JsonDict.entry "id" (.str "demo"),
    JsonDict.entry "version" (.str "1.0.0"), JsonDict.entry "checks" (exampleTexts ["admin.role-boundary"]),
    JsonDict.entry "routes" (.list [.dict [
      JsonDict.entry "id" (.str "page"), JsonDict.entry "surface" (.str "admin"),
      JsonDict.entry "operation" (.str "admin-read")]]),
    JsonDict.entry "cases" (.list cases)]

/-- Offline profiles without origins are read without dates and URLs. -/
def exampleLibrary : Library := ⟨fun _ => none, fun _ => none⟩

/-- Profile, adapter and plan of an example. -/
def exampleRun (cases : List JsonValue) : Result (Profile × Adapter × Plan) := do
  let profile ← validateProfile exampleLibrary exampleProfile
  let adapter ← validateAdapter (exampleAdapter cases)
  let plan ← compilePlan exampleLibrary 0 exampleProfile (exampleAdapter cases)
  return (profile, adapter, plan)

theorem exampleRun_ok {cases : List JsonValue} {profile : Profile} {adapter : Adapter} {plan : Plan}
    (run : exampleRun cases = .ok (profile, adapter, plan)) :
    validateProfile exampleLibrary exampleProfile = .ok profile ∧
      validateAdapter (exampleAdapter cases) = .ok adapter ∧
      compilePlan exampleLibrary 0 exampleProfile (exampleAdapter cases) = .ok plan := by
  obtain ⟨_, valid, run⟩ := bind_ok.mp run
  obtain ⟨_, accepted, run⟩ := bind_ok.mp run
  obtain ⟨_, compiled, same⟩ := bind_ok.mp run
  cases pure_ok.mp same
  exact ⟨valid, accepted, compiled⟩

/-- Whether some case of a selected check is not in the plan. -/
def omits : Profile × Adapter × Plan → Bool
  | (profile, adapter, plan) => adapter.cases.any fun case_ =>
    profile.checks.contains case_.check && !plan.cases.any fun compiled => compiled.toCase = case_

theorem viewer_compiles : (exampleRun [exampleCase "as-viewer" "viewer"]).toOption.map
    (fun run => (omits run, run.1.adapterVersion.val)) = some (false, ("1.0.0" : Text)) := by
  decide +kernel

theorem owner_omitted : (exampleRun [exampleCase "as-viewer" "viewer", exampleCase "as-owner" "owner"]).toOption.map
    omits = some true := by
  decide +kernel

theorem viewer_agrees : ∃ profile adapter plan,
    validateProfile exampleLibrary exampleProfile = .ok profile ∧
      validateAdapter (exampleAdapter [exampleCase "as-viewer" "viewer"]) = .ok adapter ∧
      Agrees profile adapter plan := by
  obtain ⟨⟨profile, adapter, plan⟩, run, facts⟩ := Webrtc.toOption_map viewer_compiles
  obtain ⟨valid, accepted, compiled⟩ := exampleRun_ok run
  have whole : omits (profile, adapter, plan) = false := congrArg Prod.fst facts
  have version : profile.adapterVersion.val = "1.0.0" := congrArg Prod.snd facts
  refine ⟨profile, adapter, plan, valid, accepted, (compile_agrees_iff valid accepted compiled).mpr ⟨?_, ?_⟩⟩
  · rw [version]
    decide
  · intro case_ member selected
    have kept := List.any_eq_false.mp whole case_ member
    rw [List.contains_iff_mem.mpr selected, Bool.true_and, Bool.not_eq_true, Bool.not_eq_false'] at kept
    obtain ⟨found, inside, same⟩ := List.any_eq_true.mp kept
    rw [(compilePlan_compiled valid accepted compiled).cases] at inside
    obtain ⟨source, -, compiles⟩ := List.mem_filterMap.mp inside
    obtain ⟨⟨-, provided⟩, rfl⟩ := compileCase_iff.mp compiles
    exact of_decide_eq_true same ▸ provided

/-- The case of a role the profile does not have is left out without a word. -/
theorem owner_left_out : ¬ ∀ library now profileDocument adapterDocument profile adapter plan,
    validateProfile library profileDocument = .ok profile → validateAdapter adapterDocument = .ok adapter →
    compilePlan library now profileDocument adapterDocument = .ok plan → Agrees profile adapter plan := by
  intro agree
  obtain ⟨⟨profile, adapter, plan⟩, run, omitted⟩ := Webrtc.toOption_map owner_omitted
  obtain ⟨valid, accepted, compiled⟩ := exampleRun_ok run
  obtain ⟨case_, member, missing⟩ := List.any_eq_true.mp omitted
  rw [Bool.and_eq_true, Bool.not_eq_true'] at missing
  obtain ⟨found, inside, same⟩ :=
    (agree _ _ _ _ _ _ _ valid accepted compiled).complete case_ member (List.contains_iff_mem.mp missing.1)
  have none := List.any_eq_false.mp missing.2 found inside
  exact none (decide_eq_true same)

end examples

end Sippycup.WebSecurity
