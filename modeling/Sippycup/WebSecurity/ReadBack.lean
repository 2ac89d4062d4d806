import Sippycup.Ip.Reread
import Sippycup.WebSecurity.Observation

/-! The plan's document written with sorted keys and read back by the evidence validator,
part by part. -/
namespace Sippycup.WebSecurity
open Sippycup.Python Sippycup.Ip
open Sippycup.Webrtc (reject require readObject readArray exactKeys readInteger readEnum readItems)

/-- `json.loads(json.dumps(value, sort_keys=True))` -/
def stored (value : JsonValue) : JsonValue := value.sortKeys.reread

theorem stored_list (items : List JsonValue) : stored (.list items) = .list (items.map stored) := by
  rw [stored, JsonValue.sortKeys, JsonValue.reread, JsonValue.sortItems_eq, JsonValue.rereadItems_eq, List.map_map]
  rfl

theorem require_true {message : String} : (require true message : Result Unit) = .ok () := rfl

section dicts
variable {entries : JsonDict}

def storedEntries (entries : JsonDict) : JsonDict :=
  (JsonValue.sortEntries (JsonValue.sortEach entries)).reread

theorem stored_dict : stored (.dict entries) = .dict (storedEntries entries) := rfl

theorem stable_sorted (stable : entries.Stable) :
    (JsonValue.sortEntries (JsonValue.sortEach entries)).Stable := by
  have perm : (JsonValue.sortEntries (JsonValue.sortEach entries)).keys.Perm entries.keys := by
    rw [JsonValue.sortEach_eq]
    refine ((List.perm_insertionSort _ _).map _).trans ?_
    rw [List.map_map]
    exact List.Perm.refl _
  exact ⟨perm.nodup_iff.mpr stable.1, fun key member => stable.2 key (perm.mem_iff.mp member)⟩

theorem get?_storedEntries (stable : entries.Stable) (key : Text) :
    (storedEntries entries).get? key = (entries.get? key).map stored := by
  rw [storedEntries, (stable_sorted stable).get?_reread, JsonDict.get?_sortEntries, JsonValue.sortEach_eq,
    JsonDict.get?_map fun _ value => value.sortKeys]
  rw [Option.map_map]
  rfl

theorem find_storedEntries (stable : entries.Stable) (key : Text) :
    (storedEntries entries).find key = stored (entries.find key) := by
  rw [JsonDict.find, JsonDict.find, get?_storedEntries stable]
  cases entries.get? key <;> rfl

theorem exactKeys_ok {path : String} {names : List Text} :
    (exactKeys entries path names : Result Unit) = .ok () ↔
      (∀ name ∈ names, name ∈ entries.keys) ∧ ∀ key ∈ entries.keys, key ∈ names := by
  rw [exactKeys]
  simp only [bind_ok, Webrtc.require_ok, List.isEmpty_iff, List.filter_eq_nil_iff, Bool.not_eq_true',
    Bool.not_eq_false, JsonDict.contains_iff, List.contains_iff_mem, exists_const]

theorem exactKeys_stored (stable : entries.Stable) {path : String} {names : List Text}
    (exact_ : (exactKeys entries path names : Result Unit) = .ok ()) :
    (exactKeys (storedEntries entries) path names : Result Unit) = .ok () := by
  have keys (key : Text) : key ∈ (storedEntries entries).keys ↔ key ∈ entries.keys := by
    rw [← JsonDict.contains_iff, ← JsonDict.contains_iff, JsonDict.contains, JsonDict.contains,
      get?_storedEntries stable, Option.isSome_map]
  rw [exactKeys_ok] at exact_ ⊢
  exact ⟨fun name member => (keys name).mpr (exact_.1 name member),
    fun key member => exact_.2 key ((keys key).mp member)⟩

theorem stable_of_keys {names : List Text} (keys : entries.keys = names) (distinct : names.Nodup)
    (plain : ∀ name ∈ names, name.reread = name) : entries.Stable := by
  subst keys
  exact ⟨distinct, plain⟩

end dicts

section texts

theorem stored_str {t : Text} (apart : ∀ c ∈ t.codes, Apart c) : stored (.str t) = .str t :=
  congrArg JsonValue.str (Text.ext (rejoin_apart apart))

theorem idCode_apart {c : Nat} (isCode : isIdCode c = true) : Apart c := by
  unfold Apart
  simp only [isIdCode, isLower, isDigit, Bool.or_eq_true, decide_eq_true_eq] at isCode
  omega

theorem identifier_apart (id : Identifier) : ∀ c ∈ id.val.codes, Apart c := by
  obtain ⟨⟨codes⟩, ok⟩ := id
  intro c member
  cases codes with
  | nil => cases member
  | cons first rest =>
    rw [idOk, Bool.and_eq_true, List.all_eq_true] at ok
    exact idCode_apart (ok.2 c member)

theorem mem_splitOn {separator c : Nat} {codes : Codes} (member : c ∈ codes) :
    c = separator ∨ ∃ part ∈ codes.splitOn separator, c ∈ part := by
  have joined : [separator].intercalate (codes.splitOn separator) = codes := List.intercalate_splitOn separator
  rw [← joined] at member
  exact mem_intercalate member

theorem version_apart (version : {t : Text // versionOk t.codes = true}) : ∀ c ∈ version.val.codes, Apart c := by
  obtain ⟨⟨codes⟩, ok⟩ := version
  intro c member
  rcases @mem_splitOn dot _ _ member with rfl | ⟨part, inside, within⟩
  · exact (by decide : dot < 0xD800)
  · unfold versionOk at ok
    split at ok
    · rename_i major minor patch split
      dsimp only at split inside
      rw [split] at inside
      have digits := List.all_eq_true.mp ok part inside
      rw [Bool.and_eq_true, List.all_eq_true] at digits
      have bounds := of_decide_eq_true (digits.2 c within)
      unfold Apart
      omega
    · cases ok

theorem hostname_apart (host : {t : Text // hostnameOk t.codes = true}) : ∀ c ∈ host.val.codes, Apart c := by
  obtain ⟨⟨codes⟩, ok⟩ := host
  intro c member
  rcases @mem_splitOn dot _ _ member with rfl | ⟨part, inside, within⟩
  · exact (by decide : dot < 0xD800)
  · rw [hostnameOk, Bool.and_eq_true, List.all_eq_true] at ok
    have label := ok.2 part inside
    rw [labelOk, Bool.and_eq_true, List.all_eq_true] at label
    have isCode := label.2 c within
    unfold Apart
    simp only [isHostCode, isAlnum, isLower, isUpper, isDigit, Bool.or_eq_true, decide_eq_true_eq] at isCode
    omega

end texts

section readers
variable {path : String}

theorem readIdentifier_stored (id : Identifier) : readIdentifier (stored (.str id)) path = .ok id := by
  rw [stored_str (identifier_apart id), readIdentifier, dif_pos id.2]

theorem readOptionalIdentifier_stored (id : Option Identifier) :
    readOptionalIdentifier (stored (optionalText (id.map (·.val)))) path = .ok id := by
  cases id with
  | none => rfl
  | some id =>
    have held : stored (optionalText ((some id).map (·.val))) = .str id := stored_str (identifier_apart id)
    rw [held, readOptionalIdentifier, readIdentifier, dif_pos id.2]
    · rfl
    · rintro ⟨⟩

theorem readHostname_stored (host : {t : Text // hostnameOk t.codes = true}) :
    readHostname (stored (.str host)) path = .ok host := by
  rw [stored_str (hostname_apart host), readHostname, dif_pos host.2]

theorem readInteger_stored {minimum maximum : Nat} (n : {n : Nat // minimum ≤ n ∧ n ≤ maximum}) :
    (readInteger (stored (.int n.val)) path minimum maximum : Result _) = .ok n := by
  change (readInteger (.int (.ofNat n.val)) path minimum maximum : Result _) = .ok n
  rw [readInteger, dif_pos n.2]

theorem readSurface_stored (surface : Surface) : readSurface (stored (.str surface.name)) path = .ok surface := by
  cases surface <;> rfl

theorem readBlocker_stored (blocker : Blocker) : readBlocker (stored (.str blocker.name)) path = .ok blocker := by
  cases blocker <;> rfl

theorem readCheck_stored (check : Check) :
    (readEnum Check.name allChecks (stored (.str check.name)) path : Result _) = .ok check := by
  cases check <;> rfl

theorem readOutcome_stored (outcome : Outcome) :
    (readEnum Outcome.name outcomes (stored (.str outcome.name)) path : Result _) = .ok outcome := by
  cases outcome <;> rfl

theorem readExecutionClass_stored (executionClass : ExecutionClass) :
    (readEnum ExecutionClass.name executionClasses (stored (.str executionClass.name)) path : Result _) =
      .ok executionClass := by
  cases executionClass <;> rfl

theorem readState_stored (state : State) :
    (readEnum State.name [.notRequired, .ready, .blocked] (stored (.str state.name)) path : Result _) =
      .ok state := by
  cases state <;> rfl

theorem readOriginClass_stored (originClass : Option OriginClass) :
    readOriginClass (stored (optionalText (originClass.map OriginClass.name))) path = .ok originClass := by
  rcases originClass with _ | _ | _ <;> rfl

/-- Items that can each be read, whatever their path, are read one after another. -/
theorem readItems_each {α β : Type} {read : JsonValue → String → Result α} {write : β → JsonValue} {items : List β}
    (f : β → α) (each : ∀ item ∈ items, ∀ path, read (write item) path = .ok (f item)) (index : Nat) :
    readItems read path index (items.map write) = .ok (items.map f) := by
  induction items generalizing index with
  | nil => rfl
  | cons item rest ih =>
    rw [List.map_cons, readItems, each item List.mem_cons_self, ok_bind,
      ih fun other member => each other (List.mem_cons_of_mem _ member)]
    rfl

theorem isText_stored {t : Text} (apart : ∀ c ∈ t.codes, Apart c) : (stored (.str t)).isText t = true := by
  rw [stored_str apart, JsonValue.isText_str]
  exact decide_eq_true rfl

theorem addressOf_stored {value : JsonValue} {address : Address} (read : addressOf value = some address) :
    ∃ other, addressOf (stored value) = some other ∧ address.Alike other := by
  cases value with
  | str t => exact parseAddress_rejoin read
  | int n => exact ⟨address, read, .refl address⟩
  | bool b => exact ⟨address, read, .refl address⟩
  | null | float | list | dict => cases read

theorem requireReachable_stored {executionClass : ExecutionClass} {value : JsonValue} {at_ : String}
    (reachable : requireReachable executionClass value at_ = .ok ()) :
    requireReachable executionClass (stored value) path = .ok () := by
  unfold requireReachable at reachable ⊢
  cases read : addressOf value with
  | none =>
    rw [read] at reachable
    cases reachable
  | some address =>
    rw [read] at reachable
    obtain ⟨other, stored, alike⟩ := addressOf_stored read
    obtain ⟨multicast, unspecified, loopback, isPrivate, linkLocal⟩ := alike.classes
    simp only [bind_ok, Webrtc.require_ok, exists_const] at reachable
    rw [stored]
    simp only [bind_ok, Webrtc.require_ok, exists_const, ← multicast, ← unspecified, ← loopback, ← isPrivate,
      ← linkLocal]
    exact reachable

/-- A destination as it is after a trip through JSON. -/
def Destination.reread (destination : Destination) : Destination :=
  { destination with connectAddress := stored destination.connectAddress }

theorem readDestination_reachable {executionClass : ExecutionClass} {used : List Identifier} {value : JsonValue}
    {destination : Destination} (ok : readDestination executionClass used value path = .ok destination) :
    requireReachable executionClass destination.connectAddress path = .ok () := by
  obtain ⟨entries, -, ok⟩ := bind_ok.mp ok
  obtain ⟨-, -, ok⟩ := bind_ok.mp ok
  obtain ⟨id, -, ok⟩ := bind_ok.mp ok
  obtain ⟨-, -, ok⟩ := bind_ok.mp ok
  obtain ⟨surface, -, ok⟩ := bind_ok.mp ok
  obtain ⟨-, -, ok⟩ := bind_ok.mp ok
  obtain ⟨_, reachable, ok⟩ := bind_ok.mp ok
  obtain ⟨port, -, ok⟩ := bind_ok.mp ok
  obtain ⟨host, -, same⟩ := bind_ok.mp ok
  obtain rfl := pure_ok.mp same
  exact reachable

theorem scheme_apart (surface : Surface) : ∀ c ∈ surface.scheme.codes, Apart c := by
  unfold Apart
  cases surface <;> decide

theorem destination_stable (destination : Destination) : destination.items.Stable :=
  stable_of_keys (show destination.items.keys =
    ["id", "surface", "scheme", "connectAddress", "port", "tlsServerName"] from rfl) (by decide) (by decide)

theorem readDestination_stored {executionClass : ExecutionClass} {destination : Destination} {at_ : String}
    (reachable : requireReachable executionClass destination.connectAddress at_ = .ok ()) :
    readDestination executionClass [] (stored (.dict destination.items)) path = .ok destination.reread := by
  have stable := destination_stable destination
  have keys : (exactKeys destination.items path
      ["id", "surface", "scheme", "connectAddress", "port", "tlsServerName"] : Result Unit) = .ok () := rfl
  have id : destination.items.find "id" = .str destination.id := rfl
  have surface : destination.items.find "surface" = .str destination.surface.name := rfl
  have scheme : destination.items.find "scheme" = .str destination.surface.scheme := rfl
  have address : destination.items.find "connectAddress" = destination.connectAddress := rfl
  have port : destination.items.find "port" = .int destination.port := rfl
  have host : destination.items.find "tlsServerName" = .str destination.tlsServerName := rfl
  rw [stored_dict, readDestination, readObject, ok_bind, exactKeys_stored stable keys, ok_bind]
  simp only [find_storedEntries stable, id, surface, scheme, address, port, host, readIdentifier_stored, ok_bind,
    readSurface_stored, isText_stored (scheme_apart destination.surface), requireReachable_stored reachable,
    readInteger_stored, readHostname_stored]
  rfl

theorem case_stable (case_ : PlanCase) : case_.items.Stable :=
  stable_of_keys (show case_.items.keys =
    ["id", "check", "routeId", "credentialRole", "originClass", "expectedOutcome", "credentialRef"] from rfl)
    (by decide) (by decide)

theorem readPlanCase_stored {used : List Identifier} {case_ : PlanCase} (fresh : case_.id ∉ used) :
    readPlanCase used (stored (.dict case_.items)) path = .ok case_ := by
  have stable := case_stable case_
  have keys : (exactKeys case_.items path ["id", "check", "routeId", "credentialRole", "credentialRef",
      "originClass", "expectedOutcome"] : Result Unit) = .ok () := rfl
  have id : case_.items.find "id" = .str case_.id := rfl
  have check : case_.items.find "check" = .str case_.check.name := rfl
  have route : case_.items.find "routeId" = .str case_.routeId := rfl
  have role : case_.items.find "credentialRole" = optionalText (case_.credentialRole.map (·.val)) := rfl
  have ref : case_.items.find "credentialRef" = optionalText (case_.credentialRef.map (·.val)) := rfl
  have origin : case_.items.find "originClass" = optionalText (case_.originClass.map OriginClass.name) := rfl
  have outcome : case_.items.find "expectedOutcome" = .str case_.expectedOutcome.name := rfl
  have unused : (!used.contains case_.id) = true := by
    rw [Bool.not_eq_true', ← Bool.not_eq_true, List.contains_iff_mem]
    exact fresh
  rw [stored_dict, readPlanCase, readObject, ok_bind, exactKeys_stored stable keys, ok_bind]
  simp only [find_storedEntries stable, id, check, route, role, ref, origin, outcome, readIdentifier_stored, ok_bind,
    unused, readCheck_stored, readOptionalIdentifier_stored, readOriginClass_stored, readOutcome_stored]
  rfl

/-- Items with different keys, none of them used before, are read one after another. -/
theorem readFresh_each {α κ : Type} {key : α → κ} {read : List κ → JsonValue → String → Result α}
    {write : α → JsonValue}
    (each : ∀ used item path, key item ∉ used → read used (write item) path = .ok item) {items : List α}
    {used : List κ} (index : Nat) (distinct : (used ++ items.map key).Nodup) :
    readFresh key read path index used (items.map write) = .ok items := by
  induction items generalizing index used with
  | nil => rfl
  | cons item rest ih =>
    have fresh : key item ∉ used := fun member =>
      (List.nodup_append.mp distinct).2.2 _ member _ (by simp) rfl
    rw [List.map_cons, List.append_cons] at distinct
    rw [List.map_cons, readFresh, each used item _ fresh, ok_bind, ih (index + 1) distinct]
    rfl

theorem limits_stable (limits : Limits) : limits.items.Stable :=
  stable_of_keys (show limits.items.keys = ["maxCases", "maxConnections", "maxHttpRequests", "maxWsMessages",
    "maxAuthFailures", "maxBytes", "maxDurationSeconds", "maxRequestsPerSecond"] from rfl) (by decide) (by decide)

theorem readLimits_stored (limits : Limits) : readLimits (stored (.dict limits.items)) = .ok limits := by
  have stable := limits_stable limits
  have keys : (exactKeys limits.items "$.limits" ["maxCases", "maxConnections", "maxHttpRequests", "maxWsMessages",
      "maxAuthFailures", "maxBytes", "maxDurationSeconds", "maxRequestsPerSecond"] : Result Unit) = .ok () := rfl
  have cases_ : limits.items.find "maxCases" = .int limits.maxCases.val := rfl
  have connections : limits.items.find "maxConnections" = .int limits.maxConnections.val := rfl
  have requests : limits.items.find "maxHttpRequests" = .int limits.maxHttpRequests.val := rfl
  have messages : limits.items.find "maxWsMessages" = .int limits.maxWsMessages.val := rfl
  have failures : limits.items.find "maxAuthFailures" = .int limits.maxAuthFailures.val := rfl
  have bytes : limits.items.find "maxBytes" = .int limits.maxBytes.val := rfl
  have duration : limits.items.find "maxDurationSeconds" = .int limits.maxDurationSeconds.val := rfl
  have rate : limits.items.find "maxRequestsPerSecond" = .int limits.maxRequestsPerSecond.val := rfl
  rw [stored_dict, readLimits, readObject, ok_bind, exactKeys_stored stable keys, ok_bind]
  simp only [find_storedEntries stable, cases_, connections, requests, messages, failures, bytes, duration, rate,
    readInteger_stored, ok_bind]
  rfl

theorem distinct_surfaces {surfaces : List Surface} (nodup : surfaces.Nodup) :
    (distinct (surfaces.map fun surface => stored (.str surface.name)) : Result Bool) = .ok true := by
  have apart (a b : Surface) (other : a ≠ b) : (stored (.str a.name)).eq (stored (.str b.name)) = false := by
    cases a <;> cases b <;> first | rfl | exact absurd rfl other
  have hashable : (surfaces.map fun surface => stored (.str surface.name)).all JsonValue.hashable = true := by
    rw [List.all_map]
    exact List.all_eq_true.mpr fun _ _ => rfl
  rw [distinct, if_pos hashable, decide_eq_true]
  rw [List.pairwise_map]
  exact nodup.imp fun {a b} => apart a b

theorem readSurfaces_stored {surfaces : List Surface} (nodup : surfaces.Nodup) :
    readSurfaces (stored (.list (surfaces.map fun surface => .str surface.name))) = .ok surfaces := by
  rw [stored_list, List.map_map, readSurfaces, readArray, ok_bind]
  change (distinct (surfaces.map fun surface => stored (.str surface.name)) >>= _) = _
  rw [distinct_surfaces nodup, ok_bind]
  have read := @readItems_each "$.authorization.surfaces" _ _ readSurface
    (fun surface => stored (.str surface.name)) surfaces id (fun surface _ _ => readSurface_stored surface) 0
  rw [List.map_id] at read
  exact read

end readers

section plan

/-- What the validator checks of a plan besides its version. -/
structure Plan.WellFormed (plan : Plan) : Prop where
  blocked : plan.state = .blocked ↔ plan.blockers ≠ []
  approved : plan.executionClass = .approvedTarget →
    plan.state ≠ .notRequired ∧ plan.reference.isSome = true ∧ plan.surfaces ≠ []
  offline : plan.executionClass ≠ .approvedTarget →
    plan.state = .notRequired ∧ plan.reference = none ∧ plan.surfaces = []
  surfaces : plan.surfaces.Nodup
  destinations : plan.destinations ≠ [] ∧ plan.destinations.length ≤ 8
  reachable : ∀ destination ∈ plan.destinations,
    ∃ path, requireReachable plan.executionClass destination.connectAddress path = .ok ()
  ids : (plan.cases.map fun case_ => case_.id).Nodup
  few : plan.cases.length ≤ plan.limits.maxCases.val
  authorized : plan.executionClass = .approvedTarget →
    ∀ case_ ∈ plan.cases, case_.check.surface ∈ plan.surfaces
  version : ∀ c ∈ plan.adapterVersion.codes, Apart c

variable {plan : Plan}

theorem authorization_stable (plan : Plan) : plan.authorizationItems.Stable :=
  stable_of_keys (show plan.authorizationItems.keys = ["state", "reference", "surfaces", "blockers"] from rfl)
    (by decide) (by decide)

theorem readPlanAuthorization_stored (formed : plan.WellFormed) :
    readPlanAuthorization plan.executionClass (stored (.dict plan.authorizationItems)) =
      .ok ⟨plan.state, plan.reference, plan.surfaces, plan.blockers⟩ := by
  have stable := authorization_stable plan
  have keys : (exactKeys plan.authorizationItems "$.authorization"
      ["state", "reference", "surfaces", "blockers"] : Result Unit) = .ok () := rfl
  have state : plan.authorizationItems.find "state" = .str plan.state.name := rfl
  have reference : plan.authorizationItems.find "reference" = optionalText (plan.reference.map (·.val)) := rfl
  have surfaces : plan.authorizationItems.find "surfaces" =
      .list (plan.surfaces.map fun surface => .str surface.name) := rfl
  have blockers : plan.authorizationItems.find "blockers" =
      .list (plan.blockers.map fun blocker => .str blocker.name) := rfl
  have items : readItems readBlocker "$.authorization.blockers" 0
      ((plan.blockers.map fun blocker => JsonValue.str blocker.name).map stored) = .ok plan.blockers := by
    have read := @readItems_each "$.authorization.blockers" _ _ readBlocker
      (fun blocker => stored (.str blocker.name)) plan.blockers id (fun blocker _ _ => readBlocker_stored blocker) 0
    rw [List.map_id] at read
    rw [List.map_map]
    exact read
  rw [stored_dict, readPlanAuthorization, readObject, ok_bind, exactKeys_stored stable keys, ok_bind]
  simp only [find_storedEntries stable, state, reference, surfaces, blockers, readState_stored, ok_bind,
    readOptionalIdentifier_stored, readSurfaces_stored formed.surfaces]
  simp only [stored_list, readArray, items, ok_bind]
  have first : (!(decide (plan.state = .blocked) && plan.blockers.isEmpty)) = true := by
    by_cases blocked : plan.state = .blocked
    · simp [blocked, formed.blocked.mp blocked]
    · simp [blocked]
  have second : (!(decide (plan.state ≠ .blocked) && !plan.blockers.isEmpty)) = true := by
    by_cases blocked : plan.state = .blocked
    · simp [blocked]
    · have none := not_not.mp (formed.blocked.not.mp blocked)
      simp [none]
  rw [first, second, require_true, ok_bind, require_true, ok_bind]
  by_cases approved : plan.executionClass = .approvedTarget
  · obtain ⟨known, referenced, surfaced⟩ := formed.approved approved
    have held : (!(plan.reference.isNone || plan.surfaces.isEmpty)) = true := by
      rw [← Option.not_isSome, referenced]
      simp [surfaced]
    rw [if_pos approved, decide_eq_true known, require_true, ok_bind, held, require_true]
    rfl
  · obtain ⟨state, reference, surfaces⟩ := formed.offline approved
    rw [if_neg approved, state, reference, surfaces]
    rfl

theorem adapter_stable (plan : Plan) : plan.adapterItems.Stable :=
  stable_of_keys (show plan.adapterItems.keys = ["id", "version"] from rfl) (by decide) (by decide)

theorem plan_stable (plan : Plan) : plan.items.Stable :=
  stable_of_keys (show plan.items.keys = ["apiVersion", "networkActivity", "executionClass", "adapter",
    "authorization", "destinations", "cases", "limits", "arbitraryRequestsAvailable"] from rfl)
    (by decide) (by decide)

theorem readPlanVersion_stored (formed : plan.WellFormed) :
    readPlanVersion (stored (.str plan.adapterVersion)) =
      if plan.adapterVersion.length ≤ 32 then .ok plan.adapterVersion else reject "$.adapter.version is invalid" := by
  rw [stored_str formed.version, readPlanVersion]
  split
  · rename_i short
    rw [decide_eq_true short]
    rfl
  · rename_i long
    rw [decide_eq_false long]
    rfl

theorem requireDestinations_ok {items : List JsonValue} (some_ : items ≠ []) (few : items.length ≤ 8) :
    requireDestinations items = .ok () := by
  rw [requireDestinations, decide_eq_true few, List.isEmpty_eq_false_iff.mpr some_]
  rfl

theorem readPlanDestinations_stored (formed : plan.WellFormed) :
    readPlanDestinations plan.executionClass
      (stored (.list (plan.destinations.map fun destination => .dict destination.items))) =
      .ok (plan.destinations.map Destination.reread) := by
  have each : ∀ destination ∈ plan.destinations, ∀ path,
      readDestination plan.executionClass [] (stored (.dict destination.items)) path = .ok destination.reread := by
    intro destination member path
    obtain ⟨at_, reachable⟩ := formed.reachable destination member
    exact readDestination_stored reachable
  have read : readItems (readDestination plan.executionClass []) "$.destinations" 0
      ((plan.destinations.map fun destination => JsonValue.dict destination.items).map stored) =
        .ok (plan.destinations.map Destination.reread) := by
    rw [List.map_map]
    exact readItems_each Destination.reread each 0
  have counted : requireDestinations
      ((plan.destinations.map fun destination => JsonValue.dict destination.items).map stored) = .ok () := by
    refine requireDestinations_ok ?_ ?_
    · simpa only [ne_eq, List.map_eq_nil_iff] using formed.destinations.1
    · simpa only [List.length_map] using formed.destinations.2
  rw [stored_list, readPlanDestinations, readArray, ok_bind, counted, ok_bind, read]

theorem readPlanCases_stored (formed : plan.WellFormed) :
    readFresh (fun case_ => case_.id) readPlanCase "$.cases" 0 []
      ((plan.cases.map fun case_ => JsonValue.dict case_.items).map stored) = .ok plan.cases := by
  have distinct : (([] : List Identifier) ++ plan.cases.map fun case_ => case_.id).Nodup := formed.ids
  rw [List.map_map]
  exact @readFresh_each "$.cases" _ _ (fun case_ : PlanCase => case_.id) readPlanCase
    (fun case_ => stored (.dict case_.items)) (fun _ _ _ fresh => readPlanCase_stored fresh) _ [] 0 distinct

theorem validatePlan_stored (formed : plan.WellFormed) :
    (∃ read, validatePlan (stored plan.document) = .ok read) ↔ plan.adapterVersion.length ≤ 32 := by
  have stable := plan_stable plan
  have adapterStable := adapter_stable plan
  have keys : (exactKeys plan.items "$" ["apiVersion", "networkActivity", "executionClass", "adapter",
      "authorization", "destinations", "cases", "limits", "arbitraryRequestsAvailable"] : Result Unit) = .ok () := rfl
  have adapterKeys : (exactKeys plan.adapterItems "$.adapter" ["id", "version"] : Result Unit) = .ok () := rfl
  have api : plan.items.find "apiVersion" = .str planVersion := rfl
  have activity : plan.items.find "networkActivity" = .bool false := rfl
  have executionClass : plan.items.find "executionClass" = .str plan.executionClass.name := rfl
  have adapter : plan.items.find "adapter" = .dict plan.adapterItems := rfl
  have id : plan.adapterItems.find "id" = .str plan.adapterId := rfl
  have version : plan.adapterItems.find "version" = .str plan.adapterVersion := rfl
  have authorization : plan.items.find "authorization" = .dict plan.authorizationItems := rfl
  have destinations : plan.items.find "destinations" =
      .list (plan.destinations.map fun destination => .dict destination.items) := rfl
  have cases_ : plan.items.find "cases" = .list (plan.cases.map fun case_ => .dict case_.items) := rfl
  have limits : plan.items.find "limits" = .dict plan.limits.items := rfl
  have arbitrary : plan.items.find "arbitraryRequestsAvailable" = .bool false := rfl
  have named : (stored (.str planVersion)).isText planVersion = true := rfl
  have isFalse_ : isFalse (stored (.bool false)) = true := rfl
  rw [Plan.document, stored_dict, validatePlan, readObject, ok_bind, exactKeys_stored stable keys, ok_bind]
  simp only [find_storedEntries stable, api, activity, executionClass, adapter, authorization, destinations, cases_,
    limits, arbitrary, named, isFalse_, require_true, ok_bind, readExecutionClass_stored,
    readPlanAuthorization_stored formed, readPlanDestinations_stored formed, readLimits_stored]
  rw [stored_dict, readObject, ok_bind, exactKeys_stored adapterStable adapterKeys, ok_bind]
  simp only [find_storedEntries adapterStable, id, version, readIdentifier_stored, ok_bind,
    readPlanVersion_stored formed]
  by_cases short : plan.adapterVersion.length ≤ 32
  · have few : decide (plan.cases.length ≤ plan.limits.maxCases.val) = true := decide_eq_true formed.few
    have authorized : (!(decide (plan.executionClass = .approvedTarget) &&
        !plan.cases.all fun case_ => plan.surfaces.contains case_.check.surface)) = true := by
      by_cases approved : plan.executionClass = .approvedTarget
      · have each : (plan.cases.all fun case_ => plan.surfaces.contains case_.check.surface) = true :=
          List.all_eq_true.mpr fun case_ member =>
            List.contains_iff_mem.mpr (formed.authorized approved case_ member)
        rw [each, Bool.not_true, Bool.and_false, Bool.not_false]
      · rw [decide_eq_false approved, Bool.false_and, Bool.not_false]
    refine iff_of_true ?_ short
    rw [if_pos short, ok_bind, stored_list, readArray, ok_bind, readPlanCases_stored formed, ok_bind, few,
      require_true, ok_bind, authorized, require_true, ok_bind]
    exact ⟨_, rfl⟩
  · refine iff_of_false ?_ short
    rintro ⟨read, ok⟩
    rw [if_neg short] at ok
    cases ok

end plan

end Sippycup.WebSecurity
