import Sippycup.Runtime.Authorized

/-! Soundness of plan validation: an accepted document is read into a plan
whose every step stays inside the document's own authorization. -/
namespace Sippycup.Runtime
open Sippycup.Python Sippycup.Ip

/-- What the steps use of a quantity. -/
def spent (key : Quantity) (steps : List Step) : Nat := (steps.map fun step => step.budget key).sum

@[simp] theorem spent_nil (key : Quantity) : spent key [] = 0 := rfl

@[simp] theorem spent_cons (key : Quantity) (step : Step) (steps : List Step) :
    spent key (step :: steps) = step.budget key + spent key steps := by
  simp [spent]

theorem readSteps_ok {scope : Scope} {document : Dict} {destinations : List Destination} {index : Nat}
    {raws : List Value} {calculated total : Amounts} {steps : List Step} (reads : scope.Reads document)
    (within : ∀ d ∈ destinations, d.Within scope)
    (read : readSteps scope destinations index raws calculated = .ok (steps, total)) :
    List.Forall₂ StepReads raws steps ∧ (∀ step ∈ steps, step.Within scope) ∧
      (∀ i step, steps[i]? = some step → Value.eq step.index (.int (index + i : Nat)) = true) ∧
      ∀ key ∈ totalKeys, total key = calculated key + spent key steps ∧
        (calculated key ≤ scope.maxima key →
          ∀ n, calculated key + spent key (steps.take n) ≤ scope.maxima key) := by
  induction raws generalizing index calculated steps with
  | nil =>
    cases read
    simp
  | cons raw rest ih =>
    simp only [readSteps, bind_ok, pure_ok, Prod.mk.injEq] at read
    obtain ⟨⟨step, sums⟩, first, ⟨later, after⟩, tail, rfl, rfl⟩ := read
    obtain ⟨stepReads, stepWithin, indexSame, adds⟩ := readStep_ok reads within first
    obtain ⟨laterReads, laterWithin, laterIndex, laterSums⟩ := ih tail
    refine ⟨.cons stepReads laterReads, ?_, ?_, ?_⟩
    · intro s member
      rcases List.mem_cons.mp member with rfl | member
      · exact stepWithin
      · exact laterWithin s member
    · intro i s found
      cases i with
      | zero =>
        obtain rfl : step = s := by simpa using found
        exact indexSame
      | succ i =>
        rw [List.getElem?_cons_succ] at found
        rw [show index + (i + 1) = index + 1 + i by omega]
        exact laterIndex i s found
    · intro key member
      obtain ⟨sum, bound⟩ := adds key member
      obtain ⟨rest, prefixes⟩ := laterSums key member
      dsimp only at rest prefixes ⊢
      rw [rest, sum, spent_cons]
      refine ⟨by omega, fun start n => ?_⟩
      cases n with
      | zero => simpa using start
      | succ n =>
        have next := prefixes bound n
        rw [List.take_succ_cons, spent_cons]
        omega

section scopes
variable {scopes : Scopes} {address a : Text} {service s : Service} {services : List Service}

theorem mem_addService (member : s ∈ addService services service) : s ∈ services ∨ s = service := by
  unfold addService at member
  split at member
  · exact .inl member
  · rcases List.mem_append.mp member with old | new
    · exact .inl old
    · exact .inr (List.mem_singleton.mp new)

theorem subset_addService : services ⊆ addService services service := by
  unfold addService
  split
  · exact List.Subset.refl _
  · exact List.subset_append_left _ _

theorem addService_covers :
    ∃ known ∈ addService services service, known = service ∨ Service.same service known = true := by
  unfold addService
  split
  · rename_i present
    obtain ⟨known, member, same⟩ := List.any_eq_true.mp present
    exact ⟨known, member, .inr same⟩
  · exact ⟨service, by simp, .inl rfl⟩

/-- Adding a service adds nothing else. -/
theorem mem_addScope (member : (a, services) ∈ addScope scopes address service) (inside : s ∈ services) :
    (∃ before, (a, before) ∈ scopes ∧ s ∈ before) ∨ (a = address ∧ s = service) := by
  induction scopes with
  | nil =>
    simp only [addScope, List.mem_singleton, Prod.mk.injEq] at member
    obtain ⟨rfl, rfl⟩ := member
    exact .inr ⟨rfl, List.mem_singleton.mp inside⟩
  | cons scope rest ih =>
    obtain ⟨known, ks⟩ := scope
    rw [addScope] at member
    split at member
    · rename_i same
      rcases List.mem_cons.mp member with head | later
      · obtain ⟨rfl, rfl⟩ := Prod.mk.inj head
        rcases mem_addService inside with old | new
        · exact .inl ⟨ks, List.mem_cons_self, old⟩
        · exact .inr ⟨same, new⟩
      · exact .inl ⟨services, List.mem_cons_of_mem _ later, inside⟩
    · rcases List.mem_cons.mp member with head | later
      · obtain ⟨rfl, rfl⟩ := Prod.mk.inj head
        exact .inl ⟨_, List.mem_cons_self, inside⟩
      · rcases ih later with ⟨before, earlier, old⟩ | new
        · exact .inl ⟨before, List.mem_cons_of_mem _ earlier, old⟩
        · exact .inr new

/-- A service stays where it is when others are added. -/
theorem addScope_keeps (member : (a, services) ∈ scopes) :
    ∃ after, (a, after) ∈ addScope scopes address service ∧ services ⊆ after := by
  induction scopes with
  | nil => cases member
  | cons scope rest ih =>
    obtain ⟨known, ks⟩ := scope
    rw [addScope]
    split
    · rcases List.mem_cons.mp member with head | later
      · obtain ⟨rfl, rfl⟩ := Prod.mk.inj head
        exact ⟨_, List.mem_cons_self, subset_addService⟩
      · exact ⟨services, List.mem_cons_of_mem _ later, List.Subset.refl _⟩
    · rcases List.mem_cons.mp member with head | later
      · obtain ⟨rfl, rfl⟩ := Prod.mk.inj head
        exact ⟨_, List.mem_cons_self, List.Subset.refl _⟩
      · obtain ⟨after, found, kept⟩ := ih later
        exact ⟨after, List.mem_cons_of_mem _ found, kept⟩

theorem addScope_covers : ∃ after, (address, after) ∈ addScope scopes address service ∧
    ∃ known ∈ after, known = service ∨ Service.same service known = true := by
  induction scopes with
  | nil => exact ⟨[service], by simp [addScope], service, by simp, .inl rfl⟩
  | cons scope rest ih =>
    obtain ⟨known, ks⟩ := scope
    rw [addScope]
    split
    · rename_i same
      subst same
      exact ⟨_, List.mem_cons_self, addService_covers⟩
    · obtain ⟨after, found, covered⟩ := ih
      exact ⟨after, List.mem_cons_of_mem _ found, covered⟩

end scopes

/-- A step uses a service at an address. -/
def Step.Uses (step : Step) (address : Text) (service : Service) : Prop :=
  address ∈ step.addresses ∧ service = (step.transport, step.port)

/-- Scopes hold exactly the services that some of the steps use, up to the
equality of port numbers. -/
structure Scopes.Exact (used : Text → Service → Prop) (scopes : Scopes) : Prop where
  only : ∀ address services, (address, services) ∈ scopes → ∀ service ∈ services, used address service
  all : ∀ address service, used address service → ∃ services, (address, services) ∈ scopes ∧
    ∃ known ∈ services, known = service ∨ Service.same service known = true

theorem Scopes.Exact.add {used : Text → Service → Prop} {scopes : Scopes} (exact_ : scopes.Exact used)
    (address : Text) (service : Service) :
    (addScope scopes address service).Exact fun a s => used a s ∨ (a = address ∧ s = service) := by
  constructor
  · intro a services member s inside
    rcases mem_addScope member inside with ⟨before, earlier, old⟩ | new
    · exact .inl (exact_.only a before earlier s old)
    · exact .inr new
  · rintro a s (old | ⟨rfl, rfl⟩)
    · obtain ⟨services, member, known, inside, same⟩ := exact_.all a s old
      obtain ⟨after, found, kept⟩ :
          ∃ after, (a, after) ∈ addScope scopes address service ∧ services ⊆ after :=
        addScope_keeps member
      exact ⟨after, found, known, kept inside, same⟩
    · exact addScope_covers

theorem Scopes.Exact.congr {used used' : Text → Service → Prop} {scopes : Scopes}
    (exact_ : scopes.Exact used) (same : ∀ a s, used a s ↔ used' a s) : scopes.Exact used' :=
  ⟨fun a services member s inside => (same a s).mp (exact_.only a services member s inside),
    fun a s use => exact_.all a s ((same a s).mpr use)⟩

theorem addStep_exact {used : Text → Service → Prop} {scopes : Scopes} (exact_ : scopes.Exact used)
    (step : Step) : (addStep scopes step).Exact fun a s => used a s ∨ step.Uses a s := by
  unfold addStep Step.Uses
  generalize step.addresses = addresses
  induction addresses generalizing scopes used with
  | nil => exact exact_.congr (by simp)
  | cons address rest ih =>
    rw [List.foldl_cons]
    refine (ih (exact_.add address (step.transport, step.port))).congr fun a s => ?_
    simp only [List.mem_cons]
    tauto

/-- The scopes of the steps hold exactly the steps' addresses, transports and ports. -/
theorem scopesOf_exact (steps : List Step) :
    (scopesOf steps).Exact fun a s => ∃ step ∈ steps, step.Uses a s := by
  induction steps using List.reverseRecOn with
  | nil => exact ⟨by simp [scopesOf], by simp⟩
  | append_singleton steps step ih =>
    rw [scopesOf, List.foldl_append]
    refine (addStep_exact ih step).congr fun a s => ?_
    simp [or_and_right, exists_or]

/-- A plan, as the document has it. -/
structure Plan.Reads (document : Dict) (plan : Plan) : Prop where
  authorization : ∃ scope : Scope, scope.Reads document ∧ plan.authorization = authorizationOf scope
  steps : ∃ raws, document.get? "steps" = some (.list raws) ∧ List.Forall₂ StepReads raws plan.steps
  plannedTotals : ∃ totals, document.get? "plannedTotals" = some (.dict totals) ∧
    ReadsAmounts totals totalKeys plan.plannedTotals
  captureFilter : document.get? "captureFilter" = some (.str plan.captureFilter)

/-- Everything that execution uses is tied back to the authorization section. -/
structure Plan.Authorized (plan : Plan) : Prop where
  address : ∀ step ∈ plan.steps, ∀ text ∈ step.addresses, ∃ address,
    ipAddress (.str text) = some address ∧
    ∃ network ∈ plan.authorization.networks, network.contains address = true
  transport : ∀ step ∈ plan.steps, step.transport ∈ plan.authorization.transports
  port : ∀ step ∈ plan.steps, ∃ port ∈ plan.authorization.signalingPorts,
    Value.eq (.int port) step.port = true
  credential : ∀ step ∈ plan.steps, ∀ name ∈ step.credentialRef,
    name ∈ plan.authorization.credentialRefs
  totals : ∀ key ∈ totalKeys, spent key plan.steps = plan.plannedTotals key
  prefixes : ∀ key ∈ totalKeys, ∀ n,
    spent key (plan.steps.take n) ≤ plan.authorization.hardMaxima key
  total : ∀ key ∈ totalKeys, plan.plannedTotals key ≤ plan.authorization.hardMaxima key
  filter : plan.captureFilter = Runtime.captureFilter plan.steps plan.authorization.mediaPorts
  scopes : (scopesOf plan.steps).Exact fun a s => ∃ step ∈ plan.steps, step.Uses a s
  numbered : ∀ i step, plan.steps[i]? = some step → Value.eq step.index (.int (i + 1 : Nat)) = true
  ceilings : ∀ key ∈ ceilingKeys, 0 < plan.authorization.hardMaxima key

theorem readTotals_ok {maxima amounts : Amounts} {document : Dict}
    (read : readTotals maxima document = .ok amounts) :
    ∃ totals, document.get? "plannedTotals" = some (.dict totals) ∧
      ReadsAmounts totals totalKeys amounts ∧ ∀ key ∈ totalKeys, amounts key ≤ maxima key := by
  simp only [readTotals, bind_ok, object_ok, Dict.item_ok, refuse_ok, Bool.not_eq_false', pure_ok,
    List.all_eq_true, List.any_eq_false, decide_eq_true_eq, Nat.not_lt] at read
  obtain ⟨_, found, totals, rfl, _, keys, _, numbers, _, within, rfl⟩ := read
  have complete : ∀ key ∈ totalKeys, totals.get? key.name = some (totals.getD key.name .none) :=
    fun key member => exactKeys_ok keys key.name (List.mem_map_of_mem member)
  have uints : ∀ key ∈ totalKeys, isUint (totals.getD key.name .none) false = true := by
    intro key member
    obtain ⟨entry, inside, same⟩ := mem_of_getD (complete key member)
    exact same ▸ numbers entry inside
  exact ⟨totals, found, readAmounts_reads complete uints, within⟩

theorem Step.Within.authorized {document : Dict} {scope : Scope} {step : Step}
    (reads : scope.Reads document) (within : step.Within scope) :
    step.transport ∈ (authorizationOf scope).transports ∧
    (∃ port ∈ (authorizationOf scope).signalingPorts, Value.eq (.int port) step.port = true) ∧
    ∀ name ∈ step.credentialRef, name ∈ (authorizationOf scope).credentialRefs := by
  refine ⟨List.mem_map.mpr ⟨_, within.transport, rfl⟩, ?_, fun name member =>
    List.mem_map.mpr ⟨_, within.credential name member, rfl⟩⟩
  obtain ⟨port, member, same⟩ := List.any_eq_true.mp within.port
  have valid := reads.ports port member
  rw [isPort, Bool.and_eq_true] at valid
  obtain ⟨n, rfl, _⟩ := isUint_iff.1 valid.1
  exact ⟨n, List.mem_map.mpr ⟨_, member, rfl⟩, same⟩

/-- Every document that validation accepts is read into a plan that acts within
its own authorization. -/
theorem accepted_plan_is_authorized {casing : Casing} {value : Value} {plan : Plan}
    (accepted : validatePlan casing value = .ok plan) :
    (∃ document, value = .dict document ∧ plan.Reads document) ∧ plan.Authorized := by
  unfold validatePlan at accepted
  split at accepted
  · rename_i document
    simp only [validateFields, bind_ok, Dict.item_ok, uniqueArray_ok, refuse_ok, object_ok, pure_ok,
      Bool.not_eq_false', List.any_eq_false, decide_eq_true_eq, not_not] at accepted
    obtain ⟨_, _, _, _, _, _, _, _, ⟨name, digest⟩, _, scope, authorization, destinations,
      destinationsRead, _, _, _, _, totals, totalsRead, _, found, raws, ⟨rfl, _⟩, ⟨steps, calculated⟩,
      stepsRead, _, same, _, _, filter, filterFound, _, filterSame, _, _, _, _, _, _, rfl⟩ := accepted
    have reads := readAuthorization_ok authorization
    have texts : ∀ item ∈ scope.transports, ∃ t, item = .str t := by
      intro item member
      obtain ⟨name, _, same⟩ := reads.transports item member
      exact ⟨_, same⟩
    have within : ∀ d ∈ destinations, d.Within scope := by
      simp only [readDestinations, bind_ok, Dict.item_ok, uniqueArray_ok] at destinationsRead
      obtain ⟨_, _, _, _, read⟩ := destinationsRead
      intro d member
      obtain ⟨_, _, one⟩ := readIndexed_ok read d member
      exact readDestination_ok texts one
    obtain ⟨stepReads, stepWithin, numbered, sums⟩ := readSteps_ok reads within stepsRead
    obtain ⟨planned, plannedFound, plannedReads, bounded⟩ := readTotals_ok totalsRead
    obtain rfl := Value.isText_iff.mp filterSame
    refine ⟨⟨document, rfl, ⟨scope, reads, rfl⟩, ⟨raws, found, stepReads⟩,
      ⟨planned, plannedFound, plannedReads⟩, filterFound⟩, ?_⟩
    exact {
      address := fun step member => (stepWithin step member).address
      transport := fun step member => ((stepWithin step member).authorized reads).1
      port := fun step member => ((stepWithin step member).authorized reads).2.1
      credential := fun step member => ((stepWithin step member).authorized reads).2.2
      totals := by
        intro key member
        have sum := (sums key member).1
        have equal := same key member
        dsimp only at sum equal ⊢
        rw [equal, Nat.zero_add] at sum
        exact sum.symm
      prefixes := by
        intro key member n
        have bound := (sums key member).2 (Nat.zero_le _) n
        rwa [Nat.zero_add] at bound
      total := bounded
      filter := rfl
      scopes := scopesOf_exact steps
      numbered := by
        intro i step found
        rw [Nat.add_comm i 1]
        exact numbered i step found
      ceilings := reads.positive }
  · cases accepted

/-- One call to one address; the rest of the plan is as small as it can be. -/
def oneCallDocument : Dict :=
  let text (s : String) : Value := .str s
  let amounts (calls packets bytes seconds : Int) : Dict :=
    [Dict.entry "calls" (.int calls), Dict.entry "packets" (.int packets),
      Dict.entry "bytes" (.int bytes), Dict.entry "durationSeconds" (.int seconds)]
  [Dict.entry "apiVersion" (text "sippycup.dev/plan/v1"), Dict.entry "kind" (text "CampaignPlan"),
    Dict.entry "metadata" (.dict [Dict.entry "name" (text "one-call"),
      Dict.entry "manifestSha256" (.str ⟨List.replicate 64 97⟩)]),
    Dict.entry "authorization" (.dict [
      Dict.entry "networks" (.list [text "10.20.0.0/16", text "fd00::/8"]),
      Dict.entry "signalingPorts" (.list [.int 5060]),
      Dict.entry "mediaPorts" (.dict [Dict.entry "start" (.int 10000), Dict.entry "end" (.int 10010)]),
      Dict.entry "transports" (.list [text "udp"]), Dict.entry "credentialRefs" (.list [text "lab"]),
      Dict.entry "hardMaxima" (.dict (amounts 2 100 10000 60 ++
        [Dict.entry "concurrentCalls" (.int 1), Dict.entry "packetsPerSecond" (.int 50),
          Dict.entry "callsPerSecond" (.int 1)])),
      Dict.entry "stopConditions" (.dict [Dict.entry "consecutiveFailures" (.int 1),
        Dict.entry "unexpectedResponse" (.bool true), Dict.entry "packetLossPercent" (.int 5)])]),
    Dict.entry "resolvedDestinations" (.list [.dict [Dict.entry "target" (text "pbx"),
      Dict.entry "address" (text "fd00::1"), Dict.entry "transport" (text "udp"),
      Dict.entry "port" (.int 5060)]]),
    Dict.entry "captureFilter"
      (text "(host fd00::1 and (udp port 5060 or udp portrange 10000-10010))"),
    Dict.entry "expectations" (.dict [Dict.entry "allowedSipStatuses" (.list [.int 200]),
      Dict.entry "requireBidirectionalRtp" (.bool false)]),
    Dict.entry "evidence" (.dict [Dict.entry "capture" (.bool true),
      Dict.entry "retainPayload" (.bool false), Dict.entry "directory" (text "evidence/one")]),
    Dict.entry "plannedTotals" (.dict (amounts 1 40 4000 10)),
    Dict.entry "steps" (.list [.dict [Dict.entry "index" (.int 1), Dict.entry "case" (text "basic"),
      Dict.entry "sequence" (.int 1), Dict.entry "type" (text "call"), Dict.entry "target" (text "pbx"),
      Dict.entry "destination" (.dict [Dict.entry "addresses" (.list [text "fd00::1"]),
        Dict.entry "port" (.int 5060), Dict.entry "transport" (text "udp")]),
      Dict.entry "credentialRef" (text "lab"), Dict.entry "budget" (.dict (amounts 1 40 4000 10)),
      Dict.entry "expectations" (.dict [])]]),
    Dict.entry "assumptions" (.list []), Dict.entry "resolutionPins" (.dict [])]

theorem one_call_is_authorized :
    ∃ plan, validatePlan .ascii (.dict oneCallDocument) = .ok plan ∧ plan.Authorized := by
  have accepted : (validatePlan .ascii (.dict oneCallDocument)).isOk = true := by decide +kernel
  obtain ⟨plan, accepted⟩ := isOk_iff.mp accepted
  exact ⟨plan, accepted, (accepted_plan_is_authorized accepted).2⟩

end Sippycup.Runtime
