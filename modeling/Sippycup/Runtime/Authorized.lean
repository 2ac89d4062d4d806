import Sippycup.Runtime.Accepted

/-! An accepted plan acts within its own authorization section: every step's
addresses, transport, port, credential and budget are tied back to it. -/
namespace Sippycup.Runtime
open Sippycup.Python Sippycup.Ip

theorem number_eq_iff {a b : Number} : a.eq b = true ↔ ∃ x, a.exact = some x ∧ b.exact = some x := by
  cases a with
  | int m =>
    cases b with
    | int n => simp [Number.exact, eq_comm]
    | float y => cases y <;> simp [Number.eq, Number.exact, eq_comm]
  | float x => cases x <;> cases b with
    | int n => simp [Number.eq, Number.exact, eq_comm]
    | float y => cases y <;> simp [Number.eq, Number.exact, eq_comm]

theorem eq_number {a b : Value} {n : Number} (number : b.number? = some n)
    (same : Value.eq a b = true) : ∃ m, a.number? = some m ∧ m.eq n = true := by
  cases a <;> cases b <;> simp_all [Value.eq, Value.scalarEq, Value.number?]

/-- Equality with an integer passes through equality of values. -/
theorem eq_int_trans {a b : Value} {n : Int} (same : Value.eq a b = true)
    (number : Value.eq (.int n) b = true) : Value.eq (.int n) a = true := by
  obtain ⟨m, bNumber, bSame⟩ := Value.eq_int.mp number
  obtain ⟨k, aNumber, aSame⟩ := eq_number bNumber same
  obtain ⟨x, nExact, bExact⟩ := number_eq_iff.1 bSame
  obtain ⟨y, aExact, bExact'⟩ := number_eq_iff.1 aSame
  obtain rfl : x = y := Option.some.inj (bExact.symm.trans bExact')
  exact Value.eq_int.mpr ⟨k, aNumber, number_eq_iff.2 ⟨x, nExact, aExact⟩⟩

theorem eq_str_iff {a : Value} {t : Text} : Value.eq a (.str t) = true ↔ a = .str t := by
  cases a <;> simp [Value.eq, Value.scalarEq, Value.number?]

structure Destination.Within (scope : Scope) (destination : Destination) : Prop where
  network : ∃ network ∈ scope.networks, network.contains destination.address = true
  transport : Value.str destination.transport ∈ scope.transports
  port : destination.port.isIn scope.ports = true

theorem readDestination_ok {scope : Scope} {index : Nat} {item : Value} {destination : Destination}
    (texts : ∀ item ∈ scope.transports, ∃ t, item = .str t)
    (read : readDestination scope index item = .ok destination) : destination.Within scope := by
  simp only [readDestination, bind_ok, object_ok, Dict.item_ok] at read
  obtain ⟨d, rfl, _, _, target, _, _, _, address, _, read⟩ := read
  split at read
  · cases read
  · rename_i found parsed
    simp only [bind_ok, Dict.item_ok, refuse_ok, Bool.or_eq_false_iff, Bool.not_eq_false', pure_ok,
      List.any_eq_true] at read
    obtain ⟨_, network, transport, _, port, _, _, ⟨transportIn, portIn⟩, rfl⟩ := read
    obtain ⟨same, member⟩ := isIn_texts texts transportIn
    refine ⟨network, ?_, portIn⟩
    obtain ⟨item, inside, text⟩ := List.mem_map.mp member
    obtain ⟨t, rfl⟩ := texts item inside
    exact text ▸ inside

theorem readIndexed_ok {α β : Type} {read : Nat → α → Result β} {index : Nat} {items : List α}
    {results : List β} (ok : readIndexed read index items = .ok results) :
    ∀ result ∈ results, ∃ i item, read i item = .ok result := by
  induction items generalizing index results with
  | nil =>
    cases ok
    simp
  | cons item rest ih =>
    rw [readIndexed] at ok
    simp only [bind_ok, pure_ok] at ok
    obtain ⟨head, first, tail, later, rfl⟩ := ok
    intro result member
    rcases List.mem_cons.mp member with rfl | member
    · exact ⟨index, item, first⟩
    · exact ih later result member

theorem addBudget_ok {maxima budget calculated sums : Amounts} {keys : List Quantity}
    (distinct : keys.Nodup) (added : addBudget maxima budget keys calculated = .ok sums) :
    ∀ key, (key ∈ keys → sums key = calculated key + budget key ∧ sums key ≤ maxima key) ∧
      (key ∉ keys → sums key = calculated key) := by
  induction keys generalizing calculated with
  | nil =>
    cases added
    simp
  | cons head rest ih =>
    rw [addBudget] at added
    simp only [bind_ok, refuse_ok, decide_eq_false_iff_not, Nat.not_lt] at added
    obtain ⟨_, within, added⟩ := added
    obtain ⟨fresh, distinct⟩ := List.nodup_cons.mp distinct
    have later := ih distinct added
    intro key
    by_cases first : key = head
    · subst first
      have kept := (later key).2 fresh
      rw [Function.update_self] at kept
      exact ⟨fun _ => ⟨kept, kept ▸ within⟩, fun other => absurd List.mem_cons_self other⟩
    · have same : Function.update calculated head (calculated head + budget head) key = calculated key :=
        Function.update_of_ne first _ _
      have later := later key
      rw [same] at later
      refine ⟨fun member => ?_, fun other => later.2 fun inside =>
        other (List.mem_cons_of_mem _ inside)⟩
      exact later.1 ((List.mem_cons.mp member).resolve_left first)

/-- A step, as its document has it. -/
structure StepReads (raw : Value) (step : Step) : Prop where
  reads : ∃ entries destination budget : Dict, raw = .dict entries ∧
    entries.get? "index" = some step.index ∧
    entries.get? "type" = some (.str (if step.type = .call then "call" else "options")) ∧
    entries.get? "target" = some (.str step.target) ∧
    entries.get? "credentialRef" = some (step.credentialRef.elim .none .str) ∧
    entries.get? "destination" = some (.dict destination) ∧
    destination.get? "addresses" = some (.list (step.addresses.map .str)) ∧
    destination.get? "transport" = some (.str step.transport) ∧
    destination.get? "port" = some step.port ∧
    entries.get? "budget" = some (.dict budget) ∧ ReadsAmounts budget totalKeys step.budget

/-- A step acts only where the authorization section lets it. -/
structure Step.Within (scope : Scope) (step : Step) : Prop where
  address : ∀ text ∈ step.addresses, ∃ address, ipAddress (.str text) = some address ∧
    ∃ network ∈ scope.networks, network.contains address = true
  transport : Value.str step.transport ∈ scope.transports
  port : step.port.isIn scope.ports = true
  credential : ∀ name ∈ step.credentialRef, Value.str name ∈ scope.credentials
  calls : step.budget .calls = callsOf step.type

theorem readBudget_ok {value : Value} {type : StepType} {index : Nat} {amounts : Amounts}
    (read : readBudget value type index = .ok amounts) :
    ∃ budget, value = .dict budget ∧ ReadsAmounts budget totalKeys amounts ∧
      amounts .calls = callsOf type := by
  simp only [readBudget, bind_ok, object_ok, refuse_ok, Bool.or_eq_false_iff, Bool.not_eq_false',
    decide_eq_false_iff_not, not_not, pure_ok, List.all_cons, List.all_nil, Bool.and_true,
    Bool.and_eq_true] at read
  obtain ⟨budget, rfl, _, keys, _, ⟨⟨calls, packets, bytes, duration⟩, amount⟩, rfl⟩ := read
  have complete : ∀ key ∈ totalKeys, budget.get? key.name = some (budget.getD key.name .none) :=
    fun key member => exactKeys_ok keys key.name (List.mem_map_of_mem member)
  have nonnegative : ∀ {v : Value}, isUint v true = true → isUint v false = true := by
    intro v valid
    obtain ⟨n, rfl, _, small⟩ := isUint_iff.1 valid
    exact isUint_iff.2 ⟨n, rfl, by simp, small⟩
  have uints : ∀ key ∈ totalKeys, isUint (budget.getD key.name .none) false = true := by
    intro key member
    cases key with
    | calls => exact calls
    | packets => exact nonnegative packets
    | bytes => exact nonnegative bytes
    | durationSeconds => exact nonnegative duration
    | _ => simp [totalKeys] at member
  exact ⟨budget, rfl, readAmounts_reads complete uints, by rw [readAmounts, if_pos (by decide)]; exact amount⟩

/-- A frozen destination: the addresses are texts of authorized destinations,
with the transport and the port of each of them. -/
theorem readStepDestination_ok {scope : Scope} {destinations : List Destination} {step destination : Dict}
    {addresses : List Value} {index : Nat} (within : ∀ d ∈ destinations, d.Within scope)
    (read : readStepDestination destinations step index = .ok (destination, addresses)) :
    ∃ transport port, step.get? "destination" = some (.dict destination) ∧
      destination.get? "addresses" = some (.list addresses) ∧ addresses ≠ [] ∧
      destination.get? "transport" = some transport ∧ destination.get? "port" = some port ∧
      ∀ address ∈ addresses, ∃ d : Destination, d.Within scope ∧ address = .str d.address.text ∧
        transport = .str d.transport ∧ Value.eq port d.port = true := by
  simp only [readStepDestination, bind_ok, object_ok, Dict.item_ok, uniqueArray_ok] at read
  obtain ⟨_, found, d, rfl, _, _, _, listed, items, ⟨rfl, nonempty, _⟩, transport, transportFound,
    port, portFound, read⟩ := read
  split at read
  · cases read
  · simp only [bind_ok, refuse_ok, Bool.not_eq_false', pure_ok, Prod.mk.injEq] at read
    obtain ⟨_, same, rfl, rfl⟩ := read
    refine ⟨transport, port, found, listed, nonempty trivial, transportFound, portFound, ?_⟩
    intro address member
    simp only [sameSet, Bool.and_eq_true, List.all_eq_true, List.any_eq_true] at same
    obtain ⟨f, inside, equal⟩ := same.2 ⟨address, transport, port⟩
      (List.mem_map.mpr ⟨address, member, rfl⟩)
    obtain ⟨known, filtered, rfl⟩ := List.mem_map.mp inside
    simp only [Endpoint.same, Destination.endpoint, Bool.and_eq_true, eq_str_iff] at equal
    exact ⟨known, within known (List.mem_of_mem_filter filtered), equal.1.1, equal.1.2, equal.2⟩

theorem isIn_port {ports : List Value} {a b : Value} (numbers : ∀ p ∈ ports, isPort p = true)
    (same : Value.eq a b = true) (inside : b.isIn ports = true) : a.isIn ports = true := by
  simp only [Value.isIn, List.any_eq_true] at inside ⊢
  obtain ⟨p, member, equal⟩ := inside
  have number := numbers p member
  rw [isPort, Bool.and_eq_true] at number
  obtain ⟨n, rfl, _⟩ := isUint_iff.1 number.1
  exact ⟨_, member, eq_int_trans same equal⟩

theorem checkIdentity_ok {destinations : List Destination} {step : Dict}
    (identified : checkIdentity destinations step = .ok true) :
    (∃ type, step.get? "type" = some type ∧
      type = .str (if stepTypeOf type = .call then "call" else "options")) ∧
    ∃ target, step.get? "target" = some (.str target) := by
  simp only [checkIdentity, bind_ok, Dict.item_ok] at identified
  obtain ⟨_, _, _, _, identified⟩ := identified
  split at identified
  · cases identified
  · simp only [bind_ok, Dict.item_ok] at identified
    obtain ⟨type, typeFound, known, typeKnown, identified⟩ := identified
    split at identified
    · cases identified
    · rename_i knownTrue
      obtain rfl : known = true := by simpa using knownTrue
      simp only [bind_ok, Dict.item_ok] at identified
      obtain ⟨target, targetFound, identified⟩ := identified
      split at identified
      · obtain ⟨d, _, same⟩ := List.any_eq_true.mp (pure_ok.mp identified)
        obtain rfl := Value.isText_iff.1 same
        refine ⟨⟨type, typeFound, ?_⟩, d.target, targetFound⟩
        unfold inSet at typeKnown
        split at typeKnown
        · simp only [Except.ok.injEq, List.any_cons, List.any_nil, Bool.or_false, Bool.or_eq_true,
            Value.isText_iff] at typeKnown
          rcases typeKnown with rfl | rfl <;> rfl
        · cases typeKnown
      · cases identified

/-- The credential of a step is null, or a name the authorization lists. -/
theorem credential_ok {credential : Value} {credentials : List Value}
    (names : ∀ item ∈ credentials, isName item = true)
    (allowed : (!Value.eq credential .none && !credential.isIn credentials) = false) :
    credential = credential.text?.elim .none .str ∧
      ∀ name ∈ credential.text?, Value.str name ∈ credentials := by
  by_cases null : Value.eq credential .none = true
  · have absent : credential = .none := by
      cases credential <;> simp_all [Value.eq, Value.scalarEq, Value.number?]
    subst absent
    exact ⟨rfl, by simp [Value.text?]⟩
  · have listed : credential.isIn credentials = true := by simpa [null] using allowed
    have texts : ∀ item ∈ credentials, ∃ t, item = .str t := fun item member =>
      ⟨_, (isName_textOf (names item member)).1⟩
    obtain ⟨same, member⟩ := isIn_texts texts listed
    obtain ⟨item, inside, text⟩ := List.mem_map.mp member
    obtain ⟨t, rfl⟩ := texts item inside
    rw [same]
    refine ⟨rfl, fun name found => ?_⟩
    obtain rfl : textOf credential = name := by simpa [Value.text?] using found
    rw [← text]
    exact inside

theorem stepKeys_get? {step : Dict}
    (complete : (decide (missingKeys step stepKeys ≠ []) ||
      !(unknownKeys step (stepKeys ++ ["generated"])).isEmpty) = false) :
    ∀ name ∈ stepKeys, step.get? name = some (step.getD name .none) := by
  simp only [Bool.or_eq_false_iff, decide_eq_false_iff_not, not_not] at complete
  exact fun name member => get?_of_contains (contains_of_missing complete.1 name member)

/-- The running sums of the quantities, each within its maximum. -/
def Adds (scope : Scope) (calculated budget sums : Amounts) : Prop :=
  ∀ key ∈ totalKeys, sums key = calculated key + budget key ∧ sums key ≤ scope.maxima key

theorem readStep_ok {scope : Scope} {document : Dict} {destinations : List Destination} {index : Nat}
    {raw : Value} {calculated sums : Amounts} {step : Step} (reads : scope.Reads document)
    (within : ∀ d ∈ destinations, d.Within scope)
    (read : readStep scope destinations index raw calculated = .ok (step, sums)) :
    StepReads raw step ∧ step.Within scope ∧ Value.eq step.index (.int index) = true ∧
      Adds scope calculated step.budget sums := by
  simp only [readStep, bind_ok, object_ok, refuse_ok, pure_ok, Bool.not_eq_false', Prod.mk.injEq]
    at read
  obtain ⟨entries, rfl, _, keys, _, indexSame, identified, identity, _, rfl, _, credential,
    ⟨destination, addresses⟩, frozen, budget, budgetRead, sums', added, _, _, _, _, rfl, rfl⟩ := read
  have found := stepKeys_get? keys
  obtain ⟨⟨type, typeFound, typeSame⟩, target, targetFound⟩ := checkIdentity_ok identity
  have typeD : entries.getD "type" .none = type := by
    simpa [typeFound] using (found "type" (by decide)).symm
  have targetD : entries.getD "target" .none = .str target := by
    simpa [targetFound] using (found "target" (by decide)).symm
  obtain ⟨transport, port, destinationFound, listed, nonempty, transportFound, portFound, frozen⟩ :=
    readStepDestination_ok within frozen
  obtain ⟨amounts, budgetSame, budgetReads, calls⟩ := readBudget_ok budgetRead
  obtain ⟨credentialSame, credentialIn⟩ := credential_ok reads.credentials credential
  have transportD : destination.getD "transport" .none = transport := by
    simp [Dict.getD, transportFound]
  have portD : destination.getD "port" .none = port := by simp [Dict.getD, portFound]
  have texts : ∀ address ∈ addresses, ∃ t, address = .str t := by
    intro address member
    obtain ⟨d, _, same, _⟩ := frozen address member
    exact ⟨_, same⟩
  obtain ⟨first, rest, rfl⟩ := List.exists_cons_of_ne_nil nonempty
  obtain ⟨d, dWithin, _, transportSame, portSame⟩ := frozen first List.mem_cons_self
  subst transportSame
  refine ⟨⟨entries, destination, amounts, rfl, found "index" (by decide), ?_, ?_, ?_,
    destinationFound, ?_, ?_, ?_, ?_, budgetReads⟩, ⟨?_, ?_, ?_, ?_, calls⟩, indexSame, ?_⟩
  · rw [typeFound, typeD]
    exact congrArg some typeSame
  · rw [targetFound, targetD]
    rfl
  · rw [found "credentialRef" (by decide)]
    exact congrArg some credentialSame
  · rw [map_textOf texts]
    exact listed
  · rw [transportD]
    exact transportFound
  · rw [portD]
    exact portFound
  · rw [found "budget" (by decide), budgetSame]
  · intro text member
    obtain ⟨address, inside, rfl⟩ := List.mem_map.mp member
    obtain ⟨d, dWithin, rfl, _⟩ := frozen address inside
    exact ⟨d.address, ipAddress_text d.address, dWithin.network⟩
  · rw [transportD]
    exact dWithin.transport
  · rw [portD]
    exact isIn_port reads.ports portSame dWithin.port
  · exact credentialIn
  · intro key member
    exact (addBudget_ok (by decide) added key).1 member

end Sippycup.Runtime
