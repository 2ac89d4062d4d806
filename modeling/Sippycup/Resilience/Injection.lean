import Sippycup.Resilience.Migration

/-! Packets that are rejected leave no trace but a finding: with any of them
deleted, the others are accepted as before and the tuple moves as before. -/
namespace Sippycup.Resilience
open Sippycup.Python Sippycup.Ip

section readers
variable {name : String}

theorem require_ok {holds : Bool} {message : String} {u : Unit} :
    require holds message = .ok u ↔ holds = true := by
  cases holds <;> simp [require, resilienceError]

theorem requireMapping_ok {value : JsonValue} {d : JsonDict} :
    requireMapping value name = .ok d ↔ value = .dict d := by
  cases value <;> simp [requireMapping, resilienceError]

theorem exactKeys_ok {d : JsonDict} {required : List Text} {u : Unit} :
    exactKeys d required name = .ok u ↔
      (required.filter fun key => !d.contains key).isEmpty = true ∧
        (d.keys.filter fun key => !required.contains key).isEmpty = true := by
  simp only [exactKeys, bind_ok, require_ok, exists_and_left, exists_const]

theorem boundedInt_ok {value : JsonValue} {minimum maximum n : Int} :
    boundedInt value name minimum maximum = .ok n ↔
      value = .int n ∧ minimum ≤ n ∧ n ≤ maximum := by
  cases value with
  | int m =>
    rw [boundedInt]
    split
    · rename_i within
      constructor
      · rintro ⟨⟩
        exact ⟨rfl, within⟩
      · rintro ⟨⟨⟩, -⟩
        rfl
    · rename_i outside
      constructor
      · rintro ⟨⟩
      · rintro ⟨⟨⟩, within⟩
        exact absurd within outside
  | _ => simp [boundedInt, resilienceError]

theorem nonemptyString_ok {value : JsonValue} {maximum : Nat} {t : Text} :
    nonemptyString value name maximum = .ok t ↔
      value = .str t ∧ ¬ (t.length = 0 ∨ maximum < t.length) := by
  cases value with
  | str u =>
    rw [nonemptyString]
    split
    · rename_i bad
      constructor
      · rintro ⟨⟩
      · rintro ⟨⟨⟩, good⟩
        exact absurd bad good
    · rename_i good
      constructor
      · rintro ⟨⟩
        exact ⟨rfl, good⟩
      · rintro ⟨⟨⟩, -⟩
        rfl
  | _ => simp [nonemptyString, resilienceError]

theorem boolean_ok {value : JsonValue} {b : Bool} : boolean value name = .ok b ↔ value = .bool b := by
  cases value <;> simp [boolean, resilienceError]

/-- Whether a tuple can be read does not depend on what it is called. -/
theorem readTuple_renamed {value : JsonValue} {endpoint : Endpoint} (other : String)
    (read : readTuple value name = .ok endpoint) : readTuple value other = .ok endpoint := by
  simp only [readTuple, bind_ok, requireMapping_ok, exactKeys_ok, nonemptyString_ok] at read ⊢
  obtain ⟨item, mapping, u, keys, address, named, parsed⟩ := read
  refine ⟨item, mapping, u, keys, address, named, ?_⟩
  rcases found : parseAddress address.codes with _ | a <;> rw [found] at parsed
  · cases parsed
  · simp only [bind_ok, require_ok, boundedInt_ok] at parsed ⊢
    exact parsed

theorem readPacket_renamed {value : JsonValue} {packet : Packet} {index : Nat} (other : Nat)
    (read : readPacket index value = .ok packet) : readPacket other value = .ok packet := by
  simp only [readPacket, bind_ok, requireMapping_ok, exactKeys_ok, boundedInt_ok, boolean_ok] at read ⊢
  obtain ⟨d, mapping, u, keys, source, tuple, rest⟩ := read
  exact ⟨d, mapping, u, keys, source, readTuple_renamed _ tuple, rest⟩

end readers

/-- The items at the indexes that are kept, counted from a first one. -/
def retained {α : Type} (keep : Nat → Bool) : Nat → List α → List α
  | _, [] => []
  | index, x :: rest => if keep index then x :: retained keep (index + 1) rest
    else retained keep (index + 1) rest

theorem length_retained {α : Type} (keep : Nat → Bool) (index : Nat) (xs : List α) :
    (retained keep index xs).length ≤ xs.length := by
  induction xs generalizing index with
  | nil => exact Nat.le_refl 0
  | cons x rest ih =>
    rw [retained, List.length_cons]
    split
    · exact Nat.succ_le_succ (ih (index + 1))
    · exact Nat.le_succ_of_le (ih (index + 1))

def Migration.ends (migration : Migration) : Endpoint × Endpoint := (migration.source, migration.target)

/-- Two analyses that a later packet cannot tell apart. -/
structure Analysis.Same (a b : Analysis) : Prop where
  active : a.active = b.active
  accepted : a.accepted = b.accepted
  migrations : a.migrations.map Migration.ends = b.migrations.map Migration.ends

namespace MigrationPolicy
variable {policy : MigrationPolicy} {a b : Analysis} {packet : Packet} {index : Nat}

/-- What a packet must be like to move the active tuple. -/
structure Authorizes (policy : MigrationPolicy) (packet : Packet) : Prop where
  authenticated : packet.authenticated = true
  ssrc : packet.ssrc = policy.ssrc
  live : packet.afterTeardown = false
  consent : policy.mode = .ice → packet.consentFresh = true
  mode : policy.mode ≠ .strict
  allowed : policy.allowAuthenticatedRebinding = true

/-- A step rejects its packet with one finding, which names it, or accepts it without any. -/
theorem step_cases (policy : MigrationPolicy) (a : Analysis) (index : Nat) (packet : Packet) :
    (∃ finding, finding.packet = index ∧ policy.step a index packet = reject finding a) ∨
      (policy.step a index packet).findings = a.findings ∧
        ((policy.step a index packet).active = a.active ∨ policy.Authorizes packet) := by
  unfold step
  split
  · exact .inl ⟨_, rfl, rfl⟩
  rename_i live
  split
  · exact .inl ⟨_, rfl, rfl⟩
  split
  · exact .inl ⟨_, rfl, rfl⟩
  rename_i ssrc
  split
  · split
    · exact .inl ⟨_, rfl, rfl⟩
    · exact .inr ⟨rfl, .inl rfl⟩
  split
  · exact .inl ⟨_, rfl, rfl⟩
  · rename_i moves
    simp only [canMove, Bool.not_eq_true', Bool.not_eq_false, Bool.and_eq_true, Bool.or_eq_true,
      decide_eq_true_eq] at moves
    obtain ⟨⟨⟨mode, allowed⟩, authenticated⟩, consent⟩ := moves
    exact .inr ⟨rfl, .inr ⟨authenticated, not_not.mp ssrc, by simpa using live,
      fun ice => consent.resolve_left (not_not.mpr ice), mode, allowed⟩⟩

theorem same_reject (same : a.Same b) (f g : Finding) : (reject f a).Same (reject g b) :=
  ⟨same.active, same.accepted, same.migrations⟩

/-- A packet is treated alike in analyses that are the same to it, at whatever index. -/
theorem step_same (same : a.Same b) (packet : Packet) (i j : Nat) :
    (policy.step a i packet).Same (policy.step b j packet) := by
  have count : a.accepted + 1 = b.accepted + 1 := congrArg (· + 1) same.accepted
  unfold step
  rw [same.active]
  split
  · exact same_reject same _ _
  split
  · exact same_reject same _ _
  split
  · exact same_reject same _ _
  split
  · split
    · exact same_reject same _ _
    · exact ⟨rfl, count, same.migrations⟩
  split
  · exact same_reject same _ _
  · refine ⟨rfl, count, ?_⟩
    rw [List.map_append, List.map_append, same.migrations]
    rfl

theorem step_findings (policy : MigrationPolicy) (a : Analysis) (index : Nat) (packet : Packet) :
    a.findings <+: (policy.step a index packet).findings ∧
      ∀ finding ∈ (policy.step a index packet).findings, finding ∈ a.findings ∨ finding.packet = index := by
  rcases policy.step_cases a index packet with ⟨finding, named, same⟩ | ⟨same, -⟩
  · rw [same]
    refine ⟨List.prefix_append _ _, fun other member => ?_⟩
    rcases List.mem_append.mp member with old | new
    · exact .inl old
    · rw [List.mem_singleton.mp new]
      exact .inr named
  · rw [same]
    exact ⟨List.prefix_rfl, fun other member => .inl member⟩

theorem analyzeFrom_cons {raw : JsonValue} {rest : List JsonValue} {after : Analysis} :
    policy.analyzeFrom a index (raw :: rest) = .ok after ↔
      ∃ packet, readPacket index raw = .ok packet ∧
        policy.analyzeFrom (policy.step a index packet) (index + 1) rest = .ok after := by
  rw [analyzeFrom, bind_ok]

/-- Findings of later packets name later packets. -/
theorem analyzeFrom_findings {packets : List JsonValue} {after : Analysis}
    (ran : policy.analyzeFrom a index packets = .ok after) :
    ∀ finding ∈ after.findings, finding ∈ a.findings ∨ index ≤ finding.packet := by
  induction packets generalizing a index with
  | nil =>
    cases ran
    exact fun finding member => .inl member
  | cons raw rest ih =>
    obtain ⟨packet, -, ran⟩ := analyzeFrom_cons.1 ran
    intro finding member
    rcases ih ran finding member with old | later
    · rcases (policy.step_findings a index packet).2 finding old with older | here
      · exact .inl older
      · exact .inr here.ge
    · exact .inr ((Nat.le_succ index).trans later)

theorem analyzeFrom_retained {packets : List JsonValue} {after : Analysis} (keep : Nat → Bool)
    (ran : policy.analyzeFrom a index packets = .ok after) (same : a.Same b) (other : Nat)
    (earlier : ∀ finding ∈ a.findings, finding.packet < index)
    (rejected : ∀ i, index ≤ i → i < index + packets.length → keep i = false →
      ∃ finding ∈ after.findings, finding.packet = i) :
    ∃ again, policy.analyzeFrom b other (retained keep index packets) = .ok again ∧
      after.Same again := by
  induction packets generalizing a b index other with
  | nil =>
    cases ran
    exact ⟨b, rfl, same⟩
  | cons raw rest ih =>
    obtain ⟨packet, read, ran⟩ := analyzeFrom_cons.1 ran
    have next : ∀ finding ∈ (policy.step a index packet).findings, finding.packet < index + 1 := by
      intro finding member
      rcases (policy.step_findings a index packet).2 finding member with old | here
      · exact Nat.lt_succ_of_lt (earlier finding old)
      · exact here ▸ Nat.lt_succ_self _
    have later : ∀ i, index + 1 ≤ i → i < index + 1 + rest.length → keep i = false →
        ∃ finding ∈ after.findings, finding.packet = i := by
      intro i lower upper
      exact rejected i (Nat.le_of_succ_le lower) (by rw [List.length_cons]; omega)
    rw [retained]
    split
    · obtain ⟨again, continued, still⟩ := ih ran (step_same same packet index other) (other + 1) next later
      exact ⟨again, analyzeFrom_cons.2 ⟨packet, readPacket_renamed other read, continued⟩, still⟩
    · -- The deleted packet was rejected here: no other packet has a finding under its index.
      rename_i deleted
      obtain ⟨finding, member, named⟩ := rejected index (Nat.le_refl _)
        (by rw [List.length_cons]; omega) (by simpa using deleted)
      have here : finding ∈ (policy.step a index packet).findings := by
        rcases analyzeFrom_findings ran finding member with here | late
        · exact here
        · omega
      have untouched : (policy.step a index packet).Same b := by
        rcases policy.step_cases a index packet with ⟨reason, -, same'⟩ | ⟨none, -⟩
        · rw [same']
          exact ⟨same.active, same.accepted, same.migrations⟩
        · rw [none] at here
          exact absurd (earlier finding here) (by omega)
      exact ih ran untouched other next later

theorem analyzeFrom_append {before rest : List JsonValue} {after : Analysis} :
    policy.analyzeFrom a index (before ++ rest) = .ok after ↔
      ∃ middle, policy.analyzeFrom a index before = .ok middle ∧
        policy.analyzeFrom middle (index + before.length) rest = .ok after := by
  induction before generalizing a index with
  | nil => simp [analyzeFrom]
  | cons raw tail ih =>
    have shift : index + 1 + tail.length = index + (raw :: tail).length := by
      rw [List.length_cons]
      omega
    rw [List.cons_append, analyzeFrom_cons]
    simp only [analyzeFrom_cons, ih, shift]
    constructor
    · rintro ⟨packet, read, middle, first, second⟩
      exact ⟨middle, ⟨packet, read, first⟩, second⟩
    · rintro ⟨middle, ⟨packet, read, first⟩, second⟩
      exact ⟨packet, read, middle, first, second⟩

end MigrationPolicy

theorem analyzeMigration_ok {policyValue : JsonValue} {packets : List JsonValue}
    {report : MigrationReport} :
    analyzeMigration policyValue (.list packets) = .ok report ↔
      packets ≠ [] ∧ packets.length ≤ maxPackets ∧ ∃ policy analysis,
        readPolicy policyValue = .ok policy ∧
        policy.analyzeFrom policy.start 0 packets = .ok analysis ∧
        report = {
          passed := analysis.findings.isEmpty
          acceptedPackets := analysis.accepted
          rejectedPackets := packets.length - analysis.accepted
          migrations := analysis.migrations
          activeTuple := analysis.active
          findings := analysis.findings } := by
  rw [analyzeMigration, bind_ok]
  cases packets with
  | nil => simp [resilienceError]
  | cons raw rest =>
    simp only [bind_ok, require_ok, decide_eq_true_eq, pure_ok, exists_const_iff, ne_eq, reduceCtorEq,
      not_false_eq_true, true_and, @eq_comm _ report]
    constructor
    · rintro ⟨policy, read, -, bounded, analysis, ran, same⟩
      exact ⟨bounded, policy, analysis, read, ran, same⟩
    · rintro ⟨bounded, policy, analysis, read, ran, same⟩
      exact ⟨policy, read, ⟨()⟩, bounded, analysis, ran, same⟩

/-- Deleting rejected packets changes neither what is accepted nor how the tuple
moves, and the tuple moves only on a packet with the authority to move it. -/
theorem rejected_packets_do_not_interfere {policyValue : JsonValue} {packets : List JsonValue}
    {report : MigrationReport}
    (analyzed : analyzeMigration policyValue (.list packets) = .ok report) :
    (∀ keep : Nat → Bool,
      (∀ i < packets.length, keep i = false → ∃ finding ∈ report.findings, finding.packet = i) →
      retained keep 0 packets ≠ [] →
      ∃ again, analyzeMigration policyValue (.list (retained keep 0 packets)) = .ok again ∧
        again.acceptedPackets = report.acceptedPackets ∧
        again.activeTuple = report.activeTuple ∧
        again.migrations.map Migration.ends = report.migrations.map Migration.ends) ∧
      ∃ policy, readPolicy policyValue = .ok policy ∧
        ∀ before raw rest, packets = before ++ raw :: rest →
          ∃ packet a b, readPacket before.length raw = .ok packet ∧
            policy.analyzeFrom policy.start 0 before = .ok a ∧
            policy.analyzeFrom policy.start 0 (before ++ [raw]) = .ok b ∧
            (b.active ≠ a.active → policy.Authorizes packet) := by
  obtain ⟨-, bounded, policy, analysis, read, ran, rfl⟩ := analyzeMigration_ok.mp analyzed
  refine ⟨fun keep deleted remain => ?_, policy, read, fun before raw rest split => ?_⟩
  · obtain ⟨again, ran', same⟩ := MigrationPolicy.analyzeFrom_retained (b := policy.start)
      keep ran ⟨rfl, rfl, rfl⟩ 0 (by simp [MigrationPolicy.start])
      (fun i _ upper => deleted i (by simpa using upper))
    refine ⟨_, analyzeMigration_ok.mpr ⟨remain, (length_retained keep 0 packets).trans bounded,
      policy, again, read, ran', rfl⟩, ?_, ?_, ?_⟩
    · exact same.accepted.symm
    · exact same.active.symm
    · exact same.migrations.symm
  · rw [split, MigrationPolicy.analyzeFrom_append] at ran
    obtain ⟨a, reached, ran⟩ := ran
    obtain ⟨packet, named, -⟩ := MigrationPolicy.analyzeFrom_cons.mp ran
    rw [Nat.zero_add] at named
    have stepped : policy.analyzeFrom policy.start 0 (before ++ [raw]) =
        .ok (policy.step a before.length packet) := by
      refine MigrationPolicy.analyzeFrom_append.mpr ⟨a, reached, ?_⟩
      rw [Nat.zero_add]
      exact MigrationPolicy.analyzeFrom_cons.mpr ⟨packet, named, rfl⟩
    refine ⟨packet, a, _, named, reached, stepped, fun moved => ?_⟩
    rcases policy.step_cases a before.length packet with ⟨finding, -, same⟩ | ⟨-, still | authorized⟩
    · rw [same] at moved
      exact absurd rfl moved
    · exact absurd still moved
    · exact authorized

def exampleTuple (port : Int) : JsonValue :=
  .dict [JsonDict.entry "address" (.str "192.0.2.7"), JsonDict.entry "port" (.int port)]

def examplePolicy : JsonValue :=
  .dict [JsonDict.entry "mode" (.str "symmetric-rtp"), JsonDict.entry "initialTuple" (exampleTuple 4000),
    JsonDict.entry "ssrc" (.int 7), JsonDict.entry "allowAuthenticatedRebinding" (.bool true),
    JsonDict.entry "requireAuthentication" (.bool true)]

def examplePacket (port ssrc : Int) (authenticated : Bool) : JsonValue :=
  .dict [JsonDict.entry "source" (exampleTuple port), JsonDict.entry "ssrc" (.int ssrc),
    JsonDict.entry "authenticated" (.bool authenticated), JsonDict.entry "consentFresh" (.bool false),
    JsonDict.entry "afterTeardown" (.bool false)]

def examplePackets : List JsonValue :=
  [examplePacket 4000 7 true, examplePacket 6000 7 false, examplePacket 5000 7 true]

def exampleReport : MigrationReport where
  passed := false
  acceptedPackets := 2
  rejectedPackets := 1
  migrations := [⟨2, ⟨"192.0.2.7", 4000⟩, ⟨"192.0.2.7", 5000⟩⟩]
  activeTuple := ⟨"192.0.2.7", 5000⟩
  findings := [.packetAuthenticationFailed 1]

/-- The unauthenticated packet in the middle is injected: without it the tuple moves alike. -/
theorem injected_packet_does_not_interfere :
    ∃ again, analyzeMigration examplePolicy (.list [examplePacket 4000 7 true, examplePacket 5000 7 true]) =
        .ok again ∧
      again.acceptedPackets = 2 ∧ again.activeTuple = ⟨"192.0.2.7", 5000⟩ ∧
      again.migrations.map Migration.ends = [(⟨"192.0.2.7", 4000⟩, ⟨"192.0.2.7", 5000⟩)] := by
  have analyzed : analyzeMigration examplePolicy (.list examplePackets) = .ok exampleReport := by
    decide +kernel
  exact (rejected_packets_do_not_interfere analyzed).1 (fun i => i != 1) (by decide) (by simp [retained, examplePackets])

end Sippycup.Resilience
