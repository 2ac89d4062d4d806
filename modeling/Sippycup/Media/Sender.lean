import Sippycup.Media.Echo

/-! The sender: whatever the network does, it sends a beginning of the plan along
the negotiated revisions, and stops at the first packet that goes wrong. -/
namespace Sippycup.Media
open Sippycup.Python Sippycup.Machine

/-- The environment at one packet: whether the deadline has passed before it is sent and before its echo, and
what `sendto` and `recvfrom` give; nothing where they fail. -/
structure Turn where
  late : Bool
  sent : Option Nat
  expired : Bool
  received : Option (List Nat × Text × Nat)

structure Datagram where
  sourceAddress : Text
  sourcePort : Nat
  destinationAddress : Text
  destinationPort : Nat
  wire : List Nat

structure Transition where
  revision : Nat
  activationMs : Nat
  firstPacketMs : Nat
  delayMs : Int

/-- What has been sent, echoed and recorded so far; no revision comes before the first. -/
structure Sending where
  datagrams : List Datagram
  echoed : List Kind
  transitions : List Transition
  previousRevision : Option Nat

inductive Failure where
  | network (message : String)
  | structError
  | indexError

def Sending.moved (sending : Sending) (p : PlannedPacket) (revision : Revision) : Sending :=
  if sending.previousRevision = some p.revisionIndex then sending
  else { sending with
    transitions := sending.transitions ++
      [⟨p.revisionIndex, revision.activationMs, p.scheduledMs, p.scheduledMs - revision.activationMs⟩]
    previousRevision := some p.revisionIndex }

def Sending.sent (sending : Sending) (revision : Revision) (wire : List Nat) : Sending :=
  { sending with datagrams := sending.datagrams ++ [⟨revision.sourceAddress, revision.sourcePort,
      revision.destinationAddress, revision.destinationPort, wire⟩] }

/-- The echo of a packet that has been sent. -/
def awaitEcho (session : MediaSession) (sending : Sending) (p : PlannedPacket) (revision : Revision)
    (wire : List Nat) (turn : Turn) : Sending × Option Failure :=
  if !session.echoRequired then (sending, none)
  else if turn.expired then (sending, some (.network "global media send deadline exceeded"))
  else
    match turn.received with
    | none => (sending, some (.network s!"packet {p.sequence} send/echo failed"))
    | some (returned, peer) =>
      if peer ≠ (revision.destinationAddress, revision.destinationPort) ∨ returned ≠ wire then
        (sending, some (.network s!"packet {p.sequence} echo source or bytes differ"))
      else ({ sending with echoed := sending.echoed ++ [p.kind] }, none)

/-- One packet of `send_packet_plan`. -/
def sendPacket (session : MediaSession) (sending : Sending) (p : PlannedPacket) (turn : Turn) :
    Sending × Option Failure :=
  if turn.late then (sending, some (.network "global media send deadline exceeded"))
  else
    match session.revisions[p.revisionIndex]? with
    | none => (sending, some .indexError)
    | some revision =>
      match wireBytes p, turn.sent with
      | none, _ => (sending.moved p revision, some .structError)
      | some _, none => (sending.moved p revision, some (.network s!"packet {p.sequence} send/echo failed"))
      | some wire, some size =>
        let sending := (sending.moved p revision).sent revision wire
        if size ≠ wire.length then (sending, some (.network s!"packet {p.sequence} was only partially sent"))
        else awaitEcho session sending p revision wire turn

def sendPacketPlan (session : MediaSession) : Sending → List (PlannedPacket × Turn) → Sending × Option Failure
  | sending, [] => (sending, none)
  | sending, (p, turn) :: rest =>
    match sendPacket session sending p turn with
    | (sending, none) => sendPacketPlan session sending rest
    | (sending, some failure) => (sending, some failure)

/-- The datagram of a planned packet, along the addresses that the packet carries. -/
def datagramOf (p : PlannedPacket) : Option Datagram :=
  (wireBytes p).map fun wire => ⟨p.sourceAddress, p.sourcePort, p.destinationAddress, p.destinationPort, wire⟩

/-- The packet is sent in time and as a whole, and where an echo is required, it comes back in time from where
the packet went to, unchanged. -/
structure Good (session : MediaSession) (p : PlannedPacket) (turn : Turn) : Prop where
  sent : turn.late = false ∧ ∃ wire, wireBytes p = some wire ∧ turn.sent = some wire.length
  echoed : session.echoRequired = true → turn.expired = false ∧ ∃ wire, wireBytes p = some wire ∧
    turn.received = some (wire, p.destinationAddress, p.destinationPort)

section step
variable {session : MediaSession} {sending : Sending} {p : PlannedPacket} {turn : Turn}

/-- The packet carries the addresses of its revision. -/
def FromRevision (session : MediaSession) (p : PlannedPacket) : Prop :=
  ∃ r, session.revisions[p.revisionIndex]? = some r ∧ p.sourceAddress = r.sourceAddress ∧
    p.sourcePort = r.sourcePort ∧ p.destinationAddress = r.destinationAddress ∧ p.destinationPort = r.destinationPort

theorem moved_keeps (revision : Revision) :
    (sending.moved p revision).datagrams = sending.datagrams ∧ (sending.moved p revision).echoed = sending.echoed := by
  unfold Sending.moved
  split <;> exact ⟨rfl, rfl⟩

/-- Waiting for the echo sends nothing, and fails unless the packet itself comes back. -/
theorem awaitEcho_step {revision : Revision} {wire : List Nat} {next : Sending} {failure : Option Failure}
    (step : awaitEcho session sending p revision wire turn = (next, failure)) :
    next.datagrams = sending.datagrams ∧
      (failure = none ↔ (session.echoRequired = true → turn.expired = false ∧
        turn.received = some (wire, revision.destinationAddress, revision.destinationPort))) ∧
      (failure = none → next.echoed = sending.echoed ++ if session.echoRequired then [p.kind] else []) := by
  unfold awaitEcho at step
  split at step
  · cases step
    simp_all
  · split at step
    · cases step
      simp_all
    · split at step
      · cases step
        simp_all
      · split at step
        · rename_i differs
          cases step
          simp only [reduceCtorEq, false_iff, false_imp_iff, and_true, true_and]
          grind
        · cases step
          simp_all

/-- What one packet sends: its datagram or, where it fails, perhaps nothing. -/
theorem sendPacket_step (from_ : FromRevision session p) {next : Sending} {failure : Option Failure}
    (step : sendPacket session sending p turn = (next, failure)) :
    (failure = none ↔ Good session p turn) ∧
      (next.datagrams.map some = sending.datagrams.map some ++ [datagramOf p] ∨
        failure ≠ none ∧ next.datagrams = sending.datagrams) ∧
      (failure = none → next.echoed = sending.echoed ++ if session.echoRequired then [p.kind] else []) := by
  obtain ⟨r, there, from_, port, to_, toPort⟩ := from_
  obtain ⟨kept, count⟩ := @moved_keeps sending p r
  unfold sendPacket at step
  rw [there] at step
  split at step
  · rename_i late
    cases step
    exact ⟨iff_of_false nofun fun good => Bool.false_ne_true (good.sent.1.symm.trans late), .inr ⟨nofun, rfl⟩, nofun⟩
  rename_i inTime
  dsimp only at step
  split at step
  · rename_i unwired
    cases step
    refine ⟨iff_of_false nofun fun good => ?_, .inr ⟨nofun, kept⟩, nofun⟩
    obtain ⟨wire, wired, -⟩ := good.sent.2
    cases unwired.symm.trans wired
  · rename_i wired unsent
    cases step
    refine ⟨iff_of_false nofun fun good => ?_, .inr ⟨nofun, kept⟩, nofun⟩
    obtain ⟨wire, -, size⟩ := good.sent.2
    cases unsent.symm.trans size
  · rename_i wire size wired took
    have placed : ((sending.moved p r).sent r wire).datagrams.map some =
        sending.datagrams.map some ++ [datagramOf p] := by
      rw [Sending.sent, datagramOf, wired, from_, port, to_, toPort, List.map_append, kept]
      rfl
    split at step
    · rename_i partly
      cases step
      refine ⟨iff_of_false nofun fun good => partly ?_, .inl placed, nofun⟩
      obtain ⟨whole, same, full⟩ := good.sent.2
      cases wired.symm.trans same
      exact Option.some.inj (took.symm.trans full)
    · rename_i whole
      obtain ⟨sent, echoes, counts⟩ := awaitEcho_step step
      rw [← sent] at placed
      refine ⟨echoes.trans ⟨fun returned => ⟨⟨by simpa using inTime, wire, wired, by rw [took, not_not.mp whole]⟩,
        fun required => ?_⟩, fun good required => ?_⟩, .inl placed, fun ok => (counts ok).trans ?_⟩
      · obtain ⟨early, received⟩ := returned required
        exact ⟨early, wire, wired, by rw [received, to_, toPort]⟩
      · obtain ⟨early, other, same, received⟩ := good.echoed required
        cases wired.symm.trans same
        exact ⟨early, by rw [received, to_, toPort]⟩
      · rw [Sending.sent, count]

end step

section run
variable {session : MediaSession}

/-- What a run sends is a beginning of the plan, and only a run without a failure sends and echoes it all. -/
structure Sends (session : MediaSession) (turns : List (PlannedPacket × Turn)) (before : Sending)
    (after : Sending × Option Failure) : Prop where
  ended : after.2 = none ↔ ∀ x ∈ turns, Good session x.1 x.2
  sent : ∃ k, after.1.datagrams.map some = before.datagrams.map some ++ (turns.take k).map fun x => datagramOf x.1
  all : after.2 = none →
    after.1.datagrams.map some = before.datagrams.map some ++ turns.map (fun x => datagramOf x.1) ∧
      after.1.echoed = before.echoed ++ if session.echoRequired then turns.map fun x => x.1.kind else []

theorem sendPacketPlan_sends {turns : List (PlannedPacket × Turn)}
    (from_ : ∀ x ∈ turns, FromRevision session x.1) (sending : Sending) :
    Sends session turns sending (sendPacketPlan session sending turns) := by
  induction turns generalizing sending with
  | nil =>
    have none_ : ∀ x ∈ ([] : List (PlannedPacket × Turn)), Good session x.1 x.2 := fun _ member => by cases member
    exact ⟨iff_of_true rfl none_, ⟨0, by simp [sendPacketPlan]⟩, fun _ => by simp [sendPacketPlan]⟩
  | cons x rest ih =>
    obtain ⟨p, turn⟩ := x
    obtain ⟨here, later⟩ := List.forall_mem_cons.mp from_
    rw [sendPacketPlan]
    split
    · rename_i next step
      obtain ⟨good, sent | ⟨failed, -⟩, echoed⟩ := sendPacket_step here step
      · obtain ⟨ended, ⟨k, prefix_⟩, all⟩ := ih later next
        refine ⟨ended.trans ?_, ⟨k + 1, ?_⟩, fun ok => ⟨?_, ?_⟩⟩
        · rw [List.forall_mem_cons]
          exact (and_iff_right (good.mp rfl)).symm
        · rw [prefix_, sent, List.append_assoc]
          rfl
        · rw [(all ok).1, sent, List.append_assoc]
          rfl
        · rw [(all ok).2, echoed rfl, List.append_assoc]
          split <;> rfl
      · exact absurd rfl failed
    · rename_i next failure step
      obtain ⟨good, sent, -⟩ := sendPacket_step here step
      refine ⟨iff_of_false nofun fun each => ?_, ?_, nofun⟩
      · cases good.mpr (each _ List.mem_cons_self)
      · rcases sent with sent | ⟨-, sent⟩
        · exact ⟨1, sent⟩
        · exact ⟨0, by rw [sent, List.take_zero, List.map_nil, List.append_nil]⟩

end run

theorem plan_fromRevision {session : MediaSession} {read : Except String (List Byte)} {packets : List PlannedPacket}
    (built : buildPacketPlan session read = .ok packets) : ∀ p ∈ packets, FromRevision session p := by
  intro p member
  obtain ⟨_, _, _, _, _, _, ok⟩ := (buildPacketPlan_placed built).made p member
  unfold packet at ok
  dsimp only at ok
  split at ok
  · cases ok
  · rename_i r there
    split at ok
    · cases ok
    · rw [← Except.ok.inj ok]
      exact ⟨r, there, rfl, rfl, rfl, rfl⟩

/-- Whatever the network does, the datagrams sent are the first ones of the plan, each once, in order and from
and to the negotiated addresses; the sender passes exactly where every packet went out in time and, where that
is required, came back unchanged from its destination; and only then everything is sent. -/
theorem sender_keeps_plan (unicode : Unicode) (asset : Text → Codec → Result Text) (value : JsonValue)
    (session : MediaSession) (loaded : loadSession (sdpReaders unicode asset) value = .ok session)
    (read : Except String (List Byte)) (packets : List PlannedPacket)
    (built : buildPacketPlan session read = .ok packets) (turns : List (PlannedPacket × Turn))
    (planned : turns.map Prod.fst = packets) :
    Sends session turns ⟨[], [], [], none⟩ (sendPacketPlan session ⟨[], [], [], none⟩ turns) ∧
      ∀ p ∈ packets, ∃ localSdp remoteSdp, Routed unicode value session.codec p localSdp remoteSdp := by
  refine ⟨sendPacketPlan_sends (fun x member => ?_) _, fun p member => ?_⟩
  · exact plan_fromRevision built x.1 (planned ▸ List.mem_map_of_mem member)
  · obtain ⟨_, _, _, _, _, _, made⟩ := (buildPacketPlan_placed built).made p member
    exact packet_routed (loadSession_kept loaded) made

/-- A network that loses nothing, to a fixture that answers a plan. -/
def answered (payloads : List Nat) (packets : List PlannedPacket) : List (PlannedPacket × Turn) :=
  List.zipWith (fun p wire => (p, ⟨false, some wire.length, false,
      some (wire, p.destinationAddress, p.destinationPort)⟩)) packets
    (runEcho payloads packets.length ⟨[], []⟩ (packets.filterMap wireBytes)).returned

set_option maxRecDepth 100000 in
theorem moved_planned : ∃ session packets, loadSession (sdpReaders asciiUnicode silentAsset) movedSession = .ok session ∧
    buildPacketPlan session (.ok silence) = .ok packets ∧ Told session [101] := by
  have loaded : loadSession (sdpReaders asciiUnicode silentAsset) movedSession = .ok
      ⟨"caller_to_callee", .pcmu, "", false, 20,
        [⟨0, "192.0.2.9", 4000, "192.0.2.1", 4000, .inet, 0, none⟩,
          ⟨40, "192.0.2.1", 4000, "192.0.2.9", 4000, .inet, 0, none⟩],
        sha256Hex (silence.map Fin.val)⟩ := by rfl
  obtain ⟨packets, built⟩ := buildPacketPlan_total (loadSession_loaded loaded) List.length_replicate rfl
  exact ⟨_, packets, loaded, built, by decide, by decide⟩

theorem moved_session_sent : ∃ session packets, buildPacketPlan session (.ok silence) = .ok packets ∧
    Sends session (packets.map fun p => (p, ⟨false, some 172, false, none⟩)) ⟨[], [], [], none⟩
      (sendPacketPlan session ⟨[], [], [], none⟩ (packets.map fun p => (p, ⟨false, some 172, false, none⟩))) := by
  obtain ⟨session, packets, loaded, built, -⟩ := moved_planned
  exact ⟨session, packets, built, (sender_keeps_plan asciiUnicode silentAsset movedSession session loaded (.ok silence)
    packets built _ (by rw [List.map_map]; exact List.map_id packets)).1⟩

end Sippycup.Media
