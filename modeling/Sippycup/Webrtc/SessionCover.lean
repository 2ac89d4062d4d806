import Mathlib.Data.List.Chain
import Sippycup.Webrtc.IceTurn

/-! What a pass of the ICE and TURN oracle covers: its ceilings and scopes always, the time
around the consents and the last allocations only in part. -/
namespace Sippycup.Webrtc.IceTurn
open Sippycup.Python Sippycup.Ip

def Evidence.isPair : Evidence → Bool
  | .pairSelected _ _ _ => true
  | _ => false

def Evidence.isCleanup : Evidence → Bool
  | .cleanup _ _ => true
  | _ => false

/-- The TURN peer of an event. -/
def Evidence.peer? : Evidence → Option Address
  | .turnPermission address | .turnChannelBind address => some address
  | .turnData data => some data.peerAddress
  | _ => none

def Event.consentTime? (event : Event) : Option Nat :=
  match event.evidence with
  | .consent true => some event.timeMs
  | _ => none

/-- The times of the successful consent checks. -/
def consentTimes (events : List Event) : List Nat := events.filterMap Event.consentTime?

@[grind =] def Event.packets (event : Event) : Nat :=
  match event.evidence with
  | .traffic packets _ => packets
  | _ => 0

@[grind =] def Event.bytes (event : Event) : Nat :=
  match event.evidence with
  | .traffic _ bytes => bytes
  | _ => 0

/-- A cleanup that satisfies `clean` comes after the last TURN allocation. -/
def CleanedUp (clean : Evidence → Prop) (events : List Event) : Prop :=
  ∃ before event after, events = before ++ event :: after ∧ clean event.evidence ∧
    ∀ later ∈ after, later.evidence.isAllocation = false

/-- The whole session is within the policy. -/
structure Covered (policy : Policy) (events : List Event) : Prop where
  packets : (events.map Event.packets).sum ≤ policy.limits.maxPackets
  bytes : (events.map Event.bytes).sum ≤ policy.limits.maxBytes
  duration : duration events ≤ policy.limits.maxDurationMs
  credentials : ∀ event ∈ events, ∀ mechanism lifetime, event.evidence = .turnCredential mechanism lifetime →
    lifetime ≤ policy.turn.maxCredentialLifetimeSeconds
  allocations : ∀ event ∈ events, ∀ lifetime transport, event.evidence = .turnAllocation lifetime transport →
    lifetime ≤ policy.turn.maxAllocationLifetimeSeconds
  peers : ∀ event ∈ events, ∀ address ∈ event.evidence.peer?,
    ∃ network ∈ policy.approvedPeerNetworks, network.contains address = true
  servers : ∀ event ∈ events, ∀ server, event.evidence = .serverContact server → server ∈ policy.approvedServers
  ratios : ∀ event ∈ events, ∀ data, event.evidence = .turnData data → (data.bytesIn = 0 → data.bytesOut = 0) ∧
    (data.bytesIn ≠ 0 → policy.turn.maxAmplificationRatio.lt (.float data.ratio) = false)
  consent : policy.ice.requireConsentFreshness = true → ∀ selected ∈ events, selected.evidence.isPair = true →
    ∀ a b, selected.timeMs ≤ a → b ≤ IceTurn.duration events → policy.ice.maxConsentGapMs < b - a →
      ∃ c ∈ consentTimes events, a < c ∧ c < b
  cleanup : CleanedUp (fun evidence => evidence = .cleanup 0 0) events

/-- Consent soon after each selection of a pair and shortly before the end, and a cleanup after
the last allocation. -/
structure Attended (policy : Policy) (events : List Event) : Prop where
  early : policy.ice.requireConsentFreshness = true → ∀ selected ∈ events, selected.evidence.isPair = true →
    ∃ c ∈ consentTimes events, c ≤ selected.timeMs + policy.ice.maxConsentGapMs
  late : policy.ice.requireConsentFreshness = true → ∀ selected ∈ events, selected.evidence.isPair = true →
    duration events ≤ selected.timeMs + policy.ice.maxConsentGapMs ∨
      ∃ c ∈ consentTimes events, duration events ≤ c + policy.ice.maxConsentGapMs
  cleanup : CleanedUp (fun evidence => evidence.isCleanup = true) events

theorem consentTime_eq {event : Event} {time : Nat} (found : event.consentTime? = some time) :
    event.timeMs = time := by
  unfold Event.consentTime? at found
  split at found
  · exact Option.some.inj found
  · cases found

section times
variable {maximum a b : Nat} {times : List Nat}

/-- A jump over the stretch from `a` to `b` is a gap of its own. -/
theorem stays_below (chain : times.IsChain fun left right => right - left ≤ maximum)
    (head : ∀ first ∈ times.head?, first ≤ a) (long : maximum < b - a)
    (none : ∀ c ∈ times, ¬ (a < c ∧ c < b)) : ∀ c ∈ times, c ≤ a := by
  induction times with
  | nil => exact fun c member => absurd member List.not_mem_nil
  | cons first rest ih =>
    have below : first ≤ a := head first rfl
    intro c member
    rcases List.mem_cons.mp member with rfl | later
    · exact below
    · refine ih chain.tail ?_ (fun c member => none c (List.mem_cons_of_mem _ member)) c later
      intro second found
      cases rest with
      | nil => cases found
      | cons next rest =>
        cases found
        have step := (List.isChain_cons_cons.mp chain).1
        have outside := none second (by simp)
        omega

/-- Checks near both ends of a session, and no gap between them, leave no long stretch. -/
theorem stretch_checked {start finish : Nat} (sorted : times.Pairwise (· ≤ ·))
    (chain : times.IsChain fun left right => right - left ≤ maximum)
    (early : ∃ c ∈ times, c ≤ start + maximum)
    (late : finish ≤ start + maximum ∨ ∃ c ∈ times, finish ≤ c + maximum)
    (inside : start ≤ a ∧ b ≤ finish) (long : maximum < b - a) : ∃ c ∈ times, a < c ∧ c < b := by
  by_contra missing
  have none : ∀ c ∈ times, ¬ (a < c ∧ c < b) := fun c member within => missing ⟨c, member, within⟩
  obtain ⟨first, member, bound⟩ := early
  have below : first ≤ a := by
    have outside := none first member
    omega
  have head : ∀ c ∈ times.head?, c ≤ a := by
    intro c found
    cases times with
    | nil => cases found
    | cons next rest =>
      cases found
      rcases List.mem_cons.mp member with rfl | later
      · exact below
      · exact ((List.pairwise_cons.mp sorted).1 first later).trans below
  rcases late with short | ⟨last, member, bound⟩
  · omega
  · have before := stays_below chain head long none last member
    omega

/-- Without a check soon after the start, or shortly before the end, a long stretch has none. -/
theorem stretch_early {start finish : Nat} (some_ : times ≠ []) (within : ∀ c ∈ times, c ≤ finish)
    (checked : ∀ a b, start ≤ a → b ≤ finish → maximum < b - a → ∃ c ∈ times, a < c ∧ c < b) :
    ∃ c ∈ times, c ≤ start + maximum := by
  by_contra missing
  have after : ∀ c ∈ times, start + maximum < c := fun c member => by
    by_contra soon
    exact missing ⟨c, member, not_lt.1 soon⟩
  obtain ⟨first, member⟩ := List.exists_mem_of_ne_nil times some_
  have beyond := after first member
  have inside := within first member
  obtain ⟨c, member, -, before⟩ := checked start (start + maximum + 1) le_rfl (by omega) (by omega)
  have := after c member
  omega

theorem stretch_late {start finish : Nat}
    (checked : ∀ a b, start ≤ a → b ≤ finish → maximum < b - a → ∃ c ∈ times, a < c ∧ c < b) :
    finish ≤ start + maximum ∨ ∃ c ∈ times, finish ≤ c + maximum := by
  by_contra missing
  rw [not_or] at missing
  obtain ⟨c, member, after, -⟩ := checked (finish - maximum - 1) finish (by omega) le_rfl (by omega)
  exact missing.2 ⟨c, member, by omega⟩

end times

@[simp] theorem failIf_nil {bad : Bool} {code : String} {index : Int} {detail : Text} :
    failIf bad code index detail = [] ↔ bad = false := by
  cases bad <;> simp [failIf]

theorem unknownIf_nil {missing : Bool} {unknown : Unknown} :
    unknownIf missing unknown = [] ↔ missing = false := by
  cases missing <;> simp [unknownIf]

section pass
variable {policy : Policy} {ledger : Ledger} {events : List Event} {event : Event} {index : Nat}

theorem gapFindings_nil {maximum : Nat} {times : List Nat} :
    gapFindings maximum times = [] ↔ times.IsChain fun left right => right - left ≤ maximum := by
  induction times with
  | nil => simp [gapFindings]
  | cons first rest ih =>
    cases rest with
    | nil => simp [gapFindings]
    | cons second rest =>
      rw [List.isChain_cons_cons, ← ih]
      unfold gapFindings
      rw [List.tail_cons, List.zip_cons_cons, List.flatMap_cons, List.append_eq_nil_iff, failIf_nil,
        decide_eq_false_iff_not, Nat.not_lt]
      rfl

/-- What a ledger holds of the events so far. -/
structure Noted (policy : Policy) (ledger : Ledger) (seen : List Event) : Prop where
  findings : ledger.findings = [] → ∀ event ∈ seen, ∃ index, policy.eventFindings index event.evidence = []
  consentTimes : ledger.consentTimes = consentTimes seen
  pairSeen : ledger.pairSeen = seen.any fun event => event.evidence.isPair
  cleanupSeen : ledger.cleanupSeen = seen.any fun event => event.evidence.isCleanup
  packets : ledger.totalPackets = (seen.map Event.packets).sum
  bytes : ledger.totalBytes = (seen.map Event.bytes).sum

theorem noted_step {seen : List Event} (noted : Noted policy ledger seen) :
    Noted policy (policy.step ledger index event) (seen ++ [event]) := by
  obtain ⟨findings, times, pair, cleanup, packets, bytes⟩ := noted
  constructor
  · intro clean e member
    obtain ⟨before, now⟩ := List.append_eq_nil_iff.mp clean
    rcases List.mem_append.mp member with earlier | new
    · exact findings before e earlier
    · rw [List.mem_singleton.mp new]
      exact ⟨index, now⟩
  · change (ledger.note event).consentTimes = _
    rw [IceTurn.consentTimes, List.filterMap_append, ← IceTurn.consentTimes, ← times]
    obtain ⟨time, evidence⟩ := event
    cases evidence with
    | consent success => cases success <;> simp [Ledger.note, Event.consentTime?]
    | _ => simp [Ledger.note, Event.consentTime?]
  · change (ledger.note event).pairSeen = _
    rw [List.any_append, ← pair]
    obtain ⟨time, evidence⟩ := event
    cases evidence with
    | consent success => cases success <;> simp [Ledger.note, Evidence.isPair]
    | _ => simp [Ledger.note, Evidence.isPair]
  · change (ledger.note event).cleanupSeen = _
    rw [List.any_append, ← cleanup]
    obtain ⟨time, evidence⟩ := event
    cases evidence with
    | consent success => cases success <;> simp [Ledger.note, Evidence.isCleanup]
    | _ => simp [Ledger.note, Evidence.isCleanup]
  · change (ledger.note event).totalPackets = _
    rw [List.map_append, List.sum_append, ← packets]
    obtain ⟨time, evidence⟩ := event
    cases evidence with
    | consent success => cases success <;> simp [Ledger.note, Event.packets]
    | _ => simp [Ledger.note, Event.packets]
  · change (ledger.note event).totalBytes = _
    rw [List.map_append, List.sum_append, ← bytes]
    obtain ⟨time, evidence⟩ := event
    cases evidence with
    | consent success => cases success <;> simp [Ledger.note, Event.bytes]
    | _ => simp [Ledger.note, Event.bytes]

theorem noted_follow {seen rest : List Event} (noted : Noted policy ledger seen) :
    Noted policy (policy.follow ledger index rest) (seen ++ rest) := by
  induction rest generalizing ledger index seen with
  | nil => simpa [Policy.follow] using noted
  | cons event rest ih =>
    rw [Policy.follow, List.append_cons]
    exact ih (noted_step noted)

theorem noted_start (policy : Policy) : Noted policy .start [] :=
  ⟨fun _ _ member => absurd member List.not_mem_nil, rfl, rfl, rfl, rfl, rfl⟩

/-- Consent checks do not go back in time. -/
theorem consentTimes_sorted (sorted : (events.map Event.timeMs).Pairwise (· ≤ ·)) :
    (consentTimes events).Pairwise (· ≤ ·) := by
  rw [List.pairwise_map] at sorted
  refine List.pairwise_filterMap.mpr (sorted.imp fun le first found second other => ?_)
  rw [← consentTime_eq found, ← consentTime_eq other]
  exact le

theorem le_duration (sorted : (events.map Event.timeMs).Pairwise (· ≤ ·)) (member : event ∈ events) :
    event.timeMs ≤ duration events := by
  rcases List.eq_nil_or_concat events with rfl | ⟨before, last, rfl⟩
  · cases member
  · rw [List.concat_eq_append] at sorted member ⊢
    rw [duration, List.getLast?_concat, Option.map_some, Option.getD_some]
    rcases List.mem_append.mp member with earlier | final
    · rw [List.map_append, List.pairwise_append] at sorted
      exact sorted.2.2 _ (List.mem_map_of_mem earlier) _ (by simp)
    · rw [List.mem_singleton.mp final]

theorem mem_consentTimes {time : Nat} (member : time ∈ consentTimes events) :
    ∃ event ∈ events, event.timeMs = time := by
  obtain ⟨event, inside, found⟩ := List.mem_filterMap.mp member
  exact ⟨event, inside, consentTime_eq found⟩

/-- What the evaluation has found of events that pass. -/
structure Passed (policy : Policy) (events : List Event) : Prop where
  clean : ∀ event ∈ events, ∃ index, policy.eventFindings index event.evidence = []
  packets : (events.map Event.packets).sum ≤ policy.limits.maxPackets
  bytes : (events.map Event.bytes).sum ≤ policy.limits.maxBytes
  duration : duration events ≤ policy.limits.maxDurationMs
  consents : policy.ice.requireConsentFreshness = true → consentTimes events ≠ [] ∧
    (consentTimes events).IsChain fun left right => right - left ≤ policy.ice.maxConsentGapMs
  sorted : (events.map Event.timeMs).Pairwise (· ≤ ·)

theorem passed_of_report {observation : Observation} (pass : (policy.reportOf observation).status = .pass)
    (sorted : (observation.events.map Event.timeMs).Pairwise (· ≤ ·)) : Passed policy observation.events := by
  have noted : Noted policy (policy.follow .start 0 observation.events) ([] ++ observation.events) :=
    noted_follow (noted_start policy)
  rw [List.nil_append] at noted
  have clean : policy.findingsOf (policy.follow .start 0 observation.events) observation.events = [] := by
    by_contra found
    simp [Policy.reportOf, found] at pass
  have known : policy.unknownsOf (policy.follow .start 0 observation.events) observation.events = [] := by
    by_contra found
    simp [Policy.reportOf, clean, found] at pass
  simp only [Policy.findingsOf, Policy.limitFindings, List.append_eq_nil_iff, failIf_nil, decide_eq_false_iff_not,
    Nat.not_lt] at clean
  simp only [Policy.unknownsOf, List.append_eq_nil_iff, unknownIf_nil] at known
  obtain ⟨⟨found, gaps⟩, ⟨packets, bytes⟩, durations⟩ := clean
  refine ⟨noted.findings found, noted.packets ▸ packets, noted.bytes ▸ bytes, durations, fun fresh => ⟨?_, ?_⟩, sorted⟩
  · intro none
    have observed := known.1.2
    rw [noted.consentTimes, none, fresh] at observed
    cases observed
  · rw [if_pos fresh, gapFindings_nil, noted.consentTimes] at gaps
    exact gaps

theorem peerFindings_nil {address : Address} : policy.peerFindings index address = [] ↔
    ∃ network ∈ policy.approvedPeerNetworks, network.contains address = true := by
  rw [Policy.peerFindings, failIf_nil, Bool.not_eq_false', List.any_eq_true]

section passed
variable (passed : Passed policy events)
include passed

theorem Passed.credential {mechanism : Mechanism} {lifetime : Nat} (member : event ∈ events)
    (is : event.evidence = .turnCredential mechanism lifetime) :
    lifetime ≤ policy.turn.maxCredentialLifetimeSeconds := by
  obtain ⟨index, clean⟩ := passed.clean event member
  rw [is] at clean
  simp only [Policy.eventFindings, List.append_eq_nil_iff, failIf_nil, decide_eq_false_iff_not, Nat.not_lt] at clean
  exact clean.2

theorem Passed.allocation {lifetime : Nat} {transport : Transport} (member : event ∈ events)
    (is : event.evidence = .turnAllocation lifetime transport) :
    lifetime ≤ policy.turn.maxAllocationLifetimeSeconds := by
  obtain ⟨index, clean⟩ := passed.clean event member
  rw [is] at clean
  simp only [Policy.eventFindings, List.append_eq_nil_iff, failIf_nil, decide_eq_false_iff_not, Nat.not_lt] at clean
  exact clean.2

theorem Passed.peer {address : Address} (member : event ∈ events) (found : event.evidence.peer? = some address) :
    ∃ network ∈ policy.approvedPeerNetworks, network.contains address = true := by
  obtain ⟨index, clean⟩ := passed.clean event member
  unfold Evidence.peer? at found
  split at found
  · rename_i is
    cases found
    rw [is] at clean
    exact peerFindings_nil.1 clean
  · rename_i is
    cases found
    rw [is] at clean
    exact peerFindings_nil.1 clean
  · rename_i data is
    cases found
    rw [is] at clean
    simp only [Policy.eventFindings, List.append_eq_nil_iff] at clean
    exact peerFindings_nil.1 clean.1.1.1
  · cases found

theorem Passed.server {server : Server} (member : event ∈ events) (is : event.evidence = .serverContact server) :
    server ∈ policy.approvedServers := by
  obtain ⟨index, clean⟩ := passed.clean event member
  rw [is] at clean
  simpa [Policy.eventFindings] using clean

theorem Passed.ratio {data : TurnData} (member : event ∈ events) (is : event.evidence = .turnData data) :
    (data.bytesIn = 0 → data.bytesOut = 0) ∧
      (data.bytesIn ≠ 0 → policy.turn.maxAmplificationRatio.lt (.float data.ratio) = false) := by
  obtain ⟨index, clean⟩ := passed.clean event member
  rw [is] at clean
  simp only [Policy.eventFindings, List.append_eq_nil_iff] at clean
  have amplified := clean.2
  unfold Policy.amplificationFindings at amplified
  constructor
  · intro none
    rw [if_pos none, failIf_nil, decide_eq_false_iff_not, Nat.not_lt, Nat.le_zero] at amplified
    exact amplified
  · intro some_
    rw [if_neg some_, failIf_nil] at amplified
    exact amplified

theorem Passed.cleanup {before after : List Event} (split : events = before ++ event :: after)
    (cleans : event.evidence.isCleanup = true) : event.evidence = .cleanup 0 0 := by
  obtain ⟨index, clean⟩ := passed.clean event (by rw [split]; simp)
  cases is : event.evidence with
  | cleanup allocations sockets =>
    rw [is] at clean
    simp only [Policy.eventFindings, failIf_nil, Bool.or_eq_false_iff, decide_eq_false_iff_not, not_not] at clean
    rw [clean.1, clean.2]
  | _ =>
    rw [is] at cleans
    cases cleans

theorem covered_of_attended (attended : Attended policy events) : Covered policy events where
  packets := passed.packets
  bytes := passed.bytes
  duration := passed.duration
  credentials _ member _ _ is := passed.credential member is
  allocations _ member _ _ is := passed.allocation member is
  peers _ member _ found := passed.peer member found
  servers _ member _ is := passed.server member is
  ratios _ member _ is := passed.ratio member is
  consent fresh selected member pair a b after before long :=
    stretch_checked (consentTimes_sorted passed.sorted) (passed.consents fresh).2
      (attended.early fresh selected member pair) (attended.late fresh selected member pair) ⟨after, before⟩ long
  cleanup := by
    obtain ⟨before, event, after, split, cleans, last⟩ := attended.cleanup
    exact ⟨before, event, after, split, passed.cleanup split cleans, last⟩

theorem attended_of_covered (covered : Covered policy events) : Attended policy events where
  early fresh selected member pair := by
    refine stretch_early (passed.consents fresh).1 (fun c inside => ?_) (covered.consent fresh selected member pair)
    obtain ⟨check, among, rfl⟩ := mem_consentTimes inside
    exact le_duration passed.sorted among
  late fresh selected member pair := stretch_late (covered.consent fresh selected member pair)
  cleanup := by
    obtain ⟨before, event, after, split, cleans, last⟩ := covered.cleanup
    exact ⟨before, event, after, split, by rw [cleans]; rfl, last⟩

end passed

end pass

/-- The events that were read are in the order of their times. -/
theorem readEvents_sorted {index last : Nat} {items : List JsonValue} {events : List Event}
    (ok : readEvents index last items = .ok events) :
    (∀ event ∈ events, last ≤ event.timeMs) ∧ (events.map Event.timeMs).Pairwise (· ≤ ·) := by
  induction items generalizing index last events with
  | nil =>
    cases ok
    exact ⟨fun event member => absurd member List.not_mem_nil, .nil⟩
  | cons item rest ih =>
    obtain ⟨entry, -, ok⟩ := bind_ok.mp ok
    obtain ⟨-, -, ok⟩ := bind_ok.mp ok
    obtain ⟨time, -, ok⟩ := bind_ok.mp ok
    obtain ⟨_, later, ok⟩ := bind_ok.mp ok
    obtain ⟨kind, -, ok⟩ := bind_ok.mp ok
    obtain ⟨data, -, ok⟩ := bind_ok.mp ok
    obtain ⟨-, -, ok⟩ := bind_ok.mp ok
    obtain ⟨evidence, -, ok⟩ := bind_ok.mp ok
    obtain ⟨others, read, same⟩ := bind_ok.mp ok
    obtain rfl := pure_ok.mp same
    have ordered : last ≤ time.val := by simpa using later
    obtain ⟨after, sorted⟩ := ih read
    refine ⟨?_, ?_⟩
    · rintro event (_ | ⟨_, member⟩)
      · exact ordered
      · exact ordered.trans (after event member)
    · refine List.pairwise_cons.mpr ⟨fun other member => ?_, sorted⟩
      obtain ⟨event, inside, rfl⟩ := List.mem_map.mp member
      exact after event inside

/-- A pass covers the session exactly if consent was checked soon after each selected pair and
shortly before the end, and a cleanup came after the last TURN allocation. -/
theorem pass_covers_iff {policyDocument observationDocument : JsonValue} {policy : Policy} {observation : Observation}
    {report : Report} (valid : validatePolicy policyDocument = .ok policy)
    (accepted : validateObservation observationDocument policy.limits.maxEvents = .ok observation)
    (evaluated : evaluate policyDocument observationDocument = .ok report) (pass : report.status = .pass) :
    Covered policy observation.events ↔ Attended policy observation.events := by
  rw [evaluate, valid, ok_bind, accepted, ok_bind] at evaluated
  obtain rfl := pure_ok.mp evaluated
  have sorted : (observation.events.map Event.timeMs).Pairwise (· ≤ ·) := by
    obtain ⟨entry, -, accepted⟩ := bind_ok.mp accepted
    obtain ⟨-, -, accepted⟩ := bind_ok.mp accepted
    obtain ⟨-, -, accepted⟩ := bind_ok.mp accepted
    obtain ⟨activity, -, accepted⟩ := bind_ok.mp accepted
    obtain ⟨items, -, accepted⟩ := bind_ok.mp accepted
    obtain ⟨-, -, accepted⟩ := bind_ok.mp accepted
    obtain ⟨events, read, same⟩ := bind_ok.mp accepted
    obtain rfl := pure_ok.mp same
    exact (readEvents_sorted read).2
  have passed := passed_of_report pass sorted
  exact ⟨attended_of_covered passed, covered_of_attended passed⟩

def exampleTexts (texts : List String) : JsonValue := .list (texts.map fun text => .str text)

def examplePolicy : JsonValue :=
  .dict [
    JsonDict.entry "apiVersion" (.str policyVersion),
    JsonDict.entry "candidatePolicy" (.dict [
      JsonDict.entry "allowedTypes" (exampleTexts ["host"]),
      JsonDict.entry "allowAddressExposure" (.bool false),
      JsonDict.entry "requireMdnsForPrivateHost" (.bool true)]),
    JsonDict.entry "approvedServers" (.list []),
    JsonDict.entry "approvedPeerNetworks" (exampleTexts ["127.0.0.0/8"]),
    JsonDict.entry "ice" (.dict [
      JsonDict.entry "requireNomination" (.bool true),
      JsonDict.entry "requireConsentFreshness" (.bool true),
      JsonDict.entry "maxConsentGapMs" (.int 15000),
      JsonDict.entry "requireRestartCredentialChange" (.bool true)]),
    JsonDict.entry "turn" (.dict [
      JsonDict.entry "requireLongTermCredentials" (.bool true),
      JsonDict.entry "maxCredentialLifetimeSeconds" (.int 3600),
      JsonDict.entry "maxAllocationLifetimeSeconds" (.int 600),
      JsonDict.entry "allowedTransports" (exampleTexts ["udp"]),
      JsonDict.entry "maxAmplificationRatio" (.int 3),
      JsonDict.entry "requirePermissionBeforeData" (.bool true),
      JsonDict.entry "requireChannelBindingForChannelData" (.bool true)]),
    JsonDict.entry "limits" (.dict [
      JsonDict.entry "maxEvents" (.int 1000), JsonDict.entry "maxPackets" (.int 10000),
      JsonDict.entry "maxBytes" (.int 16777216), JsonDict.entry "maxDurationMs" (.int 60000)])]

def exampleEvent (time : Int) (kind : String) (data : JsonDict) : JsonValue :=
  .dict [
    JsonDict.entry "timeMs" (.int time), JsonDict.entry "type" (.str kind),
    JsonDict.entry "data" (.dict data)]

def exampleObservation (events : List JsonValue) : JsonValue :=
  .dict [
    JsonDict.entry "apiVersion" (.str observationVersion),
    JsonDict.entry "networkActivity" (.bool false), JsonDict.entry "events" (.list events)]

def examplePair : JsonValue :=
  exampleEvent 6 "pair_selected" [
    JsonDict.entry "nominated" (.bool true), JsonDict.entry "localType" (.str "relay"),
    JsonDict.entry "remoteType" (.str "host")]

def exampleConsent : JsonValue := exampleEvent 5000 "consent" [JsonDict.entry "success" (.bool true)]

def exampleCleanup (time : Int) : JsonValue :=
  exampleEvent time "cleanup" [
    JsonDict.entry "allocations" (.int 0), JsonDict.entry "sockets" (.int 0)]

def exampleAllocation (time : Int) : JsonValue :=
  exampleEvent time "turn_allocation" [
    JsonDict.entry "lifetimeSeconds" (.int 300), JsonDict.entry "transport" (.str "udp")]

/-- An allocation that is cleaned up at the end. -/
def cleanedObservation : JsonValue :=
  exampleObservation [exampleAllocation 3, examplePair, exampleConsent, exampleCleanup 10002]

/-- An allocation after the only cleanup. -/
def leakedObservation : JsonValue :=
  exampleObservation [examplePair, exampleConsent, exampleCleanup 9000, exampleAllocation 10002]

/-- What the example reads of its policy and its events. -/
def exampleFacts (document : JsonValue) : Result (Nat × List Nat × Nat × Option Bool × Option Bool) := do
  let policy ← validatePolicy examplePolicy
  let observation ← validateObservation document policy.limits.maxEvents
  let last := observation.events.getLast?
  return (policy.ice.maxConsentGapMs, consentTimes observation.events, duration observation.events,
    last.map (·.evidence.isCleanup), last.map (·.evidence.isAllocation))

theorem observations_pass : ∀ fields ∈ [cleanedObservation, leakedObservation],
    (evaluate examplePolicy fields).toOption.map Report.status = some .pass := by
  decide +kernel

theorem cleanedObservation_passes :
    (evaluate examplePolicy cleanedObservation).toOption.map Report.status = some .pass :=
  observations_pass _ (.head _)

theorem leakedObservation_passes :
    (evaluate examplePolicy leakedObservation).toOption.map Report.status = some .pass :=
  observations_pass _ (.tail _ (.head _))

theorem observations_facts :
    (exampleFacts cleanedObservation).toOption.map id = some (15000, [5000], 10002, some true, some false) ∧
    (exampleFacts leakedObservation).toOption.map id = some (15000, [5000], 10002, some false, some true) := by
  constructor <;> decide +kernel

theorem cleanedObservation_facts :
    (exampleFacts cleanedObservation).toOption.map id = some (15000, [5000], 10002, some true, some false) :=
  observations_facts.1

theorem leakedObservation_facts :
    (exampleFacts leakedObservation).toOption.map id = some (15000, [5000], 10002, some false, some true) :=
  observations_facts.2

/-- A cleanup that ends the trace is after every allocation. -/
theorem cleanedUp_of_last {clean : Evidence → Prop} {events : List Event} {last : Event}
    (ends : events.getLast? = some last) (cleans : clean last.evidence) : CleanedUp clean events := by
  obtain ⟨before, rfl⟩ := List.getLast?_eq_some_iff.mp ends
  exact ⟨before, last, [], rfl, cleans, fun _ member => absurd member List.not_mem_nil⟩

/-- An allocation that ends the trace is never cleaned up. -/
theorem not_cleanedUp {events : List Event} {last : Event} (ends : events.getLast? = some last)
    (allocates : last.evidence.isAllocation = true) :
    ¬ CleanedUp (fun evidence => evidence = .cleanup 0 0) events := by
  rintro ⟨before, event, after, rfl, cleans, none⟩
  rcases List.eq_nil_or_concat after with rfl | ⟨others, other, rfl⟩
  · rw [List.getLast?_concat] at ends
    cases ends
    rw [cleans] at allocates
    cases allocates
  · rw [List.concat_eq_append, ← List.cons_append, ← List.append_assoc, List.getLast?_concat] at ends
    cases ends
    have leaked := none last (by simp)
    rw [allocates] at leaked
    cases leaked

theorem cleanedObservation_covered :
    ∃ policy observation, validatePolicy examplePolicy = .ok policy ∧
      validateObservation cleanedObservation policy.limits.maxEvents = .ok observation ∧
      Covered policy observation.events := by
  obtain ⟨report, evaluated, pass⟩ := toOption_map cleanedObservation_passes
  obtain ⟨_, read, rfl⟩ := toOption_map cleanedObservation_facts
  obtain ⟨policy, valid, read⟩ := bind_ok.mp read
  obtain ⟨observation, accepted, same⟩ := bind_ok.mp read
  have facts := pure_ok.mp same
  simp only [Prod.mk.injEq] at facts
  obtain ⟨gap, times, finish, cleanup, -⟩ := facts
  obtain ⟨last, ends, cleans⟩ := Option.map_eq_some_iff.mp cleanup
  refine ⟨policy, observation, valid, accepted,
    (pass_covers_iff valid accepted evaluated pass).mpr ⟨?_, ?_, cleanedUp_of_last ends cleans⟩⟩
  · intro _ selected _ _
    exact ⟨5000, by simp [times], by omega⟩
  · intro _ selected _ _
    exact .inr ⟨5000, by simp [times], by omega⟩

/-- A TURN allocation after the only cleanup passes. -/
theorem leaked_allocation_passes : ¬ ∀ policyDocument observationDocument policy observation report,
    validatePolicy policyDocument = .ok policy →
    validateObservation observationDocument policy.limits.maxEvents = .ok observation →
    evaluate policyDocument observationDocument = .ok report → report.status = .pass →
    Covered policy observation.events := by
  intro covers
  obtain ⟨report, evaluated, pass⟩ := toOption_map leakedObservation_passes
  obtain ⟨_, read, rfl⟩ := toOption_map leakedObservation_facts
  obtain ⟨policy, valid, read⟩ := bind_ok.mp read
  obtain ⟨observation, accepted, same⟩ := bind_ok.mp read
  have facts := pure_ok.mp same
  simp only [Prod.mk.injEq] at facts
  obtain ⟨-, -, -, -, allocation⟩ := facts
  obtain ⟨last, ends, allocates⟩ := Option.map_eq_some_iff.mp allocation
  exact not_cleanedUp ends allocates (covers _ _ _ _ _ valid accepted evaluated pass).cleanup

end Sippycup.Webrtc.IceTurn
