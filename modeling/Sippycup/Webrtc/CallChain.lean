import Sippycup.Webrtc.CallEvidence
import Mathlib.Data.List.Dedup

/-! A call that passes has a complete chain of evidence in each of its generations. What a chain
is, is said of the layers; that the oracle found nothing against them is read part by part. -/
namespace Sippycup.Webrtc.CallEvidence
open Sippycup.Python

/-- Media of a direction that the policy requires. -/
structure Carried (policy : Policy) (layers : Layers) (direction : Direction) : Prop where
  stream : ∃ stream ∈ layers.srtp, stream.direction = direction
  audio : ∃ sample ∈ layers.audio, sample.direction = direction
  rtcp : policy.requireRtcpEvidence = true → ∃ stream ∈ layers.srtcp, stream.direction = direction

/-- An audio result that was measured, passes, and is within the ceiling of latency. -/
structure Heard (policy : Policy) (sample : Audio) : Prop where
  measured : sample.measurementStatus = .measured
  continuous : sample.continuity = .pass
  latency : ∃ latency, sample.roundTripLatencyMs = some latency ∧
    (Number.int policy.maxRoundTripLatencyMs).lt latency = false
  canary : policy.requireCanaryEvidence = true → sample.canaryAssetHash.isSome = true

structure Recovered (policy : Policy) (attempt : Recovery) : Prop where
  recovered : attempt.outcome = .recovered
  bounded : attempt.downtimeMs ≤ policy.maxDowntimeMs

/-- ICE pairs numbered from zero, the first for the reason of its generation. -/
structure Paired (layers : Layers) (generation : Nat) : Prop where
  some_ : layers.icePairs ≠ []
  sequences : layers.icePairs.map IcePair.sequence = List.range layers.icePairs.length
  reason : ∀ first ∈ layers.icePairs.head?, first.reason = if generation = 0 then .initial else .iceRestart

/-- Every stream is bound to the association, and every SRTCP stream to one of RTP. -/
structure Bound (layers : Layers) (association : Text) : Prop where
  streams : ∀ stream ∈ layers.srtp ++ layers.srtcp, stream.associationIdHash = association
  rtcp : ∀ rtcp ∈ layers.srtcp, ∃ stream ∈ layers.srtp, stream.direction = rtcp.direction ∧ stream.ssrc = rtcp.ssrc

structure Chain (policy : Policy) (layers : Layers) (generation : Nat) : Prop where
  revision : layers.revisions.length = 1
  pairs : Paired layers generation
  bound : ∃ association, layers.associations = [association] ∧ Bound layers association
  carried : ∀ direction ∈ policy.requiredDirections, Carried policy layers direction
  heard : ∀ sample ∈ layers.audio, Heard policy sample
  recovery : policy.requireRecoveryEvidence = true → 0 < generation ∨ 1 < layers.icePairs.length →
    layers.recoveries ≠ []
  recovered : ∀ attempt ∈ layers.recoveries, Recovered policy attempt

/-- A component that has reported, passed, and is certain. -/
def Vouched (evidence : Evidence) (kind : Kind) : Prop :=
  ∃ component ∈ evidence.components, component.kind = kind ∧ component.status = .pass ∧ component.uncertainty = []

structure Complete (policy : Policy) (evidence : Evidence) : Prop where
  components : ∀ kind ∈ policy.requiredComponents, Vouched evidence kind
  generations : ∃ last, ∀ generation, (∃ event ∈ evidence.events, event.generation = generation) ↔ generation ≤ last
  chains : ∀ event ∈ evidence.events, Chain policy (layersOf evidence.events event.generation) event.generation
  generationCeiling : evidence.generations.length ≤ policy.maxGenerations
  ssrcCeiling : evidence.ssrcs.length ≤ policy.maxSsrcs

section lists
variable {α β : Type}

@[simp] theorem when_nil {holds : Bool} {item : α} : when holds item = [] ↔ holds = false := by
  cases holds <;> simp [when]

theorem contains_map [BEq β] [LawfulBEq β] {items : List α} {f : α → β} {key : β} :
    (!(items.map f).contains key) = false ↔ ∃ item ∈ items, f item = key := by
  simp

end lists

section layers
variable {policy : Policy} {layers : Layers} {generation : Nat}

theorem paired_of_clean (findings : layers.iceFindings generation = []) (some_ : layers.icePairs ≠ []) :
    Paired layers generation := by
  obtain ⟨sequences, reasons⟩ := List.append_eq_nil_iff.mp findings
  refine ⟨some_, by simpa using sequences, ?_⟩
  intro first head
  obtain ⟨rest, pairs⟩ := List.head?_eq_some_iff.mp head
  rw [pairs] at reasons
  have expected := when_nil.1 (List.append_eq_nil_iff.mp reasons).1
  rwa [decide_eq_false_iff_not, not_not] at expected

theorem bound_of_clean {association : Text} (findings : layers.streamFindings generation = [])
    (one : layers.associations = [association]) : Bound layers association := by
  obtain ⟨associated, matched⟩ := List.append_eq_nil_iff.mp findings
  constructor
  · intro stream member
    have clean := List.flatMap_eq_nil_iff.mp associated stream member
    simpa [one] using clean
  · intro rtcp member
    have clean := List.flatMap_eq_nil_iff.mp matched rtcp member
    obtain ⟨stream, found, same⟩ := contains_map.1 (when_nil.1 clean)
    exact ⟨stream, found, congrArg Prod.fst same, congrArg Prod.snd same⟩

theorem carried_of_clean {direction : Direction}
    (clean : layers.directionUnknowns policy generation direction = []) : Carried policy layers direction := by
  obtain ⟨media, rtcp⟩ := List.append_eq_nil_iff.mp clean
  obtain ⟨stream, audio⟩ := List.append_eq_nil_iff.mp media
  constructor
  · exact contains_map.1 (when_nil.1 stream)
  · exact contains_map.1 (when_nil.1 audio)
  · intro required
    rw [when_nil, required, Bool.true_and] at rtcp
    exact contains_map.1 rtcp

theorem heard_of_clean {sample : Audio} (findings : Layers.audioFindings policy generation sample = [])
    (unknowns : Layers.audioUnknowns policy generation sample = []) : Heard policy sample := by
  obtain ⟨continuity, ceiling⟩ := List.append_eq_nil_iff.mp findings
  obtain ⟨known, latency⟩ := List.append_eq_nil_iff.mp unknowns
  obtain ⟨measurable, canary⟩ := List.append_eq_nil_iff.mp known
  simp only [when_nil, Bool.or_eq_false_iff, Bool.and_eq_false_iff, decide_eq_false_iff_not] at *
  have measured : sample.measurementStatus = .measured := by
    cases status : sample.measurementStatus
    · rfl
    · exact absurd status measurable.1
  have continuous : sample.continuity = .pass := by
    cases status : sample.continuity
    · rfl
    · exact absurd status continuity
    · exact absurd status measurable.2
  have observed : ∃ latency, sample.roundTripLatencyMs = some latency := by
    apply Option.isSome_iff_exists.mp
    simpa [measured] using latency
  obtain ⟨latency, known⟩ := observed
  refine ⟨measured, continuous, ⟨latency, known, ?_⟩, ?_⟩
  · simpa [known] using ceiling
  · intro required
    simpa [required] using canary

theorem recovered_of_clean {attempt : Recovery} (findings : Layers.recoveryFindings policy generation attempt = [])
    (known : attempt.outcome ≠ .unknown) : Recovered policy attempt := by
  obtain ⟨success, quick⟩ := List.append_eq_nil_iff.mp findings
  simp only [when_nil, decide_eq_false_iff_not, not_lt] at success quick
  constructor
  · cases outcome : attempt.outcome
    · rfl
    · exact absurd outcome success
    · exact absurd outcome known
  · exact quick

theorem chain_of_clean (findings : layers.findings policy generation = [])
    (unknowns : layers.unknowns policy generation = []) : Chain policy layers generation := by
  simp only [Layers.findings, Layers.unknowns, List.append_eq_nil_iff, List.flatMap_eq_nil_iff, when_nil,
    List.isEmpty_eq_false_iff, decide_eq_false_iff_not, not_lt] at findings unknowns
  obtain ⟨⟨⟨⟨⟨oneRevision, oneAssociation⟩, ice⟩, streams⟩, audio⟩, recoveries⟩ := findings
  obtain ⟨⟨⟨⟨⟨⟨⟨revision, pair⟩, association⟩, _⟩, directions⟩, heard⟩, missing⟩, unknown⟩ := unknowns
  obtain ⟨hash, one⟩ : ∃ hash, layers.associations = [hash] :=
    List.length_eq_one_iff.mp (by have := List.length_pos_iff.mpr association; omega)
  constructor
  · have := List.length_pos_iff.mpr revision
    omega
  · exact paired_of_clean ice pair
  · exact ⟨hash, one, bound_of_clean streams one⟩
  · exact fun direction member => carried_of_clean (directions direction member)
  · exact fun sample member => heard_of_clean (audio sample member) (heard sample member)
  · intro required needed
    simpa [required, Layers.needsRecovery, needed] using missing
  · exact fun attempt member => recovered_of_clean (recoveries attempt member) (unknown attempt member)

end layers

section evidence
variable {policy : Policy} {evidence : Evidence}

theorem mem_generations {generation : Nat} :
    generation ∈ evidence.generations ↔ ∃ event ∈ evidence.events, event.generation = generation := by
  rw [Evidence.generations, generationsOf, List.mem_insertionSort, List.mem_dedup, List.mem_map]

theorem generations_of_clean (timeline : evidence.generations ≠ [])
    (expected : evidence.generations = evidence.expectedGenerations) :
    ∃ last, ∀ generation, (∃ event ∈ evidence.events, event.generation = generation) ↔ generation ≤ last := by
  obtain ⟨last, least⟩ := Option.isSome_iff_exists.mp (List.getLast?_isSome.mpr timeline)
  refine ⟨last, fun generation => ?_⟩
  rw [← mem_generations, expected, Evidence.expectedGenerations, least]
  simp [Nat.lt_succ_iff]

theorem component_of_clean {component : Component} (findings : componentFindings evidence.components = [])
    (unknowns : policy.componentUnknowns evidence.components = []) (member : component ∈ evidence.components) :
    component.status = .pass ∧ component.uncertainty = [] := by
  have passed := when_nil.1 (List.flatMap_eq_nil_iff.mp findings component member)
  have certain := when_nil.1
    (List.flatMap_eq_nil_iff.mp (List.append_eq_nil_iff.mp unknowns).2 component member)
  cases status : component.status <;> simp_all

theorem vouched_of_clean {kind : Kind} (findings : componentFindings evidence.components = [])
    (unknowns : policy.componentUnknowns evidence.components = []) (required : kind ∈ policy.requiredComponents) :
    Vouched evidence kind := by
  have present := List.flatMap_eq_nil_iff.mp (List.append_eq_nil_iff.mp unknowns).1 kind required
  obtain ⟨component, member, same⟩ := contains_map.1 (when_nil.1 present)
  exact ⟨component, member, same, component_of_clean findings unknowns member⟩

theorem complete_of_clean (findings : evidence.findings policy = []) (unknowns : evidence.unknowns policy = []) :
    Complete policy evidence := by
  obtain ⟨found, call⟩ := List.append_eq_nil_iff.mp findings
  obtain ⟨components, layers⟩ := List.append_eq_nil_iff.mp found
  obtain ⟨missed, timeline⟩ := List.append_eq_nil_iff.mp unknowns
  obtain ⟨uncertain, missing⟩ := List.append_eq_nil_iff.mp missed
  simp only [Evidence.callFindings, List.append_eq_nil_iff, when_nil, decide_eq_false_iff_not, not_not, not_lt,
    List.isEmpty_eq_false_iff] at call timeline
  obtain ⟨⟨expected, generations⟩, ssrcs⟩ := call
  constructor
  · exact fun kind required => vouched_of_clean components uncertain required
  · exact generations_of_clean timeline expected
  · intro event member
    have grouped : event.generation ∈ evidence.generations := mem_generations.2 ⟨event, member, rfl⟩
    exact chain_of_clean (List.flatMap_eq_nil_iff.mp layers _ grouped)
      (List.flatMap_eq_nil_iff.mp missing _ grouped)
  · exact generations
  · exact ssrcs

end evidence

/-- A pass says that the chain is complete in each generation. It says nothing of the order of
the generations in time, which the oracle does not look at. -/
theorem pass_is_complete {policyDocument evidenceDocument : JsonValue} {report : Report}
    (evaluated : evaluate policyDocument evidenceDocument = .ok report) (passes : report.status = .pass) :
    ∃ policy evidence, validatePolicy policyDocument = .ok policy ∧
      validateEvidence evidenceDocument policyDocument = .ok evidence ∧ Complete policy evidence := by
  obtain ⟨policy, policyValid, evaluated⟩ := bind_ok.mp evaluated
  obtain ⟨evidence, evidenceValid, same⟩ := bind_ok.mp evaluated
  obtain rfl := pure_ok.mp same
  refine ⟨policy, evidence, policyValid, evidenceValid, ?_⟩
  apply complete_of_clean
  · by_contra found
    simp [found] at passes
  · by_contra missing
    by_cases found : evidence.findings policy = []
    · simp [found, missing] at passes
    · simp [found] at passes

def examplePolicy : JsonValue :=
  .dict [
    JsonDict.entry "apiVersion" (.str policyVersion),
    JsonDict.entry "media" (.dict [
      JsonDict.entry "requiredDirections" (.list [.str "outbound"]), JsonDict.entry "requireRtcpEvidence" (.bool false),
      JsonDict.entry "requireCanaryEvidence" (.bool false), JsonDict.entry "maxRoundTripLatencyMs" (.int 100)]),
    JsonDict.entry "recovery" (.dict [
      JsonDict.entry "maxDowntimeMs" (.int 10), JsonDict.entry "requireRecoveryEvidence" (.bool false)]),
    JsonDict.entry "privacy" (.dict [
      JsonDict.entry "requireCandidateAddressRedaction" (.bool false),
      JsonDict.entry "requireCredentialRedaction" (.bool false),
      JsonDict.entry "requireBrowserMetadataRedaction" (.bool false), JsonDict.entry "retainRawAudio" (.bool false)]),
    JsonDict.entry "limits" (.dict [
      JsonDict.entry "maxEvents" (.int 16), JsonDict.entry "maxGenerations" (.int 2), JsonDict.entry "maxSsrcs" (.int 2)])]

def exampleDigest : JsonValue := .str ⟨List.replicate 64 97⟩

def exampleComponent (kind : String) : JsonValue :=
  .dict [JsonDict.entry "kind" (.str kind), JsonDict.entry "status" (.str "pass"),
    JsonDict.entry "reportHash" exampleDigest, JsonDict.entry "uncertainty" (.list [])]

def exampleEvent (time generation : Nat) (layer : String) (data : JsonDict) : JsonValue :=
  .dict [JsonDict.entry "timeMs" (.int time), JsonDict.entry "type" (.str layer),
    JsonDict.entry "data" (.dict (JsonDict.entry "generation" (.int generation) :: data))]

/-- The chain of a generation, at one time. -/
def exampleChain (time generation : Nat) : List JsonValue := [
  exampleEvent time generation "revision" [JsonDict.entry "revisionHash" exampleDigest],
  exampleEvent time generation "ice_pair" [
    JsonDict.entry "pairIdHash" exampleDigest, JsonDict.entry "sequence" (.int 0),
    JsonDict.entry "reason" (.str (Layers.expectedReason generation).name)],
  exampleEvent time generation "dtls_association" [JsonDict.entry "associationIdHash" exampleDigest],
  exampleEvent time generation "srtp_stream" [
    JsonDict.entry "associationIdHash" exampleDigest, JsonDict.entry "ssrc" (.int 7),
    JsonDict.entry "direction" (.str "outbound")],
  exampleEvent time generation "audio" [
    JsonDict.entry "direction" (.str "outbound"), JsonDict.entry "measurementStatus" (.str "measured"),
    JsonDict.entry "continuity" (.str "pass"), JsonDict.entry "roundTripLatencyMs" (.int 20),
    JsonDict.entry "canaryAssetHash" .null]]

/-- A call of two generations, one a millisecond after the other. -/
def exampleCall (first second : Nat) : JsonValue :=
  .dict [
    JsonDict.entry "apiVersion" (.str evidenceVersion), JsonDict.entry "networkActivity" (.bool false),
    JsonDict.entry "callIdHash" exampleDigest,
    JsonDict.entry "components" (.list (["sdp", "ice-turn", "dtls-srtp", "audio-outbound"].map exampleComponent)),
    JsonDict.entry "events" (.list (exampleChain 0 first ++ exampleChain 1 second))]

theorem exampleCall_complete :
    ∃ policy evidence, validatePolicy examplePolicy = .ok policy ∧
      validateEvidence (exampleCall 0 1) examplePolicy = .ok evidence ∧ Complete policy evidence := by
  have passes : (evaluate examplePolicy (exampleCall 0 1)).toOption.map Report.status = some .pass := by
    decide +kernel
  obtain ⟨report, evaluated, pass⟩ := toOption_map passes
  exact pass_is_complete evaluated pass

/-- No event of a generation comes before the revision of the generation below it. -/
def Ordered (evidence : Evidence) : Prop :=
  ∀ revision ∈ evidence.events, revision.data.revision?.isSome → ∀ event ∈ evidence.events,
    event.generation = revision.generation + 1 → revision.timeMs ≤ event.timeMs

instance (evidence : Evidence) : Decidable (Ordered evidence) :=
  inferInstanceAs (Decidable (∀ _ ∈ _, _))

/-- The second generation of a call may pass before the first has begun. -/
theorem generations_out_of_order :
    ∃ report evidence, evaluate examplePolicy (exampleCall 1 0) = .ok report ∧ report.status = .pass ∧
      validateEvidence (exampleCall 1 0) examplePolicy = .ok evidence ∧ ¬Ordered evidence := by
  have passes : (evaluate examplePolicy (exampleCall 1 0)).toOption.map Report.status = some .pass := by
    decide +kernel
  have disordered : ((validateEvidence (exampleCall 1 0) examplePolicy).toOption.map fun evidence =>
      decide (Ordered evidence)) = some false := by
    decide +kernel
  obtain ⟨report, evaluated, pass⟩ := toOption_map passes
  obtain ⟨evidence, valid, late⟩ := toOption_map disordered
  exact ⟨report, evidence, evaluated, pass, valid, of_decide_eq_false late⟩

end Sippycup.Webrtc.CallEvidence
