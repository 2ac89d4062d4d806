import Sippycup.Webrtc.Sdp

/-! The values of a transcript under their keys: which sections, revisions and transcripts are read, and what
is read when one value is edited. -/
namespace Sippycup.Webrtc.Sdp
open Sippycup.Python

section fields
variable {maxCodecs maxExtmaps : Nat} {path : String}

/-- The value under each key after one of them is set. -/
def updated (get : Text → JsonValue) (key : Text) (value : JsonValue) (name : Text) : JsonValue :=
  if name = key then value else get name

theorem find_edit {d : JsonDict} {key : Text} {f : JsonValue → JsonValue} (present : d.contains key = true) :
    (d.edit key f).find = updated d.find key (f (d.find key)) := by
  funext name
  unfold updated
  split
  · rename_i same
    rw [same, JsonDict.find_edit_self present]
  · rename_i other
    exact JsonDict.find_edit_other other

def sectionKeys : List Text :=
  ["mid", "kind", "protocol", "port", "direction", "rtcpMux", "iceUfragHash", "icePwdHash", "iceOptions",
    "endOfCandidates", "fingerprint", "setup", "codecs", "extmaps"]

/-- What the values under the keys of a section are read as. -/
structure SectionRead (maxCodecs maxExtmaps : Nat) (path : String) (get : Text → JsonValue) (sect : Section) : Prop where
  mid : (readToken (get "mid") s!"{path}.mid" : Result Text) = .ok sect.mid
  kind : (readEnum MediaKind.name mediaKinds (get "kind") s!"{path}.kind" : Result MediaKind) = .ok sect.kind
  protocol : (readToken (get "protocol") s!"{path}.protocol" : Result Text) = .ok sect.protocol
  port : ∃ port, (readInteger (get "port") s!"{path}.port" 0 65535 : Result _) = .ok port ∧ port.val = sect.port
  direction : (readEnum Direction.name directions (get "direction") s!"{path}.direction" : Result Direction) =
    .ok sect.direction
  rtcpMux : (readBoolean (get "rtcpMux") s!"{path}.rtcpMux" : Result Bool) = .ok sect.rtcpMux
  ufrag : (readDigest (get "iceUfragHash") s!"{path}.iceUfragHash" : Result Text) = .ok sect.iceUfragHash
  pwd : (readDigest (get "icePwdHash") s!"{path}.icePwdHash" : Result Text) = .ok sect.icePwdHash
  options : uniqueTokens (get "iceOptions") s!"{path}.iceOptions" 16 = .ok sect.iceOptions
  ended : (readBoolean (get "endOfCandidates") s!"{path}.endOfCandidates" : Result Bool) = .ok sect.endOfCandidates
  fingerprint : readFingerprint (get "fingerprint") s!"{path}.fingerprint" = .ok sect.fingerprint
  setup : (readEnum Setup.name [.actpass, .active, .passive, .holdconn] (get "setup") s!"{path}.setup" : Result Setup) =
    .ok sect.setup
  codecs : ∃ items, (get "codecs") = .list items ∧ items.length ≤ maxCodecs ∧
    readItems readCodec s!"{path}.codecs" 0 items = .ok sect.codecs ∧ (sect.codecs.map Codec.payloadType).Nodup
  extmaps : ∃ items, (get "extmaps") = .list items ∧ items.length ≤ maxExtmaps ∧
    readItems readExtmap s!"{path}.extmaps" 0 items = .ok sect.extmaps ∧ (sect.extmaps.map Extmap.id).Nodup

theorem readSection_ok {value : JsonValue} {sect : Section} :
    readSection maxCodecs maxExtmaps value path = .ok sect ↔ ∃ d : JsonDict, value = .dict d ∧
      (exactKeys d path sectionKeys : Result Unit) = .ok () ∧ SectionRead maxCodecs maxExtmaps path d.find sect := by
  unfold readSection
  simp only [bind_ok, readObject_ok, readArray_ok, require_ok, pure_ok, decide_eq_true_eq]
  constructor
  · rintro ⟨d, object, _, keys, mid, mid', kind, kind', protocol, protocol', port, port', direction, direction', mux,
      mux', ufrag, ufrag', pwd, pwd', options, options', ended, ended', fingerprint, fingerprint', setup, setup',
      items, list, _, few, codecs, codecs', _, distinct, extitems, extlist, _, extfew, extmaps, extmaps', _,
      extdistinct, rfl⟩
    exact ⟨d, object, keys, mid', kind', protocol', ⟨port, port', rfl⟩, direction', mux', ufrag', pwd', options',
      ended', fingerprint', setup', ⟨items, list, few, codecs', distinct⟩, ⟨extitems, extlist, extfew, extmaps', extdistinct⟩⟩
  · rintro ⟨d, object, keys, read⟩
    obtain ⟨port, port', same⟩ := read.port
    obtain ⟨items, list, few, codecs, distinct⟩ := read.codecs
    obtain ⟨extitems, extlist, extfew, extmaps, extdistinct⟩ := read.extmaps
    refine ⟨d, object, (), keys, _, read.mid, _, read.kind, _, read.protocol, port, port', _, read.direction, _,
      read.rtcpMux, _, read.ufrag, _, read.pwd, _, read.options, _, read.ended, _, read.fingerprint, _, read.setup,
      items, list, (), few, _, codecs, (), distinct, extitems, extlist, (), extfew, _, extmaps, (), extdistinct, ?_⟩
    rw [same]

/-- What the values under the keys of a codec are read as. -/
structure CodecRead (path : String) (get : Text → JsonValue) (codec : Codec) : Prop where
  payloadType : ∃ payload, (readInteger (get "payloadType") s!"{path}.payloadType" 0 127 : Result _) = .ok payload ∧
    payload.val = codec.payloadType
  name : (readToken (get "name") s!"{path}.name" : Result Text) = .ok codec.name
  clockRate : ∃ rate, (readInteger (get "clockRate") s!"{path}.clockRate" 1 384000 : Result _) = .ok rate ∧
    rate.val = codec.clockRate
  channels : ∃ channels, (readInteger (get "channels") s!"{path}.channels" 1 32 : Result _) = .ok channels ∧
    channels.val = codec.channels
  feedback : ∃ items, (get "rtcpFeedback") = .list items ∧ items.length ≤ 16 ∧
    (readItems (fun item path => readBounded item path 128) s!"{path}.rtcpFeedback" 0 items : Result _) =
      .ok codec.rtcpFeedback ∧ codec.rtcpFeedback.Nodup

def codecKeys : List Text := ["payloadType", "name", "clockRate", "channels", "rtcpFeedback"]

theorem readCodec_ok {value : JsonValue} {codec : Codec} : readCodec value path = .ok codec ↔
    ∃ d : JsonDict, value = .dict d ∧ (exactKeys d path codecKeys : Result Unit) = .ok () ∧
      CodecRead path d.find codec := by
  unfold readCodec
  simp only [bind_ok, readObject_ok, readArray_ok, require_ok, pure_ok, decide_eq_true_eq]
  constructor
  · rintro ⟨d, object, _, keys, payload, payload', name, name', rate, rate', channels, channels', items, list, _, few,
      feedback, feedback', _, distinct, rfl⟩
    exact ⟨d, object, keys, ⟨payload, payload', rfl⟩, name', ⟨rate, rate', rfl⟩, ⟨channels, channels', rfl⟩,
      ⟨items, list, few, feedback', distinct⟩⟩
  · rintro ⟨d, object, keys, read⟩
    obtain ⟨payload, payload', samePayload⟩ := read.payloadType
    obtain ⟨rate, rate', sameRate⟩ := read.clockRate
    obtain ⟨channels, channels', sameChannels⟩ := read.channels
    obtain ⟨items, list, few, feedback, distinct⟩ := read.feedback
    refine ⟨d, object, (), keys, payload, payload', _, read.name, rate, rate', channels, channels', items, list, (), few,
      _, feedback, (), distinct, ?_⟩
    rw [samePayload, sameRate, sameChannels]

def revisionKeys : List Text := ["sequence", "type", "actor", "generation", "sdpHash", "bundleMids", "media"]

/-- What the values under the keys of a revision are read as. -/
structure RevisionRead (limits : Limits) (index : Nat) (path : String) (get : Text → JsonValue) (revision : Revision) : Prop where
  sequence : ∃ sequence, (readInteger (get "sequence") s!"{path}.sequence" 1 1000000 : Result _) =
    .ok sequence ∧ sequence.val = index + 1 ∧ revision.sequence = sequence.val
  kind : (readEnum RevisionKind.name [.offer, .answer, .rollback] (get "type")
    s!"{path}.type" : Result RevisionKind) = .ok revision.kind
  actor : (readEnum Actor.name [.localActor, .remote] (get "actor")
    s!"{path}.actor" : Result Actor) = .ok revision.actor
  generation : ∃ generation, (readInteger (get "generation") s!"{path}.generation" 0 65535 :
    Result _) = .ok generation ∧ revision.generation = generation.val
  bundle : uniqueTokens (get "bundleMids") s!"{path}.bundleMids" 64 = .ok revision.bundleMids
  media : ∃ items, get "media" = .list items ∧
    (revision.kind = .rollback → (get "sdpHash" matches .null) = true ∧ revision.bundleMids = [] ∧ items = [] ∧
      revision.sdpHash = none) ∧
    (revision.kind ≠ .rollback → items ≠ [] ∧ items.length ≤ limits.maxMSections ∧
      readItems (readSection limits.maxCodecsPerSection limits.maxExtmapsPerSection)
        s!"{path}.media" 0 items = .ok revision.media ∧
      ∃ digest, (readDigest (get "sdpHash") s!"{path}.sdpHash" : Result Text) = .ok digest ∧
        revision.sdpHash = some digest)

theorem readRevision_ok {limits : Limits} {index : Nat} {value : JsonValue} {revision : Revision} :
    readRevision limits index value = .ok revision ↔ ∃ d : JsonDict, value = .dict d ∧
      (exactKeys d s!"$.revisions[{index}]" revisionKeys : Result Unit) = .ok () ∧
      RevisionRead limits index s!"$.revisions[{index}]" d.find revision := by
  unfold readRevision
  simp only [bind_ok, readObject_ok, readArray_ok, require_ok, decide_eq_true_eq]
  constructor
  · rintro ⟨d, object, _, keys, sequence, sequence', _, contiguous, kind, kind', actor, actor', generation, generation',
      bundle, bundle', items, list, rest⟩
    refine ⟨d, object, keys, ?_⟩
    by_cases rolls : kind = .rollback
    · rw [dif_pos rolls] at rest
      simp only [bind_ok, require_ok, pure_ok, Bool.and_eq_true, List.isEmpty_iff] at rest
      obtain ⟨_, ⟨⟨null, empty⟩, none⟩, rfl⟩ := rest
      exact ⟨⟨sequence, sequence', contiguous, rfl⟩, kind', actor', ⟨generation, generation', rfl⟩, empty ▸ bundle',
        ⟨items, list, fun _ => ⟨null, rfl, none, rfl⟩, fun other => absurd rolls other⟩⟩
    · rw [dif_neg rolls] at rest
      simp only [bind_ok, require_ok, Bool.and_eq_true, Bool.not_eq_true', List.isEmpty_eq_false_iff,
        decide_eq_true_eq] at rest
      obtain ⟨digest, digest', _, ⟨some, few⟩, sections, sections', rest⟩ := rest
      split at rest
      · obtain rfl := pure_ok.mp rest
        exact ⟨⟨sequence, sequence', contiguous, rfl⟩, kind', actor', ⟨generation, generation', rfl⟩, bundle',
          ⟨items, list, fun rollback => absurd rollback rolls, fun _ => ⟨some, few, sections', digest, digest', rfl⟩⟩⟩
      · exact absurd rest not_reject
  · rintro ⟨d, object, keys, read⟩
    obtain ⟨sequence, sequence', contiguous, same⟩ := read.sequence
    obtain ⟨generation, generation', same'⟩ := read.generation
    obtain ⟨items, list, rolled, described⟩ := read.media
    refine ⟨d, object, (), keys, sequence, sequence', (), contiguous, _, read.kind, _, read.actor, generation,
      generation', _, read.bundle, items, list, ?_⟩
    obtain ⟨number, kind, actor, generation_, hash, bundle, media, unique, bare⟩ := revision
    dsimp only at same same' rolled described ⊢
    by_cases rolls : kind = .rollback
    · rw [dif_pos rolls]
      obtain ⟨null, rfl, rfl, rfl⟩ := rolled rolls
      obtain rfl := bare rolls
      simp only [bind_ok, require_ok, pure_ok, Bool.and_eq_true, List.isEmpty_iff]
      refine ⟨(), ⟨⟨null, trivial⟩, trivial⟩, ?_⟩
      subst same same'
      rfl
    · rw [dif_neg rolls]
      obtain ⟨some, few, sections, digest, digest', rfl⟩ := described rolls
      simp only [bind_ok, require_ok, Bool.and_eq_true, Bool.not_eq_true', List.isEmpty_eq_false_iff,
        decide_eq_true_eq]
      refine ⟨digest, digest', (), ⟨some, few⟩, media, sections, ?_⟩
      rw [dif_pos unique]
      subst same same'
      rfl

end fields

section edited

theorem exactKeys_edit {ε : Type} [Rejects ε] {d : JsonDict} {key : Text} {f : JsonValue → JsonValue} {path : String}
    {required : List Text} : (exactKeys (d.edit key f) path required : Except (Raised ε) Unit) =
      exactKeys d path required := by
  simp only [exactKeys, JsonDict.contains_edit, JsonDict.keys_edit]

theorem exactKeys_contains {ε : Type} [Rejects ε] {d : JsonDict} {path : String} {required : List Text}
    (exact_ : (exactKeys d path required : Except (Raised ε) Unit) = .ok ()) {key : Text} (listed : key ∈ required) :
    d.contains key = true := by
  obtain ⟨_, missing, -⟩ := bind_ok.mp exact_
  rw [require_ok, List.isEmpty_iff, List.filter_eq_nil_iff] at missing
  simpa using missing key listed

variable {limits : Limits}

theorem readRevisions_ok {start : Nat} {items : List JsonValue} {revisions : List Revision} :
    readRevisions limits start items = .ok revisions ↔ items.length = revisions.length ∧
      ∀ (i : Nat) (item : JsonValue) (revision : Revision), items[i]? = some item → revisions[i]? = some revision →
        readRevision limits (start + i) item = .ok revision := by
  induction items generalizing start revisions with
  | nil =>
    rw [readRevisions]
    constructor
    · intro same
      rw [← Except.ok.inj same]
      exact ⟨rfl, nofun⟩
    · rintro ⟨long, -⟩
      rw [List.eq_nil_of_length_eq_zero long.symm]
  | cons first rest ih =>
    rw [readRevisions]
    simp only [bind_ok, pure_ok]
    constructor
    · rintro ⟨revision, head, others, tail, rfl⟩
      obtain ⟨long, each⟩ := ih.mp tail
      refine ⟨congrArg (· + 1) long, fun i item read found found' => ?_⟩
      cases i with
      | zero =>
        obtain rfl := Option.some.inj found
        obtain rfl := Option.some.inj found'
        exact head
      | succ i =>
        have := each i item read found found'
        rwa [Nat.add_right_comm] at this
    · rintro ⟨long, each⟩
      cases revisions with
      | nil => cases long
      | cons revision others =>
        refine ⟨revision, each 0 first revision rfl rfl, others, ih.mpr ⟨Nat.succ.inj long, ?_⟩, rfl⟩
        intro i item read found found'
        have := each (i + 1) item read found found'
        rwa [← Nat.add_assoc, Nat.add_right_comm] at this

def transcriptKeys : List Text := ["apiVersion", "networkActivity", "revisions"]

/-- What the values under the keys of a transcript are read as. -/
structure TranscriptRead (policy : Policy) (get : Text → JsonValue) (transcript : Transcript) : Prop where
  version : (get "apiVersion").isText transcriptVersion = true
  activity : (readBoolean (get "networkActivity") "$.networkActivity" : Result Bool) = .ok transcript.networkActivity
  revisions : ∃ items, get "revisions" = .list items ∧ items.length ≤ policy.negotiation.maxRevisions ∧
    readRevisions policy.limits 0 items = .ok transcript.revisions

theorem validateTranscript_ok {policyDocument document : JsonValue} {policy : Policy} {transcript : Transcript}
    (valid : validatePolicy policyDocument = .ok policy) :
    validateTranscript document policyDocument = .ok transcript ↔ ∃ d : JsonDict, document = .dict d ∧
      (exactKeys d "$" transcriptKeys : Result Unit) = .ok () ∧ TranscriptRead policy d.find transcript := by
  unfold validateTranscript
  rw [valid, ok_bind]
  simp only [bind_ok, readObject_ok, readArray_ok, require_ok, pure_ok, decide_eq_true_eq]
  constructor
  · rintro ⟨d, object, _, keys, _, version, activity, activity', items, list, _, few, revisions, revisions', rfl⟩
    exact ⟨d, object, keys, version, activity', items, list, few, revisions'⟩
  · rintro ⟨d, object, keys, read⟩
    obtain ⟨items, list, few, revisions⟩ := read.revisions
    exact ⟨d, object, (), keys, (), read.version, _, read.activity, items, list, (), few, _, revisions, rfl⟩

/-- A transcript with other revisions is read where those are. -/
theorem editRevisions_ok {policyDocument document : JsonValue} {policy : Policy} {transcript : Transcript}
    (valid : validatePolicy policyDocument = .ok policy)
    (accepted : validateTranscript document policyDocument = .ok transcript) :
    ∃ items, readRevisions policy.limits 0 items = .ok transcript.revisions ∧
      items.length ≤ policy.negotiation.maxRevisions ∧ ∀ (f : List JsonValue → List JsonValue) (other : Transcript),
        validateTranscript (JsonValue.editKey "revisions" (JsonValue.editItems f) document) policyDocument = .ok other ↔
          other.networkActivity = transcript.networkActivity ∧
            (f items).length ≤ policy.negotiation.maxRevisions ∧
              readRevisions policy.limits 0 (f items) = .ok other.revisions := by
  obtain ⟨d, rfl, keys, read⟩ := (validateTranscript_ok valid).mp accepted
  obtain ⟨items, list, few, revisions⟩ := read.revisions
  refine ⟨items, revisions, few, fun f other => ?_⟩
  have present : d.contains "revisions" = true := exactKeys_contains keys (by decide)
  have edited : (d.edit "revisions" (JsonValue.editItems f)).find "revisions" = .list (f items) := by
    rw [JsonDict.find_edit_self present, list]
    rfl
  have version : (d.edit "revisions" (JsonValue.editItems f)).find "apiVersion" = d.find "apiVersion" :=
    JsonDict.find_edit_other (by decide)
  have activity : (d.edit "revisions" (JsonValue.editItems f)).find "networkActivity" = d.find "networkActivity" :=
    JsonDict.find_edit_other (by decide)
  rw [JsonValue.editKey, validateTranscript_ok valid]
  constructor
  · rintro ⟨d', same, -, read'⟩
    obtain rfl := JsonValue.dict.inj same
    obtain ⟨items', list', few', revisions'⟩ := read'.revisions
    rw [edited] at list'
    obtain rfl := JsonValue.list.inj list'
    have flag := read'.activity
    rw [activity, read.activity] at flag
    exact ⟨(Except.ok.inj flag).symm, few', revisions'⟩
  · rintro ⟨flag, few', revisions'⟩
    refine ⟨_, rfl, exactKeys_edit.trans keys, ?_, ?_, ⟨_, edited, few', revisions'⟩⟩
    · rw [version]
      exact read.version
    · rw [activity, flag]
      exact read.activity

end edited

end Sippycup.Webrtc.Sdp

/-! The path of a value is in the errors alone: a value that is read in one place of a transcript is read in
another. -/
namespace Sippycup.Webrtc.Sdp
open Sippycup.Python

/-- What is read does not depend on the path. -/
def PathFree {α : Type} (read : JsonValue → String → Result α) : Prop :=
  ∀ value path path' a, read value path = .ok a → read value path' = .ok a

section readers
variable {α : Type} {value : JsonValue} {path : String}

theorem PathFree.of_iff {read : JsonValue → String → Result α} {holds : JsonValue → α → Prop}
    (reads : ∀ value path a, read value path = .ok a ↔ holds value a) : PathFree read :=
  fun _ _ _ _ found => (reads _ _ _).mpr ((reads _ _ _).mp found)

theorem guard_ok {holds : Prop} [Decidable holds] {a b : α} {message : String} :
    (if holds then .ok a else reject message : Result α) = .ok b ↔ holds ∧ a = b := by
  by_cases known : holds
  · rw [if_pos known]
    exact ⟨fun same => ⟨known, Except.ok.inj same⟩, fun ⟨_, same⟩ => congrArg _ same⟩
  · rw [if_neg known]
    exact ⟨fun impossible => absurd impossible not_reject, fun ⟨impossible, _⟩ => absurd impossible known⟩

theorem readToken_ok {t : Text} : (readToken value path : Result Text) = .ok t ↔ value = .str t ∧ tokenOk t = true := by
  unfold readToken
  cases value with
  | str text =>
    rw [guard_ok, JsonValue.str.injEq]
    constructor
    · rintro ⟨fine, rfl⟩
      exact ⟨rfl, fine⟩
    · rintro ⟨rfl, fine⟩
      exact ⟨fine, rfl⟩
  | _ => simp

theorem readDigest_ok {t : Text} : (readDigest value path : Result Text) = .ok t ↔ value = .str t ∧ sha256Ok t = true := by
  unfold readDigest
  cases value with
  | str text =>
    rw [guard_ok, JsonValue.str.injEq]
    constructor
    · rintro ⟨fine, rfl⟩
      exact ⟨rfl, fine⟩
    · rintro ⟨rfl, fine⟩
      exact ⟨fine, rfl⟩
  | _ => simp

theorem readBounded_ok {t : Text} {maximum : Nat} : (readBounded value path maximum : Result Text) = .ok t ↔
    value = .str t ∧ 1 ≤ t.length ∧ t.length ≤ maximum := by
  unfold readBounded
  cases value with
  | str text =>
    rw [guard_ok, JsonValue.str.injEq]
    constructor
    · rintro ⟨fine, rfl⟩
      exact ⟨rfl, fine⟩
    · rintro ⟨rfl, fine⟩
      exact ⟨fine, rfl⟩
  | _ => simp

theorem readBoolean_ok {b : Bool} : (readBoolean value path : Result Bool) = .ok b ↔ value = .bool b := by
  unfold readBoolean
  cases value <;> simp

theorem readInteger_ok {minimum maximum : Nat} {n : {n : Nat // minimum ≤ n ∧ n ≤ maximum}} :
    (readInteger value path minimum maximum : Result _) = .ok n ↔ value = .int (.ofNat n.val) := by
  unfold readInteger
  cases value with
  | int i =>
    cases i with
    | ofNat m =>
      dsimp only
      rw [JsonValue.int.injEq, Int.ofNat.injEq]
      split
      · rename_i fine
        rw [Except.ok.injEq, Subtype.ext_iff]
      · rename_i fine
        constructor
        · exact fun impossible => absurd impossible not_reject
        · rintro rfl
          exact absurd n.property fine
    | negSucc m => simp
  | _ => simp

theorem readEnum_ok {κ : Type} {name : κ → Text} {allowed : List κ} {k : κ} :
    (readEnum name allowed value path : Result κ) = .ok k ↔
      allowed.find? (fun member => value.isText (name member)) = some k := by
  unfold readEnum
  cases allowed.find? fun member => value.isText (name member) with
  | none => simp
  | some member => simp

theorem pathFree_token : PathFree readToken := .of_iff fun _ _ _ => readToken_ok

theorem pathFree_digest : PathFree readDigest := .of_iff fun _ _ _ => readDigest_ok

theorem pathFree_bounded (maximum : Nat) : PathFree fun value path => readBounded value path maximum :=
  .of_iff fun _ _ _ => readBounded_ok

theorem pathFree_boolean : PathFree readBoolean := .of_iff fun _ _ _ => readBoolean_ok

theorem pathFree_integer (minimum maximum : Nat) : PathFree fun value path => readInteger value path minimum maximum :=
  .of_iff fun _ _ _ => readInteger_ok

theorem pathFree_enum {κ : Type} (name : κ → Text) (allowed : List κ) : PathFree (readEnum name allowed) :=
  .of_iff fun _ _ _ => readEnum_ok

theorem exactKeys_path {d : JsonDict} {required : List Text} (path' : String)
    (keys : (exactKeys d path required : Result Unit) = .ok ()) : (exactKeys d path' required : Result Unit) = .ok () := by
  obtain ⟨_, missing, extra⟩ := bind_ok.mp keys
  exact bind_ok.mpr ⟨(), require_ok.2 (require_ok.1 missing), require_ok.2 (require_ok.1 extra)⟩

/-- The items of an array, each read somewhere. -/
theorem readItems_ok {read : JsonValue → String → Result α} (free : PathFree read) {index : Nat} {items : List JsonValue}
    {results : List α} : readItems read path index items = .ok results ↔
      List.Forall₂ (fun item result => ∃ at_, read item at_ = .ok result) items results := by
  refine ⟨readItems_forall₂, fun each => ?_⟩
  induction each generalizing index with
  | nil => rfl
  | cons head _ ih =>
    obtain ⟨at_, found⟩ := head
    rw [readItems, free _ at_ _ _ found, ok_bind, ih, ok_bind]
    rfl

theorem readItems_path {read : JsonValue → String → Result α} (free : PathFree read) {index : Nat} {items : List JsonValue}
    {results : List α} (path' : String) (index' : Nat) (found : readItems read path index items = .ok results) :
    readItems read path' index' items = .ok results :=
  (readItems_ok free).mpr ((readItems_ok free).mp found)

theorem uniqueTokens_ok {maximum : Nat} {tokens : List Text} : uniqueTokens value path maximum = .ok tokens ↔
    ∃ items, value = .list items ∧ items.length ≤ maximum ∧
      List.Forall₂ (fun item token => ∃ at_, (readToken item at_ : Result Text) = .ok token) items tokens ∧ tokens.Nodup := by
  unfold uniqueTokens readTokens
  simp only [bind_ok, readArray_ok, require_ok, pure_ok, decide_eq_true_eq, readItems_ok pathFree_token]
  constructor
  · rintro ⟨items, list, _, few, tokens, each, _, distinct, rfl⟩
    exact ⟨items, list, few, each, distinct⟩
  · rintro ⟨items, list, few, each, distinct⟩
    exact ⟨items, list, (), few, tokens, each, (), distinct, rfl⟩

theorem pathFree_tokens (maximum : Nat) : PathFree fun value path => uniqueTokens value path maximum :=
  .of_iff fun _ _ _ => uniqueTokens_ok

end readers

section parts
variable {maxCodecs maxExtmaps : Nat}

theorem pathFree_codec : PathFree readCodec := by
  intro value path path' codec found
  obtain ⟨d, object, keys, read⟩ := readCodec_ok.1 found
  obtain ⟨payload, payload', samePayload⟩ := read.payloadType
  obtain ⟨rate, rate', sameRate⟩ := read.clockRate
  obtain ⟨channels, channels', sameChannels⟩ := read.channels
  obtain ⟨items, list, few, feedback, distinct⟩ := read.feedback
  exact readCodec_ok.2 ⟨d, object, exactKeys_path _ keys,
    ⟨payload, pathFree_integer _ _ _ _ _ _ payload', samePayload⟩, pathFree_token _ _ _ _ read.name,
    ⟨rate, pathFree_integer _ _ _ _ _ _ rate', sameRate⟩,
    ⟨channels, pathFree_integer _ _ _ _ _ _ channels', sameChannels⟩,
    ⟨items, list, few, readItems_path (pathFree_bounded 128) _ _ feedback, distinct⟩⟩

theorem pathFree_extmap : PathFree readExtmap := by
  intro value path path' extmap found
  simp only [readExtmap, bind_ok, pure_ok] at found ⊢
  obtain ⟨d, object, _, keys, id, id', uri, uri', direction, direction', same⟩ := found
  exact ⟨d, readObject_ok.mpr (readObject_ok.mp object), (), exactKeys_path _ keys, id, pathFree_integer _ _ _ _ _ _ id',
    uri, pathFree_bounded _ _ _ _ _ uri', direction, pathFree_enum _ _ _ _ _ _ direction', same⟩

theorem pathFree_fingerprint : PathFree readFingerprint := by
  intro value path path' fingerprint found
  unfold readFingerprint at found ⊢
  split at found
  · exact found
  · simp only [bind_ok, pure_ok] at found ⊢
    obtain ⟨d, object, _, keys, algorithm, algorithm', digest, digest', same⟩ := found
    exact ⟨d, readObject_ok.mpr (readObject_ok.mp object), (), exactKeys_path _ keys, algorithm,
      pathFree_enum _ _ _ _ _ _ algorithm', digest, pathFree_digest _ _ _ _ digest', same⟩

theorem pathFree_section : PathFree (readSection maxCodecs maxExtmaps) := by
  intro value path path' sect found
  obtain ⟨d, object, keys, read⟩ := readSection_ok.1 found
  obtain ⟨port, port', same⟩ := read.port
  obtain ⟨items, list, few, codecs, distinct⟩ := read.codecs
  obtain ⟨extitems, extlist, extfew, extmaps, extdistinct⟩ := read.extmaps
  exact readSection_ok.2 ⟨d, object, exactKeys_path _ keys, pathFree_token _ _ _ _ read.mid,
    pathFree_enum _ _ _ _ _ _ read.kind, pathFree_token _ _ _ _ read.protocol,
    ⟨port, pathFree_integer _ _ _ _ _ _ port', same⟩, pathFree_enum _ _ _ _ _ _ read.direction,
    pathFree_boolean _ _ _ _ read.rtcpMux, pathFree_digest _ _ _ _ read.ufrag, pathFree_digest _ _ _ _ read.pwd,
    pathFree_tokens _ _ _ _ _ read.options, pathFree_boolean _ _ _ _ read.ended,
    pathFree_fingerprint _ _ _ _ read.fingerprint, pathFree_enum _ _ _ _ _ _ read.setup,
    ⟨items, list, few, readItems_path pathFree_codec _ _ codecs, distinct⟩,
    ⟨extitems, extlist, extfew, readItems_path pathFree_extmap _ _ extmaps, extdistinct⟩⟩

/-- A revision is read at another place under the number of that place. -/
theorem readRevision_at {limits : Limits} {index : Nat} {value : JsonValue} {revision : Revision}
    (found : readRevision limits index value = .ok revision) (place : Nat) (few : place < 1000000) :
    readRevision limits place (JsonValue.setKey "sequence" (.int (.ofNat (place + 1))) value) =
      .ok { revision with sequence := place + 1 } := by
  obtain ⟨d, rfl, keys, read⟩ := readRevision_ok.1 found
  obtain ⟨generation, generation', same⟩ := read.generation
  obtain ⟨items, list, rolled, described⟩ := read.media
  refine readRevision_ok.2 ⟨_, rfl, exactKeys_edit.trans (exactKeys_path _ keys), ?_⟩
  rw [find_edit (exactKeys_contains keys (by decide))]
  refine ⟨⟨⟨place + 1, by omega⟩, readInteger_ok.2 rfl, rfl, rfl⟩, pathFree_enum _ _ _ _ _ _ read.kind,
    pathFree_enum _ _ _ _ _ _ read.actor, ⟨generation, pathFree_integer _ _ _ _ _ _ generation', same⟩,
    pathFree_tokens _ _ _ _ _ read.bundle, items, list, rolled, fun other => ?_⟩
  obtain ⟨some, few, sections, digest, digest', hash⟩ := described other
  exact ⟨some, few, readItems_path pathFree_section _ _ sections, digest, pathFree_digest _ _ _ _ digest', hash⟩

end parts

end Sippycup.Webrtc.Sdp
