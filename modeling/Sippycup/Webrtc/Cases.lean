import Sippycup.Webrtc.SdpFields
import Sippycup.Webrtc.Standing

/-! Generated cases of a transcript: single and paired edits of one section or of the bundle. Every edit
leaves a transcript that is read again, but for a payload type that another codec of the section has. -/
namespace Sippycup.Webrtc.Sdp
open Sippycup.Python

abbrev Edit := JsonValue → JsonValue

/-- `item["revisions"][index]` -/
def editRevision (index : Nat) (edit : Edit) : Edit := JsonValue.editKey "revisions" (JsonValue.editItem index edit)

/-- `item["revisions"][index]["media"][0]` -/
def editSection (index : Nat) (edit : Edit) : Edit :=
  editRevision index (JsonValue.editKey "media" (JsonValue.editItem 0 edit))

/-- `section_change` -/
def sectionChange (index : Nat) (key : Text) (value : JsonValue) : Edit := editSection index (JsonValue.setKey key value)

/-- The codec that is put into a section without codecs. -/
def unknownCodec : JsonValue :=
  .dict [JsonDict.entry "payloadType" (.int 127), JsonDict.entry "name" (.str "unknown"),
    JsonDict.entry "clockRate" (.int 8000), JsonDict.entry "channels" (.int 1), JsonDict.entry "rtcpFeedback" (.list [])]

def unofferedPayload : Edit
  | .list [] => .list [unknownCodec]
  | codecs => JsonValue.editItem 0 (JsonValue.setKey "payloadType" (.int 127)) codecs

structure Mutation where
  identifier : String
  edit : Edit

/-- The places of the revisions with sections, of one kind or of any. -/
def describedAt (revisions : List Revision) (wanted : RevisionKind → Bool) : Option Nat :=
  revisions.findIdx? fun revision => wanted revision.kind && !revision.media.isEmpty

/-- `_mutations` -/
def mutations (transcript : Transcript) : List Mutation :=
  match describedAt transcript.revisions (· ≠ .rollback) with
  | none => []
  | some first =>
    [⟨"bundle.drop-mid", editRevision first (JsonValue.setKey "bundleMids" (.list []))⟩,
      ⟨"rtcp-mux.disable", sectionChange first "rtcpMux" (.bool false)⟩,
      ⟨"trickle.remove", sectionChange first "iceOptions" (.list [])⟩,
      ⟨"fingerprint.remove", sectionChange first "fingerprint" .null⟩,
      ⟨"codec.remove", sectionChange first "codecs" (.list [])⟩,
      ⟨"setup.holdconn", sectionChange first "setup" (.str "holdconn")⟩] ++
    match describedAt transcript.revisions (· = .answer) with
    | none => []
    | some answer =>
      [⟨"answer.direction-expand", fun item =>
          sectionChange answer "direction" (.str "sendonly") (sectionChange first "direction" (.str "sendonly") item)⟩,
        ⟨"answer.codec-not-offered", editSection answer (JsonValue.editKey "codecs" unofferedPayload)⟩,
        ⟨"answer.end-of-candidates.remove", sectionChange answer "endOfCandidates" (.bool false)⟩]

/-- `itertools.combinations(items, 2)` -/
@[grind =] def pairsOf {α : Type} : List α → List (List α)
  | [] => []
  | item :: rest => rest.map (fun other => [item, other]) ++ pairsOf rest

structure Case where
  id : Text
  mutations : List String
  transcript : JsonValue

def casesVersion : Text := "sippycup.dev/sdp-cases/v1"

structure Cases where
  apiVersion : Text := casesVersion
  networkActivity : Bool := false
  strategy : String := "deterministic-single-and-pairwise"
  cases : List Case
  truncated : Bool

section generate
variable (digest : JsonValue → Text)

def caseOf (document : JsonValue) (selected : List Mutation) : Case :=
  let candidate := selected.foldl (fun item mutation => mutation.edit item) document
  ⟨digest candidate, selected.map Mutation.identifier, candidate⟩

/-- `generate_cases`; `digest` is the start of the hash of the canonical text. -/
def generateCases (policyDocument transcriptDocument : JsonValue) : Result Cases := do
  let policy ← validatePolicy policyDocument
  let transcript ← validateTranscript transcriptDocument policyDocument
  let singles := mutations transcript
  let combinations := singles.map (fun mutation => [mutation]) ++ pairsOf singles
  let cases := (combinations.take policy.limits.maxGeneratedCases).map (caseOf digest transcriptDocument)
  return { cases, truncated := decide (cases.length < combinations.length) }

end generate

section edits
variable {limits : Limits} {policyDocument document : JsonValue} {policy : Policy} {transcript : Transcript}
  {index : Nat} {revision : Revision}

theorem readRevisions_modify {items : List JsonValue} {revisions : List Revision} {item : JsonValue}
    (read : readRevisions limits 0 items = .ok revisions) (found : items[index]? = some item) (edit : Edit) (others : List Revision) :
    readRevisions limits 0 (items.modify index edit) = .ok others ↔ ∃ changed,
      readRevision limits index (edit item) = .ok changed ∧ others = revisions.set index changed := by
  obtain ⟨long, each⟩ := readRevisions_ok.mp read
  have inside : index < items.length := (List.getElem?_eq_some_iff.mp found).1
  have there : (items.modify index edit)[index]? = some (edit item) := by
    rw [List.getElem?_modify_eq, found]
    rfl
  rw [readRevisions_ok, List.length_modify]
  constructor
  · rintro ⟨long', each'⟩
    obtain ⟨changed, at_⟩ : ∃ changed, others[index]? = some changed := by
      rw [← Option.isSome_iff_exists, isSome_getElem?]
      omega
    have read' := each' index _ changed there at_
    rw [Nat.zero_add] at read'
    refine ⟨changed, read', List.ext_getElem? fun j => ?_⟩
    by_cases same : index = j
    · subst same
      rw [at_, List.getElem?_set_self (by omega)]
    · rw [List.getElem?_set_ne same]
      cases here : items[j]? with
      | none =>
        have beyond := List.getElem?_eq_none_iff.mp here
        rw [List.getElem?_eq_none (by omega), List.getElem?_eq_none (by omega)]
      | some other =>
        have within : j < items.length := (List.getElem?_eq_some_iff.mp here).1
        have own := each j other _ here (List.getElem?_eq_getElem (long ▸ within))
        have kept : (items.modify index edit)[j]? = some other := by rw [List.getElem?_modify_ne _ _ same, here]
        have new := each' j other _ kept (List.getElem?_eq_getElem (long' ▸ within))
        rw [List.getElem?_eq_getElem (show j < others.length by omega),
          List.getElem?_eq_getElem (show j < revisions.length by omega)]
        exact congrArg some (Except.ok.inj (new.symm.trans own))
  · rintro ⟨changed, read', rfl⟩
    refine ⟨by rw [List.length_set, long], fun j other known here at_ => ?_⟩
    by_cases same : index = j
    · subst same
      rw [there] at here
      rw [List.getElem?_set_self (by omega)] at at_
      rw [← Option.some.inj here, ← Option.some.inj at_, Nat.zero_add]
      exact read'
    · rw [List.getElem?_modify_ne _ _ same] at here
      rw [List.getElem?_set_ne same] at at_
      exact each j other known here at_

/-- A transcript with one edited revision is read where that revision is. -/
theorem editRevision_ok (valid : validatePolicy policyDocument = .ok policy)
    (accepted : validateTranscript document policyDocument = .ok transcript)
    (at_ : transcript.revisions[index]? = some revision) : ∃ d : JsonDict,
      (exactKeys d s!"$.revisions[{index}]" revisionKeys : Result Unit) = .ok () ∧
      RevisionRead policy.limits index s!"$.revisions[{index}]" d.find revision ∧
      ∀ (edit : Edit) (other : Transcript),
        validateTranscript (editRevision index edit document) policyDocument = .ok other ↔
          ∃ changed, readRevision policy.limits index (edit (.dict d)) = .ok changed ∧
            other.networkActivity = transcript.networkActivity ∧
            other.revisions = transcript.revisions.set index changed := by
  obtain ⟨items, read, few, edited⟩ := editRevisions_ok valid accepted
  obtain ⟨long, each⟩ := readRevisions_ok.mp read
  have inside : index < items.length := long ▸ (List.getElem?_eq_some_iff.mp at_).1
  have found := List.getElem?_eq_getElem inside
  have own := each index _ revision found at_
  rw [Nat.zero_add] at own
  obtain ⟨d, object, keys, fields⟩ := readRevision_ok.1 own
  refine ⟨d, keys, fields, fun edit other => ?_⟩
  have modified := readRevisions_modify read found edit other.revisions
  rw [object] at modified
  refine (edited _ other).trans ?_
  rw [List.length_modify, modified]
  constructor
  · rintro ⟨flag, -, changed, read', same⟩
    exact ⟨changed, read', flag, same⟩
  · rintro ⟨changed, read', flag, same⟩
    exact ⟨flag, few, changed, read', same⟩

/-- A revision with an edited first section is read where that section is, if its mid stays. -/
theorem editMedia_ok {d : JsonDict} (keys : (exactKeys d s!"$.revisions[{index}]" revisionKeys : Result Unit) = .ok ())
    (read : RevisionRead limits index s!"$.revisions[{index}]" d.find revision) (described : revision.kind ≠ .rollback) :
    ∃ (path : String) (first : JsonDict) (sect : Section) (rest : List Section), revision.media = sect :: rest ∧
      (exactKeys first path sectionKeys : Result Unit) = .ok () ∧
      SectionRead limits.maxCodecsPerSection limits.maxExtmapsPerSection path first.find sect ∧
      ∀ edit : Edit,
        (∀ changed, readRevision limits index (JsonValue.editKey "media" (JsonValue.editItem 0 edit) (.dict d)) =
            .ok changed → ∃ sect', readSection limits.maxCodecsPerSection limits.maxExtmapsPerSection
              (edit (.dict first)) path = .ok sect') ∧
        ∀ sect', readSection limits.maxCodecsPerSection limits.maxExtmapsPerSection (edit (.dict first)) path =
            .ok sect' → sect'.mid = sect.mid → ∃ changed,
          readRevision limits index (JsonValue.editKey "media" (JsonValue.editItem 0 edit) (.dict d)) = .ok changed ∧
            changed.kind = revision.kind ∧ changed.media = sect' :: rest := by
  obtain ⟨items, list, -, sections⟩ := read.media
  obtain ⟨some, few, media, digest, digest', hash⟩ := sections described
  obtain ⟨item, others, rfl⟩ := List.exists_cons_of_ne_nil some
  obtain ⟨sect, head, media⟩ := bind_ok.mp media
  obtain ⟨rest, tail, same⟩ := bind_ok.mp media
  have split : revision.media = sect :: rest := (pure_ok.mp same).symm
  obtain ⟨first, rfl, firstKeys, fields⟩ := readSection_ok.1 head
  refine ⟨_, first, sect, rest, split, firstKeys, fields, fun edit => ?_⟩
  have present : d.contains "media" = true := exactKeys_contains keys (by decide)
  have edited : (d.edit "media" (JsonValue.editItem 0 edit)).find "media" = .list (edit (.dict first) :: others) := by
    rw [JsonDict.find_edit_self present, list]
    rfl
  have kept {name : Text} (other : name ≠ "media") :
      (d.edit "media" (JsonValue.editItem 0 edit)).find name = d.find name := JsonDict.find_edit_other other
  constructor
  · intro changed changed_eq
    obtain ⟨d', same', -, read'⟩ := readRevision_ok.1 changed_eq
    obtain rfl := JsonValue.dict.inj same'
    have kind := read'.kind
    rw [kept (by decide), read.kind] at kind
    obtain ⟨items', list', -, sections'⟩ := read'.media
    rw [edited] at list'
    obtain rfl := JsonValue.list.inj list'
    obtain ⟨-, -, media', -⟩ := sections' (Except.ok.inj kind ▸ described)
    obtain ⟨sect', head', -⟩ := bind_ok.mp media'
    exact ⟨sect', head'⟩
  · intro sect' head' mid
    have unique : ((sect' :: rest).map Section.mid).Nodup := by
      have unique := revision.unique
      rw [split, List.map_cons] at unique
      rw [List.map_cons, mid]
      exact unique
    refine ⟨{ revision with media := sect' :: rest, unique, bare := fun rolls => absurd rolls described },
      readRevision_ok.2 ⟨_, rfl, exactKeys_edit.trans keys, ?_⟩, rfl, rfl⟩
    refine ⟨?_, ?_, ?_, ?_, ?_, _, edited, fun rolls => absurd rolls described, fun _ =>
      ⟨List.cons_ne_nil _ _, few, ?_, digest, ?_, hash⟩⟩
    · rw [kept (by decide)]
      exact read.sequence
    · rw [kept (by decide)]
      exact read.kind
    · rw [kept (by decide)]
      exact read.actor
    · rw [kept (by decide)]
      exact read.generation
    · rw [kept (by decide)]
      exact read.bundle
    · rw [readItems, head', ok_bind, tail, ok_bind]
      rfl
    · rw [kept (by decide)]
      exact digest'

/-- A transcript with an edited first section is read where that section is, if its mid stays. -/
theorem editSection_ok (valid : validatePolicy policyDocument = .ok policy)
    (accepted : validateTranscript document policyDocument = .ok transcript)
    (at_ : transcript.revisions[index]? = some revision) (described : revision.kind ≠ .rollback) :
    ∃ (path : String) (first : JsonDict) (sect : Section) (rest : List Section), revision.media = sect :: rest ∧
      (exactKeys first path sectionKeys : Result Unit) = .ok () ∧
      SectionRead policy.limits.maxCodecsPerSection policy.limits.maxExtmapsPerSection path first.find sect ∧
      ∀ edit : Edit,
        (∀ other, validateTranscript (editSection index edit document) policyDocument = .ok other →
          ∃ sect', readSection policy.limits.maxCodecsPerSection policy.limits.maxExtmapsPerSection
            (edit (.dict first)) path = .ok sect') ∧
        ∀ sect', readSection policy.limits.maxCodecsPerSection policy.limits.maxExtmapsPerSection
            (edit (.dict first)) path = .ok sect' → sect'.mid = sect.mid → ∃ other changed,
          validateTranscript (editSection index edit document) policyDocument = .ok other ∧
            other.revisions = transcript.revisions.set index changed ∧ changed.kind = revision.kind ∧
              changed.media = sect' :: rest := by
  obtain ⟨d, keys, read, edited⟩ := editRevision_ok valid accepted at_
  obtain ⟨path, first, sect, rest, split, firstKeys, fields, within⟩ := editMedia_ok keys read described
  refine ⟨path, first, sect, rest, split, firstKeys, fields, fun edit => ⟨fun other accepted' => ?_, ?_⟩⟩
  · obtain ⟨changed, read', -⟩ := (edited _ other).mp accepted'
    exact (within edit).1 changed read'
  · intro sect' read' mid
    obtain ⟨changed, changed_eq, kind, media⟩ := (within edit).2 sect' read' mid
    exact ⟨⟨transcript.networkActivity, transcript.revisions.set index changed⟩, changed,
      (edited _ _).mpr ⟨changed, changed_eq, rfl, rfl⟩, rfl, kind, media⟩

end edits

section harmless
variable {policyDocument : JsonValue} {policy : Policy} {kinds : List RevisionKind} {answer : Option Nat} {index : Nat}

def kindsOf (revisions : List Revision) : List RevisionKind := revisions.map Revision.kind

/-- No codec but the first of the answer's first section has the payload type that is put in. -/
def Free (answer : Option Nat) (revisions : List Revision) : Prop :=
  ∀ index revision sect rest, answer = some index → revisions[index]? = some revision →
    revision.media = sect :: rest → 127 ∉ sect.codecs.tail.map Codec.payloadType

/-- An edit whose result is read, with the same kinds of revisions. -/
def Harmless (policyDocument : JsonValue) (kinds : List RevisionKind) (answer : Option Nat) (edit : Edit) : Prop :=
  ∀ document transcript, validateTranscript document policyDocument = .ok transcript →
    kindsOf transcript.revisions = kinds → ∃ other, validateTranscript (edit document) policyDocument = .ok other ∧
      kindsOf other.revisions = kinds ∧ (Free answer transcript.revisions → Free answer other.revisions)

theorem revision_at {revisions : List Revision} {kind : RevisionKind} (same : kindsOf revisions = kinds)
    (at_ : kinds[index]? = some kind) : ∃ revision, revisions[index]? = some revision ∧ revision.kind = kind := by
  rw [← same, kindsOf, List.getElem?_map, Option.map_eq_some_iff] at at_
  exact at_

theorem kindsOf_set {revisions : List Revision} {revision changed : Revision} (same : kindsOf revisions = kinds)
    (at_ : revisions[index]? = some revision) (kind : changed.kind = revision.kind) :
    kindsOf (revisions.set index changed) = kinds := by
  obtain ⟨inside, -⟩ := List.getElem?_eq_some_iff.mp at_
  rw [← same, kindsOf, kindsOf, List.map_set]
  refine List.ext_getElem? fun j => ?_
  by_cases here : index = j
  · subst here
    rw [List.getElem?_set_self (by rwa [List.length_map]), List.getElem?_map, at_, kind]
    rfl
  · rw [List.getElem?_set_ne here]

/-- An edit of the first section that keeps its mid, and adds no codec after the first. -/
theorem editSection_harmless {kind : RevisionKind} {edit : Edit} (valid : validatePolicy policyDocument = .ok policy)
    (at_ : kinds[index]? = some kind) (described : kind ≠ .rollback)
    (reads : ∀ (path : String) (d : JsonDict) (sect : Section), (exactKeys d path sectionKeys : Result Unit) = .ok () →
      SectionRead policy.limits.maxCodecsPerSection policy.limits.maxExtmapsPerSection path d.find sect →
      ∃ sect', readSection policy.limits.maxCodecsPerSection policy.limits.maxExtmapsPerSection (edit (.dict d)) path =
        .ok sect' ∧ sect'.mid = sect.mid ∧ sect'.codecs.tail ⊆ sect.codecs.tail) :
    Harmless policyDocument kinds answer (editSection index edit) := by
  intro document transcript accepted same
  obtain ⟨revision, found, rfl⟩ := revision_at same at_
  obtain ⟨path, first, sect, rest, split, keys, fields, edited⟩ := editSection_ok valid accepted found described
  obtain ⟨sect', read, mid, tail⟩ := reads path first sect keys fields
  obtain ⟨other, changed, accepted', revisions, kind, media⟩ := (edited edit).2 sect' read mid
  refine ⟨other, accepted', ?_, ?_⟩
  · rw [revisions]
    exact kindsOf_set same found kind
  · intro free place revision' head others answers at_ media'
    rw [revisions] at at_
    by_cases here : index = place
    · subst here
      rw [List.getElem?_set_self (List.getElem?_eq_some_iff.mp found).1] at at_
      obtain rfl := Option.some.inj at_
      obtain ⟨rfl, -⟩ := List.cons.inj (media.symm.trans media')
      exact fun used => free index revision sect rest answers found split (List.map_subset _ tail used)
    · rw [List.getElem?_set_ne here] at at_
      exact free place revision' head others answers at_ media'

theorem sectionChange_harmless {kind : RevisionKind} {key : Text} {value : JsonValue}
    (valid : validatePolicy policyDocument = .ok policy) (at_ : kinds[index]? = some kind) (described : kind ≠ .rollback)
    (listed : key ∈ sectionKeys)
    (reads : ∀ (maxCodecs maxExtmaps : Nat) (path : String) (get : Text → JsonValue) (sect : Section),
      SectionRead maxCodecs maxExtmaps path get sect → ∃ sect',
        SectionRead maxCodecs maxExtmaps path (updated get key value) sect' ∧ sect'.mid = sect.mid ∧
          sect'.codecs.tail ⊆ sect.codecs.tail) :
    Harmless policyDocument kinds answer (sectionChange index key value) := by
  refine editSection_harmless valid at_ described fun path d sect keys read => ?_
  obtain ⟨sect', read', kept⟩ := reads _ _ path d.find sect read
  refine ⟨sect', readSection_ok.2 ⟨_, rfl, exactKeys_edit.trans keys, ?_⟩, kept⟩
  rw [find_edit (exactKeys_contains keys listed)]
  exact read'

theorem Harmless.comp {first second : Edit} (harmless : Harmless policyDocument kinds answer first)
    (harmless' : Harmless policyDocument kinds answer second) :
    Harmless policyDocument kinds answer fun item => second (first item) := by
  intro document transcript accepted same
  obtain ⟨other, accepted', same', free⟩ := harmless document transcript accepted same
  obtain ⟨last, accepted'', same'', free'⟩ := harmless' _ other accepted' same'
  exact ⟨last, accepted'', same'', fun clear => free' (free clear)⟩

theorem bundle_harmless {kind : RevisionKind} (valid : validatePolicy policyDocument = .ok policy)
    (at_ : kinds[index]? = some kind) :
    Harmless policyDocument kinds answer (editRevision index (JsonValue.setKey "bundleMids" (.list []))) := by
  intro document transcript accepted same
  obtain ⟨revision, found, rfl⟩ := revision_at same at_
  obtain ⟨d, keys, read, edited⟩ := editRevision_ok valid accepted found
  have emptied : RevisionRead policy.limits index s!"$.revisions[{index}]" (updated d.find "bundleMids" (.list []))
      { revision with bundleMids := [] } := by
    obtain ⟨items, list, rolled, described⟩ := read.media
    refine { read with bundle := rfl, media := ⟨items, list, fun rolls => ?_, described⟩ }
    obtain ⟨null, -, empty, hash⟩ := rolled rolls
    exact ⟨null, rfl, empty, hash⟩
  have changed : readRevision policy.limits index (JsonValue.setKey "bundleMids" (.list []) (.dict d)) =
      .ok { revision with bundleMids := [] } := by
    refine readRevision_ok.2 ⟨_, rfl, exactKeys_edit.trans keys, ?_⟩
    rw [find_edit (exactKeys_contains keys (by decide))]
    exact emptied
  refine ⟨⟨transcript.networkActivity, transcript.revisions.set index { revision with bundleMids := [] }⟩,
    (edited _ _).mpr ⟨_, changed, rfl, rfl⟩, kindsOf_set same found rfl, ?_⟩
  intro free place revision' head others answers at_' media
  by_cases here : index = place
  · subst here
    rw [List.getElem?_set_self (List.getElem?_eq_some_iff.mp found).1] at at_'
    obtain rfl := Option.some.inj at_'
    exact free index revision head others answers found media
  · rw [List.getElem?_set_ne here] at at_'
    exact free place revision' head others answers at_' media

end harmless

section payload
variable {path : String} {maxCodecs maxExtmaps : Nat}

theorem unknownCodec_read : readCodec unknownCodec path = .ok ⟨127, "unknown", 8000, 1, []⟩ := by
  refine readCodec_ok.2 ⟨_, rfl, rfl, ⟨⟨127, by decide⟩, rfl, rfl⟩, rfl, ⟨⟨8000, by decide⟩, rfl, rfl⟩,
    ⟨⟨1, by decide⟩, rfl, rfl⟩, [], rfl, Nat.zero_le _, rfl, .nil⟩

theorem payload_read {value : JsonValue} {codec : Codec} (read : readCodec value path = .ok codec) :
    readCodec (JsonValue.setKey "payloadType" (.int 127) value) path = .ok { codec with payloadType := 127 } := by
  obtain ⟨d, rfl, keys, fields⟩ := readCodec_ok.1 read
  refine readCodec_ok.2 ⟨_, rfl, exactKeys_edit.trans keys, ?_⟩
  rw [find_edit (exactKeys_contains keys (by decide))]
  exact { fields with payloadType := ⟨⟨127, by decide⟩, rfl, rfl⟩ }

/-- The codecs with the payload type put in: the first codec has it, or a codec of its own. -/
theorem unoffered_read {items : List JsonValue} {codecs : List Codec} (few : items.length ≤ maxCodecs)
    (room : 1 ≤ maxCodecs) (read : readItems readCodec path 0 items = .ok codecs) : ∃ edited first,
      unofferedPayload (.list items) = .list edited ∧ edited.length ≤ maxCodecs ∧
        readItems readCodec path 0 edited = .ok (first :: codecs.tail) ∧ first.payloadType = 127 := by
  cases items with
  | nil =>
    cases read
    refine ⟨[unknownCodec], ⟨127, "unknown", 8000, 1, []⟩, rfl, room, ?_, rfl⟩
    rw [readItems, unknownCodec_read]
    rfl
  | cons item rest =>
    obtain ⟨codec, head, read⟩ := bind_ok.mp read
    obtain ⟨others, tail, same⟩ := bind_ok.mp read
    obtain rfl := pure_ok.mp same
    refine ⟨JsonValue.setKey "payloadType" (.int 127) item :: rest, { codec with payloadType := 127 }, rfl, few, ?_, rfl⟩
    rw [readItems, payload_read head, ok_bind, tail]
    rfl

/-- The section with the payload type put in is read where no other codec has it. -/
theorem unofferedSection_read {d : JsonDict} {sect : Section} (room : 1 ≤ maxCodecs)
    (keys : (exactKeys d path sectionKeys : Result Unit) = .ok ())
    (read : SectionRead maxCodecs maxExtmaps path d.find sect) :
    (∀ sect', readSection maxCodecs maxExtmaps (JsonValue.editKey "codecs" unofferedPayload (.dict d)) path = .ok sect' →
      127 ∉ sect.codecs.tail.map Codec.payloadType) ∧
    (127 ∉ sect.codecs.tail.map Codec.payloadType → ∃ sect',
      readSection maxCodecs maxExtmaps (JsonValue.editKey "codecs" unofferedPayload (.dict d)) path = .ok sect' ∧
        sect'.mid = sect.mid ∧ sect'.codecs.tail = sect.codecs.tail) := by
  obtain ⟨items, list, few, codecs, distinct⟩ := read.codecs
  obtain ⟨edited, first, edited_eq, few', codecs', payload⟩ := unoffered_read few room codecs
  have found : (d.edit "codecs" unofferedPayload).find = updated d.find "codecs" (.list edited) := by
    rw [find_edit (exactKeys_contains keys (by decide)), list, edited_eq]
  have types : (first :: sect.codecs.tail).map Codec.payloadType = 127 :: sect.codecs.tail.map Codec.payloadType := by
    rw [List.map_cons, payload]
  constructor
  · intro sect' read'
    obtain ⟨d', same, -, fields⟩ := readSection_ok.1 read'
    obtain rfl := JsonValue.dict.inj same
    rw [found] at fields
    obtain ⟨items', list', -, codecs'', distinct'⟩ := fields.codecs
    obtain rfl : edited = items' := JsonValue.list.inj list'
    rw [Except.ok.inj (codecs''.symm.trans codecs'), types] at distinct'
    exact (List.nodup_cons.mp distinct').1
  · intro free
    have distinct' : ((first :: sect.codecs.tail).map Codec.payloadType).Nodup := by
      rw [types]
      refine List.nodup_cons.mpr ⟨free, ?_⟩
      exact distinct.sublist ((List.tail_sublist _).map _)
    refine ⟨{ sect with codecs := first :: sect.codecs.tail }, readSection_ok.2 ⟨_, rfl, exactKeys_edit.trans keys, ?_⟩,
      rfl, rfl⟩
    rw [found]
    exact { read with codecs := ⟨edited, rfl, few', codecs', distinct'⟩ }

theorem maxCodecs_pos {policyDocument : JsonValue} {policy : Policy} (valid : validatePolicy policyDocument = .ok policy) :
    1 ≤ policy.limits.maxCodecsPerSection := by
  simp only [validatePolicy, bind_ok, pure_ok] at valid
  obtain ⟨d, -, _, -, _, -, media, -, ice, -, dtls, -, negotiation, -, limits, read, rfl⟩ := valid
  simp only [readLimits, bind_ok, pure_ok] at read
  obtain ⟨_, -, _, -, sections, -, codecs, ⟨count, -, rfl⟩, extmaps, -, generated, -, rfl⟩ := read
  exact count.property.1

end payload

section generated
variable {policyDocument : JsonValue} {policy : Policy} {transcript : Transcript}

theorem describedAt_kind {revisions : List Revision} {wanted : RevisionKind → Bool} {index : Nat}
    (found : describedAt revisions wanted = some index) :
    ∃ kind, (kindsOf revisions)[index]? = some kind ∧ wanted kind = true := by
  obtain ⟨inside, holds, -⟩ := List.findIdx?_eq_some_iff_getElem.mp found
  refine ⟨revisions[index].kind, ?_, ?_⟩
  · rw [kindsOf, List.getElem?_map, List.getElem?_eq_getElem inside]
    rfl
  · rw [Bool.and_eq_true] at holds
    exact holds.1

/-- The place of the first answer. -/
abbrev answerAt (transcript : Transcript) : Option Nat := describedAt transcript.revisions (· = .answer)

theorem unoffered_harmless {document : JsonValue} {transcript' : Transcript} {index : Nat}
    (valid : validatePolicy policyDocument = .ok policy) (answer : answerAt transcript = some index)
    (accepted : validateTranscript document policyDocument = .ok transcript')
    (same : kindsOf transcript'.revisions = kindsOf transcript.revisions) :
    (∀ other, validateTranscript (editSection index (JsonValue.editKey "codecs" unofferedPayload) document)
      policyDocument = .ok other → Free (answerAt transcript) transcript'.revisions) ∧
    (Free (answerAt transcript) transcript'.revisions → ∃ other,
      validateTranscript (editSection index (JsonValue.editKey "codecs" unofferedPayload) document) policyDocument =
        .ok other ∧ kindsOf other.revisions = kindsOf transcript.revisions ∧
          Free (answerAt transcript) other.revisions) := by
  obtain ⟨kind, at_, wanted⟩ := describedAt_kind answer
  have kind_eq : kind = .answer := by simpa using wanted
  obtain ⟨revision, found, kind'⟩ := revision_at same at_
  have described : revision.kind ≠ .rollback := by
    rw [kind', kind_eq]
    decide
  obtain ⟨path, first, sect, rest, split, keys, fields, edited⟩ := editSection_ok valid accepted found described
  obtain ⟨necessary, sufficient⟩ := unofferedSection_read (maxCodecs_pos valid) keys fields
  obtain ⟨forward, backward⟩ := edited (JsonValue.editKey "codecs" unofferedPayload)
  constructor
  · intro other accepted' place revision' head others answers at_' media
    obtain rfl := Option.some.inj (answer.symm.trans answers)
    obtain rfl := Option.some.inj (found.symm.trans at_')
    obtain ⟨rfl, -⟩ := List.cons.inj (split.symm.trans media)
    obtain ⟨sect', read'⟩ := forward other accepted'
    exact necessary sect' read'
  · intro free
    obtain ⟨sect', read', mid, tail⟩ := sufficient (free index revision sect rest answer found split)
    obtain ⟨other, changed, accepted', revisions, kind'', media⟩ := backward sect' read' mid
    refine ⟨other, accepted', ?_, ?_⟩
    · rw [revisions]
      exact kindsOf_set same found kind''
    · intro place revision' head others answers at_' media'
      obtain rfl := Option.some.inj (answer.symm.trans answers)
      rw [revisions, List.getElem?_set_self (List.getElem?_eq_some_iff.mp found).1] at at_'
      obtain rfl := Option.some.inj at_'
      obtain ⟨rfl, -⟩ := List.cons.inj (media.symm.trans media')
      rw [tail]
      exact free index revision sect rest answer found split

/-- The edits of the first described revision. -/
theorem firstEdits_harmless {first : Nat} (valid : validatePolicy policyDocument = .ok policy)
    (found : describedAt transcript.revisions (· ≠ .rollback) = some first) :
    Harmless policyDocument (kindsOf transcript.revisions) (answerAt transcript)
        (editRevision first (JsonValue.setKey "bundleMids" (.list []))) ∧
      Harmless policyDocument (kindsOf transcript.revisions) (answerAt transcript)
        (sectionChange first "rtcpMux" (.bool false)) ∧
      Harmless policyDocument (kindsOf transcript.revisions) (answerAt transcript)
        (sectionChange first "iceOptions" (.list [])) ∧
      Harmless policyDocument (kindsOf transcript.revisions) (answerAt transcript)
        (sectionChange first "fingerprint" .null) ∧
      Harmless policyDocument (kindsOf transcript.revisions) (answerAt transcript)
        (sectionChange first "codecs" (.list [])) ∧
      Harmless policyDocument (kindsOf transcript.revisions) (answerAt transcript)
        (sectionChange first "setup" (.str "holdconn")) ∧
      Harmless policyDocument (kindsOf transcript.revisions) (answerAt transcript)
        (sectionChange first "direction" (.str "sendonly")) := by
  obtain ⟨kind, at_, wanted⟩ := describedAt_kind found
  have described : kind ≠ .rollback := by simpa using wanted
  refine ⟨bundle_harmless valid at_, ?_, ?_, ?_, ?_, ?_, ?_⟩
  · refine sectionChange_harmless valid at_ described (by decide) fun _ _ _ _ sect read => ?_
    exact ⟨{ sect with rtcpMux := false }, { read with rtcpMux := rfl }, rfl, List.Subset.refl _⟩
  · refine sectionChange_harmless valid at_ described (by decide) fun _ _ _ _ sect read => ?_
    exact ⟨{ sect with iceOptions := [] }, { read with options := rfl }, rfl, List.Subset.refl _⟩
  · refine sectionChange_harmless valid at_ described (by decide) fun _ _ _ _ sect read => ?_
    exact ⟨{ sect with fingerprint := none }, { read with fingerprint := rfl }, rfl, List.Subset.refl _⟩
  · refine sectionChange_harmless valid at_ described (by decide) fun _ _ _ _ sect read => ?_
    exact ⟨{ sect with codecs := [] }, { read with codecs := ⟨[], rfl, Nat.zero_le _, rfl, .nil⟩ }, rfl,
      List.nil_subset _⟩
  · refine sectionChange_harmless valid at_ described (by decide) fun _ _ _ _ sect read => ?_
    exact ⟨{ sect with setup := .holdconn }, { read with setup := rfl }, rfl, List.Subset.refl _⟩
  · refine sectionChange_harmless valid at_ described (by decide) fun _ _ _ _ sect read => ?_
    exact ⟨{ sect with direction := .sendonly }, { read with direction := rfl }, rfl, List.Subset.refl _⟩

theorem answerEdits_harmless {answer : Nat} (valid : validatePolicy policyDocument = .ok policy)
    (found : answerAt transcript = some answer) :
    Harmless policyDocument (kindsOf transcript.revisions) (answerAt transcript)
        (sectionChange answer "direction" (.str "sendonly")) ∧
      Harmless policyDocument (kindsOf transcript.revisions) (answerAt transcript)
        (sectionChange answer "endOfCandidates" (.bool false)) := by
  obtain ⟨kind, at_, wanted⟩ := describedAt_kind found
  have kind_eq : kind = .answer := by simpa using wanted
  have described : kind ≠ .rollback := by
    rw [kind_eq]
    decide
  constructor
  · refine sectionChange_harmless valid at_ described (by decide) fun _ _ _ _ sect read => ?_
    exact ⟨{ sect with direction := .sendonly }, { read with direction := rfl }, rfl, List.Subset.refl _⟩
  · refine sectionChange_harmless valid at_ described (by decide) fun _ _ _ _ sect read => ?_
    exact ⟨{ sect with endOfCandidates := false }, { read with ended := rfl }, rfl, List.Subset.refl _⟩

/-- Every edit is harmless but the eighth, which puts a payload type into the first answer. -/
theorem mutation_harmless (valid : validatePolicy policyDocument = .ok policy) {i : Nat} {mutation : Mutation}
    (at_ : (mutations transcript)[i]? = some mutation) :
    Harmless policyDocument (kindsOf transcript.revisions) (answerAt transcript) mutation.edit ∨
      i = 7 ∧ ∃ index, answerAt transcript = some index ∧
        mutation.edit = editSection index (JsonValue.editKey "codecs" unofferedPayload) := by
  unfold mutations at at_
  cases first : describedAt transcript.revisions (· ≠ .rollback) with
  | none =>
    rw [first] at at_
    cases at_
  | some place =>
    rw [first] at at_
    dsimp only at at_
    obtain ⟨bundle, mux, trickle, fingerprint, codecs, setup, direction⟩ := firstEdits_harmless valid first
    match i, at_ with
    | 0, at_ | 1, at_ | 2, at_ | 3, at_ | 4, at_ | 5, at_ =>
      obtain rfl := Option.some.inj at_
      exact .inl (by assumption)
    | j + 6, at_ =>
      cases answers : describedAt transcript.revisions (· = .answer) with
      | none =>
        rw [answers] at at_
        cases at_
      | some answer =>
        rw [answers] at at_
        obtain ⟨expand, ended⟩ := answerEdits_harmless valid answers
        match j, at_ with
        | 0, at_ =>
          obtain rfl := Option.some.inj at_
          exact .inl (direction.comp expand)
        | 1, at_ =>
          obtain rfl := Option.some.inj at_
          exact .inr ⟨rfl, answer, answers, rfl⟩
        | 2, at_ =>
          obtain rfl := Option.some.inj at_
          exact .inl ended

/-- Where the payload type is free, edits after one another leave a transcript that is read. -/
theorem edits_read (valid : validatePolicy policyDocument = .ok policy) (selected : List Mutation)
    (listed : selected ⊆ mutations transcript) (document : JsonValue) {transcript' : Transcript}
    (accepted : validateTranscript document policyDocument = .ok transcript')
    (same : kindsOf transcript'.revisions = kindsOf transcript.revisions)
    (free : Free (answerAt transcript) transcript'.revisions) : ∃ other,
      validateTranscript (selected.foldl (fun item mutation => mutation.edit item) document) policyDocument =
        .ok other := by
  induction selected generalizing document transcript' with
  | nil => exact ⟨transcript', accepted⟩
  | cons mutation rest ih =>
    obtain ⟨head, rest_listed⟩ := List.cons_subset.mp listed
    obtain ⟨i, at_⟩ := List.mem_iff_getElem?.mp head
    rw [List.foldl_cons]
    obtain harmless | ⟨-, index, answer, edit⟩ := mutation_harmless valid at_
    · obtain ⟨other, accepted', same', free'⟩ := harmless document transcript' accepted same
      exact ih rest_listed _ accepted' same' (free' free)
    · obtain ⟨other, accepted', same', free'⟩ := (unoffered_harmless valid answer accepted same).2 free
      rw [edit]
      exact ih rest_listed _ accepted' same' free'

theorem mem_pairsOf {α : Type} {items pair : List α} (listed : pair ∈ pairsOf items) : pair ⊆ items := by
  induction items with
  | nil => cases listed
  | cons item rest ih =>
    obtain here | later := List.mem_append.mp listed
    · obtain ⟨other, inside, rfl⟩ := List.mem_map.mp here
      exact List.cons_subset.mpr ⟨List.mem_cons_self, List.cons_subset.mpr
        ⟨List.mem_cons_of_mem _ inside, List.nil_subset _⟩⟩
    · exact fun _ inside => List.mem_cons_of_mem _ (ih later inside)

/-- One edit alone, or two. -/
def combinationsOf (singles : List Mutation) : List (List Mutation) :=
  singles.map (fun mutation => [mutation]) ++ pairsOf singles

theorem mem_combinationsOf {singles selected : List Mutation} (listed : selected ∈ combinationsOf singles) :
    selected ⊆ singles := by
  obtain one | two := List.mem_append.mp listed
  · obtain ⟨mutation, inside, rfl⟩ := List.mem_map.mp one
    exact List.cons_subset.mpr ⟨inside, List.nil_subset _⟩
  · exact mem_pairsOf two

/-- The edit that puts a payload type into the first answer. -/
def codecNotOffered (index : Nat) : Mutation :=
  ⟨"answer.codec-not-offered", editSection index (JsonValue.editKey "codecs" unofferedPayload)⟩

theorem mutations_answer {index : Nat} (answer : answerAt transcript = some index) :
    (mutations transcript).length = 9 ∧ (mutations transcript)[7]? = some (codecNotOffered index) := by
  obtain ⟨inside, holds, -⟩ := List.findIdx?_eq_some_iff_getElem.mp answer
  cases first : describedAt transcript.revisions (· ≠ .rollback) with
  | none =>
    rw [Bool.and_eq_true, decide_eq_true_eq] at holds
    have none_ := List.findIdx?_eq_none_iff.mp first _ (List.getElem_mem inside)
    simp [holds.1, holds.2] at none_
  | some place =>
    unfold mutations
    rw [first, show describedAt transcript.revisions (· = .answer) = some index from answer]
    exact ⟨rfl, rfl⟩

theorem combinationsOf_single {singles : List Mutation} {i : Nat} {mutation : Mutation}
    (at_ : singles[i]? = some mutation) : (combinationsOf singles)[i]? = some [mutation] := by
  obtain ⟨inside, -⟩ := List.getElem?_eq_some_iff.mp at_
  rw [combinationsOf, List.getElem?_append_left (by rwa [List.length_map]), List.getElem?_map, at_]
  rfl

end generated

section examples

/-- Room for every single edit but the last. -/
def widePolicy : JsonValue := JsonValue.editKey "limits" (JsonValue.setKey "maxGeneratedCases" (.int 8)) examplePolicy

def dtmfCodec : JsonValue :=
  .dict [JsonDict.entry "payloadType" (.int 127), JsonDict.entry "name" (.str "telephone-event"),
    JsonDict.entry "clockRate" (.int 8000), JsonDict.entry "channels" (.int 1), JsonDict.entry "rtcpFeedback" (.list [])]

/-- Every section has a second codec, with the last payload type. -/
def dtmfTranscript : JsonValue :=
  let second : Edit := JsonValue.editKey "codecs" (JsonValue.editItems fun codecs => codecs ++ [dtmfCodec])
  editSection 0 second (editSection 1 second audioTranscript)

theorem wide_accepted : (validatePolicy widePolicy).isOk = true ∧
    (validateTranscript audioTranscript widePolicy).isOk = true := by decide +kernel

theorem widePolicy_valid : (validatePolicy widePolicy).isOk = true := wide_accepted.1

theorem audioTranscript_wide : (validateTranscript audioTranscript widePolicy).isOk = true := wide_accepted.2

end examples

end Sippycup.Webrtc.Sdp
