import Sippycup.Machine.Pointwise
import Sippycup.Media.Sdp

/-! What an SDP text says of its audio: where the section stands among the lines,
the address and port it connects to, and the payload types it offers. The parser
gives no more than that. -/
namespace Sippycup.Media
open Sippycup.Python Sippycup.Ip Sippycup.Machine

/-- The single audio section: its media line, and the lines after it up to the next media line. -/
structure AudioSection (lines : List Codes) (media : Codes) (section_ : List Codes) : Prop where
  named : isAudio media = true
  inside : ∀ line ∈ section_, isMedia line = false
  around : ∃ before after, lines = before ++ media :: section_ ++ after ∧
    (∀ line ∈ before, isAudio line = false) ∧ (∀ line ∈ after, isAudio line = false) ∧
      ∀ line ∈ after.head?, isMedia line = true

/-- The connection line that holds for a section: its own last one, or where it has none the
last one before any media line. -/
def ConnectionLine (lines section_ : List Codes) (line : Codes) : Prop :=
  (section_.filter isConnection).getLast? = some line ∨
    (∀ other ∈ section_, isConnection other = false) ∧
      ((lines.takeWhile fun other => !isMedia other).filter isConnection).getLast? = some line

/-- The line connects to the address, of the version that it declares. -/
def ConnectsTo (line : Codes) (address : Address) : Prop :=
  ∃ value, parseAddress value = some address ∧
    (line = Text.codes "c=IN IP4 " ++ value ∧ address.version = 4 ∨
      line = Text.codes "c=IN IP6 " ++ value ∧ address.version = 6)

/-- The connection address and the port of the audio section of an SDP text. -/
def Endpoint (unicode : Unicode) (raw address : Text) (port : Nat) : Prop :=
  ∃ media section_, AudioSection (sdpLines raw) media section_ ∧
    (∃ line found, ConnectionLine (sdpLines raw) section_ line ∧ ConnectsTo line found ∧ address = found.text) ∧
      ∃ word, (words (media.drop 2))[1]? = some word ∧ number unicode word = some port

/-- The payload type is on the audio media line, and the section maps it to the encoding, by
a line of its own or as a static type, and to no other. -/
def Offers (unicode : Unicode) (raw : Text) (payloadType : Nat) (name : Text) (rate : Nat) : Prop :=
  ∃ media section_, AudioSection (sdpLines raw) media section_ ∧
    (∃ word ∈ (words (media.drop 2)).drop 3, number unicode word = some payloadType) ∧
      ((∃ line ∈ section_, rtpmap unicode line = some (payloadType, name, rate)) ∨
        (payloadType, name, rate) ∈ staticMappings) ∧
          ∀ line ∈ section_, ∀ mapping, rtpmap unicode line = some (payloadType, mapping) → mapping = (name, rate)

section lines
variable {lines : List Codes} {scan : Scan}

theorem isMedia_of_isAudio {line : Codes} (audio : isAudio line = true) : isMedia line = true := by
  have start : Text.codes "m=" <+: Text.codes "m=audio " := by decide
  exact List.isPrefixOf_iff_prefix.mpr (start.trans (List.isPrefixOf_iff_prefix.mp audio))

theorem not_audio {line : Codes} (other : isMedia line = false) : isAudio line = false := by
  by_contra audio
  rw [isMedia_of_isAudio (Bool.eq_true_of_not_eq_false audio)] at other
  cases other

/-- A media line and the lines of its section. -/
def IsSection (lines : List Codes) : Prop :=
  ∃ media rest, lines = media :: rest ∧ isMedia media = true ∧ ∀ line ∈ rest, isMedia line = false

/-- The scan of some lines: those before the first media line, and the sections. -/
structure Scanned (lines : List Codes) (scan : Scan) (head : List Codes) : Prop where
  split : lines = head ++ scan.sections.flatten
  plain : ∀ line ∈ head, isMedia line = false
  connection : scan.connection = (head.filter isConnection).getLast?
  sections : ∀ group ∈ scan.sections, IsSection group

/-- One more line is scanned. -/
theorem step_scanned {head : List Codes} {line : Codes} (scanned : Scanned lines scan head) :
    ∃ next, Scanned (lines ++ [line]) (scan.step line) next := by
  unfold Scan.step
  split
  · rename_i media
    refine ⟨head, ?_, scanned.plain, scanned.connection, ?_⟩
    · rw [List.flatten_append, scanned.split, List.append_assoc]
      rfl
    · refine List.forall_mem_append.mpr ⟨scanned.sections, List.forall_mem_singleton.mpr ?_⟩
      exact ⟨line, [], rfl, media, nofun⟩
  · rename_i other
    have plain := Bool.eq_false_iff.mpr other
    split
    · rename_i current last
      have parts := List.dropLast_append_getLast? current last
      have sections := scanned.sections
      rw [← parts] at sections
      obtain ⟨earlier, here⟩ := List.forall_mem_append.mp sections
      obtain ⟨media, rest, rfl, named, inside⟩ := here current List.mem_cons_self
      refine ⟨head, ?_, scanned.plain, scanned.connection, ?_⟩
      · rw [scanned.split]
        conv_lhs => rw [← parts]
        simp
      · refine List.forall_mem_append.mpr ⟨earlier, List.forall_mem_singleton.mpr ?_⟩
        exact ⟨media, rest ++ [line], rfl, named,
          List.forall_mem_append.mpr ⟨inside, List.forall_mem_singleton.mpr plain⟩⟩
    · rename_i none_
      have empty := List.getLast?_eq_none_iff.mp none_
      have whole : lines = head := by
        rw [scanned.split, empty, List.flatten_nil, List.append_nil]
      refine ⟨head ++ [line], ?_, ?_, ?_, ?_⟩
      · split
        · simp [whole, empty]
        · simp [whole, empty]
      · exact List.forall_mem_append.mpr ⟨scanned.plain, List.forall_mem_singleton.mpr plain⟩
      · split
        · rename_i connects
          simp [List.filter_append, connects]
        · rename_i connects
          simp [List.filter_append, connects, scanned.connection]
      · split
        · exact scanned.sections
        · exact scanned.sections

theorem scanLines_scanned (lines : List Codes) : ∃ head, Scanned lines (scanLines lines) head := by
  induction lines using List.reverseRecOn with
  | nil => exact ⟨[], rfl, nofun, rfl, nofun⟩
  | append_singleton lines line ih =>
    obtain ⟨head, scanned⟩ := ih
    rw [scanLines, List.foldl_concat]
    exact step_scanned scanned

/-- Sections without a media line of their own for audio hold none at all. -/
theorem flatten_quiet {groups : List (List Codes)} (sections : ∀ group ∈ groups, IsSection group)
    (quiet : ∀ group ∈ groups, group.head?.any isAudio = false) :
    ∀ line ∈ groups.flatten, isAudio line = false := by
  intro line member
  obtain ⟨group, among, inside⟩ := List.mem_flatten.mp member
  obtain ⟨media, rest, rfl, -, plain⟩ := sections group among
  rcases List.mem_cons.mp inside with rfl | later
  · exact quiet _ among
  · exact not_audio (plain line later)

theorem flatten_head {groups : List (List Codes)} (sections : ∀ group ∈ groups, IsSection group) :
    ∀ line ∈ groups.flatten.head?, isMedia line = true := by
  cases groups with
  | nil => exact nofun
  | cons group rest =>
    obtain ⟨media, more, rfl, named, -⟩ := sections group List.mem_cons_self
    intro line first
    cases first
    exact named

theorem filter_singleton {α : Type} {p : α → Bool} {xs : List α} {x : α} (only : xs.filter p = [x]) :
    ∃ before after, xs = before ++ x :: after ∧ (∀ y ∈ before, p y = false) ∧ ∀ y ∈ after, p y = false := by
  obtain ⟨before, after, rfl, quiet, here, rest⟩ := List.filter_eq_cons_iff.mp only
  refine ⟨before, after, rfl, fun y member => Bool.eq_false_iff.mpr (quiet y member), fun y member => ?_⟩
  exact Bool.eq_false_iff.mpr (List.filter_eq_nil_iff.mp rest y member)

theorem takeWhile_head {head rest : List Codes} (plain : ∀ line ∈ head, isMedia line = false)
    (stop : ∀ line ∈ rest.head?, isMedia line = true) :
    (head ++ rest).takeWhile (fun line => !isMedia line) = head := by
  rw [List.takeWhile_append_of_pos fun line member => by rw [plain line member]; rfl]
  cases rest with
  | nil => exact List.append_nil head
  | cons line more =>
    rw [List.takeWhile_cons_of_neg (by rw [stop line rfl]; decide), List.append_nil]

/-- The one audio section that the scan finds, and the lines of the session. -/
theorem audio_section {head : List Codes} {media : Codes} {section_ : List Codes}
    (scanned : Scanned lines scan head) (only : scan.audio = [media :: section_]) :
    AudioSection lines media section_ ∧ lines.takeWhile (fun line => !isMedia line) = head := by
  obtain ⟨before, after, groups, quiet, others⟩ := filter_singleton only
  have sections := scanned.sections
  have named : isAudio media = true :=
    (List.mem_filter.mp (only.symm ▸ List.mem_cons_self : media :: section_ ∈ scan.audio)).2
  have whole := scanned.split
  have stop := flatten_head sections
  rw [groups] at sections whole
  obtain ⟨earlier, rest⟩ := List.forall_mem_append.mp sections
  obtain ⟨here, later⟩ := List.forall_mem_cons.mp rest
  obtain ⟨_, _, same, -, inside⟩ := here
  cases same
  refine ⟨⟨named, inside, head ++ before.flatten, after.flatten, ?_, ?_, flatten_quiet later others,
    flatten_head later⟩, ?_⟩
  · rw [whole, List.flatten_append, List.flatten_cons]
    simp
  · refine List.forall_mem_append.mpr ⟨fun line member => not_audio (scanned.plain line member), ?_⟩
    exact flatten_quiet earlier quiet
  · rw [scanned.split]
    exact takeWhile_head scanned.plain stop

/-- The connection line that the parser takes. -/
theorem connection_line {head section_ : List Codes} {line : Codes} (scanned : Scanned lines scan head)
    (session : lines.takeWhile (fun line => !isMedia line) = head)
    (found : connectionOf section_ scan.connection = some line) : ConnectionLine lines section_ line := by
  unfold connectionOf at found
  split at found
  · rename_i own
    exact .inl (own.trans found)
  · rename_i none_
    refine .inr ⟨fun other member => ?_, ?_⟩
    · exact Bool.eq_false_iff.mpr (List.filter_eq_nil_iff.mp (List.getLast?_eq_none_iff.mp none_) other member)
    · rw [session, ← scanned.connection]
      exact found

end lines

section reads
variable {unicode : Unicode} {field : String}

theorem integer_ok {value : JsonValue} {minimum maximum n : Nat}
    (ok : integer value field minimum maximum = .ok n) :
    value = .int n ∧ minimum ≤ n ∧ n ≤ maximum := by
  unfold integer at ok
  split at ok
  · rename_i m
    split at ok
    · cases ok
    · rename_i inside
      cases ok
      refine ⟨?_, by omega, by omega⟩
      rw [Int.toNat_of_nonneg (by omega)]
  · cases ok

theorem integerFromText_ok {codes : Codes} {minimum maximum n : Nat}
    (ok : integerFromText unicode codes field minimum maximum = .ok n) : number unicode codes = some n := by
  unfold integerFromText at ok
  split at ok
  · cases ok
  · rename_i m read
    obtain ⟨same, -, -⟩ := integer_ok ok
    cases same
    exact read

/-- An address that is read stands for itself. -/
theorem literalUnicast_ok {value address : Text} {family : Family}
    (ok : literalUnicast value field = .ok (address, family)) :
    ∃ found, parseAddress value.codes = some found ∧ address = found.text ∧ family = familyOf found := by
  unfold literalUnicast at ok
  split at ok
  · cases ok
  · rename_i found read
    split at ok
    · cases ok
      exact ⟨found, read, rfl, rfl⟩
    · cases ok

/-- Reading the text of an address gives it back. -/
theorem literalUnicast_text {found : Address} {address : Text} {family : Family}
    (ok : literalUnicast found.text field = .ok (address, family)) : address = found.text := by
  obtain ⟨other, read, rfl, -⟩ := literalUnicast_ok ok
  have same : some found = some other := (parseAddress_render found).symm.trans read
  rw [Option.some.inj same]

theorem startsWith_drop {start : String} {line : Codes} (starts : startsWith start line = true) :
    line = Text.codes start ++ line.drop (Text.codes start).length := by
  obtain ⟨rest, rfl⟩ := List.isPrefixOf_iff_prefix.mp starts
  rw [List.drop_left]

theorem connectionParts_some {line value : Codes} {declared : Family}
    (parts : connectionParts line = some (declared, value)) :
    declared = .inet ∧ line = Text.codes "c=IN IP4 " ++ value ∨
      declared = .inet6 ∧ line = Text.codes "c=IN IP6 " ++ value := by
  unfold connectionParts at parts
  dsimp only at parts
  split at parts
  · cases parts
  · split at parts
    · rename_i starts
      cases parts
      exact .inl ⟨rfl, startsWith_drop starts⟩
    · split at parts
      · rename_i starts
        cases parts
        exact .inr ⟨rfl, startsWith_drop starts⟩
      · cases parts

theorem version_of_family (address : Address) :
    (familyOf address = .inet → address.version = 4) ∧ (familyOf address = .inet6 → address.version = 6) := by
  cases address with
  | v4 ip => exact ⟨fun _ => rfl, nofun⟩
  | v6 ip scope => exact ⟨nofun, fun _ => rfl⟩

theorem parseConnection_ok {line : Codes} {address : Text} {family : Family}
    (ok : parseConnection line field = .ok (address, family)) :
    ∃ found, ConnectsTo line found ∧ address = found.text := by
  unfold parseConnection at ok
  split at ok
  · cases ok
  · rename_i declared value parts
    obtain ⟨⟨text, read⟩, unicast, ok⟩ := bind_ok.mp ok
    obtain ⟨found, parsed, rfl, rfl⟩ := literalUnicast_ok unicast
    dsimp only at ok
    split at ok
    · cases ok
    · rename_i agrees
      cases ok
      refine ⟨found, ⟨value, parsed, ?_⟩, rfl⟩
      have declares := connectionParts_some parts
      rw [← not_not.mp agrees] at declares
      rcases declares with ⟨family, line⟩ | ⟨family, line⟩
      · exact .inl ⟨line, (version_of_family found).1 family⟩
      · exact .inr ⟨line, (version_of_family found).2 family⟩

theorem readConnection_ok {connection : Option Codes} {address : Text}
    (ok : readConnection connection field = .ok address) :
    ∃ line found, connection = some line ∧ ConnectsTo line found ∧ address = found.text := by
  unfold readConnection at ok
  split at ok
  · cases ok
  · rename_i line
    obtain ⟨⟨text, family⟩, parsed, ok⟩ := bind_ok.mp ok
    cases ok
    obtain ⟨found, connects, same⟩ := parseConnection_ok parsed
    exact ⟨line, found, rfl, connects, same⟩

theorem parseMedia_ok {line : Codes} {media : MediaLine} (ok : parseMedia unicode line field = .ok media) :
    (∃ word, (words (line.drop 2))[1]? = some word ∧ number unicode word = some media.port) ∧
      ∀ payloadType ∈ media.payloadIds,
        ∃ word ∈ (words (line.drop 2)).drop 3, number unicode word = some payloadType := by
  unfold parseMedia at ok
  split at ok
  · rename_i kind port protocol first more found
    split at ok
    · cases ok
    split at ok
    · cases ok
    obtain ⟨read, ported, ok⟩ := bind_ok.mp ok
    dsimp only at ok
    split at ok
    · cases ok
    obtain ⟨payloadIds, listed, ok⟩ := bind_ok.mp ok
    split at ok
    · cases ok
    cases ok
    rw [found]
    refine ⟨⟨port, rfl, integerFromText_ok ported⟩, fun payloadType member => ?_⟩
    obtain ⟨word, among, read⟩ := forall₂_mem_left (mapM_ok listed) payloadType member
    exact ⟨word, among, integerFromText_ok read⟩
  · cases ok

end reads

/-- What the mappings know after some lines: every one of the lines, and else only static types. -/
structure Mapped (unicode : Unicode) (lines : List Codes) (mappings : Mappings) : Prop where
  read : ∀ line ∈ lines, ∀ payloadType mapping, rtpmap unicode line = some (payloadType, mapping) →
    mappings.lookup payloadType = some mapping
  known : ∀ payloadType mapping, mappings.lookup payloadType = some mapping →
    (∃ line ∈ lines, rtpmap unicode line = some (payloadType, mapping)) ∨ (payloadType, mapping) ∈ staticMappings

section mappings
variable {unicode : Unicode} {field : String} {payloadIds : List Nat}

theorem lookup_other {mappings : Mappings} {mapping : Text × Nat} {first second : Nat} (differ : first ≠ second) :
    List.lookup first ((second, mapping) :: mappings) = mappings.lookup first := by
  rw [List.lookup_cons, beq_eq_false_iff_ne.mpr differ]

/-- A line adds its own mapping, which agrees with those before. -/
theorem addMapping_mapped {lines : List Codes} {line : Codes} {mappings next : Mappings}
    (mapped : Mapped unicode lines mappings)
    (ok : addMapping unicode payloadIds field mappings line = .ok next) : Mapped unicode (lines ++ [line]) next := by
  unfold addMapping at ok
  split at ok
  · rename_i none_
    cases ok
    refine ⟨List.forall_mem_append.mpr ⟨mapped.read, List.forall_mem_singleton.mpr ?_⟩, fun pt mapping found => ?_⟩
    · intro pt mapping other
      rw [none_] at other
      cases other
    · exact (mapped.known pt mapping found).imp
        (fun ⟨line, member, read⟩ => ⟨line, List.mem_append_left _ member, read⟩) id
  · rename_i payload mapping read
    obtain ⟨payloadType, bounded, ok⟩ := bind_ok.mp ok
    obtain ⟨same, -, -⟩ := integer_ok bounded
    cases same
    split at ok
    · cases ok
    split at ok
    · cases ok
    rename_i agrees
    cases ok
    have old : ∀ other, mappings.lookup payload = some other → other = mapping := by
      intro other found
      by_contra differs
      exact agrees (by rw [found]; exact decide_eq_true differs)
    refine ⟨List.forall_mem_append.mpr ⟨fun line member pt other read => ?_, List.forall_mem_singleton.mpr ?_⟩,
      fun pt other found => ?_⟩
    · have found := mapped.read line member pt other read
      by_cases same : pt = payload
      · subst same
        rw [old other found]
        exact List.lookup_cons_self
      · rw [lookup_other same]
        exact found
    · intro pt other again
      rw [read] at again
      cases again
      exact List.lookup_cons_self
    · by_cases same : pt = payload
      · subst same
        rw [List.lookup_cons_self] at found
        cases found
        exact .inl ⟨line, List.mem_append_right _ List.mem_cons_self, read⟩
      · rw [lookup_other same] at found
        exact (mapped.known pt other found).imp
          (fun ⟨line, member, read⟩ => ⟨line, List.mem_append_left _ member, read⟩) id

theorem foldlM_mapped {before lines : List Codes} {mappings final : Mappings} (mapped : Mapped unicode before mappings)
    (ok : lines.foldlM (addMapping unicode payloadIds field) mappings = .ok final) :
    Mapped unicode (before ++ lines) final := by
  induction lines generalizing before mappings with
  | nil =>
    cases ok
    rwa [List.append_nil]
  | cons line rest ih =>
    rw [List.foldlM_cons] at ok
    obtain ⟨next, first, ok⟩ := bind_ok.mp ok
    have later := ih (addMapping_mapped mapped first) ok
    rwa [List.append_assoc] at later

theorem static_mapped : Mapped unicode [] staticMappings := by
  refine ⟨nofun, fun payloadType mapping found => .inr ?_⟩
  obtain ⟨before, after, whole, -⟩ := List.lookup_eq_some_iff.mp found
  rw [whole]
  exact List.mem_append_right _ List.mem_cons_self

end mappings

/-- What the parser reads of an SDP text is there. -/
structure ReadsAudio (unicode : Unicode) (raw : Text) (audio : SdpAudio) : Prop where
  endpoint : Endpoint unicode raw audio.address audio.port
  literal : ∃ found : Address, audio.address = found.text
  offers : ∀ payloadType name rate, (payloadType, name, rate) ∈ audio.payloads →
    Offers unicode raw payloadType name rate

theorem boundedLines_ok {unicode : Unicode} {raw : Text} {field : String} {lines : List Codes}
    (ok : boundedLines unicode raw field = .ok lines) : lines = sdpLines raw := by
  unfold boundedLines at ok
  split at ok
  · cases ok
  · dsimp only at ok
    repeat (split at ok; · cases ok)
    cases ok
    rfl

/-- The parser reads the audio section of the text. -/
theorem parseSdp_reads {unicode : Unicode} {raw : Text} {field : String} {audio : SdpAudio}
    (ok : parseSdp unicode raw field = .ok audio) : ReadsAudio unicode raw audio := by
  obtain ⟨lines, bounded, ok⟩ := bind_ok.mp ok
  obtain rfl := boundedLines_ok bounded
  dsimp only at ok
  split at ok
  · rename_i media section_ only
    obtain ⟨parsed, read, ok⟩ := bind_ok.mp ok
    obtain ⟨address, connected, ok⟩ := bind_ok.mp ok
    obtain ⟨mappings, folded, ok⟩ := bind_ok.mp ok
    obtain ⟨_, -, ok⟩ := bind_ok.mp ok
    cases ok
    obtain ⟨head, scanned⟩ := scanLines_scanned (sdpLines raw)
    obtain ⟨audio, session⟩ := audio_section scanned only
    obtain ⟨line, found, taken, connects, rfl⟩ := readConnection_ok connected
    obtain ⟨port, listed⟩ := parseMedia_ok read
    have mapped := foldlM_mapped static_mapped folded
    refine ⟨⟨media, section_, audio, ⟨line, found, connection_line scanned session taken, connects, rfl⟩, port⟩,
      ⟨found, rfl⟩, fun payloadType name rate member => ⟨media, section_, audio, ?_⟩⟩
    obtain ⟨other, among, mapping⟩ := List.mem_filterMap.mp member
    obtain ⟨_, looked, same⟩ := Option.map_eq_some_iff.mp mapping
    cases same
    refine ⟨listed payloadType among, mapped.known payloadType _ looked, fun line inside mapping there => ?_⟩
    exact Option.some.inj ((mapped.read line inside payloadType mapping there).symm.trans looked)
  · cases ok

end Sippycup.Media
