import Sippycup.Capture.Records
import Sippycup.Runtime.Document

/-! Removing media payload from a capture: UDP packets of the media ports are cut after
the fixed RTP header, everything else is copied, and a file that is not complete is refused. -/
namespace Sippycup.Capture
open Sippycup.Python
open Sippycup.Runtime (RuntimeError MediaPorts)

/-- The integer of one field of `struct.unpack`, packed again. -/
def Endian.pack (endian : Endian) (n : Nat) : List Nat :=
  let bytes := [n % 256, n / 256 % 256, n / 65536 % 256, n / 16777216 % 256]
  match endian with
  | .little => bytes
  | .big => bytes.reverse

def Record.bytes (endian : Endian) (r : Record) : List Nat :=
  endian.pack r.seconds ++ endian.pack r.fraction ++ endian.pack r.packet.length ++ endian.pack r.original ++ r.packet

/-- `int.from_bytes(packet[at:at + 2], "big")` -/
def shortAt (packet : List Nat) (offset : Nat) : Nat := Endian.big.number ((packet.drop offset).take 2)

def byteAt (packet : List Nat) (offset : Nat) : Nat := (packet[offset]?).getD 0

def isTagged (packet : List Nat) : Bool := decide (shortAt packet 12 = 0x8100 ∧ 18 ≤ packet.length)

def networkOffset (packet : List Nat) : Nat := if isTagged packet then 18 else 14

def etherType (packet : List Nat) : Nat := shortAt packet (if isTagged packet then 16 else 12)

/-- Where the UDP header of an Ethernet frame starts, past one VLAN tag at most. -/
def udpOffset? (packet : List Nat) : Option Nat :=
  let network := networkOffset packet
  if packet.length < 14 then none
  else if etherType packet = 0x0800 ∧ network + 20 ≤ packet.length then
    if byteAt packet (network + 9) ≠ 17 then none else some (network + byteAt packet network % 16 * 4)
  else if etherType packet = 0x86DD ∧ network + 40 ≤ packet.length then
    if byteAt packet (network + 6) ≠ 17 then none else some (network + 40)
  else none

/-- `_media_header_length` -/
def mediaHeaderLength? (mediaPorts : MediaPorts) (signalingPorts : List Nat) (packet : List Nat) : Option Nat := do
  let udp ← udpOffset? packet
  if packet.length < udp + 8 then none
  else
    let source := shortAt packet udp
    let destination := shortAt packet (udp + 2)
    if source ∈ signalingPorts ∨ destination ∈ signalingPorts then none
    -- UDP, and the fixed RTP header of 12 bytes
    else if mediaPorts.start ≤ source ∧ source ≤ mediaPorts.stop ∨
        mediaPorts.start ≤ destination ∧ destination ≤ mediaPorts.stop then
      some (min packet.length (udp + 8 + 12))
    else none

section
variable (mediaPorts : MediaPorts) (signalingPorts : List Nat)

def Record.sanitize (r : Record) : Record :=
  match mediaHeaderLength? mediaPorts signalingPorts r.packet with
  | some keep => { r with packet := r.packet.take keep }
  | none => r

/-- The records of the bytes, which must be complete. -/
@[grind =] def readRecords (endian : Endian) : Nat → List Nat → Except RuntimeError (List Record)
  | 0, _ | _, [] => .ok []
  | bound + 1, bytes =>
    match header? endian bytes with
    | none => .error ⟨"capture record header is truncated"⟩
    | some header =>
      if bytes.length < 16 + header.included then .error ⟨"capture packet is truncated"⟩
      else do
        let others ← readRecords endian bound (bytes.drop (16 + header.included))
        return header.record ((bytes.drop 16).take header.included) :: others

/-- `strip_media_payload`, from the bytes that are read to those that replace them. -/
def stripMediaPayload (raw : List Nat) : Except RuntimeError (List Nat) :=
  if raw.length < 24 then .error ⟨"capture is too short to sanitize"⟩
  else
    match magic? raw with
    | none => .error ⟨"retainPayload=false requires classic PCAP capture"⟩
    | some endian => do
      let records ← readRecords endian raw.length (raw.drop 24)
      return raw.take 24 ++ (records.map (Record.sanitize mediaPorts signalingPorts)).flatMap (Record.bytes endian)

/-- A complete capture without media beyond the headers that are kept. -/
def Stripped (file : List Nat) : Prop :=
  ∃ endian records, endian? file = some endian ∧ Parses endian (file.drop 24) records [] ∧
    ∀ r ∈ records, ∀ keep, mediaHeaderLength? mediaPorts signalingPorts r.packet = some keep → r.packet.length ≤ keep

end

section packing
variable {endian : Endian}

theorem pack_length (n : Nat) : (endian.pack n).length = 4 := by cases endian <;> rfl

theorem number_pack {n : Nat} (small : n < 2 ^ 32) : endian.number (endian.pack n) = n := by
  cases endian <;> simp only [Endian.pack, Endian.number, List.reverse_cons, List.reverse_nil, List.nil_append,
    List.cons_append, List.foldr_cons, List.foldr_nil, List.foldl_cons, List.foldl_nil] <;> omega

theorem number_lt {a b c d : Nat} (octets : ∀ byte ∈ [a, b, c, d], byte < 256) :
    endian.number [a, b, c, d] < 2 ^ 32 := by
  simp only [List.mem_cons, List.not_mem_nil, or_false, forall_eq_or_imp, forall_eq] at octets
  cases endian <;> simp only [Endian.number, List.foldr_cons, List.foldr_nil, List.foldl_cons, List.foldl_nil] <;> omega

/-- What the headers of octets say is a number of four octets. -/
theorem included_lt {bytes : List Nat} {header : Header} (octets : ∀ byte ∈ bytes, byte < 256)
    (found : header? endian bytes = some header) : header.included < 2 ^ 32 := by
  unfold header? at found
  split at found
  · rename_i whole
    cases found
    dsimp only [field]
    obtain ⟨a, b, c, d, four⟩ : ∃ a b c d, (bytes.drop (4 * 2)).take 4 = [a, b, c, d] := by
      have length : ((bytes.drop (4 * 2)).take 4).length = 4 := by
        rw [List.length_take, List.length_drop]
        omega
      exact List.length_eq_four.mp length
    rw [four]
    refine number_lt fun byte member => octets byte ?_
    rw [← four] at member
    exact List.mem_of_mem_drop (List.mem_of_mem_take member)
  · cases found

theorem header?_bytes (r : Record) (small : r.packet.length < 2 ^ 32) (rest : List Nat) :
    ∃ header, header? endian (r.bytes endian ++ rest) = some header ∧ header.included = r.packet.length := by
  have length (n : Nat) : (endian.pack n).length = 4 := pack_length n
  have third : ((r.bytes endian ++ rest).drop (4 * 2)).take 4 = endian.pack r.packet.length := by
    rw [Record.bytes]
    simp only [List.append_assoc]
    rw [← List.append_assoc (endian.pack r.seconds), List.drop_left' (by simp [length]),
      List.take_left' (length _)]
  refine ⟨_, if_pos ?_, ?_⟩
  · simp only [Record.bytes, List.length_append, length]
    omega
  · exact (congrArg endian.number third).trans (number_pack small)

theorem splitRecord_bytes (r : Record) (small : r.packet.length < 2 ^ 32) (rest : List Nat) :
    ∃ other : Record, splitRecord endian (r.bytes endian ++ rest) = some (other, rest) ∧ other.packet = r.packet := by
  obtain ⟨header, found, included⟩ := header?_bytes r small rest
  have length (n : Nat) : (endian.pack n).length = 4 := pack_length n
  have size : (r.bytes endian).length = 16 + r.packet.length := by
    simp only [Record.bytes, List.length_append, length]
  have packet : ((r.bytes endian ++ rest).drop 16).take r.packet.length = r.packet := by
    rw [Record.bytes, List.append_assoc, List.drop_left' (by simp [length]), List.take_left' rfl]
  refine ⟨header.record r.packet, ?_, rfl⟩
  rw [splitRecord, found]
  dsimp only
  rw [if_neg (by rw [List.length_append, size, included]; omega), included, packet, List.drop_left' size]

/-- What is written parses as records with the packets that were written. -/
theorem parses_bytes {records : List Record} (small : ∀ r ∈ records, r.packet.length < 2 ^ 32) :
    ∃ others, Parses endian (records.flatMap (Record.bytes endian)) others [] ∧
      others.map Record.packet = records.map Record.packet := by
  induction records with
  | nil => exact ⟨[], .nil, rfl⟩
  | cons r rest ih =>
    obtain ⟨first, later⟩ := List.forall_mem_cons.mp small
    obtain ⟨others, parsed, same⟩ := ih later
    obtain ⟨other, split, packet⟩ := @splitRecord_bytes endian r first (rest.flatMap (Record.bytes endian))
    exact ⟨other :: others, .cons split parsed, by rw [List.map_cons, List.map_cons, packet, same]⟩

end packing

section sanitizing
variable {mediaPorts : MediaPorts} {signalingPorts : List Nat} {packet : List Nat}

theorem shortAt_take {offset n : Nat} (inside : offset + 2 ≤ n) : shortAt (packet.take n) offset = shortAt packet offset := by
  rw [shortAt, shortAt, List.drop_take, List.take_take, Nat.min_eq_left (by omega)]

theorem byteAt_take {offset n : Nat} (inside : offset < n) : byteAt (packet.take n) offset = byteAt packet offset := by
  rw [byteAt, byteAt, List.getElem?_take_of_lt inside]

theorem networkOffset_le {udp : Nat} (found : udpOffset? packet = some udp) : networkOffset packet ≤ udp := by
  unfold udpOffset? at found
  dsimp only at found
  split at found
  · cases found
  split at found
  · split at found
    · cases found
    · cases found
      exact Nat.le_add_right _ _
  split at found
  · split at found
    · cases found
    · cases found
      exact Nat.le_add_right _ _
  · cases found

theorem networkOffset_ge : 14 ≤ networkOffset packet ∧ networkOffset packet ≤ 18 := by
  unfold networkOffset
  split <;> omega

/-- A cut after the RTP header leaves the way to the UDP header as it is. -/
theorem udpOffset?_take {udp n : Nat} (found : udpOffset? packet = some udp) (kept : udp + 20 ≤ n)
    (short : n ≤ packet.length) : udpOffset? (packet.take n) = some udp := by
  have size : (packet.take n).length = n := List.length_take_of_le short
  have reached := networkOffset_le found
  have bounds : 14 ≤ networkOffset packet ∧ networkOffset packet ≤ 18 := networkOffset_ge
  have tag : isTagged (packet.take n) = isTagged packet := by
    rw [isTagged, isTagged, size, shortAt_take (by omega)]
    exact decide_eq_decide.mpr (and_congr_right fun _ => iff_of_true (by omega) (by omega))
  have network : networkOffset (packet.take n) = networkOffset packet := by rw [networkOffset, networkOffset, tag]
  have type : etherType (packet.take n) = etherType packet := by
    rw [etherType, etherType, tag, shortAt_take (by split <;> omega)]
  unfold udpOffset? at found ⊢
  dsimp only at found ⊢
  rw [size, network, type, byteAt_take (by omega), byteAt_take (by omega), byteAt_take (by omega)]
  rw [if_neg (by omega)] at found
  rw [if_neg (by omega)]
  by_cases four : etherType packet = 0x0800 ∧ networkOffset packet + 20 ≤ packet.length
  · rw [if_pos four] at found
    rwa [if_pos ⟨four.1, by omega⟩]
  · rw [if_neg four] at found
    rw [if_neg fun whole => four ⟨whole.1, by omega⟩]
    by_cases six : etherType packet = 0x86DD ∧ networkOffset packet + 40 ≤ packet.length
    · rw [if_pos six] at found
      have reach : networkOffset packet + 40 ≤ n := by
        split at found
        · cases found
        · cases found
          omega
      rwa [if_pos ⟨six.1, reach⟩]
    · rw [if_neg six] at found
      cases found

theorem mediaHeaderLength?_some {keep : Nat}
    (found : mediaHeaderLength? mediaPorts signalingPorts packet = some keep) :
    ∃ udp, udpOffset? packet = some udp ∧ keep = min packet.length (udp + 20) := by
  obtain ⟨udp, offset, found⟩ := Option.bind_eq_some_iff.mp found
  refine ⟨udp, offset, ?_⟩
  split at found
  · cases found
  dsimp only at found
  split at found
  · cases found
  split at found
  · exact (Option.some.inj found).symm
  · cases found

/-- After the cut, nothing beyond what is kept is left. -/
theorem sanitize_short (r : Record) {keep : Nat} (found : mediaHeaderLength? mediaPorts signalingPorts
    (r.sanitize mediaPorts signalingPorts).packet = some keep) :
    (r.sanitize mediaPorts signalingPorts).packet.length ≤ keep := by
  unfold Record.sanitize at found ⊢
  cases before : mediaHeaderLength? mediaPorts signalingPorts r.packet with
  | none =>
    simp only [before] at found
    cases found
  | some cut =>
    simp only [before] at found ⊢
    obtain ⟨udp, offset, rfl⟩ := mediaHeaderLength?_some before
    obtain ⟨udp', offset', rfl⟩ := mediaHeaderLength?_some found
    refine le_min le_rfl ?_
    rw [List.length_take]
    rcases Nat.le_total r.packet.length (udp + 20) with short | long
    · rw [List.take_of_length_le (by omega)] at offset'
      cases offset.symm.trans offset'
      omega
    · rw [Nat.min_eq_right long, udpOffset?_take offset le_rfl long] at offset'
      cases offset'
      omega

theorem sanitize_le (r : Record) : (r.sanitize mediaPorts signalingPorts).packet.length ≤ r.packet.length := by
  unfold Record.sanitize
  split
  · exact List.length_take_le' _ _
  · exact le_rfl

theorem readRecords_small {endian : Endian} {bound : Nat} {bytes : List Nat} {records : List Record}
    (octets : ∀ byte ∈ bytes, byte < 256) (ok : readRecords endian bound bytes = .ok records) :
    ∀ r ∈ records, r.packet.length < 2 ^ 32 := by
  induction bound generalizing bytes records with
  | zero =>
    cases ok
    exact fun _ member => absurd member List.not_mem_nil
  | succ bound ih =>
    cases bytes with
    | nil =>
      cases ok
      exact fun _ member => absurd member List.not_mem_nil
    | cons first rest =>
      rw [readRecords] at ok
      · split at ok
        · cases ok
        rename_i header found
        split at ok
        · cases ok
        obtain ⟨others, later, same⟩ := bind_ok.mp ok
        obtain rfl := pure_ok.mp same
        refine List.forall_mem_cons.mpr ⟨?_, ih (fun byte member => octets byte (List.mem_of_mem_drop member)) later⟩
        exact (List.length_take_le _ _).trans_lt (included_lt octets found)
      · simp

/-- What replaces the file is a complete capture without media. -/
theorem stripMediaPayload_stripped {raw out : List Nat} (octets : ∀ byte ∈ raw, byte < 256)
    (ok : stripMediaPayload mediaPorts signalingPorts raw = .ok out) : Stripped mediaPorts signalingPorts out := by
  unfold stripMediaPayload at ok
  split at ok
  · cases ok
  rename_i whole
  split at ok
  · cases ok
  rename_i endian magic
  obtain ⟨records, read, same⟩ := bind_ok.mp ok
  obtain rfl := pure_ok.mp same
  have small := readRecords_small (fun byte member => octets byte (List.mem_of_mem_drop member)) read
  have head : (raw.take 24).length = 24 := List.length_take_of_le (by omega)
  have cut : ∀ r ∈ records.map (Record.sanitize mediaPorts signalingPorts), r.packet.length < 2 ^ 32 := by
    intro r member
    obtain ⟨source, inside, rfl⟩ := List.mem_map.mp member
    exact (sanitize_le source).trans_lt (small source inside)
  obtain ⟨others, parsed, packets⟩ := @parses_bytes endian _ cut
  refine ⟨endian, others, ?_, ?_, fun r member keep found => ?_⟩
  · rw [endian?, List.take_left' head, if_pos (by rw [List.length_append, head]; omega), magic?, List.take_take]
    exact magic
  · rwa [List.drop_left' head]
  · have packet : r.packet ∈ (records.map (Record.sanitize mediaPorts signalingPorts)).map Record.packet := by
      rw [← packets]
      exact List.mem_map_of_mem member
    obtain ⟨_, inside, same⟩ := List.mem_map.mp packet
    obtain ⟨source, -, rfl⟩ := List.mem_map.mp inside
    rw [← same] at found ⊢
    exact sanitize_short source found

end sanitizing

end Sippycup.Capture
