import Sippycup.Capture.Records
import Sippycup.Ip.Address

/-! Privacy inspection of captures. The addresses of a capture are taken from its frames as if each were
untagged Ethernet or Ethernet with one tag; beside it stands what the link type declares a frame to be. -/
namespace Sippycup.Evidence.Inspection
open Sippycup.Python Sippycup.Ip Sippycup.Capture

def maxRecordBytes : Nat := 1024 * 1024

def bigEndian (bytes : List Nat) : Nat := bytes.foldl (fun rest byte => 256 * rest + byte) 0

/-- Bytes `start` to `start + size`, as `int.from_bytes(_, "big")` reads them. -/
def slice (bytes : List Nat) (start size : Nat) : Nat := bigEndian ((bytes.drop start).take size)

/-- `str(ipaddress.ip_address(_))` of four bytes, and of sixteen -/
def ipv4Text (bytes : List Nat) (start : Nat) : Text := (Address.v4 (BitVec.ofNat 32 (slice bytes start 4))).text

def ipv6Text (bytes : List Nat) (start : Nat) : Text := (Address.v6 (BitVec.ofNat 128 (slice bytes start 16)) none).text

section code

def networkAddresses (packet : List Nat) (etherType network : Nat) : List Text :=
  if etherType = 0x0800 ∧ network + 20 ≤ packet.length then
    [ipv4Text packet (network + 12), ipv4Text packet (network + 16)]
  else if etherType = 0x86DD ∧ network + 40 ≤ packet.length then
    [ipv6Text packet (network + 8), ipv6Text packet (network + 24)]
  else []

/-- What the loop adds to the addresses for one packet. -/
def packetAddresses (packet : List Nat) : List Text :=
  if packet.length < 14 then []
  else if slice packet 12 2 = 0x8100 ∧ 18 ≤ packet.length then networkAddresses packet (slice packet 16 2) 18
  else networkAddresses packet (slice packet 12 2) 14

/-- The packets up to where the loop ends, and whether nothing is left there. -/
def scanRecords (endian : Endian) : Nat → List Nat → List (List Nat) × Bool
  | 0, bytes => ([], bytes.isEmpty)
  | bound + 1, bytes =>
    match header? endian bytes with
    | none => ([], bytes.isEmpty)
    | some header =>
      if maxRecordBytes < header.included ∨ bytes.length < 16 + header.included then ([], false)
      else
        let later := scanRecords endian bound (bytes.drop (16 + header.included))
        ((bytes.drop 16).take header.included :: later.1, later.2)

/-- `_classic_pcap_addresses`, with the set of addresses as a list. -/
def classicPcapAddresses (data : List Nat) : List Text × Bool :=
  match endian? data with
  | none => ([], false)
  | some endian =>
    let packets := scanRecords endian data.length (data.drop 24)
    (packets.1.flatMap packetAddresses, packets.2)

end code

section declared

/-- What a frame is under a framing. -/
inductive Frame where
  | packet (source destination : Text)
  | other
  | unreadable
  deriving DecidableEq

def ipv4 (bytes : List Nat) : Frame :=
  if bytes.length < 20 then .unreadable else .packet (ipv4Text bytes 12) (ipv4Text bytes 16)

def ipv6 (bytes : List Nat) : Frame :=
  if bytes.length < 40 then .unreadable else .packet (ipv6Text bytes 8) (ipv6Text bytes 24)

def payload (etherType : Nat) (bytes : List Nat) : Frame :=
  if etherType = 0x0800 then ipv4 bytes else if etherType = 0x86DD then ipv6 bytes else .other

def isTag (etherType : Nat) : Prop := etherType = 0x8100 ∨ etherType = 0x88A8

instance (etherType : Nat) : Decidable (isTag etherType) := inferInstanceAs (Decidable (_ ∨ _))

/-- What comes after tags, as many as there are: four bytes each, the last two for the next type. -/
def untag (etherType : Nat) : List Nat → Frame
  | a :: b :: high :: low :: rest =>
    if isTag etherType then untag (256 * high + low) rest else payload etherType (a :: b :: high :: low :: rest)
  | short => if isTag etherType then .unreadable else payload etherType short

def ethernet (frame : List Nat) : Frame :=
  if frame.length < 14 then .unreadable else untag (slice frame 12 2) (frame.drop 14)

def rawIp (frame : List Nat) : Frame :=
  if slice frame 0 1 / 16 = 4 then ipv4 frame else if slice frame 0 1 / 16 = 6 then ipv6 frame else .unreadable

/-- Ethernet and raw IP are the link types that captures of the program are read with. -/
def declared (linkType : Nat) (frame : List Nat) : Frame :=
  if linkType = 1 then ethernet frame else if linkType = 101 then rawIp frame else .unreadable

structure PcapFile where
  endian : Endian
  linkType : Nat
  records : List Record

/-- The bytes are a capture, from the first to the last. -/
def Holds (data : List Nat) (capture : PcapFile) : Prop :=
  endian? data = some capture.endian ∧ field capture.endian data 5 = capture.linkType ∧
    Parses capture.endian (data.drop 24) capture.records []

end declared

/-- A capture that is parsed was read as its link type declares: no packet of it is unreadable, and the
addresses of all of them are known. -/
def FailsClosed (data : List Nat) : Prop :=
  ∀ addresses, classicPcapAddresses data = (addresses, true) → ∃ capture, Holds data capture ∧
    ∀ record ∈ capture.records, declared capture.linkType record.packet ≠ .unreadable ∧
      ∀ source destination, declared capture.linkType record.packet = .packet source destination →
        source ∈ addresses ∧ destination ∈ addresses

/-- Ethernet without tags, or with one of the customer's, and a header that is whole. -/
def ReadsPlainly (frame : List Nat) : Prop :=
  14 ≤ frame.length ∧
    (¬ isTag (slice frame 12 2) ∧ payload (slice frame 12 2) (frame.drop 14) ≠ .unreadable ∨
      slice frame 12 2 = 0x8100 ∧ 18 ≤ frame.length ∧ ¬ isTag (slice frame 16 2) ∧
        payload (slice frame 16 2) (frame.drop 18) ≠ .unreadable)

/-- Every frame is plain Ethernet, holds no packet, or is between addresses that plain frames show. -/
def Covered (capture : PcapFile) : Prop :=
  ∀ record ∈ capture.records, capture.linkType = 1 ∧ ReadsPlainly record.packet ∨
    declared capture.linkType record.packet = .other ∨
      ∃ source destination, declared capture.linkType record.packet = .packet source destination ∧
        (∃ shown ∈ capture.records, source ∈ packetAddresses shown.packet) ∧
          ∃ shown ∈ capture.records, destination ∈ packetAddresses shown.packet

section frames
variable {frame : List Nat} {etherType network : Nat}

theorem slice_drop (bytes : List Nat) (skip start size : Nat) :
    slice (bytes.drop skip) start size = slice bytes (skip + start) size := by
  rw [slice, List.drop_drop, slice]

theorem untag_plain (plain : ¬ isTag etherType) (bytes : List Nat) : untag etherType bytes = payload etherType bytes := by
  unfold untag
  split <;> rw [if_neg plain]

/-- Behind a type that is no tag, the addresses that are read are those of the payload. -/
theorem payload_addresses (bytes : List Nat) :
    networkAddresses bytes etherType network =
      match payload etherType (bytes.drop network) with
      | .packet source destination => [source, destination]
      | _ => [] := by
  have short : ∀ size, ¬ network + size ≤ bytes.length → 0 < size → (bytes.drop network).length < size := by
    intro size short positive
    rw [List.length_drop]
    omega
  have whole : ∀ size, network + size ≤ bytes.length → ¬ (bytes.drop network).length < size := by
    intro size whole
    rw [List.length_drop]
    omega
  have v4 : ∀ start, ipv4Text bytes (network + start) = ipv4Text (bytes.drop network) start := by
    intro start
    rw [ipv4Text, ipv4Text, slice_drop]
  have v6 : ∀ start, ipv6Text bytes (network + start) = ipv6Text (bytes.drop network) start := by
    intro start
    rw [ipv6Text, ipv6Text, slice_drop]
  rw [networkAddresses, payload]
  by_cases four : etherType = 0x0800
  · rw [if_pos four, ipv4]
    by_cases enough : network + 20 ≤ bytes.length
    · rw [if_pos ⟨four, enough⟩, if_neg (whole 20 enough), v4, v4]
    · rw [if_neg (fun both => enough both.2), if_neg (fun both => absurd (four.symm.trans both.1) (by decide)),
        if_pos (short 20 enough (by decide))]
  · rw [if_neg (fun both => four both.1), if_neg four]
    by_cases six : etherType = 0x86DD
    · rw [if_pos six, ipv6]
      by_cases enough : network + 40 ≤ bytes.length
      · rw [if_pos ⟨six, enough⟩, if_neg (whole 40 enough), v6, v6]
      · rw [if_neg (fun both => enough both.2), if_pos (short 40 enough (by decide))]
    · rw [if_neg (fun both => six both.1), if_neg six]

theorem untag_tag (tag : isTag etherType) {bytes : List Nat} (whole : 4 ≤ bytes.length) :
    untag etherType bytes = untag (slice bytes 2 2) (bytes.drop 4) := by
  obtain ⟨a, b, high, low, rest, rfl⟩ : ∃ a b high low rest, bytes = a :: b :: high :: low :: rest := by
    match bytes, whole with
    | a :: b :: high :: low :: rest, _ => exact ⟨a, b, high, low, rest, rfl⟩
  have type : slice (a :: b :: high :: low :: rest) 2 2 = 256 * high + low := by
    simp [slice, bigEndian]
  rw [untag, if_pos tag, type]
  rfl

/-- A plain frame is what Ethernet declares it to be, and the addresses that are read are those of its packet. -/
theorem ethernet_plain (plain : ReadsPlainly frame) :
    ethernet frame ≠ .unreadable ∧ packetAddresses frame =
      match ethernet frame with
      | .packet source destination => [source, destination]
      | _ => [] := by
  obtain ⟨long, untagged⟩ := plain
  have big : ¬ frame.length < 14 := Nat.not_lt.2 long
  rw [ethernet, if_neg big, packetAddresses, if_neg big]
  rcases untagged with ⟨bare, readable⟩ | ⟨tagged, whole, bare, readable⟩
  · have other : ¬ (slice frame 12 2 = 0x8100 ∧ 18 ≤ frame.length) := fun both => bare (.inl both.1)
    rw [untag_plain bare, if_neg other]
    exact ⟨readable, payload_addresses frame⟩
  · have four : 4 ≤ (frame.drop 14).length := by
      rw [List.length_drop]
      omega
    rw [untag_tag (.inl tagged) four, slice_drop, List.drop_drop, untag_plain bare, if_pos ⟨tagged, whole⟩]
    exact ⟨readable, payload_addresses frame⟩

end frames

section scan
variable {endian : Endian} {bytes : List Nat} {packets : List (List Nat)}

/-- The loop ends without a complaint exactly at the end of records of admitted sizes. -/
theorem scanRecords_true {bound : Nat} (enough : bytes.length ≤ bound) :
    scanRecords endian bound bytes = (packets, true) ↔ ∃ records, Parses endian bytes records [] ∧
      (∀ record ∈ records, record.packet.length ≤ maxRecordBytes) ∧ packets = records.map Record.packet := by
  induction bound generalizing bytes packets with
  | zero =>
    obtain rfl := List.length_eq_zero_iff.mp (Nat.le_zero.mp enough)
    constructor
    · rintro ⟨⟩
      exact ⟨[], .nil, List.forall_mem_nil _, rfl⟩
    · rintro ⟨records, parses, -, rfl⟩
      cases parses with
      | nil => rfl
      | cons first _ => cases first
  | succ bound ih =>
    rw [scanRecords]
    rcases found : header? endian bytes with _ | header
    · have unsplit : splitRecord endian bytes = none := by rw [splitRecord, found]
      dsimp only
      constructor
      · intro same
        obtain ⟨rfl, ended⟩ := Prod.mk.inj same
        rw [List.isEmpty_iff.mp ended]
        exact ⟨[], .nil, List.forall_mem_nil _, rfl⟩
      · rintro ⟨records, parses, -, rfl⟩
        cases parses with
        | nil => rfl
        | cons first _ =>
          rw [unsplit] at first
          cases first
    · have long : 16 ≤ bytes.length := by
        rw [header?] at found
        split at found
        · assumption
        · cases found
      dsimp only
      split
      · rename_i refused
        constructor
        · intro same
          cases (Prod.mk.inj same).2
        · rintro ⟨records, parses, sizes, rfl⟩
          cases parses with
          | nil => exact absurd long (by decide)
          | cons first _ =>
            obtain ⟨other, same, whole, record, -⟩ := splitRecord_some first
            cases found.symm.trans same
            have size := sizes _ (List.mem_cons_self ..)
            rw [record, Header.record, List.length_take, List.length_drop] at size
            omega
      · rename_i admitted
        have split : splitRecord endian bytes =
            some (header.record ((bytes.drop 16).take header.included), bytes.drop (16 + header.included)) := by
          rw [splitRecord, found]
          exact if_neg (by omega)
        have shorter := splitRecord_shorter split
        have size : ((bytes.drop 16).take header.included).length ≤ maxRecordBytes := by
          rw [List.length_take]
          omega
        constructor
        · intro same
          obtain ⟨rfl, ended⟩ := Prod.mk.inj same
          obtain ⟨records, parses, sizes, packets⟩ := (ih (by omega)).mp (Prod.ext rfl ended)
          exact ⟨_ :: records, .cons split parses, List.forall_mem_cons.mpr ⟨size, sizes⟩,
            congrArg (List.cons _) packets⟩
        · rintro ⟨records, parses, sizes, rfl⟩
          cases parses with
          | nil => exact absurd long (by decide)
          | cons first later =>
            cases split.symm.trans first
            obtain ⟨-, sizes⟩ := List.forall_mem_cons.mp sizes
            rw [(ih (by omega)).mpr ⟨_, later, sizes, rfl⟩]
            rfl

theorem classicPcapAddresses_true {data : List Nat} {addresses : List Text} :
    classicPcapAddresses data = (addresses, true) ↔ ∃ capture, Holds data capture ∧
      (∀ record ∈ capture.records, record.packet.length ≤ maxRecordBytes) ∧
        addresses = capture.records.flatMap fun record => packetAddresses record.packet := by
  rw [classicPcapAddresses]
  rcases known : endian? data with _ | endian
  · constructor
    · intro same
      cases (Prod.mk.inj same).2
    · rintro ⟨capture, ⟨other, -⟩, -⟩
      rw [known] at other
      cases other
  · have enough : (data.drop 24).length ≤ data.length := by
      rw [List.length_drop]
      exact Nat.sub_le ..
    dsimp only
    constructor
    · intro same
      obtain ⟨rfl, ended⟩ := Prod.mk.inj same
      obtain ⟨records, parses, sizes, packets⟩ := (scanRecords_true enough).mp (Prod.ext rfl ended)
      refine ⟨⟨endian, field endian data 5, records⟩, ⟨known, rfl, parses⟩, sizes, ?_⟩
      exact (congrArg (List.flatMap packetAddresses) packets).trans (List.flatMap_map ..)
    · rintro ⟨⟨other, linkType, records⟩, ⟨same, -, parses⟩, sizes, rfl⟩
      cases known.symm.trans same
      rw [(scanRecords_true enough).mpr ⟨records, parses, sizes, rfl⟩, List.flatMap_map]

/-- Bytes are one capture at most. -/
theorem holds_unique {data : List Nat} {a b : PcapFile} (left : Holds data a) (right : Holds data b) : a = b := by
  obtain ⟨endian, linkType, xs⟩ := a
  obtain ⟨other, otherLink, ys⟩ := b
  obtain ⟨known, link, first⟩ := left
  obtain ⟨same, sameLink, second⟩ := right
  cases known.symm.trans same
  have records : xs = ys := List.append_cancel_right (first.records.symm.trans second.records)
  have links : linkType = otherLink := link.symm.trans sameLink
  rw [records, links]

end scan

/-- Inspection fails closed on the captures whose frames are plain Ethernet or whose addresses plain frames
show, and on what is no capture. -/
theorem fails_closed_iff (data : List Nat) :
    FailsClosed data ↔ ∀ capture, Holds data capture →
      (∀ record ∈ capture.records, record.packet.length ≤ maxRecordBytes) → Covered capture := by
  constructor
  · intro closed capture holds sizes record member
    obtain ⟨other, same, every⟩ := closed _ (classicPcapAddresses_true.mpr ⟨capture, holds, sizes, rfl⟩)
    cases holds_unique same holds
    obtain ⟨readable, shown⟩ := every record member
    refine .inr ?_
    rcases frame : declared capture.linkType record.packet with ⟨source, destination⟩ | _ | _
    · obtain ⟨left, right⟩ := shown source destination frame
      exact .inr ⟨source, destination, rfl, List.mem_flatMap.mp left, List.mem_flatMap.mp right⟩
    · exact .inl rfl
    · exact absurd frame readable
  · intro covered addresses parsed
    obtain ⟨capture, holds, sizes, rfl⟩ := classicPcapAddresses_true.mp parsed
    refine ⟨capture, holds, fun record member => ?_⟩
    rcases covered capture holds sizes record member with ⟨ether, plain⟩ | other | ⟨s, d, frame, left, right⟩
    · obtain ⟨readable, shown⟩ := ethernet_plain plain
      rw [declared, if_pos ether]
      refine ⟨readable, fun source destination frame => ?_⟩
      rw [frame] at shown
      constructor
      · exact List.mem_flatMap.mpr ⟨record, member, by simp [shown]⟩
      · exact List.mem_flatMap.mpr ⟨record, member, by simp [shown]⟩
    · rw [other]
      refine ⟨by rintro ⟨⟩, ?_⟩
      rintro source destination ⟨⟩
    · rw [frame]
      refine ⟨by rintro ⟨⟩, ?_⟩
      rintro source destination ⟨⟩
      exact ⟨List.mem_flatMap.mpr left, List.mem_flatMap.mpr right⟩

/-- A capture of one record, in the order of bytes of most machines. -/
def oneRecord (linkType : Nat) (frame : List Nat) : List Nat :=
  [0xd4, 0xc3, 0xb2, 0xa1, 2, 0, 4, 0, 0, 0, 0, 0, 0, 0, 0, 0, 255, 255, 0, 0, linkType, 0, 0, 0] ++
    [0, 0, 0, 0, 0, 0, 0, 0, frame.length, 0, 0, 0, frame.length, 0, 0, 0] ++ frame

/-- IPv4 from 10.0.0.1 to 8.8.8.8 behind a provider's tag and a customer's. -/
def stackedFrame : List Nat :=
  List.replicate 12 2 ++ [0x88, 0xa8, 0, 1, 0x81, 0, 0, 2, 8, 0] ++
    [0x45, 0, 0, 20, 0, 0, 0, 0, 64, 17, 0, 0, 10, 0, 0, 1, 8, 8, 8, 8]

theorem stacked_tags_are_missed : ¬ ∀ data, FailsClosed data := by
  intro closed
  have parsed : classicPcapAddresses (oneRecord 1 stackedFrame) = ([], true) := by decide
  obtain ⟨capture, holds, every⟩ := closed _ [] parsed
  have here : Holds (oneRecord 1 stackedFrame) ⟨.little, 1, [⟨0, 0, 42, stackedFrame⟩]⟩ :=
    ⟨by decide, by decide, .cons (by decide) .nil⟩
  cases holds_unique here holds
  have shown := (every _ (List.mem_singleton_self _)).2
  have packet : declared 1 stackedFrame = .packet (ipv4Text stackedFrame 34) (ipv4Text stackedFrame 38) := by decide
  cases (shown _ _ packet).1

end Sippycup.Evidence.Inspection
