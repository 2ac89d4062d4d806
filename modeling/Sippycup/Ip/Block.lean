import Sippycup.Ip.RoundTrip

/-! IP networks: an address with its host bits clear and a prefix length. A
network text without a prefix means one address; an IPv4 network also takes a
netmask or a hostmask. -/
namespace Sippycup.Ip
open Sippycup.Python

def netmask (width prefixlen : Nat) : BitVec width :=
  BitVec.allOnes width ^^^ (BitVec.allOnes width >>> prefixlen)

structure Block (width : Nat) where
  address : BitVec width
  prefixlen : Nat
  bounded : prefixlen ≤ width
  aligned : address &&& netmask width prefixlen = address
  deriving DecidableEq

inductive Network where
  | v4 (block : Block 32)
  | v6 (block : Block 128) (scope : Option Scope)
  deriving DecidableEq

def Block.of? {width : Nat} (address : BitVec width) (prefixlen : Nat) : Option (Block width) :=
  if valid : prefixlen ≤ width ∧ address &&& netmask width prefixlen = address then
    some ⟨address, prefixlen, valid.1, valid.2⟩
  else none

def parsePrefix (width : Nat) (codes : Codes) : Option Nat :=
  if codes = [] ∨ !codes.all isDigit ∨ width < readNumeral 10 codes then none
  else some (readNumeral 10 codes)

/-- Zero bits at the low end, at most `bits` of them. -/
def trailingZeros : Nat → Nat → Nat
  | 0, _ => 0
  | bits + 1, n => if n % 2 = 1 then 0 else trailingZeros bits (n / 2) + 1

def prefixFromMask (mask : Nat) : Option Nat :=
  let zeros := trailingZeros 32 mask
  if mask >>> zeros = 2 ^ (32 - zeros) - 1 then some (32 - zeros) else none

/-- A netmask, or else a hostmask. -/
def prefixFromDotted (codes : Codes) : Option Nat := do
  let mask ← parseDotted codes
  match prefixFromMask mask with
  | some prefixlen => some prefixlen
  | none => prefixFromMask (mask ^^^ (2 ^ 32 - 1))

def prefixV4 (codes : Codes) : Option Nat :=
  match parsePrefix 32 codes with
  | some prefixlen => some prefixlen
  | none => prefixFromDotted codes

def splitPrefix (codes : Codes) : Option (Codes × Option Codes) :=
  match codes.splitOn slash with
  | [address] => some (address, none)
  | [address, mask] => some (address, some mask)
  | _ => none

def readV4 (codes : Codes) : Option (BitVec 32 × Nat) := do
  let (address, mask) ← splitPrefix codes
  let ip ← parseV4 address
  match mask with
  | none => return (ip, 32)
  | some mask => return (ip, ← prefixV4 mask)

def readV6 (codes : Codes) : Option (BitVec 128 × Option Scope × Nat) := do
  let (address, mask) ← splitPrefix codes
  let (ip, scope) ← parseV6 address
  match mask with
  | none => return (ip, scope, 128)
  | some mask => return (ip, scope, ← parsePrefix 128 mask)

def renderPrefix (address : Address) (prefixlen : Nat) : Codes :=
  address.render ++ slash :: renderNumeral 10 prefixlen

def hostBits {α : Type} (address : Address) (prefixlen : Nat) : Except String α :=
  .error s!"{(Text.mk (renderPrefix address prefixlen)).render} has host bits set"

/-- `ipaddress.ip_network(text, strict=True)`; the error is the message of its
`ValueError`. Host bits in an IPv4 network end the attempt. -/
def ipNetwork (text : Text) : Except String Network :=
  match readV4 text.codes with
  | some (ip, prefixlen) =>
    match Block.of? ip prefixlen with
    | some block => .ok (.v4 block)
    | none => hostBits (.v4 ip) prefixlen
  | none =>
    match readV6 text.codes with
    | some (ip, scope, prefixlen) =>
      match Block.of? ip prefixlen with
      | some block => .ok (.v6 block scope)
      | none => hostBits (.v6 ip scope) prefixlen
    | none => .error s!"{text.repr} does not appear to be an IPv4 or IPv6 network"

def Block.contains {width : Nat} (block : Block width) (ip : BitVec width) : Bool :=
  decide (ip &&& netmask width block.prefixlen = block.address)

namespace Network

def version : Network → Nat
  | .v4 _ => 4
  | .v6 _ _ => 6

def address : Network → Address
  | .v4 block => .v4 block.address
  | .v6 block scope => .v6 block.address scope

def prefixlen : Network → Nat
  | .v4 block => block.prefixlen
  | .v6 block _ => block.prefixlen

/-- `address in network`; a scope plays no part. -/
def contains : Network → Address → Bool
  | .v4 block, .v4 ip => block.contains ip
  | .v6 block _, .v6 ip _ => block.contains ip
  | _, _ => false

/-- `str(network)` -/
def text (network : Network) : Text := ⟨renderPrefix network.address network.prefixlen⟩

/-- `(network.version, int(network.network_address), network.prefixlen)` -/
def key (network : Network) : Nat × Nat × Nat :=
  (network.version, network.address.toNat, network.prefixlen)

end Network

theorem Block.of?_self {width : Nat} (block : Block width) :
    Block.of? block.address block.prefixlen = some block := by
  rw [Block.of?, dif_pos ⟨block.bounded, block.aligned⟩]

theorem parsePrefix_render {width prefixlen : Nat} (bounded : prefixlen ≤ width) :
    parsePrefix width (renderNumeral 10 prefixlen) = some prefixlen := by
  have digits : (renderNumeral 10 prefixlen).all isDigit = true :=
    List.all_eq_true.mpr renderNumeral_decimal
  have value : readNumeral 10 (renderNumeral 10 prefixlen) = prefixlen :=
    readNumeral_render (by omega) (by omega)
  have accepted : ¬ (renderNumeral 10 prefixlen = [] ∨ (!(renderNumeral 10 prefixlen).all isDigit) = true ∨
      width < readNumeral 10 (renderNumeral 10 prefixlen)) := by
    simp only [renderNumeral_ne_nil, digits, value, Bool.not_true, Bool.false_eq_true, false_or]
    omega
  rw [parsePrefix, if_neg accepted, value]

theorem splitPrefix_render (address : Address) (prefixlen : Nat) :
    splitPrefix (renderPrefix address prefixlen) = some (address.render, some (renderNumeral 10 prefixlen)) := by
  have joined : renderPrefix address prefixlen =
      [slash].intercalate [address.render, renderNumeral 10 prefixlen] := by
    rw [List.intercalate_cons_of_ne_nil (by simp), List.intercalate_singleton, renderPrefix]
    simp
  have split : (renderPrefix address prefixlen).splitOn slash =
      [address.render, renderNumeral 10 prefixlen] := by
    rw [joined]
    refine List.splitOn_intercalate slash ?_ (by simp)
    intro part member inside
    rcases List.mem_cons.mp member with rfl | member
    · exact slash_not_mem_render address inside
    · obtain rfl := List.mem_singleton.mp member
      exact absurd (renderNumeral_decimal slash inside) (by decide)
  rw [splitPrefix, split]

/-- The text of a network reads back as that network. -/
theorem ipNetwork_text (network : Network) : ipNetwork network.text = .ok network := by
  cases network with
  | v4 block =>
    have mask : prefixV4 (renderNumeral 10 block.prefixlen) = some block.prefixlen := by
      rw [prefixV4, parsePrefix_render block.bounded]
    have read : readV4 (renderPrefix (.v4 block.address) block.prefixlen) =
        some (block.address, block.prefixlen) := by
      rw [readV4, splitPrefix_render]
      simp [Address.render, parseV4_render, mask]
    simp only [ipNetwork, Network.text, Network.address, Network.prefixlen, read, Block.of?_self]
  | v6 block scope =>
    have notV4 : readV4 (renderPrefix (.v6 block.address scope) block.prefixlen) = none := by
      rw [readV4, splitPrefix_render]
      simp [parseV4_colon (colon_mem_render block.address scope)]
    have read : readV6 (renderPrefix (.v6 block.address scope) block.prefixlen) =
        some (block.address, scope, block.prefixlen) := by
      rw [readV6, splitPrefix_render]
      simp [parseV6_render, parsePrefix_render block.bounded]
    simp only [ipNetwork, Network.text, Network.address, Network.prefixlen, notV4, read, Block.of?_self]

theorem network_text_injective {m n : Network} (same : m.text = n.text) : m = n := by
  have read := ipNetwork_text m
  rw [same, ipNetwork_text] at read
  exact (Except.ok.inj read).symm

example : (ipNetwork "10.20.0.0/0.0.255.255").map Network.text = .ok "10.20.0.0/16" := by decide +kernel

end Sippycup.Ip
