import Sippycup.Machine.Numeral
import Sippycup.Python.Checks

/-! IP addresses as the standard library reads and prints them: dotted quads,
and colon-separated hextets with one run of zeros left out and, for IPv6, a
scope after a percent sign. -/
namespace Sippycup.Ip
open Sippycup.Python

def dot : Nat := 46
def slash : Nat := 47
def colon : Nat := 58
def percent : Nat := 37
def zeroDigit : Nat := 48

instance codes_lawful : LawfulBEq (List Nat) := inferInstance

abbrev Codes := List Nat

/-- Value of a decimal or hexadecimal digit. -/
def digitValue (code : Nat) : Nat :=
  if code < 58 then code - 48 else if code < 71 then code - 55 else code - 87

def isHexDigit (code : Nat) : Bool := isHexCode code || decide (65 ≤ code ∧ code ≤ 70)

def digitCode (digit : Nat) : Nat := Text.hexDigit digit

def readNumeral (base : Nat) (codes : Codes) : Nat := Numeral.read base (codes.map digitValue)

def renderNumeral (base n : Nat) : Codes := (Numeral.render base n).map digitCode

def parseOctet (octet : Codes) : Option Nat :=
  if octet = [] ∨ !octet.all isDigit then none
  else if 3 < octet.length then none
  else if octet ≠ [zeroDigit] ∧ octet.head? = some zeroDigit then none
  else if 255 < readNumeral 10 octet then none
  else some (readNumeral 10 octet)

def parseDotted (codes : Codes) : Option Nat := do
  let octets := codes.splitOn dot
  if octets.length ≠ 4 then none
  else return Numeral.read 256 (← octets.mapM parseOctet)

def parseHextet (hextet : Codes) : Option Nat :=
  if !hextet.all isHexDigit ∨ 4 < hextet.length ∨ hextet = [] then none
  else some (readNumeral 16 hextet)

/-- A dotted suffix counts as two hextets. -/
def expandSuffix (parts : List Codes) : Option (List Codes) :=
  match parts.getLast? with
  | none => some parts
  | some last =>
    if dot ∉ last then some parts
    else if slash ∈ last then none
    else do
      let ip ← parseDotted last
      return parts.dropLast ++ [renderNumeral 16 (ip / 65536 % 65536), renderNumeral 16 (ip % 65536)]

/-- Positions of empty parts away from both ends. -/
def skipIndexes (parts : List Codes) : List Nat :=
  (List.range parts.length).filter fun i => 1 ≤ i ∧ i + 1 < parts.length ∧ parts[i]? = some []

/-- How many parts are copied before and after the skipped zeros, and how many
hextets are skipped. -/
def layout (parts : List Codes) : Option (Nat × Nat × Nat) :=
  let startsEmpty := parts.head? = some []
  let endsEmpty := parts.getLast? = some []
  match skipIndexes parts with
  | [] => if parts.length ≠ 8 ∨ startsEmpty ∨ endsEmpty then none else some (8, 0, 0)
  | [i] =>
    let high := if startsEmpty then i - 1 else i
    let low := if endsEmpty then parts.length - i - 2 else parts.length - i - 1
    if (startsEmpty ∧ high ≠ 0) ∨ (endsEmpty ∧ low ≠ 0) ∨ 8 < high + low + 1 then none
    else some (high, low, 8 - (high + low))
  | _ => none

def parseHextets (codes : Codes) : Option Nat := do
  let split := codes.splitOn colon
  if split.length < 3 then none
  else
    let parts ← expandSuffix split
    if 9 < parts.length then none
    else
      let (high, low, skipped) ← layout parts
      let before ← (parts.take high).mapM parseHextet
      let after ← (parts.drop (parts.length - low)).mapM parseHextet
      return Numeral.read 65536 (before ++ List.replicate skipped 0 ++ after)

/-- A scope identifier: not empty, without percent sign or slash. -/
structure Scope where
  codes : Codes
  nonempty : codes ≠ []
  plain : percent ∉ codes ∧ slash ∉ codes
  deriving DecidableEq

inductive Address where
  | v4 (ip : BitVec 32)
  | v6 (ip : BitVec 128) (scope : Option Scope)
  deriving DecidableEq

def parseV4 (codes : Codes) : Option (BitVec 32) :=
  if slash ∈ codes then none else (parseDotted codes).map (BitVec.ofNat 32)

/-- The text before the first percent sign, and the scope after it. -/
def splitScope (codes : Codes) : Option (Codes × Option Scope) :=
  match codes.dropWhile (· ≠ percent) with
  | [] => some (codes, none)
  | _ :: scope =>
    if valid : scope ≠ [] ∧ percent ∉ scope ∧ slash ∉ scope then
      some (codes.takeWhile (· ≠ percent), some ⟨scope, valid.1, valid.2⟩)
    else none

def parseV6 (codes : Codes) : Option (BitVec 128 × Option Scope) :=
  if slash ∈ codes then none
  else do
    let (address, scope) ← splitScope codes
    let ip ← parseHextets address
    return (BitVec.ofNat 128 ip, scope)

def parseAddress (codes : Codes) : Option Address :=
  match parseV4 codes with
  | some ip => some (.v4 ip)
  | none => (parseV6 codes).map fun (ip, scope) => .v6 ip scope

/-- `ipaddress.ip_address`, of text, of an integer, or of what `str` makes of
any other value. -/
def ipAddress (value : Value) : Option Address :=
  let ofInt (n : Int) : Option Address :=
    if n < 0 ∨ 2 ^ 128 ≤ n then none
    else if n < 2 ^ 32 then some (.v4 (BitVec.ofInt 32 n))
    else some (.v6 (BitVec.ofInt 128 n) none)
  match value with
  | .int n => ofInt n
  | .bool b => ofInt (if b then 1 else 0)
  | value => parseAddress value.str'.codes

def renderDotted (ip : Nat) : Codes :=
  [dot].intercalate ((Numeral.blocks 256 4 ip).map (renderNumeral 10))

/-- The current run of zeros and the first longest one, in a scan from the left. -/
structure ZeroScan where
  index : Nat
  start : Nat
  length : Nat
  bestStart : Nat
  bestLength : Nat

def ZeroScan.step (scan : ZeroScan) (hextet : Codes) : ZeroScan :=
  if hextet = [zeroDigit] then
    let start := if scan.length = 0 then scan.index else scan.start
    let length := scan.length + 1
    let longer := scan.bestLength < length
    { index := scan.index + 1, start, length
      bestStart := if longer then start else scan.bestStart
      bestLength := if longer then length else scan.bestLength }
  else { scan with index := scan.index + 1, length := 0 }

def longestZeros (hextets : List Codes) : ZeroScan := hextets.foldl ZeroScan.step ⟨0, 0, 0, 0, 0⟩

def compressHextets (hextets : List Codes) : List Codes :=
  let best := longestZeros hextets
  let stop := best.bestStart + best.bestLength
  if 1 < best.bestLength then
    (if best.bestStart = 0 then [[]] else []) ++ hextets.take best.bestStart ++ [[]] ++
      hextets.drop stop ++ (if stop = hextets.length then [[]] else [])
  else hextets

def renderHextets (ip : Nat) : Codes :=
  [colon].intercalate (compressHextets ((Numeral.blocks 65536 8 ip).map (renderNumeral 16)))

def multicastV4 (ip : BitVec 32) : Bool := ip.toNat / 2 ^ 28 = 14

def multicastV6 (ip : BitVec 128) : Bool := ip.toNat / 2 ^ 120 = 255

namespace Address

def version : Address → Nat
  | .v4 _ => 4
  | .v6 _ _ => 6

def toNat : Address → Nat
  | .v4 ip => ip.toNat
  | .v6 ip _ => ip.toNat

def renderScope : Option Scope → Codes
  | none => []
  | some scope => percent :: scope.codes

/-- `str(address)` -/
def render : Address → Codes
  | .v4 ip => renderDotted ip.toNat
  | .v6 ip scope => renderHextets ip.toNat ++ renderScope scope

def text (address : Address) : Text := ⟨address.render⟩

def isMulticast : Address → Bool
  | .v4 ip => multicastV4 ip
  | .v6 ip _ => multicastV6 ip

def isUnspecified (address : Address) : Bool := address.toNat = 0

/-- `(address.version, int(address))` -/
def key (address : Address) : Nat × Nat := (address.version, address.toNat)

end Address

example : (parseAddress (Text.ofString "::ffff:10.0.0.1%eth0").codes).map Address.text =
    some "::ffff:a00:1%eth0" := by decide +kernel

end Sippycup.Ip

/-! Address classes: loopback, link-local and private addresses. -/
namespace Sippycup.Ip
open Sippycup.Python

/-- The network of a number and a prefix length holds the address. -/
def inNetwork (width ip : Nat) (network : Nat × Nat) : Bool :=
  ip / 2 ^ (width - network.2) = network.1 / 2 ^ (width - network.2)

/-- Dotted quads of `_private_networks`, with their prefix lengths. -/
def privateNetworksV4 : List (Nat × Nat) :=
  [(0x00000000, 8), (0x0A000000, 8), (0x7F000000, 8), (0xA9FE0000, 16), (0xAC100000, 12), (0xC0000000, 24),
    (0xC00000AA, 31), (0xC0000200, 24), (0xC0A80000, 16), (0xC6120000, 15), (0xC6336400, 24), (0xCB007100, 24),
    (0xF0000000, 4), (0xFFFFFFFF, 32)]

def privateExceptionsV4 : List (Nat × Nat) := [(0xC0000009, 32), (0xC000000A, 32)]

/-- A network from its leading hextets. -/
def hextets (parts : List Nat) (prefixlen : Nat) : Nat × Nat :=
  (parts.foldl (fun n part => n * 65536 + part) 0 * 65536 ^ (8 - parts.length), prefixlen)

def privateNetworksV6 : List (Nat × Nat) :=
  [(1, 128), (0, 128), hextets [0, 0, 0, 0, 0, 0xFFFF] 96, hextets [0x64, 0xFF9B, 1] 48, hextets [0x100] 64,
    hextets [0x2001] 23, hextets [0x2001, 0xDB8] 32, hextets [0x2002] 16, hextets [0xFC00] 7, hextets [0xFE80] 10]

def privateExceptionsV6 : List (Nat × Nat) :=
  [hextets [0x2001, 1, 0, 0, 0, 0, 0, 1] 128, hextets [0x2001, 1, 0, 0, 0, 0, 0, 2] 128, hextets [0x2001, 3] 32,
    hextets [0x2001, 4, 0x112] 48, hextets [0x2001, 0x20] 28, hextets [0x2001, 0x30] 28]

def privateV4 (ip : Nat) : Bool :=
  privateNetworksV4.any (inNetwork 32 ip) && !privateExceptionsV4.any (inNetwork 32 ip)

namespace Address

def isLoopback : Address → Bool
  | .v4 ip => inNetwork 32 ip.toNat (0x7F000000, 8)
  | .v6 ip _ => ip.toNat = 1

def isLinkLocal : Address → Bool
  | .v4 ip => inNetwork 32 ip.toNat (0xA9FE0000, 16)
  | .v6 ip _ => inNetwork 128 ip.toNat (hextets [0xFE80] 10)

/-- An IPv4 address mapped into IPv6 is private if it is so itself. -/
def isPrivate : Address → Bool
  | .v4 ip => privateV4 ip.toNat
  | .v6 ip _ =>
    if inNetwork 128 ip.toNat (hextets [0, 0, 0, 0, 0, 0xFFFF] 96) then privateV4 (ip.toNat % 2 ^ 32)
    else privateNetworksV6.any (inNetwork 128 ip.toNat) && !privateExceptionsV6.any (inNetwork 128 ip.toNat)

end Address

end Sippycup.Ip
