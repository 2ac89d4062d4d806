import Sippycup.Python.Checks

/-! `hashlib.sha256(data).hexdigest()`. Words are naturals below `2 ^ 32`. -/
namespace Sippycup.Python.Sha256

def wordSize : Nat := 2 ^ 32

def rotr (x n : Nat) : Nat := (x >>> n) ||| ((x <<< (32 - n)) % wordSize)

def complement (x : Nat) : Nat := x ^^^ (wordSize - 1)

def roundConstants : List Nat :=
  [0x428a2f98, 0x71374491, 0xb5c0fbcf, 0xe9b5dba5, 0x3956c25b, 0x59f111f1, 0x923f82a4, 0xab1c5ed5,
    0xd807aa98, 0x12835b01, 0x243185be, 0x550c7dc3, 0x72be5d74, 0x80deb1fe, 0x9bdc06a7, 0xc19bf174,
    0xe49b69c1, 0xefbe4786, 0x0fc19dc6, 0x240ca1cc, 0x2de92c6f, 0x4a7484aa, 0x5cb0a9dc, 0x76f988da,
    0x983e5152, 0xa831c66d, 0xb00327c8, 0xbf597fc7, 0xc6e00bf3, 0xd5a79147, 0x06ca6351, 0x14292967,
    0x27b70a85, 0x2e1b2138, 0x4d2c6dfc, 0x53380d13, 0x650a7354, 0x766a0abb, 0x81c2c92e, 0x92722c85,
    0xa2bfe8a1, 0xa81a664b, 0xc24b8b70, 0xc76c51a3, 0xd192e819, 0xd6990624, 0xf40e3585, 0x106aa070,
    0x19a4c116, 0x1e376c08, 0x2748774c, 0x34b0bcb5, 0x391c0cb3, 0x4ed8aa4a, 0x5b9cca4f, 0x682e6ff3,
    0x748f82ee, 0x78a5636f, 0x84c87814, 0x8cc70208, 0x90befffa, 0xa4506ceb, 0xbef9a3f7, 0xc67178f2]

structure State where
  a : Nat
  b : Nat
  c : Nat
  d : Nat
  e : Nat
  f : Nat
  g : Nat
  h : Nat

def initial : State :=
  ⟨0x6a09e667, 0xbb67ae85, 0x3c6ef372, 0xa54ff53a, 0x510e527f, 0x9b05688c, 0x1f83d9ab, 0x5be0cd19⟩

def round (s : State) (constant word : Nat) : State :=
  let sum1 := rotr s.e 6 ^^^ rotr s.e 11 ^^^ rotr s.e 25
  let choice := (s.e &&& s.f) ^^^ (complement s.e &&& s.g)
  let first := s.h + sum1 + choice + constant + word
  let sum0 := rotr s.a 2 ^^^ rotr s.a 13 ^^^ rotr s.a 22
  let majority := (s.a &&& s.b) ^^^ (s.a &&& s.c) ^^^ (s.b &&& s.c)
  { a := (first + sum0 + majority) % wordSize, b := s.a, c := s.b, d := s.c
    e := (s.d + first) % wordSize, f := s.e, g := s.f, h := s.g }

/-- The schedule word sixteen places after the head of the window. -/
def nextWord (window : List Nat) : Nat :=
  let early := window.getD 1 0
  let late := window.getD 14 0
  let sigma0 := rotr early 7 ^^^ rotr early 18 ^^^ (early >>> 3)
  let sigma1 := rotr late 17 ^^^ rotr late 19 ^^^ (late >>> 10)
  (window.getD 0 0 + sigma0 + window.getD 9 0 + sigma1) % wordSize

/-- One round for each constant; the window holds the next sixteen words. -/
@[grind =] def rounds : List Nat → List Nat → State → State
  | [], _, s => s
  | constant :: rest, window, s =>
    rounds rest (window.drop 1 ++ [nextWord window]) (round s constant (window.getD 0 0))

def bigEndian (bytes : List Nat) : Nat := bytes.foldl (fun acc byte => acc * 256 + byte) 0

/-- The bytes in blocks of `size`, at most `bound` of them. -/
@[grind =] def blocks (size : Nat) : Nat → List Nat → List (List Nat)
  | 0, _ => []
  | bound + 1, bytes =>
    if bytes.isEmpty then [] else bytes.take size :: blocks size bound (bytes.drop size)

def compress (s : State) (block : List Nat) : State :=
  let r := rounds roundConstants ((blocks 4 16 block).map bigEndian) s
  { a := (s.a + r.a) % wordSize, b := (s.b + r.b) % wordSize
    c := (s.c + r.c) % wordSize, d := (s.d + r.d) % wordSize
    e := (s.e + r.e) % wordSize, f := (s.f + r.f) % wordSize
    g := (s.g + r.g) % wordSize, h := (s.h + r.h) % wordSize }

@[grind =] def lengthBytes : Nat → Nat → List Nat
  | 0, _ => []
  | width + 1, n => lengthBytes width (n / 256) ++ [n % 256]

def pad (bytes : List Nat) : List Nat :=
  bytes ++ 0x80 :: List.replicate ((119 - bytes.length % 64) % 64) 0 ++
    lengthBytes 8 (8 * bytes.length)

def digestWords (bytes : List Nat) : List Nat :=
  let padded := pad bytes
  let s := (blocks 64 (padded.length / 64) padded).foldl compress initial
  [s.a, s.b, s.c, s.d, s.e, s.f, s.g, s.h]

end Sha256

/-- `hashlib.sha256(data).hexdigest()` -/
def sha256Hex (bytes : List Nat) : Text := ⟨(Sha256.digestWords bytes).flatMap (Text.hexPadded 8)⟩

namespace Sha256

/-! The same rounds on sixteen words and eight variables, for evaluation. -/

def turned (x right left : Nat) : Nat := Nat.lor (Nat.shiftRight x right) (Nat.mod (Nat.shiftLeft x left) 4294967296)

@[grind =] def unrolled : List Nat → (w0 w1 w2 w3 w4 w5 w6 w7 w8 w9 w10 w11 w12 w13 w14 w15 a b c d e f g h : Nat) → State
  | [], _, _, _, _, _, _, _, _, _, _, _, _, _, _, _, _, a, b, c, d, e, f, g, h => ⟨a, b, c, d, e, f, g, h⟩
  | constant :: rest, w0, w1, w2, w3, w4, w5, w6, w7, w8, w9, w10, w11, w12, w13, w14, w15, a, b, c, d, e, f, g, h =>
    let sigma0 := Nat.xor (Nat.xor (turned w1 7 25) (turned w1 18 14)) (Nat.shiftRight w1 3)
    let sigma1 := Nat.xor (Nat.xor (turned w14 17 15) (turned w14 19 13)) (Nat.shiftRight w14 10)
    let sum1 := Nat.xor (Nat.xor (turned e 6 26) (turned e 11 21)) (turned e 25 7)
    let choice := Nat.xor (Nat.land e f) (Nat.land (Nat.xor e 4294967295) g)
    let first := Nat.add (Nat.add (Nat.add (Nat.add h sum1) choice) constant) w0
    let sum0 := Nat.xor (Nat.xor (turned a 2 30) (turned a 13 19)) (turned a 22 10)
    let majority := Nat.xor (Nat.xor (Nat.land a b) (Nat.land a c)) (Nat.land b c)
    unrolled rest w1 w2 w3 w4 w5 w6 w7 w8 w9 w10 w11 w12 w13 w14 w15
      (Nat.mod (Nat.add (Nat.add (Nat.add w0 sigma0) w9) sigma1) 4294967296)
      (Nat.mod (Nat.add (Nat.add first sum0) majority) 4294967296) a b c (Nat.mod (Nat.add d first) 4294967296) e f g

theorem unrolled_eq (constants : List Nat) (w0 w1 w2 w3 w4 w5 w6 w7 w8 w9 w10 w11 w12 w13 w14 w15 a b c d e f g h : Nat) :
    rounds constants [w0, w1, w2, w3, w4, w5, w6, w7, w8, w9, w10, w11, w12, w13, w14, w15] ⟨a, b, c, d, e, f, g, h⟩ =
      unrolled constants w0 w1 w2 w3 w4 w5 w6 w7 w8 w9 w10 w11 w12 w13 w14 w15 a b c d e f g h := by
  induction constants generalizing w0 w1 w2 w3 w4 w5 w6 w7 w8 w9 w10 w11 w12 w13 w14 w15 a b c d e f g h with
  | nil => rfl
  | cons constant rest ih => exact ih ..

def compressUnrolled (s : State) (block : List Nat) : State :=
  match (blocks 4 16 block).map bigEndian with
  | [w0, w1, w2, w3, w4, w5, w6, w7, w8, w9, w10, w11, w12, w13, w14, w15] =>
    let r := unrolled roundConstants w0 w1 w2 w3 w4 w5 w6 w7 w8 w9 w10 w11 w12 w13 w14 w15 s.a s.b s.c s.d s.e s.f s.g s.h
    { a := (s.a + r.a) % wordSize, b := (s.b + r.b) % wordSize
      c := (s.c + r.c) % wordSize, d := (s.d + r.d) % wordSize
      e := (s.e + r.e) % wordSize, f := (s.f + r.f) % wordSize
      g := (s.g + r.g) % wordSize, h := (s.h + r.h) % wordSize }
  | _ => compress s block

theorem compressUnrolled_eq : compress = compressUnrolled := by
  funext s block
  unfold compressUnrolled
  split
  · rename_i words
    rw [compress, words, ← unrolled_eq]
  · rfl

/-- The digest by unrolled rounds. -/
def hexUnrolled (bytes : List Nat) : Text :=
  let padded := pad bytes
  let s := (blocks 64 (padded.length / 64) padded).foldl compressUnrolled initial
  ⟨[s.a, s.b, s.c, s.d, s.e, s.f, s.g, s.h].flatMap (Text.hexPadded 8)⟩

theorem sha256Hex_unrolled : sha256Hex = hexUnrolled := by
  funext bytes
  unfold hexUnrolled
  rw [← compressUnrolled_eq]
  rfl

end Sha256

example : sha256Hex (Text.ofString "abc").codes =
    "ba7816bf8f01cfea414140de5dae2223b00361a396177a9cb410ff61f20015ad" := by decide +kernel

end Sippycup.Python

/-! Hex digests are well formed. -/
namespace Sippycup.Python

theorem hexPadded_hex (width n : Nat) : ∀ c ∈ Text.hexPadded width n, isHexCode c = true := by
  induction width generalizing n with
  | zero => exact fun c absent => nomatch absent
  | succ width ih =>
    rw [Text.hexPadded, List.forall_mem_append]
    refine ⟨ih _, List.forall_mem_singleton.mpr ?_⟩
    have digit : ∀ d < 16, isHexCode (Text.hexDigit d) = true := by decide
    exact digit _ (Nat.mod_lt n (by decide))

theorem length_hexPadded (width n : Nat) : (Text.hexPadded width n).length = width := by
  induction width generalizing n with
  | zero => rfl
  | succ width ih => rw [Text.hexPadded, List.length_append, ih, List.length_singleton]

theorem sha256Hex_ok (bytes : List Nat) : sha256Ok (sha256Hex bytes) = true := by
  rw [sha256Ok, Bool.and_eq_true, decide_eq_true_eq, List.all_eq_true]
  constructor
  · simp only [sha256Hex, Text.length, Sha256.digestWords, List.flatMap_cons, List.flatMap_nil,
      List.length_append, length_hexPadded, List.length_nil]
  · intro c member
    obtain ⟨word, -, inside⟩ := List.mem_flatMap.mp member
    exact hexPadded_hex 8 word c inside

end Sippycup.Python
