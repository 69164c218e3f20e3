import Simard.Library.Bytes

/-! SHA-256 over byte lists, with words as naturals below `2 ^ 32`, and the
keyed HMAC built on it. Everything is structural recursion, so that a digest of
a concrete message can be computed by the kernel. -/
namespace Simard.Library.Sha256

def rotr (n x : Nat) : Nat :=
  (x >>> n) ||| ((x <<< (32 - n)) % 2 ^ 32)

def ch (x y z : Nat) : Nat :=
  (x &&& y) ^^^ ((x ^^^ 0xffffffff) &&& z)

def maj (x y z : Nat) : Nat :=
  (x &&& y) ^^^ (x &&& z) ^^^ (y &&& z)

def bigSigma0 (x : Nat) : Nat := rotr 2 x ^^^ rotr 13 x ^^^ rotr 22 x

def bigSigma1 (x : Nat) : Nat := rotr 6 x ^^^ rotr 11 x ^^^ rotr 25 x

def smallSigma0 (x : Nat) : Nat := rotr 7 x ^^^ rotr 18 x ^^^ (x >>> 3)

def smallSigma1 (x : Nat) : Nat := rotr 17 x ^^^ rotr 19 x ^^^ (x >>> 10)

def roundConstants : List Nat := [
  0x428a2f98, 0x71374491, 0xb5c0fbcf, 0xe9b5dba5, 0x3956c25b, 0x59f111f1, 0x923f82a4, 0xab1c5ed5,
  0xd807aa98, 0x12835b01, 0x243185be, 0x550c7dc3, 0x72be5d74, 0x80deb1fe, 0x9bdc06a7, 0xc19bf174,
  0xe49b69c1, 0xefbe4786, 0x0fc19dc6, 0x240ca1cc, 0x2de92c6f, 0x4a7484aa, 0x5cb0a9dc, 0x76f988da,
  0x983e5152, 0xa831c66d, 0xb00327c8, 0xbf597fc7, 0xc6e00bf3, 0xd5a79147, 0x06ca6351, 0x14292967,
  0x27b70a85, 0x2e1b2138, 0x4d2c6dfc, 0x53380d13, 0x650a7354, 0x766a0abb, 0x81c2c92e, 0x92722c85,
  0xa2bfe8a1, 0xa81a664b, 0xc24b8b70, 0xc76c51a3, 0xd192e819, 0xd6990624, 0xf40e3585, 0x106aa070,
  0x19a4c116, 0x1e376c08, 0x2748774c, 0x34b0bcb5, 0x391c0cb3, 0x4ed8aa4a, 0x5b9cca4f, 0x682e6ff3,
  0x748f82ee, 0x78a5636f, 0x84c87814, 0x8cc70208, 0x90befffa, 0xa4506ceb, 0xbef9a3f7, 0xc67178f2]

structure State where
  a : Nat
  b : Nat
  c : Nat
  d : Nat
  e : Nat
  f : Nat
  g : Nat
  h : Nat

def initial : State :=
  ⟨0x6a09e667, 0xbb67ae85, 0x3c6ef372, 0xa54ff53a, 0x510e527f, 0x9b05688c, 0x1f83d9ab,
    0x5be0cd19⟩

/-- One round; the round constant and the schedule word come already added. -/
def round (s : State) (input : Nat) : State :=
  let t1 := s.h + bigSigma1 s.e + ch s.e s.f s.g + input
  let t2 := bigSigma0 s.a + maj s.a s.b s.c
  ⟨(t1 + t2) % 2 ^ 32, s.a, s.b, s.c, (s.d + t1) % 2 ^ 32, s.e, s.f, s.g⟩

def schedule : Nat → List Nat → List Nat
  | 0, _ => []
  | _ + 1, [] => []
  | n + 1, word :: window =>
      let next := (smallSigma1 (window.getD 13 0) + window.getD 8 0 +
        smallSigma0 (window.getD 0 0) + word) % 2 ^ 32
      word :: schedule n (window ++ [next])

def compress (s : State) (block : List Nat) : State :=
  let out := (List.zipWith (· + ·) roundConstants (schedule 64 block)).foldl round s
  ⟨(s.a + out.a) % 2 ^ 32, (s.b + out.b) % 2 ^ 32, (s.c + out.c) % 2 ^ 32,
    (s.d + out.d) % 2 ^ 32, (s.e + out.e) % 2 ^ 32, (s.f + out.f) % 2 ^ 32,
    (s.g + out.g) % 2 ^ 32, (s.h + out.h) % 2 ^ 32⟩

/-- The `count` low bytes of a number, most significant first. -/
def bigEndian (n : Nat) : Nat → List Nat
  | 0 => []
  | count + 1 => (n >>> (8 * count)) % 256 :: bigEndian n count

def words : List Nat → List Nat
  | a :: b :: c :: d :: rest => (((a * 256 + b) * 256 + c) * 256 + d) :: words rest
  | _ => []

def pad (message : List Nat) : List Nat :=
  message ++ [0x80] ++ List.replicate ((119 - message.length % 64) % 64) 0 ++
    bigEndian (8 * message.length) 8

def absorb : Nat → List Nat → State → State
  | 0, _, s => s
  | blocks + 1, input, s => absorb blocks (input.drop 16) (compress s (input.take 16))

def digestWords (message : List Nat) : List Nat :=
  let padded := pad message
  let s := absorb (padded.length / 64) (words padded) initial
  [s.a, s.b, s.c, s.d, s.e, s.f, s.g, s.h]

@[irreducible] def digest (message : List UInt8) : List UInt8 :=
  ((digestWords (message.map UInt8.toNat)).flatMap (bigEndian · 4)).map UInt8.ofNat

end Simard.Library.Sha256

namespace Simard.Library

def sha256Hex (bytes : List UInt8) : String :=
  String.ofList (hexLower (Sha256.digest bytes))

theorem sha256Hex_eq_iff {left right : List UInt8} :
    sha256Hex left = sha256Hex right ↔ Sha256.digest left = Sha256.digest right := by
  constructor
  · intro h
    apply hexLower_injective
    exact String.ofList_injective h
  · intro h
    unfold sha256Hex
    rw [h]

example : sha256Hex [0x61, 0x62, 0x63] =
    "ba7816bf8f01cfea414140de5dae2223b00361a396177a9cb410ff61f20015ad" := by
  decide +kernel

def normalizeKey (key : List UInt8) : List UInt8 :=
  let short := if key.length > 64 then Sha256.digest key else key
  short ++ List.replicate (64 - short.length) 0

def hmacSha256Hex (key message : List UInt8) : String :=
  let normalized := normalizeKey key
  let innerDigest := Sha256.digest (normalized.map (0x36 ^^^ ·) ++ message)
  sha256Hex (normalized.map (0x5c ^^^ ·) ++ innerDigest)

end Simard.Library
