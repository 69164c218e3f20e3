import Simard.Library.Bytes

/-! SipHash over bytes, with words as naturals below `2 ^ 64`, and the hash of a text that a
standard library builds on it. -/
namespace Simard.Library.SipHash

def add (x y : Nat) : Nat := (x + y) % 2 ^ 64

def rotl (n x : Nat) : Nat := (x <<< n) % 2 ^ 64 ||| x >>> (64 - n)

structure State where
  v0 : Nat
  v1 : Nat
  v2 : Nat
  v3 : Nat

def initial (k0 k1 : Nat) : State :=
  ⟨k0 ^^^ 0x736f6d6570736575, k1 ^^^ 0x646f72616e646f6d, k0 ^^^ 0x6c7967656e657261,
    k1 ^^^ 0x7465646279746573⟩

def round (s : State) : State :=
  let v0 := add s.v0 s.v1
  let v1 := rotl 13 s.v1 ^^^ v0
  let v2 := add s.v2 s.v3
  let v3 := rotl 16 s.v3 ^^^ v2
  let w0 := add (rotl 32 v0) v3
  let w2 := add v2 v1
  ⟨w0, rotl 17 v1 ^^^ w2, rotl 32 w2, rotl 21 v3 ^^^ w0⟩

def rounds : Nat → State → State
  | 0, s => s
  | n + 1, s => rounds n (round s)

def compress (c : Nat) (s : State) (word : Nat) : State :=
  let mixed := rounds c { s with v3 := s.v3 ^^^ word }
  { mixed with v0 := mixed.v0 ^^^ word }

/-- The words of a message, least byte first; the last one has the length on top. -/
def words (length : Nat) : List UInt8 → List Nat
  | b0 :: b1 :: b2 :: b3 :: b4 :: b5 :: b6 :: b7 :: rest =>
      [b0, b1, b2, b3, b4, b5, b6, b7].foldr (fun b n => n * 256 + b.toNat) 0 :: words length rest
  | rest => [rest.foldr (fun b n => n * 256 + b.toNat) 0 + (length % 256) * 2 ^ 56]

/-- SipHash with `c` rounds for every word and `d` at the end. -/
def sipHash (c d k0 k1 : Nat) (message : List UInt8) : Nat :=
  let absorbed := (words message.length message).foldl (compress c) (initial k0 k1)
  let final := rounds d { absorbed with v2 := absorbed.v2 ^^^ 0xff }
  final.v0 ^^^ final.v1 ^^^ final.v2 ^^^ final.v3

example : sipHash 2 4 0x0706050403020100 0x0f0e0d0c0b0a0908
    [0, 1, 2, 3, 4, 5, 6, 7, 8, 9, 10, 11, 12, 13, 14] = 0xa129ca6149be45e5 := by
  decide

/-- The default hasher: one round a word, three at the end, no key; a text ends in `0xff`. -/
def defaultHash (text : List Char) : UInt64 :=
  .ofNat (sipHash 1 3 0 0 (utf8 text ++ [0xff]))

end Simard.Library.SipHash
