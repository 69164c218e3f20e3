import Mathlib

/-! Byte strings and their printable forms: UTF-8, lower-case hexadecimal and
padded base64. Each form determines the bytes it was made from. -/
namespace Simard.Library

def utf8 (s : List Char) : List UInt8 :=
  s.flatMap String.utf8EncodeChar

theorem utf8_injective : Function.Injective utf8 := by
  intro a b h
  have hbytes : a.utf8Encode = b.utf8Encode := by
    simp only [List.utf8Encode]
    exact congrArg List.toByteArray h
  have hread := congrArg ByteArray.utf8Decode? hbytes
  rw [List.utf8Decode?_utf8Encode, List.utf8Decode?_utf8Encode, Option.some.injEq] at hread
  simpa using hread

def hexDigit (n : Nat) : Char :=
  if n < 10 then Char.ofNat (48 + n) else Char.ofNat (87 + n)

def hexValue (c : Char) : Nat :=
  if c.toNat < 58 then c.toNat - 48 else c.toNat - 87

theorem hexValue_hexDigit (n : Nat) (h : n < 16) : hexValue (hexDigit n) = n := by
  revert n
  decide

/-- Two digits a byte, the high half first. -/
def hexLower : List UInt8 → List Char
  | [] => []
  | byte :: rest =>
      hexDigit (byte.toNat / 16) :: hexDigit (byte.toNat % 16) :: hexLower rest

private theorem byte_halves {a b : UInt8}
    (hhigh : hexDigit (a.toNat / 16) = hexDigit (b.toNat / 16))
    (hlow : hexDigit (a.toNat % 16) = hexDigit (b.toNat % 16)) : a = b := by
  have ha := a.toNat_lt
  have hb := b.toNat_lt
  have h1 := congrArg hexValue hhigh
  have h2 := congrArg hexValue hlow
  rw [hexValue_hexDigit _ (by omega), hexValue_hexDigit _ (by omega)] at h1
  rw [hexValue_hexDigit _ (by omega), hexValue_hexDigit _ (by omega)] at h2
  apply UInt8.toNat_inj.mp
  omega

theorem hexLower_injective : Function.Injective hexLower := by
  intro left
  induction left with
  | nil =>
    intro right h
    cases right with
    | nil => rfl
    | cons b right => simp [hexLower] at h
  | cons a left ih =>
    intro right h
    cases right with
    | nil => simp [hexLower] at h
    | cons b right =>
      simp only [hexLower, List.cons.injEq] at h
      rw [byte_halves h.1 h.2.1, ih h.2.2]

namespace Base64

def digit (n : Nat) : Char :=
  if n < 26 then Char.ofNat (65 + n)
  else if n < 52 then Char.ofNat (71 + n)
  else if n < 62 then Char.ofNat (n - 4)
  else if n = 62 then '+' else '/'

def value (c : Char) : Option Nat :=
  let n := c.toNat
  if 65 ≤ n ∧ n ≤ 90 then some (n - 65)
  else if 97 ≤ n ∧ n ≤ 122 then some (n - 71)
  else if 48 ≤ n ∧ n ≤ 57 then some (n + 4)
  else if c = '+' then some 62
  else if c = '/' then some 63
  else none

def encode : List UInt8 → List Char
  | [] => []
  | [a] => [digit (a.toNat / 4), digit (a.toNat % 4 * 16), '=', '=']
  | [a, b] =>
      [digit (a.toNat / 4), digit (a.toNat % 4 * 16 + b.toNat / 16),
        digit (b.toNat % 16 * 4), '=']
  | a :: b :: c :: rest =>
      digit (a.toNat / 4) :: digit (a.toNat % 4 * 16 + b.toNat / 16) ::
        digit (b.toNat % 16 * 4 + c.toNat / 64) :: digit (c.toNat % 64) :: encode rest

/-- Padding closes the text; the bits beyond the last byte are dropped here and
left to the caller to check. -/
def decode : List Char → Option (List UInt8)
  | [] => some []
  | p :: q :: r :: s :: rest => do
      let x ← value p
      let y ← value q
      if r = '=' then
        if s = '=' ∧ rest = [] then some [UInt8.ofNat (x * 4 + y / 16)] else none
      else if s = '=' then do
        let z ← value r
        if rest = [] then
          some [UInt8.ofNat (x * 4 + y / 16), UInt8.ofNat (y % 16 * 16 + z / 4)]
        else none
      else do
        let z ← value r
        let w ← value s
        let tail ← decode rest
        some (UInt8.ofNat (x * 4 + y / 16) :: UInt8.ofNat (y % 16 * 16 + z / 4) ::
          UInt8.ofNat (z % 4 * 64 + w) :: tail)
  | _ => none

private theorem value_digit (n : Nat) (h : n < 64) : value (digit n) = some n := by
  revert n
  decide

private theorem digit_ne_pad (n : Nat) (h : n < 64) : digit n ≠ '=' := by
  revert n
  decide

private theorem ofNat_eq {n : Nat} {a : UInt8} (h : n = a.toNat) : UInt8.ofNat n = a := by
  rw [h, UInt8.ofNat_toNat]

@[simp] theorem decode_encode (bytes : List UInt8) : decode (encode bytes) = some bytes := by
  fun_induction encode bytes with
  | case1 => rfl
  | case2 a =>
    have ha := a.toNat_lt
    simp only [decode, value_digit _ (show a.toNat / 4 < 64 by omega),
      value_digit _ (show a.toNat % 4 * 16 < 64 by omega)]
    simp only [Option.bind_eq_bind, Option.bind_some, if_true, and_self]
    rw [ofNat_eq (a := a) (by omega)]
  | case3 a b =>
    have ha := a.toNat_lt
    have hb := b.toNat_lt
    simp only [decode, value_digit _ (show a.toNat / 4 < 64 by omega),
      value_digit _ (show a.toNat % 4 * 16 + b.toNat / 16 < 64 by omega),
      value_digit _ (show b.toNat % 16 * 4 < 64 by omega),
      digit_ne_pad _ (show b.toNat % 16 * 4 < 64 by omega)]
    simp only [Option.bind_eq_bind, Option.bind_some, if_true, if_false]
    rw [ofNat_eq (a := a) (by omega), ofNat_eq (a := b) (by omega)]
  | case4 a b c rest ih =>
    have ha := a.toNat_lt
    have hb := b.toNat_lt
    have hc := c.toNat_lt
    simp only [decode, value_digit _ (show a.toNat / 4 < 64 by omega),
      value_digit _ (show a.toNat % 4 * 16 + b.toNat / 16 < 64 by omega),
      value_digit _ (show b.toNat % 16 * 4 + c.toNat / 64 < 64 by omega),
      value_digit _ (show c.toNat % 64 < 64 by omega),
      digit_ne_pad _ (show b.toNat % 16 * 4 + c.toNat / 64 < 64 by omega),
      digit_ne_pad _ (show c.toNat % 64 < 64 by omega), ih]
    simp only [Option.bind_eq_bind, Option.bind_some, if_false]
    rw [ofNat_eq (a := a) (by omega), ofNat_eq (a := b) (by omega), ofNat_eq (a := c) (by omega)]

end Base64

end Simard.Library
