import Mathlib

/-! Frames with their length in front: four bytes, the most significant first, and then the
payload. -/
namespace Simard.Library

def lengthBytes (n : Nat) : List UInt8 :=
  [UInt8.ofNat (n / 2 ^ 24), UInt8.ofNat (n / 2 ^ 16), UInt8.ofNat (n / 2 ^ 8), UInt8.ofNat n]

def readLength (bytes : List UInt8) : Nat := bytes.foldl (fun n b => n * 256 + b.toNat) 0

def frame (payload : List UInt8) : List UInt8 := lengthBytes payload.length ++ payload

@[simp] theorem length_lengthBytes (n : Nat) : (lengthBytes n).length = 4 := rfl

@[simp] theorem length_frame (payload : List UInt8) :
    (frame payload).length = 4 + payload.length := by
  simp [frame]

@[simp] theorem take_frame (payload : List UInt8) :
    (frame payload).take 4 = lengthBytes payload.length := rfl

@[simp] theorem drop_frame (payload : List UInt8) : (frame payload).drop 4 = payload := rfl

theorem readLength_lengthBytes {n : Nat} (h : n < 2 ^ 32) : readLength (lengthBytes n) = n := by
  simp only [readLength, lengthBytes, List.foldl_cons, List.foldl_nil, UInt8.toNat_ofNat']
  omega

def frameReady (bytes : List UInt8) : Bool :=
  4 ≤ bytes.length && 4 + readLength (bytes.take 4) ≤ bytes.length

theorem frameReady_nil : frameReady [] = false := rfl

theorem frameReady_frame {payload : List UInt8} (hlength : payload.length < 2 ^ 32) :
    frameReady (frame payload) = true := by
  simp [frameReady, readLength_lengthBytes hlength]

theorem take_of_frameReady {payload : List UInt8} (hlength : payload.length < 2 ^ 32) {n : Nat}
    (hready : frameReady ((frame payload).take n) = true) :
    (frame payload).take n = frame payload := by
  simp only [frameReady, Bool.and_eq_true, decide_eq_true_eq, List.length_take, length_frame,
    List.take_take] at hready
  have hmin : min 4 n = 4 := by omega
  rw [hmin, take_frame, readLength_lengthBytes hlength] at hready
  apply List.take_of_length_le
  rw [length_frame]
  omega

end Simard.Library
