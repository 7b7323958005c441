/-!
# Bits and byte strings

A number fits so many bits if it is less than their power of two, or lies between half of it on
either side of zero where one of the bits is for the sign.

A byte string is a list of bytes. This module fixes the big-endian reading of a byte string as a
natural number and the writing of a number into a fixed width, which every word of the chain's
formats is made of.

* `Bytes.ofNat width n` keeps the low `width` bytes of `n`, most significant first.
* `Bytes.toNat` reads a byte string of any length; it is a left inverse of writing as long as the
  number fits (`Bytes.toNat_ofNat`).
-/

namespace ProxyUpgrade

namespace Bits

/-- How many numbers so many bits can hold. -/
def count (bits : Nat) : Nat := Nat.pow 2 bits

/-- Whether so many bits can hold a number. -/
def fits (bits n : Nat) : Bool := n < count bits

/-- Whether so many bits, one of them for the sign, can hold a number. -/
def fitsSigned (bits : Nat) (n : Int) : Bool :=
  -Int.ofNat (count (bits - 1)) ≤ n && n < Int.ofNat (count (bits - 1))

end Bits

/-- A byte string. -/
abbrev Bytes := List UInt8

namespace Bytes

/-- The number a byte string stands for, most significant byte first. -/
def toNat (bytes : Bytes) : Nat :=
  bytes.foldl (fun acc b => acc * 256 + b.toNat) 0

/-- The low `width` bytes of a number, most significant byte first. -/
def ofNat : (width : Nat) → Nat → Bytes
  | 0, _ => []
  | width + 1, n => ofNat width (n / 256) ++ [UInt8.ofNat n]

@[simp] theorem length_ofNat (width n : Nat) : (ofNat width n).length = width := by
  induction width generalizing n with
  | zero => rfl
  | succ width ih => simp [ofNat, ih]

@[simp] theorem toNat_append_singleton (bytes : Bytes) (b : UInt8) :
    toNat (bytes ++ [b]) = toNat bytes * 256 + b.toNat := by
  simp [toNat]

/-- Writing a number keeps it modulo the power of 256 that the width allows. -/
theorem toNat_ofNat_mod (width n : Nat) : toNat (ofNat width n) = n % Nat.pow 256 width := by
  induction width generalizing n with
  | zero => exact (Nat.mod_one n).symm
  | succ width ih =>
    have hb : (UInt8.ofNat n).toNat = n % 256 := by simp
    have hp : Nat.pow 256 (width + 1) = 256 * Nat.pow 256 width := Nat.mul_comm _ _
    rw [ofNat, toNat_append_singleton, ih, hb, hp, Nat.mod_mul]
    omega

/-- **A number that fits its width is read back.** -/
theorem toNat_ofNat {width n : Nat} (h : n < Nat.pow 256 width) : toNat (ofNat width n) = n := by
  rw [toNat_ofNat_mod, Nat.mod_eq_of_lt h]

/-- The bytes of a text in UTF-8. -/
def ofText (text : String) : Bytes := text.toUTF8.toList

/-- The text that a byte string encodes in UTF-8, if it does. -/
def toText? (bytes : Bytes) : Option String :=
  String.fromUTF8? ⟨bytes.toArray⟩

/-- A byte string filled up with zero bytes on the right to a multiple of `size`. -/
def padRight (size : Nat) (bytes : Bytes) : Bytes :=
  bytes ++ List.replicate ((size - bytes.length % size) % size) 0

/-- The pieces of `size + 1` bytes of a byte string, the last one possibly shorter. -/
def pieces (size : Nat) (bytes : Bytes) : List Bytes :=
  match bytes with
  | [] => []
  | b :: rest => (b :: rest.take size) :: pieces size (rest.drop size)
termination_by bytes.length
decreasing_by simp only [List.length_drop, List.length_cons]; omega

end Bytes

end ProxyUpgrade
