import ProxyUpgrade.Chain.Json
import ProxyUpgrade.Chain.Quantity
/-!
# The chain's values are read back

A quantity may be written with two digits for each of some bytes, or with no more digits than it
needs. Either way its digits stand for the number (`Quantity.ofDigits?_digits`,
`Quantity.ofDigits?_digitsIn`), which is read if it fits.

Byte strings, addresses and hashes are written as lower-case digits, which are read back as the
bytes they stand for; a number of 256 bits is read back from its shortest text.
-/

namespace ProxyUpgrade

/-! ### Quantities -/

theorem Hex.digits_cons (b : UInt8) (bytes : Bytes) :
    Hex.digits (b :: bytes) =
      Hex.digit (b.toNat / 16) :: Hex.digit (b.toNat % 16) :: Hex.digits bytes := by
  simp [Hex.digits]

namespace Quantity

/-- One digit more. -/
theorem ofDigits?_step {n : Nat} (h : n < 16) (acc : Nat) :
    (if Hex.digit n = '_' then some acc
      else (digitValue? (Hex.digit n)).bind fun d =>
        if d < 16 then some (acc * 16 + d) else none) = some (acc * 16 + n) := by
  have hall : ∀ m ∈ List.range 16,
      Hex.digit m ≠ '_' ∧ digitValue? (Hex.digit m) = some m := by decide
  obtain ⟨hdigit, hvalue⟩ := hall n (List.mem_range.mpr h)
  simp [hdigit, hvalue, h]

/-- **The digits of bytes stand for the number that the bytes stand for.** -/
theorem ofDigits?_digits (bytes : Bytes) :
    ofDigits? 16 (Hex.digits bytes) = some (Bytes.toNat bytes) := by
  rw [ofDigits?, Bytes.toNat]
  -- The induction is on the bytes that are left; the number of those before is the accumulator.
  generalize 0 = acc
  induction bytes generalizing acc with
  | nil => rfl
  | cons b rest ih =>
    have hb : b.toNat < 256 := b.toNat_lt
    have hvalue : (acc * 16 + b.toNat / 16) * 16 + b.toNat % 16 = acc * 256 + b.toNat := by omega
    rw [Hex.digits_cons, List.foldlM_cons, ofDigits?_step (by omega), Option.bind_eq_bind,
      Option.bind_some, List.foldlM_cons, ofDigits?_step (by omega), Option.bind_eq_bind,
      Option.bind_some, hvalue, ih, List.foldl_cons]

/-- A number that fits is read from the text of its bytes. -/
theorem ofText?_encode {bits : Nat} {bytes : Bytes} (h : Bytes.toNat bytes < Bits.count bits) :
    ofText? bits (Hex.encode bytes) = some (Bytes.toNat bytes) := by
  simp [ofText?, Hex.encode, splitBase, ofDigits?_digits, Option.filter, Bits.fits, h]

/-- **The digits of a number stand for the number.** -/
theorem ofDigits?_digitsIn (n : Nat) : ofDigits? 16 (digitsIn 16 n) = some n := by
  rw [ofDigits?]
  induction n using Nat.strongRecOn with
  | ind n ih =>
    rw [digitsIn]
    split
    next hsmall =>
      rw [List.foldlM_cons, ofDigits?_step (by omega)]
      simp
    next hlarge =>
      have hvalue : n / 16 * 16 + n % 16 = n := by omega
      rw [List.foldlM_append, ih (n / 16) (by omega), Option.bind_eq_bind, Option.bind_some,
        List.foldlM_cons, ofDigits?_step (by omega), hvalue]
      rfl

/-- A number that fits is read from its shortest text. -/
theorem ofText?_toHex {bits n : Nat} (h : n < Bits.count bits) :
    ofText? bits (toHex n) = some n := by
  simp [ofText?, toHex, splitBase, ofDigits?_digitsIn, Option.filter, Bits.fits, h]

end Quantity

/-! ### Values -/

theorem Bytes.ofJson?_toJson (bytes : Bytes) : Bytes.ofJson? bytes.toJson = some bytes :=
  Hex.decode?_encode bytes

theorem Bytes.sizedOfJson?_toJson {size : Nat} {bytes : Bytes} (h : bytes.length = size) :
    Bytes.sizedOfJson? size bytes.toJson = some bytes := by
  simp [Bytes.sizedOfJson?, Bytes.ofJson?_toJson, Option.filter, h]

theorem Address.ofJson?_toJson (a : Address) : Address.ofJson? a.toJson = some a := by
  have hbytes : Bytes.sizedOfJson? 20 a.toJson = some a.bytes :=
    Bytes.sizedOfJson?_toJson (Bytes.length_ofNat 20 _)
  rw [Address.ofJson?, hbytes, Option.map_some, Address.ofBytes_bytes]

theorem Hash.ofJson?_toJson (h : Hash) : Hash.ofJson? h.toJson = some h := by
  have hbytes : Bytes.sizedOfJson? 32 h.toJson = some h.bytes :=
    Bytes.sizedOfJson?_toJson (Bytes.length_ofNat 32 _)
  rw [Hash.ofJson?, hbytes, Option.map_some, Hash.ofBytes_bytes]

theorem Word.ofJson?_toJson (w : Word) : Word.ofJson? w.toJson = some w := by
  simp [Word.ofJson?, Word.toJson, Quantity.ofJson?, Quantity.ofText?_toHex w.isLt]

end ProxyUpgrade
