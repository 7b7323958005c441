import ProxyUpgrade.Bytes.Hex
import ProxyUpgrade.Crypto.Keccak
/-!
# Addresses and hashes

Accounts and contracts are named by 20 bytes, code and transactions by 32. Both are written in
lower-case hexadecimal; within a message an address is written in its checksum form, where the
case of each letter is a bit of the hash of the digits. Reading accepts any case and does not
check it, so both forms are read back (`Address.ofHex?_toHex`, `Hash.ofHex?_toHex`).
-/

namespace ProxyUpgrade

/-- The 20 bytes of an account. -/
structure Address where
  word : BitVec 160
  deriving DecidableEq

/-- A hash of 32 bytes. -/
structure Hash where
  word : BitVec 256
  deriving DecidableEq

/-- A number of 256 bits. -/
abbrev Word := BitVec 256

namespace Address

/-- The address that stands for none. -/
def zero : Address := ⟨0⟩

instance : Inhabited Address := ⟨zero⟩

/-- The number an address is, as a word. -/
def toNat (a : Address) : Nat := a.word.toNat

/-- The bytes of an address. -/
def bytes (a : Address) : Bytes := Bytes.ofNat 20 a.word.toNat

/-- The address made of the low 20 bytes of a number. -/
def ofNat (n : Nat) : Address := ⟨BitVec.ofNat 160 n⟩

/-- The address that a byte string of any length ends in. -/
def ofBytes (bytes : Bytes) : Address := ofNat (Bytes.toNat bytes)

/-- The lower-case text of an address. -/
def toHex (a : Address) : String := Hex.encode a.bytes

/-- Reads 40 digits of any case, with or without the mark. -/
def ofHex? (text : String) : Option Address :=
  (Hex.decodeSized? 20 text).map ofBytes

/-- The text of an address with a checksum in the case of its letters. -/
def checksum (a : Address) : String :=
  let digits := Hex.digits a.bytes
  let marks := Hex.digits (Keccak.hash (digits.map fun c => UInt8.ofNat c.toNat))
  String.ofList ('0' :: 'x' :: (digits.zip marks).map fun (c, mark) =>
    if mark < '8' then c else c.toUpper)

instance : ToString Address := ⟨checksum⟩

instance : Ord Address := ⟨fun a b => compare a.toNat b.toNat⟩

theorem toNat_inj {a b : Address} : a.toNat = b.toNat ↔ a = b := by
  rw [toNat, toNat, BitVec.toNat_inj, mk.injEq]

theorem toNat_lt (a : Address) : a.toNat < Nat.pow 256 20 := a.word.isLt

theorem ofBytes_bytes (a : Address) : ofBytes a.bytes = a := by
  have h : Bytes.toNat (Bytes.ofNat 20 a.word.toNat) = a.word.toNat :=
    Bytes.toNat_ofNat a.word.isLt
  simp [ofBytes, bytes, h, ofNat]

/-- **The lower-case text is read back.** -/
theorem ofHex?_toHex (a : Address) : ofHex? a.toHex = some a := by
  simp [ofHex?, toHex, Hex.decodeSized?, Hex.decode?_encode, Option.filter, ofBytes_bytes]
  simp [bytes]

theorem toHex_injective {a b : Address} (h : a.toHex = b.toHex) : a = b := by
  have := congrArg ofHex? h
  simpa [ofHex?_toHex] using this

end Address

namespace Hash

/-- The hash that stands for none. -/
def zero : Hash := ⟨0⟩

instance : Inhabited Hash := ⟨zero⟩

/-- The bytes of a hash. -/
def bytes (h : Hash) : Bytes := Bytes.ofNat 32 h.word.toNat

/-- The hash made of the low 32 bytes of a number. -/
def ofNat (n : Nat) : Hash := ⟨BitVec.ofNat 256 n⟩

/-- The hash that a byte string of any length ends in. -/
def ofBytes (bytes : Bytes) : Hash := ofNat (Bytes.toNat bytes)

/-- The Keccak-256 hash of a message. -/
def keccak (message : Bytes) : Hash := ofBytes (Keccak.hash message)

/-- The lower-case text of a hash. -/
def toHex (h : Hash) : String := Hex.encode h.bytes

/-- Reads 64 digits of any case, with or without the mark. -/
def ofHex? (text : String) : Option Hash :=
  (Hex.decodeSized? 32 text).map ofBytes

instance : ToString Hash := ⟨toHex⟩

theorem toNat_lt (h : Hash) : h.word.toNat < Nat.pow 256 32 := h.word.isLt

theorem ofBytes_bytes (h : Hash) : ofBytes h.bytes = h := by
  have hn : Bytes.toNat (Bytes.ofNat 32 h.word.toNat) = h.word.toNat :=
    Bytes.toNat_ofNat h.word.isLt
  simp [ofBytes, bytes, hn, ofNat]

/-- **The text is read back.** -/
theorem ofHex?_toHex (h : Hash) : ofHex? h.toHex = some h := by
  simp [ofHex?, toHex, Hex.decodeSized?, Hex.decode?_encode, Option.filter, ofBytes_bytes]
  simp [bytes]

/-- The last 20 bytes of a hash, as an address. -/
def address (h : Hash) : Address := Address.ofNat h.word.toNat

end Hash

/-- The account that a secret key signs for. -/
def Address.ofPublicBytes (publicBytes : Bytes) : Address :=
  (Hash.keccak publicBytes).address

end ProxyUpgrade
