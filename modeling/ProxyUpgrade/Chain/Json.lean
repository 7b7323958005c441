import ProxyUpgrade.Bytes.Basic
import ProxyUpgrade.Chain.Address
import ProxyUpgrade.Chain.Quantity
import ProxyUpgrade.Json.Basic
/-!
# The chain's values in JSON

Byte strings, addresses and hashes are strings of hexadecimal digits, and may also be given as
arrays of numbers below 256. A 256-bit number is written as a minimal hexadecimal string and read
from any string that `Quantity.ofText?` takes, or from an integer of 64 bits.
-/

namespace ProxyUpgrade

/-- A byte given as a number. -/
def Json.byte? : Json → Option UInt8
  | .integer n => if 0 ≤ n ∧ n < 256 then some (UInt8.ofNat n.toNat) else none
  | _ => none

/-- A byte string. -/
def Bytes.ofJson? : Json → Option Bytes
  | .string text => Hex.decode? text
  | .array items => items.mapM Json.byte?
  | _ => none

/-- A byte string as JSON. -/
def Bytes.toJson (bytes : Bytes) : Json := .string (Hex.encode bytes)

/-- A byte string of a given size. -/
def Bytes.sizedOfJson? (size : Nat) (json : Json) : Option Bytes :=
  (Bytes.ofJson? json).filter (·.length == size)

/-- An address from JSON. -/
def Address.ofJson? (json : Json) : Option Address :=
  (Bytes.sizedOfJson? 20 json).map Address.ofBytes

/-- An address as JSON. -/
def Address.toJson (a : Address) : Json := .string a.toHex

/-- A hash from JSON. -/
def Hash.ofJson? (json : Json) : Option Hash :=
  (Bytes.sizedOfJson? 32 json).map Hash.ofBytes

/-- A hash as JSON. -/
def Hash.toJson (h : Hash) : Json := .string h.toHex

/-- A number of at most `bits` bits, from a string or from an integer of 64 bits. -/
def Quantity.ofJson? (bits : Nat) : Json → Option Nat
  | .string text => Quantity.ofText? bits text
  | json => json.nat64?.filter (Bits.fits bits)

/-- A number of 256 bits from JSON. -/
def Word.ofJson? (json : Json) : Option Word := (Quantity.ofJson? 256 json).map (BitVec.ofNat 256)

/-- A number of 256 bits as JSON. -/
def Word.toJson (w : Word) : Json := .string (Quantity.toHex w.toNat)

end ProxyUpgrade
