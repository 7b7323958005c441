import ProxyUpgrade.Bytes.Basic
import ProxyUpgrade.Bytes.Hex
/-!
# Quantities

Numbers of the chain are written in hexadecimal without leading zeros, zero as `0x0`. Reading takes
any of the four bases by their marks `0x`, `0b`, `0o` or none, either case of mark and digits, and
underscores anywhere between digits; a text without digits is zero. A number that does not fit the
given width is refused.
-/

namespace ProxyUpgrade.Quantity

/-- The digits of a number in a base, most significant first; zero has the digit zero. -/
def digitsIn (base : Nat) (n : Nat) : List Char :=
  if n < base ∨ base < 2 then [Hex.digit n]
  else digitsIn base (n / base) ++ [Hex.digit (n % base)]
termination_by n
decreasing_by exact Nat.div_lt_self (by omega) (by omega)

/-- The hexadecimal text of a number, without leading zeros. -/
def toHex (n : Nat) : String := String.ofList ('0' :: 'x' :: digitsIn 16 n)

/-- The value of a digit in bases up to 36. -/
def digitValue? (c : Char) : Option Nat :=
  if '0' ≤ c ∧ c ≤ '9' then some (c.toNat - 48)
  else if 'a' ≤ c ∧ c ≤ 'z' then some (c.toNat - 87)
  else if 'A' ≤ c ∧ c ≤ 'Z' then some (c.toNat - 55)
  else none

/-- The number that digits of a base stand for; underscores are skipped. -/
def ofDigits? (base : Nat) (digits : List Char) : Option Nat :=
  digits.foldlM (fun acc c =>
    if c = '_' then some acc
    else (digitValue? c).bind fun d => if d < base then some (acc * base + d) else none) 0

/-- The base that a text announces, and its digits. -/
def splitBase : List Char → Nat × List Char
  | '0' :: mark :: rest =>
    if mark = 'x' ∨ mark = 'X' then (16, rest)
    else if mark = 'o' ∨ mark = 'O' then (8, rest)
    else if mark = 'b' ∨ mark = 'B' then (2, rest)
    else (10, '0' :: mark :: rest)
  | text => (10, text)

/-- Reads a number of at most `bits` bits. -/
def ofText? (bits : Nat) (text : String) : Option Nat :=
  let (base, digits) := splitBase text.toList
  (ofDigits? base digits).filter (Bits.fits bits)

/-- The decimal digits of a text that holds nothing else and at least one, as a number. -/
def ofDecimal? (digits : List Char) : Option Nat :=
  if digits.isEmpty then none
  else digits.foldlM (fun acc c =>
    if '0' ≤ c ∧ c ≤ '9' then some (acc * 10 + (c.toNat - 48)) else none) 0

end ProxyUpgrade.Quantity
