import ProxyUpgrade.Bytes.Basic
/-!
# Percent encoding

In an address of the web a byte that may not stand for itself is written as a percent sign and two
upper-case hexadecimal digits. Which bytes these are depends on the place, so there is one set of
bytes for each. In a form a blank becomes a plus sign as well.
-/

namespace ProxyUpgrade.Url

/-- A set of bytes, by their numbers. -/
abbrev ByteSet : Type := Nat → Bool

namespace ByteSet

/-- Whether a byte is one of the given characters. -/
def isOneOf (chars : List Char) : ByteSet := fun n => chars.any (·.toNat == n)

/-- Control characters and everything beyond ASCII. -/
def controls : ByteSet := fun n => n < 0x20 || 0x7e < n

/-- Encoded in a fragment. -/
def fragment : ByteSet := fun n => controls n || isOneOf [' ', '"', '<', '>', '\x60'] n

/-- Encoded in a query. -/
def query : ByteSet := fun n => controls n || isOneOf [' ', '"', '#', '<', '>'] n

/-- Encoded in a query of one of the special schemes. -/
def specialQuery : ByteSet := fun n => query n || n == 39

/-- Encoded in a path. -/
def path : ByteSet := fun n => fragment n || isOneOf ['#', '?', '\x7b', '\x7d'] n

/-- Encoded in the name and the password of a user. -/
def user : ByteSet := fun n =>
  path n || isOneOf ['/', ':', ';', '=', '@', '[', '\\', ']', '^', '|'] n

/-- Letters and digits. -/
def alphanumeric : ByteSet := fun n =>
  (0x30 ≤ n && n ≤ 0x39) || (0x41 ≤ n && n ≤ 0x5a) || (0x61 ≤ n && n ≤ 0x7a)

/-- Encoded in a form. -/
def form : ByteSet := fun n => !(alphanumeric n || isOneOf ['*', '-', '.', '_'] n)

end ByteSet

/-- The upper-case hexadecimal digit of a number below 16. -/
def upperDigit (n : Nat) : Char := if n < 10 then Char.ofNat (48 + n) else Char.ofNat (55 + n)

/-- An encoded byte. -/
def percentByte (n : Nat) : List Char := ['%', upperDigit (n / 16), upperDigit (n % 16)]

/-- A text with the bytes of a set encoded. -/
def percentEncode (set : ByteSet) (text : List Char) : List Char :=
  (Bytes.ofText (String.ofList text)).flatMap fun b =>
    if set b.toNat then percentByte b.toNat else [Char.ofNat b.toNat]

/-- A text as it stands in a form. -/
def formEncode (text : String) : List Char :=
  (Bytes.ofText text).flatMap fun b =>
    if b.toNat = 0x20 then ['+']
    else if ByteSet.form b.toNat then percentByte b.toNat else [Char.ofNat b.toNat]

/-- The pairs of a form as one text. -/
def formText (pairs : List (String × String)) : List Char :=
  ['&'].intercalate (pairs.map fun (name, value) => formEncode name ++ '=' :: formEncode value)

/-- The value of a hexadecimal digit. -/
def digitValue? (b : UInt8) : Option Nat :=
  let n := b.toNat
  if 0x30 ≤ n ∧ n ≤ 0x39 then some (n - 0x30)
  else if 0x41 ≤ n ∧ n ≤ 0x46 then some (n - 0x37)
  else if 0x61 ≤ n ∧ n ≤ 0x66 then some (n - 0x57)
  else none

/-- Replaces encoded bytes by the bytes they stand for; other percent signs stay. -/
def percentDecode : Bytes → Bytes
  | [] => []
  | [a] => [a]
  | [a, b] => [a, b]
  | a :: b :: c :: rest =>
    if a.toNat = 0x25 then
      match digitValue? b, digitValue? c with
      | some h, some l => UInt8.ofNat (16 * h + l) :: percentDecode rest
      | _, _ => a :: percentDecode (b :: c :: rest)
    else a :: percentDecode (b :: c :: rest)

end ProxyUpgrade.Url
