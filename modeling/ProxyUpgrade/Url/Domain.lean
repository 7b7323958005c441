import ProxyUpgrade.Bytes.Basic
import ProxyUpgrade.Text.Basic
import ProxyUpgrade.Text.Quoted
import ProxyUpgrade.Url.Percent
import ProxyUpgrade.Url.Punycode
/-!
# Domain names

The name of a host is brought into one form: letters become lower case, full-width characters their
plain counterparts, the points of other scripts plain points, and characters without effect are
dropped. A label with characters beyond ASCII is then written in Punycode after the mark `xn--`.
Names with characters that no host can have are refused.

Case is mapped for the Latin, Greek, Cyrillic and Armenian scripts, in which upper and lower case
stand at fixed distances; other letters stay as they are.
-/

namespace ProxyUpgrade.Url.Domain

/-- The lower-case code point of one. -/
def lowerPoint (n : Nat) : Nat :=
  if 0x41 ≤ n ∧ n ≤ 0x5a then n + 32
  else if (0xc0 ≤ n ∧ n ≤ 0xde) ∧ n ≠ 0xd7 then n + 32
  else if (0x100 ≤ n ∧ n ≤ 0x137 ∧ n ≠ 0x130) ∨ (0x14a ≤ n ∧ n ≤ 0x177) then n + (n + 1) % 2
  else if (0x139 ≤ n ∧ n ≤ 0x148) ∨ (0x179 ≤ n ∧ n ≤ 0x17e) then n + n % 2
  else if n = 0x178 then 0xff
  else if (0x391 ≤ n ∧ n ≤ 0x3ab) ∧ n ≠ 0x3a2 then n + 32
  else if n = 0x386 then 0x3ac
  else if 0x388 ≤ n ∧ n ≤ 0x38a then n + 37
  else if n = 0x38c then 0x3cc
  else if n = 0x38e ∨ n = 0x38f then n + 63
  else if 0x400 ≤ n ∧ n ≤ 0x40f then n + 80
  else if 0x410 ≤ n ∧ n ≤ 0x42f then n + 32
  else if (0x460 ≤ n ∧ n ≤ 0x481) ∨ (0x48a ≤ n ∧ n ≤ 0x4bf) ∨ (0x4d0 ≤ n ∧ n ≤ 0x52f) then
    n + (n + 1) % 2
  else if 0x531 ≤ n ∧ n ≤ 0x556 then n + 48
  else if (0x1e00 ≤ n ∧ n ≤ 0x1e95) ∨ (0x1ea0 ≤ n ∧ n ≤ 0x1eff) then n + (n + 1) % 2
  else n

/-- Whether a character has no effect in a name. -/
def isIdle (n : Nat) : Bool :=
  n = 0xad || n = 0x200b || n = 0x2060 || n = 0xfeff || n = 0x34f || (0xfe00 ≤ n && n ≤ 0xfe0f)

/-- The code point that stands for a full-width one or for a point of another script. -/
def plainPoint (n : Nat) : Nat :=
  if 0xff01 ≤ n ∧ n ≤ 0xff5e then n - 0xfee0
  else if n = 0x3002 ∨ n = 0xff61 then 0x2e
  else n

/-- A name in its one form, before labels are written in ASCII. -/
def mapped (name : List Char) : List Char :=
  (name.filter (!isIdle ·.toNat)).map fun c => Char.ofNat (lowerPoint (plainPoint c.toNat))

/-- Whether no name can have a character. -/
def isForbidden (c : Char) : Bool :=
  let n := c.toNat
  if n < 128 then
    n ≤ 0x20 || n = 0x7f ||
      ['%', '#', '/', ':', '<', '>', '?', '@', '[', '\\', ']', '^', '|'].contains c
  else Text.isBlank c || !Text.isPrintable c || n = 0xfffd

/-- The pieces of a name between its points. -/
def labels : List Char → List (List Char)
  | [] => [[]]
  | c :: rest =>
    if c = '.' then [] :: labels rest
    else match labels rest with
      | [] => [[c]]
      | label :: more => (c :: label) :: more

/-- The mark in front of a label in Punycode. -/
def mark : List Char := ['x', 'n', '-', '-']

/-- A label in ASCII. -/
def labelToAscii? (label : List Char) : Option (List Char) :=
  if label.any (128 ≤ ·.toNat) then some (mark ++ Punycode.encode label)
  else if mark.isPrefixOf label then
    match Punycode.decode? (label.drop 4) with
    | some inner =>
      if inner.any (128 ≤ ·.toNat) ∧ !inner.any isForbidden ∧ mapped inner = inner then some label
      else none
    | none => none
  else some label

/-- A name in ASCII, if it can be the name of a host. -/
def toAscii? (name : List Char) : Option (List Char) :=
  let name := mapped name
  if name.any isForbidden then none
  else do pure (['.'].intercalate (← (labels name).mapM labelToAscii?))

end ProxyUpgrade.Url.Domain
