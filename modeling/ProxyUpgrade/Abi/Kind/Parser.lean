import ProxyUpgrade.Abi.Kind
import ProxyUpgrade.Abi.Sequence
import ProxyUpgrade.Bytes.Basic
import ProxyUpgrade.Chain.Quantity
/-!
# Reading the name of a kind

A name is an elementary name or a tuple of names in parentheses, after which any number of array
marks follow. `uint` and `int` have 256 bits; a name qualified by another one stands for an
enumeration and is taken as `uint8`.
-/

namespace ProxyUpgrade.Abi.Kind

/-- Whether an identifier may start with a character. -/
def startsName (c : Char) : Bool := c.isAlpha || c = '_' || c = '$'

/-- Whether an identifier may go on with a character. -/
def continuesName (c : Char) : Bool := startsName c || c.isDigit

/-- The identifier in front of a text. -/
def identifier? : Reader (List Char)
  | c :: rest =>
    if startsName c then some (c :: rest.takeWhile continuesName, rest.dropWhile continuesName)
    else none
  | [] => none

/-- A number of bits that a word of numbers may have. -/
def width? (digits : List Char) : Option Nat :=
  (Quantity.ofDecimal? digits).filter fun n => 0 < n && n ≤ 256 && n % 8 == 0

/-- The kind of an elementary name. -/
def elementary? : List Char → Option Kind
  | ['b', 'o', 'o', 'l'] => some bool
  | ['a', 'd', 'd', 'r', 'e', 's', 's'] => some address
  | ['f', 'u', 'n', 'c', 't', 'i', 'o', 'n'] => some function
  | ['s', 't', 'r', 'i', 'n', 'g'] => some string
  | ['b', 'y', 't', 'e', 's'] => some bytes
  | ['u', 'i', 'n', 't'] => some (uint 256)
  | ['i', 'n', 't'] => some (int 256)
  | 'b' :: 'y' :: 't' :: 'e' :: 's' :: digits =>
    ((Quantity.ofDecimal? digits).filter fun n => 0 < n && n ≤ 32).map fixedBytes
  | 'u' :: 'i' :: 'n' :: 't' :: digits => (width? digits).map uint
  | 'i' :: 'n' :: 't' :: digits => (width? digits).map int
  | _ => none

/-- An elementary name, or a qualified one. -/
def root? : Reader Kind := fun text => do
  let (name, rest) ← identifier? text
  match rest with
  | '.' :: rest =>
    match identifier? rest with
    | some (_, rest) => pure (uint 8, rest)
    | none => pure (uint 8, rest)
  | rest => pure (← elementary? name, rest)

/-- The kind with the array marks that follow applied to it. -/
def arrays (kind : Kind) : (fuel : Nat) → List Char → Kind × List Char
  | 0, text => (kind, text)
  | fuel + 1, text =>
    match text with
    | '[' :: ']' :: rest => arrays (array kind) fuel rest
    | '[' :: rest =>
      let digits := rest.takeWhile Char.isDigit
      match Quantity.ofDecimal? digits, rest.dropWhile Char.isDigit with
      | some n, ']' :: rest =>
        if 0 < n ∧ Bits.fits 64 n then arrays (fixedArray kind n) fuel rest else (kind, text)
      | _, _ => (kind, text)
    | text => (kind, text)

/-- The text of a tuple, if one starts here: the word `tuple` may stand before it. -/
def tupleText? : List Char → Option (List Char)
  | '(' :: rest => some ('(' :: rest)
  | 't' :: 'u' :: 'p' :: 'l' :: 'e' :: '(' :: rest => some ('(' :: rest)
  | _ => none

/-- Reads a kind from the front of a text. -/
def read? : (fuel : Nat) → Reader Kind
  | 0, _ => none
  | fuel + 1, text => do
    let (kind, rest) ← match tupleText? text with
      | some text => do
        let (items, rest) ← Sequence.read? '(' ')' (read? fuel) text
        pure (tuple items, rest)
      | none => root? text
    pure (arrays kind rest.length rest)

/-- The kind of a name. Every level of nesting takes at least one character. -/
def ofText? (text : List Char) : Option Kind :=
  match read? (text.length + 1) text with
  | some (kind, []) => some kind
  | _ => none

end ProxyUpgrade.Abi.Kind
