import ProxyUpgrade.Json.Basic
/-!
# Reading JSON text

A strict reader: one value, with blanks around tokens and nothing after it. Numbers have no leading
zeros or plus sign, strings no raw control characters. A step of the reader gives what it read and
the rest of the text; the recursion is bounded by the length of the text, of which every value
takes at least one character.
-/

namespace ProxyUpgrade.Json

/-- Blanks between tokens. -/
def isSpace (c : Char) : Bool := c = ' ' || c = '\n' || c = '\t' || c = '\r'

/-- Drops blanks. -/
def skip (text : List Char) : List Char := text.dropWhile isSpace

/-- The value of a hexadecimal digit. -/
def hexValue? (c : Char) : Option Nat :=
  if '0' ≤ c ∧ c ≤ '9' then some (c.toNat - 48)
  else if 'a' ≤ c ∧ c ≤ 'f' then some (c.toNat - 87)
  else if 'A' ≤ c ∧ c ≤ 'F' then some (c.toNat - 55)
  else none

/-- The code unit of four hexadecimal digits. -/
def unit? (a b c d : Char) : Option Nat := do
  pure ((((← hexValue? a) * 16 + (← hexValue? b)) * 16 + (← hexValue? c)) * 16 + (← hexValue? d))

/-- The character of the two halves of a pair. -/
def pairChar? (high low : Nat) : Option Char :=
  if 0xd800 ≤ high ∧ high < 0xdc00 ∧ 0xdc00 ≤ low ∧ low < 0xe000 then
    some (Char.ofNat (0x10000 + (high - 0xd800) * 0x400 + (low - 0xdc00)))
  else none

/-- What a backslash and a letter stand for. -/
def escape? (c : Char) : Option Char :=
  if c = '"' ∨ c = '\\' ∨ c = '/' then some c
  else if c = 'b' then some '\x08'
  else if c = 'f' then some '\x0c'
  else if c = 'n' then some '\n'
  else if c = 'r' then some '\r'
  else if c = 't' then some '\t'
  else none

/-- A part of a string: a character, or half of a surrogate pair. -/
inductive Piece where
  | char (c : Char)
  | half (unit : Nat)

/-- What a code unit is on its own. -/
def Piece.ofUnit (unit : Nat) : Piece :=
  if 0xd800 ≤ unit ∧ unit < 0xe000 then half unit else char (Char.ofNat unit)

/-- The parts of a string after its opening quote, and the text after its closing quote. -/
def stringTail : List Char → Option (List Piece × List Char)
  | [] => none
  | '"' :: rest => some ([], rest)
  | '\\' :: 'u' :: a :: b :: c :: d :: rest => do
    let unit ← unit? a b c d
    let (pieces, after) ← stringTail rest
    pure (.ofUnit unit :: pieces, after)
  | '\\' :: c :: rest => do
    let c ← escape? c
    let (pieces, after) ← stringTail rest
    pure (.char c :: pieces, after)
  | c :: rest =>
    if c.toNat < 0x20 ∨ c = '\\' then none
    else do
      let (pieces, after) ← stringTail rest
      pure (.char c :: pieces, after)

/-- The characters of a string, if every half of a pair is followed by the other half. -/
def wholeChars? : List Piece → Option (List Char)
  | [] => some []
  | .char c :: rest => (wholeChars? rest).map (c :: ·)
  | .half high :: .half low :: rest => do
    let c ← pairChar? high low
    (wholeChars? rest).map (c :: ·)
  | .half _ :: _ => none

/-- The text of a string, if every half of a pair is followed by the other half. -/
def wholeText? (pieces : List Piece) : Option String :=
  (wholeChars? pieces).map String.ofList

/-- The number that decimal digits stand for. -/
def digitsValue (digits : List Char) : Nat :=
  digits.foldl (fun acc c => acc * 10 + (c.toNat - 48)) 0

/-- A digit. -/
def isDigit (c : Char) : Bool := '0' ≤ c && c ≤ '9'

/-- The exponent of a number, if one follows: its value and the rest. -/
def exponentPart? : List Char → Option (Option Int × List Char)
  | c :: rest =>
    if c = 'e' ∨ c = 'E' then
      let (negative, rest) := match rest with
        | '-' :: r => (true, r)
        | '+' :: r => (false, r)
        | r => (false, r)
      let digits := rest.takeWhile isDigit
      if digits.isEmpty then none
      else
        let n := Int.ofNat (digitsValue digits)
        some (some (if negative then -n else n), rest.dropWhile isDigit)
    else some (none, c :: rest)
  | [] => some (none, [])

/-- The fraction of a number, if one follows: its digits and the rest. -/
def fractionPart? : List Char → Option (Option (List Char) × List Char)
  | '.' :: rest =>
    let digits := rest.takeWhile isDigit
    if digits.isEmpty then none else some (some digits, rest.dropWhile isDigit)
  | rest => some (none, rest)

/-- A number without its sign. -/
def unsigned (negative : Bool) (text : List Char) : Option (Json × List Char) := do
  let whole := text.takeWhile isDigit
  let rest := text.dropWhile isDigit
  if whole.isEmpty ∨ (whole.head? = some '0' ∧ 1 < whole.length) then none
  else
    let (fraction, rest) ← fractionPart? rest
    let (exponent, rest) ← exponentPart? rest
    match fraction, exponent with
    | none, none =>
      let n := digitsValue whole
      if negative ∧ n = 0 then pure (decimal true 0 0, rest)
      else pure (integer (if negative then -Int.ofNat n else Int.ofNat n), rest)
    | _, _ =>
      let digits := fraction.getD []
      pure (decimal negative (digitsValue (whole ++ digits))
        (exponent.getD 0 - Int.ofNat digits.length), rest)

/-- The text after a word that it must start with. -/
def word? (word : List Char) (text : List Char) : Option (List Char) :=
  if word.isPrefixOf text then some (text.drop word.length) else none

/-- Members of an object whose names are all whole. -/
def ofMembers (members : List (Option String × Json)) : Json :=
  match members.mapM fun (name, json) => name.map (·, json) with
  | some members => object members
  | none => unreadable

mutual

/-- One value, and the rest of the text. -/
def value (fuel : Nat) (text : List Char) : Option (Json × List Char) :=
  match fuel with
  | 0 => none
  | fuel + 1 =>
    match skip text with
    | [] => none
    | '"' :: rest => do
      let (pieces, rest) ← stringTail rest
      pure ((wholeText? pieces).elim unreadable string, rest)
    | '[' :: rest =>
      match skip rest with
      | ']' :: rest => some (array [], rest)
      | _ => do
        let (items, rest) ← items fuel rest
        pure (array items, rest)
    | '{' :: rest =>
      match skip rest with
      | '}' :: rest => some (object [], rest)
      | _ => do
        let (members, rest) ← members fuel rest
        pure (ofMembers members, rest)
    | '-' :: rest => unsigned true rest
    | 't' :: rest => (word? ['r', 'u', 'e'] rest).map (bool true, ·)
    | 'f' :: rest => (word? ['a', 'l', 's', 'e'] rest).map (bool false, ·)
    | 'n' :: rest => (word? ['u', 'l', 'l'] rest).map (null, ·)
    | rest => unsigned false rest

/-- The items of an array from the first on, up to and with its closing bracket. -/
def items (fuel : Nat) (text : List Char) : Option (List Json × List Char) :=
  match fuel with
  | 0 => none
  | fuel + 1 => do
    let (item, rest) ← value fuel text
    match skip rest with
    | ',' :: rest =>
      let (more, rest) ← items fuel rest
      pure (item :: more, rest)
    | ']' :: rest => pure ([item], rest)
    | _ => none

/-- The members of an object from the first on, up to and with its closing brace. -/
def members (fuel : Nat) (text : List Char) :
    Option (List (Option String × Json) × List Char) :=
  match fuel with
  | 0 => none
  | fuel + 1 =>
    match skip text with
    | '"' :: rest => do
      let (name, rest) ← stringTail rest
      match skip rest with
      | ':' :: rest =>
        let (json, rest) ← value fuel rest
        match skip rest with
        | ',' :: rest =>
          let (more, rest) ← members fuel rest
          pure ((wholeText? name, json) :: more, rest)
        | '}' :: rest => pure ([(wholeText? name, json)], rest)
        | _ => none
      | _ => none
    | _ => none

end

/-- Reads a text that holds one document and nothing else. -/
def parse? (text : String) : Option Json := do
  let chars := text.toList
  let (json, rest) ← value (2 * chars.length + 2) chars
  if (skip rest).isEmpty then pure json else none

end ProxyUpgrade.Json
