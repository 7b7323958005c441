import ProxyUpgrade.Text.Basic
/-!
# Strings of TOML

A string stands between double quotes, with escapes, or between single ones, without; either may be
written three times, and then the string may go on over several lines. A line feed right after the
opening mark does not count.

The writer (`quote`) prefers double quotes. It takes single ones for a text with double quotes or
backslashes, as long as nothing in the text needs an escape, and the threefold mark for a text with
line feeds or, between single quotes, with single quotes.
-/

namespace ProxyUpgrade.Toml

/-! ### Reading -/

/-- Whether a character may stand for itself in strings and comments. -/
def isPlain (c : Char) : Bool := c = '\t' || (0x20 ≤ c.toNat && c.toNat ≠ 0x7f)

/-- Blanks within a line. -/
def isWhite (c : Char) : Bool := c = ' ' || c = '\t'

/-- The single quote. -/
def apostrophe : Char := Char.ofNat 39

/-- The value of a hexadecimal digit. -/
def hexValue? (c : Char) : Option Nat :=
  if '0' ≤ c ∧ c ≤ '9' then some (c.toNat - 48)
  else if 'a' ≤ c ∧ c ≤ 'f' then some (c.toNat - 87)
  else if 'A' ≤ c ∧ c ≤ 'F' then some (c.toNat - 55)
  else none

/-- The character whose number is written in hexadecimal, if there is one. -/
def numbered? (digits : List Char) : Option Char := do
  let n ← digits.foldlM (fun acc c => (hexValue? c).map (acc * 16 + ·)) 0
  if h : n.isValidChar then some ⟨UInt32.ofNatLT n (by
    rcases h with h | h <;> simp only [UInt32.size] <;> omega), by
      simpa [UInt32.isValidChar] using h⟩ else none

/-- What a backslash and a letter stand for. -/
def escape? (c : Char) : Option Char :=
  if c = '"' ∨ c = '\\' then some c
  else if c = 'b' then some '\x08'
  else if c = 'f' then some '\x0c'
  else if c = 'n' then some '\n'
  else if c = 'r' then some '\r'
  else if c = 't' then some '\t'
  else none

/-- Adds a character in front of what was read. -/
def after (c : Char) : Option (List Char × List Char) → Option (List Char × List Char) :=
  Option.map fun (text, rest) => (c :: text, rest)

/-- The rest of a string on one line between double quotes. -/
def basicTail : Reader (List Char)
  | [] => none
  | '"' :: rest => some ([], rest)
  | '\\' :: 'u' :: a :: b :: c :: d :: rest =>
    (numbered? [a, b, c, d]).bind fun e => after e (basicTail rest)
  | '\\' :: 'U' :: a :: b :: c :: d :: e :: f :: g :: h :: rest =>
    (numbered? [a, b, c, d, e, f, g, h]).bind fun e => after e (basicTail rest)
  | '\\' :: c :: rest => (escape? c).bind fun e => after e (basicTail rest)
  | c :: rest => if c ≠ '\\' ∧ isPlain c then after c (basicTail rest) else none

/-- The rest of a string on one line between single quotes. -/
def literalTail : Reader (List Char)
  | [] => none
  | c :: rest =>
    if c = apostrophe then some ([], rest)
    else if isPlain c then after c (literalTail rest)
    else none

/-- What follows a closing threefold mark: up to two more marks belong to the string. -/
def closing (mark : Char) : List Char → List Char × List Char
  | a :: b :: rest =>
    if a = mark ∧ b = mark then ([mark, mark], rest)
    else if a = mark then ([mark], b :: rest)
    else ([], a :: b :: rest)
  | [a] => if a = mark then ([mark], []) else ([], [a])
  | [] => ([], [])

/-- Whether nothing but blanks is left on a line that has an end. -/
def endsLine (text : List Char) : Bool :=
  match text.dropWhile isWhite with
  | '\n' :: _ => true
  | '\r' :: '\n' :: _ => true
  | _ => false

/-- The rest of a string over several lines between double quotes. While `folding`, blanks and ends
of lines are skipped. -/
def basicLines (folding : Bool) : Reader (List Char)
  | [] => none
  | '"' :: '"' :: '"' :: rest => some (closing '"' rest)
  | '\r' :: '\n' :: rest =>
    if folding then basicLines true rest else after '\n' (basicLines false rest)
  | '\n' :: rest => if folding then basicLines true rest else after '\n' (basicLines false rest)
  | '\\' :: 'u' :: a :: b :: c :: d :: rest =>
    (numbered? [a, b, c, d]).bind fun e => after e (basicLines false rest)
  | '\\' :: 'U' :: a :: b :: c :: d :: e :: f :: g :: h :: rest =>
    (numbered? [a, b, c, d, e, f, g, h]).bind fun e => after e (basicLines false rest)
  | '\\' :: c :: rest =>
    if endsLine (c :: rest) then basicLines true (c :: rest)
    else (escape? c).bind fun e => after e (basicLines false rest)
  | c :: rest =>
    if folding ∧ isWhite c then basicLines true rest
    else if c ≠ '\\' ∧ isPlain c then after c (basicLines false rest)
    else none

/-- The rest of a string over several lines between single quotes. -/
def literalLines : Reader (List Char)
  | [] => none
  | '\r' :: '\n' :: rest => after '\n' (literalLines rest)
  | '\n' :: rest => after '\n' (literalLines rest)
  | c :: rest =>
    if c = apostrophe ∧ [apostrophe, apostrophe].isPrefixOf rest then
      some (closing apostrophe (rest.drop 2))
    else if isPlain c then after c (literalLines rest)
    else none

/-- A text without the line feed it starts with. -/
def dropLineFeed : List Char → List Char
  | '\n' :: rest => rest
  | '\r' :: '\n' :: rest => rest
  | text => text

/-- A string on one line, as a key may be. -/
def lineString? : Reader (List Char)
  | c :: rest =>
    if c = '"' then basicTail rest
    else if c = apostrophe then literalTail rest
    else none
  | [] => none

/-- A string. -/
def string? : Reader (List Char)
  | a :: b :: c :: rest =>
    if a = '"' ∧ b = '"' ∧ c = '"' then basicLines false (dropLineFeed rest)
    else if a = apostrophe ∧ b = apostrophe ∧ c = apostrophe then
      literalLines (dropLineFeed rest)
    else lineString? (a :: b :: c :: rest)
  | text => lineString? text

/-! ### Writing -/

/-- The upper-case hexadecimal digit of a value below 16. -/
def hexDigit (n : Nat) : Char := if n < 10 then Char.ofNat (48 + n) else Char.ofNat (55 + n)

/-- A character as it is written between double quotes. -/
def escapeChar (c : Char) : List Char :=
  if c = '\x08' then ['\\', 'b']
  else if c = '\t' then ['\\', 't']
  else if c = '\n' then ['\\', 'n']
  else if c = '\x0c' then ['\\', 'f']
  else if c = '\r' then ['\\', 'r']
  else if c = '"' then ['\\', '"']
  else if c = '\\' then ['\\', '\\']
  else if c.toNat < 0x20 ∨ c.toNat = 0x7f then
    ['\\', 'u', '0', '0', hexDigit (c.toNat / 16), hexDigit (c.toNat % 16)]
  else [c]

/-- A character as it is written in a string over several lines. -/
def escapeInLines (c : Char) : List Char := if c = '\n' then ['\n'] else escapeChar c

/-- Whether a text holds three single quotes in a row. -/
def hasTriple : List Char → Bool
  | [] => false
  | c :: rest =>
    (c = apostrophe ∧ [apostrophe, apostrophe].isPrefixOf rest) || hasTriple rest

/-- Whether a text is written between single quotes. -/
def isLiteral (text : List Char) : Bool :=
  (text.contains '"' || text.contains '\\') &&
    text.all (fun c => c = '\n' || isPlain c) && !hasTriple text &&
    text.getLast? != some apostrophe

/-- The threefold single quote. -/
def literalMark : List Char := [apostrophe, apostrophe, apostrophe]

/-- The threefold double quote. -/
def basicMark : List Char := ['"', '"', '"']

/-- A string with its marks. -/
def quote (text : List Char) : List Char :=
  if isLiteral text then
    if text.contains '\n' then literalMark ++ '\n' :: text ++ literalMark
    else if text.contains apostrophe then literalMark ++ text ++ literalMark
    else apostrophe :: text ++ [apostrophe]
  else if text.contains '\n' then
    basicMark ++ '\n' :: text.flatMap escapeInLines ++ basicMark
  else '"' :: text.flatMap escapeChar ++ ['"']

end ProxyUpgrade.Toml
