import ProxyUpgrade.Decimal.Shortest
import ProxyUpgrade.Json.Parser
/-!
# Writing JSON text

Two layouts: compact, without any blank, and indented by two spaces, where an empty array or object
stays on its line. In strings the quote, the backslash and the control characters are escaped and
nothing else. A decimal number is written as the double nearest to it in its shortest form; a
number of at least `10 ^ 16` or below `10 ^ -5` gets an exponent.
-/

namespace ProxyUpgrade.Json

/-- The two lower-case digits of a control character. -/
def controlDigits (n : Nat) : List Char :=
  [Char.ofNat (48 + n / 16), if n % 16 < 10 then Char.ofNat (48 + n % 16)
    else Char.ofNat (87 + n % 16)]

/-- A character as it stands in a string. -/
def escapeChar (c : Char) : List Char :=
  if c = '"' then ['\\', '"']
  else if c = '\\' then ['\\', '\\']
  else if c = '\x08' then ['\\', 'b']
  else if c = '\x0c' then ['\\', 'f']
  else if c = '\n' then ['\\', 'n']
  else if c = '\r' then ['\\', 'r']
  else if c = '\t' then ['\\', 't']
  else if c.toNat < 0x20 then '\\' :: 'u' :: '0' :: '0' :: controlDigits c.toNat
  else [c]

/-- A string with its quotes. -/
def quote (text : String) : List Char :=
  '"' :: text.toList.flatMap escapeChar ++ ['"']

/-- The decimal digits of an integer, after its sign. -/
def integerChars (n : Int) : List Char :=
  if n < 0 then '-' :: Nat.toDigits 10 n.natAbs else Nat.toDigits 10 n.natAbs

/-- The digits of a double and the place of its point, laid out. -/
def layOut (digits : List Char) (exponent : Int) : List Char :=
  let n := Int.ofNat digits.length
  let point := n + exponent
  if 0 ≤ exponent ∧ point ≤ 16 then digits ++ List.replicate exponent.toNat '0' ++ ['.', '0']
  else if 0 < point ∧ point ≤ 16 then digits.take point.toNat ++ '.' :: digits.drop point.toNat
  else if -5 < point ∧ point ≤ 0 then
    '0' :: '.' :: List.replicate (-point).toNat '0' ++ digits
  else
    let mantissa := match digits with
      | [d] => [d]
      | d :: rest => d :: '.' :: rest
      | [] => []
    mantissa ++ 'e' :: integerChars (point - 1)

/-- The powers of ten that a double holds exactly enough to scale by. -/
def pow10 (n : Nat) : Float := Float.ofScientific 1 false n

/-- A double scaled by a power of ten, dividing by `10 ^ 308` as often as needed. -/
def scale (f : Float) (exponent : Int) : Float :=
  if exponent.natAbs ≤ 308 then
    if 0 ≤ exponent then f * pow10 exponent.natAbs else f / pow10 exponent.natAbs
  else if f == 0 then f
  else if 0 ≤ exponent then f / 0
  else scale (f / pow10 308) (exponent + 308)
termination_by exponent.natAbs
decreasing_by omega

/-- The leading digits of a number that fit 64 bits, and how many were dropped. -/
def leading (n : Nat) : Nat × Nat :=
  if n < 0x10000000000000000 then (n, 0)
  else
    let (m, k) := leading (n / 10)
    (m, k + 1)
termination_by n
decreasing_by omega

/-- The double that `mantissa * 10 ^ exponent` is read as. -/
def toFloat (mantissa : Nat) (exponent : Int) : Float :=
  let (m, k) := leading mantissa
  scale m.toUInt64.toFloat (exponent + k)

/-- The text of a decimal number. -/
def decimalChars (negative : Bool) (mantissa : Nat) (exponent : Int) : List Char :=
  let f := toFloat mantissa exponent
  let body := if f == 0 then ['0', '.', '0'] else
    let (digits, e) := Decimal.shortest f
    layOut digits e
  if negative then '-' :: body else body

mutual

/-- The compact text of a document. -/
def compactChars : Json → List Char
  | null => ['n', 'u', 'l', 'l']
  | bool true => ['t', 'r', 'u', 'e']
  | bool false => ['f', 'a', 'l', 's', 'e']
  | integer n => integerChars n
  | decimal negative mantissa exponent => decimalChars negative mantissa exponent
  | string text => quote text
  | array [] => ['[', ']']
  | array (item :: rest) => '[' :: compactChars item ++ compactItems rest ++ [']']
  | object [] => ['\x7b', '\x7d']
  | object ((name, json) :: rest) =>
    '\x7b' :: quote name ++ ':' :: compactChars json ++ compactMembers rest ++ ['\x7d']
  | unreadable => ['n', 'u', 'l', 'l']

/-- Further items, each after a comma. -/
def compactItems : List Json → List Char
  | [] => []
  | item :: rest => ',' :: compactChars item ++ compactItems rest

/-- Further members, each after a comma. -/
def compactMembers : List (String × Json) → List Char
  | [] => []
  | (name, json) :: rest =>
    ',' :: quote name ++ ':' :: compactChars json ++ compactMembers rest

end

/-- A new line, indented. -/
def newLine (indent : Nat) : List Char := '\n' :: List.replicate (2 * indent) ' '

mutual

/-- The indented text of a document that starts on a line of a given indentation. -/
def prettyChars (indent : Nat) : Json → List Char
  | array [] => ['[', ']']
  | array (item :: rest) =>
    '[' :: newLine (indent + 1) ++ prettyChars (indent + 1) item ++
      prettyItems (indent + 1) rest ++ newLine indent ++ [']']
  | object [] => ['\x7b', '\x7d']
  | object ((name, json) :: rest) =>
    '\x7b' :: newLine (indent + 1) ++ quote name ++ ':' :: ' ' :: prettyChars (indent + 1) json ++
      prettyMembers (indent + 1) rest ++ newLine indent ++ ['\x7d']
  | json => compactChars json

/-- Further items, each on a line of its own. -/
def prettyItems (indent : Nat) : List Json → List Char
  | [] => []
  | item :: rest =>
    ',' :: newLine indent ++ prettyChars indent item ++ prettyItems indent rest

/-- Further members, each on a line of its own. -/
def prettyMembers (indent : Nat) : List (String × Json) → List Char
  | [] => []
  | (name, json) :: rest =>
    ',' :: newLine indent ++ quote name ++ ':' :: ' ' :: prettyChars indent json ++
      prettyMembers indent rest

end

/-- The compact text of a document. -/
def compact (json : Json) : String := String.ofList (compactChars json)

/-- The indented text of a document, without a line end after it. -/
def pretty (json : Json) : String := String.ofList (prettyChars 0 json)

end ProxyUpgrade.Json
