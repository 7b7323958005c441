import ProxyUpgrade.Bytes.Basic
import ProxyUpgrade.Json.Printer
import ProxyUpgrade.Text.Basic
/-!
# Numbers and dates of TOML

Integers have 64 bits and a sign, and may be written in base ten, or without a sign in the bases 16,
8 and 2. Digits may be separated by single underscores. Every other number is kept as the decimal
fraction that is written; infinity and its like have no value here.

Dates and times are checked and then kept as their text, in a table of their own, since no setting
is one.
-/

namespace ProxyUpgrade.Toml

/-! ### Digits -/

/-- Whether a character is a decimal digit. -/
def isDigit (c : Char) : Bool := '0' ≤ c && c ≤ '9'

/-- The digits in front of a text, with single underscores between them; with none after the last.
-/
def digits (kind : Char → Bool) : List Char → List Char × List Char
  | '_' :: d :: rest =>
    if kind d then
      let (more, rest) := digits kind rest
      (d :: more, rest)
    else ([], '_' :: d :: rest)
  | c :: rest =>
    if kind c then
      let (more, rest) := digits kind rest
      (c :: more, rest)
    else ([], c :: rest)
  | [] => ([], [])

/-- At least one digit in front of a text. -/
def digits? (kind : Char → Bool) : Reader (List Char)
  | c :: rest =>
    if kind c then
      let (more, rest) := digits kind rest
      some (c :: more, rest)
    else none
  | [] => none

/-- The number that digits of a base stand for. -/
def value (base : Nat) (digits : List Char) : Nat :=
  digits.foldl (fun acc c => acc * base +
    (if isDigit c then c.toNat - 48 else if 'a' ≤ c then c.toNat - 87 else c.toNat - 55)) 0

/-- Whether a character is a hexadecimal digit. -/
def isHexDigit (c : Char) : Bool := isDigit c || ('a' ≤ c && c ≤ 'f') || ('A' ≤ c && c ≤ 'F')

/-! ### Numbers -/

/-- An integer, if it has 64 bits. -/
def integer? (n : Int) : Option Json :=
  if Bits.fitsSigned 64 n then some (.integer n) else none

/-- An integer whose base is marked. -/
def based? (base : Nat) (kind : Char → Bool) : Reader Json := fun text => do
  let (digits, rest) ← digits? kind text
  pure (← integer? (value base digits), rest)

/-- The fraction of a number, if there is one. -/
def fraction? : Reader (Option (List Char))
  | '.' :: rest => do
    let (digits, rest) ← digits? isDigit rest
    pure (some digits, rest)
  | text => some (none, text)

/-- The exponent of a number, if there is one. -/
def exponent? : Reader (Option Int)
  | c :: rest =>
    if c = 'e' ∨ c = 'E' then
      let (negative, rest) := match rest with
        | '-' :: rest => (true, rest)
        | '+' :: rest => (false, rest)
        | rest => (false, rest)
      do
        let (digits, rest) ← digits? isDigit rest
        let n := Int.ofNat (value 10 digits)
        pure (some (if negative then -n else n), rest)
    else some (none, c :: rest)
  | [] => some (none, [])

/-- A decimal fraction, if it is finite. -/
def decimal? (negative : Bool) (mantissa : Nat) (exponent : Int) : Option Json :=
  if (Json.toFloat mantissa exponent).isFinite then some (.decimal negative mantissa exponent)
  else none

/-- A number after its sign. -/
def unsigned? (negative : Bool) : Reader Json := fun text => do
  let (whole, rest) ← digits? isDigit text
  if whole.head? = some '0' ∧ 1 < whole.length then none
  else
    let (fraction, rest) ← fraction? rest
    let (exponent, rest) ← exponent? rest
    match fraction, exponent with
    | none, none =>
      let n := Int.ofNat (value 10 whole)
      pure (← integer? (if negative then -n else n), rest)
    | _, _ =>
      let places := fraction.getD []
      pure (← decimal? negative (value 10 (whole ++ places))
        (exponent.getD 0 - Int.ofNat places.length), rest)

/-- A number after its sign, or one that is none. -/
def signed? (negative : Bool) : Reader Json
  | 'i' :: 'n' :: 'f' :: rest => some (.unreadable, rest)
  | 'n' :: 'a' :: 'n' :: rest => some (.unreadable, rest)
  | text => unsigned? negative text

/-- A number. -/
def number? : Reader Json
  | '+' :: rest => signed? false rest
  | '-' :: rest => signed? true rest
  | '0' :: 'x' :: rest => based? 16 isHexDigit rest
  | '0' :: 'o' :: rest => based? 8 (fun c => '0' ≤ c && c ≤ '7') rest
  | '0' :: 'b' :: rest => based? 2 (fun c => c = '0' || c = '1') rest
  | text => signed? false text

/-! ### Dates -/

/-- A number of exactly so many digits in a range. -/
def field? (width low high : Nat) : Reader Nat := fun text =>
  let front := text.take width
  if front.length = width ∧ front.all isDigit then
    let n := value 10 front
    if low ≤ n ∧ n ≤ high then some (n, text.drop width) else none
  else none

/-- The number of days in a month. -/
def daysIn (year month : Nat) : Nat :=
  if month = 2 then
    if year % 4 = 0 ∧ (year % 100 ≠ 0 ∨ year % 400 = 0) then 29 else 28
  else if month ∈ [4, 6, 9, 11] then 30 else 31

/-- What follows a day. -/
def date? (text : List Char) : Option (List Char) := do
  let (year, rest) ← field? 4 0 9999 text
  let (month, rest) ← field? 2 1 12 (← Reader.word? ['-'] rest)
  let (_, rest) ← field? 2 1 (daysIn year month) (← Reader.word? ['-'] rest)
  pure rest

/-- What follows a time of day. -/
def time? (text : List Char) : Option (List Char) := do
  let (_, rest) ← field? 2 0 23 text
  let (_, rest) ← field? 2 0 59 (← Reader.word? [':'] rest)
  let (_, rest) ← field? 2 0 60 (← Reader.word? [':'] rest)
  match rest with
  | '.' :: rest => do pure (← Reader.some isDigit rest).2
  | rest => pure rest

/-- What follows an offset from universal time, if there is one. -/
def offset? : List Char → Option (List Char)
  | c :: rest =>
    if c = 'Z' ∨ c = 'z' then some rest
    else if c = '+' ∨ c = '-' then do
      let (_, rest) ← field? 2 0 23 rest
      let (_, rest) ← field? 2 0 59 (← Reader.word? [':'] rest)
      pure rest
    else some (c :: rest)
  | [] => some []

/-- Whether a text goes on with the time of a day that was just read. -/
def continues : List Char → Bool
  | c :: d :: _ => c = 'T' || c = 't' || (c = ' ' && isDigit d)
  | [c] => c = 'T' || c = 't'
  | [] => false

/-- What follows a date, a time, or both. -/
def moment? (text : List Char) : Option (List Char) :=
  match text with
  | _ :: _ :: ':' :: _ => time? text
  | _ => do
    let rest ← date? text
    if continues rest then offset? (← time? (rest.drop 1)) else pure rest

/-- Whether a text starts like a date or a time. -/
def startsMoment : List Char → Bool
  | a :: b :: ':' :: _ => isDigit a && isDigit b
  | a :: b :: c :: d :: '-' :: _ => [a, b, c, d].all isDigit
  | _ => false

/-- A date or time, as a table that holds its text. -/
def moment : Reader Json := fun text => do
  let rest ← moment? text
  let written := text.take (text.length - rest.length)
  pure (.object [("date", .string (String.ofList written))], rest)

/-! ### Scalars -/

/-- A truth value, a number or a date. -/
def scalar? (text : List Char) : Option (Json × List Char) :=
  match text with
  | 't' :: rest => (Reader.word? ['r', 'u', 'e'] rest).map (.bool true, ·)
  | 'f' :: rest => (Reader.word? ['a', 'l', 's', 'e'] rest).map (.bool false, ·)
  | text => if startsMoment text then moment text else number? text

end ProxyUpgrade.Toml
