import ProxyUpgrade.Abi.Kind.Parser
import ProxyUpgrade.Abi.Value
import ProxyUpgrade.Bytes.Basic
import ProxyUpgrade.Text.Basic
/-!
# Reading values

A value is written according to its kind. Numbers may have a fraction, a power of ten and a unit, as
long as the result is whole; every step of the computation has to fit into 256 bits. Byte strings
are written in hexadecimal. A text stands for itself, without the blanks at its end, or between
quotes, and within a list it ends at the next comma or closing bracket.
-/

namespace ProxyUpgrade.Abi.Value

/-! ### Numbers -/

/-- A number, if it fits a word. -/
def fit? (n : Nat) : Option Nat := if Bits.fits 256 n then some n else none

/-- A power of ten, if it fits a word. -/
def power? (n : Nat) : Option Nat := if n < 78 then some (Nat.pow 10 n) else none

/-- The digits in front of a text; at least one is needed. -/
def digits? : Reader (List Char) := fun text =>
  let digits := text.takeWhile Char.isDigit
  if digits.isEmpty then none else some (digits, text.dropWhile Char.isDigit)

/-- Whether a character is a hexadecimal digit. -/
def isHexDigit (c : Char) : Bool := (Hex.digitValue? c).isSome

/-- Digits of a base; the text may go on with hexadecimal digits only if all are of the base. -/
def basedNumber? (base : Nat) : Reader Nat := fun text => do
  let digits := text.takeWhile isHexDigit
  if digits.isEmpty then none
  else
    let n ← Quantity.ofDigits? base digits
    pure (← fit? n, text.dropWhile isHexDigit)

/-- The whole part of a number, in base ten or in the base of its mark. -/
def whole? : Reader Nat
  | '0' :: mark :: rest =>
    if mark = 'x' ∨ mark = 'X' then basedNumber? 16 rest
    else if mark = 'o' ∨ mark = 'O' then basedNumber? 8 rest
    else if mark = 'b' ∨ mark = 'B' then basedNumber? 2 rest
    else decimal ('0' :: mark :: rest)
  | text => decimal text
where
  /-- A number in base ten. -/
  decimal : Reader Nat := fun text => do
    let (digits, rest) ← digits? text
    pure (← (Quantity.ofDecimal? digits).bind fit?, rest)

/-- The digits of a fraction; none if there is no point. -/
def fraction? : Reader (List Char)
  | '.' :: rest => digits? rest
  | text => some ([], text)

/-- The exponent after its mark: a sign perhaps, and digits without leading zeros. -/
def exponentDigits? : Reader Int := fun text =>
  let (negative, text) := match text with
    | '-' :: rest => (true, rest)
    | '+' :: rest => (false, rest)
    | rest => (false, rest)
  let signed (n : Nat) : Option Int :=
    let n : Int := if negative then -Int.ofNat n else n
    if Bits.fitsSigned 64 n then some n else none
  match text with
  | '0' :: rest => (signed 0).map (·, rest)
  | rest => do
    let (digits, rest) ← digits? rest
    pure (← signed (← Quantity.ofDecimal? digits), rest)

/-- The power of ten that a number is multiplied by; 0 if none is written, as in `1ether`. -/
def exponent : List Char → Int × List Char
  | c :: rest =>
    if c = 'e' ∨ c = 'E' then (exponentDigits? rest).getD (0, c :: rest) else (0, c :: rest)
  | [] => (0, [])

/-- The names of units, with the power of ten each stands for. -/
def units : List (List Char × Nat) :=
  [("ether".toList, 18), ("gwei".toList, 9), ("nanoether".toList, 9), ("nano".toList, 9),
    ("wei".toList, 0)]

/-- The power of ten of the unit in front of a text, after blanks; 0 if there is none. -/
def unit (text : List Char) : Nat × List Char :=
  let text := skipBlanks text
  match units.find? fun (name, _) => name.isPrefixOf text with
  | some (name, power) => (power, text.drop name.length)
  | none => (0, text)

/-- The number made of a whole part, a fraction and a power of ten. -/
def combine? (whole : Nat) (fraction : List Char) (power : Int) : Option Nat :=
  if power < 0 then none
  else
    let power := power.toNat
    match fraction with
    | [] => do fit? (whole * (← power? power))
    | fraction => do
      let below ← (Quantity.ofDecimal? fraction).bind fit?
      if power < fraction.length then none
      else
        let whole ← fit? (whole * (← power? fraction.length))
        let n ← fit? (whole + below)
        fit? (n * (← power? (power - fraction.length)))

/-- Reads a natural number of so many bits. -/
def readUint? (bits : Nat) : Reader Nat := fun text => do
  let (whole, rest) ← whole? text
  let (fraction, rest) ← fraction? rest
  let (exponent, rest) := exponent rest
  let (power, rest) := unit rest
  let n ← combine? whole fraction (power + exponent)
  if Bits.fits bits n then pure (n, rest) else none

/-- Reads a number of so many bits in two's complement. -/
def readInt? (bits : Nat) : Reader Int := fun text => do
  let (negative, text) := match text with
    | '-' :: rest => (true, rest)
    | '+' :: rest => (false, rest)
    | rest => (false, rest)
  let (n, rest) ← readUint? bits text
  let n : Int := if negative then -Int.ofNat n else Int.ofNat n
  if Bits.fitsSigned bits n then pure (n, rest) else none

/-! ### Byte strings and texts -/

/-- Reads a byte string: the digits up to the next character that is none. -/
def readBytes? : Reader Bytes := fun text => do
  let digits := Hex.dropMark text
  let bytes ← Hex.ofDigits? (digits.takeWhile isHexDigit)
  pure (bytes, digits.dropWhile isHexDigit)

/-- Reads a byte string of a given size. -/
def readSized? (size : Nat) : Reader Bytes := fun text => do
  let (raw, rest) ← readBytes? text
  if raw.length = size then pure (raw, rest) else none

/-- Reads a byte string of any size; an empty one needs its mark. -/
def readAnyBytes? : Reader Bytes := fun text => do
  let (raw, rest) ← readBytes? text
  if raw.isEmpty ∧ Hex.dropMark text = text then none else pure (raw, rest)

/-- Reads a truth value, a run of letters. -/
def readBool? : Reader Bool := fun text =>
  let rest := text.dropWhile Char.isAlpha
  match text.takeWhile Char.isAlpha with
  | ['t', 'r', 'u', 'e'] => some (true, rest)
  | ['f', 'a', 'l', 's', 'e'] => some (false, rest)
  | _ => none

/-- Reads a text; `closing` is the bracket that ends the list it stands in. -/
def readText? (closing : Option Char) : Reader String
  | [] => some ("", [])
  | c :: rest =>
    if c = '"' ∨ c.toNat = 39 then do
      let inner := rest.takeWhile (· != c)
      pure (String.ofList inner, ← expect? c (rest.dropWhile (· != c)))
    else
      match closing with
      | none => some (String.ofList (Text.trimEnd (c :: rest)), [])
      | some closing =>
        let inside (d : Char) : Bool := d != ',' && d != closing
        let inner := (c :: rest).takeWhile inside
        if inner.isEmpty then none
        else some (String.ofList (Text.trimEnd inner), (c :: rest).dropWhile inside)

/-! ### Values -/

mutual

/-- Reads a value of a kind; `closing` is the bracket that ends the list it stands in. -/
def read? (closing : Option Char) : Kind → Reader Value
  | .bool, text => (readBool? text).map fun (b, rest) => (bool b, rest)
  | .address, text => (readSized? 20 text).map fun (raw, rest) => (address (.ofBytes raw), rest)
  | .function, text => (readSized? 24 text).map fun (raw, rest) => (function raw, rest)
  | .string, text => (readText? closing text).map fun (s, rest) => (string s, rest)
  | .bytes, text => (readAnyBytes? text).map fun (raw, rest) => (bytes raw, rest)
  | .fixedBytes size, text =>
    (readSized? size text).map fun (raw, rest) => (fixedBytes raw, rest)
  | .uint bits, text => (readUint? bits text).map fun (n, rest) => (uint n bits, rest)
  | .int bits, text => (readInt? bits text).map fun (n, rest) => (int n bits, rest)
  | .array item, text =>
    (Sequence.read? '[' ']' (read? (some ']') item) text).map fun (vs, rest) => (array vs, rest)
  | .fixedArray item length, text => do
    let (vs, rest) ← Sequence.read? '[' ']' (read? (some ']') item) text
    if vs.length = length then pure (fixedArray vs, rest) else none
  | .tuple items, text => do
    let (vs, rest) ← readItems? true items (← expect? '(' (skipBlanks text))
    pure (tuple vs, ← expect? ')' (skipBlanks rest))

/-- Reads the items of a tuple, with a comma before each but the first. -/
def readItems? (first : Bool) : List Kind → Reader (List Value)
  | [], text => some ([], text)
  | item :: rest, text => do
    let text ← if first then some text else expect? ',' (skipBlanks text)
    let (v, text) ← read? (some ')') item (skipBlanks text)
    let (vs, text) ← readItems? false rest text
    pure (v :: vs, text)

end

/-- The value of a kind that a text stands for. -/
def ofText? (kind : Kind) (text : List Char) : Option Value :=
  match read? none kind text with
  | some (value, []) => some value
  | _ => none

end ProxyUpgrade.Abi.Value
