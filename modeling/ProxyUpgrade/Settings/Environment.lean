import ProxyUpgrade.Bytes.Basic
import ProxyUpgrade.Chain.Quantity
import ProxyUpgrade.Settings.Layers
import ProxyUpgrade.Text.Basic
import ProxyUpgrade.Toml.Quoted
/-!
# Settings in the environment

A variable whose name starts with a given word, in any case, gives a setting. What follows in its
name is the path to the setting, in lower case: two underscores, or a point, lead from a table to a
member.

The text of a variable is a truth value, a number, a character or string between quotes, a list in
brackets or a table in braces, and stands for itself if it is none of these.
-/

namespace ProxyUpgrade.Settings

/-! ### Texts of values -/

/-- Blanks between the parts of a value. -/
def isGap (c : Char) : Bool := c = ' ' || c = '\t' || c = '\n' || c = '\r' || c = '\x0c'

/-- Drops blanks. -/
def skipGap (text : List Char) : List Char := text.dropWhile isGap

/-- Whether a character ends a value without quotes. -/
def isDelimiter (c : Char) : Bool := c = ',' || c = '{' || c = '}' || c = '[' || c = ']'

/-- The number that a text stands for as a sequence of digits after an optional plus sign. -/
def natural? (text : List Char) : Option Nat :=
  match text with
  | '+' :: digits => Quantity.ofDecimal? digits
  | digits => Quantity.ofDecimal? digits

/-- A whole number: of 64 bits without a sign, or of 64 bits with one. -/
def whole? (text : List Char) : Option Json :=
  match (natural? text).filter (Bits.fits 64) with
  | some n => some (.integer n)
  | none =>
    match text with
    | '-' :: digits =>
      (((Quantity.ofDecimal? digits).map fun n => -Int.ofNat n).filter
        (Bits.fitsSigned 64)).map Json.integer
    | _ => none

/-- The exponent of a number, zero if there is none. -/
def exponent? : List Char → Option Int
  | [] => some 0
  | c :: rest =>
    if c = 'e' ∨ c = 'E' then
      match rest with
      | '-' :: digits => (Quantity.ofDecimal? digits).map fun n => -Int.ofNat n
      | rest => (natural? rest).map Int.ofNat
    else none

/-- A number with a point after its sign. -/
def pointed? (negative : Bool) (text : List Char) : Option Json := do
  let whole := text.takeWhile Char.isDigit
  let places ← match text.dropWhile Char.isDigit with
    | '.' :: rest => some (rest.takeWhile Char.isDigit, rest.dropWhile Char.isDigit)
    | _ => none
  let mantissa ← Quantity.ofDecimal? (whole ++ places.1)
  let exponent ← exponent? places.2
  pure (.decimal negative mantissa (exponent - Int.ofNat places.1.length))

/-- A number with a point. -/
def fraction? : List Char → Option Json
  | '-' :: rest => pointed? true rest
  | '+' :: rest => pointed? false rest
  | text => pointed? false text

/-- What a text without quotes stands for. -/
def bare (text : List Char) : Json :=
  let text := Text.trim text
  ((fraction? text).orElse fun _ => whole? text).getD (.string (String.ofList text))

/-- What stands before the next delimiter. -/
def bareValue : Reader Json := fun text =>
  some (bare (text.takeWhile (!isDelimiter ·)), text.dropWhile (!isDelimiter ·))

/-- The items of a list or table, after its opening bracket. -/
def items {α : Type} (close : Char) (item : Reader α) : (fuel : Nat) → Reader (List α)
  | 0, _ => none
  | fuel + 1, text =>
    if text.head? = some close then some ([], text.drop 1)
    else do
      let (value, rest) ← item text
      match rest with
      | ',' :: rest => do
        let (values, rest) ← items close item fuel rest
        pure (value :: values, rest)
      | c :: rest => if c = close then pure ([value], rest) else none
      | [] => none

/-- The name of a member: without quotes, or between double ones. -/
def memberName? : Reader (List Char)
  | '"' :: rest => Toml.basicTail rest
  | text => Reader.some (fun c => c.isAlphanum || c = '_' || c = '-') text

/-- A member of a table. -/
def member? (value : Reader Json) : Reader (String × Json) := fun text => do
  let (name, rest) ← memberName? (skipGap text)
  match skipGap rest with
  | '=' :: rest => do
    let (json, rest) ← value rest
    pure ((String.ofList name, json), rest)
  | _ => none

/-- A value, with so many levels of nesting left. -/
def value? : (depth : Nat) → Reader Json
  | 0, _ => none
  | depth + 1, text => do
    let (json, rest) ← match skipGap text with
      | 't' :: 'r' :: 'u' :: 'e' :: rest => some (Json.bool true, rest)
      | 'f' :: 'a' :: 'l' :: 's' :: 'e' :: rest => some (Json.bool false, rest)
      | '{' :: rest => do
        let (members, rest) ← items '}' (member? (value? depth)) (rest.length + 1) rest
        pure (.object (members.foldl (fun all (name, json) => put name json all) []), rest)
      | '[' :: rest => do
        let (values, rest) ← items ']' (value? depth) (rest.length + 1) rest
        pure (.array values, rest)
      | '"' :: rest => do
        let (text, rest) ← Toml.basicTail rest
        pure (.string (String.ofList text), rest)
      | a :: b :: c :: rest =>
        if a = Toml.apostrophe then
          if c = Toml.apostrophe then some (.string b.toString, rest) else none
        else bareValue (a :: b :: c :: rest)
      | text => if text.head? = some Toml.apostrophe then none else bareValue text
    pure (json, skipGap rest)

/-- What the text of a variable stands for. -/
def ofVariable (text : String) : Json :=
  let text := Text.trim text.toList
  match value? (text.length + 1) text with
  | some (json, []) => json
  | _ => .string (String.ofList text)

/-! ### Names of variables -/

/-- The parts of a name between points and double underscores. -/
def splitName : List Char → List (List Char)
  | [] => [[]]
  | '_' :: '_' :: rest => [] :: splitName rest
  | c :: rest =>
    if c = '.' then [] :: splitName rest
    else match splitName rest with
      | [] => [[c]]
      | part :: more => (c :: part) :: more

/-- The path that a variable's name stands for, if it starts with the given word and no part of the
path is empty. -/
def path? (start name : String) : Option (List String) :=
  let name := name.toList.map Char.toLower
  if (start.toList.map Char.toLower).isPrefixOf name then
    let parts := splitName (name.drop start.length)
    if parts.any List.isEmpty then none else some (parts.map String.ofList)
  else none

/-- A tree that holds nothing but a value at the end of a path. -/
def nest : List String → Json → Json
  | [], json => json
  | name :: path, json => .object [(name, nest path json)]

/-- The settings that variables give, later ones laid over earlier ones. -/
def ofEnvironment (start : String) (environment : List (String × String)) : Json :=
  environment.foldl (fun tree (name, text) =>
    match path? start name with
    | some path => overlay tree (nest path (ofVariable text))
    | none => tree) (.object [])

end ProxyUpgrade.Settings
