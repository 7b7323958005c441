import ProxyUpgrade.Bytes.Basic
import ProxyUpgrade.Json.Printer
import ProxyUpgrade.Toml.Quoted
/-!
# Writing TOML

The members of a document are written one a line, and after them its tables, each with a heading
and a blank line in front. A member without a value is left out. Numbers have to be integers of 64
bits with a sign, names have to stand for themselves, and a table holds no further tables; other
documents have no text here.
-/

namespace ProxyUpgrade.Toml

/-- The text of a value that is no list or table. -/
def scalarChars? : Json → Option (List Char)
  | .bool true => some ['t', 'r', 'u', 'e']
  | .bool false => some ['f', 'a', 'l', 's', 'e']
  | .integer n => if Bits.fitsSigned 64 n then some (Json.integerChars n) else none
  | .string text => some (quote text.toList)
  | _ => none

/-- The line of a member; nothing if it has no value. -/
def memberLine? : String × Json → Option (List Char)
  | (_, .null) => some []
  | (name, json) =>
    (scalarChars? json).map fun text => name.toList ++ ' ' :: '=' :: ' ' :: text ++ ['\n']

/-- The lines of members. -/
def memberLines? (members : List (String × Json)) : Option (List Char) :=
  (members.mapM memberLine?).map List.flatten

/-- Whether a member is a table. -/
def isTable : String × Json → Bool
  | (_, .object _) => true
  | _ => false

/-- A table with its heading. -/
def table? : String × Json → Option (List Char)
  | (name, .object members) =>
    (memberLines? members).map fun lines => '\n' :: '[' :: name.toList ++ ']' :: '\n' :: lines
  | _ => none

/-- The text of a document. -/
def print? (members : List (String × Json)) : Option String := do
  let lines ← memberLines? (members.filter (!isTable ·))
  let tables ← (members.filter isTable).mapM table?
  pure (String.ofList (lines ++ tables.flatten))

end ProxyUpgrade.Toml
