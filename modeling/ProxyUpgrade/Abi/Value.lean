import ProxyUpgrade.Abi.Kind
import ProxyUpgrade.Chain.Address
import ProxyUpgrade.Text.Quoted
/-!
# Contract values

A value carries its own structure and no kind. The name of its kind can be read off as long as every
array in it has a first item to name the items' kind by: `typeName?`. A tuple of one item is named
with a comma after the item.
-/

namespace ProxyUpgrade.Abi

/-- A value that a function of a contract takes. -/
inductive Value where
  | bool (b : Bool)
  | address (a : Address)
  /-- A selector of a function together with the address of its contract, 24 bytes. -/
  | function (raw : Bytes)
  | string (text : String)
  | bytes (raw : Bytes)
  /-- At most 32 bytes, whose number is part of the kind. -/
  | fixedBytes (raw : Bytes)
  | uint (n : Nat) (bits : Nat)
  | int (n : Int) (bits : Nat)
  | array (items : List Value)
  | fixedArray (items : List Value)
  | tuple (items : List Value)
  deriving Inhabited

namespace Value

/-! ### The name of a value's kind -/

mutual

/-- The name of the kind of a value, if every array needed for it has an item. -/
def typeName? : Value → Option String
  | bool _ => some "bool"
  | address _ => some "address"
  | function _ => some "function"
  | string _ => some "string"
  | bytes _ => some "bytes"
  | fixedBytes raw => some ("bytes" ++ toString raw.length)
  | uint _ bits => some ("uint" ++ toString bits)
  | int _ bits => some ("int" ++ toString bits)
  | array items => (firstName? items).map (· ++ "[]")
  | fixedArray items => (firstName? items).map (· ++ "[" ++ toString items.length ++ "]")
  | tuple items => do
    match ← typeNames? items with
    | [name] => pure ("(" ++ name ++ ",)")
    | names => pure ("(" ++ ",".intercalate names ++ ")")

/-- The name of the kind of the first item. -/
def firstName? : List Value → Option String
  | [] => none
  | item :: _ => item.typeName?

/-- The names of the kinds of all items. -/
def typeNames? : List Value → Option (List String)
  | [] => some []
  | item :: rest => do
    let name ← item.typeName?
    let names ← typeNames? rest
    pure (name :: names)

end

/-! ### A value in a message -/

/-- Texts in brackets, a comma and a blank between them. -/
def bracketed (texts : List String) : String := "[" ++ ", ".intercalate texts ++ "]"

mutual

/-- The text that describes a value in a message. -/
def describe : Value → String
  | bool b => "Bool(" ++ toString b ++ ")"
  | address a => "Address(" ++ a.checksum ++ ")"
  | function raw => "Function(" ++ Hex.encode raw ++ ")"
  | string text => "String(" ++ Text.quoted text ++ ")"
  | bytes raw => "Bytes(" ++ bracketed (raw.map fun b => toString b.toNat) ++ ")"
  | fixedBytes raw =>
    "FixedBytes(" ++ Hex.encode (Bytes.padRight 32 raw) ++ ", " ++ toString raw.length ++ ")"
  | uint n bits => "Uint(" ++ toString n ++ ", " ++ toString bits ++ ")"
  | int n bits => "Int(" ++ toString n ++ ", " ++ toString bits ++ ")"
  | array items => "Array(" ++ bracketed (describeAll items) ++ ")"
  | fixedArray items => "FixedArray(" ++ bracketed (describeAll items) ++ ")"
  | tuple items => "Tuple(" ++ bracketed (describeAll items) ++ ")"

/-- The texts of items. -/
def describeAll : List Value → List String
  | [] => []
  | item :: rest => item.describe :: describeAll rest

end

end Value

end ProxyUpgrade.Abi
