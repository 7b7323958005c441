/-!
# Kinds of contract values

The kinds of values that functions of a contract take, and their canonical names, of which the name
of a function with its arguments is made. A kind is *dynamic* if the size of its encoding depends on
the value; such a value is encoded away from its place, which then holds a reference to it.
-/

namespace ProxyUpgrade.Abi

/-- The kind of a value. -/
inductive Kind where
  | bool
  | address
  /-- A selector of a function together with the address of its contract. -/
  | function
  | string
  | bytes
  /-- So many bytes, from 1 to 32. -/
  | fixedBytes (size : Nat)
  /-- A natural number of so many bits. -/
  | uint (bits : Nat)
  /-- A number of so many bits in two's complement. -/
  | int (bits : Nat)
  /-- Any number of items of one kind. -/
  | array (item : Kind)
  /-- A fixed number of items of one kind. -/
  | fixedArray (item : Kind) (length : Nat)
  /-- Items of a kind each. -/
  | tuple (items : List Kind)
  deriving Inhabited

namespace Kind

mutual

/-- Whether the size of the encoding depends on the value. -/
def isDynamic : Kind → Bool
  | string | bytes | array _ => true
  | fixedArray item _ => item.isDynamic
  | tuple items => anyDynamic items
  | _ => false

/-- Whether any kind of a list is dynamic. -/
def anyDynamic : List Kind → Bool
  | [] => false
  | kind :: rest => kind.isDynamic || anyDynamic rest

end

/-- The text of a number. -/
def number (n : Nat) : List Char := Nat.toDigits 10 n

mutual

/-- The canonical name of a kind. -/
def nameChars : Kind → List Char
  | bool => ['b', 'o', 'o', 'l']
  | address => ['a', 'd', 'd', 'r', 'e', 's', 's']
  | function => ['f', 'u', 'n', 'c', 't', 'i', 'o', 'n']
  | string => ['s', 't', 'r', 'i', 'n', 'g']
  | bytes => ['b', 'y', 't', 'e', 's']
  | fixedBytes size => 'b' :: 'y' :: 't' :: 'e' :: 's' :: number size
  | uint bits => 'u' :: 'i' :: 'n' :: 't' :: number bits
  | int bits => 'i' :: 'n' :: 't' :: number bits
  | array item => item.nameChars ++ ['[', ']']
  | fixedArray item length => item.nameChars ++ '[' :: number length ++ [']']
  | tuple [] => ['(', ')']
  | tuple (item :: rest) => '(' :: item.nameChars ++ moreChars rest ++ [')']

/-- The names of further items, each after a comma. -/
def moreChars : List Kind → List Char
  | [] => []
  | item :: rest => ',' :: item.nameChars ++ moreChars rest

end

/-- The canonical name of a kind. -/
def name (kind : Kind) : String := String.ofList kind.nameChars

end Kind

end ProxyUpgrade.Abi
