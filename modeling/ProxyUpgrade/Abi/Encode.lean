import ProxyUpgrade.Abi.Value
import ProxyUpgrade.Error
/-!
# The encoding of contract values

Every value is encoded as a *part* of the sequence it stands in: either *inline*, in its place, or
*referenced*, in which case its place holds the distance of the encoding from the start of the
sequence and the encoding follows after all places. Words have 32 bytes; byte strings are preceded
by their length and filled up to whole words.

A function is called with a byte string: four bytes that select it, made of the hash of its
signature, followed by its encoded arguments. The signature is the name with the kinds of the
arguments in parentheses; for arguments that are at hand it can be made from their own structure.
-/

namespace ProxyUpgrade.Abi

/-- A number as a word of 32 bytes. -/
def word (n : Nat) : Bytes := Bytes.ofNat 32 n

/-- What an item contributes to its sequence. -/
inductive Part where
  | inline (bytes : Bytes)
  | referenced (bytes : Bytes)

namespace Part

/-- The bytes that an item takes in its place. -/
def placeSize : Part → Nat
  | inline bytes => bytes.length
  | referenced _ => 32

/-- The bytes that items take in their places. -/
def placesSize : List Part → Nat
  | [] => 0
  | part :: rest => part.placeSize + placesSize rest

/-- The bytes of an item that follow after all places. -/
def trailing : Part → Bytes
  | inline _ => []
  | referenced bytes => bytes

/-- Whether an item is referenced. -/
def isReferenced : Part → Bool
  | inline _ => false
  | referenced _ => true

/-- The places of items, when the next referenced one will be at a given distance. -/
def places (distance : Nat) : List Part → Bytes
  | [] => []
  | inline bytes :: rest => bytes ++ places distance rest
  | referenced bytes :: rest => word distance ++ places (distance + bytes.length) rest

/-- The encoding of a sequence of items. -/
def sequence (parts : List Part) : Bytes :=
  places (placesSize parts) parts ++ parts.flatMap trailing

/-- A sequence as an item of another one: referenced if any of its items is. -/
def nested (parts : List Part) : Part :=
  if parts.any isReferenced then referenced (sequence parts) else inline (sequence parts)

/-- A byte string of any length as an item. -/
def ofBytes (bytes : Bytes) : Part := referenced (word bytes.length ++ Bytes.padRight 32 bytes)

end Part

namespace Value

mutual

/-- What a value contributes to its sequence. -/
def part : Value → Part
  | bool b => .inline (word b.toNat)
  | address a => .inline (word a.toNat)
  | function raw => .inline (Bytes.padRight 32 raw)
  | string text => .ofBytes (Bytes.ofText text)
  | bytes raw => .ofBytes raw
  | fixedBytes raw => .inline (Bytes.padRight 32 raw)
  | uint n _ => .inline (word n)
  | int n _ => .inline (word (BitVec.ofInt 256 n).toNat)
  | array items => .referenced (word items.length ++ Part.sequence (parts items))
  | fixedArray items => .nested (parts items)
  | tuple items => .nested (parts items)

/-- What the items of a sequence contribute. -/
def parts : List Value → List Part
  | [] => []
  | item :: rest => item.part :: parts rest

end

end Value

/-- The encoding of the arguments of a function. -/
def encode (args : List Value) : Bytes := Part.sequence (Value.parts args)

/-! ### Functions of a contract -/

/-- The bytes that select the function of a signature. -/
def selector (signature : String) : Bytes := (Keccak.hash (Bytes.ofText signature)).take 4

/-- The bytes that call the function of a signature with the given arguments. -/
def calldata (signature : String) (args : List Value) : Bytes := selector signature ++ encode args

/-- The names of the kinds of arguments; an argument whose kind has no name is an error. -/
def argumentNames : List Value → Except Error (List String)
  | [] => .ok []
  | arg :: rest =>
    match arg.typeName? with
    | some name => do pure (name :: (← argumentNames rest))
    | none => .error (.encoding ("argument " ++ arg.describe ++ " has no ABI type"))

/-- The signature of the function of a name that takes the given arguments. -/
def signature (name : String) (args : List Value) : Except Error String := do
  pure (name ++ "(" ++ ",".intercalate (← argumentNames args) ++ ")")

end ProxyUpgrade.Abi
