import ProxyUpgrade.Bytes.Basic
/-!
# JSON documents

A document as a tree. Members of an object keep their order, and a name may occur twice, because
whether that matters is for the reader to say. Numbers are kept exactly as written: an integer, or
a decimal fraction with a power of ten.

A string may be written with half of a surrogate pair, which stands for no character. Such a string,
and an object with such a name, is `unreadable`: it does no harm where it is skipped, and whoever
looks at it refuses it.
-/

namespace ProxyUpgrade

/-- A JSON document. -/
inductive Json where
  | null
  | bool (b : Bool)
  /-- A number without fraction or exponent. -/
  | integer (n : Int)
  /-- The number `± mantissa * 10 ^ exponent`, written with a fraction, an exponent or as `-0`. -/
  | decimal (negative : Bool) (mantissa : Nat) (exponent : Int)
  | string (text : String)
  | array (items : List Json)
  | object (members : List (String × Json))
  /-- A string or object with half of a surrogate pair in a place where a character is needed. -/
  | unreadable
  deriving Inhabited

namespace Json

/-- The member of an object with a name, the first if there are several. -/
def member? (name : String) : Json → Option Json
  | object members => members.lookup name
  | _ => none

/-- The text of a string. -/
def text? : Json → Option String
  | string text => some text
  | _ => none

/-- The items of an array. -/
def items? : Json → Option (List Json)
  | array items => some items
  | _ => none

/-- A truth value. -/
def bool? : Json → Option Bool
  | bool b => some b
  | _ => none

/-- A natural number of 64 bits. -/
def nat64? : Json → Option Nat
  | integer n => if 0 ≤ n ∧ Bits.fits 64 n.toNat then some n.toNat else none
  | _ => none

/-- Reads something that may be `null`. -/
def nullable? {α : Type} (read : Json → Option α) : Json → Option (Option α)
  | null => some none
  | json => (read json).map some

/-- Reads an array, item by item. -/
def list? {α : Type} (read : Json → Option α) : Json → Option (List α)
  | array items => items.mapM read
  | _ => none

/-- The name of one of several alternatives without contents: a string, or an object whose only
member has that name and the value `null`. -/
def choice? : Json → Option String
  | string text => some text
  | object [(name, null)] => some name
  | _ => none

end Json

end ProxyUpgrade
