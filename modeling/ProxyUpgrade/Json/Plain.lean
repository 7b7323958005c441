import ProxyUpgrade.Bytes.Basic
import ProxyUpgrade.Json.Printer
/-!
# Plain values

A document that is kept as a value of its own, rather than read into a record, is held to more than
its grammar: arrays and objects nest at most 127 deep, every string has its characters, every
number is finite. Its members are then sorted by name, and of members with one name the last counts.
-/

namespace ProxyUpgrade.Json

/-- How deep arrays and objects may nest. -/
def maxDepth : Nat := 127

/-- Puts a member in its place among sorted ones, in place of one of the same name. -/
def insertMember (name : String) (json : Json) : List (String × Json) → List (String × Json)
  | [] => [(name, json)]
  | (other, old) :: rest =>
    if name < other then (name, json) :: (other, old) :: rest
    else if name = other then (name, json) :: rest
    else (other, old) :: insertMember name json rest

mutual

/-- A document as a plain value, with so many levels of nesting left. -/
def plainWithin? : (depth : Nat) → Json → Option Json
  | depth + 1, array items => (plainItems? depth items).map array
  | depth + 1, object members => (plainMembers? depth members).map object
  | _, integer n =>
    if Bits.fitsSigned 64 n ∨ 0 ≤ n ∧ Bits.fits 64 n.toNat then some (integer n)
    else if (toFloat n.natAbs 0).isFinite then some (decimal (n < 0) n.natAbs 0) else none
  | _, decimal negative mantissa exponent =>
    if (toFloat mantissa exponent).isFinite then some (decimal negative mantissa exponent)
    else none
  | _, null => some null
  | _, bool b => some (bool b)
  | _, string text => some (string text)
  | _, _ => none

/-- Items as plain values. -/
def plainItems? (depth : Nat) : List Json → Option (List Json)
  | [] => some []
  | item :: rest => do
    let item ← plainWithin? depth item
    let rest ← plainItems? depth rest
    pure (item :: rest)

/-- Members as plain values, sorted; later ones take the place of earlier ones. -/
def plainMembers? (depth : Nat) : List (String × Json) → Option (List (String × Json))
  | [] => some []
  | (name, json) :: rest => do
    let json ← plainWithin? depth json
    let rest ← plainMembers? depth rest
    pure (if rest.any (·.1 == name) then rest else insertMember name json rest)

end

/-- A document as a plain value; `level` arrays and objects stand around it. -/
def plain? (level : Nat) (json : Json) : Option Json := plainWithin? (maxDepth - level) json

/-- Reads a text that holds one plain value. -/
def parsePlain? (text : String) : Option Json := (parse? text).bind (plain? 0)

end ProxyUpgrade.Json
