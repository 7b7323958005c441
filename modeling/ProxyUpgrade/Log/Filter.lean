import ProxyUpgrade.Log.Line
/-!
# Verbosity

How much is logged is said by the name of a level or by a number: `0` stands for nothing, `5` for
everything.
-/

namespace ProxyUpgrade.Log

/-- Which lines are written. -/
inductive Filter where
  | off
  /-- Those that are at least as important as a level. -/
  | atLeast (least : Level)
  deriving DecidableEq

namespace Filter

/-- The name of a filter. -/
def name : Filter → String
  | off => "off"
  | atLeast least => least.name

/-- All filters, each at the place of its number. -/
def all : List Filter := off :: Level.all.reverse.map atLeast

/-- The number that a text of digits stands for; a plus sign may precede them. -/
def number? (text : List Char) : Option Nat :=
  let digits := match text with
    | '+' :: digits => digits
    | digits => digits
  if digits.isEmpty || !digits.all Char.isDigit then none
  else some (digits.foldl (fun n c => 10 * n + (c.toNat - '0'.toNat)) 0)

/-- The filter of a number or a name, whose letters may be small or large. The empty text stands for
errors alone. -/
def ofText? (text : String) : Option Filter :=
  if text.isEmpty then some (atLeast .error)
  else match number? text.toList with
    | some n => all[n]?
    | none => all.find? (·.name == text.toLower)

end Filter

end ProxyUpgrade.Log
