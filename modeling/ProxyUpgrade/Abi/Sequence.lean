import ProxyUpgrade.Text.Basic
/-!
# Written sequences

Kinds and values are written in one form of list: an opening bracket, items with a comma between
them, an optional comma after the last, a closing bracket. Blanks (spaces and tabs) may follow the
opening bracket and any comma and precede the closing bracket, but not a comma.
-/

namespace ProxyUpgrade.Abi

/-- Drops spaces and tabs. -/
def skipBlanks (text : List Char) : List Char := text.dropWhile fun c => c = ' ' || c = '\t'

/-- The text after a given character. -/
def expect? (c : Char) : List Char → Option (List Char)
  | d :: rest => if d = c then some rest else none
  | [] => none

namespace Sequence

variable {α : Type}

/-- Further items, each after a comma; a comma that no item follows is left. -/
def more (item : Reader α) : (fuel : Nat) → List Char → List α × List Char
  | fuel + 1, ',' :: rest =>
    match item (skipBlanks rest) with
    | some (value, rest) =>
      let (values, rest) := more item fuel rest
      (value :: values, rest)
    | none => ([], ',' :: rest)
  | _, text => ([], text)

/-- The end of a sequence: a comma perhaps, blanks, the closing bracket. -/
def finish? (closing : Char) (text : List Char) : Option (List Char) :=
  match text with
  | ',' :: rest => expect? closing (skipBlanks rest)
  | rest => expect? closing (skipBlanks rest)

/-- Reads a sequence. -/
def read? (opening closing : Char) (item : Reader α) : Reader (List α) := fun text => do
  let inner := skipBlanks (← expect? opening text)
  match expect? closing inner with
  | some rest => pure ([], rest)
  | none =>
    let (value, rest) ← item inner
    let (values, rest) := more item rest.length rest
    pure (value :: values, ← finish? closing rest)

end Sequence

end ProxyUpgrade.Abi
