import ProxyUpgrade.Toml.Quoted
import ProxyUpgrade.Toml.Scalar
import ProxyUpgrade.Toml.Table
/-!
# Reading TOML

A document is a sequence of lines: headings, names with values, comments. It is read into the same
kind of tree as a JSON document. Lists and tables within a value nest at most 79 deep.
-/

namespace ProxyUpgrade.Toml

/-! ### Between values -/

/-- Drops the blanks within a line. -/
def skip (text : List Char) : List Char := text.dropWhile isWhite

/-- What follows the end of a line, if it is one. -/
def newLine? : List Char → Option (List Char)
  | '\n' :: rest => some rest
  | '\r' :: '\n' :: rest => some rest
  | _ => none

/-- Drops a comment, if there is one. -/
def skipComment : List Char → List Char
  | '#' :: rest => rest.dropWhile isPlain
  | text => text

/-- Drops blanks, comments and ends of lines. -/
def skipLines : (fuel : Nat) → List Char → List Char
  | 0, text => text
  | fuel + 1, text =>
    let text := skipComment (skip text)
    match newLine? text with
    | some rest => skipLines fuel rest
    | none => text

/-- Drops blanks, comments and ends of lines, as many as there are. -/
def skipAll (text : List Char) : List Char := skipLines (text.length + 1) text

/-! ### Names -/

/-- Whether a character may stand in a name without quotes. -/
def isBare (c : Char) : Bool := c.isAlphanum || c = '_' || c = '-'

/-- A name without points. -/
def simpleKey? : Reader (List Char)
  | c :: rest =>
    if c = '"' ∨ c = apostrophe then lineString? (c :: rest) else Reader.some isBare (c :: rest)
  | [] => none

/-- A dotted name: its parts from the first on, with blanks around each. -/
def key? : (fuel : Nat) → Reader (List String)
  | 0, _ => none
  | fuel + 1, text => do
    let (part, rest) ← simpleKey? (skip text)
    match skip rest with
    | '.' :: rest => do
      let (parts, rest) ← key? fuel rest
      pure (String.ofList part :: parts, rest)
    | rest => pure ([String.ofList part], rest)

/-- The parts of a dotted name before the last one, and the last one. -/
def splitKey? (text : List Char) : Option ((List String × String) × List Char) := do
  let (parts, rest) ← key? (text.length + 1) text
  let last ← parts.getLast?
  pure ((parts.dropLast, last), rest)

/-! ### Values -/

/-- The items of a list after its opening bracket. -/
def items (item : Reader Json) : (fuel : Nat) → Reader (List Json)
  | 0, _ => none
  | fuel + 1, text =>
    match skipAll text with
    | ']' :: rest => some ([], rest)
    | text => do
      let (value, rest) ← item text
      match skipAll rest with
      | ',' :: rest => do
        let (values, rest) ← items item fuel rest
        pure (value :: values, rest)
      | ']' :: rest => pure ([value], rest)
      | _ => none

/-- A name with its value. -/
def pair? (value : Reader Json) : Reader ((List String × String) × Json) := fun text => do
  let (key, rest) ← splitKey? text
  match rest with
  | '=' :: rest => do
    let (json, rest) ← value (skip rest)
    pure ((key, json), rest)
  | _ => none

/-- The members of a table within a value, from the first on, added to others. -/
def members (value : Reader Json) : (fuel : Nat) → Members → Reader Members
  | 0, _, _ => none
  | fuel + 1, table, text => do
    let (((path, name), json), rest) ← pair? value text
    let table ← table.give path name json
    match skip rest with
    | ',' :: rest => members value fuel table rest
    | '}' :: rest => pure (table, rest)
    | _ => none

/-- A value, with so many levels of nesting left. -/
def value? : (depth : Nat) → Reader Json
  | 0, _ => none
  | depth + 1, text =>
    match text with
    | '[' :: rest => do
      let (values, rest) ← items (value? depth) (rest.length + 1) rest
      pure (.array values, rest)
    | '{' :: rest =>
      match skip rest with
      | '}' :: rest => some (.object [], rest)
      | rest => do
        let (table, rest) ← members (value? depth) (rest.length + 1) [] rest
        pure (table.toJson, rest)
    | c :: rest =>
      if c = '"' ∨ c = apostrophe then do
        let (text, rest) ← string? (c :: rest)
        pure (.string (String.ofList text), rest)
      else scalar? (c :: rest)
    | [] => none

/-- How deep values may nest, a value without parts counted in. -/
def maxDepth : Nat := 80

/-! ### Documents -/

/-- A document that is being read. -/
structure Draft where
  members : Members
  /-- The heading that names now belong to. -/
  heading : List String

/-- A heading after its opening bracket. -/
def heading? (draft : Draft) : Reader Draft
  | '[' :: rest => do
    let ((path, name), rest) ← splitKey? rest
    let members ← draft.members.headNext path name
    pure (⟨members, path ++ [name]⟩, ← Reader.word? [']', ']'] rest)
  | text => do
    let ((path, name), rest) ← splitKey? text
    let members ← draft.members.head path name
    pure (⟨members, path ++ [name]⟩, ← Reader.word? [']'] rest)

/-- What a line holds besides blanks and a comment. -/
def content? (draft : Draft) : Reader Draft
  | '[' :: rest => heading? draft rest
  | text =>
    if text.isEmpty ∨ text.head? = some '#' ∨ (newLine? text).isSome then some (draft, text)
    else do
      let (((path, name), json), rest) ← pair? (value? maxDepth) text
      let members ← draft.members.under draft.heading (·.give path name json)
      pure (⟨members, draft.heading⟩, rest)

/-- Reads lines until the document ends. -/
def lines : (fuel : Nat) → Draft → List Char → Option Draft
  | 0, _, _ => none
  | fuel + 1, draft, text => do
    let (draft, rest) ← content? draft (skip text)
    let rest := skipComment (skip rest)
    if rest.isEmpty then pure draft else lines fuel draft (← newLine? rest)

/-- Reads a document, with or without a mark of the order of bytes in front. -/
def parse? (text : String) : Option Json := do
  let text := match text.toList with
    | c :: rest => if c.toNat = 0xfeff then rest else c :: rest
    | [] => []
  let draft ← lines (text.length + 1) ⟨[], []⟩ text
  pure draft.members.toJson

end ProxyUpgrade.Toml
