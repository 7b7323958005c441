/-!
# The words of a command line

A word is a long option (`--name` or `--name=value`), one or more options by their letters (`-l`,
`-lvalue` or `-l=value`), the separator `--`, or plain. Plain words take the places of a *level* one
after the other, or name a command, with which the next level begins. After the separator every word
is plain and names no command.

An option whose value is not in the same word takes the next one, unless that is an option too. Its
value is read only when the next option or place is reached, or at the very end of the level; so a
mistake in the words between comes first, and one in the value itself comes after those of a command
that follows it.
-/

namespace ProxyUpgrade.CommandLine

/-- Why a command line is not carried out. -/
inductive Stop where
  /-- Help was asked for. -/
  | help
  /-- The version was asked for. -/
  | version
  /-- There is nothing on the command line. -/
  | nothing
  | commandMissing
  | commandUnknown
  | argumentMissing
  | argumentUnknown
  | valueMissing
  | valueUnwanted
  | valueInvalid
  /-- An option that may be given once is given again. -/
  | repeated
  deriving DecidableEq

/-- The status with which the program ends. -/
def Stop.exitCode : Stop → Nat
  | help | version => 0
  | _ => 2

/-! ### Single words -/

/-- What a word looks like. -/
inductive Word where
  | separator
  | long (name : String) (value : Option String)
  | letters (letters : List Char)
  | plain

/-- What a word looks like; a single dash is plain. -/
def Word.ofText (text : String) : Word :=
  match text.toList with
  | ['-', '-'] => separator
  | '-' :: '-' :: rest =>
    match rest.dropWhile (· != '=') with
    | _ :: value => long (String.ofList (rest.takeWhile (· != '='))) (some (String.ofList value))
    | [] => long (String.ofList rest) none
  | '-' :: c :: rest => letters (c :: rest)
  | _ => plain

/-- The value that follows the letter of an option in the same word. -/
def valueAfter (rest : List Char) : Option String :=
  match rest with
  | [] => none
  | '=' :: value => some (String.ofList value)
  | value => some (String.ofList value)

/-! ### Levels -/

variable {α : Type}

/-- What an option does with what has been given so far. -/
inductive Effect (α : Type) where
  | flag (set : α → Except Stop α)
  | value (set : String → α → Except Stop α)

/-- An option. -/
structure Switch (α : Type) where
  /-- What it is called after two dashes. -/
  names : List String
  /-- What it is called after one dash. -/
  letter : Option Char
  effect : Effect α

/-- What may be given up to the next command. -/
structure Level (α : Type) where
  switches : List (Switch α)
  /-- What the plain words do, in order. -/
  places : List (String → α → Except Stop α)
  /-- Whether every place has to be taken. -/
  needsAll : Bool
  commands : List String

/-- A value that has not been read yet. -/
inductive Pending (α : Type) where
  | nothing
  /-- The value of an option, which is still to come. -/
  | awaited (set : String → α → Except Stop α)
  /-- A value that is there. -/
  | held (set : α → Except Stop α)

/-- How far the words of a level have been read. -/
structure Scan (α : Type) where
  given : α
  pending : Pending α
  /-- The places that are not taken yet. -/
  places : List (String → α → Except Stop α)

namespace Scan

/-- The beginning of a level. -/
def start (level : Level α) (given : α) : Scan α := ⟨given, .nothing, level.places⟩

/-- Reads the value that has not been read yet. -/
def settle (scan : Scan α) : Except Stop (Scan α) :=
  match scan.pending with
  | .nothing => .ok scan
  | .awaited _ => .error .valueMissing
  | .held set => do pure { scan with given := ← set scan.given, pending := .nothing }

/-- Whether a value is still to come. -/
def isAwaiting (scan : Scan α) : Bool :=
  match scan.pending with
  | .awaited _ => true
  | _ => false

/-- An option without a value, or with one in the same word. -/
def apply (scan : Scan α) (set : α → Except Stop α) : Except Stop (Scan α) := do
  let scan ← scan.settle
  pure { scan with given := ← set scan.given }

/-- An option with its value in the same word, or in the next. -/
def option (scan : Scan α) (set : String → α → Except Stop α) (value : Option String) :
    Except Stop (Scan α) :=
  match value with
  | some value => scan.apply (set value)
  | none => do pure { ← scan.settle with pending := .awaited set }

/-- A long option. -/
def long (level : Level α) (scan : Scan α) (name : String) (value : Option String) :
    Except Stop (Scan α) :=
  match level.switches.find? (·.names.contains name) with
  | none => .error .argumentUnknown
  | some switch =>
    match switch.effect with
    | .value set => scan.option set value
    | .flag set => if value.isSome then .error .valueUnwanted else scan.apply set

/-- Options by their letters. -/
def letters (level : Level α) (scan : Scan α) : List Char → Except Stop (Scan α)
  | [] => .ok scan
  | letter :: rest =>
    match level.switches.find? (·.letter == some letter) with
    | none => .error .argumentUnknown
    | some switch =>
      match switch.effect with
      | .value set => scan.option set (valueAfter rest)
      | .flag set => do letters level (← scan.apply set) rest

/-- A word for a place; `bare` if it stands after the separator. -/
def place (level : Level α) (bare : Bool) (scan : Scan α) (text : String) :
    Except Stop (Scan α) :=
  match scan.places with
  | set :: places => do pure { ← scan.settle with places, pending := .held (set text) }
  | [] =>
    if level.commands.isEmpty || bare && level.commands.contains text then .error .argumentUnknown
    else .error .commandUnknown

/-- A plain word. -/
def plain (level : Level α) (scan : Scan α) (text : String) : Except Stop (Scan α) :=
  match scan.pending with
  | .awaited set => .ok { scan with pending := .held (set text) }
  | _ => scan.place level false text

end Scan

/-- Reads the words of a level up to a command, which is given along with the words after it. -/
def scan (level : Level α) (state : Scan α) :
    List String → Except Stop (Scan α × Option (String × List String))
  | [] => .ok (state, none)
  | text :: rest =>
    if level.commands.contains text && !state.isAwaiting then .ok (state, some (text, rest))
    else match Word.ofText text with
      | .separator => do pure (← rest.foldlM (Scan.place level true) state, none)
      | .long name value => do scan level (← state.long level name value) rest
      | .letters letters => do scan level (← state.letters level letters) rest
      | .plain => do scan level (← state.plain level text) rest

end ProxyUpgrade.CommandLine
