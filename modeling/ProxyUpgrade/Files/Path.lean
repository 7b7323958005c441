/-!
# Paths

A path is kept as the text it was given as, since messages show it; its components are what lies
between the slashes. A name may have an extension, which is what follows its last point, unless the
point is the first character of the name.
-/

namespace ProxyUpgrade

/-- The path of a file or directory, as it is written. -/
abbrev Path : Type := String

namespace Path

/-- The pieces of a text between slashes. -/
def pieces : List Char → List (List Char)
  | [] => [[]]
  | c :: rest =>
    if c = '/' then [] :: pieces rest
    else match pieces rest with
      | [] => [[c]]
      | piece :: more => (c :: piece) :: more

/-- Whether a piece is no name: empty, or a point for the directory itself. -/
def isIdle (piece : List Char) : Bool := piece.isEmpty || piece == ['.']

/-- The components of a path. -/
def components (path : Path) : List String :=
  ((pieces path.toList).filter (!isIdle ·)).map String.ofList

/-- A path inside of a directory; one that starts at the root is not inside of any. -/
def join (directory name : Path) : Path :=
  if directory.isEmpty ∨ name.startsWith "/" then name
  else if directory.toList.getLast? = some '/' then directory ++ name
  else directory ++ "/" ++ name

/-- A path without what follows its last component: slashes and idle points. -/
def trimmed (text : List Char) : List Char :=
  strip text.reverse |>.reverse
where
  /-- The same, from the end. -/
  strip : List Char → List Char
    | '/' :: rest => strip rest
    | '.' :: '/' :: rest => strip ('/' :: rest)
    | text => text

/-- Whether a path leads to nothing but a directory, because something follows its last component.
-/
def isForDirectory (path : Path) : Bool := trimmed path.toList != path.toList

/-- A path cut before its last component, which is empty if there is none. -/
def cut (path : Path) : List Char × List Char :=
  let text := (trimmed path.toList).reverse
  ((text.dropWhile (· != '/')).reverse, (text.takeWhile (· != '/')).reverse)

/-- Whether a component is the name of something in a directory. -/
def isName (component : List Char) : Bool :=
  !(component.isEmpty || component == ['.'] || component == ['.', '.'])

/-- The directory part and the name of a path that has a name. -/
def split? (path : Path) : Option (List Char × List Char) :=
  if isName (cut path).2 then some (cut path) else none

/-- The directory that a path lies in; empty if the path is a single component. -/
def parent? (path : Path) : Option Path :=
  let (directory, component) := cut path
  if component.isEmpty then none
  else
    let bare := trimmed directory
    some (if bare.isEmpty ∧ ¬ directory.isEmpty then "/" else String.ofList bare)

/-- A name without its extension. -/
def stem (name : List Char) : List Char :=
  match name.reverse.dropWhile (· != '.') with
  | '.' :: rest => if rest.isEmpty then name else rest.reverse
  | _ => name

/-- The path with another extension. -/
def withExtension (extension : String) (path : Path) : Path :=
  match split? path with
  | some (directory, name) =>
    String.ofList (directory ++ stem name ++ '.' :: extension.toList)
  | none => path

/-- The extension of a path's name, if it has one. -/
def extension? (path : Path) : Option String := do
  let (_, name) ← split? path
  let bare := stem name
  if bare.length < name.length then some (String.ofList (name.drop (bare.length + 1))) else none

end Path

end ProxyUpgrade
