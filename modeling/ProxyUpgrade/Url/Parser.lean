import ProxyUpgrade.Url.Basic
/-!
# Reading addresses of the web

Reading is forgiving: blanks and control characters around the text and line ends within it are
dropped, missing or superfluous slashes after a special scheme do no harm, and characters that need
to be encoded are. What is left has to have a scheme and, if that is special, a host.
-/

namespace ProxyUpgrade.Url

/-- Whether a character is dropped from the ends of a text. -/
def isMargin (c : Char) : Bool := c.toNat ≤ 0x20

/-- A text without what is dropped from it. -/
def cleaned (text : List Char) : List Char :=
  let inner := ((text.dropWhile isMargin).reverse.dropWhile isMargin).reverse
  inner.filter fun c => c ≠ '\t' ∧ c ≠ '\n' ∧ c ≠ '\r'

/-- Whether a scheme may go on with a character. -/
def isSchemeChar (c : Char) : Bool :=
  c.isAlpha || c.isDigit || c = '+' || c = '-' || c = '.'

/-- The scheme in front of a text, in lower case, and what follows the colon. -/
def splitScheme? (text : List Char) : Option (List Char × List Char) :=
  match text with
  | c :: _ =>
    if c.isAlpha then
      match text.span isSchemeChar with
      | (scheme, ':' :: rest) => some (scheme.map Char.toLower, rest)
      | _ => none
    else none
  | [] => none

/-- Whether a character separates segments. -/
def isSlash (special : Bool) (c : Char) : Bool := c = '/' || (special && c = '\\')

/-- Whether a path, query or fragment starts with a character. -/
def endsAuthority (special : Bool) (c : Char) : Bool := isSlash special c || c = '?' || c = '#'

/-- The parts of a text before and after the last occurrence of a character. -/
def splitLast? (c : Char) (text : List Char) : Option (List Char × List Char) :=
  if text.contains c then
    let after := (text.reverse.takeWhile (· != c)).reverse
    some (text.take (text.length - after.length - 1), after)
  else none

/-- The user and the password of a text. -/
def credentials (text : List Char) : List Char × List Char :=
  let (user, rest) := text.span (· != ':')
  (percentEncode ByteSet.user user, percentEncode ByteSet.user (rest.drop 1))

/-- The host and the port in a text; a colon in brackets separates nothing. -/
def splitPort : (inBrackets : Bool) → List Char → List Char × Option (List Char)
  | _, [] => ([], none)
  | inside, c :: rest =>
    if c = ':' ∧ !inside then ([], some rest)
    else
      let inside := if c = '[' then true else if c = ']' then false else inside
      let (host, port) := splitPort inside rest
      (c :: host, port)

/-- The port of a text; the one that the scheme has anyway is not kept. -/
def port (scheme : List Char) (digits : List Char) : Except Fault (Option Nat) :=
  if digits.isEmpty then .ok none
  else if !digits.all Char.isDigit then .error .port
  else
    let n := digits.foldl (fun acc c => acc * 10 + (c.toNat - 48)) 0
    if 65535 < n then .error .port
    else .ok (if defaultPorts.lookup scheme = some n then none else some n)

/-- Reads what stands between two slashes and the path. -/
def readAuthority (scheme : List Char) (text : List Char) : Except Fault Authority := do
  let special := isSpecial scheme
  let (user, password, named, rest) := match splitLast? '@' text with
    | some (before, after) =>
      let (user, password) := credentials before
      (user, password, true, after)
    | none => ([], [], false, text)
  let (hostText, portText) := splitPort false rest
  if hostText.isEmpty ∧ (special ∨ portText.isSome ∨ named) then throw .emptyHost
  let host ← if special then Host.special hostText else Host.ordinary hostText
  let port ← match portText with
    | some digits => port scheme digits
    | none => pure none
  pure ⟨user, password, host, port⟩

/-- Whether a segment stands for the directory itself. -/
def isSingleDot (segment : List Char) : Bool :=
  let text := segment.map Char.toLower
  text == ['.'] || text == ['%', '2', 'e']

/-- Whether a segment stands for the directory above. -/
def isDoubleDot (segment : List Char) : Bool :=
  let text := segment.map Char.toLower
  text == ['.', '.'] || text == ['.', '%', '2', 'e'] || text == ['%', '2', 'e', '.'] ||
    text == ['%', '2', 'e', '%', '2', 'e']

/-- Whether a segment names a drive. -/
def isDrive : List Char → Bool
  | [c, d] => c.isAlpha && (d = ':' || d = '|')
  | _ => false

/-- The pieces of a text between slashes. -/
def pieces (special : Bool) : List Char → List (List Char)
  | [] => [[]]
  | c :: rest =>
    if isSlash special c then [] :: pieces special rest
    else match pieces special rest with
      | [] => [[c]]
      | piece :: more => (c :: piece) :: more

/-- The segments without the last one; the drive of a file is kept. -/
def shorten (file : Bool) (segments : List (List Char)) : List (List Char) :=
  match segments with
  | [drive] => if file && isDrive drive then [drive] else []
  | segments => segments.dropLast

/-- Adds a segment to those before it; `last` says that nothing follows. -/
def addSegment (file last : Bool) (segments : List (List Char)) (piece : List Char) :
    List (List Char) :=
  let open_ := if last then [[]] else []
  if isDoubleDot piece then shorten file segments ++ open_
  else if isSingleDot piece then segments ++ open_
  else
    match segments.isEmpty && file && isDrive piece, piece with
    | true, c :: _ => [[c, ':']]
    | _, _ => segments ++ [percentEncode ByteSet.path piece]

/-- Adds pieces one after the other. -/
def addPieces (file : Bool) (segments : List (List Char)) : List (List Char) → List (List Char)
  | [] => segments
  | [piece] => addSegment file true segments piece
  | piece :: rest => addPieces file (addSegment file false segments piece) rest

/-- The segments of the text of a path, after its first slash. -/
def path (scheme : List Char) (text : List Char) : Location :=
  .segments (addPieces (scheme == fileScheme) [] (pieces (isSpecial scheme) text))

/-- The path after an authority. -/
def pathAfterAuthority (scheme : List Char) (text : List Char) : Location :=
  match text with
  | [] => if isSpecial scheme then .segments [[]] else .segments []
  | c :: rest => path scheme (if isSlash (isSpecial scheme) c then rest else c :: rest)

/-- A text before and after the first occurrence of a character. -/
def splitFirst (c : Char) (text : List Char) : List Char × Option (List Char) :=
  match text.span (· != c) with
  | (before, _ :: after) => (before, some after)
  | (before, []) => (before, none)

/-- The host of a file: none at all for the machine itself. -/
def fileHost (text : List Char) : Except Fault (List Char) := do
  if text.isEmpty then pure []
  else
    let host ← Host.special text
    pure (if host == "localhost".toList then [] else host)

/-- Reads the place of a file. -/
def fileParts (text : List Char) : Except Fault (Authority × Location) := do
  match text with
  | a :: b :: rest =>
    if isSlash true a ∧ isSlash true b then
      let (host, after) := rest.span fun c => !endsAuthority true c
      if isDrive host then pure (⟨[], [], [], none⟩, path fileScheme rest)
      else pure (⟨[], [], ← fileHost host, none⟩, pathAfterAuthority fileScheme after)
    else pure (⟨[], [], [], none⟩, pathAfterAuthority fileScheme text)
  | text => pure (⟨[], [], [], none⟩, pathAfterAuthority fileScheme text)

/-- Reads everything between the scheme and the query. -/
def parts (scheme : List Char) (text : List Char) :
    Except Fault (Option Authority × Location) := do
  let special := isSpecial scheme
  let between (rest : List Char) : Except Fault (Option Authority × Location) := do
    let (front, after) := rest.span fun c => !endsAuthority special c
    pure (some (← readAuthority scheme front), pathAfterAuthority scheme after)
  if scheme == fileScheme then
    let (a, location) ← fileParts text
    pure (some a, location)
  else if special then between (text.dropWhile (isSlash true))
  else match text with
    | '/' :: '/' :: rest => between rest
    | '/' :: rest => pure (none, path scheme rest)
    | rest => pure (none, .solid (percentEncode ByteSet.controls rest))

/-- Reads an address. -/
def ofText (text : String) : Except Fault Url := do
  match splitScheme? (cleaned text.toList) with
  | none => throw .noScheme
  | some (scheme, rest) =>
    let (rest, fragment) := splitFirst '#' rest
    let (rest, query) := splitFirst '?' rest
    let (authority, location) ← parts scheme rest
    let set := if isSpecial scheme then ByteSet.specialQuery else ByteSet.query
    pure {
      scheme
      authority
      location
      query := query.map (percentEncode set)
      fragment := fragment.map (percentEncode ByteSet.fragment) }

end ProxyUpgrade.Url
