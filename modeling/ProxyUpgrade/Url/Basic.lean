import ProxyUpgrade.Url.Host
/-!
# Addresses of the web

An address in its normal form, by its parts. The path is either *hierarchical*, a list of segments,
or
*solid*, a text that nothing is relative to. All parts are kept as they are written, that is, with
percent signs where these are needed.
-/

namespace ProxyUpgrade.Url

/-- Who lies behind an address: a user perhaps, a host and a port. -/
structure Authority where
  user : List Char
  password : List Char
  host : List Char
  port : Option Nat
  deriving DecidableEq

/-- The path of an address. -/
inductive Location where
  | segments (segments : List (List Char))
  | solid (text : List Char)
  deriving DecidableEq

end ProxyUpgrade.Url

namespace ProxyUpgrade

/-- An address of the web. -/
structure Url where
  scheme : List Char
  authority : Option Url.Authority
  location : Url.Location
  query : Option (List Char)
  fragment : Option (List Char)
  deriving DecidableEq

namespace Url

/-- The ports that special schemes have unless another is given. -/
def defaultPorts : List (List Char × Nat) :=
  [("http".toList, 80), ("https".toList, 443), ("ws".toList, 80), ("wss".toList, 443),
    ("ftp".toList, 21)]

/-- The scheme of files. -/
def fileScheme : List Char := "file".toList

/-- Whether a scheme is special: its hosts are domain names and its paths hierarchical. -/
def isSpecial (scheme : List Char) : Bool :=
  scheme == fileScheme || (defaultPorts.lookup scheme).isSome

namespace Authority

/-- The text of an authority, after two slashes. -/
def text (a : Authority) : List Char :=
  let password := if a.password.isEmpty then [] else ':' :: a.password
  let user := if a.user.isEmpty ∧ a.password.isEmpty then [] else a.user ++ password ++ ['@']
  let port := match a.port with
    | some n => ':' :: Nat.toDigits 10 n
    | none => []
  '/' :: '/' :: user ++ a.host ++ port

end Authority

namespace Location

/-- The text of a path. -/
def text : Location → List Char
  | segments list => list.flatMap ('/' :: ·)
  | solid text => text

end Location

/-- The text of an address. A path that would look like an authority gets an idle point. -/
def text (url : Url) : String :=
  let authority := match url.authority, url.location with
    | some a, _ => a.text
    | none, .segments ([] :: _ :: _) => ['/', '.']
    | none, _ => []
  let query := match url.query with
    | some q => '?' :: q
    | none => []
  let fragment := match url.fragment with
    | some f => '#' :: f
    | none => []
  String.ofList (url.scheme ++ ':' :: authority ++ url.location.text ++ query ++ fragment)

instance : ToString Url := ⟨text⟩

/-- The address without user and password. -/
def anonymous (url : Url) : Url :=
  { url with authority := url.authority.map fun a => { a with user := [], password := [] } }

/-- The address with a pair added to its query. -/
def withPair (url : Url) (name value : String) : Url :=
  let pair := formText [(name, value)]
  let query := match url.query with
    | none => pair
    | some q => if q.isEmpty then pair else q ++ '&' :: pair
  { url with query := some query }

/-- The address with pairs added to its query. -/
def withPairs (url : Url) (pairs : List (String × String)) : Url :=
  pairs.foldl (fun url (name, value) => url.withPair name value) url

theorem withPairs_scheme (url : Url) (pairs : List (String × String)) :
    (url.withPairs pairs).scheme = url.scheme := by
  induction pairs generalizing url with
  | nil => rfl
  | cons pair pairs ih => exact ih (url.withPair pair.1 pair.2)

/-- The address of something below one that is taken as a directory. The names are taken as they
are. -/
def below (url : Url) (names : List String) : Except Fault Url :=
  match url.location with
  | .solid _ => .error .solidBase
  | .segments list =>
    let directory := if list.getLast? = some [] then list.dropLast else list
    .ok { url with
      location := .segments (directory ++ names.map String.toList)
      query := none
      fragment := none }

end Url

end ProxyUpgrade
