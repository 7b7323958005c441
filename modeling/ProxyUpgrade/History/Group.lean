import ProxyUpgrade.Chain.Json
import ProxyUpgrade.Json.Fields
import ProxyUpgrade.Time.Timestamp
/-!
# Groups of implementations

Implementations made of the same code form a group. The first address seen with the code is the
*canonical* one of the group; later ones are its *aliases*, in the order in which they were seen. A
manifest is a list of such groups, in the order in which their codes were first seen, and it only
grows: `Manifest.record` adds a group, or an alias, or nothing. Neither that codes differ nor that
addresses have one group is checked anywhere, and a file may hold any list of groups.
-/

namespace ProxyUpgrade.History

/-- A further address with the code of a group. -/
structure Alias where
  address : Address
  firstSeen : Timestamp
  deriving DecidableEq

namespace Alias

/-- An alias as JSON. -/
def toJson (a : Alias) : Json :=
  .object [("address", a.address.toJson), ("first_seen", .string a.firstSeen.text)]

/-- An alias from JSON. -/
def ofJson? (json : Json) : Option Alias := do
  let fields ← json.fields? ["address", "first_seen"]
  pure {
    address := ← fields.required "address" Address.ofJson?
    firstSeen := ← fields.required "first_seen" fun json => json.text?.bind Timestamp.ofText? }

end Alias

/-- The addresses that carry one code. -/
structure Group where
  code : Hash
  canonical : Address
  aliases : List Alias
  deriving DecidableEq

namespace Group

/-- The addresses of a group, the canonical one first. -/
def addresses (group : Group) : List Address := group.canonical :: group.aliases.map (·.address)

/-- Whether an address belongs to a group. -/
def has (group : Group) (address : Address) : Bool := group.addresses.contains address

/-- The group with an address added to it, unless it belongs to it already. -/
def add (group : Group) (now : Timestamp) (address : Address) : Group :=
  if group.has address then group else { group with aliases := group.aliases ++ [⟨address, now⟩] }

/-- A group as JSON. -/
def toJson (group : Group) : Json :=
  .object [("code_hash", group.code.toJson), ("canonical", group.canonical.toJson),
    ("aliases", .array (group.aliases.map Alias.toJson))]

/-- A group from JSON; without aliases it has none. -/
def ofJson? (json : Json) : Option Group := do
  let fields ← json.fields? ["code_hash", "canonical", "aliases"]
  pure {
    code := ← fields.required "code_hash" Hash.ofJson?
    canonical := ← fields.required "canonical" Address.ofJson?
    aliases := ← fields.defaulted "aliases" [] (Json.list? Alias.ofJson?) }

end Group

/-- All groups, in the order in which their codes were first seen. -/
abbrev Manifest : Type := List Group

namespace Manifest

/-- The group of a code. -/
def ofCode? (manifest : Manifest) (code : Hash) : Option Group :=
  manifest.find? fun group => group.code = code

/-- The first group that an address belongs to. -/
def ofAddress? (manifest : Manifest) (address : Address) : Option Group :=
  manifest.find? fun group => group.has address

/-- Adds an address to the group of a code, and gives that group along with the manifest. -/
def record (now : Timestamp) (code : Hash) (address : Address) : Manifest → Group × Manifest
  | [] => (⟨code, address, []⟩, [⟨code, address, []⟩])
  | group :: rest =>
    if group.code = code then (group.add now address, group.add now address :: rest)
    else
      let (found, rest) := record now code address rest
      (found, group :: rest)

/-- A manifest as JSON. -/
def toJson (manifest : Manifest) : Json :=
  .object [("groups", .array (manifest.map Group.toJson))]

/-- A manifest from JSON; without groups it is empty. -/
def ofJson? (json : Json) : Option Manifest := do
  let fields ← json.fields? ["groups"]
  fields.defaulted "groups" [] (Json.list? Group.ofJson?)

end Manifest

end ProxyUpgrade.History
