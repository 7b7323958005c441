import ProxyUpgrade.Json.Basic
/-!
# Growing tables of TOML

A document names the places of its values by paths. Tables on the way to a place come into being
when they are first needed, and it matters by what: a table that was *implied* by the heading of
another one may still get a heading of its own, one that was *dotted*, that is, needed for a dotted
name, may get further members by dotted names, and one that was *headed* gets neither. No name is
given a value twice.
-/

namespace ProxyUpgrade.Toml

/-- What brought a table into being. -/
inductive Origin where
  | implied
  | dotted
  | headed
  deriving DecidableEq

/-- What stands at a name. -/
inductive Node where
  | value (json : Json)
  | table (origin : Origin) (members : List (String × Node))
  /-- A list of tables, each with a heading of its own, the latest first. -/
  | tables (items : List (List (String × Node)))

/-- The names of a table with what stands there. -/
abbrev Members : Type := List (String × Node)

namespace Members

/-- Puts something at a name. -/
def put (name : String) (node : Node) : Members → Members
  | [] => [(name, node)]
  | (other, old) :: rest =>
    if other = name then (name, node) :: rest else (other, old) :: put name node rest

/-- Changes the table that a path leads to. `dotted` says whether the path is a dotted name; else it
is a heading. -/
def change (dotted : Bool) (f : Origin → Members → Option Members) :
    (path : List String) → Origin → Members → Option Members
  | [], origin, members => f origin members
  | name :: path, _, members =>
    match members.lookup name with
    | none => do
      let origin := if dotted then .dotted else .implied
      let inner ← change dotted f path origin []
      pure (members.put name (.table origin inner))
    | some (.table origin inner) =>
      if dotted ∧ origin = .headed then none
      else do
        let inner ← change dotted f path origin inner
        pure (members.put name (.table origin inner))
    | some (.tables (last :: earlier)) => do
      let last ← change dotted f path .headed last
      pure (members.put name (.tables (last :: earlier)))
    | some _ => none

/-- Gives a value to a dotted name. -/
def give (path : List String) (name : String) (json : Json) (members : Members) :
    Option Members :=
  change true (fun origin members =>
    if ¬ path.isEmpty ∧ origin ≠ .dotted then none
    else if (members.lookup name).isSome then none
    else some (members.put name (.value json))) path .headed members

/-- Starts a table with a heading. -/
def head (path : List String) (name : String) (members : Members) : Option Members :=
  change false (fun _ members =>
    match members.lookup name with
    | none => some (members.put name (.table .headed []))
    | some (.table .implied inner) => some (members.put name (.table .headed inner))
    | some _ => none) path .headed members

/-- Starts the next table of a list with a heading. -/
def headNext (path : List String) (name : String) (members : Members) : Option Members :=
  change false (fun _ members =>
    match members.lookup name with
    | none => some (members.put name (.tables [[]]))
    | some (.tables items) => some (members.put name (.tables ([] :: items)))
    | some _ => none) path .headed members

/-- Changes the table that a heading stands for. -/
def under (heading : List String) (f : Members → Option Members) (members : Members) :
    Option Members :=
  change false (fun _ => f) heading .headed members

end Members

mutual

/-- What stands at a name, as a document. -/
def Node.toJson : Node → Json
  | .value json => json
  | .table _ members => .object (Node.membersToJson members)
  | .tables items => .array (Node.tablesToJson items [])

/-- The members of a table as those of an object. -/
def Node.membersToJson : List (String × Node) → List (String × Json)
  | [] => []
  | (name, node) :: rest => (name, node.toJson) :: Node.membersToJson rest

/-- Tables as documents, in front of others, in the opposite order. -/
def Node.tablesToJson : List (List (String × Node)) → List Json → List Json
  | [], done => done
  | members :: rest, done => Node.tablesToJson rest (.object (Node.membersToJson members) :: done)

end

/-- A table as a document. -/
def Members.toJson (members : Members) : Json := .object (Node.membersToJson members)

end ProxyUpgrade.Toml
