import ProxyUpgrade.Json.Basic
/-!
# Reading records

A record is written as an object with its fields as members, or as an array of its fields in the
order of their declaration. Members with other names are ignored, a field given twice is refused.
How a field may be missing depends on the field:

* a *required* field may not;
* an *optional* one may be absent from an object, and may be `null` in either form;
* a *defaulted* one may be absent from either form, and may not be `null`.

A tagged alternative is an object with its tag as one member, or an array with its tag in front.
-/

namespace ProxyUpgrade.Json

/-- The fields of a record: looked up by name, or taken in order. -/
inductive Fields where
  | named (members : List (String × Json))
  | ordered (fields : List (String × Json))

namespace Fields

/-- The value given for a field, if one is. -/
def get? (name : String) : Fields → Option Json
  | named members => members.lookup name
  | ordered fields => fields.lookup name

/-- A field that must be given. -/
def required {α : Type} (fields : Fields) (name : String) (read : Json → Option α) : Option α :=
  (fields.get? name).bind read

/-- A field that an object may leave out and that may be `null`. -/
def optional {α : Type} (fields : Fields) (name : String) (read : Json → Option α) :
    Option (Option α) :=
  match fields, fields.get? name with
  | _, some json => json.nullable? read
  | named _, none => some none
  | ordered _, none => none

/-- A field that may be left out, for which a value then stands in. -/
def defaulted {α : Type} (fields : Fields) (name : String) (default : α)
    (read : Json → Option α) : Option α :=
  match fields.get? name with
  | some json => read json
  | none => some default

end Fields

/-- Whether no name of a list occurs twice among the members of an object. -/
def distinct (names : List String) (members : List (String × Json)) : Bool :=
  names.all fun name => (members.filter (·.1 == name)).length ≤ 1

/-- The fields of a record with the given names. -/
def fields? (names : List String) : Json → Option Fields
  | object members => if distinct names members then some (.named members) else none
  | array items => if items.length ≤ names.length then some (.ordered (names.zip items)) else none
  | _ => none

/-- The tag of an alternative, and what is left of the document without it. -/
def tagged? (tag : String) : Json → Option (String × Json)
  | object members =>
    match members.filter (·.1 == tag) with
    | [(_, string name)] => some (name, object (members.filter (·.1 != tag)))
    | _ => none
  | array (string name :: items) => some (name, array items)
  | _ => none

end ProxyUpgrade.Json
