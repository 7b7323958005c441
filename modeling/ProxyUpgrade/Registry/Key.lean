import ProxyUpgrade.Error
import ProxyUpgrade.Json.Fields
import ProxyUpgrade.Text.Quoted
/-!
# Names of deployments

A deployment is known by the artifact it is made of, tags that tell variants of it apart, and an
optional id that tells instances apart. Its key in the registry is the text
`artifact:tag:tag@id`. Every part has to be non-empty and free of the two separators; then the parts
can be found again in the text, and different deployments have different texts.
-/

namespace ProxyUpgrade

/-- An artifact, and the tags that tell variants of it apart. -/
structure LogicalName where
  artifact : String
  tags : List String
  deriving DecidableEq

namespace LogicalName

/-- The text of a name: a colon before each tag. -/
def text (name : LogicalName) : String :=
  name.artifact ++ String.join (name.tags.map (":" ++ ·))

instance : ToString LogicalName := ⟨text⟩

/-- A name as JSON. -/
def toJson (name : LogicalName) : Json :=
  .object (("artifact", .string name.artifact) ::
    if name.tags.isEmpty then [] else [("tags", .array (name.tags.map Json.string))])

/-- A name from JSON; without tags it has none. -/
def ofJson? (json : Json) : Option LogicalName := do
  let fields ← json.fields? ["artifact", "tags"]
  pure {
    artifact := ← fields.required "artifact" Json.text?
    tags := ← fields.defaulted "tags" [] (Json.list? Json.text?) }

end LogicalName

/-- What the registry knows a deployment by. -/
structure Key where
  name : LogicalName
  /-- Tells instances of one name apart. -/
  instanceId : Option String
  deriving DecidableEq

namespace Key

/-- The text of a key: the name, and the id after an at sign. -/
def text (key : Key) : String :=
  match key.instanceId with
  | some id => key.name.text ++ "@" ++ id
  | none => key.name.text

instance : ToString Key := ⟨text⟩

/-- Whether a character separates the parts of a key. -/
def isSeparator (c : Char) : Bool := c = ':' || c = '@'

/-- Whether a text can be a part of a key. -/
def isPart (part : String) : Bool := !part.isEmpty && !part.toList.any isSeparator

/-- The parts of a key, each with what it is called in a message. -/
def parts (key : Key) : List (String × String) :=
  ("artifact", key.name.artifact) :: key.name.tags.map ("tag", ·) ++
    (key.instanceId.map ("deployment id", ·)).toList

/-- The sentence shown for a part that no key can have. -/
def refusal (what part : String) : String :=
  "invalid " ++ what ++ " " ++ Text.quoted part ++
    ": must be non-empty and contain neither ':' nor '@'"

/-- The text that the registry keeps a key by; the first part that no key can have is an error. -/
def id (key : Key) : Except Error String :=
  match key.parts.find? fun (_, part) => !isPart part with
  | some (what, part) => .error (.config (refusal what part))
  | none => .ok key.text

/-- A key as JSON. -/
def toJson (key : Key) : Json :=
  .object [("logical_name", key.name.toJson),
    ("deployment_id", match key.instanceId with
      | some id => .string id
      | none => .null)]

/-- A key from JSON. -/
def ofJson? (json : Json) : Option Key := do
  let fields ← json.fields? ["logical_name", "deployment_id"]
  pure {
    name := ← fields.required "logical_name" LogicalName.ofJson?
    instanceId := ← fields.optional "deployment_id" Json.text? }

end Key

end ProxyUpgrade
