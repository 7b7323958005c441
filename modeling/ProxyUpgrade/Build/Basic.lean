import ProxyUpgrade.Action
import ProxyUpgrade.Chain.Json
import ProxyUpgrade.Deploy.Artifact
import ProxyUpgrade.Files.Basic
import ProxyUpgrade.Json.Fields
import ProxyUpgrade.Json.Parser
/-!
# The output of a build

A build leaves a document for each contract in a directory of its own, `Name.sol/Name.json`. Of that
document the creation code is read here, and in `Build.source` what the code was made of.
-/

namespace ProxyUpgrade

/-- The directory with the output of a build. -/
structure Build (m : Type → Type) where
  files : Files m
  directory : Path

namespace Build

variable {m : Type → Type} [Monad m]

/-- The path of the document of a contract. -/
def documentPath (build : Build m) (name : String) : Path :=
  (build.directory.join (name ++ ".sol")).join (name ++ ".json")

/-- The text in what was read of a file. -/
def textOf (path : Path) : Except Files.Fault String → Except Error String
  | .ok text => .ok text
  | .error fault =>
    .error (.config ("failed to read artifact " ++ path ++ ": " ++ fault.message))

/-- The text of a file of the build. -/
def text (build : Build m) (path : Path) : Action m String := do
  Action.ofExcept (textOf path (← ExceptT.lift (build.files.read path)))

/-- What stands where the reason why a document is refused would. -/
def unreadable : String := "not of the expected form"

/-- What is of interest in the text of a document. -/
def documentOf {α : Type} (what : String) (read : Json → Option α) (path : Path)
    (text : String) : Except Error α :=
  match (Json.parse? text).bind read with
  | some value => .ok value
  | none => .error (.encoding ("invalid " ++ what ++ " " ++ path ++ ": " ++ unreadable))

/-- A document of the build, as far as it is of interest. -/
def document {α : Type} (build : Build m) (what : String) (read : Json → Option α) (path : Path) :
    Action m α := do
  Action.ofExcept (documentOf what read path (← build.text path))

/-- The creation code in the document of a contract. -/
def code? (json : Json) : Option Bytes := do
  let fields ← json.fields? ["bytecode"]
  fields.required "bytecode" fun json => do
    let fields ← json.fields? ["object"]
    fields.required "object" Bytes.ofJson?

/-- The artifact of a name with its code, of which there has to be some. -/
def artifactOf (name : String) (code : Bytes) : Except Error Artifact :=
  if code.isEmpty then
    .error (.config
      ("artifact " ++ name ++ " has no creation code (abstract contract or interface?)"))
  else .ok ⟨name, code⟩

/-- The artifact of a name. -/
def artifact (build : Build m) (name : String) : Action m Artifact := do
  Action.ofExcept (artifactOf name
    (← build.document "artifact" code? (build.documentPath name)))

end Build

end ProxyUpgrade
