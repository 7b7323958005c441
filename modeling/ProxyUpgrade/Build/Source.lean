import ProxyUpgrade.Build.Basic
import ProxyUpgrade.Json.Plain
import ProxyUpgrade.Log.Line
import ProxyUpgrade.Text.Quoted
/-!
# What a contract was built from

The document of a contract names its compiler and the source that the contract stands in. The whole
input that the compiler was given lies in one of the documents of the directory `build-info`: in the
first one, as the directory is listed, that has the source.
-/

namespace ProxyUpgrade.Build

/-- What it takes to build a contract again. -/
structure Source where
  /-- The source and the name of the contract, with a colon between them. -/
  contractPath : String
  /-- The version of the compiler. -/
  compiler : String
  /-- The input of the compiler. -/
  input : Json
  /-- The source alone. -/
  path : String
  /-- The document that the input was found in. -/
  origin : Path

/-- What a document says about its compiler and sources. -/
structure Metadata where
  compiler : String
  /-- The contract that was built from each source, sorted by source. -/
  targets : List (String × String)

namespace Metadata

/-- The contracts of sources, sorted; of several for one source the last counts. -/
def targets? : Json → Option (List (String × String))
  | .object members => do
    let members ← members.foldlM (fun all (source, json) => do
      let contract ← json.text?
      pure (Json.insertMember source (.string contract) all)) []
    members.mapM fun (source, json) => json.text?.map (source, ·)
  | _ => none

/-- The metadata of a contract. -/
def ofJson? (json : Json) : Option Metadata := do
  let fields ← json.fields? ["compiler", "settings"]
  pure {
    compiler := ← fields.required "compiler" fun json => do
      let fields ← json.fields? ["version"]
      fields.required "version" Json.text?
    targets := ← fields.required "settings" fun json => do
      let fields ← json.fields? ["compilationTarget"]
      fields.required "compilationTarget" targets? }

/-- The metadata in the document of a contract, if it has any. -/
def ofDocument? (json : Json) : Option (Option Metadata) := do
  let fields ← json.fields? ["metadata"]
  fields.optional "metadata" ofJson?

/-- The source that a contract was built from, the first if there are several. -/
def sourceOf? (metadata : Metadata) (name : String) : Option String :=
  (metadata.targets.find? (·.2 == name)).map (·.1)

end Metadata

/-- The compiler's input in a document of `build-info`. -/
def input? (json : Json) : Option Json := do
  let fields ← json.fields? ["input"]
  fields.required "input" (Json.plain? 1)

/-- Whether an input has a source. -/
def hasSource (source : String) (input : Json) : Bool :=
  ((input.member? "sources").bind (·.member? source)).isSome

variable {m : Type → Type} [Monad m]

/-- The directory with the compiler's inputs. -/
def inputs (build : Build m) : Path := build.directory.join "build-info"

/-- The first document with an input that has a source, and the input. -/
def findInput (build : Build m) (source : String) : List String → Action m (Path × Json)
  | [] => throw (.config ("no build info in " ++ build.inputs ++ " compiles " ++ source))
  | name :: others => do
    let path := build.inputs.join name
    if path.extension? = some "json" then
      let input ← build.document "build info" input? path
      if hasSource source input then pure (path, input)
      else findInput build source others
    else findInput build source others

/-- What the contract of a name was built from. -/
def source (build : Build m) (name : String) : Action m Source := do
  match ← build.document "artifact" Metadata.ofDocument? (build.documentPath name) with
  | none => throw (.config ("artifact " ++ name ++ " carries no compiler metadata"))
  | some metadata =>
    match metadata.sourceOf? name with
    | none => throw (.config ("artifact " ++ name ++ " has no compilation target"))
    | some path =>
      match ← ExceptT.lift (build.files.list build.inputs) with
      | .error fault =>
        throw (.config ("no build info in " ++ build.inputs ++ " (build with --build-info): " ++
          fault.message))
      | .ok names => do
        let (origin, input) ← findInput build path names
        pure ⟨path ++ ":" ++ name, metadata.compiler, input, path, origin⟩

/-- The line that tells where an input was found. -/
def Source.line (source : Source) : Log.Line :=
  ⟨.trace, "proxup_deploy::proxy",
    "Found build input build_info=" ++ source.origin ++ " source_path=" ++ Text.quoted source.path⟩

end ProxyUpgrade.Build
