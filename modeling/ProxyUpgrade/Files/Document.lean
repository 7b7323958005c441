import ProxyUpgrade.Action
import ProxyUpgrade.Files.Basic
import ProxyUpgrade.Json.Printer
/-!
# Documents in files

A JSON document is kept in a file that is only ever replaced as a whole. A missing file stands for
an empty document. To change a document, a file beside it with the extension `lock` is held, the new
text is written to a file with the extension `tmp`, and that file is moved to its place. So whatever
fails on the way, the document is either the old one or the new one.
-/

namespace ProxyUpgrade.Document

variable {m : Type → Type} [Monad m] {α β : Type}

/-- How something is kept in a document. -/
structure Format (α : Type) where
  /-- What a missing document stands for. -/
  absent : α
  toJson : α → Json
  ofJson? : Json → Option α

/-- What stands where the reason why a text is no such document would. -/
def unreadable : String := "not a table of this program"

/-- An outcome of the file system, with a sentence for its failure. -/
def checked (what : String) (outcome : m (Except Files.Fault α)) : Action m α :=
  ExceptT.mk do
    match ← outcome with
    | .ok value => pure (.ok value)
    | .error fault => pure (.error (.storage (what ++ ": " ++ fault.message)))

/-- Reads a document. -/
def load (files : Files m) (format : Format α) (path : Path) : Action m α := do
  if ← ExceptT.lift (files.present path) then
    let text ← checked ("failed to read " ++ path) (files.read path)
    match (Json.parse? text).bind format.ofJson? with
    | some value => pure value
    | none => throw (.storage ("failed to parse " ++ path ++ ": " ++ unreadable))
  else pure format.absent

/-- Makes the directory that a path lies in. -/
def makeParent (files : Files m) (path : Path) : Action m Unit :=
  match path.parent? with
  | some parent =>
    if parent.isEmpty then pure ()
    else checked ("failed to create " ++ parent) (files.makeDirectory parent)
  | none => pure ()

/-- Replaces a document. -/
def replace (files : Files m) (format : Format α) (path : Path) (value : α) : Action m Unit := do
  makeParent files path
  let fresh := path.withExtension "tmp"
  checked ("failed to create " ++ fresh) (files.write fresh (format.toJson value).pretty)
  checked ("failed to replace " ++ path) (files.rename fresh path)

/-- Does something while a file is held. -/
def holding (files : Files m) (path : Path) (action : Action m α) : Action m α := do
  makeParent files path
  checked ("failed to open lock " ++ path) (files.hold path)
  ExceptT.mk do
    let outcome ← action.outcome
    files.release path
    pure outcome

/-- Changes a document, and gives what the change yields along with it. -/
def update (files : Files m) (format : Format α) (path : Path) (change : α → β × α) :
    Action m β :=
  holding files (path.withExtension "lock") do
    let (result, value) := change (← load files format path)
    replace files format path value
    pure result

end ProxyUpgrade.Document
