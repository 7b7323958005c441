import ProxyUpgrade.Files.Path
/-!
# Files

What the program asks of a file system. Failures carry the text that the operating system has for
them.
-/

namespace ProxyUpgrade

namespace Files

/-- Why an operation on files failed. -/
inductive Fault where
  | missing
  | alreadyThere
  | notADirectory
  | isADirectory
  /-- Any other reason, by its text. -/
  | other (text : String)
  deriving DecidableEq

/-- The text of a failure. -/
def Fault.message : Fault → String
  | missing => "No such file or directory (os error 2)"
  | alreadyThere => "File exists (os error 17)"
  | notADirectory => "Not a directory (os error 20)"
  | isADirectory => "Is a directory (os error 21)"
  | other text => text

instance : ToString Fault := ⟨Fault.message⟩

end Files

/-- Access to files. -/
structure Files (m : Type → Type) where
  /-- Whether there is anything at a path. -/
  present : Path → m Bool
  /-- The text of a file. -/
  read : Path → m (Except Files.Fault String)
  /-- The names in a directory, in whatever order the system lists them. -/
  list : Path → m (Except Files.Fault (List String))
  /-- Makes a directory and all directories above it, as far as they are missing. -/
  makeDirectory : Path → m (Except Files.Fault Unit)
  /-- Makes an empty file, unless there is one, and waits until nobody else holds it. -/
  hold : Path → m (Except Files.Fault Unit)
  /-- Lets go of a file that was held. -/
  release : Path → m Unit
  /-- Writes a file anew. -/
  write : Path → String → m (Except Files.Fault Unit)
  /-- Moves a file to another path, in place of the file there. -/
  rename : Path → Path → m (Except Files.Fault Unit)

end ProxyUpgrade
