import ProxyUpgrade.Program
/-!
# The command

The program in the surroundings of a real process: its files, its clock and its variables. Requests
over the web have no transport here, so that every one of them ends as if the server could not be
reached.
-/

namespace ProxyUpgrade.Machine

/-- A failure of the system as one of the file system. -/
def fault : IO.Error → Files.Fault
  | .noFileOrDirectory _ _ _ => .missing
  | .alreadyExists _ _ _ => .alreadyThere
  | .inappropriateType _ 20 _ => .notADirectory
  | .inappropriateType _ 21 _ | .illegalOperation 21 _ => .isADirectory
  | error => .other (toString error)

/-- The outcome of something done with files. -/
def attempt {α : Type} (action : IO α) : IO (Except Files.Fault α) := do
  try pure (.ok (← action)) catch error => pure (.error (fault error))

/-- The files that are held, with their paths. -/
abbrev Held := IO.Ref (List (Path × IO.FS.Handle))

/-- The files of the system. -/
def files (held : Held) : Files IO where
  present path := do pure (← attempt (IO.FS.realPath path)).isOk
  read path := attempt (IO.FS.readFile path)
  list path := attempt do
    let entries ← (← IO.FS.realPath path).readDir
    pure (entries.toList.map (·.fileName))
  makeDirectory path := attempt (IO.FS.createDirAll path)
  hold path := attempt do
    let handle ← IO.FS.Handle.mk path .append
    handle.lock
    held.modify ((path, handle) :: ·)
  release path := do
    for (other, handle) in ← held.get do
      if other = path then handle.unlock
    held.modify (·.filter (·.1 ≠ path))
  write path text := attempt (IO.FS.writeFile path text)
  rename source target := attempt (IO.FS.rename source target)

/-- The clock of the system. -/
def clock : Clock IO where
  now := IO.monoMsNow
  sleep span := IO.sleep span.toUInt32

/-- The time at which this process has begun. -/
def start : IO Timestamp := do
  let modified := (← (← IO.FS.realPath "/proc/self").metadata).modified
  match Timestamp.ofUnix? modified.sec modified.nsec.toNat with
  | some time => pure time
  | none => throw (IO.userError "the clock shows no point in time")

/-- The variables of the environment, which end with a null character each. -/
def environment : IO (List (String × String)) := do
  match ← attempt (IO.FS.readFile "/proc/self/environ") with
  | .error _ => pure []
  | .ok text =>
    pure ((text.splitOn "\x00").filterMap fun entry =>
      match entry.splitOn "=" with
      | name :: value@(_ :: _) => some (name, "=".intercalate value)
      | _ => none)

/-- The working directory and those above it, as seen from it. -/
def directories : IO (List Path) := do
  let depth := (Path.components (← IO.FS.realPath ".").toString).length
  pure ((List.range (depth + 1)).map fun n => "/".intercalate (List.replicate n ".."))

end ProxyUpgrade.Machine

open ProxyUpgrade in
/-- Runs the program on the words of its command line. -/
def main (words : List String) : IO UInt32 := do
  let around : Program.Surroundings IO := {
    files := Machine.files (← IO.mkRef [])
    http := .unreachable
    clock := Machine.clock
    time := Machine.start
    directories := ← Machine.directories
    environment := ← Machine.environment }
  let ending ← Program.run around words
  IO.print ending.output
  IO.eprint ending.complaint
  pure ending.status.toUInt32
