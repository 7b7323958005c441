import ProxyUpgrade.Action
import ProxyUpgrade.Bytes.Basic
import ProxyUpgrade.Files.Basic
/-!
# A tree of files

A file system held in memory: a finite map from paths, as lists of names, to files and directories.
The root is a directory that is always there. Operations fail as those of a real file system do: at
the first component that is missing or no directory, or because what is found is of the wrong kind.
A file may hold any bytes; its text is what they encode in UTF-8.
-/

namespace ProxyUpgrade.Files

/-- What lies at a path. -/
inductive Node where
  | file (bytes : Bytes)
  | directory
  deriving DecidableEq

/-- What lies at a list of names, according to entries of which the first counts. The root is a
directory. -/
def Tree.lookup (nodes : List (List String × Node)) (names : List String) : Option Node :=
  if names.isEmpty then some .directory else nodes.lookup names

/-- A file system in memory. Of several entries for one path the first counts. -/
structure Tree where
  nodes : List (List String × Node)
  /-- Whatever there is lies in a directory. -/
  sound : ∀ entry ∈ nodes, Tree.lookup nodes entry.1.dropLast = some .directory

namespace Tree

theorem lookup_cons_of_ne {names other : List String} (h : other ≠ names) (node : Node)
    (nodes : List (List String × Node)) :
    lookup ((names, node) :: nodes) other = lookup nodes other := by
  rw [lookup, lookup, List.lookup_cons, beq_eq_false_iff_ne.mpr h]

theorem lookup_filter_of_ne {names other : List String} (h : other ≠ names)
    (nodes : List (List String × Node)) :
    lookup (nodes.filter (·.1 != names)) other = lookup nodes other := by
  have hnodes : (nodes.filter (·.1 != names)).lookup other = nodes.lookup other := by
    induction nodes with
    | nil => rfl
    | cons entry rest ih =>
      obtain ⟨key, node⟩ := entry
      by_cases hkey : key = names
      · simp [hkey, List.lookup_cons, beq_eq_false_iff_ne.mpr h, ih]
      · simp [hkey, List.lookup_cons, ih]
  rw [lookup, lookup, hnodes]

/-- The tree without any file. -/
def empty : Tree := ⟨[], by simp⟩

/-- What lies at a list of names. -/
def get? (tree : Tree) (names : List String) : Option Node := lookup tree.nodes names

variable {tree : Tree} {names : List String}

theorem ne_nil_of_free (h : tree.get? names ≠ some .directory) : names ≠ [] := by
  rintro rfl
  exact h rfl

/-- What lies somewhere else than in a file that is written or taken away still lies in a
directory. -/
theorem lookup_filter_dropLast (hfree : tree.get? names ≠ some .directory)
    {entry : List String × Node} (h : entry ∈ tree.nodes.filter (·.1 != names)) :
    entry.1.dropLast ≠ names ∧
      lookup (tree.nodes.filter (·.1 != names)) entry.1.dropLast = some .directory := by
  have hsound := tree.sound entry (List.mem_filter.mp h).1
  have hne : entry.1.dropLast ≠ names := by
    rintro rfl
    exact hfree hsound
  exact ⟨hne, (lookup_filter_of_ne hne _).trans hsound⟩

/-- The tree with something put at a list of names, unless there is no directory for it, or one in
its place. -/
def put (tree : Tree) (names : List String) (node : Node) : Tree :=
  if h : tree.get? names.dropLast = some .directory ∧ tree.get? names ≠ some .directory then
    ⟨(names, node) :: tree.nodes.filter (·.1 != names), by
      refine List.forall_mem_cons.mpr ⟨?_, fun entry hentry => ?_⟩
      · have hne : names.dropLast ≠ names := fun heq => h.2 (heq ▸ h.1)
        rw [lookup_cons_of_ne hne, lookup_filter_of_ne hne]
        exact h.1
      · obtain ⟨hne, hdirectory⟩ := lookup_filter_dropLast h.2 hentry
        exact (lookup_cons_of_ne hne _ _).trans hdirectory⟩
  else tree

/-- The tree without the file at a list of names. -/
def erase (tree : Tree) (names : List String) : Tree :=
  if h : tree.get? names ≠ some .directory then
    ⟨tree.nodes.filter (·.1 != names), fun _ hentry => (lookup_filter_dropLast h hentry).2⟩
  else tree

/-- Goes down from a directory by one name. -/
def step (tree : Tree) (names : List String) (name : String) : Except Fault (List String) :=
  match tree.get? names with
  | none => .error .missing
  | some (.file _) => .error .notADirectory
  | some .directory => .ok (if name = ".." then names.dropLast else names ++ [name])

/-- The list of names a path leads to; all but the last have to be directories. -/
def resolve (tree : Tree) (path : Path) : Except Fault (List String) :=
  if path.isEmpty then .error .missing
  else path.components.foldlM (step tree) []

/-- What lies at a path. -/
def find (tree : Tree) (path : Path) : Except Fault (List String × Node) := do
  let names ← tree.resolve path
  match tree.get? names with
  | some .directory => pure (names, .directory)
  | some (.file bytes) =>
    if path.isForDirectory then throw .notADirectory else pure (names, .file bytes)
  | none => throw .missing

/-- What is said of a file that holds no text. -/
def noText : Fault := .other "stream did not contain valid UTF-8"

/-- The text of a file. -/
def read (tree : Tree) (path : Path) : Except Fault String := do
  match ← tree.find path with
  | (_, .file bytes) =>
    match bytes.toText? with
    | some text => pure text
    | none => throw noText
  | (_, .directory) => throw .isADirectory

/-- The names in a directory, sorted. -/
def list (tree : Tree) (path : Path) : Except Fault (List String) := do
  match ← tree.find path with
  | (names, .directory) =>
    let inside := tree.nodes.filterMap fun (other, _) =>
      if other.dropLast = names then other.getLast? else none
    pure (inside.mergeSort fun a b => a ≤ b)
  | (_, .file _) => throw .notADirectory

/-- Makes the directories along a list of names below one, as far as they are missing. What was made
before a failure stays. -/
def makeAlong (tree : Tree) (start : List String) :
    List String → Except Fault (List String) × Tree
  | [] => (.ok start, tree)
  | name :: rest =>
    match tree.step start name with
    | .error fault => (.error fault, tree)
    | .ok names =>
      makeAlong (if (tree.get? names).isSome then tree else tree.put names .directory) names rest

/-- Makes a directory and all that are missing above it. -/
def makeDirectory (tree : Tree) (path : Path) : Except Fault Unit × Tree :=
  match tree.makeAlong [] path.components with
  | (.error fault, tree) => (.error fault, tree)
  | (.ok names, tree) =>
    match tree.get? names with
    | some (.file _) => (.error .alreadyThere, tree)
    | _ => (.ok (), tree)

/-- Why no file can be made at a path that leads to nothing but a directory. -/
def unmakable (path : Path) : Option Node → Fault
  | some .directory => .isADirectory
  | found =>
    if path.toList.getLast? = some '/' then .isADirectory
    else if found.isSome then .notADirectory
    else .missing

/-- Puts bytes into a file at a list of names; `keep` keeps what a file there already holds. -/
def writeAt (tree : Tree) (names : List String) (bytes : Bytes) (keep : Bool) :
    Except Fault Tree :=
  match tree.get? names with
  | some .directory => .error .isADirectory
  | some (.file _) => .ok (if keep then tree else tree.put names (.file bytes))
  | none =>
    match tree.get? names.dropLast with
    | some .directory => .ok (tree.put names (.file bytes))
    | some (.file _) => .error .notADirectory
    | none => .error .missing

/-- Puts bytes into a file at a path. -/
def write (tree : Tree) (path : Path) (bytes : Bytes) (keep : Bool) : Except Fault Tree := do
  let names ← tree.resolve path
  if path.isForDirectory then throw (unmakable path (tree.get? names))
  else tree.writeAt names bytes keep

/-- What is said of a directory that cannot be replaced. -/
def busy : Fault := .other "Device or resource busy (os error 16)"

/-- Moves a file to another path. -/
def rename (tree : Tree) (source target : Path) : Except Fault Tree := do
  match ← tree.find source with
  | (_, .directory) => throw .isADirectory
  | (names, .file bytes) =>
    let place ← tree.resolve target
    if target.isForDirectory then
      throw (if target.toList.getLast? = some '/' then .notADirectory else busy)
    else
      let tree ← tree.writeAt place bytes false
      pure (if place = names then tree else tree.erase names)

/-- The paths of all files inside of a directory, relative to it and sorted. -/
def filesIn (tree : Tree) (directory : Path) : List Path :=
  let start := directory.components
  let inside := tree.nodes.filterMap fun (names, node) =>
    if node ≠ .directory ∧ start.isPrefixOf names then
      some ("/".intercalate (names.drop start.length))
    else none
  inside.mergeSort fun a b => a ≤ b

/-- The tree without a file, and whether there was one at the path. -/
def remove (tree : Tree) (path : Path) : Bool × Tree :=
  match tree.find path with
  | .ok (names, .file _) => (true, tree.erase names)
  | _ => (false, tree)

/-- The tree with a file of the given text, or with a directory, and all directories above it. What
cannot be made is left out. -/
def add (tree : Tree) (path : Path) (text : Option String) : Tree :=
  match text with
  | some text =>
    let tree := (tree.makeDirectory (path.parent?.getD "")).2
    (tree.write path (.ofText text) false).toOption.getD tree
  | none => (tree.makeDirectory path).2

/-- What an operation that leaves the tree as it is when it fails makes of a tree. -/
def attempt (tree : Tree) (changed : Except Fault Tree) : Except Fault Unit × Tree :=
  match changed with
  | .ok tree => (.ok (), tree)
  | .error fault => (.error fault, tree)

/-- Changes the tree in a cell. -/
def change {m : Type → Type} [Monad m] (cell : Cell m Tree)
    (operation : Tree → Except Fault Unit × Tree) : m (Except Fault Unit) := do
  let (outcome, tree) := operation (← cell.get)
  cell.set tree
  pure outcome

end Tree

/-- Access to a tree in a cell. -/
def ofTree {m : Type → Type} [Monad m] (cell : Cell m Tree) : Files m where
  present path := do pure ((← cell.get).find path).isOk
  read path := do pure ((← cell.get).read path)
  list path := do pure ((← cell.get).list path)
  makeDirectory path := Tree.change cell (·.makeDirectory path)
  hold path := Tree.change cell fun tree => tree.attempt (tree.write path [] true)
  release _ := pure ()
  write path text := Tree.change cell fun tree =>
    tree.attempt (tree.write path (.ofText text) false)
  rename source target := Tree.change cell fun tree => tree.attempt (tree.rename source target)

end ProxyUpgrade.Files
