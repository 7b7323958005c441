import ProxyUpgrade.Proofs.Files.Document
/-!
# The ways of paths

There are no links in a tree, so where a path leads can be read off its components: a name goes
down, and two points go back up. On its way the path comes by directories (`Path.way`), and what it
leads to is one name more (`Path.place`). All of them have to be there for the path to lead anywhere
(`Files.Tree.resolve_eq_ok_iff_way`), and to make the directory that it lies in is to put a
directory at each of those places (`Document.makeParent_along`), which works as long as there is no
file in the way.
-/

namespace ProxyUpgrade

/-! ### Components -/

namespace Files.Tree

/-- The place that a component leads to. -/
def down (names : List String) (component : String) : List String :=
  if component = ".." then names.dropLast else names ++ [component]

/-- The places that components lead along, one after another. -/
def along (names : List String) : List String → List (List String)
  | [] => []
  | component :: rest => down names component :: along (down names component) rest

/-- The place that components lead to in the end. -/
def lead (names components : List String) : List String := components.foldl down names

theorem lead_mem (names components : List String) :
    lead names components = names ∨ lead names components ∈ along names components := by
  induction components generalizing names with
  | nil => exact .inl rfl
  | cons component rest ih =>
    refine .inr ?_
    rcases ih (down names component) with heq | hmem
    · exact heq ▸ List.mem_cons_self
    · exact List.mem_cons_of_mem _ hmem

variable {tree : Tree} {names components place : List String}

/-- **Components lead to a directory** if there is one at each place along them. -/
theorem walk_eq_ok_iff :
    (components.foldlM tree.step names = .ok place ∧ tree.get? place = some .directory) ↔
      tree.get? names = some .directory ∧
        (∀ passed ∈ along names components, tree.get? passed = some .directory) ∧
        place = lead names components := by
  induction components generalizing names with
  | nil =>
    constructor
    · rintro ⟨hplace, hthere⟩
      obtain rfl : names = place := Except.ok.inj hplace
      exact ⟨hthere, by simp [along], rfl⟩
    · rintro ⟨hthere, -, rfl⟩
      exact ⟨rfl, hthere⟩
  | cons component rest ih =>
    rw [List.foldlM_cons, along, List.forall_mem_cons, lead, List.foldl_cons]
    rcases hstep : tree.step names component with fault | next
    · have hnot : tree.get? names ≠ some .directory := by
        intro hthere
        rw [step_eq_ok_iff.mpr ⟨hthere, rfl⟩] at hstep
        cases hstep
      constructor
      · rintro ⟨hfailed, -⟩
        cases hfailed
      · rintro ⟨hthere, -⟩
        exact absurd hthere hnot
    · obtain ⟨hthere, rfl⟩ := step_eq_ok_iff.mp hstep
      exact ih.trans ⟨fun h => ⟨hthere, ⟨h.1, h.2.1⟩, h.2.2⟩, fun h => ⟨h.2.1.1, h.2.1.2, h.2.2⟩⟩

/-- **Directories are made at all places along components**, if there is no file at any. -/
theorem makeAlong_eq (hthere : tree.get? names = some .directory)
    (hclear : ∀ passed ∈ along names components, tree.file? passed = none) :
    ∃ made, tree.makeAlong names components = (.ok (lead names components), made) ∧
      ∀ place, made.get? place =
        if place ∈ along names components then some .directory else tree.get? place := by
  induction components generalizing tree names with
  | nil => exact ⟨tree, rfl, by simp [along]⟩
  | cons component rest ih =>
    obtain ⟨hfirst, hrest⟩ := List.forall_mem_cons.mp hclear
    let next := down names component
    have hstep : tree.step names component = .ok next := step_eq_ok_iff.mpr ⟨hthere, rfl⟩
    -- Only where nothing is there is a directory put.
    obtain ⟨first, hput, hget⟩ : ∃ first,
        (if (tree.get? next).isSome then tree else tree.put next .directory) = first ∧
          ∀ place, first.get? place =
            if place = next then some .directory else tree.get? place := by
      rcases hnext : tree.get? next with - | content | -
      · refine ⟨_, rfl, fun place => ?_⟩
        by_cases heq : place = next
        · subst heq
          simp [get?_put_self ⟨parent_of_step hstep, free_of_none hnext⟩]
        · simp [heq, get?_put_of_ne heq]
      · rw [file?, hnext] at hfirst
        cases hfirst
      · refine ⟨_, rfl, fun place => ?_⟩
        by_cases heq : place = next
        · simp [heq, hnext]
        · simp [heq]
    have hclear' : ∀ passed ∈ along next rest, first.file? passed = none := by
      intro passed hpassed
      by_cases heq : passed = next
      · simp [file?, hget, heq]
      · have hsame : first.get? passed = tree.get? passed := by rw [hget, if_neg heq]
        rw [file?_congr hsame, hrest passed hpassed]
    obtain ⟨made, hmade, hmadeGet⟩ := ih (by rw [hget, if_pos rfl]) hclear'
    refine ⟨made, ?_, fun place => ?_⟩
    · rw [makeAlong, hstep]
      exact (congrArg (fun tree : Tree => tree.makeAlong next rest) hput).trans hmade
    · simp only [hmadeGet, hget, along, List.mem_cons]
      by_cases heq : place = next
      · simp [heq, next]
      · simp [show place ≠ down names component from heq, next]

end Files.Tree

/-! ### Paths -/

namespace Path

open Files.Tree (along lead)

variable {path : Path} {extension : String}

/-- The places of the directories that a path comes by. -/
def way (path : Path) : List (List String) :=
  match path.split? with
  | some (directory, _) => along [] (names directory)
  | none => []

/-- The place that a path leads to. -/
def place (path : Path) : List String :=
  match path.split? with
  | some (directory, name) => lead [] (names directory) ++ [String.ofList name]
  | none => []

theorem split?_withExtension_ne_none (hextension : IsExtension extension)
    (hsplit : path.split? ≠ none) : (path.withExtension extension).split? ≠ none := by
  rcases h : path.split? with - | ⟨directory, name⟩
  · exact absurd h hsplit
  · simp [(split?_withExtension hextension h).1]

/-- Files beside a file are come by on the same way. -/
theorem way_withExtension (hextension : IsExtension extension) (path : Path) :
    (path.withExtension extension).way = path.way := by
  rcases h : path.split? with - | ⟨directory, name⟩
  · rw [withExtension_of_no_split h]
  · rw [way, way, h, (split?_withExtension hextension h).1]

theorem place_withExtension_ne (hextension : IsExtension extension) (hsplit : path.split? ≠ none)
    (hne : path.extension? ≠ some extension) :
    (path.withExtension extension).place ≠ path.place := by
  rcases h : path.split? with - | ⟨directory, name⟩
  · exact absurd h hsplit
  rw [place, place, h, (split?_withExtension hextension h).1]
  intro heq
  have hname := List.append_cancel_left heq
  exact name_ne h hne (String.ofList_injective (List.singleton_inj.mp hname))

/-- A file that is held is not one that is written to. -/
theorem place_lock_ne_tmp (hsplit : path.split? ≠ none) :
    (path.withExtension "lock").place ≠ (path.withExtension "tmp").place := by
  rcases h : path.split? with - | ⟨directory, name⟩
  · exact absurd h hsplit
  rw [place, place, (split?_withExtension (by simp [IsExtension]) h).1,
    (split?_withExtension (by simp [IsExtension]) h).1]
  intro heq
  have hname := String.ofList_injective (List.singleton_inj.mp (List.append_cancel_left heq))
  simp [renamed] at hname

end Path

namespace Files.Tree

variable {tree : Tree} {path : Path} {names : List String}

/-- **A path that has a name leads to its place**, if there are directories all along its way. -/
theorem resolve_eq_ok_iff_way (hsplit : path.split? ≠ none) : tree.resolve path = .ok names ↔
    (∀ passed ∈ path.way, tree.get? passed = some .directory) ∧ names = path.place := by
  rcases h : path.split? with - | ⟨directory, name⟩
  · exact absurd h hsplit
  rw [resolve_eq_ok_iff h, Path.way, Path.place, h]
  constructor
  · rintro ⟨base, hwalk, hbase, rfl⟩
    obtain ⟨-, hway, rfl⟩ := walk_eq_ok_iff.mp ⟨hwalk, hbase⟩
    exact ⟨hway, rfl⟩
  · rintro ⟨hway, rfl⟩
    obtain ⟨hwalk, hbase⟩ := walk_eq_ok_iff.mpr ⟨get?_nil tree, hway, rfl⟩
    exact ⟨_, hwalk, hbase, rfl⟩

/-- What lies at the place of a path lies in a directory, if there are directories along its way. -/
theorem parent_of_way (hsplit : path.split? ≠ none)
    (hway : ∀ passed ∈ path.way, tree.get? passed = some .directory) :
    tree.get? path.place.dropLast = some .directory := by
  rcases h : path.split? with - | ⟨directory, name⟩
  · exact absurd h hsplit
  rw [Path.way, h] at hway
  rw [Path.place, h]
  simp only [List.dropLast_concat]
  exact (walk_eq_ok_iff.mpr ⟨get?_nil tree, hway, rfl⟩).2

end Files.Tree

namespace Document

open ProxyUpgrade.Action Files Files.Tree

variable {tree : Tree} {path : Path}

/-- **The directory that a path lies in is made** by putting directories along its way, if there is
no file in the way. -/
theorem makeParent_along (hsplit : path.split? ≠ none)
    (hclear : ∀ passed ∈ path.way, tree.file? passed = none) :
    ∃ made, (makeParent held path).onState tree = (.ok (), made) ∧
      ∀ place, made.get? place = if place ∈ path.way then some .directory else tree.get? place := by
  rcases h : path.split? with - | ⟨directory, name⟩
  · exact absurd h hsplit
  obtain ⟨parent, hparent, hcomponents⟩ := Path.parent?_of_split h
  have hway : path.way = along [] parent.components := by rw [Path.way, h, hcomponents]
  rw [hway] at hclear ⊢
  obtain ⟨made, hmade, hget⟩ := makeAlong_eq (get?_nil tree) hclear
  have hlead : made.get? (lead [] parent.components) = some .directory := by
    rw [hget]
    split
    · rfl
    next hnot =>
      rcases lead_mem [] parent.components with heq | hmem
      · rw [heq, get?_nil]
      · exact absurd hmem hnot
  simp only [makeParent, hparent]
  split
  next hempty =>
    obtain rfl : parent = "" := String.isEmpty_iff.mp hempty
    exact ⟨tree, rfl, by intro place; rfl⟩
  next =>
    refine ⟨made, ?_, hget⟩
    rw [makeDirectory_onState, Tree.makeDirectory, hmade]
    simp only [hlead]
    rfl

end Document

end ProxyUpgrade
