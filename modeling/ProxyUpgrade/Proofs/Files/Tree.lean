import Mathlib.Data.List.Induction
import ProxyUpgrade.Files.Tree
import ProxyUpgrade.Proofs.Files.Path
/-!
# Operations on a tree of files

What each operation does to a tree is said in two ways. Precisely, by what lies at every list of
names afterwards: `Tree.writeAt` puts a file at one place (`Tree.Written`), `Tree.rename` takes it
from one place to another, and `Tree.makeDirectory` puts directories where nothing was. And
coarsely, by the paths an operation touches (`Tree.Touches`): it never takes a directory away, and
no file changes but those that one of these paths leads to. Since directories stay, a path that
leads somewhere keeps leading there (`Tree.Touches.resolve`), so the coarse accounts of a sequence
of operations add up to one (`Tree.Touches.trans`).
-/

namespace ProxyUpgrade.Files.Tree

/-! ### What lies where -/

/-- The bytes of the file at a list of names. -/
def file? (tree : Tree) (names : List String) : Option Bytes :=
  match tree.get? names with
  | some (.file bytes) => some bytes
  | _ => none

variable {tree tree' : Tree} {names other place : List String} {path : Path}

@[simp] theorem get?_nil (tree : Tree) : tree.get? [] = some .directory := rfl

theorem free_of_none (h : tree.get? names = none) : tree.get? names ≠ some .directory := by
  simp [h]

theorem free_of_file {content : Bytes} (h : tree.get? names = some (.file content)) :
    tree.get? names ≠ some .directory := by
  simp [h]

/-- **Whatever there is lies in a directory.** -/
theorem get?_dropLast {node : Node} (h : tree.get? names = some node) :
    tree.get? names.dropLast = some .directory := by
  rw [get?, lookup] at h
  split at h
  next hroot => rw [List.isEmpty_iff.mp hroot]; rfl
  next =>
    obtain ⟨before, after, hnodes, -⟩ := List.lookup_eq_some_iff.mp h
    exact tree.sound (names, node) (by simp [hnodes])

/-- A list of names at which something can be put: it lies in a directory, and is none. -/
structure Place (tree : Tree) (names : List String) : Prop where
  parent : tree.get? names.dropLast = some .directory
  free : tree.get? names ≠ some .directory

theorem get?_put_self (h : tree.Place names) (node : Node) :
    (tree.put names node).get? names = some node := by
  rw [put, dif_pos ⟨h.parent, h.free⟩, get?, lookup]
  simp [ne_nil_of_free h.free]

theorem get?_put_of_ne (h : other ≠ names) (node : Node) :
    (tree.put names node).get? other = tree.get? other := by
  rw [put]
  split
  · rw [get?, lookup_cons_of_ne h, lookup_filter_of_ne h, get?]
  · rfl

theorem get?_erase_self (h : tree.get? names ≠ some .directory) :
    (tree.erase names).get? names = none := by
  rw [erase, dif_pos h, get?, lookup, if_neg (by simpa using ne_nil_of_free h),
    List.lookup_eq_none_iff]
  intro entry hentry
  have hne : entry.1 ≠ names := by simpa using (List.mem_filter.mp hentry).2
  simpa using hne.symm

theorem get?_erase_of_ne (h : other ≠ names) : (tree.erase names).get? other = tree.get? other := by
  rw [erase]
  split
  · exact lookup_filter_of_ne h _
  · rfl

theorem file?_congr (h : tree'.get? names = tree.get? names) :
    tree'.file? names = tree.file? names := by
  rw [file?, file?, h]

/-! ### Going down -/

/-- The list of names that components lead to from the root. -/
def walk (tree : Tree) (components : List String) : Except Fault (List String) :=
  components.foldlM tree.step []

theorem resolve_eq (hpath : path ≠ "") : tree.resolve path = tree.walk path.components := by
  simp [resolve, walk, hpath]

theorem step_eq_ok_iff {name : String} : tree.step names name = .ok other ↔
    tree.get? names = some .directory ∧
      other = if name = ".." then names.dropLast else names ++ [name] := by
  rw [step]
  split
  next hnone => simp [hnone]
  next hfile => simp [hfile]
  next hdirectory => simp [hdirectory, eq_comm]

theorem walk_append (tree : Tree) (components : List String) (name : String) :
    tree.walk (components ++ [name]) = (tree.walk components).bind (tree.step · name) := by
  rw [walk, List.foldlM_append]
  change Except.bind _ _ = _
  congr 1
  funext names
  simp

/-- **Where a path leads that has a name**: to that name in its directory. -/
theorem resolve_eq_ok_iff {directory name : List Char}
    (h : path.split? = some (directory, name)) :
    tree.resolve path = .ok place ↔ ∃ base, tree.walk (Path.names directory) = .ok base ∧
      tree.get? base = some .directory ∧ place = base ++ [String.ofList name] := by
  rw [resolve_eq (Path.ne_empty_of_split h), Path.components_of_split h, walk_append]
  rcases hbase : tree.walk (Path.names directory) with fault | base
  · simp [Except.bind]
  · simp [Except.bind, step_eq_ok_iff, Path.name_ne_up h]

/-- **A path that never goes back up** leads to its own components. -/
theorem foldlM_step_of_no_up {components : List String} (hup : ".." ∉ components)
    (h : components.foldlM tree.step names = .ok other) : other = names ++ components := by
  induction components generalizing names with
  | nil =>
    obtain rfl := Except.ok.inj h
    simp
  | cons name components ih =>
    rw [List.mem_cons, not_or] at hup
    rw [List.foldlM_cons] at h
    rcases hstep : tree.step names name with fault | next
    · rw [hstep] at h
      cases h
    · rw [hstep] at h
      obtain ⟨-, rfl⟩ := step_eq_ok_iff.mp hstep
      simpa [Ne.symm hup.1] using ih hup.2 h

theorem walk_of_no_up {components : List String} (hup : ".." ∉ components)
    (h : tree.walk components = .ok other) : other = components := foldlM_step_of_no_up hup h

/-- Whatever there is can be walked to. -/
theorem walk_of_get? (hthere : tree.get? names ≠ none) (hup : ".." ∉ names) :
    tree.walk names = .ok names := by
  induction names using List.reverseRecOn with
  | nil => rfl
  | append_singleton names name ih =>
    rw [List.mem_append, not_or, List.mem_singleton] at hup
    obtain ⟨node, hnode⟩ := Option.ne_none_iff_exists'.mp hthere
    have hdirectory : tree.get? names = some .directory := by simpa using get?_dropLast hnode
    rw [walk_append, ih (by simp [hdirectory]) hup.1, Except.bind, step_eq_ok_iff]
    exact ⟨hdirectory, by rw [if_neg (Ne.symm hup.2)]⟩

theorem file?_eq_some_iff {content : Bytes} :
    tree.file? names = some content ↔ tree.get? names = some (.file content) := by
  rw [file?]
  split <;> simp_all

theorem find_eq_ok_iff {node : Node} : tree.find path = .ok (names, node) ↔
    tree.resolve path = .ok names ∧ tree.get? names = some node ∧
      (node ≠ .directory → path.isForDirectory = false) := by
  rw [find]
  rcases hresolve : tree.resolve path with fault | place
  · simp [bind, Except.bind]
  · simp only [bind, Except.bind, Except.ok.injEq]
    split
    next hget =>
      constructor
      · rintro ⟨rfl, rfl⟩
        exact ⟨rfl, hget, by simp⟩
      · rintro ⟨rfl, hnode, -⟩
        rw [hget, Option.some.injEq] at hnode
        rw [hnode]
        rfl
    next bytes hget =>
      split
      next hfor =>
        refine ⟨by simp [throw, throwThe, MonadExceptOf.throw], ?_⟩
        rintro ⟨rfl, hnode, hdirect⟩
        rw [hget, Option.some.injEq] at hnode
        subst hnode
        exact absurd (hdirect (by simp)) (by simp [hfor])
      next hfor =>
        constructor
        · rintro ⟨rfl, rfl⟩
          exact ⟨rfl, hget, by simpa using hfor⟩
        · rintro ⟨rfl, hnode, -⟩
          rw [hget, Option.some.injEq] at hnode
          rw [hnode]
          rfl
    next hget =>
      refine ⟨by simp [throw, throwThe, MonadExceptOf.throw], ?_⟩
      rintro ⟨rfl, hnode, -⟩
      simp [hget] at hnode

/-! ### Touching paths -/

/-- No directory was taken away. -/
def Keeps (tree tree' : Tree) : Prop :=
  ∀ names, tree.get? names = some .directory → tree'.get? names = some .directory

theorem Keeps.walkFrom (h : Keeps tree tree') {components : List String}
    (hwalk : components.foldlM tree.step names = .ok other) :
    components.foldlM tree'.step names = .ok other := by
  induction components generalizing names with
  | nil => exact hwalk
  | cons name components ih =>
    rw [List.foldlM_cons] at hwalk ⊢
    rcases hstep : tree.step names name with fault | next
    · rw [hstep] at hwalk
      cases hwalk
    · obtain ⟨hdirectory, hnext⟩ := step_eq_ok_iff.mp hstep
      rw [hstep] at hwalk
      rw [step_eq_ok_iff.mpr ⟨h _ hdirectory, hnext⟩]
      exact ih hwalk

theorem Keeps.walk (h : Keeps tree tree') {components : List String}
    (hwalk : tree.walk components = .ok other) : tree'.walk components = .ok other :=
  h.walkFrom hwalk

/-- **A path that leads somewhere keeps leading there.** -/
theorem Keeps.resolve (h : Keeps tree tree') (hresolve : tree.resolve path = .ok names) :
    tree'.resolve path = .ok names := by
  by_cases hpath : path = ""
  · subst hpath
    cases hresolve
  · rw [resolve_eq hpath] at hresolve ⊢
    exact h.walk hresolve

/-- What happened to a tree took no directory away, and changed no file but those that one of some
paths leads to. -/
structure Touches (paths : List Path) (tree tree' : Tree) : Prop where
  keeps : Keeps tree tree'
  files : ∀ names, (∀ path ∈ paths, tree'.resolve path ≠ .ok names) →
    tree'.file? names = tree.file? names

namespace Touches

variable {paths : List Path} {tree'' : Tree}

theorem refl (paths : List Path) (tree : Tree) : Touches paths tree tree :=
  ⟨fun _ h => h, fun _ _ => rfl⟩

theorem trans (h : Touches paths tree tree') (h' : Touches paths tree' tree'') :
    Touches paths tree tree'' where
  keeps _ hnames := h'.keeps _ (h.keeps _ hnames)
  files names hnames := (h'.files names hnames).trans
    (h.files names fun path hpath hresolve => hnames path hpath (h'.keeps.resolve hresolve))

theorem mono {more : List Path} (h : Touches paths tree tree') (hsubset : paths ⊆ more) :
    Touches more tree tree' where
  keeps := h.keeps
  files names hnames := h.files names fun path hpath => hnames path (hsubset hpath)

end Touches

/-! ### Making directories -/

/-- Making a directory where there is nothing touches no file. -/
theorem touches_put_directory (paths : List Path) (h : tree.Place names)
    (hnone : tree.get? names = none) : Touches paths tree (tree.put names .directory) := by
  constructor
  · intro other hother
    rw [get?_put_of_ne, hother]
    rintro rfl
    exact h.free hother
  · intro other _
    by_cases heq : other = names
    · subst heq
      simp [file?, get?_put_self h, hnone]
    · exact file?_congr (get?_put_of_ne heq _)

/-- What a step leads to lies in a directory. -/
theorem parent_of_step {name : String} (h : tree.step names name = .ok other) :
    tree.get? other.dropLast = some .directory := by
  obtain ⟨hdirectory, rfl⟩ := step_eq_ok_iff.mp h
  split
  · exact get?_dropLast (get?_dropLast hdirectory)
  · rwa [List.dropLast_concat]

/-- One name more is there, and nothing else has changed. -/
theorem makeAlong_step {name : String} (hstep : tree.step names name = .ok other) :
    let made := if (tree.get? other).isSome then tree else tree.put other .directory
    Touches [] tree made ∧ (made.get? other).isSome := by
  intro made
  rcases hget : tree.get? other with - | node
  · have hmade : made = tree.put other .directory := by simp [made, hget]
    have hplace : tree.Place other := ⟨parent_of_step hstep, free_of_none hget⟩
    rw [hmade]
    exact ⟨touches_put_directory [] hplace hget, by simp [get?_put_self hplace]⟩
  · have hmade : made = tree := by simp [made, hget]
    rw [hmade]
    exact ⟨.refl _ _, by simp [hget]⟩

theorem makeAlong_spec {components : List String} {result : Except Fault (List String)}
    (h : tree.makeAlong names components = (result, tree')) :
    Touches [] tree tree' ∧
      ((tree.get? names).isSome → ∀ last, result = .ok last →
        components.foldlM tree'.step names = .ok last ∧ (tree'.get? last).isSome) := by
  induction components generalizing tree names with
  | nil =>
    obtain ⟨rfl, rfl⟩ : Except.ok names = result ∧ tree = tree' := by simpa [makeAlong] using h
    refine ⟨.refl _ _, fun hthere last hlast => ?_⟩
    obtain rfl : names = last := by simpa using hlast
    exact ⟨rfl, hthere⟩
  | cons name components ih =>
    rw [makeAlong] at h
    split at h
    next fault hstep =>
      obtain ⟨rfl, rfl⟩ := Prod.mk.inj h
      exact ⟨.refl _ _, by simp⟩
    next next hstep =>
      obtain ⟨htouches, hthere⟩ := makeAlong_step hstep
      obtain ⟨htouches', hlast⟩ := ih h
      refine ⟨htouches.trans htouches', fun _ last hresult => ?_⟩
      obtain ⟨hdirectory, hnext⟩ := step_eq_ok_iff.mp hstep
      have hstep' : tree'.step names name = .ok next := step_eq_ok_iff.mpr
        ⟨(htouches.trans htouches').keeps _ hdirectory, hnext⟩
      rw [List.foldlM_cons, hstep']
      exact hlast hthere last hresult

/-- **Making directories touches no file**, whether it succeeds or not; if it does, the path leads
to a directory. -/
theorem makeDirectory_spec {result : Except Fault Unit}
    (h : tree.makeDirectory path = (result, tree')) :
    Touches [] tree tree' ∧ (result = .ok () →
      ∃ base, tree'.walk path.components = .ok base ∧ tree'.get? base = some .directory) := by
  rw [makeDirectory] at h
  rcases halong : tree.makeAlong [] path.components with ⟨fault | last, made⟩
  all_goals
    obtain ⟨htouches, hlast⟩ := makeAlong_spec halong
    simp only [halong] at h
  · obtain ⟨rfl, rfl⟩ := Prod.mk.inj h
    exact ⟨htouches, by simp⟩
  · split at h
    next bytes hfile =>
      obtain ⟨rfl, rfl⟩ := Prod.mk.inj h
      exact ⟨htouches, by simp⟩
    next hnot =>
      obtain ⟨rfl, rfl⟩ := Prod.mk.inj h
      obtain ⟨hwalk, hthere⟩ := hlast rfl last rfl
      refine ⟨htouches, fun _ => ⟨last, hwalk, ?_⟩⟩
      obtain ⟨node, hnode⟩ := Option.isSome_iff_exists.mp hthere
      cases node with
      | file bytes => exact absurd hnode (hnot bytes)
      | directory => exact hnode

/-! ### Writing and renaming -/

/-- A file was put at a place where there was no directory, and nothing else was changed. -/
structure Written (names : List String) (content : Bytes) (tree tree' : Tree) : Prop where
  here : tree'.get? names = some (.file content)
  elsewhere : ∀ other, other ≠ names → tree'.get? other = tree.get? other
  free : tree.get? names ≠ some .directory

theorem Written.keeps {content : Bytes} (h : Written names content tree tree') :
    Keeps tree tree' := by
  intro other hother
  rw [h.elsewhere, hother]
  rintro rfl
  exact h.free hother

theorem Written.touches {content : Bytes} (h : Written names content tree tree')
    (hresolve : tree.resolve path = .ok names) : Touches [path] tree tree' := by
  refine ⟨h.keeps, fun other hother => file?_congr (h.elsewhere other ?_)⟩
  rintro rfl
  exact hother path List.mem_cons_self (h.keeps.resolve hresolve)

theorem written_put {content : Bytes} (h : tree.Place names) :
    Written names content tree (tree.put names (.file content)) where
  here := get?_put_self h _
  elsewhere _ hne := get?_put_of_ne hne _
  free := h.free

/-- Bytes can be put wherever there is no directory, but one for them to lie in. -/
theorem writeAt_eq_ok (content : Bytes) (keep : Bool) (h : tree.Place names) :
    ∃ tree', tree.writeAt names content keep = .ok tree' := by
  rw [writeAt]
  split
  next hdirectory => exact absurd hdirectory h.free
  next => exact ⟨_, rfl⟩
  next => exact ⟨_, by rw [h.parent]⟩

theorem writeAt_spec {content : Bytes} {keep : Bool}
    (h : tree.writeAt names content keep = .ok tree') :
    ∃ found, Written names found tree tree' ∧ (keep = false → found = content) := by
  rw [writeAt] at h
  split at h
  next => cases h
  next found hfile =>
    have hfree : tree.get? names ≠ some .directory := by simp [hfile]
    split at h
    next hkeep =>
      obtain rfl := Except.ok.inj h
      exact ⟨found, ⟨hfile, fun _ _ => rfl, hfree⟩, by simp [hkeep]⟩
    next =>
      obtain rfl := Except.ok.inj h
      exact ⟨content, written_put ⟨get?_dropLast hfile, hfree⟩, fun _ => rfl⟩
  next hnone =>
    split at h
    next hparent =>
      obtain rfl := Except.ok.inj h
      exact ⟨content, written_put ⟨hparent, free_of_none hnone⟩, fun _ => rfl⟩
    next => cases h
    next => cases h

/-- **Writing puts a file where the path leads.** -/
theorem write_spec {content : Bytes} {keep : Bool}
    (h : tree.write path content keep = .ok tree') :
    ∃ names found, tree.resolve path = .ok names ∧ path.isForDirectory = false ∧
      Written names found tree tree' ∧ (keep = false → found = content) := by
  rw [write] at h
  rcases hresolve : tree.resolve path with fault | names
  · simp [hresolve, bind, Except.bind] at h
  · simp only [hresolve, bind, Except.bind] at h
    split at h
    next => simp [throw, throwThe, MonadExceptOf.throw] at h
    next hdirect =>
      obtain ⟨found, hwritten, hfound⟩ := writeAt_spec h
      exact ⟨names, found, rfl, by simpa using hdirect, hwritten, hfound⟩

/-- A new file holds what is written, also if it is only held. -/
theorem write_new {content : Bytes} {keep : Bool} (h : tree.write path content keep = .ok tree')
    (hresolve : tree.resolve path = .ok names) (hnone : tree.get? names = none) :
    tree'.get? names = some (.file content) := by
  rw [write, hresolve] at h
  simp only [bind, Except.bind] at h
  split at h
  next => simp [throw, throwThe, MonadExceptOf.throw] at h
  next =>
    rw [writeAt, hnone] at h
    simp only at h
    split at h
    next hparent =>
      obtain rfl := Except.ok.inj h
      exact get?_put_self ⟨hparent, free_of_none hnone⟩ _
    next => cases h
    next => cases h

theorem write_eq_ok (content : Bytes) (keep : Bool) (hresolve : tree.resolve path = .ok names)
    (hdirect : path.isForDirectory = false) (hplace : tree.Place names) :
    ∃ tree', tree.write path content keep = .ok tree' := by
  obtain ⟨tree', htree'⟩ := writeAt_eq_ok content keep hplace
  exact ⟨tree', by simpa [write, hresolve, hdirect, bind, Except.bind] using htree'⟩

/-- A path that has no name leads to nothing but a directory. -/
theorem directory_of_no_split (h : path.split? = none) (hresolve : tree.resolve path = .ok names) :
    tree.get? names = some .directory := by
  have hpath : path ≠ "" := by
    rintro rfl
    cases hresolve
  rw [resolve_eq hpath] at hresolve
  rcases Path.components_of_no_split h with hnone | ⟨rest, hup⟩
  · rw [hnone] at hresolve
    obtain rfl : [] = names := Except.ok.inj hresolve
    rfl
  · rw [hup, walk_append] at hresolve
    rcases hrest : tree.walk rest with fault | base
    · simp [hrest, Except.bind] at hresolve
    · rw [hrest, Except.bind, step_eq_ok_iff] at hresolve
      obtain ⟨hbase, rfl⟩ := hresolve
      exact get?_dropLast hbase

/-- **No file is written where a path has no name.** -/
theorem write_of_no_split (h : path.split? = none) (content : Bytes) (keep : Bool) :
    ∃ fault, tree.write path content keep = .error fault := by
  rcases hwrite : tree.write path content keep with fault | tree'
  · exact ⟨fault, rfl⟩
  obtain ⟨names, found, hresolve, -, hwritten, -⟩ := write_spec hwrite
  exact absurd (directory_of_no_split h hresolve) hwritten.free

/-- A file was taken from one place to another. -/
structure Moved (source target : List String) (content : Bytes) (tree tree' : Tree) : Prop where
  here : tree'.get? target = some (.file content)
  gone : target ≠ source → tree'.get? source = none
  elsewhere : ∀ other, other ≠ source → other ≠ target → tree'.get? other = tree.get? other
  file : tree.get? source = some (.file content)
  free : tree.get? target ≠ some .directory

theorem Moved.keeps {source target : List String} {content : Bytes}
    (h : Moved source target content tree tree') : Keeps tree tree' := by
  intro other hother
  rw [h.elsewhere, hother]
  · rintro rfl
    simp [h.file] at hother
  · rintro rfl
    exact h.free hother

theorem Moved.touches {source target : List String} {old new : Path} {content : Bytes}
    (h : Moved source target content tree tree') (hsource : tree.resolve old = .ok source)
    (htarget : tree.resolve new = .ok target) : Touches [old, new] tree tree' := by
  refine ⟨h.keeps, fun other hother => file?_congr (h.elsewhere other ?_ ?_)⟩
  · rintro rfl
    exact hother old (by simp) (h.keeps.resolve hsource)
  · rintro rfl
    exact hother new (by simp) (h.keeps.resolve htarget)

theorem moved_of_written {source target : List String} {content : Bytes}
    (hfile : tree.get? source = some (.file content))
    (h : Written target content tree tree') :
    Moved source target content tree (if target = source then tree' else tree'.erase source) := by
  split
  next heq =>
    exact ⟨h.here, fun hne => absurd heq hne, fun other _ hother => h.elsewhere other hother, hfile,
      h.free⟩
  next hother =>
    have hfree : tree'.get? source ≠ some .directory := by
      rw [h.elsewhere source (Ne.symm hother)]
      exact free_of_file hfile
    refine ⟨?_, fun _ => get?_erase_self hfree, fun other hsource htarget => ?_, hfile, h.free⟩
    · rw [get?_erase_of_ne hother, h.here]
    · rw [get?_erase_of_ne hsource, h.elsewhere other htarget]

/-- **Renaming takes a file from where one path leads to where the other does.** -/
theorem rename_spec {source target : Path} (h : tree.rename source target = .ok tree') :
    ∃ names content place, tree.find source = .ok (names, .file content) ∧
      tree.resolve target = .ok place ∧ target.isForDirectory = false ∧
      Moved names place content tree tree' := by
  rw [rename] at h
  rcases hfind : tree.find source with fault | ⟨names, content | _⟩
  · simp [hfind, bind, Except.bind] at h
  · simp only [hfind, bind, Except.bind] at h
    rcases hresolve : tree.resolve target with fault | place
    · simp [hresolve] at h
    · simp only [hresolve] at h
      split at h
      next => simp [throw, throwThe, MonadExceptOf.throw] at h
      next hdirect =>
        rcases hwrite : tree.writeAt place content false with fault | written
        · simp [hwrite] at h
        · obtain ⟨found, hwritten, hfound⟩ := writeAt_spec hwrite
          obtain rfl := hfound rfl
          simp only [hwrite, pure, Except.pure] at h
          obtain rfl := Except.ok.inj h
          exact ⟨names, found, place, rfl, rfl, by simpa using hdirect,
            moved_of_written (find_eq_ok_iff.mp hfind).2.1 hwritten⟩
  · simp [hfind, bind, Except.bind, throw, throwThe, MonadExceptOf.throw] at h

theorem rename_eq_ok {source target : Path} {content : Bytes}
    (hfind : tree.find source = .ok (names, .file content))
    (hresolve : tree.resolve target = .ok place) (hdirect : target.isForDirectory = false)
    (hplace : tree.Place place) : ∃ tree', tree.rename source target = .ok tree' := by
  obtain ⟨written, hwritten⟩ := writeAt_eq_ok content false hplace
  refine ⟨if place = names then written else written.erase names, ?_⟩
  simp [rename, hfind, hresolve, hdirect, hwritten, bind, Except.bind, pure, Except.pure]

end ProxyUpgrade.Files.Tree
