import ProxyUpgrade.Proofs.Files.Atomic
import ProxyUpgrade.Proofs.Files.Way
/-!
# Where a document can be kept

A tree is ready for a document at a path (`Document.Ready`) if a file can be written there and at
the two paths beside it. There every change of a readable document succeeds, the tree stays ready,
and nothing lies elsewhere than before but at the places of the three files
(`Document.update_changed`). A tree in which only the directories of the path are missing is made
ready by the first change (`Document.update_prepared`). Either way the tree holds a document
(`Document.Holds`), and changing it gives a tree that holds the changed one
(`Document.kept_holds`).
-/

namespace ProxyUpgrade

namespace Files.Tree

variable {tree tree' : Tree} {path : Path} {components names other : List String}

/-! ### Directories that are there -/

theorem makeAlong_of_walk (h : components.foldlM tree.step names = .ok other)
    (hthere : tree.get? other = some .directory) :
    tree.makeAlong names components = (.ok other, tree) := by
  induction components generalizing names with
  | nil =>
    obtain rfl := Except.ok.inj h
    rfl
  | cons name components ih =>
    rw [List.foldlM_cons] at h
    rcases hstep : tree.step names name with fault | next
    · rw [hstep] at h
      cases h
    · rw [hstep] at h
      -- What comes next is a directory: either more is gone down from it, or it is the last one.
      have hrest : components.foldlM tree.step next = .ok other := h
      have hnext : tree.get? next = some .directory := by
        cases components with
        | nil =>
          obtain rfl := Except.ok.inj hrest
          exact hthere
        | cons first more =>
          rw [List.foldlM_cons] at hrest
          rcases hfirst : tree.step next first with fault | _
          · rw [hfirst] at hrest
            cases hrest
          · exact (step_eq_ok_iff.mp hfirst).1
      simp only [makeAlong, hstep, hnext, Option.isSome_some, if_true]
      exact ih hrest

/-- **A directory that is there need not be made.** -/
theorem makeDirectory_of_walk (h : tree.walk path.components = .ok names)
    (hthere : tree.get? names = some .directory) : tree.makeDirectory path = (.ok (), tree) := by
  simp [makeDirectory, makeAlong_of_walk h hthere, hthere]

/-! ### Files that can be written -/

/-- A file can be written at a path. -/
structure Writable (path : Path) (tree : Tree) : Prop where
  direct : path.isForDirectory = false
  place : ∃ names, tree.resolve path = .ok names ∧ tree.get? names ≠ some .directory ∧
    tree.get? names.dropLast = some .directory

theorem Writable.written {content : Bytes} (h : Writable path tree)
    (hwritten : Written names content tree tree') : Writable path tree' := by
  obtain ⟨place, hresolve, hfree, hparent⟩ := h.place
  refine ⟨h.direct, place, hwritten.keeps.resolve hresolve, ?_, hwritten.keeps _ hparent⟩
  by_cases heq : place = names
  · rw [heq, hwritten.here]
    simp
  · rwa [hwritten.elsewhere place heq]

theorem Writable.moved {source target : List String} {content : Bytes} (h : Writable path tree)
    (hmoved : Moved source target content tree tree') : Writable path tree' := by
  obtain ⟨place, hresolve, hfree, hparent⟩ := h.place
  refine ⟨h.direct, place, hmoved.keeps.resolve hresolve, ?_, hmoved.keeps _ hparent⟩
  by_cases htarget : place = target
  · rw [htarget, hmoved.here]
    simp
  · by_cases hsource : place = source
    · rw [hsource, hmoved.gone (hsource ▸ Ne.symm htarget)]
      simp
    · rwa [hmoved.elsewhere place hsource htarget]

end Files.Tree

namespace Document

open ProxyUpgrade.Action Files Files.Tree

variable {α β : Type} {format : Format α} {path : Path} {tree tree' : Tree}

/-- A document can be kept at a path: it can be written, and so can the files beside it. -/
structure Ready (path : Path) (tree : Tree) : Prop where
  named : path.split? ≠ none
  document : Writable path tree
  fresh : Writable (freshPath path) tree
  lock : Writable (lockPath path) tree

theorem Ready.written {names : List String} {content : Bytes} (h : Ready path tree)
    (hwritten : Written names content tree tree') : Ready path tree' :=
  ⟨h.named, h.document.written hwritten, h.fresh.written hwritten, h.lock.written hwritten⟩

theorem Ready.moved {source target : List String} {content : Bytes} (h : Ready path tree)
    (hmoved : Moved source target content tree tree') : Ready path tree' :=
  ⟨h.named, h.document.moved hmoved, h.fresh.moved hmoved, h.lock.moved hmoved⟩

/-- **Nothing has to be made** where there are directories all along the way. -/
theorem makeParent_of_way (hsplit : path.split? ≠ none)
    (hway : ∀ passed ∈ path.way, tree.get? passed = some .directory) :
    (makeParent held path).onState tree = (.ok (), tree) := by
  rcases h : path.split? with - | ⟨directory, name⟩
  · exact absurd h hsplit
  obtain ⟨parent, hparent, hcomponents⟩ := Path.parent?_of_split h
  obtain ⟨base, hbase, hdirectory, -⟩ :=
    (resolve_eq_ok_iff h).mp ((resolve_eq_ok_iff_way hsplit).mpr ⟨hway, rfl⟩)
  simp only [makeParent, hparent]
  split
  · rfl
  · rw [makeDirectory_onState, makeDirectory_of_walk (hcomponents ▸ hbase) hdirectory]
    rfl

theorem Ready.way (h : Ready path tree) :
    ∀ passed ∈ path.way, tree.get? passed = some .directory := by
  obtain ⟨place, hresolve, -⟩ := h.document.place
  exact ((resolve_eq_ok_iff_way h.named).mp hresolve).1

theorem makeParent_ready (h : Ready path tree) :
    (makeParent held path).onState tree = (.ok (), tree) :=
  makeParent_of_way h.named h.way

theorem prepared_ready (h : Ready path tree) : prepared path tree = tree :=
  congrArg Prod.snd (makeParent_ready h)

theorem write_ready {target : Path} (h : Writable target tree) (content : Bytes) (keep : Bool) :
    ∃ tree' names found, tree.write target content keep = .ok tree' ∧
      tree.resolve target = .ok names ∧ Written names found tree tree' ∧
      (keep = false → found = content) := by
  obtain ⟨place, hresolve, hfree, hparent⟩ := h.place
  obtain ⟨tree', hwrite⟩ := write_eq_ok content keep hresolve h.direct ⟨hparent, hfree⟩
  obtain ⟨names, found, hnames, -, hwritten, hfound⟩ := write_spec hwrite
  exact ⟨tree', names, found, hwrite, hnames, hwritten, hfound⟩

/-- **A document was replaced**: the new one is at its place, the file that it was written to is
gone, and nothing else has changed. -/
structure Replaced (path : Path) (content : Bytes) (tree tree' : Tree) : Prop where
  here : tree'.get? path.place = some (.file content)
  fresh : (freshPath path).place ≠ path.place → tree'.get? (freshPath path).place = none
  elsewhere : ∀ place, place ≠ path.place → place ≠ (freshPath path).place →
    tree'.get? place = tree.get? place

/-- **A document that can be kept can be replaced.** -/
theorem replace_ready (h : Ready path tree) (format : Format α) (value : α) :
    ∃ tree', (replace held format path value).onState tree = (.ok (), tree') ∧
      Ready path tree' ∧ Replaced path (.ofText (format.toJson value).pretty) tree tree' := by
  obtain ⟨written, fresh, found, hwrite, hfresh, hfile, hfound⟩ :=
    write_ready h.fresh (.ofText (format.toJson value).pretty) false
  obtain rfl := hfound rfl
  have hready := h.written hfile
  obtain ⟨place, hplace, hfree, hparent⟩ := hready.document.place
  have hfind : written.find (freshPath path) =
      .ok (fresh, .file (.ofText (format.toJson value).pretty)) :=
    find_eq_ok_iff.mpr ⟨hfile.keeps.resolve hfresh, hfile.here, fun _ => h.fresh.direct⟩
  obtain ⟨tree', hrename⟩ := rename_eq_ok hfind hplace hready.document.direct ⟨hparent, hfree⟩
  obtain ⟨source, content, target, hsource, htarget, -, hmoved⟩ := rename_spec hrename
  obtain ⟨rfl, hcontent⟩ := Prod.mk.inj (Except.ok.inj (hfind.symm.trans hsource))
  obtain rfl := Node.file.inj hcontent
  have hnamed := Path.split?_withExtension_ne_none isExtension_tmp h.named
  rw [((resolve_eq_ok_iff_way hnamed).mp hfresh).2] at hfile hmoved
  rw [((resolve_eq_ok_iff_way h.named).mp htarget).2] at hmoved
  have hwritten : (checked ("failed to create " ++ freshPath path)
      (held.write (freshPath path) (format.toJson value).pretty)).onState tree =
        (.ok (), written) := by
    rw [write_onState, hwrite]
    rfl
  have hrenamed : (checked ("failed to replace " ++ path)
      (held.rename (freshPath path) path)).onState written = (.ok (), tree') := by
    rw [rename_onState, hrename]
    rfl
  refine ⟨tree', ?_, hready.moved hmoved, hmoved.here, fun hne => hmoved.gone hne.symm,
    fun other hne hne' => ?_⟩
  · rw [replace, onState_bind_ok (makeParent_ready h)]
    exact (onState_bind_ok hwritten _).trans hrenamed
  · rw [hmoved.elsewhere other hne' hne, hfile.elsewhere other hne']

/-- **A document was changed**: a file beside it was held, and it was replaced. -/
structure Changed (path : Path) (content : Bytes) (tree tree' : Tree) : Prop where
  here : tree'.get? path.place = some (.file content)
  fresh : (freshPath path).place ≠ path.place → tree'.get? (freshPath path).place = none
  /-- The file that was held is empty if it is new. -/
  lock : ∃ found, tree'.get? (lockPath path).place = some (.file found) ∧
    (tree.get? (lockPath path).place = none → found = [])
  elsewhere : ∀ place, place ≠ path.place → place ≠ (freshPath path).place →
    place ≠ (lockPath path).place → tree'.get? place = tree.get? place

/-- **The file beside a document that can be kept can be held**, and the document is not
concerned. -/
theorem hold_ready (h : Ready path tree) (hlock : path.extension? ≠ some "lock")
    (format : Format α) : ∃ locked found,
      (checked ("failed to open lock " ++ lockPath path) (held.hold (lockPath path))).onState tree =
        (.ok (), locked) ∧
      Ready path locked ∧ Written (lockPath path).place found tree locked ∧
      (tree.get? (lockPath path).place = none → found = []) ∧
      loaded format path locked = loaded format path tree := by
  obtain ⟨locked, lock, found, hwrite, hresolve, hfile, -⟩ := write_ready h.lock [] true
  have hready := h.written hfile
  have hsame : loaded format path locked = loaded format path tree :=
    loaded_congr (find_of_written isExtension_lock h.named hlock hresolve hfile) format
  have hnamed := Path.split?_withExtension_ne_none isExtension_lock h.named
  rw [((resolve_eq_ok_iff_way hnamed).mp hresolve).2] at hfile hresolve
  refine ⟨locked, found, ?_, hready, hfile, fun hnone => ?_, hsame⟩
  · rw [hold_onState, hwrite]
    rfl
  · have hnew := write_new hwrite hresolve hnone
    rw [hfile.here] at hnew
    exact Node.file.inj (Option.some.inj hnew)

/-- **A document that can be kept and read can be changed**, and what it is changed to can be
changed again. -/
theorem update_changed (h : Ready path tree) (hlock : path.extension? ≠ some "lock") {old : α}
    (hold : loaded format path tree = .ok old) (change : α → β × α) :
    ∃ tree', (update held format path change).onState tree = (.ok (change old).1, tree') ∧
      Ready path tree' ∧
      Changed path (.ofText (format.toJson (change old).2).pretty) tree tree' := by
  obtain ⟨locked, found, hheld, hready, hfile, hempty, hsame⟩ := hold_ready h hlock format
  obtain ⟨tree', hreplace, hready', hreplaced⟩ := replace_ready hready format (change old).2
  have hload : (load held format path).onState locked = (.ok old, locked) := by
    rw [load_onState, hsame, hold]
  refine ⟨tree', ?_, hready', hreplaced.here, hreplaced.fresh, ⟨found, ?_, hempty⟩,
    fun other hplace hfresh hother => ?_⟩
  · rw [update, holding_eq, makeParent_lockPath, onState_bind_ok (makeParent_ready h),
      onState_bind_ok hheld, onState_bind_ok hload]
    exact onState_bind_ok hreplace _
  · rw [hreplaced.elsewhere _ (Path.place_withExtension_ne isExtension_lock h.named hlock)
      (Path.place_lock_ne_tmp h.named), hfile.here]
  · rw [hreplaced.elsewhere other hplace hfresh, hfile.elsewhere other hother]

/-- A document that cannot be read cannot be changed. -/
theorem update_unread (h : Ready path tree) (hlock : path.extension? ≠ some "lock") {e : Error}
    (hold : loaded format path tree = .error e) (change : α → β × α) :
    ((update held format path change).onState tree).1 = .error e := by
  obtain ⟨locked, -, hheld, -, -, -, hsame⟩ := hold_ready h hlock format
  rw [update, holding_eq, makeParent_lockPath, onState_bind_ok (makeParent_ready h),
    onState_bind_ok hheld, onState_bind, load_onState, hsame, hold]

theorem update_ready (h : Ready path tree) (hlock : path.extension? ≠ some "lock") {old : α}
    (hold : loaded format path tree = .ok old) (change : α → β × α) :
    ∃ tree' names, (update held format path change).onState tree = (.ok (change old).1, tree') ∧
      Ready path tree' ∧
      tree'.find path = .ok (names, .file (.ofText (format.toJson (change old).2).pretty)) := by
  obtain ⟨tree', hupdate, hready, hchanged⟩ := update_changed h hlock hold change
  obtain ⟨place, hresolve, -⟩ := hready.document.place
  obtain rfl := ((resolve_eq_ok_iff_way h.named).mp hresolve).2
  exact ⟨tree', _, hupdate, hready,
    find_eq_ok_iff.mpr ⟨hresolve, hchanged.here, fun _ => hready.document.direct⟩⟩

/-- A change starts from where the directories have been made. -/
theorem update_of_way {made : Tree} (hmade : (makeParent held path).onState tree = (.ok (), made))
    (hsplit : path.split? ≠ none) (hway : ∀ passed ∈ path.way, made.get? passed = some .directory)
    (format : Format α) (change : α → β × α) :
    (update held format path change).onState tree =
      (update held format path change).onState made := by
  rw [update, holding_eq, makeParent_lockPath, onState_bind_ok hmade,
    onState_bind_ok (makeParent_of_way hsplit hway)]

/-- What is changed first is what the directories are made for. -/
theorem update_prepared {made : Tree} (hmade : (makeParent held path).onState tree = (.ok (), made))
    (hready : Ready path made) (format : Format α) (change : α → β × α) :
    (update held format path change).onState tree =
      (update held format path change).onState made :=
  update_of_way hmade hready.named hready.way format change

/-! ### Documents that are kept -/

/-- **Documents are kept at a path** in the trees that are in some relation with them: they are read
there, and can be changed. -/
structure Kept (format : Format α) (path : Path) (holds : Tree → α → Prop) : Prop where
  read : ∀ {tree value}, holds tree value → loaded format path tree = .ok value
  change : ∀ {tree value} {β : Type} (change : α → β × α), holds tree value →
    ∃ tree', (update held format path change).onState tree = (.ok (change value).1, tree') ∧
      holds tree' (change value).2

theorem Kept.load_eq {holds : Tree → α → Prop} (h : Kept format path holds) {value : α}
    (hvalue : holds tree value) :
    (load held format path).onState tree = (.ok value, tree) := by
  rw [load_onState, h.read hvalue]

/-- A tree holds a document: it is read there, and once its directory is made it is read still, and
can be kept. -/
def Holds (format : Format α) (path : Path) (tree : Tree) (value : α) : Prop :=
  loaded format path tree = .ok value ∧ ∃ made,
    (makeParent held path).onState tree = (.ok (), made) ∧ Ready path made ∧
      loaded format path made = .ok value

/-- **A document that is held can be changed**, and the changed one is held. -/
theorem kept_holds (hformat : format.Faithful) (hlock : path.extension? ≠ some "lock") :
    Kept format path (Holds format path) where
  read h := h.1
  change := by
    rintro tree old β change ⟨-, made, hmade, hready, hold⟩
    obtain ⟨tree', names, hupdate, hready', hfind⟩ := update_ready hready hlock hold change
    have hread : loaded format path tree' = .ok (change old).2 :=
      loaded_of_document hformat hfind
    exact ⟨tree', (update_prepared hmade hready format change).trans hupdate,
      hread, tree', makeParent_ready hready', hready', hread⟩

/-- A path at which a document can be made: once its directory is made, one can be kept there, and
no file is there yet. -/
def Creatable (path : Path) (tree : Tree) : Prop :=
  ∃ made, (makeParent held path).onState tree = (.ok (), made) ∧ Ready path made ∧
    ∀ names content, made.find path ≠ .ok (names, .file content)

/-- Where a document can be made, the one that a missing file stands for is held. -/
theorem Creatable.holds (h : Creatable path tree) (format : Format α) :
    Holds format path tree format.absent := by
  obtain ⟨made, hmade, hready, hfree⟩ := h
  obtain ⟨fault, hmissing⟩ : ∃ fault, made.find path = .error fault := by
    rcases hfind : made.find path with fault | ⟨names, content | _⟩
    · exact ⟨fault, rfl⟩
    · exact absurd hfind (hfree names content)
    -- No document could be kept where there is a directory.
    · obtain ⟨place, hresolve, hplace, -⟩ := hready.document.place
      obtain ⟨hnames, hdirectory, -⟩ := find_eq_ok_iff.mp hfind
      obtain rfl : place = names := Except.ok.inj (hresolve.symm.trans hnames)
      exact absurd hdirectory hplace
  obtain ⟨fault', hmissing'⟩ := exists_find_error_of_touches (makeParent_spec hmade) hmissing
  exact ⟨loaded_of_missing hmissing' format, made, hmade, hready, loaded_of_missing hmissing format⟩

end Document

end ProxyUpgrade
