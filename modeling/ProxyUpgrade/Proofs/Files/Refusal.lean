import ProxyUpgrade.Proofs.Files.Apart
/-!
# Changes that are refused

Whether a document can be changed depends on where there are directories and on what its path is
like, and neither on what it is nor on what it is to be changed to. So a document that is read is
settled (`Document.Settled`): either every change of it succeeds, or every change fails in the same
way. What a failed change leaves behind, directories on the way, a file that is held, a file that
was to take the place of the document, makes no difference to the next one.

That is so of every path that leads somewhere or never goes back up (`Document.settled`). Making the
directories of any other path may bring another document into sight.
-/

namespace ProxyUpgrade

namespace Files.Tree

variable {tree tree' : Tree} {path : Path} {names components place : List String}

/-! ### Directories that were made -/

/-- What is there stays there when directories are made. -/
theorem isSome_of_touches (h : Touches [] tree tree') (hthere : (tree.get? names).isSome) :
    (tree'.get? names).isSome := by
  rcases hnode : tree.get? names with - | content | -
  · simp [hnode] at hthere
  · have hfile : tree'.file? names = some content := by
      rw [h.files names (by simp)]
      exact file?_eq_some_iff.mpr hnode
    simp [file?_eq_some_iff.mp hfile]
  · simp [h.keeps names hnode]

/-- **Making directories again comes to the same**, and makes none. -/
theorem makeAlong_again {result : Except Fault (List String)}
    (h : tree.makeAlong names components = (result, tree')) :
    tree'.makeAlong names components = (result, tree') := by
  induction components generalizing tree names with
  | nil =>
    obtain ⟨rfl, rfl⟩ := Prod.mk.inj h
    rfl
  | cons name rest ih =>
    rw [makeAlong] at h
    split at h
    next fault hstep =>
      obtain ⟨rfl, rfl⟩ := Prod.mk.inj h
      rw [makeAlong, hstep]
    next next hstep =>
      obtain ⟨htouches, hthere⟩ := makeAlong_step hstep
      obtain ⟨htouches', -⟩ := makeAlong_spec h
      obtain ⟨hdirectory, hnext⟩ := step_eq_ok_iff.mp hstep
      have hstep' : tree'.step names name = .ok next := step_eq_ok_iff.mpr
        ⟨(htouches.trans htouches').keeps _ hdirectory, hnext⟩
      rw [makeAlong, hstep']
      simp only [isSome_of_touches htouches' hthere, if_true]
      exact ih h

theorem makeDirectory_again {result : Except Fault Unit}
    (h : tree.makeDirectory path = (result, tree')) :
    tree'.makeDirectory path = (result, tree') := by
  rw [makeDirectory] at h
  rcases halong : tree.makeAlong [] path.components with ⟨fault | names, made⟩
  · simp only [halong] at h
    obtain ⟨rfl, rfl⟩ := Prod.mk.inj h
    rw [makeDirectory, makeAlong_again halong]
  · simp only [halong] at h
    obtain rfl : made = tree' := by
      split at h
      · exact (Prod.mk.inj h).2
      · exact (Prod.mk.inj h).2
    rw [makeDirectory, makeAlong_again halong]
    exact h

/-- No place along components is deeper than they are many. -/
theorem length_along (h : place ∈ along names components) :
    place.length ≤ names.length + components.length := by
  induction components generalizing names with
  | nil => simp [along] at h
  | cons component rest ih =>
    have hdown : (down names component).length ≤ names.length + 1 := by
      rw [down]
      split
      · simp only [List.length_dropLast]
        omega
      · simp
    rw [along, List.mem_cons] at h
    rw [List.length_cons]
    rcases h with rfl | h
    · omega
    · have := ih h
      omega

/-- A path that never goes back up is not on its own way. -/
theorem place_notMem_way (hsplit : path.split? ≠ none) (hup : ".." ∉ path.components)
    (hresolve : tree.resolve path = .ok place) : place ∉ path.way := by
  rcases h : path.split? with - | ⟨directory, name⟩
  · exact absurd h hsplit
  rw [resolve_eq (Path.ne_empty_of_split h)] at hresolve
  obtain rfl := walk_of_no_up hup hresolve
  rw [Path.way, h, Path.components_of_split h]
  intro hmem
  have := length_along hmem
  simp at this

/-! ### Files beside others -/

/-- Where the way is there, writing a file beside another one is putting it in its place. -/
theorem write_beside {extension : String} (hextension : Path.IsExtension extension)
    (hsplit : path.split? ≠ none) (hway : ∀ passed ∈ path.way, tree.get? passed = some .directory)
    (content : Bytes) (keep : Bool) : tree.write (path.withExtension extension) content keep =
      tree.writeAt (path.withExtension extension).place content keep := by
  rcases h : path.split? with - | ⟨directory, name⟩
  · exact absurd h hsplit
  have hnamed := Path.split?_withExtension_ne_none hextension hsplit
  rw [← Path.way_withExtension hextension] at hway
  rw [write, (resolve_eq_ok_iff_way hnamed).mpr ⟨hway, rfl⟩]
  simp [(Path.split?_withExtension hextension h).2, bind, Except.bind]

theorem parent_beside {extension : String} (hextension : Path.IsExtension extension)
    (hsplit : path.split? ≠ none) (hway : ∀ passed ∈ path.way, tree.get? passed = some .directory) :
    tree.get? (path.withExtension extension).place.dropLast = some .directory := by
  rw [← Path.way_withExtension hextension] at hway
  exact parent_of_way (Path.split?_withExtension_ne_none hextension hsplit) hway

end Files.Tree

namespace Document

open ProxyUpgrade.Action Files Files.Tree

variable {α β : Type} {format : Format α} {path : Path} {tree tree' made : Tree} {value : α}
  {e : Error}

/-- **Making the directory of a path again comes to the same**, and makes nothing. -/
theorem makeParent_again {result : Except Error Unit}
    (h : (makeParent held path).onState tree = (result, tree')) :
    (makeParent held path).onState tree' = (result, tree') := by
  rcases hparent : path.parent? with - | parent
  · simp only [makeParent, hparent] at h ⊢
    obtain ⟨rfl, rfl⟩ := Prod.mk.inj h
    rfl
  · simp only [makeParent, hparent] at h ⊢
    split at h
    next hempty =>
      obtain ⟨rfl, rfl⟩ := Prod.mk.inj h
      rw [if_pos hempty]
      rfl
    next hempty =>
      rw [makeDirectory_onState] at h
      rcases hmake : tree.makeDirectory parent with ⟨outcome, left⟩
      rw [hmake] at h
      obtain ⟨rfl, rfl⟩ := Prod.mk.inj h
      rw [if_neg hempty, makeDirectory_onState, makeDirectory_again hmake]

/-- There are directories all along a way that has been made. -/
theorem way_of_makeParent (hsplit : path.split? ≠ none)
    (h : (makeParent held path).onState tree = (.ok (), made)) :
    ∀ passed ∈ path.way, made.get? passed = some .directory := by
  rcases hsplit' : path.split? with - | ⟨directory, name⟩
  · exact absurd hsplit' hsplit
  obtain ⟨parent, hparent, hcomponents⟩ := Path.parent?_of_split hsplit'
  rw [Path.way, hsplit']
  simp only [← hcomponents]
  simp only [makeParent, hparent] at h
  split at h
  next hempty =>
    obtain rfl : parent = "" := String.isEmpty_iff.mp hempty
    intro passed hpassed
    cases hpassed
  next =>
    rw [makeDirectory_onState] at h
    rcases hmake : tree.makeDirectory parent with ⟨fault | _, found⟩
    · rw [hmake] at h
      cases h
    · rw [hmake] at h
      obtain ⟨-, rfl⟩ := Prod.mk.inj h
      obtain ⟨base, hwalk, hbase⟩ := (makeDirectory_spec hmake).2 rfl
      exact (walk_eq_ok_iff.mp ⟨hwalk, hbase⟩).2.1

/-! ### Reading -/

/-- No document is read where there is a directory. -/
theorem loaded_of_directory {names : List String} (h : tree.find path = .ok (names, .directory)) :
    loaded format path tree ≠ .ok value := by
  have hread : tree.read path = .error .isADirectory := by
    simp [Tree.read, h, bind, Except.bind, throw, throwThe, MonadExceptOf.throw]
  rw [loaded_of_find h, hread]
  rintro ⟨⟩

/-- No document is found at a path that leads to nothing but a directory. -/
theorem loaded_of_misplaced (hsplit : path.split? ≠ none) (hdirect : path.isForDirectory = true)
    (hplace : tree.get? path.place ≠ some .directory) :
    loaded format path tree = .ok format.absent := by
  rcases hfind : tree.find path with fault | ⟨names, node⟩
  · exact loaded_of_missing hfind format
  · obtain ⟨hresolve, hnode, hfile⟩ := find_eq_ok_iff.mp hfind
    rw [((resolve_eq_ok_iff_way hsplit).mp hresolve).2] at hnode
    have hne : node ≠ .directory := by
      rintro rfl
      exact hplace hnode
    rw [hfile hne] at hdirect
    cases hdirect

/-- **What was read before is read when the way has been made.** -/
theorem loaded_made (hsplit : path.split? ≠ none)
    (hlead : (∃ names, tree.resolve path = .ok names) ∨ ".." ∉ path.components)
    (hload : loaded format path tree = .ok value)
    (hmade : (makeParent held path).onState tree = (.ok (), made)) :
    loaded format path made = .ok value := by
  rcases hlead with ⟨names, hresolve⟩ | hup
  · have hway := ((resolve_eq_ok_iff_way hsplit).mp hresolve).1
    obtain rfl : tree = made := congrArg Prod.snd ((makeParent_of_way hsplit hway).symm.trans hmade)
    exact hload
  have htouches := makeParent_spec hmade
  rcases hfind : made.find path with fault | ⟨names, content | _⟩
  · obtain ⟨fault', hmissing⟩ := exists_find_error_of_touches htouches hfind
    rw [loaded_of_missing hfind, ← hload, loaded_of_missing hmissing]
  · have hbefore := find_eq_of_touches htouches (.inr hup) hfind
    rw [loaded_congr (hfind.trans hbefore.symm), hload]
  -- A directory at the end of the way was there before.
  · obtain ⟨hresolve, hnode, -⟩ := find_eq_ok_iff.mp hfind
    have hway := way_of_makeParent hsplit hmade
    have hclear : ∀ passed ∈ path.way, tree.file? passed = none := fun passed hpassed => by
      rw [← htouches.files passed (by simp), file?, hway passed hpassed]
    obtain ⟨made', hmade', hget⟩ := makeParent_along hsplit hclear
    obtain rfl : made = made' := congrArg Prod.snd (hmade.symm.trans hmade')
    have hdirectory : tree.get? names = some .directory := by
      rw [← hnode, hget, if_neg (place_notMem_way hsplit hup hresolve)]
    have hpath : path ≠ "" := by
      rintro rfl
      cases hresolve
    rw [resolve_eq hpath] at hresolve
    obtain rfl := walk_of_no_up hup hresolve
    have hwalk : tree.resolve path = .ok path.components :=
      (resolve_eq hpath).trans (walk_of_get? (by simp [hdirectory]) hup)
    exact absurd hload
      (loaded_of_directory (find_eq_ok_iff.mpr ⟨hwalk, hdirectory, by simp⟩))

/-! ### The steps of a change -/

/-- What is done while the file beside a document is held. -/
def changing (format : Format α) (path : Path) (change : α → β × α) : Action (StateM Tree) β := do
  let (result, value) := change (← load held format path)
  replace held format path value
  pure result

/-- **The file beside a document is held.** To a change it makes no difference whether it has been
held before. -/
structure Held (path : Path) (content : Bytes) (tree locked : Tree) : Prop where
  written : Written (lockPath path).place content tree locked
  new : tree.get? (lockPath path).place = none → content = []
  same : tree.get? (lockPath path).place ≠ none → locked = tree
  way : ∀ passed ∈ path.way, locked.get? passed = some .directory
  first : ∀ {α β : Type} (format : Format α) (change : α → β × α),
    (update held format path change).onState tree = (changing format path change).onState locked
  again : ∀ {α β : Type} (format : Format α) (change : α → β × α),
    (update held format path change).onState locked = (changing format path change).onState locked

/-- The failure of replacing a file at a path that leads to nothing but a directory. -/
def misplaced (path : Path) : Error :=
  .storage ("failed to replace " ++ path ++ ": " ++
    (if path.toList.getLast? = some '/' then Fault.notADirectory else busy).message)

section Way

variable (hsplit : path.split? ≠ none)
  (hway : ∀ passed ∈ path.way, tree.get? passed = some .directory)

include hsplit hway

/-- A change starts with holding the file beside the document. -/
theorem update_eq_held (format : Format α) (change : α → β × α) :
    (update held format path change).onState tree =
      (checked ("failed to open lock " ++ lockPath path) (held.hold (lockPath path)) >>= fun _ =>
        changing format path change).onState tree := by
  rw [update, holding_eq, makeParent_lockPath, onState_bind_ok (makeParent_of_way hsplit hway)]
  rfl

/-- Where a directory lies at its place, the file cannot be held. -/
theorem exists_update_of_lock (hlock : tree.get? (lockPath path).place = some .directory) :
    ∃ e, ∀ {α β : Type} (format : Format α) (change : α → β × α),
      (update held format path change).onState tree = (.error e, tree) := by
  have hwrite : tree.write (lockPath path) [] true = .error .isADirectory := by
    rw [write_beside isExtension_lock hsplit hway, writeAt, hlock]
  refine ⟨.storage ("failed to open lock " ++ lockPath path ++ ": " ++ Fault.isADirectory.message),
    fun format change => ?_⟩
  rw [update_eq_held hsplit hway, onState_bind, hold_onState, hwrite]
  rfl

/-- **The file beside a document can be held**, unless a directory lies at its place. -/
theorem exists_held (hlock : tree.get? (lockPath path).place ≠ some .directory) :
    ∃ locked content, Held path content tree locked := by
  obtain ⟨locked, content, hwrite, hwritten, hnew, hsame⟩ : ∃ locked content,
      tree.write (lockPath path) [] true = .ok locked ∧
        Written (lockPath path).place content tree locked ∧
        (tree.get? (lockPath path).place = none → content = []) ∧
        (tree.get? (lockPath path).place ≠ none → locked = tree) := by
    rw [write_beside isExtension_lock hsplit hway, writeAt]
    rcases hnode : tree.get? (lockPath path).place with - | content | -
    · have hparent := parent_beside isExtension_lock hsplit hway
      rw [hparent]
      exact ⟨_, [], rfl, written_put ⟨hparent, hlock⟩, fun _ => rfl, fun hne => absurd rfl hne⟩
    · exact ⟨tree, content, rfl, ⟨hnode, fun _ _ => rfl, hlock⟩, by simp, fun _ => rfl⟩
    · exact absurd hnode hlock
  have hway' : ∀ passed ∈ path.way, locked.get? passed = some .directory :=
    fun passed hpassed => hwritten.keeps passed (hway passed hpassed)
  have hagain : locked.write (lockPath path) [] true = .ok locked := by
    rw [write_beside isExtension_lock hsplit hway', writeAt, hwritten.here]
    rfl
  refine ⟨locked, content, hwritten, hnew, hsame, hway', fun format change => ?_,
    fun format change => ?_⟩
  · rw [update_eq_held hsplit hway, onState_bind, hold_onState, hwrite]
    rfl
  · rw [update_eq_held hsplit hway', onState_bind, hold_onState, hagain]
    rfl

/-- Where a directory lies at the place of the file that is to be written, nothing is replaced. -/
theorem exists_replace_of_fresh (hfresh : tree.get? (freshPath path).place = some .directory) :
    ∃ e, ∀ {α : Type} (format : Format α) (value : α),
      (replace held format path value).onState tree = (.error e, tree) := by
  refine ⟨.storage ("failed to create " ++ freshPath path ++ ": " ++ Fault.isADirectory.message),
    fun format value => ?_⟩
  have hwrite : tree.write (freshPath path) (.ofText (format.toJson value).pretty) false =
      .error .isADirectory := by
    rw [write_beside isExtension_tmp hsplit hway, writeAt, hfresh]
  rw [replace, onState_bind_ok (makeParent_of_way hsplit hway), onState_bind, write_onState, hwrite]
  rfl

/-- **No file is replaced at a path that leads to nothing but a directory.** What was to take its
place is left behind. -/
theorem exists_replace_of_misplaced (hfresh : tree.get? (freshPath path).place ≠ some .directory)
    (hdirect : path.isForDirectory = true) (format : Format α) (value : α) : ∃ tree' content,
      (replace held format path value).onState tree = (.error (misplaced path), tree') ∧
        Written (freshPath path).place content tree tree' := by
  obtain ⟨written, hwrite⟩ := writeAt_eq_ok (.ofText (format.toJson value).pretty) false
    ⟨parent_beside isExtension_tmp hsplit hway, hfresh⟩
  obtain ⟨content, hwritten, -⟩ := writeAt_spec hwrite
  rw [← write_beside isExtension_tmp hsplit hway] at hwrite
  refine ⟨written, content, ?_, hwritten⟩
  have hnamed := Path.split?_withExtension_ne_none isExtension_tmp hsplit
  have hway' : ∀ passed ∈ path.way, written.get? passed = some .directory :=
    fun passed hpassed => hwritten.keeps passed (hway passed hpassed)
  obtain ⟨directory, hsplit'⟩ := Option.ne_none_iff_exists'.mp hsplit
  have hfind : written.find (freshPath path) = .ok ((freshPath path).place, .file content) := by
    refine find_eq_ok_iff.mpr ⟨(resolve_eq_ok_iff_way hnamed).mpr ⟨?_, rfl⟩, hwritten.here,
      fun _ => (Path.split?_withExtension isExtension_tmp hsplit').2⟩
    rwa [Path.way_withExtension isExtension_tmp]
  have hrename : written.rename (freshPath path) path =
      .error (if path.toList.getLast? = some '/' then Fault.notADirectory else busy) := by
    simp [Tree.rename, hfind, (resolve_eq_ok_iff_way hsplit).mpr ⟨hway', rfl⟩, hdirect, bind,
      Except.bind, throw, throwThe, MonadExceptOf.throw]
  rw [replace, onState_bind_ok (makeParent_of_way hsplit hway), onState_bind, write_onState, hwrite]
  change (checked _ (held.rename (freshPath path) path)).onState written = _
  rw [rename_onState, hrename]
  rfl

/-- A file that is written elsewhere is not in the way of the document. -/
theorem find_elsewhere {names : List String} {content : Bytes}
    (h : Written names content tree tree') (hne : names ≠ path.place) :
    tree'.find path = tree.find path := by
  have hway' : ∀ passed ∈ path.way, tree'.get? passed = some .directory :=
    fun passed hpassed => h.keeps passed (hway passed hpassed)
  rw [find, find, (resolve_eq_ok_iff_way hsplit).mpr ⟨hway, rfl⟩,
    (resolve_eq_ok_iff_way hsplit).mpr ⟨hway', rfl⟩]
  simp only [bind, Except.bind, h.elsewhere _ hne.symm]

end Way

theorem changing_onState (hload : loaded format path tree = .ok value) (change : α → β × α) :
    (changing format path change).onState tree =
      ((replace held format path (change value).2 >>= fun _ => pure (change value).1).onState
        tree) := by
  have hread : (load held format path).onState tree = (.ok value, tree) := by
    rw [load_onState, hload]
  rw [changing, onState_bind_ok hread]

/-! ### Documents that are settled -/

/-- **A document can never be changed** in some trees: it is read in each of them, and every change
fails in the same way and leads to one of them again. -/
structure Refused (format : Format α) (path : Path) (value : α) (e : Error)
    (refuses : Tree → Prop) : Prop where
  read : ∀ {tree}, refuses tree → loaded format path tree = .ok value
  change : ∀ {tree} {β : Type} (change : α → β × α), refuses tree →
    ∃ tree', (update held format path change).onState tree = (.error e, tree') ∧ refuses tree'

/-- **No document can be made**: the first change fails, and nothing is read from then on. -/
structure Spoiled (format : Format α) (path : Path) (tree : Tree) (e : Error) (left : Tree) :
    Prop where
  first : ∀ {β : Type} (change : α → β × α),
    (update held format path change).onState tree = (.error e, left)
  again : ∀ {β : Type} (change : α → β × α),
    (update held format path change).onState left = (.error e, left)
  unread : loaded format path left = .error e

/-- **A document is settled**: every change of it succeeds, or none does. -/
inductive Settled (format : Format α) (path : Path) (tree : Tree) (value : α) : Prop
  | kept {holds : Tree → α → Prop} (h : Kept format path holds) (hvalue : holds tree value)
  | refused {e : Error} {refuses : Tree → Prop} (h : Refused format path value e refuses)
    (htree : refuses tree)
  | spoiled {e : Error} {left : Tree} (h : Spoiled format path tree e left)
    (habsent : value = format.absent)

/-- A document is settled where each change comes to what it does in a tree in which it is settled.
-/
theorem Settled.of_update_eq (h : Settled format path made value)
    (hload : loaded format path tree = .ok value)
    (hsame : ∀ {β : Type} (change : α → β × α), (update held format path change).onState tree =
      (update held format path change).onState made) : Settled format path tree value := by
  cases h with
  | @kept holds h hvalue =>
    have hkept : Kept format path fun s v => holds s v ∨ s = tree ∧ v = value := by
      refine ⟨?_, ?_⟩
      · rintro s v (hs | ⟨rfl, rfl⟩)
        · exact h.read hs
        · exact hload
      · rintro s v β change (hs | ⟨rfl, rfl⟩)
        · obtain ⟨s', hupdate, hs'⟩ := h.change change hs
          exact ⟨s', hupdate, .inl hs'⟩
        · obtain ⟨s', hupdate, hs'⟩ := h.change change hvalue
          exact ⟨s', (hsame change).trans hupdate, .inl hs'⟩
    exact .kept hkept (.inr ⟨rfl, rfl⟩)
  | @refused e refuses h hmade =>
    have hrefused : Refused format path value e fun s => refuses s ∨ s = tree := by
      refine ⟨?_, ?_⟩
      · rintro s (hs | rfl)
        · exact h.read hs
        · exact hload
      · rintro s β change (hs | rfl)
        · obtain ⟨s', hupdate, hs'⟩ := h.change change hs
          exact ⟨s', hupdate, .inl hs'⟩
        · obtain ⟨s', hupdate, hs'⟩ := h.change change hmade
          exact ⟨s', (hsame change).trans hupdate, .inl hs'⟩
    exact .refused hrefused (.inr rfl)
  | spoiled h habsent =>
    exact .spoiled ⟨fun change => (hsame change).trans (h.first change), h.again, h.unread⟩ habsent

/-- A document is settled where every change fails in the same way and changes nothing at all. -/
theorem settled_of_fixed (hload : loaded format path tree = .ok value)
    (h : ∀ {β : Type} (change : α → β × α),
      (update held format path change).onState tree = (.error e, tree)) :
    Settled format path tree value := by
  have hrefused : Refused format path value e (· = tree) := by
    refine ⟨?_, ?_⟩
    · rintro s rfl
      exact hload
    · rintro s β change rfl
      exact ⟨s, h change, rfl⟩
  exact .refused hrefused rfl

/-! ### Files that are held -/

/-- The file that is held would be that of the document, which is not there. -/
structure Taken (path : Path) (tree : Tree) : Prop where
  same : (lockPath path).place = path.place
  none : tree.get? path.place = none
  direct : path.isForDirectory = false

/-- **A document is spoiled** if its own file is to be held and is not there: it is made without a
text. -/
theorem Held.spoiled {locked : Tree} {content : Bytes} (h : Held path content tree locked)
    (hsplit : path.split? ≠ none) (htaken : Taken path tree) (format : Format α) :
    ∃ e, Spoiled format path tree e locked := by
  obtain ⟨heq, hnone, hdirect⟩ := htaken
  obtain rfl := h.new (by rw [heq, hnone])
  have htext : Bytes.ofText "" = [] := by simp [Bytes.ofText_eq]
  have hhere : locked.get? path.place = some (.file (.ofText "")) := by
    rw [htext, ← heq, h.written.here]
  have hfind := find_eq_ok_iff.mpr
    ⟨(resolve_eq_ok_iff_way hsplit).mpr ⟨h.way, rfl⟩, hhere, fun _ => hdirect⟩
  have hunread : loaded format path locked =
      .error (.storage ("failed to parse " ++ path ++ ": " ++ unreadable)) := by
    rw [loaded_of_text hfind]
    rfl
  have hfailed : ∀ {β : Type} (change : α → β × α),
      (update held format path change).onState locked =
        (.error (.storage ("failed to parse " ++ path ++ ": " ++ unreadable)), locked) := by
    intro β change
    rw [h.again, changing, onState_bind, load_onState, hunread]
  exact ⟨_, fun change => (h.first format change).trans
    ((h.again format change).symm.trans (hfailed change)), hfailed, hunread⟩

/-- **Any other document is read as before** while the file is held. -/
theorem Held.loaded_eq {locked : Tree} {content : Bytes} (h : Held path content tree locked)
    (hsplit : path.split? ≠ none) (hway : ∀ passed ∈ path.way, tree.get? passed = some .directory)
    (htaken : ¬Taken path tree) (hload : loaded format path tree = .ok value) :
    loaded format path locked = .ok value := by
  by_cases heq : (lockPath path).place = path.place
  · rcases hnode : tree.get? path.place with - | node
    -- Nothing is found where only a directory could be.
    · have hdirect : path.isForDirectory = true := by
        rw [← Bool.not_eq_false]
        exact fun hdirect => htaken ⟨heq, hnode, hdirect⟩
      have hplace : locked.get? path.place ≠ some .directory := by
        rw [← heq]
        exact free_of_file h.written.here
      obtain ⟨fault, hmissing⟩ := find_of_none hsplit hnode
      rw [loaded_of_misplaced hsplit hdirect hplace, ← hload, loaded_of_missing hmissing]
    · have hthere : tree.get? (lockPath path).place = some node := by rw [heq, hnode]
      obtain rfl := h.same (by rw [hthere]; exact Option.some_ne_none _)
      exact hload
  · rw [loaded_congr (find_elsewhere hsplit hway h.written heq), hload]

/-! ### Paths that lead to nothing but a directory -/

/-- Files can be written at all places of a document. -/
structure Clear (path : Path) (tree : Tree) : Prop where
  way : ∀ passed ∈ path.way, tree.get? passed = some .directory
  free : ∀ place ∈ places path, tree.get? place ≠ some .directory

theorem Clear.written {names : List String} {content : Bytes} (h : Clear path tree)
    (hwritten : Written names content tree tree') : Clear path tree' where
  way passed hpassed := hwritten.keeps passed (h.way passed hpassed)
  free place hplace := by
    by_cases heq : place = names
    · rw [heq]
      exact free_of_file hwritten.here
    · rw [hwritten.elsewhere place heq]
      exact h.free place hplace

/-- **No document can be made at a path that leads to nothing but a directory.** -/
theorem refused_of_misplaced (hsplit : path.split? ≠ none) (hdirect : path.isForDirectory = true)
    (format : Format α) :
    Refused format path format.absent (misplaced path) (Clear path) := by
  have hread : ∀ {tree}, Clear path tree → loaded format path tree = .ok format.absent :=
    fun h => loaded_of_misplaced hsplit hdirect (h.free _ (by simp [places]))
  refine ⟨hread, fun {tree β} change h => ?_⟩
  obtain ⟨locked, content, hheld⟩ := exists_held hsplit h.way (h.free _ (by simp [places]))
  have hlocked := h.written hheld.written
  obtain ⟨left, found, hreplace, hleft⟩ := exists_replace_of_misplaced hsplit hlocked.way
    (hlocked.free _ (by simp [places])) hdirect format (change format.absent).2
  refine ⟨left, ?_, hlocked.written hleft⟩
  rw [hheld.first, changing_onState (hread hlocked), onState_bind, hreplace]

/-! ### Documents that can be changed -/

/-- A document can be changed: it is read, and can be kept, and the file that is held is either
another one or there already. -/
structure Open (format : Format α) (path : Path) (tree : Tree) (value : α) : Prop where
  ready : Ready path tree
  read : loaded format path tree = .ok value
  there : (lockPath path).place = path.place →
    ∃ content, tree.get? path.place = some (.file content)

/-- **A document that can be changed can be changed again.** -/
theorem kept_open (hformat : format.Faithful) : Kept format path (Open format path) where
  read h := h.read
  change := by
    rintro tree old β change ⟨hready, hold, hthere⟩
    obtain ⟨hsplit, hdirect, hway, hfree⟩ := ready_iff.mp hready
    obtain ⟨locked, content, hheld⟩ := exists_held hsplit hway (hfree _ (by simp [places]))
    have htaken : ¬Taken path tree := by
      rintro ⟨heq, hnone, -⟩
      obtain ⟨content, hfile⟩ := hthere heq
      cases hnone.symm.trans hfile
    have hload := hheld.loaded_eq hsplit hway htaken hold
    obtain ⟨tree', hreplace, hready', hreplaced⟩ :=
      replace_ready (hready.written hheld.written) format (change old).2
    have hfind := find_eq_ok_iff.mpr
      ⟨(resolve_eq_ok_iff_way hsplit).mpr ⟨hready'.way, rfl⟩, hreplaced.here, fun _ => hdirect⟩
    refine ⟨tree', ?_, hready', ?_, fun _ => ⟨_, hreplaced.here⟩⟩
    · rw [hheld.first, changing_onState hload, onState_bind_ok hreplace]
      rfl
    · exact loaded_of_document hformat hfind

/-! ### All documents -/

/-- **A document whose way is there is settled.** -/
theorem settled_of_way (hformat : format.Faithful) (hsplit : path.split? ≠ none)
    (hway : ∀ passed ∈ path.way, tree.get? passed = some .directory)
    (hload : loaded format path tree = .ok value) : Settled format path tree value := by
  by_cases hlock : tree.get? (lockPath path).place = some .directory
  · obtain ⟨e, hfixed⟩ := exists_update_of_lock hsplit hway hlock
    exact settled_of_fixed hload fun change => hfixed format change
  obtain ⟨locked, content, hheld⟩ := exists_held hsplit hway hlock
  by_cases htaken : Taken path tree
  · obtain ⟨e, hspoiled⟩ := hheld.spoiled hsplit htaken format
    obtain ⟨fault, hmissing⟩ := find_of_none hsplit htaken.none
    exact .spoiled hspoiled (Except.ok.inj (hload.symm.trans (loaded_of_missing hmissing format)))
  have hlocked := hheld.loaded_eq hsplit hway htaken hload
  refine .of_update_eq ?_ hload fun change =>
    (hheld.first format change).trans (hheld.again format change).symm
  by_cases hfresh : locked.get? (freshPath path).place = some .directory
  · obtain ⟨e, hfixed⟩ := exists_replace_of_fresh hsplit hheld.way hfresh
    have hfailed : ∀ {β : Type} (change : α → β × α),
        (update held format path change).onState locked = (.error e, locked) := by
      intro β change
      rw [hheld.again, changing_onState hlocked, onState_bind, hfixed]
    exact settled_of_fixed hlocked hfailed
  have hplace : locked.get? path.place ≠ some .directory := by
    intro hdirectory
    have hresolve := (resolve_eq_ok_iff_way hsplit).mpr ⟨hheld.way, rfl⟩
    exact loaded_of_directory (find_eq_ok_iff.mpr ⟨hresolve, hdirectory, by simp⟩) hlocked
  have hfree : ∀ place ∈ places path, locked.get? place ≠ some .directory :=
    forall_mem_places.mpr ⟨hplace, hfresh, free_of_file hheld.written.here⟩
  rcases hdirect : path.isForDirectory
  · have hready : Ready path locked := ready_iff.mpr ⟨hsplit, hdirect, hheld.way, hfree⟩
    have hopen : Open format path locked value :=
      ⟨hready, hlocked, fun heq => ⟨content, heq ▸ hheld.written.here⟩⟩
    exact .kept (kept_open hformat) hopen
  · obtain rfl : value = format.absent :=
      Except.ok.inj (hlocked.symm.trans (loaded_of_misplaced hsplit hdirect hplace))
    exact .refused (refused_of_misplaced hsplit hdirect format) ⟨hheld.way, hfree⟩

/-- A path without a name that a document is read at is empty. -/
theorem eq_empty_of_no_split (hsplit : path.split? = none)
    (hlead : (∃ names, tree.resolve path = .ok names) ∨ ".." ∉ path.components)
    (hload : loaded format path tree = .ok value) : path = "" := by
  by_contra hpath
  obtain ⟨names, hresolve⟩ : ∃ names, tree.resolve path = .ok names := by
    refine hlead.elim id fun hup => ⟨[], ?_⟩
    rcases Path.components_of_no_split hsplit with hnone | ⟨rest, hrest⟩
    · rw [resolve_eq hpath, hnone]
      rfl
    · simp [hrest] at hup
  have hdirectory := directory_of_no_split hsplit hresolve
  exact loaded_of_directory (find_eq_ok_iff.mpr ⟨hresolve, hdirectory, by simp⟩) hload

/-- **A document that is read is settled** at every path that leads somewhere or never goes up. -/
theorem settled (hformat : format.Faithful)
    (hlead : (∃ names, tree.resolve path = .ok names) ∨ ".." ∉ path.components)
    (hload : loaded format path tree = .ok value) : Settled format path tree value := by
  rcases hsplit : path.split? with - | named
  · obtain rfl := eq_empty_of_no_split hsplit hlead hload
    exact settled_of_fixed hload fun change => rfl
  have hnamed : path.split? ≠ none := by simp [hsplit]
  rcases hparent : (makeParent held path).onState tree with ⟨e | _, made⟩
  -- The way cannot be made, so no document can be found either.
  · have hagain := makeParent_again hparent
    have hfailed : ∀ {tree : Tree}, (makeParent held path).onState tree = (.error e, made) →
        loaded format path tree = .ok format.absent ∧ ∀ {β : Type} (change : α → β × α),
          (update held format path change).onState tree = (.error e, made) := by
      intro tree hfailed
      constructor
      · rcases hfind : tree.find path with fault | ⟨names, node⟩
        · exact loaded_of_missing hfind format
        · have hway := ((resolve_eq_ok_iff_way hnamed).mp (find_eq_ok_iff.mp hfind).1).1
          cases (makeParent_of_way hnamed hway).symm.trans hfailed
      · intro β change
        rw [update, holding_eq, makeParent_lockPath, onState_bind, hfailed]
    obtain rfl : value = format.absent := Except.ok.inj (hload.symm.trans (hfailed hparent).1)
    refine .of_update_eq ?_ hload fun change =>
      ((hfailed hparent).2 change).trans ((hfailed hagain).2 change).symm
    exact settled_of_fixed (hfailed hagain).1 (hfailed hagain).2
  · have hway := way_of_makeParent hnamed hparent
    exact (settled_of_way hformat hnamed hway
      (loaded_made hnamed hlead hload hparent)).of_update_eq hload
        fun change => update_of_way hparent hnamed hway format change

end Document

end ProxyUpgrade
