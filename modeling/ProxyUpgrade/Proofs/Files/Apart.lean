import ProxyUpgrade.Proofs.Files.Ready
/-!
# Documents side by side

Changing a document concerns its three files and the directories on their way, and nothing else
(`Document.Footprint`). So several documents can be kept in one tree without regard to each other if
none lies at the place of one of another's files, and no file of one is in another's way
(`Document.Apart`): a document that stands (`Document.Stands`) can be changed, and whatever stands
apart from it stands as before (`Document.Stands.beside`).

That two documents be apart is no more than what is needed. Where one of the files of the second is
in the way of the first, the second cannot be changed once the first has been
(`Document.stuck_of_way`); where the first is kept at the place of the second, or at that of the
file by which the second is held, it cannot be read once the second has been changed
(`Document.update_unread`); and where it is kept at the place of the file that the second is written
to, it is lost then (`Document.loaded_of_lost`).
-/

namespace ProxyUpgrade.Document

open ProxyUpgrade.Action Files Files.Tree

variable {α β γ : Type} {format : Format α} {path other : Path} {tree tree' : Tree}

/-! ### Room for a document -/

/-- The places of a document's files: its own, that of the file it is written to, and that of the
file that is held. -/
def places (path : Path) : List (List String) :=
  [path.place, (freshPath path).place, (lockPath path).place]

theorem forall_mem_places {P : List String → Prop} : (∀ place ∈ places path, P place) ↔
    P path.place ∧ P (freshPath path).place ∧ P (lockPath path).place := by
  simp [places]

/-- A file can be written where the way is there, and no directory lies at the end of it. -/
theorem writable_iff (hsplit : path.split? ≠ none) : Writable path tree ↔
    path.isForDirectory = false ∧ (∀ passed ∈ path.way, tree.get? passed = some .directory) ∧
      tree.get? path.place ≠ some .directory := by
  constructor
  · rintro ⟨hdirect, names, hresolve, hfree, -⟩
    obtain ⟨hway, hplace⟩ := (resolve_eq_ok_iff_way hsplit).mp hresolve
    exact ⟨hdirect, hway, hplace ▸ hfree⟩
  · rintro ⟨hdirect, hway, hfree⟩
    exact ⟨hdirect, _, (resolve_eq_ok_iff_way hsplit).mpr ⟨hway, rfl⟩, hfree,
      parent_of_way hsplit hway⟩

/-- The same for a file beside another one. -/
theorem writable_beside_iff {extension : String} (hextension : Path.IsExtension extension)
    (hsplit : path.split? ≠ none) : Writable (path.withExtension extension) tree ↔
      (∀ passed ∈ path.way, tree.get? passed = some .directory) ∧
        tree.get? (path.withExtension extension).place ≠ some .directory := by
  rcases h : path.split? with - | ⟨directory, name⟩
  · exact absurd h hsplit
  rw [writable_iff (Path.split?_withExtension_ne_none hextension hsplit),
    Path.way_withExtension hextension]
  exact and_iff_right (Path.split?_withExtension hextension h).2

/-- **A document can be kept** where its way is there, and no directory lies at any of its
places. -/
theorem ready_iff : Ready path tree ↔ path.split? ≠ none ∧ path.isForDirectory = false ∧
    (∀ passed ∈ path.way, tree.get? passed = some .directory) ∧
      ∀ place ∈ places path, tree.get? place ≠ some .directory := by
  rw [forall_mem_places]
  constructor
  · rintro ⟨hsplit, hdocument, hfresh, hlock⟩
    obtain ⟨hdirect, hway, hplace⟩ := (writable_iff hsplit).mp hdocument
    exact ⟨hsplit, hdirect, hway, hplace,
      ((writable_beside_iff isExtension_tmp hsplit).mp hfresh).2,
      ((writable_beside_iff isExtension_lock hsplit).mp hlock).2⟩
  · rintro ⟨hsplit, hdirect, hway, hplace, hfresh, hlock⟩
    exact ⟨hsplit, (writable_iff hsplit).mpr ⟨hdirect, hway, hplace⟩,
      (writable_beside_iff isExtension_tmp hsplit).mpr ⟨hway, hfresh⟩,
      (writable_beside_iff isExtension_lock hsplit).mpr ⟨hway, hlock⟩⟩

/-- There is room for a document: no file is in its way, and no directory where its files would
lie, now or when the way has been made. -/
structure Room (path : Path) (tree : Tree) : Prop where
  named : path.split? ≠ none
  direct : path.isForDirectory = false
  clear : ∀ passed ∈ path.way, tree.file? passed = none
  free : ∀ place ∈ places path, tree.get? place ≠ some .directory
  off : ∀ place ∈ places path, place ∉ path.way

/-- **Where there is room, a document can be kept** once its way has been made. -/
theorem Room.made (h : Room path tree) : ∃ made,
    (makeParent held path).onState tree = (.ok (), made) ∧ Ready path made ∧
      ∀ place, made.get? place = if place ∈ path.way then some .directory else tree.get? place := by
  obtain ⟨made, hmade, hget⟩ := makeParent_along h.named h.clear
  refine ⟨made, hmade, ready_iff.mpr ⟨h.named, h.direct, fun passed hpassed => ?_,
    fun place hplace => ?_⟩, hget⟩
  · rw [hget, if_pos hpassed]
  · rw [hget, if_neg (h.off place hplace)]
    exact h.free place hplace

theorem Ready.room (h : Ready path tree) : Room path tree := by
  obtain ⟨hsplit, hdirect, hway, hfree⟩ := ready_iff.mp h
  refine ⟨hsplit, hdirect, fun passed hpassed => ?_, hfree, fun place hplace hpassed => ?_⟩
  · simp [file?, hway passed hpassed]
  · exact hfree place hplace (hway place hpassed)

/-- There is room already where there is once the directories have been made. -/
theorem room_of_made {made : Tree} (hmade : (makeParent held path).onState tree = (.ok (), made))
    (h : Ready path made) : Room path tree := by
  obtain ⟨hkeeps, hfiles⟩ := makeParent_spec hmade
  have hroom := h.room
  refine ⟨hroom.named, hroom.direct, fun passed hpassed => ?_, fun place hplace hdirectory => ?_,
    hroom.off⟩
  · rw [← hfiles passed (by simp)]
    exact hroom.clear passed hpassed
  · exact hroom.free place hplace (hkeeps place hdirectory)

/-! ### What a change concerns -/

/-- **What changing a document comes to**: its way is there, its file has new content, the file that
this was written to is gone, the file that was held is empty if it is new, and nothing else has
changed. -/
structure Footprint (path : Path) (content : Bytes) (tree tree' : Tree) : Prop where
  way : ∀ passed ∈ path.way, tree'.get? passed = some .directory
  here : tree'.get? path.place = some (.file content)
  fresh : (freshPath path).place ≠ path.place → tree'.get? (freshPath path).place = none
  lock : ∃ found, tree'.get? (lockPath path).place = some (.file found) ∧
    (tree.get? (lockPath path).place = none → found = [])
  elsewhere : ∀ place, place ∉ path.way → place ∉ places path →
    tree'.get? place = tree.get? place

section Footprint

variable {content : Bytes}

theorem Footprint.free (h : Footprint path content tree tree') {place : List String}
    (hplace : place ∈ places path) : tree'.get? place ≠ some .directory := by
  revert place
  rw [forall_mem_places]
  obtain ⟨found, hfound, -⟩ := h.lock
  refine ⟨free_of_file h.here, ?_, free_of_file hfound⟩
  by_cases hsame : (freshPath path).place = path.place
  · rw [hsame]
    exact free_of_file h.here
  · exact free_of_none (h.fresh hsame)

theorem Footprint.keeps (h : Footprint path content tree tree') (hroom : Room path tree) :
    Keeps tree tree' := by
  intro place hdirectory
  by_cases hway : place ∈ path.way
  · exact h.way place hway
  · rw [h.elsewhere place hway fun hplace => hroom.free place hplace hdirectory, hdirectory]

/-- **There is room still** beside a document that was changed, if the files of neither are in the
way of the other. -/
theorem Room.beside (hother : Room other tree) (h : Footprint path content tree tree')
    (hoff : ∀ place ∈ places path, place ∉ other.way)
    (hoff' : ∀ place ∈ places other, place ∉ path.way) : Room other tree' where
  named := hother.named
  direct := hother.direct
  clear passed hpassed := by
    by_cases hway : passed ∈ path.way
    · simp [file?, h.way passed hway]
    · rw [file?_congr (h.elsewhere passed hway fun hplace => hoff passed hplace hpassed)]
      exact hother.clear passed hpassed
  free place hplace := by
    by_cases hmem : place ∈ places path
    · exact h.free hmem
    · rw [h.elsewhere place (hoff' place hplace) hmem]
      exact hother.free place hplace
  off := hother.off

end Footprint

/-! ### Documents that stand -/

/-- **A document stands in a tree**: there is room for it, and either its file has it or there is no
file, and it is the one that a missing file stands for. -/
structure Stands (format : Format α) (path : Path) (tree : Tree) (value : α) : Prop where
  room : Room path tree
  here : tree.get? path.place = none ∧ value = format.absent ∨
    (∃ content, tree.find path = .ok (path.place, .file content)) ∧
      loaded format path tree = .ok value

/-- Nothing is found where nothing lies. -/
theorem find_of_none (hsplit : path.split? ≠ none) (h : tree.get? path.place = none) :
    ∃ fault, tree.find path = .error fault := by
  rcases hfind : tree.find path with fault | ⟨names, node⟩
  · exact ⟨fault, rfl⟩
  · obtain ⟨hresolve, hnode, -⟩ := find_eq_ok_iff.mp hfind
    rw [((resolve_eq_ok_iff_way hsplit).mp hresolve).2, h] at hnode
    cases hnode

/-- A document that stands is read. -/
theorem Stands.loaded_eq {value : α} (h : Stands format path tree value) :
    loaded format path tree = .ok value := by
  rcases h.here with ⟨hnone, rfl⟩ | ⟨-, hloaded⟩
  · obtain ⟨fault, hfault⟩ := find_of_none h.room.named hnone
    exact loaded_of_missing hfault format
  · exact hloaded

theorem Stands.find_eq {value : α} {content : Bytes} (h : Stands format path tree value)
    (hfile : tree.get? path.place = some (.file content)) :
    tree.find path = .ok (path.place, .file content) := by
  rcases h.here with ⟨hnone, -⟩ | ⟨⟨found, hfind⟩, -⟩
  · rw [hfile] at hnone
    cases hnone
  · obtain ⟨-, hfound, -⟩ := find_eq_ok_iff.mp hfind
    rw [hfile] at hfound
    rw [hfind, Option.some.inj hfound]

/-- There is room for a document, and none is there yet. -/
structure Vacant (path : Path) (tree : Tree) : Prop where
  room : Room path tree
  none : tree.get? path.place = none

/-- A document can be made where there is room for one and none is there yet. -/
theorem Creatable.vacant (h : Creatable path tree) : Vacant path tree := by
  obtain ⟨made, hmade, hready, hfree⟩ := h
  have hroom := room_of_made hmade hready
  refine ⟨hroom, ?_⟩
  obtain ⟨made', hmade', -, hget⟩ := hroom.made
  obtain rfl : made = made' := congrArg Prod.snd (hmade.symm.trans hmade')
  have hplace : path.place ∈ places path := List.mem_cons_self
  have hsame : made.get? path.place = tree.get? path.place := by
    rw [hget, if_neg (hroom.off _ hplace)]
  obtain ⟨-, hdirect, hway, hnot⟩ := ready_iff.mp hready
  rw [← hsame]
  rcases hnode : made.get? path.place with - | content | -
  · rfl
  · refine absurd (find_eq_ok_iff.mpr ⟨?_, hnode, fun _ => hdirect⟩) (hfree path.place content)
    exact (resolve_eq_ok_iff_way hroom.named).mpr ⟨hway, rfl⟩
  · exact absurd hnode (hnot _ hplace)

/-- Where no document is, the one that a missing file stands for stands. -/
theorem Vacant.stands (h : Vacant path tree) (format : Format α) :
    Stands format path tree format.absent :=
  ⟨h.room, .inl ⟨h.none, rfl⟩⟩

/-- **A document that stands can be changed**, and the changed one stands. -/
theorem Stands.update (hformat : format.Faithful) (hlock : path.extension? ≠ some "lock")
    {old : α} (h : Stands format path tree old) (change : α → β × α) :
    ∃ tree', (update held format path change).onState tree = (.ok (change old).1, tree') ∧
      Stands format path tree' (change old).2 ∧
      Footprint path (.ofText (format.toJson (change old).2).pretty) tree tree' := by
  obtain ⟨made, hmade, hready, hget⟩ := h.room.made
  have hsame : ∀ place ∈ places path, made.get? place = tree.get? place := fun place hplace => by
    rw [hget, if_neg (h.room.off place hplace)]
  have hplace := hsame path.place List.mem_cons_self
  have hold : loaded format path made = .ok old := by
    rcases h.here with ⟨hnone, rfl⟩ | ⟨⟨content, hfind⟩, hloaded⟩
    · obtain ⟨fault, hfault⟩ := find_of_none h.room.named (hplace.trans hnone)
      exact loaded_of_missing hfault format
    · obtain ⟨hresolve, hfile, hdirect⟩ := find_eq_ok_iff.mp hfind
      have hkeeps := (makeParent_spec hmade).keeps
      have hfound : made.find path = tree.find path := hfind.symm ▸
        find_eq_ok_iff.mpr ⟨hkeeps.resolve hresolve, hplace.trans hfile, hdirect⟩
      rw [loaded_congr hfound, hloaded]
  obtain ⟨tree', hupdate, hready', hchanged⟩ := update_changed hready hlock hold change
  obtain ⟨-, hdirect, hway, -⟩ := ready_iff.mp hready'
  have hfind := find_eq_ok_iff.mpr
    ⟨(resolve_eq_ok_iff_way h.room.named).mpr ⟨hway, rfl⟩, hchanged.here, fun _ => hdirect⟩
  refine ⟨tree', (update_prepared hmade hready format change).trans hupdate,
    ⟨hready'.room, .inr ⟨⟨_, hfind⟩, loaded_of_document hformat hfind⟩⟩,
    hway, hchanged.here, hchanged.fresh, ?_, fun place hoff hnot => ?_⟩
  · obtain ⟨found, hfound, hempty⟩ := hchanged.lock
    exact ⟨found, hfound, fun hnone =>
      hempty ((hsame _ (by simp [places])).trans hnone)⟩
  · simp only [places, List.mem_cons, List.not_mem_nil, or_false, not_or] at hnot
    rw [hchanged.elsewhere place hnot.1 hnot.2.1 hnot.2.2, hget, if_neg hoff]

/-- **Documents that stand are kept**, and so is whatever else no change of theirs concerns. -/
theorem kept_stands (hformat : format.Faithful) (hlock : path.extension? ≠ some "lock")
    {same : Tree → Prop} (hsame : ∀ {tree tree' content}, Room path tree →
      Footprint path content tree tree' → same tree → same tree') :
    Kept format path fun tree value => Stands format path tree value ∧ same tree where
  read h := h.1.loaded_eq
  change := by
    rintro tree old β change ⟨hold, hthere⟩
    obtain ⟨tree', hupdate, hnew, hfootprint⟩ := hold.update hformat hlock change
    exact ⟨tree', hupdate, hnew, hsame hold.room hfootprint hthere⟩

/-! ### Documents that are apart -/

/-- A document spares another one: none of its files is at the place of that document or in its way.
-/
def Spares (path other : Path) : Prop :=
  other.place ∉ places path ∧ ∀ place ∈ places path, place ∉ other.way

/-- Two documents spare each other. -/
def Apart (path other : Path) : Prop := Spares path other ∧ Spares other path

instance (path other : Path) : Decidable (Spares path other) :=
  inferInstanceAs (Decidable (_ ∧ _))

instance (path other : Path) : Decidable (Apart path other) :=
  inferInstanceAs (Decidable (_ ∧ _))

theorem Apart.symm (h : Apart path other) : Apart other path := And.symm h

/-- **What stands apart from a document that is changed stands as before.** -/
theorem Stands.beside {content : Bytes} {value : α} (hother : Stands format other tree value)
    (hapart : Apart path other) (hroom : Room path tree)
    (h : Footprint path content tree tree') : Stands format other tree' value := by
  obtain ⟨⟨hplace, hoff⟩, -, hoff'⟩ := hapart
  refine ⟨hother.room.beside h hoff hoff', ?_⟩
  have hsame := h.elsewhere other.place (hoff' _ List.mem_cons_self) hplace
  refine hother.here.imp (fun hnone => ⟨hsame.trans hnone.1, hnone.2⟩) ?_
  rintro ⟨⟨old, hfind⟩, hloaded⟩
  obtain ⟨hresolve, hfile, hdirect⟩ := find_eq_ok_iff.mp hfind
  have hfind' := find_eq_ok_iff.mpr
    ⟨(h.keeps hroom).resolve hresolve, hsame.trans hfile, hdirect⟩
  exact ⟨⟨old, hfind'⟩, (loaded_congr (hfind'.trans hfind.symm) format).trans hloaded⟩

/-! ### Documents that are not -/

/-- A document can be replaced only where no directory is in its place, or in that of the file that
it is written to. -/
theorem free_of_replace (hsplit : path.split? ≠ none) {value : α}
    (h : (replace held format path value).onState tree = (.ok (), tree')) :
    tree.get? path.place ≠ some .directory ∧
      tree.get? (freshPath path).place ≠ some .directory := by
  rw [replace] at h
  rcases onState_bind_cases h with ⟨_, -, herror⟩ | ⟨_, made, hparent, h⟩
  · cases herror
  have hmade := (makeParent_spec hparent).keeps
  rcases onState_bind_cases h with ⟨_, -, herror⟩ | ⟨_, written, hwrite, h⟩
  · cases herror
  rw [write_onState] at hwrite
  rcases attempt_cases hwrite with ⟨_, herror, -⟩ | ⟨-, hwritten⟩
  · cases herror
  obtain ⟨fresh, found, hfresh, -, hfile, -⟩ := write_spec hwritten
  rw [rename_onState] at h
  rcases attempt_cases h with ⟨_, herror, -⟩ | ⟨-, hrenamed⟩
  · cases herror
  obtain ⟨_, _, place, -, hplace, -, hmoved⟩ := rename_spec hrenamed
  have hnamed := Path.split?_withExtension_ne_none isExtension_tmp hsplit
  rw [((resolve_eq_ok_iff_way hsplit).mp hplace).2] at hmoved
  rw [((resolve_eq_ok_iff_way hnamed).mp hfresh).2] at hfile
  exact ⟨fun hdirectory => hmoved.free (hfile.keeps _ (hmade _ hdirectory)),
    fun hdirectory => hfile.free (hmade _ hdirectory)⟩

/-- **A document can be changed only where no directory is at any of its places.** -/
theorem free_of_update (hsplit : path.split? ≠ none) {change : α → β × α} {result : β}
    (h : (update held format path change).onState tree = (.ok result, tree')) :
    ∀ place ∈ places path, tree.get? place ≠ some .directory := by
  rw [update, holding_eq, makeParent_lockPath] at h
  rcases onState_bind_cases h with ⟨_, -, herror⟩ | ⟨_, made, hparent, h⟩
  · cases herror
  have hmade := (makeParent_spec hparent).keeps
  rcases onState_bind_cases h with ⟨_, -, herror⟩ | ⟨_, locked, hhold, h⟩
  · cases herror
  rw [hold_onState] at hhold
  rcases attempt_cases hhold with ⟨_, herror, -⟩ | ⟨-, hlocked⟩
  · cases herror
  obtain ⟨lock, _, hlock, -, hfile, -⟩ := write_spec hlocked
  have hnamed := Path.split?_withExtension_ne_none isExtension_lock hsplit
  rw [((resolve_eq_ok_iff_way hnamed).mp hlock).2] at hfile
  rcases onState_bind_cases h with ⟨_, -, herror⟩ | ⟨old, _, hload, h⟩
  · cases herror
  rw [load_onState] at hload
  obtain ⟨-, rfl⟩ := Prod.mk.inj hload
  rcases onState_bind_cases h with ⟨_, -, herror⟩ | ⟨_, replaced, hreplace, -⟩
  · cases herror
  obtain ⟨hplace, hfresh⟩ := free_of_replace hsplit hreplace
  refine forall_mem_places.mpr ⟨fun hdirectory => hplace ?_, fun hdirectory => hfresh ?_,
    fun hdirectory => hfile.free (hmade _ hdirectory)⟩
  · exact hfile.keeps _ (hmade _ hdirectory)
  · exact hfile.keeps _ (hmade _ hdirectory)

/-- A document is stuck: changing it fails, whatever it be changed to. -/
def Stuck (format : Format α) (path : Path) (tree : Tree) : Prop :=
  ∀ (β : Type) (change : α → β × α), ∃ e,
    ((update held format path change).onState tree).1 = .error e

section Stuck

variable {content : Bytes}

/-- **A document is stuck** if one of its places is on the way of another one that was changed. -/
theorem stuck_of_way (hsplit : other.split? ≠ none) (h : Footprint path content tree tree')
    {place : List String} (hplace : place ∈ places other) (hway : place ∈ path.way)
    (format : Format α) : Stuck format other tree' := by
  intro β change
  rcases hupdate : (update held format other change).onState tree' with ⟨e | result, after⟩
  · exact ⟨e, rfl⟩
  · exact absurd (h.way place hway) (free_of_update hsplit hupdate place hplace)

/-- **A document is stuck** if its file holds a text that is no document. -/
theorem stuck_of_text (hroom : Room path tree) (hlock : path.extension? ≠ some "lock")
    {text : String} (hfile : tree.get? path.place = some (.file (.ofText text)))
    (htext : (Json.parse? text).bind format.ofJson? = none) : Stuck format path tree := by
  intro β change
  obtain ⟨made, hmade, hready, hget⟩ := hroom.made
  obtain ⟨-, hdirect, hway, -⟩ := ready_iff.mp hready
  have hfind : made.find path = .ok (path.place, .file (.ofText text)) := by
    refine find_eq_ok_iff.mpr ⟨(resolve_eq_ok_iff_way hroom.named).mpr ⟨hway, rfl⟩, ?_,
      fun _ => hdirect⟩
    rw [hget, if_neg (hroom.off _ List.mem_cons_self), hfile]
  have hunread : loaded format path made =
      .error (.storage ("failed to parse " ++ path ++ ": " ++ unreadable)) := by
    rw [loaded_of_text hfind, understood, htext]
  rw [update_prepared hmade hready]
  exact ⟨_, update_unread hready hlock hunread change⟩

/-- **A document is stuck** if the file that another one is held by was made at its place. -/
theorem stuck_of_lock (hroom : Room other tree') (hlock : other.extension? ≠ some "lock")
    (h : Footprint path content tree tree') (hnone : tree.get? other.place = none)
    (heq : other.place = (lockPath path).place) (format : Format α) :
    Stuck format other tree' := by
  obtain ⟨found, hfound, hempty⟩ := h.lock
  rw [← heq] at hfound hempty
  rw [hempty hnone] at hfound
  have htext : Bytes.ofText "" = [] := by simp [Bytes.ofText_eq]
  exact stuck_of_text hroom hlock (htext ▸ hfound) rfl

end Stuck

/-- **A document is lost** if another one is written to a file at its place. -/
theorem loaded_of_lost {content : Bytes} (hsplit : other.split? ≠ none)
    (h : Footprint path content tree tree') (hne : other.place ≠ path.place)
    (heq : other.place = (freshPath path).place) (format : Format α) :
    loaded format other tree' = .ok format.absent := by
  have hnone : tree'.get? other.place = none := by
    rw [heq] at hne ⊢
    exact h.fresh hne
  obtain ⟨fault, hfault⟩ := find_of_none hsplit hnone
  exact loaded_of_missing hfault format

/-- No document is there still, unless another one was changed there, or held. -/
theorem Vacant.beside {content : Bytes} (hother : Vacant other tree) (hroom : Room other tree')
    (h : Footprint path content tree tree') (hway : other.place ∉ path.way)
    (hne : other.place ≠ path.place) (hlock : other.place ≠ (lockPath path).place) :
    Vacant other tree' := by
  refine ⟨hroom, ?_⟩
  by_cases heq : other.place = (freshPath path).place
  · rw [heq] at hne ⊢
    exact h.fresh hne
  · rw [h.elsewhere other.place hway (by simp [places, hne, heq, hlock]), hother.none]

end ProxyUpgrade.Document
