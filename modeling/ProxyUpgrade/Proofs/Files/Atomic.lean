import ProxyUpgrade.Proofs.Files.Document
/-!
# Changes of a document are atomic

Whatever a tree of files holds, changing a document in it (`Document.update`) either succeeds, and
then what is read afterwards is what the change makes of the document that was there, or it fails,
and then the file of the document is as it was; and no file changes but that one and the two beside
it (`Document.update_atomic`).

The document that was there is the one that is read when the directory of the path has been made,
which is the first thing that is done. It is the one that was read before, unless the path goes back
up (`..`) from a directory that was missing: then the path led nowhere before, and leads to whatever
lies there once that directory is made.
-/

namespace ProxyUpgrade.Document

open ProxyUpgrade.Action Files Files.Tree

variable {α β : Type} {format : Format α} {path : Path} {tree tree' : Tree}

/-- What changing a document comes to: a result, and the tree that is left. -/
structure Atomic (format : Format α) (path : Path) (change : α → β × α) (tree : Tree)
    (outcome : Except Error β × Tree) : Prop where
  /-- After a success, what the change makes of the document is read. -/
  changed : ∀ value, outcome.1 = .ok value →
    ∃ old, loaded format path (prepared path tree) = .ok old ∧ value = (change old).1 ∧
      loaded format path outcome.2 = .ok (change old).2
  /-- The document is the one that was read before, if the path led somewhere or never goes up. -/
  before : ∀ value, outcome.1 = .ok value →
    (∃ names, tree.resolve path = .ok names) ∨ ".." ∉ path.components →
      loaded format path tree = loaded format path (prepared path tree)
  /-- After a failure, the file of the document has the content it had, or none as before. -/
  kept : ∀ error, outcome.1 = .error error → ∀ names,
    tree.resolve path = .ok names ∨ outcome.2.resolve path = .ok names →
      outcome.2.file? names = tree.file? names
  /-- No file changes but that of the document and the two beside it. -/
  others : ∀ names, outcome.2.resolve path ≠ .ok names →
    outcome.2.resolve (freshPath path) ≠ .ok names →
      outcome.2.resolve (lockPath path) ≠ .ok names → outcome.2.file? names = tree.file? names

/-- Making directories does not make a file of the document. -/
theorem find_eq_of_touches (htouches : Touches [] tree tree')
    (hlead : (∃ names, tree.resolve path = .ok names) ∨ ".." ∉ path.components)
    {names : List String} {content : Bytes} (h : tree'.find path = .ok (names, .file content)) :
    tree.find path = .ok (names, .file content) := by
  obtain ⟨hresolve', hfile', hdirect⟩ := find_eq_ok_iff.mp h
  have hfile : tree.get? names = some (.file content) := by
    rw [← file?_eq_some_iff, ← htouches.files names (by simp), file?_eq_some_iff]
    exact hfile'
  have hresolve : tree.resolve path = .ok names := by
    rcases hlead with ⟨place, hplace⟩ | hup
    · rw [hplace, ← hresolve', htouches.keeps.resolve hplace]
    · have hpath : path ≠ "" := by
        rintro rfl
        cases hresolve'
      rw [resolve_eq hpath] at hresolve' ⊢
      obtain rfl := walk_of_no_up hup hresolve'
      exact walk_of_get? (by simp [hfile]) hup
  exact find_eq_ok_iff.mpr ⟨hresolve, hfile, hdirect⟩

/-- What is missing when the directories have been made was missing before. -/
theorem exists_find_error_of_touches (htouches : Touches [] tree tree') {fault : Fault}
    (h : tree'.find path = .error fault) : ∃ fault, tree.find path = .error fault := by
  rcases hfind : tree.find path with fault | ⟨names, node⟩
  · exact ⟨fault, rfl⟩
  obtain ⟨hresolve, hnode, hdirect⟩ := find_eq_ok_iff.mp hfind
  have hnode' : tree'.get? names = some node := by
    cases node with
    | directory => exact htouches.keeps names hnode
    | file content =>
      rw [← file?_eq_some_iff, htouches.files names (by simp), file?_eq_some_iff]
      exact hnode
  rw [find_eq_ok_iff.mpr ⟨htouches.keeps.resolve hresolve, hnode', hdirect⟩] at h
  cases h

/-- **The document read before is the one that is changed.** -/
theorem loaded_prepared {old : α} (h : loaded format path (prepared path tree) = .ok old)
    (hlead : (∃ names, tree.resolve path = .ok names) ∨ ".." ∉ path.components) :
    loaded format path tree = loaded format path (prepared path tree) := by
  have htouches : Touches [] tree (prepared path tree) := makeParent_spec rfl
  rcases hfind : (prepared path tree).find path with fault | ⟨names, content | _⟩
  · obtain ⟨fault', hmissing⟩ := exists_find_error_of_touches htouches hfind
    rw [loaded_of_missing hfind, loaded_of_missing hmissing]
  · refine loaded_congr ?_ format
    rw [hfind, find_eq_of_touches htouches hlead hfind]
  · have hread : (prepared path tree).read path = .error .isADirectory := by
      simp [Tree.read, hfind, bind, Except.bind, throw, throwThe, MonadExceptOf.throw]
    rw [loaded_of_find hfind, hread] at h
    cases h

/-- **Changing a document is atomic.** -/
theorem update_atomic (hformat : format.Faithful) (hlock : path.extension? ≠ some "lock")
    (htmp : path.extension? ≠ some "tmp") (change : α → β × α) :
    Atomic format path change tree ((update held format path change).onState tree) := by
  generalize hupdate : (update held format path change).onState tree = outcome
  obtain ⟨result, tree'⟩ := outcome
  rcases update_cases hlock hupdate with
    ⟨e, rfl, htouches | ⟨hsplit, htouches⟩⟩ | ⟨old, names, hsplit, hold, rfl, htouches, hfind⟩
  · exact ⟨by simp, by simp, fun _ _ names _ => htouches.files names (by simp),
      fun names _ _ _ => htouches.files names (by simp)⟩
  · refine ⟨by simp, by simp, fun _ _ names hnames => htouches.files names ?_,
      fun names _ hfresh hlocked => htouches.files names (by simpa using ⟨hfresh, hlocked⟩)⟩
    have hresolve : tree'.resolve path = .ok names :=
      hnames.elim (fun h => htouches.keeps.resolve h) id
    -- The files beside the document have other names.
    intro beside hbeside hnames
    simp only [List.mem_cons, List.not_mem_nil, or_false] at hbeside
    rcases hbeside with rfl | rfl
    · obtain ⟨place, hplace, hne⟩ := resolve_beside isExtension_tmp hsplit htmp hnames
      exact hne (Except.ok.inj (hplace.symm.trans hresolve))
    · obtain ⟨place, hplace, hne⟩ := resolve_beside isExtension_lock hsplit hlock hnames
      exact hne (Except.ok.inj (hplace.symm.trans hresolve))
  · refine ⟨fun value hvalue => ?_, fun _ _ hlead => loaded_prepared hold hlead, by simp,
      fun names hpath hfresh hlocked => htouches.files names (by
        simpa using ⟨hpath, hfresh, hlocked⟩)⟩
    obtain rfl := Except.ok.inj hvalue
    exact ⟨old, hold, rfl, loaded_of_document hformat hfind⟩

end ProxyUpgrade.Document
