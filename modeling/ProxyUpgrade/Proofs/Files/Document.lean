import ProxyUpgrade.Files.Document
import ProxyUpgrade.Proofs.Bytes.Text
import ProxyUpgrade.Proofs.Files.Tree
import ProxyUpgrade.Proofs.Json.RoundTrip
import ProxyUpgrade.Proofs.State
/-!
# Documents in a tree of files

What changing a document does to a tree of files. Each step of `Document.update` may fail, and
whatever was done up to there has touched the files beside the document only
(`Document.update_cases`). If none fails, the document read in the beginning is the one that the
change was made to, and what the change made of it is in the file in the end.

The document that is read is that of the tree in which the directory of the path has been made
(`Document.prepared`).
-/

namespace ProxyUpgrade.Document

open ProxyUpgrade.Action Files Files.Tree

variable {α β : Type} {tree tree' : Tree} {path : Path} {format : Format α}

/-- The files of a program whose surroundings are a tree. -/
abbrev held : Files (StateM Tree) := Files.ofTree Cell.state

/-! ### Single steps -/

/-- What stands in place of the reason why an operation failed. -/
def said (what : String) (outcome : Except Fault α) : Except Error α :=
  outcome.mapError fun fault => .storage (what ++ ": " ++ fault.message)

theorem checked_onState {outcome : StateM Tree (Except Fault α)} {result : Except Fault α}
    (what : String) (h : outcome.run tree = pure (result, tree')) :
    (checked what outcome).onState tree = (said what result, tree') := by
  change Id.run ((outcome >>= _).run tree) = _
  rw [StateT.run_bind, h]
  cases result <;> rfl

theorem present_onState (path : Path) (tree : Tree) :
    onState (ExceptT.lift (held.present path)) tree = (.ok (tree.find path).isOk, tree) := rfl

theorem read_onState (what : String) (path : Path) (tree : Tree) :
    (checked what (held.read path)).onState tree = (said what (tree.read path), tree) :=
  checked_onState what rfl

theorem hold_onState (what : String) (path : Path) (tree : Tree) :
    (checked what (held.hold path)).onState tree =
      (said what (tree.attempt (tree.write path [] true)).1,
        (tree.attempt (tree.write path [] true)).2) :=
  checked_onState what rfl

theorem write_onState (what : String) (path : Path) (text : String) (tree : Tree) :
    (checked what (held.write path text)).onState tree =
      (said what (tree.attempt (tree.write path (.ofText text) false)).1,
        (tree.attempt (tree.write path (.ofText text) false)).2) :=
  checked_onState what rfl

theorem rename_onState (what : String) (source target : Path) (tree : Tree) :
    (checked what (held.rename source target)).onState tree =
      (said what (tree.attempt (tree.rename source target)).1,
        (tree.attempt (tree.rename source target)).2) :=
  checked_onState what rfl

theorem makeDirectory_onState (what : String) (path : Path) (tree : Tree) :
    (checked what (held.makeDirectory path)).onState tree =
      (said what (tree.makeDirectory path).1, (tree.makeDirectory path).2) :=
  checked_onState what rfl

/-! ### Reading -/

/-- The document that is read in a tree. -/
def loaded (format : Format α) (path : Path) (tree : Tree) : Except Error α :=
  ((load held format path).onState tree).1

theorem load_onState (format : Format α) (path : Path) (tree : Tree) :
    (load held format path).onState tree = (loaded format path tree, tree) := by
  refine Prod.ext rfl ?_
  rw [load, onState_bind_ok (present_onState path tree)]
  split
  · rw [onState_bind, read_onState]
    rcases tree.read path with fault | text
    · rfl
    · simp only [said, Except.mapError]
      split <;> rfl
  · rfl

theorem loaded_of_missing {fault : Fault} (h : tree.find path = .error fault) (format : Format α) :
    loaded format path tree = .ok format.absent := by
  rw [loaded, load, onState_bind_ok (present_onState path tree), h]
  rfl

/-- What a text is read as. -/
def understood (format : Format α) (path : Path) (text : String) : Except Error α :=
  match (Json.parse? text).bind format.ofJson? with
  | some value => .ok value
  | none => .error (.storage ("failed to parse " ++ path ++ ": " ++ unreadable))

theorem understood_eq_ok_iff {text : String} {value : α} :
    understood format path text = .ok value ↔
      ∃ json, Json.parse? text = some json ∧ format.ofJson? json = some value := by
  rw [← Option.bind_eq_some_iff, understood]
  rcases (Json.parse? text).bind format.ofJson? with - | found <;> simp

/-- What is read of a file that is there. -/
theorem loaded_of_find {names : List String} {node : Node} (h : tree.find path = .ok (names, node))
    (format : Format α) :
    loaded format path tree =
      (said ("failed to read " ++ path) (tree.read path)).bind (understood format path) := by
  rw [loaded, load, onState_bind_ok (present_onState path tree), h, if_pos (by rfl), onState_bind,
    read_onState]
  rcases tree.read path with fault | text
  · rfl
  · change (onState (match (Json.parse? text).bind format.ofJson? with
      | some value => _
      | none => _) tree).1 = understood format path text
    rw [understood]
    rcases (Json.parse? text).bind format.ofJson? with - | value <;> rfl

/-- The same document is read wherever the path finds the same. -/
theorem loaded_congr (h : tree'.find path = tree.find path) (format : Format α) :
    loaded format path tree' = loaded format path tree := by
  rcases hfind : tree.find path with fault | ⟨names, node⟩
  · rw [loaded_of_missing hfind, loaded_of_missing (h.trans hfind)]
  · rw [loaded_of_find hfind, loaded_of_find (h.trans hfind), Tree.read, Tree.read, h]

/-- A format whose documents are read back. -/
structure Format.Faithful (format : Format α) : Prop where
  exact : ∀ value, (format.toJson value).IsExact
  back : ∀ value, format.ofJson? (format.toJson value) = some value

theorem loaded_of_text {names : List String} {text : String}
    (h : tree.find path = .ok (names, .file (.ofText text))) (format : Format α) :
    loaded format path tree = understood format path text := by
  have hread : tree.read path = .ok text := by
    simp [Tree.read, h, Bytes.toText?_ofText, bind, Except.bind, pure, Except.pure]
  rw [loaded_of_find h, hread]
  rfl

/-- **A document is read back from its file.** -/
theorem loaded_of_document (hformat : format.Faithful) {value : α} {names : List String}
    (h : tree.find path = .ok (names, .file (.ofText (format.toJson value).pretty))) :
    loaded format path tree = .ok value := by
  rw [loaded_of_text h]
  exact understood_eq_ok_iff.mpr
    ⟨_, Json.parse?_pretty (hformat.exact value), hformat.back value⟩

/-! ### Files beside the document -/

/-- The path of the file that is held while a document is changed. -/
abbrev lockPath (path : Path) : Path := path.withExtension "lock"

/-- The path of the file that a new document is written to. -/
abbrev freshPath (path : Path) : Path := path.withExtension "tmp"

theorem isExtension_lock : Path.IsExtension "lock" := by simp [Path.IsExtension]

theorem isExtension_tmp : Path.IsExtension "tmp" := by simp [Path.IsExtension]

/-- A file beside a document lies in the same directory, under another name. -/
theorem resolve_beside {extension : String} (hextension : Path.IsExtension extension)
    (hsplit : path.split? ≠ none) (hne : path.extension? ≠ some extension) {names : List String}
    (h : tree.resolve (path.withExtension extension) = .ok names) :
    ∃ place, tree.resolve path = .ok place ∧ place ≠ names := by
  rcases hsplit' : path.split? with - | ⟨directory, name⟩
  · exact absurd hsplit' hsplit
  obtain ⟨base, hbase, hdirectory, rfl⟩ :=
    (resolve_eq_ok_iff (Path.split?_withExtension hextension hsplit').1).mp h
  refine ⟨_, (resolve_eq_ok_iff hsplit').mpr ⟨base, hbase, hdirectory, rfl⟩, fun heq => ?_⟩
  have hname : String.ofList name = String.ofList (Path.renamed extension name) := by
    simpa using List.append_inj_right' heq rfl
  exact Path.name_ne hsplit' hne (String.ofList_injective hname).symm

/-- A file beside a document is not in the way of the document. -/
theorem find_of_written {extension : String} (hextension : Path.IsExtension extension)
    (hsplit : path.split? ≠ none) (hne : path.extension? ≠ some extension) {names : List String}
    {content : Bytes} (hresolve : tree.resolve (path.withExtension extension) = .ok names)
    (h : Written names content tree tree') : tree'.find path = tree.find path := by
  obtain ⟨place, hplace, hother⟩ := resolve_beside hextension hsplit hne hresolve
  rw [find, find, hplace, h.keeps.resolve hplace]
  simp only [bind, Except.bind, h.elsewhere place hother]

/-! ### Changing a document -/

/-- The tree in which the directory of a path has been made. -/
def prepared (path : Path) (tree : Tree) : Tree := ((makeParent held path).onState tree).2

/-- Making the directory of a path touches no file. -/
theorem makeParent_spec {result : Except Error Unit}
    (h : (makeParent held path).onState tree = (result, tree')) : Touches [] tree tree' := by
  rw [makeParent] at h
  split at h
  next parent hparent =>
    split at h
    · obtain ⟨-, rfl⟩ := Prod.mk.inj h
      exact .refl _ _
    · rw [makeDirectory_onState] at h
      obtain ⟨-, rfl⟩ := Prod.mk.inj h
      exact (makeDirectory_spec rfl).1
  next =>
    obtain ⟨-, rfl⟩ := Prod.mk.inj h
    exact .refl _ _

theorem makeParent_lockPath (path : Path) :
    makeParent held (lockPath path) = makeParent held path := by
  rw [makeParent, makeParent, Path.parent?_withExtension isExtension_lock]

/-- What is done while a file is held is done as if it were not. -/
theorem holding_eq (lock : Path) (action : Action (StateM Tree) α) :
    holding held lock action = (do
      makeParent held lock
      checked ("failed to open lock " ++ lock) (held.hold lock)
      action) := rfl

/-- An operation that fails leaves the tree as it is. -/
theorem attempt_cases {what : String} {changed : Except Fault Tree} {result : Except Error Unit}
    (h : (said what (tree.attempt changed).1, (tree.attempt changed).2) = (result, tree')) :
    (∃ e, result = .error e ∧ tree' = tree) ∨ (result = .ok () ∧ changed = .ok tree') := by
  obtain ⟨rfl, rfl⟩ := Prod.mk.inj h
  rcases changed with fault | made
  · exact .inl ⟨_, rfl, rfl⟩
  · exact .inr ⟨rfl, rfl⟩

/-- **Replacing a document** touches the new file beside it until that file takes its place. -/
theorem replace_cases {value : α} {result : Except Error Unit}
    (h : (replace held format path value).onState tree = (result, tree')) :
    (∃ e, result = .error e ∧ Touches [freshPath path] tree tree') ∨
      (result = .ok () ∧ Touches [path, freshPath path] tree tree' ∧ ∃ names,
        tree'.find path = .ok (names, .file (.ofText (format.toJson value).pretty))) := by
  rw [replace] at h
  rcases onState_bind_cases h with ⟨e, hparent, rfl⟩ | ⟨_, made, hparent, h⟩
  · exact .inl ⟨e, rfl, (makeParent_spec hparent).mono (by simp)⟩
  have hmade := makeParent_spec hparent
  rcases onState_bind_cases h with ⟨e, hwrite, rfl⟩ | ⟨_, written, hwrite, h⟩
  · rw [write_onState] at hwrite
    rcases attempt_cases hwrite with ⟨-, -, rfl⟩ | ⟨hok, -⟩
    · exact .inl ⟨e, rfl, hmade.mono (by simp)⟩
    · cases hok
  rw [write_onState] at hwrite
  rcases attempt_cases hwrite with ⟨_, hfailed, -⟩ | ⟨-, hwritten⟩
  · cases hfailed
  obtain ⟨fresh, found, hfresh, -, hfile, hfound⟩ := write_spec hwritten
  obtain rfl := hfound rfl
  have htouches : Touches [freshPath path] tree written :=
    (hmade.mono (by simp)).trans (hfile.touches hfresh)
  rw [rename_onState] at h
  rcases attempt_cases h with ⟨e, rfl, rfl⟩ | ⟨rfl, hrenamed⟩
  · exact .inl ⟨e, rfl, htouches⟩
  · obtain ⟨source, content, place, hsource, hplace, hdirect, hmoved⟩ := rename_spec hrenamed
    obtain ⟨hresolve, hcontent, -⟩ := find_eq_ok_iff.mp hsource
    -- The file that is moved is the one that was written.
    obtain rfl : fresh = source :=
      Except.ok.inj ((hfile.keeps.resolve hfresh).symm.trans hresolve)
    obtain rfl : Bytes.ofText (format.toJson value).pretty = content := by
      simpa [hfile.here] using hcontent
    refine .inr ⟨rfl, (htouches.mono (by simp)).trans
      ((hmoved.touches hresolve hplace).mono (by simp)), place, ?_⟩
    exact find_eq_ok_iff.mpr ⟨hmoved.keeps.resolve hplace, hmoved.here, fun _ => hdirect⟩

/-- **Changing a document.** Either it fails, having touched nothing but the files beside the
document; or the document that was read is that of the prepared tree, and the file holds what the
change made of it. -/
theorem update_cases (hlock : path.extension? ≠ some "lock")
    {change : α → β × α} {result : Except Error β}
    (h : (update held format path change).onState tree = (result, tree')) :
    (∃ e, result = .error e ∧ (Touches [] tree tree' ∨
      path.split? ≠ none ∧ Touches [freshPath path, lockPath path] tree tree')) ∨
    ∃ old names, path.split? ≠ none ∧ loaded format path (prepared path tree) = .ok old ∧
      result = .ok (change old).1 ∧ Touches [path, freshPath path, lockPath path] tree tree' ∧
      tree'.find path = .ok (names, .file (.ofText (format.toJson (change old).2).pretty)) := by
  rw [update, holding_eq, makeParent_lockPath] at h
  rcases onState_bind_cases h with ⟨e, hparent, rfl⟩ | ⟨_, made, hparent, h⟩
  · exact .inl ⟨e, rfl, .inl (makeParent_spec hparent)⟩
  have hmade := makeParent_spec hparent
  have hprepared : prepared path tree = made := congrArg Prod.snd hparent
  rcases onState_bind_cases h with ⟨e, hhold, rfl⟩ | ⟨_, locked, hhold, h⟩
  · rw [hold_onState] at hhold
    rcases attempt_cases hhold with ⟨-, -, rfl⟩ | ⟨hok, -⟩
    · exact .inl ⟨e, rfl, .inl hmade⟩
    · cases hok
  rw [hold_onState] at hhold
  rcases attempt_cases hhold with ⟨_, hfailed, -⟩ | ⟨-, hwritten⟩
  · cases hfailed
  have hsplit : path.split? ≠ none := by
    intro hnone
    rw [Path.withExtension_of_no_split hnone] at hwritten
    obtain ⟨fault, hfault⟩ := write_of_no_split hnone [] true
    rw [hfault] at hwritten
    cases hwritten
  obtain ⟨lock, found, hresolve, -, hfile, -⟩ := write_spec hwritten
  have hlocked : Touches [lockPath path] tree locked :=
    (hmade.mono (by simp)).trans (hfile.touches hresolve)
  have hsame : loaded format path locked = loaded format path made :=
    loaded_congr (find_of_written isExtension_lock hsplit hlock hresolve hfile) format
  rcases onState_bind_cases h with ⟨e, hload, rfl⟩ | ⟨old, _, hload, h⟩
  · rw [load_onState] at hload
    obtain ⟨-, rfl⟩ := Prod.mk.inj hload
    exact .inl ⟨e, rfl, .inr ⟨hsplit, hlocked.mono (by simp)⟩⟩
  rw [load_onState] at hload
  obtain ⟨hold, rfl⟩ := Prod.mk.inj hload
  rcases onState_bind_cases h with ⟨e, hreplace, rfl⟩ | ⟨_, replaced, hreplace, h⟩
  · rcases replace_cases hreplace with ⟨-, -, htouches⟩ | ⟨hok, -⟩
    · exact .inl ⟨e, rfl, .inr ⟨hsplit, (hlocked.mono (by simp)).trans (htouches.mono (by simp))⟩⟩
    · cases hok
  rcases replace_cases hreplace with ⟨_, hfailed, -⟩ | ⟨-, htouches, names, hfind⟩
  · cases hfailed
  · obtain ⟨rfl, rfl⟩ := Prod.mk.inj h
    rw [hsame] at hold
    exact .inr ⟨old, names, hsplit, by rw [hprepared, hold], rfl,
      (hlocked.mono (by simp)).trans (htouches.mono (by simp)), hfind⟩

end ProxyUpgrade.Document
