import ProxyUpgrade.Proofs.Files.Refusal
import ProxyUpgrade.Proofs.Files.Stores
import ProxyUpgrade.Proofs.Registry.Interleaving
/-!
# Saving several proxies at the same time

Proxies of different deployments can be saved at the same time, in memory as in a file: however the
calls take turns, each returns what it does when they are made one after another in any order, and
the same rows are there in the end (`Registry.saves_undisturbed`). A store that keeps a table serves
each call as if there were no other, as a write concerns one row (`Registry.Store.Keeps.serves`); so
does a file that can never be written, as nothing is ever there but what was before.

The path of the file has to lead somewhere, or never to go up. Else the first write may bring rows
into sight that were not there for calls that have been made before it, and a call that has not
found its row writes over it (`Registry.hidden_row_overwritten`).
-/

namespace ProxyUpgrade.Registry

open ProxyUpgrade.Action Document

variable {σ : Type} {store : Store (StateM σ)} {holds : σ → Table → Prop} {table : Table}
  {saves : List Save}

/-! ### Rows of a table -/

namespace Table

/-- A table has the rows of another one, and some more. -/
def Extends (table : Table) (rows : List Entry) (now : Table) : Prop :=
  ∀ id address, now.get? id = some address ↔ table.get? id = some address ∨ ⟨id, address⟩ ∈ rows

variable {rows : List Entry} {now : Table} {id : String}

theorem Extends.get?_eq_none (h : Extends table rows now) (hfree : table.get? id = none)
    (hnew : ∀ row ∈ rows, row.id ≠ id) : now.get? id = none := by
  rw [Option.eq_none_iff_forall_ne_some]
  intro address hfound
  rcases (h id address).mp hfound with hthere | hrow
  · cases hfree.symm.trans hthere
  · exact hnew _ hrow rfl

/-- A table with one more row. -/
theorem Extends.insert (h : Extends table rows now) (hfree : table.get? id = none)
    (hnew : ∀ row ∈ rows, row.id ≠ id) (address : Address) :
    Extends table (⟨id, address⟩ :: rows) (now.insert id address) := by
  intro other found
  rcases eq_or_ne other id with rfl | hne
  · have hnot : (⟨other, found⟩ : Entry) ∉ rows := fun hrow => hnew _ hrow rfl
    simp [hfree, hnot, eq_comm]
  · simp [get?_insert_of_ne hne, h other found, hne]

end Table

/-! ### Stores that serve each call -/

/-- **A store that keeps a table serves each call as if there were no other.** -/
theorem Store.Keeps.serves (h : store.Keeps holds) (table : Table) :
    store.Serves table (.ok ()) fun s rows =>
      ∃ now, holds s now ∧ Table.Extends table rows now where
  found := by
    rintro s rows id address ⟨now, hs, hnow⟩ hget
    rw [h.get id hs, (hnow id address).mpr (.inl hget)]
  free := by
    rintro s rows id ⟨now, hs, hnow⟩ hfree hnew
    exact .inl (by rw [h.get id hs, hnow.get?_eq_none hfree hnew])
  set := by
    rintro s rows id address ⟨now, hs, hnow⟩ hfree hnew
    obtain ⟨s', hset, hs'⟩ := h.set id address hs
    exact ⟨s', hset, _, hs', hnow.insert hfree hnew address⟩
  same := by
    rintro s s' rows rows' ⟨now, hs, hnow⟩ ⟨now', hs', hnow'⟩ hrows
    rw [h.entries hs, h.entries hs']
    have hsame : now = now' := Table.ext_of_mem fun row => by
      rw [Table.mem_rows_iff, Table.mem_rows_iff, hnow, hnow', hrows]
    rw [hsame]
  listed := by
    rintro s rows ⟨now, hs, hnow⟩
    refine .inl ⟨now, by rw [h.entries hs], fun row => ?_⟩
    rw [Table.mem_rows_iff, hnow, Table.mem_rows_iff, and_iff_right rfl]

variable {path : Path} {tree left : Files.Tree} {e : Error}

/-- **A file that can never be written serves each call as if there were no other.** -/
theorem serves_of_refused {refuses : Files.Tree → Prop}
    (h : Refused Table.format path table e refuses) :
    (Store.file held path).Serves table (.error e) fun tree _ => refuses tree where
  found hs hget := by rw [file_get_onState, h.read hs, Except.map, hget]
  free hs hfree _ := .inl (by rw [file_get_onState, h.read hs, Except.map, hfree])
  set address hs _ _ := h.change (fun table => ((), table.insert _ address)) hs
  same hs hs' _ := by rw [file_entries_onState, file_entries_onState, h.read hs, h.read hs']
  listed hs := .inl ⟨table, by rw [file_entries_onState, h.read hs, Except.map], by simp⟩

/-- So does a file that is spoiled when it is to be made. -/
theorem serves_of_spoiled (hload : loaded Table.format path tree = .ok .empty)
    (h : Spoiled Table.format path tree e left) :
    (Store.file held path).Serves .empty (.error e) fun s rows =>
      s = tree ∧ rows = [] ∨ s = left ∧ rows ≠ [] where
  found _ hget := by cases hget
  free := by
    rintro s rows id (⟨rfl, rfl⟩ | ⟨rfl, hrows⟩) - -
    · exact .inl (by rw [file_get_onState, hload]; rfl)
    · refine .inr ⟨e, rfl, ?_, fun address => .inr ⟨rfl, List.cons_ne_nil _ _⟩⟩
      rw [file_get_onState, h.unread]
      rfl
  set := by
    rintro s rows id address (⟨rfl, rfl⟩ | ⟨rfl, hrows⟩) - -
    · exact ⟨left, h.first fun table => ((), table.insert id address),
        .inr ⟨rfl, List.cons_ne_nil _ _⟩⟩
    · exact ⟨s, h.again fun table => ((), table.insert id address),
        .inr ⟨rfl, List.cons_ne_nil _ _⟩⟩
  same := by
    rintro s s' rows rows' (⟨rfl, rfl⟩ | ⟨rfl, hrows⟩) (⟨rfl, rfl⟩ | ⟨rfl, hrows'⟩) hmem
    · rfl
    · exact absurd (List.eq_nil_iff_forall_not_mem.mpr fun row hrow => by
        simpa using (hmem row).mpr hrow) hrows'
    · exact absurd (List.eq_nil_iff_forall_not_mem.mpr fun row hrow => by
        simpa using (hmem row).mp hrow) hrows
    · rfl
  listed := by
    rintro s rows (⟨rfl, rfl⟩ | ⟨rfl, hrows⟩)
    · exact .inl ⟨.empty, by rw [file_entries_onState, hload, Except.map], by simp [Table.empty]⟩
    · exact .inr ⟨rfl, e, rfl⟩

/-! ### Both stores -/

/-- **Proxies of different deployments can be saved at the same time in a file**, whether it can be
written or not. -/
theorem undisturbed_file (hvalid : ∀ save ∈ saves, save.key.Valid)
    (hdistinct : (saves.map Save.key).Nodup)
    (hlead : (∃ names, tree.resolve path = .ok names) ∨ ".." ∉ path.components)
    (hload : loaded Table.format path tree = .ok table) :
    Undisturbed (Store.file held path) tree table saves := by
  cases settled Table.faithful hlead hload with
  | kept h hvalue =>
    exact ((keeps_of_kept h).serves table).undisturbed ⟨table, hvalue, by simp [Table.Extends]⟩
      hvalid hdistinct
  | refused h htree => exact (serves_of_refused h).undisturbed htree hvalid hdistinct
  | spoiled h habsent =>
    subst habsent
    exact (serves_of_spoiled hload h).undisturbed (.inl ⟨rfl, rfl⟩) hvalid hdistinct

/-- **Proxies of different deployments can be saved at the same time**, from any table in memory,
and from any table in a file whose path leads somewhere or never goes up. -/
theorem saves_undisturbed (saves : List Save) (hvalid : ∀ save ∈ saves, save.key.Valid)
    (hdistinct : (saves.map Save.key).Nodup) :
    (∀ table : Table, Undisturbed (Store.memory Cell.state) table table saves) ∧
    ∀ (path : Path) (tree : Files.Tree) (table : Table),
      (∃ names, tree.resolve path = .ok names) ∨ ".." ∉ path.components →
      ((Store.file held path).entries.onState tree).1 = .ok table.rows →
        Undisturbed (Store.file held path) tree table saves := by
  refine ⟨fun table => ?_, fun path tree table hlead hentries => ?_⟩
  · exact (keeps_memory.serves table).undisturbed ⟨table, rfl, by simp [Table.Extends]⟩ hvalid
      hdistinct
  · exact undisturbed_file hvalid hdistinct hlead (entries_eq_ok_iff.mp hentries)

/-! ### Two calls -/

/-- A call for a deployment that has a row in the tree of one table. -/
def saveOld : Save := ⟨⟨⟨"Old", []⟩, none⟩, ⟨2⟩⟩

/-- A call for one that has none. -/
def saveNew : Save := ⟨⟨⟨"New", []⟩, none⟩, ⟨3⟩⟩

theorem valid_saves : ∀ save ∈ [saveOld, saveNew], save.key.Valid := by
  simp only [List.forall_mem_cons, List.not_mem_nil, false_implies, implies_true, and_true]
  exact ⟨Key.exists_id_iff.mp ⟨"Old", rfl⟩, Key.exists_id_iff.mp ⟨"New", rfl⟩⟩

/-- Both calls ask for their rows before the one that has none writes it. -/
example : (Store.memory Cell.state).interleaved [saveOld, saveNew] [0, 1, 1] rowTable =
    ([.done (.error (.registryInconsistency (conflict "Old" ⟨1⟩ ⟨2⟩))), .done (.ok ())],
      rowTable.insert "New" ⟨3⟩) := rfl

/-- The two calls are made at the same time on the table of one row. -/
theorem saves_undisturbed_row :
    (∀ save ∈ [saveOld, saveNew], save.key.Valid) ∧ ([saveOld, saveNew].map Save.key).Nodup ∧
    ".." ∉ Path.components "t.json" ∧
    ((Store.file held "t.json").entries.onState rowTree).1 = .ok rowTable.rows ∧
    Undisturbed (Store.memory Cell.state) rowTable rowTable [saveOld, saveNew] ∧
    Undisturbed (Store.file held "t.json") rowTree rowTable [saveOld, saveNew] := by
  have hdistinct : ([saveOld, saveNew].map Save.key).Nodup := by decide
  have hup : ".." ∉ Path.components "t.json" := by decide +kernel
  have hload : ((Store.file held "t.json").entries.onState rowTree).1 = .ok rowTable.rows :=
    entries_eq_ok_iff.mpr rowTree_loaded
  obtain ⟨hmemory, hfile⟩ := saves_undisturbed [saveOld, saveNew] valid_saves hdistinct
  exact ⟨valid_saves, hdistinct, hup, hload, hmemory rowTable,
    hfile "t.json" rowTree rowTable (.inr hup) hload⟩

/-- A call on the tree of one table, at a path that does not lead to it yet, does not find the row.
-/
theorem answer_winding {save : Save} (hid : save.key.id = .ok save.row.id) : ∃ tree,
    answer (Store.file held windingPath) rowTree save.call = (.saved (.ok ()), tree) ∧
      Holds Table.format windingPath tree (rowTable.insert save.row.id save.address) := by
  have hlock : windingPath.extension? ≠ some "lock" := by decide
  have hholds : Holds Table.format windingPath windingTree rowTable :=
    ⟨windingPath_loaded, windingTree, makeParent_ready windingPath_ready, windingPath_ready,
      windingPath_loaded⟩
  obtain ⟨tree, hset, htree⟩ := (keeps_file hlock).set save.row.id save.address hholds
  have hsame : ((Store.file held windingPath).set save.row.id save.address).onState rowTree =
      (.ok (), tree) := by
    change (update held Table.format windingPath fun table =>
      ((), table.insert save.row.id save.address)).onState rowTree = _
    rw [update_prepared windingPath_made windingPath_ready]
    exact hset
  refine ⟨tree, ?_, htree⟩
  rw [Save.call, answer, saveProxy, onState_bind, onState_ofExcept, hid]
  simp only [onState_bind, file_get_onState, windingPath_unseen, Except.map, Table.get?_empty,
    hsame]
  rfl

/-- **A row that comes into sight is written over**, or not, as the calls are ordered: so they
disturb each other. -/
theorem hidden_row_overwritten :
    (∀ save ∈ [saveOld, saveNew], save.key.Valid) ∧ ([saveOld, saveNew].map Save.key).Nodup ∧
    ((Store.file held windingPath).entries.onState rowTree).1 = .ok [] ∧
    replies (Store.file held windingPath) [saveOld.call, saveNew.call] rowTree =
      [.saved (.ok ()), .saved (.ok ())] ∧
    replies (Store.file held windingPath) [saveNew.call, saveOld.call] rowTree =
      [.saved (.ok ()), .saved (.error (.registryInconsistency (conflict "Old" ⟨1⟩ ⟨2⟩)))] ∧
    ¬Undisturbed (Store.file held windingPath) rowTree .empty [saveOld, saveNew] := by
  have hlock : windingPath.extension? ≠ some "lock" := by decide
  have hfirst : replies (Store.file held windingPath) [saveOld.call, saveNew.call] rowTree =
      [.saved (.ok ()), .saved (.ok ())] := by
    have hid : saveOld.key.id = .ok saveOld.row.id := rfl
    obtain ⟨tree, hanswer, hholds⟩ := answer_winding hid
    obtain ⟨tree', hanswer', -⟩ := answer_eq (keeps_file hlock) hholds saveNew.call
    rw [replies, hanswer, replies, hanswer']
    rfl
  have hsecond : replies (Store.file held windingPath) [saveNew.call, saveOld.call] rowTree =
      [.saved (.ok ()), .saved (.error (.registryInconsistency (conflict "Old" ⟨1⟩ ⟨2⟩)))] := by
    have hid : saveNew.key.id = .ok saveNew.row.id := rfl
    obtain ⟨tree, hanswer, hholds⟩ := answer_winding hid
    obtain ⟨tree', hanswer', -⟩ := answer_eq (keeps_file hlock) hholds saveOld.call
    rw [replies, hanswer, replies, hanswer']
    rfl
  refine ⟨valid_saves, by decide, ?_, hfirst, hsecond, fun h => ?_⟩
  · rw [file_entries_onState, windingPath_unseen]
    rfl
  obtain ⟨outcomes, tree, hreturns⟩ := h.returns [0, 0, 1, 1] (by decide)
  obtain ⟨found, hfound, hperm, -⟩ := h.same _ _ _ hreturns [saveOld, saveNew] (.refl _)
  obtain ⟨found', hfound', hperm', -⟩ := h.same _ _ _ hreturns [saveNew, saveOld] (.swap _ _ _)
  have hinjective : Function.Injective (List.map Reply.saved) :=
    List.map_injective_iff.mpr fun _ _ => Reply.saved.inj
  obtain rfl : [.ok (), .ok ()] = found := hinjective (hfirst.symm.trans hfound)
  obtain rfl : [.ok (), .error (.registryInconsistency (conflict "Old" ⟨1⟩ ⟨2⟩))] = found' :=
    hinjective (hsecond.symm.trans hfound')
  -- The call for the row that was there has succeeded in the one order only.
  have hmem := (hperm.trans hperm'.symm).mem_iff.mp (List.mem_cons_self : (saveOld, _) ∈ _)
  simp [saveOld, saveNew] at hmem

end ProxyUpgrade.Registry
