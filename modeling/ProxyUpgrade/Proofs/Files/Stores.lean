import ProxyUpgrade.Proofs.Files.Ready
import ProxyUpgrade.Proofs.History.Document
import ProxyUpgrade.Proofs.Registry.Document
/-!
# Writes of the two stores

The registry and the history keep what they hold in a document each, and write by changing it: the
one puts a row into its table, the other records an address in its manifest. So both writes are
atomic (`Document.stores_atomic`), in every tree and at every path that is not one of the files
beside a document.

What is in the document then need not be what was read before: a path that goes up from a directory
that is missing leads to a table that could not be seen (`Document.hidden_entry`).
-/

namespace ProxyUpgrade.Document

open ProxyUpgrade.Action Files Files.Tree

/-- **The writes of the registry and of the history are atomic.** -/
theorem stores_atomic (tree : Tree) (path : Path) (hlock : path.extension? ≠ some "lock")
    (htmp : path.extension? ≠ some "tmp") (id : String) (address : Address) (code : Hash)
    (now : Timestamp) :
    Atomic Registry.Table.format path (fun table => ((), table.insert id address)) tree
      (((Registry.Store.file held path).set id address).onState tree) ∧
    Atomic History.Store.format path (fun manifest => manifest.record now code address) tree
      (((History.Store.file held path (pure now)).record code address).onState tree) := by
  have hset : (Registry.Store.file held path).set id address =
      update held Registry.Table.format path fun table => ((), table.insert id address) := rfl
  have hrecord : ((History.Store.file held path (pure now)).record code address).onState tree =
      (update held History.Store.format path fun manifest =>
        manifest.record now code address).onState tree := onState_bind_ok rfl _
  rw [hset, hrecord]
  exact ⟨update_atomic Registry.Table.faithful hlock htmp _,
    update_atomic History.Manifest.faithful hlock htmp _⟩

/-! ### A tree with one table -/

/-- A table of one row. -/
def rowTable : Registry.Table := Registry.Table.empty.insert "Old" ⟨1⟩

/-- A tree that has nothing but that table. -/
def rowTree : Tree where
  nodes := [(["t.json"], .file (.ofText rowTable.toJson.pretty))]
  sound := by simp [Tree.lookup]

theorem rowTree_ready : Ready "t.json" rowTree where
  named := by decide
  document := ⟨by decide, ["t.json"], rfl, by rintro ⟨⟩, rfl⟩
  fresh := ⟨by decide, ["t.tmp"], rfl, by decide, rfl⟩
  lock := ⟨by decide, ["t.lock"], rfl, by decide, rfl⟩

theorem rowTree_loaded : loaded Registry.Table.format "t.json" rowTree = .ok rowTable :=
  loaded_of_document Registry.Table.faithful rfl

/-- A row is added to the table of one row. -/
theorem stores_atomic_added :
    Path.extension? "t.json" ≠ some "lock" ∧ Path.extension? "t.json" ≠ some "tmp" ∧
    ∃ tree, ((Registry.Store.file held "t.json").set "New" ⟨2⟩).onState rowTree = (.ok (), tree) ∧
      ((Registry.Store.file held "t.json").entries.onState tree).1 =
        .ok [⟨"New", ⟨2⟩⟩, ⟨"Old", ⟨1⟩⟩] := by
  have hatomic := stores_atomic rowTree "t.json" (by decide) (by decide) "New" ⟨2⟩ Hash.zero .epoch
  obtain ⟨tree, -, hset, -⟩ := update_ready rowTree_ready (by decide) rowTree_loaded fun table =>
    ((), table.insert "New" ⟨2⟩)
  obtain ⟨old, hold, -, hafter⟩ := hatomic.1.changed () (congrArg Prod.fst hset)
  rw [prepared_ready rowTree_ready, rowTree_loaded] at hold
  obtain rfl := Except.ok.inj hold
  have htree : (((Registry.Store.file held "t.json").set "New" ⟨2⟩).onState rowTree).2 = tree :=
    congrArg Prod.snd hset
  rw [htree] at hafter
  exact ⟨by decide, by decide, tree, hset, Registry.entries_eq_ok_iff.mpr hafter⟩

/-! ### A table that comes into sight -/

/-- A path that goes up from a directory. -/
def windingPath : Path := "new/../t.json"

/-- The tree of one table with the directory that the path goes up from. -/
def windingTree : Tree where
  nodes := (["new"], .directory) :: rowTree.nodes
  sound := by simp [rowTree, Tree.lookup]

theorem windingPath_made :
    (makeParent held windingPath).onState rowTree = (.ok (), windingTree) := rfl

theorem windingPath_ready : Ready windingPath windingTree where
  named := by decide
  document := ⟨by decide, ["t.json"], rfl, by rintro ⟨⟩, rfl⟩
  fresh := ⟨by decide, ["t.tmp"], rfl, by decide, rfl⟩
  lock := ⟨by decide, ["t.lock"], rfl, by decide, rfl⟩

theorem windingPath_loaded :
    loaded Registry.Table.format windingPath windingTree = .ok rowTable :=
  loaded_of_document Registry.Table.faithful rfl

theorem windingPath_unseen : loaded Registry.Table.format windingPath rowTree = .ok .empty :=
  loaded_of_missing (h := rfl) Registry.Table.format

/-- **What is read after a write need not be what was read before with the row added**: no row is
read before, a row is written, and two rows are read. -/
theorem hidden_entry :
    windingPath.extension? ≠ some "lock" ∧ windingPath.extension? ≠ some "tmp" ∧
    ((Registry.Store.file held windingPath).entries.onState rowTree).1 = .ok [] ∧
    ∃ tree, ((Registry.Store.file held windingPath).set "New" ⟨2⟩).onState rowTree =
        (.ok (), tree) ∧
      ((Registry.Store.file held windingPath).entries.onState tree).1 =
        .ok [⟨"New", ⟨2⟩⟩, ⟨"Old", ⟨1⟩⟩] ∧
      [⟨"New", ⟨2⟩⟩, ⟨"Old", ⟨1⟩⟩] ≠ (Registry.Table.empty.insert "New" ⟨2⟩).rows := by
  obtain ⟨tree, names, hupdate, -, hfind⟩ := update_ready windingPath_ready (by decide)
    windingPath_loaded fun table => ((), table.insert "New" ⟨2⟩)
  have hafter := loaded_of_document Registry.Table.faithful hfind
  have hset := (update_prepared windingPath_made windingPath_ready Registry.Table.format
    fun table => ((), table.insert "New" ⟨2⟩)).trans hupdate
  exact ⟨by decide, by decide, Registry.entries_eq_ok_iff.mpr windingPath_unseen, tree, hset,
    Registry.entries_eq_ok_iff.mpr hafter, by decide⟩

end ProxyUpgrade.Document
