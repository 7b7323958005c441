import ProxyUpgrade.Proofs.Chain.Json
import ProxyUpgrade.Proofs.Files.Document
import ProxyUpgrade.Proofs.Registry.Table
/-!
# Tables of the registry as documents

A table is written as an object with a member for each row. Reading puts the rows into an empty
table one after another, and as they come in the order of their texts each is put behind those
before it. So a table is read back (`Registry.Table.faithful`). What a store in a file answers is
told by the table that is read there.
-/

namespace ProxyUpgrade.Registry

namespace Table

/-- One member more is read. -/
def addMember? (table : Table) (member : String × Json) : Option Table :=
  (Address.ofJson? member.2).map (table.insert member.1)

theorem ofJson?_object (members : List (String × Json)) :
    ofJson? (.object members) = members.foldlM addMember? empty := by
  rw [ofJson?]
  congr 1
  funext table member
  rcases haddress : Address.ofJson? member.2 with - | address <;> simp [addMember?, haddress]

/-- The rows of a table are put behind those that come before them. -/
theorem foldlM_toJson {rows : List Entry} {before table : Table}
    (h : table.rows = before.rows ++ rows) :
    (rows.map fun row => (row.id, row.address.toJson)).foldlM addMember? before = some table := by
  induction rows generalizing before with
  | nil => exact congrArg some (Table.ext (by simpa using h.symm))
  | cons first rest ih =>
    have hsorted := table.sorted
    rw [h] at hsorted
    have hlast : ∀ row ∈ before.rows, row.id < first.id := fun row hrow =>
      (List.pairwise_append.mp hsorted).2.2 row hrow first List.mem_cons_self
    have hrows : (before.insert first.id first.address).rows = before.rows ++ [first] :=
      insertRow_of_forall_lt hlast
    have hstep : addMember? before (first.id, first.address.toJson) =
        some (before.insert first.id first.address) := by
      rw [addMember?, Address.ofJson?_toJson, Option.map_some]
    rw [List.map_cons, List.foldlM_cons, hstep, Option.bind_eq_bind, Option.bind_some]
    exact ih (by rw [hrows, h, List.append_assoc, List.singleton_append])

/-- **A table is read back.** -/
theorem ofJson?_toJson (table : Table) : ofJson? table.toJson = some table := by
  rw [toJson, ofJson?_object]
  exact foldlM_toJson rfl

/-- **Tables are kept faithfully.** -/
theorem faithful : format.Faithful where
  exact table := by
    refine Json.hasExact_iff.mpr fun member hmember => ?_
    obtain ⟨row, -, rfl⟩ := List.mem_map.mp hmember
    exact trivial
  back := ofJson?_toJson

end Table

/-! ### Reading -/

open ProxyUpgrade.Action Document

variable {path : Path} {tree : Files.Tree}

theorem file_get_onState (path : Path) (id : String) (tree : Files.Tree) :
    ((Store.file held path).get id).onState tree =
      ((loaded Table.format path tree).map (·.get? id), tree) := by
  change (load held Table.format path >>= fun table => pure (table.get? id)).onState tree = _
  rw [onState_bind, load_onState]
  rcases loaded Table.format path tree with e | table <;> rfl

theorem file_entries_onState (path : Path) (tree : Files.Tree) :
    (Store.file held path).entries.onState tree =
      ((loaded Table.format path tree).map (·.rows), tree) := by
  change (load held Table.format path >>= fun table => pure table.rows).onState tree = _
  rw [onState_bind, load_onState]
  rcases loaded Table.format path tree with e | table <;> rfl

/-- **The rows that a store in a file lists are those of the table that is read.** -/
theorem entries_eq_ok_iff {table : Table} :
    ((Store.file held path).entries.onState tree).1 = .ok table.rows ↔
      loaded Table.format path tree = .ok table := by
  rw [file_entries_onState]
  constructor
  · intro h
    rcases hload : loaded Table.format path tree with e | now
    · rw [hload] at h
      cases h
    · rw [hload] at h
      exact congrArg Except.ok (Table.ext (Except.ok.inj h))
  · intro h
    rw [h]
    rfl

end ProxyUpgrade.Registry
