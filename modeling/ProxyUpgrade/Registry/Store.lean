import ProxyUpgrade.Action
import ProxyUpgrade.Chain.Json
import ProxyUpgrade.Files.Document
import ProxyUpgrade.Json.Fields
/-!
# Tables of the registry

The registry keeps its rows in a table from texts to addresses, sorted by the bytes of the texts. A
store gives access to such a table: `Table` is the table itself, `Store` the operations on one that
lies somewhere outside, in memory (`Store.memory`) or in a file (`Store.file`), where it is an
object in a JSON document with a member for each row.
-/

namespace ProxyUpgrade.Registry

/-- A row of the registry. -/
structure Entry where
  id : String
  address : Address
  deriving DecidableEq

namespace Entry

/-- A row as JSON. -/
def toJson (entry : Entry) : Json :=
  .object [("id", .string entry.id), ("address", entry.address.toJson)]

/-- A row from JSON. -/
def ofJson? (json : Json) : Option Entry := do
  let fields ← json.fields? ["id", "address"]
  pure {
    id := ← fields.required "id" Json.text?
    address := ← fields.required "address" Address.ofJson? }

end Entry

/-- Rows with different texts, sorted by them. -/
@[ext] structure Table where
  rows : List Entry
  /-- The order leaves no text with two rows. -/
  sorted : rows.Pairwise fun row next => row.id < next.id
  deriving DecidableEq

namespace Table

/-- The table without rows. -/
def empty : Table := ⟨[], .nil⟩

/-- The empty list of rows is a table. -/
instance {α : Type} : CoeDep (List α) [] Table := ⟨empty⟩

/-- The address on record under a text. -/
def get? (table : Table) (id : String) : Option Address :=
  (table.rows.find? (·.id == id)).map (·.address)

/-- Puts a row in its place among sorted ones. -/
def insertRow (row : Entry) : List Entry → List Entry
  | [] => [row]
  | other :: rest =>
    if row.id < other.id then row :: other :: rest
    else if row.id = other.id then row :: rest
    else other :: insertRow row rest

theorem eq_or_mem_of_mem_insertRow {row found : Entry} {rows : List Entry}
    (h : found ∈ insertRow row rows) : found = row ∨ found ∈ rows := by
  induction rows with
  | nil => exact .inl (List.mem_singleton.mp h)
  | cons first rest ih =>
    rw [insertRow] at h
    split at h
    · exact List.mem_cons.mp h
    split at h
    · exact (List.mem_cons.mp h).imp_right (List.mem_cons_of_mem _)
    · rcases List.mem_cons.mp h with rfl | hrest
      · exact .inr List.mem_cons_self
      · exact (ih hrest).imp_right (List.mem_cons_of_mem _)

/-- **Putting a row among sorted ones leaves them sorted.** -/
theorem sorted_insertRow {rows : List Entry} (h : rows.Pairwise fun row next => row.id < next.id)
    (row : Entry) : (insertRow row rows).Pairwise fun row next => row.id < next.id := by
  induction rows with
  | nil => exact List.pairwise_singleton _ _
  | cons first rest ih =>
    obtain ⟨hfirst, hrest⟩ := List.pairwise_cons.mp h
    rw [insertRow]
    split
    next hlt =>
      refine List.pairwise_cons.mpr ⟨fun found hfound => ?_, h⟩
      rcases List.mem_cons.mp hfound with rfl | hmem
      · exact hlt
      · exact String.lt_trans hlt (hfirst found hmem)
    split
    next heq => exact List.pairwise_cons.mpr ⟨fun found hfound => heq ▸ hfirst found hfound, hrest⟩
    next hnot hne =>
      refine List.pairwise_cons.mpr ⟨fun found hfound => ?_, ih hrest⟩
      rcases eq_or_mem_of_mem_insertRow hfound with rfl | hmem
      · exact Std.lt_of_le_of_ne (String.not_lt.mp hnot) (Ne.symm hne)
      · exact hfirst found hmem

/-- The table with an address put on record under a text. -/
def insert (id : String) (address : Address) (table : Table) : Table :=
  ⟨insertRow ⟨id, address⟩ table.rows, sorted_insertRow table.sorted ⟨id, address⟩⟩

/-- A table as JSON: an object with a member for each row. -/
def toJson (table : Table) : Json :=
  .object (table.rows.map fun row => (row.id, row.address.toJson))

/-- A table from JSON; of several members with one name the last counts. -/
def ofJson? : Json → Option Table
  | .object members =>
    members.foldlM (fun table (id, json) => do
      pure (table.insert id (← Address.ofJson? json))) empty
  | _ => none

end Table

/-- Access to a table. -/
structure Store (m : Type → Type) where
  /-- The address on record under a text. -/
  get : String → Action m (Option Address)
  /-- Puts an address on record under a text, for good when it returns. -/
  set : String → Address → Action m Unit
  /-- All rows, sorted. -/
  entries : Action m (List Entry)

/-- A store that keeps its table in a cell. -/
def Store.memory {m : Type → Type} [Monad m] (cell : Cell m Table) : Store m where
  get id := ExceptT.lift do pure ((← cell.get).get? id)
  set id address := ExceptT.lift (cell.modify (Table.insert id address))
  entries := ExceptT.lift do pure (← cell.get).rows

/-- How a table is kept in a document. -/
def Table.format : Document.Format Table := ⟨empty, toJson, ofJson?⟩

/-- A store that keeps its table in a file. Every operation reads the file afresh. -/
def Store.file {m : Type → Type} [Monad m] (files : Files m) (path : Path) : Store m where
  get id := do pure ((← Document.load files Table.format path).get? id)
  set id address :=
    Document.update files Table.format path fun table => ((), table.insert id address)
  entries := do pure (← Document.load files Table.format path).rows

end ProxyUpgrade.Registry
