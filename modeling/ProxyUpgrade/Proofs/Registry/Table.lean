import Mathlib.Data.List.Sort
import Mathlib.Data.String.Basic
import ProxyUpgrade.Registry.Store
/-!
# Rows of the registry

Putting an address on record changes one row: the row of its text if there is one, else a row that
is added. As a table is sorted, every row of it is the one that is found under its text
(`Registry.Table.mem_rows_iff`), and the rows make the table (`Registry.Table.ext_of_mem`).
-/

namespace ProxyUpgrade.Registry.Table

variable {table : Table} {id other : String} {address : Address}

theorem find?_cons_id (row : Entry) (rest : List Entry) (id : String) :
    (row :: rest).find? (·.id == id) =
      if row.id = id then some row else rest.find? (·.id == id) := by
  by_cases h : row.id = id <;> simp [h]

@[simp] theorem get?_empty (id : String) : empty.get? id = none := rfl

/-- The row that was written is there. -/
@[simp] theorem get?_insert_self (id : String) (address : Address) (table : Table) :
    (table.insert id address).get? id = some address := by
  simp only [get?, insert]
  induction table.rows with
  | nil => simp [insertRow]
  | cons row rest ih =>
    rw [insertRow]
    split
    · simp
    split
    next => simp
    next hne => rw [find?_cons_id, if_neg (Ne.symm hne), ih]

/-- No other row is touched. -/
theorem get?_insert_of_ne (h : other ≠ id) (address : Address) (table : Table) :
    (table.insert id address).get? other = table.get? other := by
  have hnew (rest : List Entry) :
      ((⟨id, address⟩ : Entry) :: rest).find? (·.id == other) = rest.find? (·.id == other) := by
    rw [find?_cons_id, if_neg (Ne.symm h)]
  simp only [get?, insert]
  induction table.rows with
  | nil => rw [insertRow, hnew]
  | cons row rest ih =>
    rw [insertRow]
    split
    · rw [hnew]
    split
    next heq => rw [hnew, find?_cons_id, if_neg (heq ▸ Ne.symm h)]
    next =>
      rw [find?_cons_id, find?_cons_id]
      split
      · rfl
      · exact ih

theorem get?_eq_none : table.get? id = none ↔ ∀ row ∈ table.rows, row.id ≠ id := by
  simp [get?]

theorem insertRow_perm {row : Entry} {rows : List Entry} (h : ∀ other ∈ rows, other.id ≠ row.id) :
    (insertRow row rows).Perm (row :: rows) := by
  induction rows with
  | nil => rfl
  | cons first rest ih =>
    obtain ⟨hfirst, hrest⟩ := List.forall_mem_cons.mp h
    rw [insertRow, if_neg (Ne.symm hfirst)]
    split
    · rfl
    · exact ((ih hrest).cons first).trans (.swap _ _ rest)

/-- **A new text adds a row**, wherever it is put. -/
theorem insert_perm (h : table.get? id = none) (address : Address) :
    (table.insert id address).rows.Perm (⟨id, address⟩ :: table.rows) :=
  insertRow_perm (get?_eq_none.mp h)

/-- **A row is there if it is the one that is found under its text.** -/
theorem mem_rows_iff {row : Entry} : row ∈ table.rows ↔ table.get? row.id = some row.address := by
  obtain ⟨rows, hsorted⟩ := table
  simp only [get?]
  induction rows with
  | nil => simp
  | cons first rest ih =>
    obtain ⟨hfirst, hrest⟩ := List.pairwise_cons.mp hsorted
    rw [find?_cons_id, List.mem_cons]
    split
    next hid =>
      -- No row behind the first one has its text.
      have hnot : row ∉ rest := fun hmem => (hfirst row hmem).ne hid
      rw [or_iff_left hnot, Option.map_some, Option.some.injEq]
      constructor
      · rintro rfl
        rfl
      · intro haddress
        obtain ⟨id, address⟩ := row
        obtain ⟨id', address'⟩ := first
        obtain rfl : id' = id := hid
        obtain rfl : address' = address := haddress
        rfl
    next hid =>
      rw [← ih hrest, or_iff_right]
      rintro rfl
      exact hid rfl

/-- **The rows make a table.** -/
theorem ext_of_mem {now : Table} (h : ∀ row, row ∈ table.rows ↔ row ∈ now.rows) : table = now := by
  have : Std.Irrefl fun row next : Entry => row.id < next.id := ⟨fun _ => lt_irrefl _⟩
  exact Table.ext (table.sorted.eq_of_mem_iff now.sorted h)

theorem nodup_ids (table : Table) : (table.rows.map (·.id)).Nodup :=
  List.pairwise_map.mpr (table.sorted.imp ne_of_lt)

/-- A row that comes after all others is put behind them. -/
theorem insertRow_of_forall_lt {row : Entry} {rows : List Entry}
    (h : ∀ other ∈ rows, other.id < row.id) : insertRow row rows = rows ++ [row] := by
  induction rows with
  | nil => rfl
  | cons first rest ih =>
    obtain ⟨hfirst, hrest⟩ := List.forall_mem_cons.mp h
    rw [insertRow, if_neg hfirst.asymm, if_neg (Ne.symm hfirst.ne), ih hrest]
    rfl

end ProxyUpgrade.Registry.Table
