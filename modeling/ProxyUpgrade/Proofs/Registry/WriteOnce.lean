import ProxyUpgrade.Proofs.Files.Ready
import ProxyUpgrade.Proofs.Registry.Calls
import ProxyUpgrade.Proofs.Registry.Key
/-!
# The registry is written once

Whatever calls are made on the registry, a proxy that is on record for a deployment stays on record
for it (`Registry.WriteOnce`). That is so of every store that keeps a table
(`Registry.Store.Keeps.writeOnce`), by way of what one call does to the rows
(`Registry.Table.get?_next`): a row that is there stays, and the one that may be added is that of a
save that succeeds.

A store in a file keeps a table wherever a file can be made (`Registry.keeps_file`), so it gives the
same answers as a store in memory (`Registry.stores_agree`). A store in a file is nothing but its
path, so it does not matter whether calls are made on one store or on several that are opened on the
path one after another.
-/

namespace ProxyUpgrade.Registry

open ProxyUpgrade.Action Document

variable {σ : Type} {store : Store (StateM σ)} {holds : σ → Table → Prop} {start : σ}

/-! ### What is on record after some calls -/

/-- What is found for a deployment after some calls. -/
def foundAfter (store : Store (StateM σ)) (calls : List Call) (start : σ) (key : Key) :
    Except Error (Option Address) :=
  ((proxyAddress store key).onState (after store calls start)).1

/-- What saving a proxy after some calls comes to, and the state that it leaves. -/
def savedAfter (store : Store (StateM σ)) (calls : List Call) (start : σ) (key : Key)
    (address : Address) : Except Error Unit × σ :=
  (saveProxy store key address).onState (after store calls start)

/-- One of the calls has saved a proxy for a deployment, with success. -/
def Saved (store : Store (StateM σ)) (calls : List Call) (start : σ) (key : Key)
    (address : Address) : Prop :=
  ∃ before rest, calls = before ++ .save key address :: rest ∧
    (savedAfter store before start key address).1 = .ok ()

/-- **A registry that is written once**, whatever calls have been made on it since its start. -/
structure WriteOnce (store : Store (StateM σ)) (start : σ) : Prop where
  /-- For a valid key, the proxy that was saved for it is found, if there is one. -/
  found : ∀ calls key, key.Valid → ∃ found, foundAfter store calls start key = .ok found ∧
    ∀ address, found = some address ↔ Saved store calls start key address
  /-- A proxy can be saved for a valid key that has none, or that one already, and for no other. -/
  saved : ∀ calls key address, (savedAfter store calls start key address).1 = .ok () ↔
    key.Valid ∧ (foundAfter store calls start key = .ok none ∨
      foundAfter store calls start key = .ok (some address))
  /-- A proxy that is found once is found whatever calls are made then. -/
  forever : ∀ calls more key address, foundAfter store calls start key = .ok (some address) →
    foundAfter store (calls ++ more) start key = .ok (some address)
  /-- A save that is refused changes nothing. -/
  refused : ∀ calls key address e, (savedAfter store calls start key address).1 = .error e →
    (savedAfter store calls start key address).2 = after store calls start
  /-- The rows are those of the proxies that were saved, by the bytes of their texts. -/
  listed : ∀ calls, ∃ rows, (store.entries.onState (after store calls start)).1 = .ok rows ∧
    (rows.Pairwise fun row next => Bytes.ofText row.id < Bytes.ofText next.id) ∧
    ∀ row, row ∈ rows ↔
      ∃ key, key.id = .ok row.id ∧ Saved store calls start key row.address

theorem saved_nil (store : Store (StateM σ)) (start : σ) (key : Key) (address : Address) :
    ¬Saved store [] start key address := by
  rintro ⟨before, rest, hcalls, -⟩
  cases before <;> cases hcalls

/-- A proxy is saved by the last call, or by one before. -/
theorem saved_snoc {calls : List Call} {call : Call} {key : Key} {address : Address} :
    Saved store (calls ++ [call]) start key address ↔ Saved store calls start key address ∨
      call = .save key address ∧ (savedAfter store calls start key address).1 = .ok () := by
  constructor
  · rintro ⟨before, rest, hcalls, hsaved⟩
    rcases List.eq_nil_or_concat rest with rfl | ⟨rest, last, rfl⟩
    · obtain ⟨rfl, hlast⟩ := List.append_inj' hcalls rfl
      exact .inr ⟨List.head_eq_of_cons_eq hlast, hsaved⟩
    · have hcalls' : calls ++ [call] = (before ++ .save key address :: rest) ++ [last] := by
        simpa using hcalls
      exact .inl ⟨before, rest, (List.append_inj' hcalls' rfl).1, hsaved⟩
  · rintro (⟨before, rest, rfl, hsaved⟩ | ⟨rfl, hsaved⟩)
    · exact ⟨before, rest ++ [call], by simp, hsaved⟩
    · exact ⟨calls, [], rfl, hsaved⟩

/-! ### What is on record in a table -/

namespace Table

variable {table : Table} {id : String} {address : Address}

/-- A save that succeeds adds the row of its key, unless it is there. -/
theorem get?_of_save {key : Key} {saved : Address} {table' : Table}
    (h : table.save key saved = .ok table') : table'.get? id = some address ↔
      table.get? id = some address ∨ key.id = .ok id ∧ saved = address := by
  obtain ⟨place, hplace, ⟨hget, rfl⟩ | ⟨hget, rfl⟩⟩ := save_eq_ok_iff.mp h
  -- Either the row is there, and nothing is written, or it is new.
  · refine ⟨.inl, fun h => h.elim (fun hthere => hthere) ?_⟩
    rintro ⟨hid, rfl⟩
    rwa [Except.ok.inj (hid.symm.trans hplace)]
  · rcases eq_or_ne id place with rfl | hne
    · simp [hplace, hget]
    · simp [get?_insert_of_ne hne, hplace, hne.symm]

/-- **One call adds at most one row, and takes none away**: it adds that of a save that succeeds. -/
theorem get?_next {call : Call} : (table.next call).get? id = some address ↔
    table.get? id = some address ∨ ∃ key table', call = .save key address ∧ key.id = .ok id ∧
      table.save key address = .ok table' := by
  cases call with
  | find key => simp [next]
  | entries => simp [next]
  | save key saved =>
    rcases hsave : table.save key saved with e | table'
    · rw [next, hsave]
      refine ⟨.inl, fun h => h.resolve_right ?_⟩
      rintro ⟨key, table', ⟨⟩, -, hok⟩
      cases hsave.symm.trans hok
    · rw [next_save hsave, get?_of_save hsave]
      refine or_congr_right ⟨?_, ?_⟩
      · rintro ⟨hid, rfl⟩
        exact ⟨key, table', rfl, hid, hsave⟩
      · rintro ⟨key, table', ⟨⟩, hid, -⟩
        exact ⟨hid, rfl⟩

/-- **A row that is there stays**, whatever calls are made. -/
theorem get?_after (h : table.get? id = some address) (calls : List Call) :
    (table.after calls).get? id = some address := by
  induction calls generalizing table with
  | nil => exact h
  | cons call calls ih => exact ih (get?_next.mpr (.inl h))

theorem after_append (table : Table) (calls more : List Call) :
    table.after (calls ++ more) = (table.after calls).after more :=
  List.foldl_append

end Table

/-! ### Stores that keep a table are written once -/

section Keeps

variable (h : store.Keeps holds) (hstart : holds start .empty)

include h hstart

theorem foundAfter_eq (calls : List Call) (key : Key) :
    foundAfter store calls start key = key.id.map (Table.empty.after calls).get? := by
  rw [foundAfter, proxyAddress_onState h (holds_after h hstart calls)]

theorem savedAfter_eq_ok_iff {calls : List Call} {key : Key} {address : Address} :
    (savedAfter store calls start key address).1 = .ok () ↔
      ∃ table, (Table.empty.after calls).save key address = .ok table := by
  obtain ⟨s', hsave, -⟩ := saveProxy_onState h (holds_after h hstart calls) key address
  rw [savedAfter, hsave]
  rcases (Table.empty.after calls).save key address with e | table <;> simp [Except.map]

/-- **The rows are those of the proxies that were saved.** -/
theorem get?_eq_some_iff_saved {calls : List Call} {id : String} {address : Address} :
    (Table.empty.after calls).get? id = some address ↔
      ∃ key, key.id = .ok id ∧ Saved store calls start key address := by
  -- From the back, as whether a call saves something depends on the calls before it.
  induction calls using List.reverseRecOn with
  | nil => simp [Table.after, saved_nil]
  | append_singleton calls call ih =>
    have hnext : Table.empty.after (calls ++ [call]) = (Table.empty.after calls).next call :=
      Table.empty.after_append calls [call]
    simp only [hnext, Table.get?_next, ih, saved_snoc, savedAfter_eq_ok_iff h hstart]
    constructor
    · rintro (⟨key, hid, hsaved⟩ | ⟨key, table, hcall, hid, hsaved⟩)
      · exact ⟨key, hid, .inl hsaved⟩
      · exact ⟨key, hid, .inr ⟨hcall, table, hsaved⟩⟩
    · rintro ⟨key, hid, hsaved | ⟨hcall, table, hsaved⟩⟩
      · exact .inl ⟨key, hid, hsaved⟩
      · exact .inr ⟨key, table, hcall, hid, hsaved⟩

/-- **A store that keeps a table is written once.** -/
theorem Store.Keeps.writeOnce : WriteOnce store start where
  found calls key hvalid := by
    obtain ⟨id, hid⟩ := Key.exists_id_iff.mpr hvalid
    refine ⟨(Table.empty.after calls).get? id, by rw [foundAfter_eq h hstart, hid]; rfl, ?_⟩
    intro address
    rw [get?_eq_some_iff_saved h hstart]
    constructor
    -- The row may have been saved under any key with this text, but there is only one.
    · rintro ⟨other, hother, hsaved⟩
      rwa [Key.eq_of_id hid hother]
    · exact fun hsaved => ⟨key, hid, hsaved⟩
  saved calls key address := by
    rw [savedAfter_eq_ok_iff h hstart, foundAfter_eq h hstart, ← Key.exists_id_iff]
    constructor
    · rintro ⟨table, hsave⟩
      obtain ⟨id, hid, ⟨hget, -⟩ | ⟨hget, -⟩⟩ := Table.save_eq_ok_iff.mp hsave
      · exact ⟨⟨id, hid⟩, .inr (by rw [hid, Except.map, hget])⟩
      · exact ⟨⟨id, hid⟩, .inl (by rw [hid, Except.map, hget])⟩
    · rintro ⟨⟨id, hid⟩, hfound⟩
      rw [hid] at hfound
      rcases hfound with hget | hget
      · exact ⟨_, Table.save_eq_ok_iff.mpr ⟨id, hid, .inr ⟨Except.ok.inj hget, rfl⟩⟩⟩
      · exact ⟨_, Table.save_eq_ok_iff.mpr ⟨id, hid, .inl ⟨Except.ok.inj hget, rfl⟩⟩⟩
  forever calls more key address hfound := by
    rw [foundAfter_eq h hstart] at hfound ⊢
    rcases hid : key.id with e | id
    · rw [hid] at hfound
      cases hfound
    · rw [hid] at hfound
      rw [Table.after_append, Except.map, Table.get?_after (Except.ok.inj hfound) more]
  refused calls key address e hrefused := by
    obtain ⟨s', hsave, -, hsame⟩ := saveProxy_onState h (holds_after h hstart calls) key address
    rw [savedAfter, hsave] at hrefused ⊢
    rcases htable : (Table.empty.after calls).save key address with e' | table
    · exact hsame e' htable
    · rw [htable] at hrefused
      cases hrefused
  listed calls := by
    have hholds := holds_after h hstart calls
    refine ⟨(Table.empty.after calls).rows, by rw [h.entries hholds],
      (Table.empty.after calls).sorted.imp Bytes.ofText_lt, fun row => ?_⟩
    rw [← get?_eq_some_iff_saved h hstart, Table.mem_rows_iff]

end Keeps

/-! ### The two stores -/

/-- **A store in a file keeps the table that is kept there.** -/
theorem keeps_of_kept {path : Path} {holds : Files.Tree → Table → Prop}
    (h : Kept Table.format path holds) : (Store.file held path).Keeps holds where
  get _ hholds := onState_bind_ok (h.load_eq hholds) _
  entries hholds := onState_bind_ok (h.load_eq hholds) _
  set id address hholds := h.change (fun table => ((), table.insert id address)) hholds

theorem keeps_file {path : Path} (hlock : path.extension? ≠ some "lock") :
    (Store.file held path).Keeps (Holds Table.format path) :=
  keeps_of_kept (kept_holds Table.faithful hlock)

/-- **A registry in a file gives the same answers as one in memory**, and both are written once. -/
theorem stores_agree (tree : Files.Tree) (path : Path) (hlock : path.extension? ≠ some "lock")
    (hpath : Creatable path tree) :
    (∀ calls, replies (Store.file held path) calls tree =
      replies (Store.memory Cell.state) calls .empty) ∧
    WriteOnce (Store.file held path) tree ∧
    WriteOnce (Store.memory Cell.state) Table.empty := by
  have hfile := keeps_file hlock
  have hstart : Holds Table.format path tree .empty := hpath.holds Table.format
  exact ⟨replies_eq hfile keeps_memory hstart rfl, hfile.writeOnce hstart,
    keeps_memory.writeOnce rfl⟩

theorem creatable_empty : Creatable "db/t.json" Files.Tree.empty :=
  ⟨⟨[(["db"], .directory)], by decide⟩, rfl,
    { named := by decide
      document := ⟨by decide, ["db", "t.json"], rfl, by decide, rfl⟩
      fresh := ⟨by decide, ["db", "t.tmp"], rfl, by decide, rfl⟩
      lock := ⟨by decide, ["db", "t.lock"], rfl, by decide, rfl⟩ },
    by rintro names content ⟨⟩⟩

/-- A proxy is saved in a tree that has nothing yet, and another one is refused. -/
theorem stores_agree_fresh :
    Path.extension? "db/t.json" ≠ some "lock" ∧ Creatable "db/t.json" Files.Tree.empty ∧
    replies (Store.file held "db/t.json")
        [.save ⟨⟨"Box", ["v2"]⟩, none⟩ ⟨1⟩, .save ⟨⟨"Box", ["v2"]⟩, none⟩ ⟨2⟩,
          .find ⟨⟨"Box", ["v2"]⟩, none⟩, .entries] Files.Tree.empty =
      [.saved (.ok ()), .saved (.error (.registryInconsistency (conflict "Box:v2" ⟨1⟩ ⟨2⟩))),
        .found (.ok (some ⟨1⟩)), .listed (.ok [⟨"Box:v2", ⟨1⟩⟩])] := by
  obtain ⟨hagree, -, -⟩ :=
    stores_agree Files.Tree.empty "db/t.json" (by decide) creatable_empty
  exact ⟨by decide, creatable_empty, (hagree _).trans rfl⟩

end ProxyUpgrade.Registry
