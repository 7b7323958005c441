import ProxyUpgrade.Proofs.Registry.Document
import ProxyUpgrade.Registry
/-!
# Calls on the registry

The registry is called again and again, on a store whose state each call may change. A store keeps a
table (`Registry.Store.Keeps`) if it is read and written as that table would be. Then what a call
returns depends on the table alone (`Registry.answer_eq`), and so two stores that keep the same
table give the same answers to whatever calls are made on them (`Registry.replies_eq`).
-/

namespace ProxyUpgrade.Registry

open ProxyUpgrade.Action

variable {σ τ : Type}

/-- A call on the registry. -/
inductive Call where
  | find (key : Key)
  | save (key : Key) (address : Address)
  | entries
  deriving DecidableEq

/-- What a call returns. -/
inductive Reply where
  | found (outcome : Except Error (Option Address))
  | saved (outcome : Except Error Unit)
  | listed (outcome : Except Error (List Entry))

/-- What a call returns on a state of a store, and the state that it leaves. -/
def answer (store : Store (StateM σ)) (s : σ) : Call → Reply × σ
  | .find key => ((proxyAddress store key).onState s).map .found id
  | .save key address => ((saveProxy store key address).onState s).map .saved id
  | .entries => (store.entries.onState s).map .listed id

/-- The state that calls leave. -/
def after (store : Store (StateM σ)) (calls : List Call) (s : σ) : σ :=
  calls.foldl (fun s call => (answer store s call).2) s

/-- What calls made one after another return. -/
def replies (store : Store (StateM σ)) : List Call → σ → List Reply
  | [], _ => []
  | call :: calls, s => (answer store s call).1 :: replies store calls (answer store s call).2

theorem after_append (store : Store (StateM σ)) (calls more : List Call) (s : σ) :
    after store (calls ++ more) s = after store more (after store calls s) :=
  List.foldl_append

/-! ### Calls on a table -/

namespace Table

/-- The table with a proxy put on record, unless another one is. -/
def save (table : Table) (key : Key) (address : Address) : Except Error Table :=
  key.id.bind fun id =>
    match table.get? id with
    | some existing =>
      if existing = address then .ok table
      else .error (.registryInconsistency (conflict id existing address))
    | none => .ok (table.insert id address)

/-- The table that a call leaves. -/
def next (table : Table) : Call → Table
  | .save key address => match table.save key address with
    | .ok table' => table'
    | .error _ => table
  | _ => table

/-- What a call returns on a table. -/
def reply (table : Table) : Call → Reply
  | .find key => .found (key.id.map table.get?)
  | .save key address => .saved ((table.save key address).map fun _ => ())
  | .entries => .listed (.ok table.rows)

variable {table : Table} {key : Key} {address : Address}

/-- **A proxy is put on record** under the text of its key, if that is free or has the proxy
already. -/
theorem save_eq_ok_iff {table' : Table} : table.save key address = .ok table' ↔ ∃ id,
    key.id = .ok id ∧ (table.get? id = some address ∧ table' = table ∨
      table.get? id = none ∧ table' = table.insert id address) := by
  rw [save]
  rcases key.id with e | id
  · simp [Except.bind]
  · rcases hget : table.get? id with - | existing
    · simp [Except.bind, hget, eq_comm]
    · rcases eq_or_ne existing address with rfl | hne
      · simp [Except.bind, hget, eq_comm]
      · simp [Except.bind, hget, hne]

theorem next_save {table' : Table} (h : table.save key address = .ok table') :
    table.next (.save key address) = table' := by
  rw [next, h]

end Table

/-! ### Stores that keep a table -/

/-- The states of a store hold a table, which is what is read, and what is written to. -/
structure Store.Keeps (store : Store (StateM σ)) (holds : σ → Table → Prop) : Prop where
  get : ∀ {s table} id, holds s table → (store.get id).onState s = (.ok (table.get? id), s)
  entries : ∀ {s table}, holds s table → store.entries.onState s = (.ok table.rows, s)
  set : ∀ {s table} id address, holds s table →
    ∃ s', (store.set id address).onState s = (.ok (), s') ∧ holds s' (table.insert id address)

variable {store : Store (StateM σ)} {holds : σ → Table → Prop} {s : σ} {table : Table}

theorem proxyAddress_onState (h : store.Keeps holds) (hs : holds s table) (key : Key) :
    (proxyAddress store key).onState s = (key.id.map table.get?, s) := by
  rw [proxyAddress, onState_bind, onState_ofExcept]
  rcases key.id with e | id
  · rfl
  · exact h.get id hs

/-- **Saving a proxy** puts it into the table; a state is only left for another when it is. -/
theorem saveProxy_onState (h : store.Keeps holds) (hs : holds s table) (key : Key)
    (address : Address) : ∃ s', (saveProxy store key address).onState s =
        ((table.save key address).map fun _ => (), s') ∧
      holds s' (table.next (.save key address)) ∧
      ∀ e, table.save key address = .error e → s' = s := by
  rw [saveProxy, onState_bind, onState_ofExcept, Table.next, Table.save]
  rcases key.id with e | id
  · exact ⟨s, rfl, hs, fun _ _ => rfl⟩
  simp only [onState_bind, h.get id hs, Except.bind]
  rcases table.get? id with - | existing
  · obtain ⟨s', hset, hs'⟩ := h.set id address hs
    exact ⟨s', hset, hs', fun _ hfailed => by cases hfailed⟩
  · by_cases heq : existing = address
    · simp only [heq, if_true]
      exact ⟨s, rfl, hs, fun _ _ => rfl⟩
    · simp only [heq, if_false]
      exact ⟨s, rfl, hs, fun _ _ => rfl⟩

/-- **What a call returns is determined by the table**, and so is the table that it leaves. -/
theorem answer_eq (h : store.Keeps holds) (hs : holds s table) (call : Call) :
    ∃ s', answer store s call = (table.reply call, s') ∧ holds s' (table.next call) := by
  cases call with
  | find key => exact ⟨s, by rw [answer, proxyAddress_onState h hs]; rfl, hs⟩
  | save key address =>
    obtain ⟨s', hsave, hs', -⟩ := saveProxy_onState h hs key address
    exact ⟨s', by rw [answer, hsave]; rfl, hs'⟩
  | entries => exact ⟨s, by rw [answer, h.entries hs]; rfl, hs⟩

/-- The table that calls leave. -/
def Table.after (table : Table) (calls : List Call) : Table := calls.foldl Table.next table

theorem holds_after (h : store.Keeps holds) (hs : holds s table) (calls : List Call) :
    holds (after store calls s) (table.after calls) := by
  induction calls generalizing s table with
  | nil => exact hs
  | cons call calls ih =>
    obtain ⟨s', hanswer, hs'⟩ := answer_eq h hs call
    obtain rfl : (answer store s call).2 = s' := congrArg Prod.snd hanswer
    exact ih hs'

/-- **Stores that keep the same table give the same answers.** -/
theorem replies_eq {store' : Store (StateM τ)} {holds' : τ → Table → Prop} {t : τ}
    (h : store.Keeps holds) (h' : store'.Keeps holds') (hs : holds s table) (ht : holds' t table)
    (calls : List Call) : replies store calls s = replies store' calls t := by
  induction calls generalizing s t table with
  | nil => rfl
  | cons call calls ih =>
    obtain ⟨s', hanswer, hs'⟩ := answer_eq h hs call
    obtain ⟨t', hanswer', ht'⟩ := answer_eq h' ht call
    rw [replies, replies, hanswer, hanswer']
    exact congrArg _ (ih hs' ht')

/-! ### The two stores -/

/-- A store in memory keeps the table that it holds. -/
theorem keeps_memory : (Store.memory Cell.state).Keeps fun s table : Table => s = table where
  get := by
    rintro _ table id rfl
    rfl
  entries := by
    rintro _ table rfl
    rfl
  set := by
    rintro _ table id address rfl
    exact ⟨_, rfl, rfl⟩

end ProxyUpgrade.Registry
