import Mathlib.Data.List.Nodup
import ProxyUpgrade.Proofs.Dialogue
import ProxyUpgrade.Proofs.Registry.WriteOnce
/-!
# Calls that are made at the same time

To save a proxy takes two operations of the store: its row is asked for, and written if there is
none. Between the two of one call others may do theirs. A call is therefore taken as the operations
that it has still to do (`Registry.Thread`), and several calls are run by letting them take turns in
some order (`Registry.Store.interleaved`).

Calls for different deployments write different rows, so none of them finds out when the others take
their turns (`Registry.Undisturbed`). That is shown of any store where a row that is not there can
be written whatever other rows have been, or can never be (`Registry.Store.Serves`). Each turn keeps
every call in one of three stages, according to the rows that were written (`Registry.Stage`), and
the last stage settles what the call returns.
-/

namespace ProxyUpgrade.Registry

open ProxyUpgrade.Action

variable {σ : Type}

/-! ### Operations taken in turns -/

/-- An operation of a store. -/
inductive Operation where
  | get (id : String)
  | set (id : String) (address : Address)
  | entries

/-- What an operation comes to. -/
abbrev Operation.Outcome : Operation → Type
  | .get _ => Except Error (Option Address)
  | .set _ _ => Except Error Unit
  | .entries => Except Error (List Entry)

/-- A store whose operations are still to be done. -/
def Store.asked : Store (Dialogue Operation Operation.Outcome) where
  get id := ExceptT.mk (.question (Operation.get id))
  set id address := ExceptT.mk (.question (Operation.set id address))
  entries := ExceptT.mk (.question Operation.entries)

/-- A proxy to be saved for a deployment. -/
structure Save where
  key : Key
  address : Address
  deriving DecidableEq

namespace Save

/-- The call that saves it. -/
def call (save : Save) : Call := .save save.key save.address

/-- The row that it is saved in. -/
def row (save : Save) : Entry := ⟨save.key.text, save.address⟩

end Save

/-- What is left of a call that saves a proxy: the operations that it has still to do. -/
abbrev Thread : Type := Dialogue Operation Operation.Outcome (Except Error Unit)

/-- A call of which nothing is done yet. -/
def Save.thread (save : Save) : Thread := (saveProxy .asked save.key save.address).run

namespace Store

variable (store : Store (StateM σ))

/-- What an operation comes to on a state of a store, and the state that it leaves. -/
def perform (s : σ) : (operation : Operation) → operation.Outcome × σ
  | .get id => (store.get id).onState s
  | .set id address => (store.set id address).onState s
  | .entries => store.entries.onState s

/-- A call does its next operation, if there is any left. -/
def advance : Thread × σ → Thread × σ
  | (.done outcome, s) => (.done outcome, s)
  | (.ask operation next, s) =>
    let (answer, s) := store.perform s operation
    (next answer, s)

/-- It is the turn of the call at some place. -/
def turn (state : List Thread × σ) (place : Nat) : List Thread × σ :=
  match state.1[place]? with
  | some thread =>
    let (thread, s) := store.advance (thread, state.2)
    (state.1.set place thread, s)
  | none => state

/-- Calls are made at the same time, and take turns in some order. -/
def interleaved (saves : List Save) (turns : List Nat) (s : σ) : List Thread × σ :=
  turns.foldl store.turn (saves.map Save.thread, s)

/-- All calls have returned after some turns, and have left a state. -/
def Returns (saves : List Save) (turns : List Nat) (start : σ)
    (outcomes : List (Except Error Unit)) (s : σ) : Prop :=
  store.interleaved saves turns start = (outcomes.map .done, s)

end Store

/-- **Calls that do not disturb each other**, made on a state of a store that has a table. -/
structure Undisturbed (store : Store (StateM σ)) (start : σ) (table : Table) (saves : List Save) :
    Prop where
  /-- Two turns are enough for a call to return, whenever they come. -/
  returns : ∀ turns : List Nat, (∀ place < saves.length, 2 ≤ turns.count place) →
    ∃ outcomes s, store.Returns saves turns start outcomes s
  /-- When all have returned, each has returned what it does when they are made one after another in
  any order, and the rows are the same. -/
  same : ∀ turns outcomes s, store.Returns saves turns start outcomes s →
    ∀ order : List Save, order.Perm saves → ∃ outcomes',
      replies store (order.map Save.call) start = outcomes'.map .saved ∧
      (order.zip outcomes').Perm (saves.zip outcomes) ∧
      (store.entries.onState (after store (order.map Save.call) start)).1 =
        (store.entries.onState s).1
  /-- The rows are those that were there and those of the calls that have succeeded, each once. Only
  where there were none may they be out of reach, and then no call has succeeded. -/
  rows : ∀ turns outcomes s, store.Returns saves turns start outcomes s →
    (∃ now : Table, (store.entries.onState s).1 = .ok now.rows ∧ ∀ row, row ∈ now.rows ↔
      row ∈ table.rows ∨ ∃ save, (save, .ok ()) ∈ saves.zip outcomes ∧ save.row = row) ∨
    table = .empty ∧ ∀ outcome ∈ outcomes, ∃ e, outcome = .error e

/-! ### The operations of one call -/

namespace Save

variable {save : Save} {id : String}

/-- What a call goes on with when it has asked for its row. -/
def next (save : Save) (id : String) : Except Error (Option Address) → Thread
  | .error e => .done (.error e)
  | .ok (some existing) =>
    if existing = save.address then .done (.ok ())
    else .done (.error (.registryInconsistency (conflict id existing save.address)))
  | .ok none => .ask (.set id save.address) .done

theorem thread_eq (hid : save.key.id = .ok id) : save.thread = .ask (.get id) (save.next id) := by
  rw [thread, saveProxy, hid]
  refine congrArg (Dialogue.ask (Operation.get id)) (funext fun answer => ?_)
  rcases answer with e | - | existing <;> rfl

theorem id_eq (hvalid : save.key.Valid) : save.key.id = .ok save.row.id :=
  Key.id_eq_ok_iff.mpr ⟨hvalid, rfl⟩

end Save

/-- **A call that takes its turns without a break** is the call as it is made by itself. -/
theorem Store.advance_thread (store : Store (StateM σ)) (save : Save) (s : σ) :
    store.advance (store.advance (save.thread, s)) =
      ((saveProxy store save.key save.address).onState s).map .done id := by
  rcases hid : save.key.id with e | id
  · rw [Save.thread, saveProxy, saveProxy, hid]
    rfl
  rw [Save.thread_eq hid, saveProxy, hid, onState_bind, onState_ofExcept]
  simp only [Store.advance, Store.perform, onState_bind]
  rcases (store.get id).onState s with ⟨e | - | existing, s'⟩
  · rfl
  · rfl
  · by_cases heq : existing = save.address
    · simp only [Save.next, if_pos heq]
      rfl
    · simp only [Save.next, if_neg heq]
      rfl

/-! ### Stages of a call -/

/-- **A store serves each call as if there were no other.** Its states are told by the rows that
were written since it had a table: what is in the table is found, and whether a row that is not can
be written is settled beforehand. -/
structure Store.Serves (store : Store (StateM σ)) (table : Table) (writing : Except Error Unit)
    (reached : σ → List Entry → Prop) : Prop where
  found : ∀ {s rows id address}, reached s rows → table.get? id = some address →
    (store.get id).onState s = (.ok (some address), s)
  /-- A row that was not written is not found; or a write has failed, and nothing can be read since.
  -/
  free : ∀ {s rows id}, reached s rows → table.get? id = none → (∀ row ∈ rows, row.id ≠ id) →
    (store.get id).onState s = (.ok none, s) ∨ ∃ e, writing = .error e ∧
      (store.get id).onState s = (.error e, s) ∧ ∀ address, reached s (⟨id, address⟩ :: rows)
  set : ∀ {s rows id} address, reached s rows → table.get? id = none →
    (∀ row ∈ rows, row.id ≠ id) → ∃ s', (store.set id address).onState s = (writing, s') ∧
      reached s' (⟨id, address⟩ :: rows)
  /-- The order in which rows were written does not matter. -/
  same : ∀ {s s' rows rows'}, reached s rows → reached s' rows' →
    (∀ row, row ∈ rows ↔ row ∈ rows') →
      (store.entries.onState s).1 = (store.entries.onState s').1
  listed : ∀ {s rows}, reached s rows →
    (∃ now : Table, (store.entries.onState s).1 = .ok now.rows ∧
      ∀ row, row ∈ now.rows ↔ row ∈ table.rows ∨ writing = .ok () ∧ row ∈ rows) ∨
    table = .empty ∧ ∃ e, writing = .error e

/-- What a call returns, whatever others are made. -/
def Save.outcome (table : Table) (writing : Except Error Unit) (save : Save) : Except Error Unit :=
  match table.get? save.row.id with
  | some existing =>
    if existing = save.address then .ok ()
    else .error (.registryInconsistency (conflict save.row.id existing save.address))
  | none => writing

theorem Save.outcome_of_free {table : Table} {writing : Except Error Unit} {save : Save}
    (h : table.get? save.row.id = none) : save.outcome table writing = writing := by
  rw [outcome, h]

theorem Save.next_found {table : Table} {save : Save} {existing : Address}
    (h : table.get? save.row.id = some existing) (writing : Except Error Unit) :
    save.next save.row.id (.ok (some existing)) = .done (save.outcome table writing) := by
  simp only [next, outcome, h]
  split <;> rfl

/-- The stages of a call, when some rows were written: it has done nothing, or found that its row is
not there, or returned. -/
inductive Stage (table : Table) (writing : Except Error Unit) (rows : List Entry) (save : Save) :
    Thread → Prop
  | start (h : ∀ row ∈ rows, row.id ≠ save.row.id) : Stage table writing rows save save.thread
  | write (h : ∀ row ∈ rows, row.id ≠ save.row.id) (hfree : table.get? save.row.id = none) :
    Stage table writing rows save (.ask (.set save.row.id save.address) .done)
  | returned {outcome : Except Error Unit} (houtcome : outcome = save.outcome table writing)
    (h : table.get? save.row.id = none → save.row ∈ rows) :
    Stage table writing rows save (.done outcome)

variable {store : Store (StateM σ)} {table : Table} {writing : Except Error Unit}
  {reached : σ → List Entry → Prop} {s : σ} {rows : List Entry} {save : Save} {thread : Thread}

/-- **The stage of a call is not concerned by the row of another one.** -/
theorem Stage.mono (h : Stage table writing rows save thread) {row : Entry}
    (hne : row.id ≠ save.row.id) : Stage table writing (row :: rows) save thread := by
  cases h with
  | start h => exact .start (List.forall_mem_cons.mpr ⟨hne, h⟩)
  | write h hfree => exact .write (List.forall_mem_cons.mpr ⟨hne, h⟩) hfree
  | returned houtcome h => exact .returned houtcome fun hfree => List.mem_cons_of_mem _ (h hfree)

/-- A call that has returned has returned what it does in any case. -/
theorem Stage.of_done {outcome : Except Error Unit} (hvalid : save.key.Valid)
    (h : Stage table writing rows save (.done outcome)) :
    outcome = save.outcome table writing ∧ (table.get? save.row.id = none → save.row ∈ rows) := by
  generalize hthread : (Dialogue.done outcome : Thread) = thread at h
  cases h with
  | start h =>
    rw [Save.thread_eq (save.id_eq hvalid)] at hthread
    cases hthread
  | write h hfree => cases hthread
  | returned houtcome h =>
    cases hthread
    exact ⟨houtcome, h⟩

/-- **An operation takes a call to its next stage**, and writes no row but that of the call. -/
theorem Store.Serves.advance (h : store.Serves table writing reached) (hvalid : save.key.Valid)
    (hs : reached s rows) (hstage : Stage table writing rows save thread) :
    ∃ rows', (rows' = rows ∨ rows' = save.row :: rows ∧ table.get? save.row.id = none) ∧
      reached (store.advance (thread, s)).2 rows' ∧
      Stage table writing rows' save (store.advance (thread, s)).1 := by
  cases hstage with
  | start hnew =>
    rw [Save.thread_eq (save.id_eq hvalid)]
    simp only [Store.advance, Store.perform]
    rcases hget : table.get? save.row.id with - | existing
    · have houtcome : save.outcome table writing = writing := Save.outcome_of_free hget
      rcases h.free hs hget hnew with hnone | ⟨e, rfl, hfailed, hlost⟩
      · rw [hnone]
        exact ⟨rows, .inl rfl, hs, .write hnew hget⟩
      · rw [hfailed]
        exact ⟨_, .inr ⟨rfl, rfl⟩, hlost save.address,
          .returned houtcome.symm fun _ => List.mem_cons_self⟩
    · rw [h.found hs hget]
      refine ⟨rows, .inl rfl, hs, ?_⟩
      simp only [Save.next_found hget writing]
      exact .returned rfl fun hnone => by cases hget.symm.trans hnone
  | write hnew hfree =>
    obtain ⟨s', hset, hs'⟩ := h.set save.address hs hfree hnew
    simp only [Store.advance, Store.perform, hset]
    exact ⟨_, .inr ⟨rfl, hfree⟩, hs',
      .returned (Save.outcome_of_free hfree).symm fun _ => List.mem_cons_self⟩
  | returned houtcome hrow => exact ⟨rows, .inl rfl, hs, .returned houtcome hrow⟩

/-! ### Calls that take turns -/

variable {saves : List Save} {state : List Thread × σ}

/-- **How far calls have got** that take turns, when some rows were written. -/
structure Midway (table : Table) (writing : Except Error Unit) (reached : σ → List Entry → Prop)
    (saves : List Save) (state : List Thread × σ) (rows : List Entry) : Prop where
  reached : reached state.2 rows
  length : state.1.length = saves.length
  stage : ∀ {place : Nat} {save thread}, saves[place]? = some save →
    state.1[place]? = some thread → Stage table writing rows save thread
  own : ∀ row ∈ rows, ∃ save ∈ saves, save.row = row ∧ table.get? save.row.id = none

/-- **A turn takes the calls further.** -/
theorem Midway.turn (h : store.Serves table writing reached)
    (hvalid : ∀ save ∈ saves, save.key.Valid) (hdistinct : (saves.map (·.row.id)).Nodup)
    (hstate : Midway table writing reached saves state rows) (place : Nat) :
    ∃ rows', Midway table writing reached saves (store.turn state place) rows' := by
  rw [Store.turn]
  split
  next thread hthread =>
    have hlt : place < saves.length := hstate.length ▸ (List.getElem?_eq_some_iff.mp hthread).1
    have hsave : saves[place]? = some saves[place] := List.getElem?_eq_getElem hlt
    have hmem : saves[place] ∈ saves := List.getElem_mem hlt
    obtain ⟨rows', hrows, hreached, hnext⟩ :=
      h.advance (hvalid _ hmem) hstate.reached (hstate.stage hsave hthread)
    refine ⟨rows', hreached, by simp [hstate.length], ?_, ?_⟩
    · intro other save' thread' hsave' hthread'
      by_cases heq : place = other
      · subst heq
        obtain rfl : saves[place] = save' := Option.some.inj (hsave.symm.trans hsave')
        rw [List.getElem?_set_self (hstate.length ▸ hlt)] at hthread'
        exact Option.some.inj hthread' ▸ hnext
      · rw [List.getElem?_set_ne heq] at hthread'
        have hother := hstate.stage hsave' hthread'
        rcases hrows with rfl | ⟨rfl, -⟩
        · exact hother
        -- The row that was written is that of another call.
        · refine hother.mono fun hid => heq ?_
          refine (List.getElem?_inj (by simpa using hlt) hdistinct).mp ?_
          rw [List.getElem?_map, List.getElem?_map, hsave, hsave']
          exact congrArg some hid
    · rcases hrows with rfl | ⟨rfl, hfree⟩
      · exact hstate.own
      · exact List.forall_mem_cons.mpr ⟨⟨_, hmem, rfl, hfree⟩, hstate.own⟩
  next => exact ⟨rows, hstate⟩

/-- **All turns together take the calls from their start further.** -/
theorem midway_interleaved (h : store.Serves table writing reached)
    (hvalid : ∀ save ∈ saves, save.key.Valid) (hdistinct : (saves.map (·.row.id)).Nodup)
    (hs : reached s []) (turns : List Nat) :
    ∃ rows, Midway table writing reached saves (store.interleaved saves turns s) rows := by
  have hstart : Midway table writing reached saves (saves.map Save.thread, s) [] := by
    refine ⟨hs, by simp, fun {place save thread} hsave hthread => ?_, by simp⟩
    rw [List.getElem?_map, hsave] at hthread
    exact Option.some.inj hthread ▸ .start (by simp)
  rw [Store.interleaved]
  generalize (saves.map Save.thread, s) = state at hstart ⊢
  generalize ([] : List Entry) = rows at hstart
  induction turns generalizing state rows with
  | nil => exact ⟨rows, hstart⟩
  | cons place turns ih =>
    obtain ⟨rows', hnext⟩ := hstart.turn h hvalid hdistinct place
    exact ih _ rows' hnext

/-- **When all calls have returned**, the rows of those are written whose rows were not there. -/
theorem Midway.of_returned {outcomes : List (Except Error Unit)}
    (hvalid : ∀ save ∈ saves, save.key.Valid)
    (h : Midway table writing reached saves (outcomes.map .done, s) rows) :
    outcomes = saves.map (·.outcome table writing) ∧
      ∀ row, row ∈ rows ↔ ∃ save ∈ saves, save.row = row ∧ table.get? save.row.id = none := by
  have hlength : outcomes.length = saves.length := by simpa using h.length
  have hdone : ∀ place (hplace : place < saves.length),
      outcomes[place] = saves[place].outcome table writing ∧
        (table.get? saves[place].row.id = none → saves[place].row ∈ rows) := by
    intro place hplace
    refine (h.stage (List.getElem?_eq_getElem hplace) ?_).of_done
      (hvalid _ (List.getElem_mem hplace))
    rw [List.getElem?_map, List.getElem?_eq_getElem (hlength ▸ hplace)]
    rfl
  refine ⟨List.ext_getElem (by simpa using hlength) fun place _ hplace => ?_, fun row => ?_⟩
  · rw [List.getElem_map]
    exact (hdone place (by simpa using hplace)).1
  · refine ⟨h.own row, ?_⟩
    rintro ⟨save, hsave, rfl, hfree⟩
    obtain ⟨place, hplace, rfl⟩ := List.getElem_of_mem hsave
    exact (hdone place hplace).2 hfree

/-! ### Calls that return -/

/-- A call returns within some number of turns. -/
def EndsWithin : Nat → Thread → Prop
  | _, .done _ => True
  | 0, .ask _ _ => False
  | n + 1, .ask _ next => ∀ answer, EndsWithin n (next answer)

theorem endsWithin_done (n : Nat) (outcome : Except Error Unit) : EndsWithin n (.done outcome) := by
  cases n <;> trivial

theorem EndsWithin.mono {n m : Nat} (h : EndsWithin n thread) (hle : n ≤ m) :
    EndsWithin m thread := by
  induction thread generalizing n m with
  | done outcome => exact endsWithin_done m outcome
  | ask operation next ih =>
    cases n with
    | zero => cases h
    | succ n =>
      obtain ⟨m, rfl⟩ := Nat.exists_eq_succ_of_ne_zero (Nat.ne_zero_of_lt hle)
      exact fun answer => ih answer (h answer) (Nat.le_of_succ_le_succ hle)

/-- **A call returns within two turns.** -/
theorem endsWithin_thread (save : Save) : EndsWithin 2 save.thread := by
  rcases hid : save.key.id with e | id
  · rw [Save.thread, saveProxy, hid]
    trivial
  rw [Save.thread_eq hid]
  intro answer
  rcases answer with e | - | existing
  · trivial
  · exact fun _ => trivial
  · simp only [Save.next]
    split <;> trivial

theorem EndsWithin.advance {n : Nat} (h : EndsWithin (n + 1) thread) (s : σ) :
    EndsWithin n (store.advance (thread, s)).1 := by
  cases thread with
  | done outcome => exact endsWithin_done n outcome
  | ask operation next => exact h _

theorem exists_outcomes {threads : List Thread} (h : ∀ thread ∈ threads, EndsWithin 0 thread) :
    ∃ outcomes : List (Except Error Unit), threads = outcomes.map .done := by
  induction threads with
  | nil => exact ⟨[], rfl⟩
  | cons thread threads ih =>
    obtain ⟨hthread, hthreads⟩ := List.forall_mem_cons.mp h
    obtain ⟨outcomes, rfl⟩ := ih hthreads
    cases thread with
    | done outcome => exact ⟨outcome :: outcomes, rfl⟩
    | ask operation next => cases hthread

/-- **Calls return** that get as many turns as they need, whatever turns the others get. -/
theorem exists_returned {turns : List Nat} (h : ∀ {place : Nat} {thread},
      state.1[place]? = some thread → EndsWithin (turns.count place) thread) :
    ∃ (outcomes : List (Except Error Unit)) (s' : σ),
      turns.foldl store.turn state = (outcomes.map .done, s') := by
  induction turns generalizing state with
  | nil =>
    have hdone : ∀ thread ∈ state.1, EndsWithin 0 thread := by
      intro thread hmem
      obtain ⟨place, hplace⟩ := List.mem_iff_getElem?.mp hmem
      exact h hplace
    obtain ⟨outcomes, houtcomes⟩ := exists_outcomes hdone
    exact ⟨outcomes, state.2, by rw [List.foldl_nil, ← houtcomes]⟩
  | cons place turns ih =>
    refine ih fun {other thread} hthread => ?_
    rw [Store.turn] at hthread
    split at hthread
    next current hcurrent =>
      by_cases heq : place = other
      · subst heq
        have hlt := (List.getElem?_eq_some_iff.mp hcurrent).1
        rw [List.getElem?_set_self hlt] at hthread
        have hends := h hcurrent
        rw [List.count_cons_self] at hends
        exact Option.some.inj hthread ▸ hends.advance state.2
      · rw [List.getElem?_set_ne heq] at hthread
        have hends := h hthread
        rwa [List.count_cons_of_ne heq] at hends
    next hnone =>
      have hends := h hthread
      rwa [List.count_cons_of_ne] at hends
      rintro rfl
      cases hnone.symm.trans hthread

/-! ### Calls one after another -/

/-- **A call by itself** returns what it does among others. -/
theorem Store.Serves.answer_save (h : store.Serves table writing reached) (hvalid : save.key.Valid)
    (hs : reached s rows) (hnew : ∀ row ∈ rows, row.id ≠ save.row.id) :
    ∃ s' rows', answer store s save.call = (.saved (save.outcome table writing), s') ∧
      reached s' rows' ∧
      ∀ row, row ∈ rows' ↔ row ∈ rows ∨ save.row = row ∧ table.get? save.row.id = none := by
  obtain ⟨first, hfirst, hs₁, hstage₁⟩ := h.advance hvalid hs (.start hnew)
  obtain ⟨second, hsecond, hs₂, hstage₂⟩ := h.advance hvalid hs₁ hstage₁
  -- After its two turns the call has returned.
  have hadvance := store.advance_thread save s
  rw [hadvance] at hs₂ hstage₂
  obtain ⟨houtcome, hrow⟩ := hstage₂.of_done hvalid
  refine ⟨_, second, Prod.ext (congrArg Reply.saved houtcome) rfl, hs₂, fun row => ?_⟩
  constructor
  · rcases hfirst with rfl | ⟨rfl, hfree⟩ <;> rcases hsecond with rfl | ⟨rfl, hfree⟩ <;>
      simp_all [or_imp, eq_comm]
  · rintro (hmem | ⟨rfl, hfree⟩)
    · rcases hfirst with rfl | ⟨rfl, -⟩ <;> rcases hsecond with rfl | ⟨rfl, -⟩ <;> simp [hmem]
    · exact hrow hfree

/-- **Calls one after another** return what they do when they take turns, and write the same rows.
-/
theorem Store.Serves.replies_saves (h : store.Serves table writing reached)
    (hvalid : ∀ save ∈ saves, save.key.Valid) (hdistinct : (saves.map (·.row.id)).Nodup)
    (hs : reached s rows) (hnew : ∀ save ∈ saves, ∀ row ∈ rows, row.id ≠ save.row.id) :
    replies store (saves.map Save.call) s =
        (saves.map (·.outcome table writing)).map Reply.saved ∧
      ∃ rows', reached (after store (saves.map Save.call) s) rows' ∧ ∀ row, row ∈ rows' ↔
        row ∈ rows ∨ ∃ save ∈ saves, save.row = row ∧ table.get? save.row.id = none := by
  induction saves generalizing s rows with
  | nil => exact ⟨rfl, rows, hs, by simp⟩
  | cons save saves ih =>
    obtain ⟨hvalidFirst, hvalidRest⟩ := List.forall_mem_cons.mp hvalid
    obtain ⟨hfirst, hrest⟩ := List.nodup_cons.mp hdistinct
    obtain ⟨hnewFirst, hnewRest⟩ := List.forall_mem_cons.mp hnew
    obtain ⟨s', rows₁, hanswer, hs', hrows₁⟩ := h.answer_save hvalidFirst hs hnewFirst
    have hnew' : ∀ other ∈ saves, ∀ row ∈ rows₁, row.id ≠ other.row.id := by
      intro other hother row hrow
      rcases (hrows₁ row).mp hrow with hrow | ⟨rfl, -⟩
      · exact hnewRest other hother row hrow
      · exact fun heq => hfirst (List.mem_map.mpr ⟨other, hother, heq.symm⟩)
    obtain ⟨hreplies, rows', hafter, hrows'⟩ := ih hvalidRest hrest hs' hnew'
    refine ⟨?_, rows', ?_, fun row => ?_⟩
    · rw [List.map_cons, replies, hanswer, hreplies]
      rfl
    · rw [List.map_cons, after, List.foldl_cons, hanswer]
      exact hafter
    · rw [hrows', hrows₁, or_assoc, List.exists_mem_cons_iff]

/-! ### Calls that do not disturb each other -/

/-- Different valid keys have different rows. -/
theorem nodup_rows (hvalid : ∀ save ∈ saves, save.key.Valid)
    (hdistinct : (saves.map Save.key).Nodup) : (saves.map (·.row.id)).Nodup := by
  have htexts : saves.map (·.row.id) = (saves.map Save.key).map Key.text := by
    simp [Save.row, Function.comp_def]
  rw [htexts]
  refine List.Nodup.map_on (fun key hkey other hother => ?_) hdistinct
  obtain ⟨save, hsave, rfl⟩ := List.mem_map.mp hkey
  obtain ⟨save', hsave', rfl⟩ := List.mem_map.mp hother
  exact Key.text_injective (hvalid save hsave) (hvalid save' hsave')

/-- **Calls for different deployments do not disturb each other** on a store that serves each as if
there were no other. -/
theorem Store.Serves.undisturbed (h : store.Serves table writing reached) {start : σ}
    (hstart : reached start []) (hvalid : ∀ save ∈ saves, save.key.Valid)
    (hdistinct : (saves.map Save.key).Nodup) : Undisturbed store start table saves := by
  have hrows := nodup_rows hvalid hdistinct
  have hend : ∀ turns outcomes s, store.Returns saves turns start outcomes s →
      outcomes = saves.map (·.outcome table writing) ∧ ∃ rows, reached s rows ∧
        ∀ row, row ∈ rows ↔ ∃ save ∈ saves, save.row = row ∧ table.get? save.row.id = none := by
    intro turns outcomes s hreturns
    obtain ⟨rows, hmidway⟩ := midway_interleaved h hvalid hrows hstart turns
    rw [hreturns] at hmidway
    obtain ⟨houtcomes, hwritten⟩ := hmidway.of_returned hvalid
    exact ⟨houtcomes, rows, hmidway.reached, hwritten⟩
  refine ⟨fun turns hturns => ?_, fun turns outcomes s hreturns order horder => ?_,
    fun turns outcomes s hreturns => ?_⟩
  · refine exists_returned fun {place thread} hthread => ?_
    rw [List.getElem?_map, Option.map_eq_some_iff] at hthread
    obtain ⟨save, hsave, rfl⟩ := hthread
    exact (endsWithin_thread save).mono (hturns place (List.getElem?_eq_some_iff.mp hsave).1)
  · obtain ⟨rfl, rows, hs, hwritten⟩ := hend turns outcomes s hreturns
    have horderRows : (order.map (·.row.id)).Nodup :=
      (horder.map (·.row.id)).nodup_iff.mpr hrows
    obtain ⟨hreplies, rows', hafter, hwritten'⟩ := h.replies_saves
      (fun save hsave => hvalid save (horder.mem_iff.mp hsave)) horderRows hstart (by simp)
    refine ⟨_, hreplies, ?_, h.same hafter hs fun row => ?_⟩
    · rw [← List.map_prod_left_eq_zip, ← List.map_prod_left_eq_zip]
      exact horder.map _
    · rw [hwritten', hwritten]
      simp [horder.mem_iff]
  · obtain ⟨rfl, rows, hs, hwritten⟩ := hend turns outcomes s hreturns
    rcases h.listed hs with ⟨now, hnow, hmem⟩ | ⟨rfl, e, rfl⟩
    · refine .inl ⟨now, hnow, fun row => ?_⟩
      rw [hmem, hwritten, ← List.map_prod_left_eq_zip]
      constructor
      · rintro (hrow | ⟨hok, save, hsave, rfl, hfree⟩)
        · exact .inl hrow
        · refine .inr ⟨save, List.mem_map.mpr ⟨save, hsave, ?_⟩, rfl⟩
          rw [Save.outcome_of_free hfree, hok]
      · rintro (hrow | ⟨save, hsave, rfl⟩)
        · exact .inl hrow
        obtain ⟨other, hother, heq⟩ := List.mem_map.mp hsave
        obtain ⟨rfl, houtcome⟩ := Prod.mk.inj heq
        -- A call that has succeeded has written its row, or found it.
        rcases hget : table.get? other.row.id with - | existing
        · rw [Save.outcome_of_free hget] at houtcome
          exact .inr ⟨houtcome, other, hother, rfl, hget⟩
        · rw [Save.outcome, hget] at houtcome
          by_cases hsame : existing = other.address
          · exact .inl (Table.mem_rows_iff.mpr (hget.trans (congrArg some hsame)))
          · simp [hsame] at houtcome
    · refine .inr ⟨rfl, fun outcome houtcome => ⟨e, ?_⟩⟩
      obtain ⟨save, -, rfl⟩ := List.mem_map.mp houtcome
      exact Save.outcome_of_free rfl

end ProxyUpgrade.Registry
