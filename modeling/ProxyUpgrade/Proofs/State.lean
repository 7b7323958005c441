import ProxyUpgrade.Action
/-!
# Actions on a state

When all that lies outside of a program is a state, an action takes a state to an outcome and a
state (`Action.onState`). Actions done one after another are taken apart by
`Action.onState_bind_cases`: the first fails, and nothing more is done, or the second goes on where
the first has left off.
-/

namespace ProxyUpgrade.Action

variable {σ α β : Type}

/-- The outcome of an action on a state, and the state it leaves. -/
def onState (action : Action (StateM σ) α) (s : σ) : Except Error α × σ :=
  Id.run (action.outcome.run s)

theorem onState_ofExcept (result : Except Error α) (s : σ) :
    (ofExcept result : Action (StateM σ) α).onState s = (result, s) := rfl

theorem onState_bind (action : Action (StateM σ) α) (next : α → Action (StateM σ) β) (s : σ) :
    (action >>= next).onState s =
      match action.onState s with
      | (.ok a, s') => (next a).onState s'
      | (.error e, s') => (.error e, s') := by
  change Id.run ((action.run >>= ExceptT.bindCont next).run s) = _
  rw [StateT.run_bind]
  change Id.run ((ExceptT.bindCont next (action.onState s).1).run (action.onState s).2) = _
  rcases action.onState s with ⟨e | a, s'⟩ <;> rfl

/-- What a successful action leaves is gone on from. -/
theorem onState_bind_ok {action : Action (StateM σ) α} {a : α} {s s' : σ}
    (h : action.onState s = (.ok a, s')) (next : α → Action (StateM σ) β) :
    (action >>= next).onState s = (next a).onState s' := by
  rw [onState_bind, h]

/-- **Two actions are done one after another**, unless the first fails. -/
theorem onState_bind_cases {action : Action (StateM σ) α} {next : α → Action (StateM σ) β}
    {s s' : σ} {result : Except Error β} (h : (action >>= next).onState s = (result, s')) :
    (∃ e, action.onState s = (.error e, s') ∧ result = .error e) ∨
      ∃ a middle, action.onState s = (.ok a, middle) ∧ (next a).onState middle = (result, s') := by
  rw [onState_bind] at h
  rcases hfirst : action.onState s with ⟨e | a, middle⟩
  · simp only [hfirst, Prod.mk.injEq] at h
    obtain ⟨rfl, rfl⟩ := h
    exact .inl ⟨e, rfl, rfl⟩
  · simp only [hfirst] at h
    exact .inr ⟨a, middle, rfl, h⟩

end ProxyUpgrade.Action
