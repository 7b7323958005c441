import ProxyUpgrade.Error
/-!
# Actions on the world outside

Whatever lies outside of the program (a node, a wallet service, an explorer, files, the clock) is
reached through a record of operations over a monad `m`, which each program takes as an argument.
The programs themselves work for every such `m`: the command line runs them in `IO`, a rehearsal in
a state that holds a chain, a proof in whatever makes its statement clear.
-/

namespace ProxyUpgrade

/-- Something done outside that may fail. -/
abbrev Action (m : Type → Type) (α : Type) : Type := ExceptT Error m α

namespace Action

/-- The outcome of an action, as an outcome that cannot fail. -/
def outcome {m : Type → Type} {α : Type} (action : Action m α) : m (Except Error α) := action.run

/-- A result that is already there. -/
def ofExcept {m : Type → Type} [Monad m] {α : Type} (result : Except Error α) : Action m α :=
  ExceptT.mk (pure result)

end Action

/-- A place that holds a value of its own in the surroundings of a program. -/
structure Cell (m : Type → Type) (σ : Type) where
  get : m σ
  set : σ → m Unit

namespace Cell

variable {m : Type → Type} [Monad m] {σ τ : Type}

/-- Changes the value of a cell. -/
def modify (cell : Cell m σ) (change : σ → σ) : m Unit := do cell.set (change (← cell.get))

/-- The whole state of a program as a cell. -/
def state : Cell (StateM σ) σ := ⟨MonadState.get, MonadState.set⟩

/-- A part of what a cell holds, as a cell. -/
def part (cell : Cell m σ) (get : σ → τ) (set : τ → σ → σ) : Cell m τ :=
  ⟨do pure (get (← cell.get)), fun value => cell.modify (set value)⟩

end Cell

/-- The passing of time, in milliseconds. -/
structure Clock (m : Type → Type) where
  /-- The time since some fixed moment. -/
  now : m Nat
  /-- Lets time pass. -/
  sleep : Nat → m Unit

end ProxyUpgrade
