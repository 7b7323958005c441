import ProxyUpgrade.Explorer.Target
import ProxyUpgrade.Wallet.Proposal
/-!
# What happens in a rehearsal

In a rehearsal everything outside of the program is played by stand-ins, and time passes only where
the program waits. Every call of a stand-in is an event, which is noted with the time at which it
happened. A `Stage` holds the time and the notes, and whatever else the stand-ins need.
-/

namespace ProxyUpgrade.Rehearsal

/-- A call of a stand-in. -/
inductive Event where
  | artifact (name : String)
  | createProxy (data : Bytes)
  | prepareUpgrade (proxy : Address)
  | currentImplementation (proxy : Address)
  | contractExists (address : Address)
  | validateUpgrade (proxy candidate : Address) (name : String)
  | send (call : Call)
  | sign (hash : Hash)
  | nextNonce (wallet : Address)
  | propose (proposal : Wallet.Proposal)
  | findPending (wallet target : Address) (data : Bytes)
  | isVerified (target : Explorer.Target)
  | submit (target : Explorer.Target)

/-- The time, what has happened, and the state of the stand-ins. -/
structure Stage (σ : Type) where
  now : Nat
  /-- What has happened, with its time, the latest first. -/
  notes : List (Nat × Event)
  props : σ

namespace Stage

variable {σ : Type}

/-- A stage before anything has happened. -/
def set (props : σ) : Stage σ := ⟨0, [], props⟩

/-- What has happened, in order. -/
def events (stage : Stage σ) : List (Nat × Event) := stage.notes.reverse

end Stage

/-- A program on a stage. -/
abbrev Play (σ : Type) : Type → Type := StateM (Stage σ)

namespace Play

variable {σ : Type}

/-- The clock of a stage: waiting is all that takes time. -/
def clock : Clock (Play σ) where
  now := do pure (← get).now
  sleep span := modify fun stage => { stage with now := stage.now + span }

/-- Notes a call of a stand-in. -/
def note (event : Event) : Play σ Unit :=
  modify fun stage => { stage with notes := (stage.now, event) :: stage.notes }

/-- What the stand-ins need, as a cell. -/
def props : Cell (Play σ) σ :=
  Cell.state.part (·.props) fun props stage => { stage with props }

end Play

end ProxyUpgrade.Rehearsal
