import ProxyUpgrade.Rehearsal.Event
/-!
# Scripted stand-ins

A script is a list of outcomes that are handed out one for each call; the last one is handed out for
ever after. Here stand-ins for a signer, a wallet service and an explorer follow one script for each
of their operations.
-/

namespace ProxyUpgrade.Rehearsal

/-- Outcomes to be handed out. -/
structure Script (α : Type) where
  outcomes : List (Except Error α)

namespace Script

variable {σ α : Type}

/-- The next outcome, if there is any, and the rest of the script. -/
def next? (script : Script α) : Option (Except Error α) × Script α :=
  match script.outcomes with
  | [] => (none, script)
  | [outcome] => (some outcome, ⟨[outcome]⟩)
  | outcome :: rest => (some outcome, ⟨rest⟩)

/-- Hands out the next outcome of a script; an empty one has only failures. -/
def play (cell : Cell (Play σ) (Script α)) : Action (Play σ) α :=
  ExceptT.mk do
    let (outcome, script) := (← cell.get).next?
    cell.set script
    pure (outcome.getD (.error (.config "the script is empty")))

end Script

/-- One script for each operation of the stand-ins. -/
structure Scripts where
  send : Script Receipt
  sign : Script (Option Signature)
  nextNonce : Script (BitVec 64)
  propose : Script Unit
  findPending : Script (Option Hash)
  isVerified : Script Bool
  submit : Script (List Log.Line × Option Error)

namespace Scripts

/-- Scripts without outcomes. -/
def blank : Scripts := ⟨⟨[]⟩, ⟨[]⟩, ⟨[]⟩, ⟨[]⟩, ⟨[]⟩, ⟨[]⟩, ⟨[]⟩⟩

/-- Notes a call and hands out the next outcome for it. -/
def follow {α : Type} (event : Event) (get : Scripts → Script α)
    (set : Script α → Scripts → Scripts) : Action (Play Scripts) α := do
  ExceptT.lift (Play.note event)
  Script.play (Play.props.part get set)

/-- A signer that follows the scripts. It creates no contracts. -/
def signer (address : Address) : Signer (Play Scripts) where
  address := address
  send call := follow (.send call) (·.send) fun s scripts => { scripts with send := s }
  create _ := throw (.config "this signer creates no contracts")
  sign hash := follow (.sign hash) (·.sign) fun s scripts => { scripts with sign := s }

/-- A wallet service that follows the scripts. -/
def service : Wallet.Service (Play Scripts) where
  nextNonce wallet :=
    follow (.nextNonce wallet) (·.nextNonce) fun s scripts => { scripts with nextNonce := s }
  propose proposal :=
    follow (.propose proposal) (·.propose) fun s scripts => { scripts with propose := s }
  findPending wallet target data :=
    follow (.findPending wallet target data) (·.findPending) fun s scripts =>
      { scripts with findPending := s }

/-- An explorer that follows the scripts. -/
def explorer : Explorer (Play Scripts) where
  isVerified target :=
    follow (.isVerified target) (·.isVerified) fun s scripts => { scripts with isVerified := s }
  submit target := do
    let outcome ← (follow (.submit target) (·.submit) fun s scripts =>
      { scripts with submit := s }).outcome
    match outcome with
    | .ok (lines, none) => pure (lines, .ok ())
    | .ok (lines, some error) => pure (lines, .error error)
    | .error error => pure ([], .error error)

end Scripts

end ProxyUpgrade.Rehearsal
