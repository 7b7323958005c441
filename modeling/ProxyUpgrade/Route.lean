import ProxyUpgrade.Wallet.Proposal
/-!
# Routes to the chain

A call that activates new code is either sent by the signer itself or proposed to a wallet. Which of
the two is settled once, for all calls.
-/

namespace ProxyUpgrade

namespace Route

/-- What became of a call. -/
inductive Outcome where
  /-- It was sent and mined. -/
  | mined (receipt : Receipt)
  /-- It waits in the queue of a wallet for its owners. -/
  | proposed (wallet : Address) (hash : Hash)
  deriving DecidableEq

namespace Outcome

/-- Whether owners still have to act. -/
def isPending : Outcome → Bool
  | mined _ => false
  | proposed _ _ => true

/-- An outcome as JSON. -/
def toJson : Outcome → Json
  | mined receipt =>
    match receipt.toJson with
    | .object members => .object (("kind", .string "mined") :: members)
    | json => json
  | proposed wallet hash =>
    .object [("kind", .string "proposed"), ("safe_address", wallet.toJson),
      ("safe_tx_hash", hash.toJson)]

/-- An outcome from JSON. -/
def ofJson? (json : Json) : Option Outcome := do
  match ← json.tagged? "kind" with
  | ("mined", json) => (Receipt.ofJson? json).map mined
  | ("proposed", json) =>
    let fields ← json.fields? ["safe_address", "safe_tx_hash"]
    pure (proposed (← fields.required "safe_address" Address.ofJson?)
      (← fields.required "safe_tx_hash" Hash.ofJson?))
  | _ => none

end Outcome

end Route

/-- The way that calls take to the chain. -/
inductive Route (m : Type → Type) where
  /-- The signer sends them, again after failures that the policy allows. -/
  | direct (retry : Retry.Policy)
  /-- They are proposed to a wallet. -/
  | wallet (proposer : Wallet.Proposer m)

namespace Route

variable {m : Type → Type}

/-- Whether calls are proposed to a wallet. -/
def isWallet : Route m → Bool
  | direct _ => false
  | wallet _ => true

/-- Sends a call on its way. -/
def send [Monad m] (route : Route m) (clock : Clock m) (signer : Signer m) (call : Call) :
    Action m Outcome :=
  match route with
  | direct retry => do pure (.mined (← retry.run clock (signer.send call)))
  | wallet proposer => do
    pure (.proposed proposer.wallet (← proposer.propose clock signer call))

end Route

end ProxyUpgrade
