import ProxyUpgrade.Chain.Call
import ProxyUpgrade.Retry
import ProxyUpgrade.Wallet.Transaction
/-!
# Proposals to a wallet

A call reaches a wallet as a *proposal*: a transaction with the wallet's next unused nonce, its hash
and one owner's signature. It waits in the queue of the wallet's service until the owners execute
it.

A call that is already waiting is not proposed again; the hash of the waiting transaction is the
result. Otherwise the nonce is asked for afresh for every proposal, so that two proposals made one
after the other never share one.
-/

namespace ProxyUpgrade.Wallet

/-- What the service of a wallet needs to queue a transaction. -/
structure Proposal where
  wallet : Address
  transaction : Transaction
  hash : Hash
  sender : Address
  signature : Signature
  deriving DecidableEq

/-- The service that keeps the queue of wallets. -/
structure Service (m : Type → Type) where
  /-- The next nonce that no executed or queued transaction of a wallet has. -/
  nextNonce : (wallet : Address) → Action m (BitVec 64)
  /-- Queues a proposal. -/
  propose : Proposal → Action m Unit
  /-- The hash of a transaction of a wallet, queued and not yet executed, that calls `target` with
  `data`. -/
  findPending : (wallet target : Address) → (data : Bytes) → Action m (Option Hash)

/-- Proposes calls to one wallet. -/
structure Proposer (m : Type → Type) where
  service : Service m
  wallet : Address
  chain : BitVec 64
  retry : Retry.Policy

namespace Proposer

/-- The policy of a proposer unless another is chosen. -/
def defaultRetry : Retry.Policy := .transient 3 2000

variable {m : Type → Type} [Monad m]

/-- Signs a transaction as a proposal. -/
def signed (p : Proposer m) (signer : Signer m) (transaction : Transaction) :
    Action m Proposal := do
  let hash := transaction.signingHash p.chain p.wallet
  match ← signer.sign hash with
  | some signature => pure ⟨p.wallet, transaction, hash, signer.address, signature⟩
  | none => throw (.signatureMissing signer.address hash)

/-- Has a call queued and gives the hash of the queued transaction. -/
def propose (p : Proposer m) (clock : Clock m) (signer : Signer m) (call : Call) :
    Action m Hash := do
  match ← p.retry.run clock (p.service.findPending p.wallet call.target call.payload) with
  | some hash => pure hash
  | none =>
    let nonce ← p.retry.run clock (p.service.nextNonce p.wallet)
    let proposal ← p.signed signer (.ofCall call nonce)
    p.retry.run clock (p.service.propose proposal)
    pure proposal.hash

end Proposer

end ProxyUpgrade.Wallet
