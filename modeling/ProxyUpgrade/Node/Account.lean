import ProxyUpgrade.Chain.Call
import ProxyUpgrade.Node.Basic
/-!
# Accounts of a node

An account that a node acts for sends through the node. It signs hashes only if its key is at hand.
-/

namespace ProxyUpgrade.Node

/-- An account that a node sends for. -/
structure Account (m : Type → Type) where
  node : Node m
  address : Address
  /-- The key that hashes are signed with. -/
  key : Option Secp256k1.Key

namespace Account

variable {m : Type → Type} [Monad m]

/-- The address of a key. -/
def addressOf (key : Secp256k1.Key) : Address := .ofPublicBytes key.publicBytes

/-- The account of a key. -/
def ofKey (node : Node m) (key : Secp256k1.Key) : Account m := ⟨node, addressOf key, some key⟩

/-- The first account that a node acts for. -/
def first (node : Node m) : Action m (Account m) := do
  match ← node.accounts with
  | address :: _ => pure ⟨node, address, none⟩
  | [] => throw (.config "node exposes no unlocked account")

/-- What is said of a mined transaction that failed. -/
def failedReceipt : String := "receipt status 0"

/-- Sends a transaction, and waits until it is mined. -/
def submit (account : Account m) (draft : Draft) : Action m Receipt := do
  let transaction ← account.node.send draft
  let receipt ← account.node.awaitReceipt transaction
  if receipt.succeeded then pure receipt else throw (.reverted transaction failedReceipt)

/-- Signs a hash, if the key is at hand. -/
def sign (account : Account m) (hash : Hash) : Except Error (Option Signature) :=
  match account.key with
  | none => .ok none
  | some key =>
    match key.sign? hash.word.toNat with
    | some signature => .ok (some signature)
    | none => .error (.encoding "failed to sign hash: no usable number")

/-- The account as one that acts. -/
def signer (account : Account m) : Signer m where
  address := account.address
  send call := account.submit ⟨account.address, some call.target, call.payload, call.value⟩
  create code := account.submit ⟨account.address, none, code, 0⟩
  sign hash := Action.ofExcept (account.sign hash)

end Account

end ProxyUpgrade.Node
