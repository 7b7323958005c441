import ProxyUpgrade.Chain.Receipt
import ProxyUpgrade.Http.Basic
import ProxyUpgrade.Poll
/-!
# Nodes

A node of the chain is asked by calling its methods: a document with the method and its arguments is
sent, and one with a result or an error comes back. Whatever goes wrong with sending it or with
reading the reply is a failure of the network; an error of the node is none, so that it is not tried
again.

Once a transaction is out, its receipt is waited for. When that takes too long the transaction may
still be mined, so the failure (`Error.receiptTimeout`) is not one that is tried again either.
-/

namespace ProxyUpgrade

/-- A node, and how it is reached. -/
structure Node (m : Type → Type) where
  http : Http m
  clock : Clock m
  url : Url
  /-- How long a receipt is waited for. -/
  patience : Span

namespace Node

variable {m : Type → Type} [Monad m]

/-! ### Calls of methods -/

/-- The document that calls a method. -/
def document (method : String) (args : List Json) : Json :=
  .object [("id", .integer 1), ("jsonrpc", .string "2.0"), ("method", .string method),
    ("params", .array args)]

/-- What a node says about an error. -/
def reasonOf (error : Json) : String :=
  ((error.member? "message").bind Json.text?).getD "unknown"

/-- The result in the reply to a call. -/
def resultOf (method : String) (reply : Json) : Except Error Json :=
  match reply.member? "error", reply.member? "result" with
  | some error, _ => .error (.rejected method (reasonOf error))
  | none, some result => .ok result
  | none, none => .error (.encoding ("no result in " ++ method ++ " response"))

/-- What is heard when a method is called: its result, or what has gone wrong. -/
def heard (method : String) : Except Http.Fault Http.Reply → Except Error Json
  | .error fault => .error (.network ("failed to send " ++ method ++ " request: " ++ fault.message))
  | .ok reply =>
    match reply.plain? with
    | some json => resultOf method json
    | none =>
      .error (.network
        ("failed to parse " ++ method ++ " response: " ++ Http.Fault.undecodable.message))

/-- Calls a method. -/
def call (node : Node m) (method : String) (args : List Json) : Action m Json := do
  Action.ofExcept (heard method
    (← ExceptT.lift (node.http.send ⟨node.url, .json (document method args)⟩)))

/-- What stands where the reason why a result is refused would. -/
def unexpected : String := "not of the expected form"

/-- A result of a certain form. -/
def formed {α : Type} (method : String) (read : Json → Option α) (result : Json) :
    Except Error α :=
  match read result with
  | some value => .ok value
  | none => .error (.encoding ("failed to deserialize " ++ method ++ " result: " ++ unexpected))

/-- Calls a method whose result has a certain form. -/
def query {α : Type} (node : Node m) (method : String) (args : List Json)
    (read : Json → Option α) : Action m α := do
  Action.ofExcept (formed method read (← node.call method args))

/-! ### Methods -/

/-- The state that is asked about. -/
def latest : Json := .string "latest"

/-- The id of the chain. -/
def chainId (node : Node m) : Action m Nat := node.query "eth_chainId" [] (Quantity.ofJson? 64)

/-- The accounts that the node acts for. -/
def accounts (node : Node m) : Action m (List Address) :=
  node.query "eth_accounts" [] (Json.list? Address.ofJson?)

/-- The code at an address. -/
def code (node : Node m) (address : Address) : Action m Bytes :=
  node.query "eth_getCode" [address.toJson, latest] Bytes.ofJson?

/-- The word that a contract stores in a slot. -/
def storageAt (node : Node m) (address : Address) (slot : Hash) : Action m Word :=
  node.query "eth_getStorageAt" [address.toJson, slot.toJson, latest] Word.ofJson?

/-- What a contract answers to a call that changes nothing. -/
def ask (node : Node m) (target : Address) (data : Bytes) : Action m Bytes :=
  let call := Json.object [("data", data.toJson), ("to", target.toJson)]
  node.query "eth_call" [call, latest] Bytes.ofJson?

/-- A transaction that a node is to send. -/
structure Draft where
  sender : Address
  /-- The contract that is called; none if one is to be created. -/
  target : Option Address
  data : Bytes
  value : Word

/-- A draft as JSON. -/
def Draft.toJson (draft : Draft) : Json :=
  .object ([("from", draft.sender.toJson)] ++
    (draft.target.map fun target => ("to", target.toJson)).toList ++
    [("data", draft.data.toJson), ("value", Word.toJson draft.value)])

/-- Sends a transaction, and gives its hash. -/
def send (node : Node m) (draft : Draft) : Action m Hash :=
  node.query "eth_sendTransaction" [draft.toJson] Hash.ofJson?

/-- The receipt of a transaction, if it is mined. -/
def receipt (node : Node m) (transaction : Hash) : Action m (Option Receipt) :=
  node.query "eth_getTransactionReceipt" [transaction.toJson] (Json.nullable? Receipt.ofNodeJson?)

/-! ### Waiting for receipts -/

/-- How long a receipt is waited for unless something else is said. -/
def standardPatience : Span := 120000

/-- How often the node is asked for a receipt. -/
def interval : Span := 1000

/-- A failure to see a receipt in time, by its transaction. -/
def late (transaction : Hash) : Error → Error
  | .timeout _ => .receiptTimeout transaction
  | error => error

/-- Waits until a transaction is mined, whether it succeeds or not. -/
def awaitReceipt (node : Node m) (transaction : Hash) : Action m Receipt :=
  ExceptT.mk do
    let outcome ← (Poll.await node.clock "transaction receipt" node.patience interval
      (node.receipt transaction)).outcome
    match outcome with
    | .ok receipt => pure (.ok receipt)
    | .error error => pure (.error (late transaction error))

/-- The slot in which a proxy keeps its implementation: the predecessor of a hash, so that it
belongs to no variable. -/
def implementationSlot : Hash :=
  .ofNat 0x360894a13ba1a3210667c828492db98dca3e2076cc3735a920a3ca505d382bbc

/-- The implementation behind a proxy, zero if there is none. -/
def implementationOf (node : Node m) (proxy : Address) : Action m Address := do
  pure (.ofNat (← node.storageAt proxy implementationSlot).toNat)

end Node

end ProxyUpgrade
