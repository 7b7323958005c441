import ProxyUpgrade.Bytes.Basic
import ProxyUpgrade.Http.Basic
import ProxyUpgrade.Wallet.Proposal
/-!
# The service of a wallet on the web

The service keeps the transactions of wallets in lists that are asked for by address. A transaction
that waits has a nonce of at least the wallet's own; those below have been executed or replaced.

Replies are read leniently: of a queued transaction only what is asked for has to make sense, and
one in which it does not is passed over.
-/

namespace ProxyUpgrade.Wallet

/-- The service of wallets, and how it is reached. -/
structure Client (m : Type → Type) where
  http : Http m
  url : Url

namespace Client

variable {m : Type → Type} [Monad m]

/-! ### Addresses -/

/-- The address of something that the service has. -/
def endpoint (client : Client m) (names : List String) : Except Error Url :=
  match client.url.below names with
  | .ok url => .ok url
  | .error fault => .error (.config ("invalid safe service url: " ++ fault.message))

/-- The names that lead to a wallet. -/
def walletNames (wallet : Address) : List String := ["api", "v1", "safes", wallet.checksum]

/-- The address of a wallet. -/
def walletUrl (client : Client m) (wallet : Address) : Except Error Url :=
  client.endpoint (walletNames wallet ++ [""])

/-- The address of the transactions of a wallet. -/
def transactionsUrl (client : Client m) (wallet : Address) : Except Error Url :=
  client.endpoint (walletNames wallet ++ ["multisig-transactions", ""])

/-- The address of the transactions that wait, the last one first. -/
def queueUrl (client : Client m) (wallet : Address) (nonce : BitVec 64)
    (more : List (String × String)) : Except Error Url := do
  let url ← client.transactionsUrl wallet
  pure (url.withPairs ([("executed", "false"), ("nonce__gte", toString nonce.toNat),
    ("ordering", "-nonce")] ++ more))

/-! ### Replies -/

/-- Asks for a document. -/
def ask (client : Client m) (url : Url) : Action m Json := do
  match ← ExceptT.lift (client.http.sendChecked ⟨url, .empty⟩) with
  | .error fault => throw (fault.toError .multisig)
  | .ok reply =>
    match reply.plain? with
    | some json => pure json
    | none => throw (.multisig ("invalid response: " ++ Http.Fault.undecodable.message))

/-- A number of 64 bits in decimal digits, after an optional plus sign. -/
def decimal? (text : String) : Option Nat :=
  let digits := match text.toList with
    | '+' :: digits => digits
    | digits => digits
  (Quantity.ofDecimal? digits).filter (Bits.fits 64)

/-- A nonce, as a number or a text. -/
def nonce? : Json → Option (BitVec 64)
  | .string text => (decimal? text).map (BitVec.ofNat 64)
  | json => json.nat64?.map (BitVec.ofNat 64)

/-- What a transaction in a reply carries: nothing if that is not said. -/
def dataOf? (transaction : Json) : Option Bytes :=
  match (transaction.member? "data").bind Json.text? with
  | some text => Hex.decode? text
  | none => some []

/-- The hash of a transaction in a reply, if it carries the given data. -/
def hashOf? (data : Bytes) (transaction : Json) : Option Hash :=
  if dataOf? transaction = some data then
    ((transaction.member? "safeTxHash").bind Json.text?).bind Hash.ofHex?
  else none

/-- The transactions in a reply. -/
def results (page : Json) : List Json :=
  ((page.member? "results").bind Json.items?).getD []

/-- The hash of the first transaction in a reply that carries the given data. -/
def matching? (page : Json) (data : Bytes) : Option Hash := (results page).findSome? (hashOf? data)

/-- The nonce of the first transaction in a reply. -/
def firstNonce? (page : Json) : Option (BitVec 64) :=
  ((results page).head?.bind (·.member? "nonce")).bind nonce?

/-- The nonce after the wallet's own and the last one that waits. -/
def nonceAfter (own : BitVec 64) (queued : Option (BitVec 64)) : BitVec 64 :=
  match queued with
  | some last => if own ≤ last then last + 1 else own
  | none => own

/-! ### Requests -/

/-- The nonce of the next transaction that a wallet executes. -/
def ownNonce (client : Client m) (wallet : Address) : Action m (BitVec 64) := do
  let info ← client.ask (← Action.ofExcept (client.walletUrl wallet))
  match (info.member? "nonce").bind nonce? with
  | some nonce => pure nonce
  | none => throw (.multisig "safe info has no nonce")

/-- The next nonce that no transaction of a wallet has. -/
def nextNonce (client : Client m) (wallet : Address) : Action m (BitVec 64) := do
  let own ← client.ownNonce wallet
  let page ← client.ask (← Action.ofExcept (client.queueUrl wallet own [("limit", "1")]))
  pure (nonceAfter own (firstNonce? page))

/-- The hash of a waiting transaction that calls `target` with `data`. -/
def findPending (client : Client m) (wallet target : Address) (data : Bytes) :
    Action m (Option Hash) := do
  let own ← client.ownNonce wallet
  let page ← client.ask (← Action.ofExcept (client.queueUrl wallet own [("to", target.checksum)]))
  pure (matching? page data)

/-- Who the service is told that a proposal comes from. -/
def origin : String := "proxup"

/-- A proposal as a document. -/
def document (proposal : Proposal) : Json :=
  let t := proposal.transaction
  let number (w : Word) : Json := .string (toString w.toNat)
  let account (a : Address) : Json := .string a.checksum
  .object [("baseGas", number t.baseGas), ("contractTransactionHash", proposal.hash.toJson),
    ("data", t.data.toJson), ("gasPrice", number t.gasPrice), ("gasToken", account t.gasToken),
    ("nonce", .integer t.nonce.toNat), ("operation", .integer t.operation.number),
    ("origin", .string origin), ("refundReceiver", account t.refundReceiver),
    ("safeTxGas", number t.safeGas), ("sender", account proposal.sender),
    ("signature", Bytes.toJson proposal.signature.bytes), ("to", account t.target),
    ("value", number t.value)]

/-- Queues a proposal. -/
def propose (client : Client m) (proposal : Proposal) : Action m Unit := do
  let url ← Action.ofExcept (client.transactionsUrl proposal.wallet)
  match ← ExceptT.lift (client.http.sendChecked ⟨url, .json (document proposal)⟩) with
  | .ok _ => pure ()
  | .error fault => throw (fault.toError .multisig)

/-- What a proposer needs of the service. -/
def service (client : Client m) : Service m :=
  ⟨client.nextNonce, client.propose, client.findPending⟩

end Client

end ProxyUpgrade.Wallet
