import ProxyUpgrade.Abi.Decode
import ProxyUpgrade.Deploy
import ProxyUpgrade.Files.Tree
import ProxyUpgrade.History.Store
import ProxyUpgrade.Rehearsal.Event
/-!
# A chain in memory

The stand-ins of this module share one small chain. Contracts are created at consecutive addresses
and have code until they are removed; each proxy has an implementation that activation changes.
Every operation can be made to fail a number of times, in which case it is noted and does nothing.

Implementations are shared by the hash of their code, as the history has it, unless this is switched
off; so a rehearsal goes through the same choices as a real chain would.
-/

namespace ProxyUpgrade.Rehearsal

/-- An operation that can be made to fail. -/
inductive Point where
  | artifact
  | createProxy
  | prepareUpgrade
  | currentImplementation
  | contractExists
  | validateUpgrade
  | send
  | sign
  | nextNonce
  | propose
  | findPending
  | isVerified
  | submit
  deriving DecidableEq

namespace Point

/-- All operations. -/
def all : List Point :=
  [artifact, createProxy, prepareUpgrade, currentImplementation, contractExists, validateUpgrade,
    send, sign, nextNonce, propose, findPending, isVerified, submit]

/-- The name of an operation in notes. -/
def name : Point → String
  | artifact => "artifact"
  | createProxy => "create_proxy"
  | prepareUpgrade => "prepare_upgrade"
  | currentImplementation => "current_implementation"
  | contractExists => "contract_exists"
  | validateUpgrade => "validate_upgrade"
  | send => "send_transaction"
  | sign => "sign_hash"
  | nextNonce => "get_next_nonce"
  | propose => "propose_transaction"
  | findPending => "find_pending"
  | isVerified => "is_verified"
  | submit => "verify"

/-- The operation of a name. -/
def ofName? (text : String) : Option Point := all.find? (·.name == text)

end Point

/-- The operation of an event. -/
def Event.point : Event → Point
  | artifact _ => .artifact
  | createProxy _ => .createProxy
  | prepareUpgrade _ => .prepareUpgrade
  | currentImplementation _ => .currentImplementation
  | contractExists _ => .contractExists
  | validateUpgrade _ _ _ => .validateUpgrade
  | send _ => .send
  | sign _ => .sign
  | nextNonce _ => .nextNonce
  | propose _ => .propose
  | findPending _ _ _ => .findPending
  | isVerified _ => .isVerified
  | submit _ => .submit

/-- A transaction of the chain. -/
inductive Transaction where
  | implementation (address : Address)
  | proxy (address implementation : Address)
  | activation (proxy implementation : Address)

/-- Failures that are still to come at an operation. -/
structure Fault where
  point : Point
  times : Nat
  error : Error

/-- The chain and everything around it. -/
structure Chain where
  /-- How many contracts have been created. -/
  created : Nat
  /-- The addresses that have code. -/
  live : List Address
  /-- The implementation of each proxy. -/
  slots : List (Address × Address)
  /-- All transactions, the latest first. -/
  transactions : List Transaction
  /-- The creation code of each artifact. -/
  sources : List (String × Bytes)
  /-- Whether implementations are shared by their code. -/
  sharing : Bool
  /-- Whether new implementations keep the layout of the state. -/
  compatible : Bool
  faults : List Fault
  /-- The queue of the wallet. -/
  queue : List Wallet.Proposal
  /-- What the explorer shows as verified. -/
  shown : List Explorer.Target
  /-- How many submissions the explorer has taken. -/
  submissions : Nat
  /-- From which submission on the explorer goes along. -/
  acceptsFrom : Nat
  /-- What the signer gives as its signature. -/
  signature : Option Signature
  /-- The history that is kept in memory. -/
  manifest : History.Manifest
  /-- The registry that is kept in memory. -/
  table : Registry.Table
  files : Files.Tree

namespace Chain

/-- A chain without contracts. -/
def empty : Chain where
  created := 0
  live := []
  slots := []
  transactions := []
  sources := []
  sharing := true
  compatible := true
  faults := []
  queue := []
  shown := []
  submissions := 0
  acceptsFrom := 1
  signature := none
  manifest := []
  table := .empty
  files := .empty

/-- The implementation of a proxy, zero if it has none. -/
def implementationOf (chain : Chain) (proxy : Address) : Address :=
  (chain.slots.lookup proxy).getD .zero

/-- Gives a proxy an implementation, or takes it away. -/
def point (chain : Chain) (proxy : Address) (implementation : Option Address) : Chain :=
  let others := chain.slots.filter (·.1 ≠ proxy)
  { chain with slots := (implementation.map (proxy, ·)).toList ++ others }

/-- Removes the code at an address. -/
def kill (chain : Chain) (address : Address) : Chain :=
  { chain with live := chain.live.filter (· ≠ address) }

/-- Sets the creation code of an artifact, or removes it. -/
def source (chain : Chain) (name : String) (code : Option Bytes) : Chain :=
  let others := chain.sources.filter (·.1 ≠ name)
  { chain with sources := (code.map (name, ·)).toList ++ others }

/-- Has the next calls of an operation fail. -/
def fail (chain : Chain) (fault : Fault) : Chain :=
  { chain with faults := fault :: chain.faults.filter (·.point ≠ fault.point) }

/-- The next failure of an operation, if it is to fail. -/
def strike (point : Point) : List Fault → Option Error × List Fault
  | [] => (none, [])
  | fault :: rest =>
    if fault.point = point then
      match fault.times with
      | 0 => (none, rest)
      | times + 1 => (some fault.error, { fault with times } :: rest)
    else
      let (error, rest) := strike point rest
      (error, fault :: rest)

/-- Adds a transaction. -/
def mine (chain : Chain) (transaction : Transaction) : Chain :=
  { chain with transactions := transaction :: chain.transactions }

/-- Puts code at the next address. -/
def create (chain : Chain) : Address × Chain :=
  let created := chain.created + 1
  let address := Address.ofNat (0x1000 + created)
  (address, { chain with created, live := address :: chain.live })

/-- The implementation that a call gives to its target, if it is one that does. -/
def activated? (payload : Bytes) : Option Address :=
  match Abi.decode? [.address, .bytes] (payload.drop 4) with
  | some [.address implementation, .bytes _] => some implementation
  | _ => none

/-- Changes what a call of a proxy changes. -/
def apply (chain : Chain) (target : Address) (payload : Bytes) : Chain :=
  match activated? payload with
  | some implementation => chain.point target (some implementation)
  | none => chain

/-- Changes what a call changes, in a transaction of its own. -/
def send (chain : Chain) (target : Address) (payload : Bytes) : Chain :=
  match activated? payload with
  | some implementation => (chain.apply target payload).mine (.activation target implementation)
  | none => chain

/-- Has the wallet execute everything in its queue. -/
def execute (chain : Chain) : Chain :=
  let chain := chain.queue.foldl (fun chain proposal =>
    chain.apply proposal.transaction.target proposal.transaction.data) chain
  { chain with queue := [] }

end Chain

namespace Stand

/-- A program on a stage with a chain. -/
abbrev On : Type → Type := Play Chain

/-- The chain, as a cell. -/
def chain : Cell On Chain := Play.props

/-- Changes the chain. -/
def change (f : Chain → Chain) : Action On Unit := ExceptT.lift (chain.modify f)

/-- The chain as it is. -/
def look : Action On Chain := ExceptT.lift chain.get

/-- Notes a call, and fails if it is to fail. -/
def enter (event : Event) : Action On Unit :=
  ExceptT.mk do
    Play.note event
    let now ← chain.get
    let (error, faults) := Chain.strike event.point now.faults
    chain.set { now with faults }
    match error with
    | some error => pure (.error error)
    | none => pure (.ok ())

/-- The files of the rehearsal. -/
def files : Files On := Files.ofTree (chain.part (·.files) fun files chain => { chain with files })

/-- A registry in memory. -/
def registry : Registry.Store On :=
  .memory (chain.part (·.table) fun table chain => { chain with table })

/-- A history in memory. -/
def history (now : Timestamp) : History.Store On :=
  .memory (chain.part (·.manifest) fun manifest chain => { chain with manifest }) (pure now)

/-- Puts code at the next address. -/
def create (transaction : Address → Transaction) : Action On Address := do
  let (address, after) := (← look).create
  change fun _ => after.mine (transaction address)
  pure address

/-- An implementation of an artifact, shared if there is one. -/
def implementationFor (history : History.Store On) (artifact : Artifact)
    (current : Option Address) (args : Bytes) : Action On Address := do
  let code := artifact.codeHash args
  let known ← if (← look).sharing then history.ofCode code else pure none
  match known with
  | some group => pure ((current.filter group.has).getD group.canonical)
  | none =>
    let address ← create .implementation
    let _ ← history.record code address
    pure address

/-- What a layout check finds when it fails. -/
def layoutChanged : String := "slot 0 changed"

/-- The stand-in for artifacts and proxies. -/
def backend (history : History.Store On) : Deploy.Backend On where
  artifact name := do
    enter (.artifact name)
    match (← look).sources.lookup name with
    | some code => pure ⟨name, code⟩
    | none => throw (.config ("no artifact named " ++ name))
  createProxy artifact data options := do
    enter (.createProxy data)
    let implementation ← implementationFor history artifact none options.constructorArgs
    let proxy ← create fun proxy => .proxy proxy implementation
    change (·.point proxy (some implementation))
    pure proxy
  prepareUpgrade proxy artifact options := do
    enter (.prepareUpgrade proxy)
    let current := (← look).slots.lookup proxy
    implementationFor history artifact current options.constructorArgs
  currentImplementation proxy := do
    enter (.currentImplementation proxy)
    pure ((← look).implementationOf proxy)
  contractExists address := do
    enter (.contractExists address)
    pure ((← look).live.contains address)
  validateUpgrade proxy candidate artifact := do
    enter (.validateUpgrade proxy candidate artifact.name)
    if (← look).compatible then pure ()
    else throw (.layoutIncompatible proxy layoutChanged)

/-- The stand-in for an account. It creates no contracts. -/
def signer (address : Address) : Signer On where
  address := address
  send call := do
    enter (.send call)
    change (·.send call.target call.payload)
    let count := (← look).transactions.length
    pure ⟨.ofNat count, some count, none, true⟩
  create _ := throw (.config "this signer creates no contracts")
  sign hash := do
    enter (.sign hash)
    pure (← look).signature

/-- The stand-in for the service of a wallet. -/
def service : Wallet.Service On where
  nextNonce wallet := do
    enter (.nextNonce wallet)
    pure (.ofNat 64 (← look).queue.length)
  propose proposal := do
    enter (.propose proposal)
    change fun chain => { chain with queue := chain.queue ++ [proposal] }
  findPending wallet target data := do
    enter (.findPending wallet target data)
    let found := (← look).queue.find? fun proposal =>
      proposal.transaction.target = target ∧ proposal.transaction.data = data
    pure (found.map (·.hash))

/-- The stand-in for an explorer. -/
def explorer : Explorer On where
  isVerified target := do
    enter (.isVerified target)
    pure ((← look).shown.contains target)
  submit target := do
    let outcome ← (do
      enter (.submit target)
      change fun chain =>
        let submissions := chain.submissions + 1
        if chain.acceptsFrom ≤ submissions then
          { chain with submissions, shown := target :: chain.shown }
        else { chain with submissions } : Action On Unit).outcome
    pure ([], outcome)

end Stand

end ProxyUpgrade.Rehearsal
