import ProxyUpgrade.Abi.Encode
import ProxyUpgrade.Build.Basic
import ProxyUpgrade.Deploy.Artifact
import ProxyUpgrade.History.Store
import ProxyUpgrade.Node.Account
/-!
# Proxies on a chain

Artifacts come from the output of a build, contracts are created by an account, and the chain is
looked at through a node.

An implementation is shared by all proxies whose code has the same hash: of the addresses that the
history has for it, the first one that still has code is used, the current implementation of the
proxy before all others. Only if there is none is a contract created, and recorded.
-/

namespace ProxyUpgrade.Node

/-- Artifacts and proxies of a chain. -/
structure Proxies (m : Type → Type) where
  node : Node m
  signer : Signer m
  history : History.Store m
  build : Build m
  /-- The name of the artifact that proxies are created from. -/
  proxyName : String

namespace Proxies

/-- The usual artifact of proxies. -/
def standardName : String := "ERC1967Proxy"

variable {m : Type → Type} [Monad m]

/-- Whether there is a contract at an address. -/
def hasCode (proxies : Proxies m) (address : Address) : Action m Bool := do
  pure (!(← proxies.node.code address).isEmpty)

/-- What is said of a creation without a contract. -/
def nothingCreated : String := "creation receipt has no contract address"

/-- Creates the contract of an artifact. -/
def create (proxies : Proxies m) (artifact : Artifact) (args : Bytes) : Action m Address := do
  let receipt ← proxies.signer.create (artifact.creationCode args)
  match receipt.contract with
  | some address => pure address
  | none => throw (.reverted receipt.transaction nothingCreated)

/-- The first of some addresses at which there is a contract. -/
def firstLive (proxies : Proxies m) : List Address → Action m (Option Address)
  | [] => pure none
  | address :: others => do
    if ← proxies.hasCode address then pure (some address) else firstLive proxies others

/-- The addresses that an implementation may be shared at, in the order of preference. -/
def candidates (group : History.Group) (current : Option Address) : List Address :=
  (current.filter group.has).toList ++ group.addresses

/-- A live implementation with the given code, if one is on record. -/
def existing (proxies : Proxies m) (code : Hash) (current : Option Address) :
    Action m (Option Address) := do
  match ← proxies.history.ofCode code with
  | some group => proxies.firstLive (candidates group current)
  | none => pure none

/-- An implementation of an artifact, created if there is none. -/
def implementationFor (proxies : Proxies m) (artifact : Artifact) (current : Option Address)
    (args : Bytes) : Action m Address := do
  let code := artifact.codeHash args
  match ← proxies.existing code current with
  | some address => pure address
  | none => do
    let address ← proxies.create artifact args
    let _ ← proxies.history.record code address
    pure address

/-- The signature of the function by which a contract says that it can be upgraded. -/
def uuidSignature : String := "proxiableUUID()"

/-- What stands where the reason why an answer is refused would. -/
def malformed : String := "not a single word"

/-- The word that an answer consists of, or starts with. -/
def uuid? (answer : Bytes) : Option Hash :=
  if 32 ≤ answer.length then some (.ofBytes (answer.take 32)) else none

/-- What the answer of new code says: whether it can itself be upgraded, without which the proxy
could never be changed again. -/
def verdict (proxy candidate : Address) (artifact : Artifact) :
    Except Error Bytes → Except Error Unit
  | .error (.rejected _ reason) =>
    .error (.layoutIncompatible proxy
      s!"{artifact.name} at {candidate} does not implement proxiableUUID(): {reason}")
  | .error error => .error error
  | .ok answer =>
    match uuid? answer with
    | none =>
      .error (.layoutIncompatible proxy ("malformed proxiableUUID() result: " ++ malformed))
    | some uuid =>
      if uuid = implementationSlot then .ok ()
      else
        let name := artifact.name
        let slot := "the ERC-1967 implementation slot"
        .error (.layoutIncompatible proxy
          s!"{name} reports proxiable UUID {uuid}, expected {slot}")

/-- Checks new code by asking it. -/
def validate (proxies : Proxies m) (proxy candidate : Address) (artifact : Artifact) :
    Action m Unit :=
  ExceptT.mk do
    pure (verdict proxy candidate artifact
      (← (proxies.node.ask candidate (Abi.selector uuidSignature)).outcome))

/-- The arguments that a proxy is created with. -/
def constructorArgs (implementation : Address) (data : Bytes) : Bytes :=
  Call.addressAndBytes implementation data

/-- What a deployment needs of the chain. -/
def backend (proxies : Proxies m) : Deploy.Backend m where
  artifact := proxies.build.artifact
  createProxy artifact data options := do
    let implementation ← proxies.implementationFor artifact none options.constructorArgs
    let proxy ← proxies.build.artifact proxies.proxyName
    proxies.create proxy (constructorArgs implementation data)
  prepareUpgrade proxy artifact options := do
    let current ← proxies.node.implementationOf proxy
    proxies.implementationFor artifact (some current) options.constructorArgs
  currentImplementation := proxies.node.implementationOf
  contractExists := proxies.hasCode
  validateUpgrade := proxies.validate

end Proxies

end ProxyUpgrade.Node
