import ProxyUpgrade.Deploy.Artifact
import ProxyUpgrade.Deploy.Session
import ProxyUpgrade.History.Store
import ProxyUpgrade.Registry
import ProxyUpgrade.Verification
/-!
# Deploying

One call makes sure that a deployment exists and runs the present code of its artifact: the proxy is
created unless the registry has one, and pointed at new code if the code behind it differs.

Every step takes effect before the next one begins. A new proxy is on record before anything relies
on it, so a call that was cut short can simply be made again. Verification comes last and fails
nothing.
-/

namespace ProxyUpgrade.Deploy

/-- What is to be deployed. -/
structure Request where
  name : LogicalName
  instanceId : Option String
  /-- Arguments for the initializer of a new proxy. -/
  initArgs : List Abi.Value
  options : Options

namespace Request

/-- The key of the deployment. -/
def key (request : Request) : Key := ⟨request.name, request.instanceId⟩

end Request

/-- Everything a call works with. -/
structure Orchestrator (m : Type → Type) where
  backend : Backend m
  registry : Registry.Store m
  comparator : History.Comparator m
  verification : Verification.Service m
  route : Route m
  signer : Signer m
  clock : Clock m
  /-- The name of the network in messages. -/
  network : String

/-- The name of the network if none is given. -/
def unknownNetwork : String := "unknown"

/-- What a call asks of others, with the ways to the chain and to the explorer already chosen. -/
structure Collaborators (m : Type → Type) where
  backend : Backend m
  registry : Registry.Store m
  comparator : History.Comparator m
  /-- Sends a call on its way to the chain. -/
  send : Call → Action m Route.Outcome
  /-- Has the source of an implementation verified. -/
  verifySource : (implementation : Address) → (contract : String) → (args : Bytes) →
    m Verification.Outcome
  /-- Has the source of an implementation verified, and then the link of a proxy to it. -/
  verifyProxy : (proxy implementation : Address) → (contract : String) → (args : Bytes) →
    m Verification.Outcome
  /-- The name of the network in messages. -/
  network : String

variable {m : Type → Type} [Monad m]

/-- What the calls of an orchestrator ask of others. -/
def Orchestrator.collaborators (o : Orchestrator m) : Collaborators m where
  backend := o.backend
  registry := o.registry
  comparator := o.comparator
  send := o.route.send o.clock o.signer
  verifySource implementation contract args :=
    Verification.verify o.verification o.clock (.source implementation contract args)
  verifyProxy := Verification.verifyProxy o.verification o.clock
  network := o.network

/-- The text that names a deployment on its network. -/
def context (c : Collaborators m) (key : Key) : String := key.text ++ " on " ++ c.network

/-- The proxy of a deployment, created and put on record if there is none yet. -/
def locate (c : Collaborators m) (request : Request) (artifact : Artifact) (state : State) :
    Action m (Address × State) := do
  match ← Registry.proxyAddress c.registry request.key with
  | some proxy =>
    if ← c.backend.contractExists proxy then pure (proxy, state)
    else
      let subject := context c request.key
      throw (.registryInconsistency
        s!"{subject} is registered at {proxy} but no contract exists there")
  | none =>
    let data ← Action.ofExcept (initializerData request.initArgs request.options.initializer)
    let proxy ← c.backend.createProxy artifact data request.options
    Registry.saveProxy c.registry request.key proxy
    let state ← Action.ofExcept (state.advance .deployed)
    pure (proxy, state)

/-- The implementation behind a proxy, of which there has to be one. -/
def currentOf (c : Collaborators m) (key : Key) (proxy : Address) : Action m Address := do
  let current ← c.backend.currentImplementation proxy
  if current = .zero then
    let subject := context c key
    throw (.registryInconsistency s!"proxy {proxy} of {subject} has no implementation")
  else pure current

/-- Has new code checked, if that is wanted, and activated. -/
def activate (c : Collaborators m) (request : Request) (artifact : Artifact)
    (proxy candidate : Address) : Action m Route.Outcome := do
  if request.options.validate then c.backend.validateUpgrade proxy candidate artifact
  c.send (.upgrade proxy candidate request.options.upgradeData)

/-- Makes sure that a proxy runs the present code of its artifact. The result is the implementation
and, if it had to be activated, what became of the call. -/
def upgrade (c : Collaborators m) (request : Request) (artifact : Artifact) (proxy : Address)
    (state : State) : Action m (Address × Option Route.Outcome × State) := do
  let current ← currentOf c request.key proxy
  let candidate ← c.backend.prepareUpgrade proxy artifact request.options
  let _ ← c.comparator.store.record (artifact.codeHash request.options.constructorArgs) candidate
  if ← c.comparator.same current candidate then pure (current, none, state)
  else
    let outcome ← activate c request artifact proxy candidate
    let state ← Action.ofExcept (state.advance .upgraded)
    pure (candidate, some outcome, state)

/-- Has the result of a call verified. While a proposal waits, the proxy keeps its implementation,
so that only the source of the new one can be published. -/
def verify (c : Collaborators m) (request : Request) (artifact : Artifact)
    (proxy implementation : Address) (activation : Option Route.Outcome) :
    m Verification.Outcome :=
  let args := request.options.constructorArgs
  if activation.any Route.Outcome.isPending then
    c.verifySource implementation artifact.name args
  else
    c.verifyProxy proxy implementation artifact.name args

/-- Makes sure that a deployment exists and runs the present code of its artifact. -/
def record (c : Collaborators m) (request : Request) : Action m Record := do
  let artifact ← c.backend.artifact request.name.artifact
  let (proxy, state) ← locate c request artifact .initial
  let (implementation, activation, state) ← upgrade c request artifact proxy state
  let outcome ← ExceptT.lift (verify c request artifact proxy implementation activation)
  pure {
    name := request.name
    instanceId := request.instanceId
    proxy := proxy
    implementation := implementation
    status := state.status
    verified := outcome.isVerified
    activation := activation }

/-- The same, with the record also added to a session. -/
def run (o : Orchestrator m) (request : Request) (session : Session) :
    Action m (Record × Session) := do
  let record ← record o.collaborators request
  pure (record, session.insert record)

/-- All registered proxies. -/
def list (o : Orchestrator m) : Action m (List Registry.Entry) := o.registry.entries

end ProxyUpgrade.Deploy
