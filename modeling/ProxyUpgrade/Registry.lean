import ProxyUpgrade.Registry.Key
import ProxyUpgrade.Registry.Store
/-!
# The registry of proxies

The registry maps deployments to the addresses of their proxies. It is written once: a deployment
may be added, and saving the address already on record changes nothing, but no deployment is ever
given another address.
-/

namespace ProxyUpgrade.Registry

variable {m : Type → Type} [Monad m]

/-- The proxy on record for a deployment. -/
def proxyAddress (store : Store m) (key : Key) : Action m (Option Address) := do
  store.get (← Action.ofExcept key.id)

/-- The sentence shown when another address is on record. -/
def conflict (id : String) (existing address : Address) : String :=
  s!"{id} is already registered at {existing}, refusing to overwrite with {address}"

/-- Puts the proxy of a deployment on record. -/
def saveProxy (store : Store m) (key : Key) (address : Address) : Action m Unit := do
  let id ← Action.ofExcept key.id
  match ← store.get id with
  | some existing =>
    if existing = address then pure ()
    else throw (.registryInconsistency (conflict id existing address))
  | none => store.set id address

end ProxyUpgrade.Registry
