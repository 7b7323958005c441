import ProxyUpgrade.Chain.Address
import ProxyUpgrade.Deploy.Status
/-!
# What can go wrong

One taxonomy for the whole program. Only a failure of the network is *transient*, that is, worth
another attempt; everything else ends the call that meets it and is handed on unchanged.
-/

namespace ProxyUpgrade

/-- A failure, by its cause. -/
inductive Error where
  /-- A status was asked to move where it may not. -/
  | illegalTransition (attempted current : Status)
  /-- New code would break the state behind the proxy. -/
  | layoutIncompatible (proxy : Address) (reason : String)
  /-- No usable answer came back over the wire. -/
  | network (reason : String)
  /-- The node answered a call with an error. -/
  | rejected (method reason : String)
  /-- A condition did not hold within its deadline. -/
  | timeout (what : String)
  /-- A transaction was sent and no receipt appeared in time. It may still be mined, so it is never
  sent again. -/
  | receiptTimeout (transaction : Hash)
  /-- A mined transaction failed. -/
  | reverted (transaction : Hash) (reason : String)
  /-- An explorer did not come to show a contract as verified; `output` is what was logged
  meanwhile. -/
  | verification (address : Address) (reason output : String)
  /-- A signer was asked for a signature and gave none. -/
  | signatureMissing (signer : Address) (hash : Hash)
  /-- The registry contradicts the chain or itself. -/
  | registryInconsistency (reason : String)
  /-- A file could not be read or written. -/
  | storage (reason : String)
  /-- The multisig service refused or answered nonsense. -/
  | multisig (reason : String)
  /-- The explorer refused or answered nonsense. -/
  | explorer (reason : String)
  /-- The configuration or an input of the user is wrong. -/
  | config (reason : String)
  /-- Something could not be encoded or decoded. -/
  | encoding (reason : String)
  deriving DecidableEq

namespace Error

/-- The sentence shown for a failure. -/
def message : Error → String
  | illegalTransition attempted current =>
    s!"illegal state transition: cannot switch to {attempted} from {current}"
  | layoutIncompatible proxy reason =>
    s!"storage layout incompatible for proxy {proxy}: {reason}"
  | network reason => "network error: " ++ reason
  | rejected method reason => s!"{method} rejected by node: {reason}"
  | timeout what => "timeout waiting for " ++ what
  | receiptTimeout transaction => s!"transaction {transaction} sent but not mined in time"
  | reverted transaction reason => s!"transaction {transaction} reverted: {reason}"
  | verification address reason _ => s!"verification of {address} failed: {reason}"
  | signatureMissing signer hash =>
    s!"signer {signer} returned no signature for safe transaction {hash}"
  | registryInconsistency reason => "registry inconsistency: " ++ reason
  | storage reason => "storage error: " ++ reason
  | multisig reason => "multisig service error: " ++ reason
  | explorer reason => "explorer error: " ++ reason
  | config reason => "invalid configuration: " ++ reason
  | encoding reason => "encoding error: " ++ reason

/-- Whether another attempt may help. -/
def isTransient : Error → Bool
  | network _ => true
  | _ => false

end Error

end ProxyUpgrade
