import ProxyUpgrade.Action
import ProxyUpgrade.Log.Line
/-!
# What an explorer shows

A block explorer can show the source of a contract, and that a contract is a proxy in front of
another one. Both have to be submitted to it; whether it went along is found out by asking later.
-/

namespace ProxyUpgrade.Explorer

/-- Something that an explorer can verify. -/
inductive Target where
  /-- The source of the contract at `address`, made of an artifact with encoded arguments for its
  constructor. -/
  | source (address : Address) (contract : String) (args : Bytes)
  /-- That `proxy` is a proxy in front of `implementation`. -/
  | link (proxy implementation : Address)
  deriving DecidableEq

namespace Target

/-- The contract that is asked about. -/
def address : Target → Address
  | source address _ _ => address
  | link proxy _ => proxy

/-- The text that names a target. -/
def text : Target → String
  | source address contract _ => "source of " ++ contract ++ " at " ++ address.checksum
  | link proxy implementation => "proxy " ++ proxy.checksum ++ " -> " ++ implementation.checksum

end Target

end ProxyUpgrade.Explorer

namespace ProxyUpgrade

/-- Access to an explorer. -/
structure Explorer (m : Type → Type) where
  /-- Whether a target is shown as verified. -/
  isVerified : Explorer.Target → Action m Bool
  /-- Submits a target, and gives the lines that were logged meanwhile along with the outcome. -/
  submit : Explorer.Target → m (List Log.Line × Except Error Unit)

end ProxyUpgrade
