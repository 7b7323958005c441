import ProxyUpgrade.Chain.Json
import ProxyUpgrade.Json.Fields
import ProxyUpgrade.Url.Parser
/-!
# The choice of a route

Calls that activate new code are either sent directly or proposed to a wallet, by way of a service
that is found on the web.
-/

namespace ProxyUpgrade

/-- An address of the web from JSON. -/
def Url.ofJson? (json : Json) : Option Url := json.text?.bind fun text => (Url.ofText text).toOption

/-- An address of the web as JSON. -/
def Url.toJson (url : Url) : Json := .string url.text

/-- How calls reach the chain. -/
inductive Routing where
  | direct
  /-- They are proposed to a wallet with the help of a service. -/
  | multisig (wallet : Address) (service : Url)
  deriving DecidableEq

namespace Routing

/-- The choice as JSON. -/
def toJson : Routing → Json
  | direct => .object [("mode", .string "direct")]
  | multisig wallet service =>
    .object [("mode", .string "multisig"), ("safe_address", wallet.toJson),
      ("service_url", service.toJson)]

/-- Whether nothing more is to be read of a choice that has no parts. -/
def isDone : Json → Bool
  | .array items => items.isEmpty
  | _ => true

/-- The choice from JSON. -/
def ofJson? (json : Json) : Option Routing := do
  match ← json.tagged? "mode" with
  | ("direct", json) => if isDone json then pure direct else none
  | ("multisig", json) =>
    let fields ← json.fields? ["safe_address", "service_url"]
    pure (multisig (← fields.required "safe_address" Address.ofJson?)
      (← fields.required "service_url" Url.ofJson?))
  | _ => none

end Routing

end ProxyUpgrade
