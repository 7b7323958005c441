import ProxyUpgrade.Json.Fields
/-!
# Networks

A network is known by a name and a chain id; its *tier* says how much is at stake on it. Nothing is
published about a local network, since nobody else sees it.
-/

namespace ProxyUpgrade

/-- How much is at stake on a network. -/
inductive Tier where
  /-- A short-lived chain for development. -/
  | development
  | testnet
  | mainnet
  deriving DecidableEq

namespace Tier

/-- The name of a tier. -/
def name : Tier → String
  | development => "local"
  | testnet => "testnet"
  | mainnet => "mainnet"

/-- The tier of a name. -/
def ofName? (text : String) : Option Tier := [development, testnet, mainnet].find? (·.name == text)

theorem ofName?_name (tier : Tier) : ofName? tier.name = some tier := by cases tier <;> decide

instance : ToString Tier := ⟨name⟩

end Tier

/-- A network. -/
structure Network where
  name : String
  chain : Nat
  tier : Tier
  /-- Where its node is found, as it was written. -/
  node : String
  deriving DecidableEq

namespace Network

/-- A node on this machine. -/
def standard : Network := ⟨"localhost", 31337, .development, "http://127.0.0.1:8545"⟩

/-- A network as JSON. -/
def toJson (network : Network) : Json :=
  .object [("name", .string network.name), ("chain_id", .integer network.chain),
    ("tier", .string network.tier.name), ("rpc_url", .string network.node)]

/-- The names of the fields in JSON. -/
def fieldNames : List String := ["name", "chain_id", "tier", "rpc_url"]

/-- A network from JSON. -/
def ofJson? (json : Json) : Option Network := do
  let fields ← json.fields? fieldNames
  pure {
    name := ← fields.required "name" Json.text?
    chain := ← fields.required "chain_id" Json.nat64?
    tier := ← fields.required "tier" fun json => json.choice?.bind Tier.ofName?
    node := ← fields.required "rpc_url" Json.text? }

end Network

end ProxyUpgrade
