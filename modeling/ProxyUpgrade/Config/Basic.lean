import ProxyUpgrade.Config.Network
import ProxyUpgrade.Config.Routing
import ProxyUpgrade.Files.Path
import ProxyUpgrade.Retry
/-!
# Configurations

Everything that is settled before the first deployment. A configuration is read from a tree of
settings, in which every field has to be present with a value of its kind; members with other names
do no harm. Two fields are secrets: they can be read, and are never written.
-/

namespace ProxyUpgrade

namespace Config

/-- How calls are tried again. -/
structure Retrying where
  attempts : Nat
  delay : Span
  deriving DecidableEq

namespace Retrying

/-- Three attempts, two seconds apart. -/
def standard : Retrying := ⟨3, 2000⟩

/-- Only failures of the network are worth another attempt. -/
def policy (retrying : Retrying) : Retry.Policy := .transient retrying.attempts retrying.delay

/-- The names of the fields. -/
def fieldNames : List String := ["retries", "delay_ms"]

/-- The settings as a tree. -/
def toJson (retrying : Retrying) : Json :=
  .object [("retries", .integer retrying.attempts), ("delay_ms", .integer retrying.delay)]

/-- The settings from a tree. -/
def ofJson? (json : Json) : Option Retrying := do
  let fields ← json.fields? fieldNames
  pure {
    attempts := ← fields.required "retries" Json.nat64?
    delay := ← fields.required "delay_ms" Json.nat64? }

end Retrying

/-- How contracts are verified. -/
structure Verifying where
  enabled : Bool
  attempts : Nat
  delay : Span
  /-- The wait after each submission before the explorer is asked again. -/
  safetyDelay : Span
  explorer : Option Url
  /-- What the explorer knows its user by. -/
  apiKey : Option String
  deriving DecidableEq

namespace Verifying

/-- Five attempts, five seconds apart, with ten seconds after each submission. -/
def standard : Verifying := ⟨true, 5, 5000, 10000, none, none⟩

/-- Every failure is worth another attempt. -/
def policy (verifying : Verifying) : Retry.Policy := .every verifying.attempts verifying.delay

/-- The names of the fields. -/
def fieldNames : List String :=
  ["enabled", "retries", "delay_ms", "safety_delay_ms", "explorer_url", "api_key"]

/-- The settings as a tree, without the secret. -/
def toJson (verifying : Verifying) : Json :=
  .object [("enabled", .bool verifying.enabled), ("retries", .integer verifying.attempts),
    ("delay_ms", .integer verifying.delay), ("safety_delay_ms", .integer verifying.safetyDelay),
    ("explorer_url", (verifying.explorer.map Url.toJson).getD .null)]

/-- The settings from a tree. -/
def ofJson? (json : Json) : Option Verifying := do
  let fields ← json.fields? fieldNames
  pure {
    enabled := ← fields.required "enabled" Json.bool?
    attempts := ← fields.required "retries" Json.nat64?
    delay := ← fields.required "delay_ms" Json.nat64?
    safetyDelay := ← fields.required "safety_delay_ms" Json.nat64?
    explorer := ← fields.optional "explorer_url" Url.ofJson?
    apiKey := ← fields.defaulted "api_key" none (Json.nullable? Json.text?) }

end Verifying

end Config

/-- Everything that is settled before the first deployment. -/
structure Config where
  network : Network
  routing : Routing
  retry : Config.Retrying
  verification : Config.Verifying
  registryPath : Path
  historyPath : Path
  /-- Where the compiler's output lies. -/
  artifacts : Path
  /-- Whether implementations of one group count as the same. -/
  aliasing : Bool
  /-- The key that proposals to a wallet are signed with. -/
  signerKey : Option Hash
  deriving DecidableEq

namespace Config

/-- What holds where nothing is set. -/
def standard : Config where
  network := .standard
  routing := .direct
  retry := .standard
  verification := .standard
  registryPath := "deployments/registry.json"
  historyPath := "deployments/history.json"
  artifacts := "out"
  aliasing := true
  signerKey := none

/-- A configuration as a tree, without its secrets. -/
def members (config : Config) : List (String × Json) :=
  [("network", config.network.toJson), ("routing", config.routing.toJson),
    ("retry", config.retry.toJson), ("verification", config.verification.toJson),
    ("registry_path", .string config.registryPath), ("history_path", .string config.historyPath),
    ("artifacts_dir", .string config.artifacts), ("bytecode_aliasing", .bool config.aliasing)]

/-- A configuration as a tree, without its secrets. -/
def toJson (config : Config) : Json := .object config.members

/-- The names of the fields. -/
def fieldNames : List String :=
  ["network", "routing", "retry", "verification", "registry_path", "history_path",
    "artifacts_dir", "bytecode_aliasing", "signer_key"]

/-- Reads a record, of whose form as a list only the items that it has fields for count. -/
def record? {α : Type} (names : List String) (read : Json → Option α) : Json → Option α
  | .array items => read (.array (items.take names.length))
  | json => read json

/-- A configuration from a tree. -/
def ofJson? (json : Json) : Option Config := do
  let fields ← json.fields? fieldNames
  pure {
    network := ← fields.required "network" (record? Network.fieldNames Network.ofJson?)
    routing := ← fields.required "routing" Routing.ofJson?
    retry := ← fields.required "retry" (record? Retrying.fieldNames Retrying.ofJson?)
    verification := ← fields.required "verification"
      (record? Verifying.fieldNames Verifying.ofJson?)
    registryPath := ← fields.required "registry_path" Json.text?
    historyPath := ← fields.required "history_path" Json.text?
    artifacts := ← fields.required "artifacts_dir" Json.text?
    aliasing := ← fields.required "bytecode_aliasing" Json.bool?
    signerKey := ← fields.defaulted "signer_key" none (Json.nullable? Hash.ofJson?) }

/-- Whether contracts are verified; on a local network they never are. -/
def verifies (config : Config) : Bool :=
  config.verification.enabled && config.network.tier != .development

/-- Whether calls are proposed to a wallet. -/
def isMultisig (config : Config) : Bool :=
  match config.routing with
  | .direct => false
  | .multisig _ _ => true

/-- A configuration without its secrets. -/
def redacted (config : Config) : Config :=
  { config with
    signerKey := none
    verification := { config.verification with apiKey := none } }

end Config

end ProxyUpgrade
