import ProxyUpgrade.CommandLine.Basic
import ProxyUpgrade.Config.File
import ProxyUpgrade.Deploy
import ProxyUpgrade.Explorer.Client
import ProxyUpgrade.Node.Backend
import ProxyUpgrade.Registry.Store
import ProxyUpgrade.Text.Table
import ProxyUpgrade.Wallet.Client
/-!
# The program

A run of the program reads its command line, resolves the configuration, and carries the command
out. What comes of it is an *ending*: a status, and what is shown as the result and as the
complaint.

Before anything is deployed the node has to answer, and to be one of the configured network; so a
wrong address cannot lead to a deployment on some other chain.
-/

namespace ProxyUpgrade.Program

/-- Everything around the program. -/
structure Surroundings (m : Type → Type) where
  files : Files m
  http : Http m
  clock : Clock m
  /-- The present time. -/
  time : m Timestamp
  /-- Where the configuration is looked for, the first place first. -/
  directories : List Path
  /-- The variables of the environment. -/
  environment : List (String × String)

/-- What the program is called. -/
def name : String := "proxup"

/-- The version of the program. -/
def version : String := "0.1.0"

/-! ### Endings -/

/-- How a run has ended. -/
structure Ending where
  status : Nat
  /-- What is shown as the result. -/
  output : String
  /-- What is shown as the complaint. -/
  complaint : String
  deriving DecidableEq

/-- Why a command failed: a sentence, and what lies behind it. -/
structure Failure where
  message : String
  cause : Option String

namespace Failure

/-- The failure of an action, with nothing behind it. -/
def ofError (error : Error) : Failure := ⟨error.message, none⟩

/-- The text of a failure. The lines of a cause are indented. -/
def text (failure : Failure) : String :=
  let cause := match failure.cause with
    | some cause => "\n\nCaused by:\n    " ++ "\n    ".intercalate (cause.splitOn "\n")
    | none => ""
  "Error: " ++ failure.message ++ cause ++ "\n"

end Failure

/-- The ending of a command that was carried out. -/
def Ending.success (output : String) : Ending := ⟨0, output, ""⟩

/-- The ending of a command that failed. -/
def Ending.failure (failure : Failure) : Ending := ⟨1, "", failure.text⟩

/-- A short account of the command line. -/
def usage : String :=
  "Usage: " ++ name ++
  " [--verbosity <level>] [--config <path>] [--output table|json] <command>\n" ++
  "\n" ++
  "Commands:\n" ++
  "  deploy <artifact>   Deploy a proxy, or upgrade it if its code has changed\n" ++
  "  list                List the proxies on record\n" ++
  "  save-config [path]  Write the configuration to a file\n"

/-- The ending of a run whose command line is not carried out. -/
def Ending.stopped (stop : CommandLine.Stop) : Ending :=
  match stop with
  | .help => .success usage
  | .version => .success (name ++ " " ++ version ++ "\n")
  | stop => ⟨stop.exitCode, "", usage⟩

/-! ### Results -/

/-- A result in the chosen format, one row or item for each element. -/
def render {α : Type} (format : CommandLine.Format) (header : List String)
    (row : α → List String) (toJson : α → Json) (results : List α) : String :=
  match format with
  | .table => (Text.Table.mk header (results.map row)).text ++ "\n"
  | .json => (Json.array (results.map toJson)).pretty ++ "\n"

/-- The records of deployments. -/
def renderRecords (format : CommandLine.Format) (records : List Record) : String :=
  render format ["Contract", "Proxy", "Implementation", "Status", "Verified", "Pending"]
    (fun record => [record.key.text, record.proxy.checksum, record.implementation.checksum,
      record.status.name, toString record.verified, toString record.isPending])
    Record.toJson records

/-- The proxies on record. -/
def renderEntries (format : CommandLine.Format) (entries : List Registry.Entry) : String :=
  render format ["Contract", "Proxy"] (fun entry => [entry.id, entry.address.checksum])
    Registry.Entry.toJson entries

/-! ### Commands -/

variable {m : Type → Type} [Monad m]

/-- A part of a command. -/
abbrev Step (m : Type → Type) (α : Type) : Type := ExceptT Failure m α

/-- An action as a part of a command. -/
def step {α : Type} (action : Action m α) : Step m α :=
  ExceptT.mk do pure ((← action.outcome).mapError Failure.ofError)

/-- An action as a part of a command, whose failure has a sentence of its own. -/
def stepFor {α : Type} (sentence : String) (action : Action m α) : Step m α :=
  ExceptT.mk do
    pure ((← action.outcome).mapError fun error => ⟨sentence, some error.message⟩)

/-- What is said where a key is no number that a key can be. -/
def badKey : Failure := ⟨"Invalid signer key", some "the key is zero or too large"⟩

/-- What is said where the data of a call is not hexadecimal. -/
def badData : Failure := ⟨"Invalid --upgrade-data", some "the data is not hexadecimal"⟩

/-- The account that acts: that of the key, if there is one, or else the first of the node. -/
def account (config : Config) (node : Node m) : Step m (Node.Account m) :=
  match config.signerKey with
  | none => step (Node.Account.first node)
  | some key =>
    match Secp256k1.Key.ofNat? key.word.toNat with
    | some key => pure (.ofKey node key)
    | none => throw badKey

/-- The node of the network, once it has said that it is one. -/
def node (around : Surroundings m) (config : Config) : Step m (Node m) := do
  let url ← match config.nodeUrl with
    | .ok url => pure url
    | .error fault => throw (.ofError fault.toError)
  let node : Node m := ⟨around.http, around.clock, url, Node.standardPatience⟩
  let chain ← stepFor "Failed to reach the RPC node" node.chainId
  if chain = config.network.chain then pure node
  else
    let network := config.network.name
    throw ⟨s!"RPC node reports chain id {chain}, but network {network} is configured with " ++
      toString config.network.chain, none⟩

/-- The way of verifying that is configured. -/
def verification (around : Surroundings m) (config : Config) (build : Build m) :
    Verification.Service m :=
  match config.verification.explorer with
  | some url =>
    if config.verifies then
      let client : Explorer.Client m :=
        ⟨around.http, url, config.verification.apiKey.getD "", config.network.chain, build⟩
      .enabled client.explorer config.verification.policy config.verification.safetyDelay
    else .disabled
  | none => .disabled

/-- The way calls take that is configured. -/
def route (around : Surroundings m) (config : Config) : Route m :=
  match config.routing with
  | .direct => .direct config.retry.policy
  | .multisig wallet service =>
    let client : Wallet.Client m := ⟨around.http, service⟩
    .wallet ⟨client.service, wallet, .ofNat 64 config.network.chain, config.retry.policy⟩

/-- Everything that a deployment works with. -/
def orchestrator (around : Surroundings m) (config : Config) :
    Step m (Deploy.Orchestrator m) := do
  let node ← node around config
  let signer := (← account config node).signer
  let history := History.Store.file around.files config.historyPath around.time
  let build : Build m := ⟨around.files, config.artifacts⟩
  let proxies : Node.Proxies m := ⟨node, signer, history, build, Node.Proxies.standardName⟩
  pure {
    backend := proxies.backend
    registry := .file around.files config.registryPath
    comparator := ⟨history, config.aliasing⟩
    verification := verification around config build
    route := route around config
    signer := signer
    clock := around.clock
    network := config.network.name }

/-- The deployment that a command line asks for. -/
def request (order : CommandLine.Order) : Except Failure Deploy.Request := do
  let data ← match order.upgradeData with
    | none => pure []
    | some text =>
      match Hex.decode? text with
      | some data => pure data
      | none => throw badData
  pure {
    name := ⟨order.artifact, order.tags⟩
    instanceId := order.instanceId
    initArgs := order.initArgs
    options := { Deploy.Options.standard with
      initializer := order.initializer
      upgradeData := data
      validate := !order.unchecked } }

/-- Carries a command out, and gives what is shown. -/
def perform (around : Surroundings m) (config : Config) (format : CommandLine.Format) :
    CommandLine.Command → Step m String
  | .deploy order => do
    let orchestrator ← orchestrator around config
    let request ← ExceptT.mk (pure (request order))
    let (_, session) ← step (Deploy.run orchestrator request .empty)
    pure (renderRecords format session.records)
  | .list => do
    let registry := Registry.Store.file around.files config.registryPath
    pure (renderEntries format (← step registry.entries))
  | .saveConfig path => do
    step (config.save around.files path)
    pure ""

/-- What is said where there is no configuration. -/
def noConfig : String := "Failed to load configuration"

/-- Carries a command line out. -/
def runCommand (around : Surroundings m) (line : CommandLine) : Step m String := do
  let path := line.config.getD Config.fileName
  let config ← ExceptT.mk do
    let config ← Config.load around.files around.directories around.environment path
    pure (config.mapError fun fault => Failure.mk noConfig (some fault.toError.message))
  perform around config line.format line.command

/-- **A run of the program** on the words of a command line. -/
def run (around : Surroundings m) (words : List String) : m Ending := do
  match CommandLine.ofWords around.environment words with
  | .error stop => pure (.stopped stop)
  | .ok line =>
    match ← (runCommand around line).run with
    | .ok output => pure (.success output)
    | .error failure => pure (.failure failure)

end ProxyUpgrade.Program
