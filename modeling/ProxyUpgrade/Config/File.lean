import ProxyUpgrade.Action
import ProxyUpgrade.Config.Basic
import ProxyUpgrade.Files.Basic
import ProxyUpgrade.Settings.Environment
import ProxyUpgrade.Toml.Parser
import ProxyUpgrade.Toml.Printer
/-!
# Configurations in files

A configuration is resolved from three layers: the standard one, a file, and the environment. A
missing file is an empty layer. What results has to be valid: the node's address must be one of the
web, and where contracts are verified there must be an explorer.

Only the middle layer is written, as a file without secrets.
-/

namespace ProxyUpgrade.Config

/-- The usual name of the file. -/
def fileName : Path := "Proxup.toml"

/-- What the names of variables start with. -/
def variableStart : String := "PROXUP_"

/-- Why there is no configuration. -/
inductive Fault where
  /-- The settings cannot be read, or are of the wrong kinds. -/
  | unreadable
  /-- The settings can be read and make no sense. -/
  | invalid (reason : String)
  deriving DecidableEq

/-- The failure of a call that needed a configuration. -/
def Fault.toError : Fault → Error
  | unreadable => .config "the settings cannot be read"
  | invalid reason => .config reason

/-! ### Validity -/

/-- The address of the node. -/
def nodeUrl (config : Config) : Except Fault Url :=
  match Url.ofText config.network.node with
  | .ok url => .ok url
  | .error fault =>
    .error (.invalid ("invalid rpc_url " ++ config.network.node ++ ": " ++ fault.message))

/-- Checks a configuration. -/
def validate (config : Config) : Except Fault Unit := do
  let _ ← config.nodeUrl
  if config.verifies ∧ config.verification.explorer.isNone then
    throw (.invalid
      ("verification is enabled on " ++ config.network.tier.name ++ " but no explorer_url is set"))

/-! ### Layers -/

/-- The names of ways to the chain, which the environment may also give by their place here. -/
def modes : List String := ["direct", "multisig"]

/-- A member of a table changed, if it is there. -/
def inMember (name : String) (change : Json → Json) : Json → Json
  | .object members =>
    .object (members.map fun (other, json) => (other, if other = name then change json else json))
  | json => json

/-- The place of a way replaced by its name. -/
def modeName : Json → Json
  | .integer n =>
    if 0 ≤ n then ((modes[n.toNat]?).map Json.string).getD (.integer n) else .integer n
  | json => json

/-- The layer of the environment. -/
def environmentLayer (environment : List (String × String)) : Json :=
  inMember "routing" (inMember "mode" modeName)
    (Settings.ofEnvironment variableStart environment)

/-- The configuration that two layers make of the standard one. -/
def ofLayers (file environment : Json) : Except Fault Config := do
  match ofJson? (Settings.overlay (Settings.overlay standard.toJson file) environment) with
  | some config => do config.validate; pure config
  | none => throw .unreadable

/-! ### Files -/

variable {m : Type → Type} [Monad m]

/-- The layer of a file, in the first of some directories in which it is found. -/
def fileLayer (files : Files m) (path : Path) : List Path → m (Except Fault Json)
  | [] => pure (.ok (.object []))
  | directory :: others => do
    match ← files.read (directory.join path) with
    | .ok text =>
      match Toml.parse? text with
      | some json => pure (.ok json)
      | none => pure (.error .unreadable)
    | .error (.other _) => pure (.error .unreadable)
    | .error _ => fileLayer files path others

/-- Where a file is looked for: an absolute path as it is, any other in the working directory and
those above it. -/
def searched (directories : List Path) (path : Path) : List Path :=
  if path.startsWith "/" then [""] else directories

/-- Resolves a configuration. -/
def load (files : Files m) (directories : List Path) (environment : List (String × String))
    (path : Path) : m (Except Fault Config) := do
  match ← fileLayer files path (searched directories path) with
  | .error fault => pure (.error fault)
  | .ok file => pure (ofLayers file (environmentLayer environment))

/-- The text of a configuration, if its numbers can be written. -/
def text? (config : Config) : Option String := Toml.print? config.members

/-- Writes a configuration. -/
def save (files : Files m) (config : Config) (path : Path) : Action m Unit :=
  ExceptT.mk do
    match config.text? with
    | none => pure (.error (.config "failed to serialize config: a number is out of range"))
    | some text =>
      match ← files.write path text with
      | .ok () => pure (.ok ())
      | .error fault =>
        pure (.error (.storage ("failed to write config to " ++ path ++ ": " ++ fault.message)))

end ProxyUpgrade.Config
