import ProxyUpgrade.Abi.Argument
import ProxyUpgrade.CommandLine.Scan
import ProxyUpgrade.Files.Path
import ProxyUpgrade.Log.Filter
import ProxyUpgrade.Registry.Key
/-!
# Command lines

A command line names one of three commands: to deploy an artifact, to list the proxies on record, or
to write down the configuration. Three options may stand before and after the name of the command,
where the later place counts more; each may also be given by a variable of the environment, which
counts least and has to be valid wherever the option itself is absent.
-/

namespace ProxyUpgrade

namespace CommandLine

/-! ### Formats of results -/

/-- How results are shown. -/
inductive Format where
  | table
  | json
  deriving DecidableEq

namespace Format

/-- The name of a format. -/
def name : Format → String
  | table => "table"
  | json => "json"

/-- The format of a name. -/
def ofName? (text : String) : Option Format := [table, json].find? (·.name == text)

theorem ofName?_name (format : Format) : ofName? format.name = some format := by
  cases format <;> decide

instance : ToString Format := ⟨name⟩

end Format

/-! ### Options of every command -/

/-- The options that every command has. -/
structure Common where
  /-- How much is logged. -/
  verbosity : Option Log.Filter
  /-- The path of the configuration. -/
  config : Option Path
  /-- How results are shown. -/
  format : Option Format
  deriving DecidableEq

namespace Common

/-- No options. -/
def none : Common := ⟨.none, .none, .none⟩

/-- Options, with others where they are absent. -/
def orElse (options others : Common) : Common :=
  ⟨options.verbosity <|> others.verbosity, options.config <|> others.config,
    options.format <|> others.format⟩

end Common

/-- A value that can be given once. -/
def once {α β : Type} (read : String → Option β) (get : α → Option β) (set : β → α → α)
    (text : String) (given : α) : Except Stop α :=
  if (get given).isSome then .error .repeated
  else match read text with
    | some value => .ok (set value given)
    | none => .error .valueInvalid

/-- Any text. -/
def anything (text : String) : Option String := some text

/-- The option that asks for help. -/
def helpSwitch (α : Type) : Switch α := ⟨["help"], some 'h', .flag fun _ => .error .help⟩

/-- The options that every command has, beside what a command has of its own. -/
def commonSwitches (α : Type) : List (Switch (Common × α)) :=
  [⟨["verbosity"], some 'v', .value (once Log.Filter.ofText? (·.1.verbosity)
      fun value (common, own) => ({ common with verbosity := some value }, own))⟩,
    ⟨["config", "conf"], .none, .value (once anything (·.1.config)
      fun value (common, own) => ({ common with config := some value }, own))⟩,
    ⟨["output"], .none, .value (once Format.ofName? (·.1.format)
      fun value (common, own) => ({ common with format := some value }, own))⟩,
    helpSwitch (Common × α)]

/-- What a variable says about an option that is absent. -/
def fallback {β : Type} (environment : List (String × String)) (read : String → Option β)
    (given : Option β) (name : String) : Except Stop (Option β) :=
  match given, environment.lookup name with
  | none, some text =>
    match read text with
    | some value => .ok (some value)
    | none => .error .valueInvalid
  | _, _ => .ok none

/-- What the environment says about options that are absent. -/
def Common.ofEnvironment (environment : List (String × String)) (given : Common) :
    Except Stop Common := do
  pure {
    verbosity := ← fallback environment Log.Filter.ofText? given.verbosity "PROXUP_VERBOSITY"
    config := ← fallback environment anything given.config "PROXUP_CONFIG"
    format := ← fallback environment Format.ofName? given.format "PROXUP_OUTPUT" }

/-! ### Commands -/

/-- What is said about a deployment. -/
structure Order where
  artifact : String
  tags : List String
  instanceId : Option String
  initArgs : List Abi.Value
  initializer : Option String
  /-- What is to be called on an upgrade, in hexadecimal. -/
  upgradeData : Option String
  /-- Whether new code is activated without a check. -/
  unchecked : Bool

/-- A command. -/
inductive Command where
  | deploy (order : Order)
  | list
  | saveConfig (path : Path)

namespace Command

/-- The names of the commands. -/
def names : List String := ["deploy", "list", "save-config"]

end Command

/-- An order in which nothing is said. -/
def Order.blank : Order := ⟨"", [], none, [], none, none, false⟩

/-- The part of a key in a text, if the text can be one. -/
def keyPart? (text : String) : Option String := if Key.isPart text then some text else none

/-- An argument for the initializer. -/
def argument? (text : String) : Option Abi.Value := (Abi.Argument.ofText text).toOption

/-- A value of which any number can be given. -/
def many {α β : Type} (read : String → Option β) (add : β → α → α) (text : String) (given : α) :
    Except Stop α :=
  match read text with
  | some value => .ok (add value given)
  | none => .error .valueInvalid

/-- The options of an order. -/
def orderSwitches : List (Switch (Common × Order)) :=
  [⟨["tag"], some 't', .value (many keyPart?
      fun tag (common, order) => (common, { order with tags := order.tags ++ [tag] }))⟩,
    ⟨["deployment-id"], some 'd', .value (once keyPart? (·.2.instanceId)
      fun id (common, order) => (common, { order with instanceId := some id }))⟩,
    ⟨["arg"], some 'a', .value (many argument?
      fun arg (common, order) => (common, { order with initArgs := order.initArgs ++ [arg] }))⟩,
    ⟨["initializer"], none, .value (once anything (·.2.initializer)
      fun text (common, order) => (common, { order with initializer := some text }))⟩,
    ⟨["upgrade-data"], none, .value (once anything (·.2.upgradeData)
      fun text (common, order) => (common, { order with upgradeData := some text }))⟩,
    ⟨["skip-layout-check"], none, .flag fun (common, order) =>
      if order.unchecked then .error .repeated
      else .ok (common, { order with unchecked := true })⟩]

/-- What may follow `deploy`. -/
def deployLevel : Level (Common × Order) where
  switches := orderSwitches ++ commonSwitches Order
  places := [many anything fun text (common, order) => (common, { order with artifact := text })]
  needsAll := true
  commands := []

/-- What may follow `list`. -/
def listLevel : Level (Common × Unit) := ⟨commonSwitches Unit, [], true, []⟩

/-- What may follow `save-config`. -/
def saveLevel : Level (Common × Path) where
  switches := commonSwitches Path
  places := [many anything fun text (common, _) => (common, text)]
  needsAll := false
  commands := []

/-- Where the configuration is written unless a path is given. -/
def standardPath : Path := "Proxup.toml"

/-- What may come before a command. -/
def topLevel : Level (Common × Unit) where
  switches := commonSwitches Unit ++ [⟨["version"], some 'V', .flag fun _ => .error .version⟩]
  places := []
  needsAll := true
  commands := Command.names ++ ["help"]

/-- What becomes of words that ask for help: each has to name a command within the one before. -/
def helpFor : List String → Stop
  | [] => .help
  | [name] => if topLevel.commands.contains name then .help else .commandUnknown
  | _ => .commandUnknown

/-- What is given on a level that has been read to its end, with what the environment adds. -/
def complete {α : Type} (environment : List (String × String)) (level : Level (Common × α))
    (state : Scan (Common × α)) : Except Stop (Common × Common × α) := do
  let state ← state.settle
  let (common, own) := state.given
  let others ← Common.ofEnvironment environment common
  if level.needsAll && !state.places.isEmpty then throw .argumentMissing
  else pure (common, others, own)

/-- Reads the words after the name of a command. -/
def ofLevel {α : Type} (environment : List (String × String)) (level : Level (Common × α)) (own : α)
    (words : List String) : Except Stop (Common × Common × α) := do
  let (state, _) ← scan level (.start level (.none, own)) words
  complete environment level state

/-- Reads a command. -/
def ofCommand (environment : List (String × String)) (name : String) (words : List String) :
    Except Stop (Common × Common × Command) :=
  match name with
  | "deploy" => do
    let (common, others, order) ← ofLevel environment deployLevel .blank words
    pure (common, others, .deploy order)
  | "list" => do
    let (common, others, _) ← ofLevel environment listLevel () words
    pure (common, others, .list)
  | "save-config" => do
    let (common, others, path) ← ofLevel environment saveLevel standardPath words
    pure (common, others, .saveConfig path)
  | _ => .error (helpFor words)

end CommandLine

/-- A command line, with everything that was left open filled in. -/
structure CommandLine where
  verbosity : Log.Filter
  config : Option Path
  format : CommandLine.Format
  command : CommandLine.Command

namespace CommandLine

/-- A command with its options. -/
def ofCommon (common : Common) (command : Command) : CommandLine :=
  ⟨common.verbosity.getD (.atLeast .info), common.config, common.format.getD .table, command⟩

/-- Reads a command line. -/
def ofWords (environment : List (String × String)) (words : List String) :
    Except Stop CommandLine := do
  let (state, found) ← scan topLevel (.start topLevel (.none, ())) words
  let below ← found.mapM fun (name, rest) => ofCommand environment name rest
  let (common, others, _) ← complete environment topLevel state
  match below with
  | some (own, ownOthers, command) =>
    pure (ofCommon ((own.orElse common).orElse (ownOthers.orElse others)) command)
  | none =>
    throw (if common = .none ∧ others = .none then .nothing else .commandMissing)

end CommandLine

end ProxyUpgrade
