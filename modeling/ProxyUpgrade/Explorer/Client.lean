import ProxyUpgrade.Build.Source
import ProxyUpgrade.Explorer.Target
import ProxyUpgrade.Http.Basic
/-!
# An explorer on the web

The explorer is asked with the question in the query of its address, and takes submissions as forms.
Every reply is a document with a status of its own, which is `1` if all went well. A server that
asks for patience does so in the text of its refusal, and then another attempt may help.
-/

namespace ProxyUpgrade.Explorer

/-- An explorer, and how it is reached. -/
structure Client (m : Type → Type) where
  http : Http m
  url : Url
  apiKey : String
  chain : Nat
  /-- Where sources are found. -/
  build : Build m

namespace Client

variable {m : Type → Type} [Monad m]

/-- The address of an action. -/
def actionUrl (client : Client m) (action : String) : Url :=
  client.url.withPairs [("chainid", toString client.chain), ("module", "contract"),
    ("action", action), ("apikey", client.apiKey)]

/-! ### Replies -/

/-- The document that comes with every reply. -/
structure Envelope where
  status : String
  message : String
  result : Json

/-- The document from JSON. -/
def Envelope.ofJson? (json : Json) : Option Envelope := do
  let fields ← json.fields? ["status", "message", "result"]
  pure {
    status := ← fields.required "status" Json.text?
    message := ← fields.defaulted "message" "" Json.text?
    result := ← fields.required "result" (Json.plain? 1) }

/-- Whether a text holds a word. -/
def contains (word : List Char) : List Char → Bool
  | [] => word.isEmpty
  | c :: rest => word.isPrefixOf (c :: rest) || contains word rest

/-- Whether a refusal asks for patience. -/
def asksForPatience (reason : String) : Bool :=
  contains "rate limit".toList (reason.toList.map Char.toLower)

/-- The result in a reply, if its status says that there is one. -/
def Envelope.check (envelope : Envelope) : Except Error Json :=
  if envelope.status = "1" then .ok envelope.result
  else
    let reason := envelope.result.text?.getD envelope.message
    if asksForPatience reason then .error (.network reason) else .error (.explorer reason)

/-- Sends a request, and gives the result in the reply. -/
def send (client : Client m) (request : Http.Request) : Action m Json := do
  match ← ExceptT.lift (client.http.sendChecked request) with
  | .error fault => throw (fault.toError .explorer)
  | .ok reply =>
    match reply.json?.bind Envelope.ofJson? with
    | some envelope => Action.ofExcept envelope.check
    | none => throw (.explorer ("invalid response: " ++ Http.Fault.undecodable.message))

/-! ### What is shown -/

/-- What an explorer shows of a contract. -/
structure Entry where
  source : String
  /-- Whether the contract is a proxy: `1` if so. -/
  proxy : String
  implementation : String

/-- What is shown, from JSON; what is missing is empty. -/
def Entry.ofJson? (json : Json) : Option Entry := do
  let fields ← json.fields? ["SourceCode", "Proxy", "Implementation"]
  pure {
    source := ← fields.defaulted "SourceCode" "" Json.text?
    proxy := ← fields.defaulted "Proxy" "" Json.text?
    implementation := ← fields.defaulted "Implementation" "" Json.text? }

/-- Whether what is shown means that a target is verified. -/
def Entry.satisfies (entry : Entry) : Target → Bool
  | .source _ _ _ => !entry.source.isEmpty
  | .link _ implementation =>
    entry.proxy == "1" && Address.ofHex? entry.implementation == some implementation

/-- What stands where the reason why a result is refused would. -/
def unexpected : String := "not of the expected form"

/-- Whether a result shows a target as verified. -/
def isShown (result : Json) (target : Target) : Except Error Bool :=
  match Json.list? Entry.ofJson? result with
  | some entries => .ok (entries.any (·.satisfies target))
  | none => .error (.explorer ("unexpected getsourcecode result: " ++ unexpected))

/-- Whether a target is shown as verified. -/
def isVerified (client : Client m) (target : Target) : Action m Bool := do
  let url := (client.actionUrl "getsourcecode").withPair "address" target.address.checksum
  let result ← client.send ⟨url, .empty⟩
  Action.ofExcept (isShown result target)

/-! ### Submissions -/

/-- The form that submits a source. -/
def sourceForm (address : Address) (source : Build.Source) (args : Bytes) :
    List (String × String) :=
  [("contractaddress", address.checksum), ("sourceCode", source.input.compact),
    ("codeformat", "solidity-standard-json-input"), ("contractname", source.contractPath),
    ("compilerversion", "v" ++ source.compiler)] ++
    if args.isEmpty then [] else [("constructorArguements", Hex.plain args)]

/-- The form that submits the link of a proxy to its implementation. -/
def linkForm (proxy implementation : Address) : List (String × String) :=
  [("address", proxy.checksum), ("expectedimplementation", implementation.checksum)]

/-- The line that tells of a submission. -/
def submittedLine (target : Target) (ticket : Json) : Log.Line :=
  ⟨.debug, "proxup_deploy::explorer",
    "Verification submitted target=" ++ target.text ++ " guid=" ++ ticket.compact⟩

/-- Submits a form, and gives the line that tells of it. -/
def submitForm (client : Client m) (target : Target) (action : String)
    (form : List (String × String)) : m (List Log.Line × Except Error Unit) := do
  match ← (client.send ⟨client.actionUrl action, .form form⟩).outcome with
  | .ok ticket => pure ([submittedLine target ticket], .ok ())
  | .error error => pure ([], .error error)

/-- Submits a target. -/
def submit (client : Client m) (target : Target) : m (List Log.Line × Except Error Unit) := do
  match target with
  | .source address contract args =>
    match ← (client.build.source contract).outcome with
    | .error error => pure ([], .error error)
    | .ok source => do
      let (lines, outcome) ← client.submitForm target "verifysourcecode"
        (sourceForm address source args)
      pure (source.line :: lines, outcome)
  | .link proxy implementation =>
    client.submitForm target "verifyproxycontract" (linkForm proxy implementation)

/-- What verification needs of an explorer. -/
def explorer (client : Client m) : Explorer m := ⟨client.isVerified, client.submit⟩

end Client

end ProxyUpgrade.Explorer
