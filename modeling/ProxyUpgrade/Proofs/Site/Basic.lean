import ProxyUpgrade.Deploy
import ProxyUpgrade.Node.Backend
import ProxyUpgrade.Proofs.Dialogue
/-!
# Deployments on a chain

`Deploy.run` leaves open where artifacts come from and how proxies are created. On a chain,
artifacts are files of a build, contracts are created by an account that signs, and the chain is
looked at through a node. A `Site` is all that is configured of this; what is left to others are its
`Parts`: the connection to the node, the account, two stores, the files, an explorer and a wallet.

With parts that only ask (`Site.asking`), a deployment is a dialogue at the lowest level at which
anything can be answered (`Site.deploy`). What is true of the chain, the registry and the history is
proved there: the rules of the dialogue then say what a chain does, and where others may fail.

An account is only told from which code a contract is to be created. To tell proxies from
implementations, the questions also say what it is created for (`Site.Purpose`). That makes no
difference to those who answer them: answered by the parts of a site, the dialogue is what
`Deploy.run` does with these (`Site.deploy_answeredBy`).
-/

namespace ProxyUpgrade

namespace Site

/-- The way that calls take to the chain. -/
inductive Way where
  /-- The account sends them, again after failures that the policy allows. -/
  | direct (retry : Retry.Policy)
  /-- They are proposed to a wallet. -/
  | wallet (address : Address) (chain : BitVec 64) (retry : Retry.Policy)

end Site

/-- What is configured for deployments on a chain. -/
structure Site where
  /-- Where the node is. -/
  url : Url
  /-- How long receipts are waited for. -/
  patience : Span
  /-- The directory with the output of a build. -/
  builds : Path
  /-- The name of the artifact that proxies are created from. -/
  proxyName : String
  /-- The account that signs. -/
  account : Address
  /-- Whether addresses of one group count as the same. -/
  aliasing : Bool
  way : Site.Way
  /-- The policy and the delay of verification, if there is any. -/
  verification : Option (Retry.Policy × Span)
  network : String

namespace Site

/-- What a deployment on a chain leaves to others. -/
structure Parts (m : Type → Type) where
  http : Http m
  clock : Clock m
  signer : Signer m
  /-- Reads a file. -/
  read : Path → m (Except Files.Fault String)
  history : History.Store m
  registry : Registry.Store m
  explorer : Explorer m
  service : Wallet.Service m

section Assembly

variable {m : Type → Type} [Monad m] (site : Site) (parts : Parts m)

/-- What is said of files that can only be read. -/
def readOnly : Files.Fault := .other "Read-only file system (os error 30)"

/-- Files that can only be read. -/
def files : Files m where
  present _ := pure false
  read := parts.read
  list _ := pure (.error readOnly)
  makeDirectory _ := pure (.error readOnly)
  hold _ := pure (.error readOnly)
  release _ := pure ()
  write _ _ := pure (.error readOnly)
  rename _ _ := pure (.error readOnly)

/-- The node. -/
def node : Node m := ⟨parts.http, parts.clock, site.url, site.patience⟩

/-- Artifacts and proxies. -/
def proxies : Node.Proxies m where
  node := site.node parts
  signer := parts.signer
  history := parts.history
  build := ⟨files parts, site.builds⟩
  proxyName := site.proxyName

/-- The backend, if the account that creates a proxy may be another for each implementation. -/
def backend (factory : Address → Signer m) : Deploy.Backend m :=
  { (site.proxies parts).backend with
    createProxy := fun artifact data options => do
      let implementation ←
        (site.proxies parts).implementationFor artifact none options.constructorArgs
      let proxy ← (site.proxies parts).build.artifact site.proxyName
      { site.proxies parts with signer := factory implementation }.create proxy
        (Node.Proxies.constructorArgs implementation data) }

/-- As it is, one account creates everything. -/
theorem backend_signer :
    site.backend parts (fun _ => parts.signer) = (site.proxies parts).backend := rfl

/-- The way of verifying. -/
def service : Verification.Service m :=
  match site.verification with
  | some (retry, delay) => .enabled parts.explorer retry delay
  | none => .disabled

/-- The way that calls take to the chain. -/
def route : Route m :=
  match site.way with
  | .direct retry => .direct retry
  | .wallet address chain retry => .wallet ⟨parts.service, address, chain, retry⟩

/-- Everything that a deployment works with. -/
def orchestrator : Deploy.Orchestrator m where
  backend := (site.proxies parts).backend
  registry := parts.registry
  comparator := ⟨parts.history, site.aliasing⟩
  verification := site.service parts
  route := site.route parts
  signer := parts.signer
  clock := parts.clock
  network := site.network

end Assembly

/-! ### Parts that ask -/

/-- What a contract is created for. -/
inductive Purpose where
  | implementation
  /-- A proxy, with the implementation that its constructor is given. -/
  | proxy (implementation : Address)
  deriving DecidableEq

/-- Whether a proxy is created. -/
def Purpose.isProxy : Purpose → Bool
  | implementation => false
  | proxy _ => true

/-- What can be asked of the parts of a site. -/
inductive Question where
  /-- Sends a request to the node, and waits for the reply. -/
  | exchange (request : Http.Request)
  | now
  | sleep (time : Nat)
  /-- Has a contract created. -/
  | create (purpose : Purpose) (code : Bytes)
  /-- Has a call sent. -/
  | send (call : Call)
  | sign (hash : Hash)
  /-- Reads a file. -/
  | read (path : Path)
  /-- The address on record under a text. -/
  | registered (id : String)
  /-- Puts an address on record under a text. -/
  | register (id : String) (address : Address)
  | entries
  /-- Puts on record that an address carries a code. -/
  | recordAlias (code : Hash) (address : Address)
  | groupOfAddress (address : Address)
  | groupOfCode (code : Hash)
  | groups
  | isVerified (target : Explorer.Target)
  | submit (target : Explorer.Target)
  | nextNonce (wallet : Address)
  | propose (proposal : Wallet.Proposal)
  | findPending (wallet target : Address) (data : Bytes)

namespace Question

/-- What may be answered. -/
abbrev Answer : Question → Type
  | exchange _ => Option Http.Reply
  | now => Nat
  | sleep _ => Unit
  | create .. => Except Error Receipt
  | send _ => Except Error Receipt
  | sign _ => Except Error (Option Signature)
  | read _ => Except Files.Fault String
  | registered _ => Except Error (Option Address)
  | register .. => Except Error Unit
  | entries => Except Error (List Registry.Entry)
  | recordAlias .. => Except Error History.Group
  | groupOfAddress _ => Except Error (Option History.Group)
  | groupOfCode _ => Except Error (Option History.Group)
  | groups => Except Error (List History.Group)
  | isVerified _ => Except Error Bool
  | submit _ => List Log.Line × Except Error Unit
  | nextNonce _ => Except Error (BitVec 64)
  | propose _ => Except Error Unit
  | findPending .. => Except Error (Option Hash)

/-- Whether a transaction is sent to the chain. -/
def isTransaction : Question → Bool
  | create .. | send _ => true
  | _ => false

end Question

/-- A question with the answer that was given. -/
abbrev Turn : Type := Dialogue.Turn Question.Answer

/-- A program that asks the parts of a site. -/
abbrev Talk : Type → Type := Dialogue Question Question.Answer

/-- The program that only asks a question. -/
def Question.put (question : Question) : Talk question.Answer := Dialogue.question question

/-- An account that asks for what it is told to do. -/
def acting (address : Address) (purpose : Purpose) : Signer Talk where
  address := address
  send call := ExceptT.mk (Question.send call).put
  create code := ExceptT.mk (Question.create purpose code).put
  sign hash := ExceptT.mk (Question.sign hash).put

/-- Parts that ask. -/
def asking (address : Address) : Parts Talk where
  http := ⟨fun request => (Question.exchange request).put⟩
  clock := ⟨Question.now.put, fun time => (Question.sleep time).put⟩
  signer := acting address .implementation
  read path := (Question.read path).put
  history := {
    record := fun code address => ExceptT.mk (Question.recordAlias code address).put
    ofAddress := fun address => ExceptT.mk (Question.groupOfAddress address).put
    ofCode := fun code => ExceptT.mk (Question.groupOfCode code).put
    groups := ExceptT.mk Question.groups.put }
  registry := {
    get := fun id => ExceptT.mk (Question.registered id).put
    set := fun id address => ExceptT.mk (Question.register id address).put
    entries := ExceptT.mk Question.entries.put }
  explorer := {
    isVerified := fun target => ExceptT.mk (Question.isVerified target).put
    submit := fun target => (Question.submit target).put }
  service := {
    nextNonce := fun wallet => ExceptT.mk (Question.nextNonce wallet).put
    propose := fun proposal => ExceptT.mk (Question.propose proposal).put
    findPending := fun wallet target data =>
      ExceptT.mk (Question.findPending wallet target data).put }

theorem now_run (address : Address) (time : Nat) :
    Dialogue.Run (asking address).clock.now [⟨.now, time⟩] time := Dialogue.run_question.mpr rfl

theorem sleep_run (address : Address) (time : Nat) :
    Dialogue.Run ((asking address).clock.sleep time) [⟨.sleep time, ()⟩] () :=
  Dialogue.run_question.mpr rfl

theorem sign_run (address : Address) (hash : Hash) (answer : Except Error (Option Signature)) :
    Dialogue.Run ((asking address).signer.sign hash).run [⟨.sign hash, answer⟩] answer :=
  Dialogue.run_question.mpr rfl

/-- The collaborators that a deployment then has. -/
def collaborators (site : Site) : Deploy.Collaborators Talk :=
  { (site.orchestrator (asking site.account)).collaborators with
    backend := site.backend (asking site.account) fun implementation =>
      acting site.account (.proxy implementation) }

/-- **The dialogue of a deployment** on a chain. -/
def deploy (site : Site) (request : Deploy.Request) (session : Session) :
    Talk (Except Error (Record × Session)) :=
  (do
    let record ← Deploy.record site.collaborators request
    pure (record, session.insert record) : Action Talk (Record × Session)).run

end Site

end ProxyUpgrade
