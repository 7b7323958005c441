import ProxyUpgrade.Proofs.Deploy.Questions
import ProxyUpgrade.Proofs.Site.Basic
import ProxyUpgrade.Proofs.Verification
/-!
# The parts of a site answer

The dialogue of a deployment is the deployment itself: with its questions answered by the parts of a
site, it is what `Deploy.run` does with these (`Site.deploy_answeredBy`), whichever monad they work
in. So a statement about all runs of the dialogue is one about deployments on any chain.

Each program that a deployment is made of makes no difference between parts that answer at once and
a dialogue that is answered afterwards. There is one law for each, and it is always of that form.
-/

namespace ProxyUpgrade

section Answers

variable {Q : Type} {A : Q → Type} {m : Type → Type} [Monad m] (reply : (q : Q) → m (A q))

/-! ### Parts whose questions are answered -/

/-- An account whose questions are answered. -/
def Signer.answeredBy (signer : Signer (Dialogue Q A)) : Signer m where
  address := signer.address
  send call := Action.answeredBy reply (signer.send call)
  create code := Action.answeredBy reply (signer.create code)
  sign hash := Action.answeredBy reply (signer.sign hash)

/-- Parts whose questions are answered. -/
def Site.Parts.answeredBy (parts : Site.Parts (Dialogue Q A)) : Site.Parts m where
  http := ⟨fun request => (parts.http.exchange request).answeredBy reply⟩
  clock := parts.clock.answeredBy reply
  signer := parts.signer.answeredBy reply
  read path := (parts.read path).answeredBy reply
  history := parts.history.answeredBy reply
  registry := parts.registry.answeredBy reply
  explorer := parts.explorer.answeredBy reply
  service := {
    nextNonce := fun wallet => Action.answeredBy reply (parts.service.nextNonce wallet)
    propose := fun proposal => Action.answeredBy reply (parts.service.propose proposal)
    findPending := fun wallet target data =>
      Action.answeredBy reply (parts.service.findPending wallet target data) }

variable [LawfulMonad m]

namespace Site

variable (site : Site) (parts : Parts (Dialogue Q A))

/-! ### Asking the node -/

theorem http_send_answeredBy (request : Http.Request) :
    (parts.http.send request).answeredBy reply = (parts.answeredBy reply).http.send request := by
  rw [Http.send, Http.send]
  split
  · rw [Dialogue.answeredBy_bind]
    refine bind_congr fun answer => ?_
    rcases answer with - | answer <;> rfl
  · rfl

theorem query_answeredBy {α : Type} (method : String) (args : List Json) (read : Json → Option α) :
    Action.answeredBy reply ((site.node parts).query method args read) =
      (site.node (parts.answeredBy reply)).query method args read := by
  have hsend := http_send_answeredBy reply parts ⟨site.url, .json (Node.document method args)⟩
  simp only [Node.query, Node.call, Action.answeredBy_bind, Action.answeredBy_lift, node, hsend,
    Action.answeredBy_ofExcept]

theorem implementationOf_answeredBy (proxy : Address) :
    Action.answeredBy reply ((site.node parts).implementationOf proxy) =
      (site.node (parts.answeredBy reply)).implementationOf proxy := by
  simp only [Node.implementationOf, Node.storageAt, Action.answeredBy_bind, query_answeredBy]
  rfl

theorem hasCode_answeredBy (address : Address) :
    Action.answeredBy reply ((site.proxies parts).hasCode address) =
      (site.proxies (parts.answeredBy reply)).hasCode address := by
  have hcode := query_answeredBy reply site parts "eth_getCode" [address.toJson, Node.latest]
    Bytes.ofJson?
  rw [Node.Proxies.hasCode, Action.answeredBy_bind]
  exact congrArg (· >>= _) hcode

theorem firstLive_answeredBy (addresses : List Address) :
    Action.answeredBy reply ((site.proxies parts).firstLive addresses) =
      (site.proxies (parts.answeredBy reply)).firstLive addresses := by
  induction addresses with
  | nil => rfl
  | cons address others ih =>
    simp only [Node.Proxies.firstLive, Action.answeredBy_bind, hasCode_answeredBy]
    refine bind_congr fun found => ?_
    split
    · rfl
    · exact ih

/-! ### Creating contracts -/

theorem artifact_answeredBy (name : String) :
    Action.answeredBy reply ((site.proxies parts).build.artifact name) =
      (site.proxies (parts.answeredBy reply)).build.artifact name := by
  simp only [Build.artifact, Build.document, Build.text, Action.answeredBy_bind,
    Action.answeredBy_lift, Action.answeredBy_ofExcept]
  rfl

theorem create_answeredBy (signer : Signer (Dialogue Q A)) (artifact : Artifact) (args : Bytes) :
    Action.answeredBy reply ({ site.proxies parts with signer := signer }.create artifact args) =
      { site.proxies (parts.answeredBy reply) with signer := signer.answeredBy reply }.create
        artifact args := by
  simp only [Node.Proxies.create, Action.answeredBy_bind]
  refine bind_congr fun receipt => ?_
  rcases receipt.contract with - | address <;> rfl

theorem implementationFor_answeredBy (artifact : Artifact) (current : Option Address)
    (args : Bytes) :
    Action.answeredBy reply ((site.proxies parts).implementationFor artifact current args) =
      (site.proxies (parts.answeredBy reply)).implementationFor artifact current args := by
  have hcreate := create_answeredBy reply site parts parts.signer artifact args
  have hexisting : Action.answeredBy reply
      ((site.proxies parts).existing (artifact.codeHash args) current) =
        (site.proxies (parts.answeredBy reply)).existing (artifact.codeHash args) current := by
    simp only [Node.Proxies.existing, Action.answeredBy_bind]
    refine bind_congr fun group => ?_
    rcases group with - | group
    · rfl
    · exact firstLive_answeredBy reply site parts _
  simp only [Node.Proxies.implementationFor, Action.answeredBy_bind, hexisting]
  refine bind_congr fun address => ?_
  rcases address with - | address
  · simp only [Action.answeredBy_bind]
    exact congrArg (· >>= _) hcreate
  · rfl

theorem validate_answeredBy (proxy candidate : Address) (artifact : Artifact) :
    Action.answeredBy reply ((site.proxies parts).validate proxy candidate artifact) =
      (site.proxies (parts.answeredBy reply)).validate proxy candidate artifact := by
  have hask : Action.answeredBy reply
      ((site.node parts).ask candidate (Abi.selector Node.Proxies.uuidSignature)) =
        (site.node (parts.answeredBy reply)).ask candidate
          (Abi.selector Node.Proxies.uuidSignature) := query_answeredBy reply site parts ..
  refine (Dialogue.answeredBy_bind _ _).trans ?_
  exact congrArg (fun answer : Action m Bytes => answer.outcome >>= _) hask

theorem backend_answeredBy (factory : Address → Signer (Dialogue Q A)) :
    (site.backend parts factory).answeredBy reply =
      site.backend (parts.answeredBy reply) fun implementation =>
        (factory implementation).answeredBy reply := by
  have hcurrent (proxy : Address) : Action.answeredBy reply
      ((site.proxies parts).node.implementationOf proxy) =
        (site.proxies (parts.answeredBy reply)).node.implementationOf proxy :=
    implementationOf_answeredBy reply site parts proxy
  simp only [Deploy.Backend.answeredBy, backend, Node.Proxies.backend, Action.answeredBy_bind,
    artifact_answeredBy, hcurrent, implementationFor_answeredBy, hasCode_answeredBy,
    validate_answeredBy, create_answeredBy]

/-! ### Activating and verifying -/

theorem propose_answeredBy (wallet : Address) (chain : BitVec 64) (retry : Retry.Policy)
    (call : Call) :
    Action.answeredBy reply (Wallet.Proposer.propose ⟨parts.service, wallet, chain, retry⟩
        parts.clock parts.signer call) =
      Wallet.Proposer.propose ⟨(parts.answeredBy reply).service, wallet, chain, retry⟩
        (parts.answeredBy reply).clock (parts.answeredBy reply).signer call := by
  have hsigned (transaction : Wallet.Transaction) :
      Action.answeredBy reply (Wallet.Proposer.signed ⟨parts.service, wallet, chain, retry⟩
          parts.signer transaction) =
        Wallet.Proposer.signed ⟨(parts.answeredBy reply).service, wallet, chain, retry⟩
          (parts.answeredBy reply).signer transaction := by
    simp only [Wallet.Proposer.signed, Action.answeredBy_bind]
    refine bind_congr fun signature => ?_
    rcases signature with - | signature <;> rfl
  -- A call that is already waiting is not proposed again.
  simp only [Wallet.Proposer.propose, Action.answeredBy_bind, Retry.Policy.run_answeredBy]
  refine bind_congr fun pending => ?_
  rcases pending with - | hash
  · simp only [Action.answeredBy_bind, Retry.Policy.run_answeredBy, hsigned]
    rfl
  · rfl

theorem route_answeredBy (call : Call) :
    Action.answeredBy reply ((site.route parts).send parts.clock parts.signer call) =
      (site.route (parts.answeredBy reply)).send (parts.answeredBy reply).clock
        (parts.answeredBy reply).signer call := by
  simp only [route]
  rcases site.way with retry | ⟨wallet, chain, retry⟩
  · simp only [Route.send, Action.answeredBy_bind, Retry.Policy.run_answeredBy]
    rfl
  · simp only [Route.send, Action.answeredBy_bind, propose_answeredBy]
    rfl

omit [LawfulMonad m] in
theorem service_answeredBy :
    (site.service parts).answeredBy reply = site.service (parts.answeredBy reply) := by
  simp only [service]
  rcases site.verification with - | ⟨retry, delay⟩ <;> rfl

end Site

end Answers

/-! ### The dialogue of a deployment -/

namespace Site

variable {m : Type → Type} [Monad m]

/-- How parts answer a question. -/
def Parts.reply (parts : Parts m) : (question : Question) → m question.Answer
  | .exchange request => parts.http.exchange request
  | .now => parts.clock.now
  | .sleep time => parts.clock.sleep time
  | .create _ code => (parts.signer.create code).outcome
  | .send call => (parts.signer.send call).outcome
  | .sign hash => (parts.signer.sign hash).outcome
  | .read path => parts.read path
  | .registered id => (parts.registry.get id).outcome
  | .register id address => (parts.registry.set id address).outcome
  | .entries => parts.registry.entries.outcome
  | .recordAlias code address => (parts.history.record code address).outcome
  | .groupOfAddress address => (parts.history.ofAddress address).outcome
  | .groupOfCode code => (parts.history.ofCode code).outcome
  | .groups => parts.history.groups.outcome
  | .isVerified target => (parts.explorer.isVerified target).outcome
  | .submit target => parts.explorer.submit target
  | .nextNonce wallet => (parts.service.nextNonce wallet).outcome
  | .propose proposal => (parts.service.propose proposal).outcome
  | .findPending wallet target data => (parts.service.findPending wallet target data).outcome

variable [LawfulMonad m] {parts : Parts m}

/-- What a contract is created for makes no difference to the account. -/
theorem acting_answeredBy (purpose : Purpose) :
    (acting parts.signer.address purpose).answeredBy parts.reply = parts.signer := by
  simp only [Signer.answeredBy, acting, Action.answeredBy, ExceptT.mk, ExceptT.run, Question.put,
    Dialogue.answeredBy_question, Parts.reply, Action.outcome]

theorem asking_answeredBy : (asking parts.signer.address).answeredBy parts.reply = parts := by
  simp only [Parts.answeredBy, asking, acting_answeredBy, Clock.answeredBy, Explorer.answeredBy,
    Registry.Store.answeredBy, History.Store.answeredBy, Action.answeredBy, ExceptT.mk, ExceptT.run,
    Question.put, Dialogue.answeredBy_question, Parts.reply, Action.outcome]

theorem collaborators_answeredBy {site : Site} (haccount : parts.signer.address = site.account) :
    site.collaborators.answeredBy parts.reply = (site.orchestrator parts).collaborators := by
  have hparts : (asking site.account).answeredBy parts.reply = parts := by
    rw [← haccount, asking_answeredBy]
  -- Accounts that differ in what they create for answer alike.
  have hsigner (purpose : Purpose) :
      (acting site.account purpose).answeredBy parts.reply = parts.signer := by
    rw [← haccount, acting_answeredBy]
  have hbackend : (site.backend (asking site.account) fun implementation =>
      acting site.account (.proxy implementation)).answeredBy parts.reply =
        (site.proxies parts).backend := by
    rw [backend_answeredBy, hparts]
    simp only [hsigner, backend_signer]
  have hsend (call : Call) := route_answeredBy parts.reply site (asking site.account) call
  have hservice := service_answeredBy parts.reply site (asking site.account)
  rw [hparts] at hsend hservice
  have hclock : (asking site.account).clock.answeredBy parts.reply = parts.clock :=
    congrArg Parts.clock hparts
  have hsource (target : Explorer.Target) :
      (Verification.verify (site.service (asking site.account)) (asking site.account).clock
        target).answeredBy parts.reply =
          Verification.verify (site.service parts) parts.clock target := by
    rw [Verification.verify_answeredBy, hservice, hclock]
  have hproxy (proxy implementation : Address) (contract : String) (args : Bytes) :
      (Verification.verifyProxy (site.service (asking site.account)) (asking site.account).clock
        proxy implementation contract args).answeredBy parts.reply =
          Verification.verifyProxy (site.service parts) parts.clock proxy implementation contract
            args := by
    rw [Verification.verifyProxy_answeredBy, hservice, hclock]
  simp only [Deploy.Collaborators.answeredBy, collaborators, Deploy.Orchestrator.collaborators,
    orchestrator, hbackend, hsend, hsource, hproxy]
  have hregistry : (asking site.account).registry.answeredBy parts.reply = parts.registry :=
    congrArg Parts.registry hparts
  have hhistory : (asking site.account).history.answeredBy parts.reply = parts.history :=
    congrArg Parts.history hparts
  rw [hregistry, hhistory]

/-- **A deployment is its dialogue**, answered by the parts of the site. -/
theorem deploy_answeredBy {site : Site} (haccount : parts.signer.address = site.account)
    (request : Deploy.Request) (session : Session) :
    (site.deploy request session).answeredBy parts.reply =
      (Deploy.run (site.orchestrator parts) request session).outcome := by
  have hrecord : Action.answeredBy parts.reply (Deploy.record site.collaborators request) =
      Deploy.record (site.orchestrator parts).collaborators request := by
    rw [Deploy.record_answeredBy, collaborators_answeredBy haccount]
  have hrun : Action.answeredBy parts.reply (ExceptT.mk (site.deploy request session)) =
      Deploy.run (site.orchestrator parts) request session := by
    rw [Deploy.run, ← hrecord]
    exact Action.answeredBy_bind ..
  exact congrArg Action.outcome hrun

end Site

end ProxyUpgrade
