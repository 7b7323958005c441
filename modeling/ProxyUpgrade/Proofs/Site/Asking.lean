import ProxyUpgrade.Proofs.Site.Reads
import ProxyUpgrade.Proofs.Verification
/-!
# What the steps of a deployment ask

Most questions of a deployment leave everything as it is: the chain, both stores, and the queue of a
wallet (`Site.Question.isQuiet`). Each step is listed here with what else it may ask. The steps that
ask nothing else change nothing, in whatever way the state of a site is described.
-/

namespace ProxyUpgrade.Site

/-- Whether a question leaves everything as it is. -/
def Question.isQuiet : Question → Bool
  | create .. | send _ | register .. | recordAlias .. | propose _ => false
  | _ => true

section Asks

variable {site : Site} {p : Question → Prop} (hp : ∀ question, question.isQuiet = true → p question)
include hp

/-! ### Asking the node -/

theorem query_asks {α : Type} (method : String) (args : List Json) (read : Json → Option α) :
    ((site.node (asking site.account)).query method args read).Asks p :=
  query_obeys (hp _ rfl) (fun _ _ => trivial) fun _ _ _ _ => trivial

theorem hasCode_asks (address : Address) :
    ((site.proxies (asking site.account)).hasCode address).Asks p :=
  .bind (query_asks hp ..) fun _ => Action.asks_pure _

theorem firstLive_asks (addresses : List Address) :
    ((site.proxies (asking site.account)).firstLive addresses).Asks p := by
  induction addresses with
  | nil => exact Action.asks_pure _
  | cons address rest ih =>
    refine .bind (hasCode_asks hp address) fun found => ?_
    split
    · exact Action.asks_pure _
    · exact ih

theorem implementationOf_asks (proxy : Address) :
    ((site.node (asking site.account)).implementationOf proxy).Asks p :=
  .bind (query_asks hp ..) fun _ => Action.asks_pure _

theorem currentOf_asks (key : Key) (proxy : Address) :
    (Deploy.currentOf site.collaborators key proxy).Asks p := by
  refine .bind (implementationOf_asks hp proxy) fun current => ?_
  split
  · exact Action.asks_throw _
  · exact Action.asks_pure _

theorem validate_asks (proxy candidate : Address) (artifact : Artifact) :
    (site.collaborators.backend.validateUpgrade proxy candidate artifact).Asks p :=
  Dialogue.Asks.bind (query_asks hp ..) fun _ => trivial

/-! ### Asking files and stores -/

theorem artifact_asks (name : String) :
    ((site.proxies (asking site.account)).build.artifact name).Asks p := by
  have htext : ((site.proxies (asking site.account)).build.text
      ((site.proxies (asking site.account)).build.documentPath name)).Asks p :=
    .bind (Action.asks_lift (Dialogue.asks_question (hp _ rfl))) fun _ => Action.asks_ofExcept _
  exact .bind (.bind htext fun _ => Action.asks_ofExcept _) fun _ => Action.asks_ofExcept _

theorem same_asks (a b : Address) : (site.collaborators.comparator.same a b).Asks p := by
  rw [History.Comparator.same]
  split
  · exact Action.asks_pure _
  split
  · exact Action.asks_pure _
  · exact .bind ⟨hp _ rfl, fun _ _ _ => trivial⟩ fun _ => Action.asks_pure _

theorem existing_asks (code : Hash) (current : Option Address) :
    ((site.proxies (asking site.account)).existing code current).Asks p := by
  refine .bind ⟨hp _ rfl, fun _ _ _ => trivial⟩ fun group => ?_
  rcases group with - | group
  · exact Action.asks_pure _
  · exact firstLive_asks hp _

theorem proxyAddress_asks (key : Key) :
    (Registry.proxyAddress site.collaborators.registry key).Asks p :=
  .bind (Action.asks_ofExcept _) fun _ => ⟨hp _ rfl, fun _ _ _ => trivial⟩

theorem saveProxy_asks (hregister : ∀ id address, p (.register id address)) (key : Key)
    (proxy : Address) : (Registry.saveProxy site.collaborators.registry key proxy).Asks p := by
  refine .bind (Action.asks_ofExcept _) fun id =>
    .bind ⟨hp _ rfl, fun _ _ _ => trivial⟩ fun existing => ?_
  rcases existing with - | existing
  · exact ⟨hregister _ _, fun _ _ _ => trivial⟩
  · dsimp only
    split
    · exact Action.asks_pure _
    · exact Action.asks_throw _

/-! ### Making implementations available -/

section Creating

variable (hcreate : ∀ purpose code, p (.create purpose code))
  (hrecord : ∀ code address, p (.recordAlias code address))
include hcreate

omit hp in
theorem create_asks (purpose : Purpose) (artifact : Artifact) (args : Bytes) :
    ({ site.proxies (asking site.account) with signer := acting site.account purpose }.create
      artifact args).Asks p := by
  refine .bind ⟨hcreate _ _, fun _ _ _ => trivial⟩ fun receipt => ?_
  rcases receipt.contract with - | address
  · exact Action.asks_throw _
  · exact Action.asks_pure _

include hrecord

theorem implementationFor_asks (artifact : Artifact) (current : Option Address) (args : Bytes) :
    ((site.proxies (asking site.account)).implementationFor artifact current args).Asks p := by
  refine .bind (existing_asks hp _ current) fun found => ?_
  rcases found with - | address
  · exact .bind (create_asks hcreate .implementation artifact args) fun _ =>
      .bind ⟨hrecord _ _, fun _ _ _ => trivial⟩ fun _ => Action.asks_pure _
  · exact Action.asks_pure _

theorem prepareUpgrade_asks (proxy : Address) (artifact : Artifact) (options : Deploy.Options) :
    (site.collaborators.backend.prepareUpgrade proxy artifact options).Asks p :=
  .bind (implementationOf_asks hp proxy) fun _ => implementationFor_asks hp hcreate hrecord ..

theorem createProxy_asks (artifact : Artifact) (data : Bytes) (options : Deploy.Options) :
    (site.collaborators.backend.createProxy artifact data options).Asks p :=
  .bind (implementationFor_asks hp hcreate hrecord ..) fun implementation =>
    .bind (artifact_asks hp _) fun _ => create_asks hcreate (.proxy implementation) _ _

theorem locate_asks (hregister : ∀ id address, p (.register id address))
    (request : Deploy.Request) (artifact : Artifact) (state : State) :
    (Deploy.locate site.collaborators request artifact state).Asks p := by
  refine .bind (proxyAddress_asks hp request.key) fun found => ?_
  rcases found with - | proxy
  · exact .bind (Action.asks_ofExcept _) fun data =>
      .bind (createProxy_asks hp hcreate hrecord artifact data request.options) fun proxy =>
        .bind (saveProxy_asks hp hregister request.key proxy) fun _ =>
          .bind (Action.asks_ofExcept _) fun _ => Action.asks_pure _
  · refine .bind (hasCode_asks hp proxy) fun live => ?_
    split
    · exact Action.asks_pure _
    · exact Action.asks_throw _

end Creating

/-! ### Activating and verifying -/

theorem propose_asks (hpropose : ∀ proposal, p (.propose proposal)) (wallet : Address)
    (chain : BitVec 64) (retry : Retry.Policy) (call : Call) :
    (Wallet.Proposer.propose ⟨(asking site.account).service, wallet, chain, retry⟩
      (asking site.account).clock (asking site.account).signer call).Asks p := by
  have hsleep (time : Nat) : ((asking site.account).clock.sleep time).Asks p :=
    Dialogue.asks_question (hp _ rfl)
  have hput {question : Question} (h : p question) :
      Dialogue.Asks p (question.put : Talk question.Answer) := Dialogue.asks_question h
  refine .bind (retry.run_asks hsleep (hput (hp _ rfl))) fun pending => ?_
  rcases pending with - | hash
  · refine .bind (retry.run_asks hsleep (hput (hp _ rfl))) fun nonce => .bind ?_ fun proposal =>
      .bind (retry.run_asks hsleep (hput (hpropose proposal))) fun _ => Action.asks_pure _
    refine .bind (hput (hp _ rfl)) fun signature => ?_
    rcases signature with - | signature
    · exact Action.asks_throw _
    · exact Action.asks_pure _
  · exact Action.asks_pure _

/-- Whichever way a call takes. -/
theorem send_asks (hsend : ∀ call, p (.send call)) (hpropose : ∀ proposal, p (.propose proposal))
    (call : Call) : (site.collaborators.send call).Asks p := by
  change ((site.route (asking site.account)).send (asking site.account).clock
    (asking site.account).signer call).Asks p
  rw [route]
  rcases site.way with retry | ⟨wallet, chain, retry⟩
  · exact .bind (retry.run_asks (fun _ => Dialogue.asks_question (hp _ rfl))
      (Dialogue.asks_question (hsend call))) fun _ => Action.asks_pure _
  · exact .bind (propose_asks hp hpropose wallet chain retry call) fun _ => Action.asks_pure _

theorem deploy_verify_asks (request : Deploy.Request) (artifact : Artifact)
    (proxy implementation : Address) (activation : Option Route.Outcome) :
    (Deploy.verify site.collaborators request artifact proxy implementation activation).Asks p := by
  have hshown (target : Explorer.Target) :
      ((asking site.account).explorer.isVerified target).Asks p :=
    Dialogue.asks_question (hp _ rfl)
  have hsubmit (target : Explorer.Target) : ((asking site.account).explorer.submit target).Asks p :=
    Dialogue.asks_question (hp _ rfl)
  have hsleep (time : Nat) : ((asking site.account).clock.sleep time).Asks p :=
    Dialogue.asks_question (hp _ rfl)
  have hservice : site.service (asking site.account) =
      Verification.serviceOf (asking site.account).explorer site.verification := by
    rw [service]
    rcases site.verification with - | ⟨retry, delay⟩ <;> rfl
  simp only [Deploy.verify, collaborators, Deploy.Orchestrator.collaborators, orchestrator,
    hservice]
  split
  · exact Verification.verify_asks hshown hsubmit hsleep ..
  · exact Verification.verifyProxy_asks hshown hsubmit hsleep ..

end Asks

end ProxyUpgrade.Site
