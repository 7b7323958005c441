import ProxyUpgrade.Proofs.Site.Law
/-!
# First deployments

A first deployment that goes well, turn by turn: an implementation is created, then the proxy, which
is put on record and found to run the present code. There is one for every artifact and every key
(`Site.firstTurns_run`), and it leads to a ledger with one of everything (`Site.firstTurns_steps`).
The steps it is made of are runs of their own, and can be put together in other ways: for a proxy
that is on record, and is given another implementation (`Site.upgradeTurns_run`).
-/

namespace ProxyUpgrade.Site

variable {site : Site}

/-! ### Steps that go well -/

section Runs

variable {artifact front : Artifact} {request : Deploy.Request} {turns : List Turn}
  {implementation : Address} {group : History.Group} {data : Bytes}

theorem query_run {α : Type} {method : String} {args : List Json} {read : Json → Option α}
    (hreachable : site.Reachable) {reply : Option Http.Reply} {value : α}
    (hvalue : site.understood method read reply = .ok value) :
    Dialogue.Run ((site.node (asking site.account)).query method args read).run
      [⟨.exchange (site.query method args), reply⟩] (.ok value) := by
  rw [← hvalue]
  exact query_run_understood hreachable reply

theorem artifactIn_of_code {name text : String} {code : Bytes}
    (hcode : (Json.parse? text).bind Build.code? = some code) (hne : code ≠ []) :
    site.artifactIn name (.ok text) = .ok ⟨name, code⟩ := by
  have hdocument : Build.documentOf "artifact" Build.code? (site.documentPath name) text =
      .ok code := by
    rw [Build.documentOf, hcode]
  have hartifact : Build.artifactOf name code = .ok ⟨name, code⟩ := by
    simp [Build.artifactOf, hne]
  exact (congrArg (· >>= Build.artifactOf name) hdocument).trans hartifact

theorem read_run (site : Site) (name : String) (answer : Except Files.Fault String) :
    Dialogue.Run ((site.proxies (asking site.account)).build.artifact name).run
      [⟨.read (site.documentPath name), answer⟩] (site.artifactIn name answer) := by
  refine Dialogue.Obeys.run (read_obeys ⟨answer, [], rfl⟩ ?_)
  rintro answer' rest ⟨⟩
  exact ⟨rfl, rfl⟩

theorem hasCode_run (hreachable : site.Reachable) (address : Address) (bytes : Bytes) :
    Dialogue.Run ((site.proxies (asking site.account)).hasCode address).run
      [⟨.exchange (site.codeQuery address), some (Node.replyOf bytes)⟩] (.ok !bytes.isEmpty) :=
  Action.run_yield (query_run hreachable (codeIn_replyOf bytes)) rfl

theorem implementationOf_run (hreachable : site.Reachable) (proxy implementation : Address) :
    Dialogue.Run ((site.node (asking site.account)).implementationOf proxy).run
      [⟨.exchange (site.slotQuery proxy), some (Node.replyOf implementation.bytes)⟩]
      (.ok implementation) := by
  have hword : site.understood "eth_getStorageAt" Word.ofJson?
      (some (Node.replyOf implementation.bytes)) =
        .ok (BitVec.ofNat 256 implementation.toNat) := by
    rw [understood_replyOf, Node.formed_word]
  refine Action.run_yield (query_run hreachable hword) ?_
  rw [ofNat_word]
  rfl

/-- The receipt of a creation. -/
def receiptOf (address : Address) : Receipt := ⟨.zero, none, some address, true⟩

/-- An implementation that is not on record is created. -/
theorem implementationFor_run_new (current : Option Address) (args : Bytes) :
    Dialogue.Run ((site.proxies (asking site.account)).implementationFor artifact current args).run
      [⟨.groupOfCode (artifact.codeHash args), .ok none⟩,
        ⟨.create .implementation (artifact.creationCode args), .ok (receiptOf implementation)⟩,
        ⟨.recordAlias (artifact.codeHash args) implementation, .ok group⟩]
      (.ok implementation) :=
  .ask _ (.ask _ (.ask _ (.done _)))

/-- An implementation that is the only one on record is taken if it has code. -/
theorem implementationFor_run_known (hreachable : site.Reachable) {current : Option Address}
    (hcurrent : current = none ∨ current = some implementation) {args runtime : Bytes}
    (hruntime : runtime ≠ []) :
    Dialogue.Run ((site.proxies (asking site.account)).implementationFor artifact current args).run
      [⟨.groupOfCode (artifact.codeHash args),
          .ok (some ⟨artifact.codeHash args, implementation, []⟩)⟩,
        ⟨.exchange (site.codeQuery implementation), some (Node.replyOf runtime)⟩]
      (.ok implementation) := by
  have hlive := hasCode_run hreachable implementation runtime
  rw [List.isEmpty_eq_false_iff.mpr hruntime] at hlive
  have hfirst (others : List Address) : Dialogue.Run
      ((site.proxies (asking site.account)).firstLive (implementation :: others)).run
      [⟨.exchange (site.codeQuery implementation), some (Node.replyOf runtime)⟩]
      (.ok (some implementation)) :=
    Action.run_yield hlive rfl
  have hexisting : Dialogue.Run
      ((site.proxies (asking site.account)).existing (artifact.codeHash args) current).run
      [⟨.groupOfCode (artifact.codeHash args),
          .ok (some ⟨artifact.codeHash args, implementation, []⟩)⟩,
        ⟨.exchange (site.codeQuery implementation), some (Node.replyOf runtime)⟩]
      (.ok (some implementation)) := by
    refine .ask _ ?_
    change Dialogue.Run ((site.proxies (asking site.account)).firstLive
      (Node.Proxies.candidates ⟨artifact.codeHash args, implementation, []⟩ current)).run _ _
    rcases hcurrent with rfl | rfl
    · exact hfirst []
    · have hcandidates : Node.Proxies.candidates ⟨artifact.codeHash args, implementation, []⟩
          (some implementation) = [implementation, implementation] := by
        simp [Node.Proxies.candidates, Option.filter, History.Group.has, History.Group.addresses]
      rw [hcandidates]
      exact hfirst [implementation]
  exact Action.run_yield hexisting rfl

/-- A proxy is created for its implementation. -/
theorem createProxy_run {options : Deploy.Options} {proxy : Address}
    (himplementation : Dialogue.Run ((site.proxies (asking site.account)).implementationFor artifact
      none options.constructorArgs).run turns (.ok implementation))
    {answer : Except Files.Fault String}
    (hfront : site.artifactIn site.proxyName answer = .ok front) :
    Dialogue.Run (site.collaborators.backend.createProxy artifact data options).run
      (turns ++ [⟨.read (site.documentPath site.proxyName), answer⟩,
        ⟨.create (.proxy implementation)
          (front.creationCode (Node.Proxies.constructorArgs implementation data)),
          .ok (receiptOf proxy)⟩]) (.ok proxy) := by
  have hread := read_run site site.proxyName answer
  rw [hfront] at hread
  exact Action.run_bind himplementation (Action.run_bind hread (.ask _ (.done _)))

/-- The address on record for a key is looked up by its text. -/
theorem proxyAddress_run {key : Key} {id : String} (hid : key.id = .ok id)
    (found : Option Address) :
    Dialogue.Run (Registry.proxyAddress site.collaborators.registry key).run
      [⟨.registered id, .ok found⟩] (.ok found) := by
  rw [Registry.proxyAddress, hid]
  exact .ask _ (.done _)

/-- A proxy that is not on record is looked up again, and written. -/
theorem saveProxy_run (site : Site) {key : Key} {id : String} (hid : key.id = .ok id)
    (proxy : Address) (written : Except Error Unit) :
    Dialogue.Run (Registry.saveProxy site.collaborators.registry key proxy).run
      [⟨.registered id, .ok none⟩, ⟨.register id proxy, written⟩] written := by
  rw [Registry.saveProxy, hid]
  exact .ask _ (.ask _ (.done _))

/-- A proxy is created and put on record. -/
theorem locate_run_new {id : String} (hid : request.key.id = .ok id)
    (hdata : Deploy.initializerData request.initArgs request.options.initializer = .ok data)
    {proxy : Address}
    (hcreated : Dialogue.Run
      (site.collaborators.backend.createProxy artifact data request.options).run turns
        (.ok proxy)) :
    Dialogue.Run (Deploy.locate site.collaborators request artifact .initial).run
      ([⟨.registered id, .ok none⟩] ++ (turns ++
        [⟨.registered id, .ok none⟩, ⟨.register id proxy, .ok ()⟩]))
      (.ok (proxy, ⟨.deployed⟩)) := by
  have hsaved := saveProxy_run site hid proxy (.ok ())
  exact Action.run_bind (proxyAddress_run hid none)
    (Action.run_bind_ofExcept hdata (Action.run_bind hcreated (Action.run_yield hsaved rfl)))

/-- A proxy on record is located if it has code. -/
theorem locate_run_known (hreachable : site.Reachable) {id : String} (hid : request.key.id = .ok id)
    (proxy : Address) {runtime : Bytes} (hruntime : runtime ≠ []) (state : State) :
    Dialogue.Run (Deploy.locate site.collaborators request artifact state).run
      ([⟨.registered id, .ok (some proxy)⟩] ++
        [⟨.exchange (site.codeQuery proxy), some (Node.replyOf runtime)⟩])
      (.ok (proxy, state)) := by
  have hlive := hasCode_run hreachable proxy runtime
  rw [List.isEmpty_eq_false_iff.mpr hruntime] at hlive
  exact Action.run_bind (proxyAddress_run hid (some proxy)) (Action.run_yield hlive rfl)

/-- A deployment fails if the proxy that it has created cannot be put on record. -/
theorem deploy_run_unregistered {session : Session} {answer : Except Files.Fault String}
    (hartifact : site.artifactIn request.name.artifact answer = .ok artifact) {id : String}
    (hid : request.key.id = .ok id)
    (hdata : Deploy.initializerData request.initArgs request.options.initializer = .ok data)
    {proxy : Address}
    (hcreated : Dialogue.Run
      (site.collaborators.backend.createProxy artifact data request.options).run turns (.ok proxy))
    (e : Error) :
    Dialogue.Run (site.deploy request session)
      ([⟨.read (site.documentPath request.name.artifact), answer⟩] ++
        ([⟨.registered id, .ok none⟩] ++ (turns ++
          [⟨.registered id, .ok none⟩, ⟨.register id proxy, .error e⟩]))) (.error e) := by
  have hread := read_run site request.name.artifact answer
  rw [hartifact] at hread
  have hlocated : Dialogue.Run
      (Deploy.locate site.collaborators request artifact .initial).run _ (.error e) :=
    Action.run_bind (proxyAddress_run hid none) (Action.run_bind_ofExcept hdata
      (Action.run_bind hcreated (Action.run_bind_error (saveProxy_run site hid proxy (.error e)))))
  exact Action.run_bind_error (Action.run_bind hread (Action.run_bind_error hlocated))

section Upgrades

variable {proxy candidate : Address} {compared : List Turn} {state : State} (group : History.Group)

/-- The implementation of a proxy is read off its slot. -/
theorem currentOf_run (hreachable : site.Reachable) (key : Key) (proxy : Address)
    (hnonzero : implementation ≠ .zero) :
    Dialogue.Run (Deploy.currentOf site.collaborators key proxy).run
      [⟨.exchange (site.slotQuery proxy), some (Node.replyOf implementation.bytes)⟩]
      (.ok implementation) :=
  Action.run_yield (implementationOf_run hreachable proxy implementation) (if_neg hnonzero)

/-- A proxy keeps an implementation that is taken for the candidate. -/
theorem upgrade_run_kept (hreachable : site.Reachable) (hnonzero : implementation ≠ .zero)
    (hprepared : Dialogue.Run (site.collaborators.backend.prepareUpgrade proxy artifact
      request.options).run turns (.ok candidate))
    (hsame : Dialogue.Run (site.collaborators.comparator.same implementation candidate).run compared
      (.ok true)) :
    Dialogue.Run (Deploy.upgrade site.collaborators request artifact proxy state).run
      ([⟨.exchange (site.slotQuery proxy), some (Node.replyOf implementation.bytes)⟩] ++ (turns ++
        (⟨.recordAlias (artifact.codeHash request.options.constructorArgs) candidate, .ok group⟩ ::
          compared))) (.ok (implementation, none, state)) :=
  Action.run_bind (currentOf_run hreachable request.key proxy hnonzero)
    (Action.run_bind hprepared (.ask _ (Action.run_yield hsame rfl)))

/-- A proxy is given a candidate that is not taken for its implementation. -/
theorem upgrade_run_activated (hreachable : site.Reachable) (hnonzero : implementation ≠ .zero)
    (hprepared : Dialogue.Run (site.collaborators.backend.prepareUpgrade proxy artifact
      request.options).run turns (.ok candidate))
    (hdiffer : Dialogue.Run (site.collaborators.comparator.same implementation candidate).run
      compared (.ok false)) {activating : List Turn} {outcome : Route.Outcome}
    (hactivated : Dialogue.Run (Deploy.activate site.collaborators request artifact proxy
      candidate).run activating (.ok outcome)) {state' : State}
    (hstate : state.advance .upgraded = .ok state') :
    Dialogue.Run (Deploy.upgrade site.collaborators request artifact proxy state).run
      ([⟨.exchange (site.slotQuery proxy), some (Node.replyOf implementation.bytes)⟩] ++ (turns ++
        (⟨.recordAlias (artifact.codeHash request.options.constructorArgs) candidate, .ok group⟩ ::
          (compared ++ activating)))) (.ok (candidate, some outcome, state')) := by
  refine Action.run_bind (currentOf_run hreachable request.key proxy hnonzero)
    (Action.run_bind hprepared (.ask _ (Action.run_bind hdiffer (Action.run_yield hactivated ?_))))
  rw [hstate]
  rfl

end Upgrades

/-- The turns in which a proxy turns out to run the present code. -/
def unchangedTurns (site : Site) (proxy implementation : Address) (code : Hash) (runtime : Bytes) :
    List Turn :=
  [⟨.exchange (site.slotQuery proxy), some (Node.replyOf implementation.bytes)⟩,
    ⟨.exchange (site.slotQuery proxy), some (Node.replyOf implementation.bytes)⟩,
    ⟨.groupOfCode code, .ok (some ⟨code, implementation, []⟩)⟩,
    ⟨.exchange (site.codeQuery implementation), some (Node.replyOf runtime)⟩,
    ⟨.recordAlias code implementation, .ok ⟨code, implementation, []⟩⟩]

/-- A proxy that runs the present code is left alone. -/
theorem upgrade_run_unchanged (hreachable : site.Reachable) (request : Deploy.Request)
    (artifact : Artifact) (proxy : Address) (hnonzero : implementation ≠ .zero) {runtime : Bytes}
    (hruntime : runtime ≠ []) (state : State) :
    Dialogue.Run (Deploy.upgrade site.collaborators request artifact proxy state).run
      (site.unchangedTurns proxy implementation (artifact.codeHash request.options.constructorArgs)
        runtime) (.ok (implementation, none, state)) := by
  have hprepared : Dialogue.Run
      (site.collaborators.backend.prepareUpgrade proxy artifact request.options).run _
      (.ok implementation) :=
    Action.run_bind (implementationOf_run hreachable proxy implementation)
      (implementationFor_run_known hreachable (.inr rfl) hruntime)
  have hsame : Dialogue.Run
      (site.collaborators.comparator.same implementation implementation).run [] (.ok true) := by
    rw [History.Comparator.same, if_pos rfl]
    exact .done _
  exact upgrade_run_kept _ hreachable hnonzero hprepared hsame

/-- A deployment is done once its proxy is located and upgraded, if nothing is to be verified. -/
theorem deploy_run_upgraded (hverification : site.verification = none) {session : Session}
    {answer : Except Files.Fault String}
    (hartifact : site.artifactIn request.name.artifact answer = .ok artifact) {proxy : Address}
    {state state' : State}
    (hlocated : Dialogue.Run
      (Deploy.locate site.collaborators request artifact .initial).run turns (.ok (proxy, state)))
    {rest : List Turn} {activation : Option Route.Outcome}
    (hupgraded : Dialogue.Run
      (Deploy.upgrade site.collaborators request artifact proxy state).run rest
        (.ok (implementation, activation, state'))) :
    let record : Record := ⟨request.name, request.instanceId, proxy, implementation, state'.status,
      false, activation⟩
    Dialogue.Run (site.deploy request session)
      ([⟨.read (site.documentPath request.name.artifact), answer⟩] ++ (turns ++ rest))
      (.ok (record, session.insert record)) := by
  have hread := read_run site request.name.artifact answer
  rw [hartifact] at hread
  have hrecord : Dialogue.Run (Deploy.record site.collaborators request).run
      ([⟨.read (site.documentPath request.name.artifact), answer⟩] ++ (turns ++ rest))
      (.ok ⟨request.name, request.instanceId, proxy, implementation, state'.status, false,
        activation⟩) := by
    refine Action.run_bind hread (Action.run_bind hlocated (Action.run_yield hupgraded ?_))
    have hservice : (site.orchestrator (asking site.account)).verification = .disabled := by
      simp [orchestrator, service, hverification]
    have hverify : Deploy.verify site.collaborators request artifact proxy implementation
        activation = pure .disabled := by
      simp only [Deploy.verify, collaborators, Deploy.Orchestrator.collaborators, hservice]
      split <;> rfl
    dsimp only
    rw [hverify]
    rfl
  exact Action.run_yield hrecord rfl

/-- A deployment whose proxy is located and runs the present code is done, if nothing is to be
verified. -/
theorem deploy_run_unchanged (hreachable : site.Reachable)
    (hverification : site.verification = none) {request : Deploy.Request} {session : Session}
    {answer : Except Files.Fault String}
    (hartifact : site.artifactIn request.name.artifact answer = .ok artifact) {proxy : Address}
    {state : State}
    (hlocated : Dialogue.Run
      (Deploy.locate site.collaborators request artifact .initial).run turns (.ok (proxy, state)))
    (hnonzero : implementation ≠ .zero) {runtime : Bytes} (hruntime : runtime ≠ []) :
    ∃ record, Dialogue.Run (site.deploy request session)
      ([⟨.read (site.documentPath request.name.artifact), answer⟩] ++ (turns ++
        site.unchangedTurns proxy implementation
          (artifact.codeHash request.options.constructorArgs) runtime))
      (.ok (record, session.insert record)) ∧ record.proxy = proxy ∧
        record.implementation = implementation := by
  have hupgraded := upgrade_run_unchanged hreachable request artifact proxy hnonzero hruntime
    state
  exact ⟨_, deploy_run_upgraded hverification hartifact hlocated hupgraded, rfl, rfl⟩

end Runs

/-! ### A first deployment -/

/-- The rules of a site where everybody can be depended on, files stay as they are, and there never
is code at the address zero. -/
def frank (site : Site) (files : Path → Except Files.Fault String) :
    Dialogue.Rules Ledger Question Question.Answer where
  permits _ _ := True
  answers s question answer s' := site.Answers s question answer s' ∧
    site.Dependable s question answer s' ∧ Reading files question answer ∧ s'.code .zero = []

section First

variable (site : Site) (files : Path → Except Files.Fault String) (request : Deploy.Request)
  (artifact front : Artifact) (data : Bytes) (id : String) (implementation proxy : Address)

/-- The code of an implementation on its own. -/
def firstCode : Hash := artifact.codeHash request.options.constructorArgs

/-- The turns in which a first proxy is created. -/
def creationTurns : List Turn :=
  [⟨.groupOfCode (firstCode request artifact), .ok none⟩,
    ⟨.create .implementation (artifact.creationCode request.options.constructorArgs),
      .ok (receiptOf implementation)⟩,
    ⟨.recordAlias (firstCode request artifact) implementation,
      .ok ⟨firstCode request artifact, implementation, []⟩⟩] ++
  [⟨.read (site.documentPath site.proxyName), files (site.documentPath site.proxyName)⟩,
    ⟨.create (.proxy implementation)
      (front.creationCode (Node.Proxies.constructorArgs implementation data)),
      .ok (receiptOf proxy)⟩]

/-- The ledger after that. -/
def createdLedger : Ledger :=
  ((Ledger.blank.create ⟨implementation, artifact.creationCode request.options.constructorArgs,
    .implementation⟩ [0] .zero).recordAlias .epoch (firstCode request artifact)
      implementation).create
        ⟨proxy, front.creationCode (Node.Proxies.constructorArgs implementation data),
          .proxy implementation⟩ [0] implementation

/-- There still is no code at the address zero. -/
theorem createdLedger_zero (hzero : implementation ≠ .zero) (hzero' : proxy ≠ .zero) :
    (createdLedger request artifact front data implementation proxy).code .zero = [] := by
  simp [createdLedger, Ledger.create, Ledger.recordAlias, Ledger.blank, hzero.symm, hzero'.symm]

theorem creationTurns_steps (hzero : implementation ≠ .zero) (hzero' : proxy ≠ .zero)
    (hne : proxy ≠ implementation) :
    (site.frank files).Steps .blank
      (creationTurns site files request artifact front data implementation proxy)
      (createdLedger request artifact front data implementation proxy) := by
  have hvoid := createdLedger_zero request artifact front data implementation proxy hzero hzero'
  have hvoid' : (Ledger.blank.create ⟨implementation, artifact.creationCode
      request.options.constructorArgs, .implementation⟩ [0] .zero).code .zero = [] := by
    simp [Ledger.create, Ledger.blank, hzero.symm]
  refine .cons ⟨⟨rfl, says_ok _⟩, ⟨none, rfl⟩, trivial, rfl⟩ ?_
  refine .cons ⟨⟨rfl, [0], .zero, by simp, by rintro _ ⟨⟩, rfl⟩, by rintro ⟨⟩, trivial, hvoid'⟩ ?_
  refine .cons ⟨.inl ⟨.epoch, rfl, says_ok _⟩, ⟨_, rfl⟩, trivial, hvoid'⟩ ?_
  refine .cons ⟨rfl, trivial, rfl, hvoid'⟩ ?_
  refine .cons ⟨⟨?_, [0], implementation, by simp, ?_, rfl⟩, by rintro ⟨⟩, trivial, hvoid⟩ (.nil _)
  · simp [Ledger.create, Ledger.recordAlias, Ledger.blank, hne]
  · rintro _ ⟨⟩
    rfl

/-- The implementation is then on record for its code, on its own. -/
theorem createdLedger_ofCode :
    (createdLedger request artifact front data implementation proxy).manifest.ofCode?
      (firstCode request artifact) = some ⟨firstCode request artifact, implementation, []⟩ := by
  simp [createdLedger, Ledger.create, Ledger.recordAlias, Ledger.blank, History.Manifest.record,
    History.Manifest.ofCode?]

/-- A proxy that is left alone leaves the ledger alone. -/
theorem unchangedTurns_steps {s : Ledger} {code : Hash} {runtime : Bytes}
    (hslot : s.slot proxy = implementation) (hruntime : s.code implementation = runtime)
    (hgroup : s.manifest.ofCode? code = some ⟨code, implementation, []⟩)
    (hvoid : s.code .zero = []) :
    (site.frank files).Steps s (site.unchangedTurns proxy implementation code runtime) s := by
  subst hslot hruntime
  have hhas : History.Group.has ⟨code, s.slot proxy, []⟩ (s.slot proxy) = true :=
    History.Group.has_canonical _
  refine .cons ⟨⟨rfl, truthful_slot proxy⟩, trivial, trivial, hvoid⟩ ?_
  refine .cons ⟨⟨rfl, truthful_slot proxy⟩, trivial, trivial, hvoid⟩ ?_
  refine .cons ⟨⟨rfl, ?_⟩, ⟨_, rfl⟩, trivial, hvoid⟩ ?_
  · rintro _ ⟨⟩
    exact hgroup.symm
  refine .cons ⟨⟨rfl, truthful_code _⟩, trivial, trivial, hvoid⟩ ?_
  exact .cons ⟨answers_recordAlias hgroup hhas, ⟨_, rfl⟩, trivial, hvoid⟩ (.nil s)

/-- The turns of a first deployment. -/
def firstTurns : List Turn :=
  [⟨.read (site.documentPath request.name.artifact),
    files (site.documentPath request.name.artifact)⟩] ++
  (([⟨.registered id, .ok none⟩] ++
    (creationTurns site files request artifact front data implementation proxy ++
      [⟨.registered id, .ok none⟩, ⟨.register id proxy, .ok ()⟩])) ++
  site.unchangedTurns proxy implementation (firstCode request artifact) [0])

/-- The ledger after a first deployment. -/
def firstLedger : Ledger :=
  (createdLedger request artifact front data implementation proxy).register id proxy

variable {site files request artifact front data id implementation proxy}

theorem createdTurns_run
    (hfront : site.artifactIn site.proxyName (files (site.documentPath site.proxyName)) =
      .ok front) :
    Dialogue.Run (site.collaborators.backend.createProxy artifact data request.options).run
      (creationTurns site files request artifact front data implementation proxy) (.ok proxy) :=
  createProxy_run (implementationFor_run_new none request.options.constructorArgs) hfront

/-- **A first deployment can go well.** -/
theorem firstTurns_run (hreachable : site.Reachable) (hverification : site.verification = none)
    (hartifact : site.artifactIn request.name.artifact
      (files (site.documentPath request.name.artifact)) = .ok artifact)
    (hfront : site.artifactIn site.proxyName (files (site.documentPath site.proxyName)) = .ok front)
    (hid : request.key.id = .ok id)
    (hdata : Deploy.initializerData request.initArgs request.options.initializer = .ok data)
    (hzero : implementation ≠ .zero) (session : Session) :
    ∃ record, Dialogue.Run (site.deploy request session)
      (firstTurns site files request artifact front data id implementation proxy)
      (.ok (record, session.insert record)) ∧ record.proxy = proxy ∧
        record.implementation = implementation :=
  deploy_run_unchanged hreachable hverification hartifact
    (locate_run_new hid hdata (createdTurns_run hfront)) hzero (by simp)

theorem firstTurns_steps (hzero : implementation ≠ .zero) (hzero' : proxy ≠ .zero)
    (hne : proxy ≠ implementation) :
    (site.frank files).Steps .blank
      (firstTurns site files request artifact front data id implementation proxy)
      (firstLedger request artifact front data id implementation proxy) := by
  have hvoid := createdLedger_zero request artifact front data implementation proxy hzero hzero'
  have hcreated := creationTurns_steps site files request artifact front data implementation proxy
    hzero hzero' hne
  refine .append (.cons ⟨rfl, trivial, rfl, rfl⟩ (.nil _)) (.append
    (.append (.cons ⟨⟨rfl, says_ok none⟩, ⟨none, rfl⟩, trivial, rfl⟩ (.nil _)) (hcreated.append
      (.cons ⟨⟨rfl, says_ok none⟩, ⟨none, rfl⟩, trivial, hvoid⟩
        (.cons ⟨.inl rfl, rfl, trivial, hvoid⟩ (.nil _)))))
    (unchangedTurns_steps site files implementation proxy ?_ ?_
      (createdLedger_ofCode request artifact front data implementation proxy) hvoid))
  · simp [createdLedger, Ledger.create, Ledger.register]
  · simp [createdLedger, Ledger.create, Ledger.register, Ledger.recordAlias, hne.symm]

end First

/-! ### The plainest of sites -/

/-- A site with nothing to it but a node. -/
def plain : Site where
  url := ⟨"http".toList, none, .segments [], none, none⟩
  patience := 0
  builds := "out"
  proxyName := "Proxy"
  account := ⟨9⟩
  aliasing := false
  way := .direct .once
  verification := none
  network := "local"

/-- The document of a contract whose code is a single byte. -/
def byteDocument : String := "\x7b\"bytecode\":\x7b\"object\":\"0x01\"\x7d\x7d"

theorem code?_byteDocument : (Json.parse? byteDocument).bind Build.code? = some [1] := by
  decide +kernel

/-- A build where every contract has that code. -/
def plainFiles (_ : Path) : Except Files.Fault String := .ok byteDocument

theorem plain_artifactIn (name : String) (path : Path) :
    plain.artifactIn name (plainFiles path) = .ok ⟨name, [1]⟩ :=
  artifactIn_of_code code?_byteDocument (by simp)

theorem plain_reachable : plain.Reachable := by
  rw [Reachable]
  decide

/-- A request with nothing but the name of an artifact. -/
def plainRequest : Deploy.Request := ⟨⟨"Stub", []⟩, none, [], .standard⟩

/-- The turns of a first deployment there. -/
def plainTurns : List Turn :=
  firstTurns plain plainFiles plainRequest ⟨"Stub", [1]⟩ ⟨"Proxy", [1]⟩ [] "Stub" ⟨1⟩ ⟨2⟩

/-- The ledger after a first deployment there. -/
def plainLedger : Ledger :=
  firstLedger plainRequest ⟨"Stub", [1]⟩ ⟨"Proxy", [1]⟩ [] "Stub" ⟨1⟩ ⟨2⟩

theorem plain_run (session : Session) :
    ∃ record, Dialogue.Run (plain.deploy plainRequest session) plainTurns
      (.ok (record, session.insert record)) ∧ record.proxy = ⟨2⟩ ∧ record.implementation = ⟨1⟩ :=
  firstTurns_run plain_reachable rfl (plain_artifactIn _ _) (plain_artifactIn _ _) rfl rfl
    (by decide) session

theorem plain_steps : (plain.frank plainFiles).Steps .blank plainTurns plainLedger :=
  firstTurns_steps (by decide) (by decide) (by decide)

/-- The code of the implementation there. -/
def plainCode : Hash := firstCode plainRequest ⟨"Stub", [1]⟩

/-! ### Another implementation

The proxy of the plain site is on record, and gets another implementation. How that becomes
available is left open: its code may be new, or the present one may have lost its code. -/

/-- The turns in which the proxy is located. -/
def locatedTurns (site : Site) : List Turn :=
  [⟨.registered "Stub", .ok (some ⟨2⟩)⟩] ++
    [⟨.exchange (site.codeQuery ⟨2⟩), some (Node.replyOf [0])⟩]

theorem locatedTurns_run (hreachable : site.Reachable) (artifact : Artifact) :
    Dialogue.Run (Deploy.locate site.collaborators plainRequest artifact .initial).run
      (locatedTurns site) (.ok (⟨2⟩, .initial)) :=
  locate_run_known hreachable rfl ⟨2⟩ (by simp) .initial

section Another

variable (files : Path → Except Files.Fault String) (artifact : Artifact) (group : History.Group)
  (preparing : List Turn)

/-- The turns in which an implementation is created for a code that is not on record. -/
def availableTurns : List Turn :=
  [⟨.exchange (plain.slotQuery ⟨2⟩), some (Node.replyOf (Address.bytes ⟨1⟩))⟩,
    ⟨.groupOfCode (firstCode plainRequest artifact), .ok none⟩,
    ⟨.create .implementation (artifact.creationCode []), .ok (receiptOf ⟨3⟩)⟩,
    ⟨.recordAlias (firstCode plainRequest artifact) ⟨3⟩,
      .ok ⟨firstCode plainRequest artifact, ⟨3⟩, []⟩⟩]

theorem availableTurns_run : Dialogue.Run (plain.collaborators.backend.prepareUpgrade ⟨2⟩ artifact
    plainRequest.options).run (availableTurns artifact) (.ok ⟨3⟩) :=
  Action.run_bind (implementationOf_run plain_reachable ⟨2⟩ ⟨1⟩)
    (implementationFor_run_new (some ⟨1⟩) [])

/-- The turns in which it is activated. -/
def activatingTurns : List Turn :=
  [⟨.exchange (plain.callQuery ⟨3⟩ (Abi.selector Node.Proxies.uuidSignature)),
      some (Node.replyOf Node.implementationSlot.bytes)⟩,
    ⟨.send (.upgrade ⟨2⟩ ⟨3⟩ []), .ok (receiptOf ⟨3⟩)⟩]

theorem activatingTurns_run : Dialogue.Run (Deploy.activate plain.collaborators plainRequest
    artifact ⟨2⟩ ⟨3⟩).run activatingTurns (.ok (.mined (receiptOf ⟨3⟩))) := by
  have hsend : Dialogue.Run (plain.collaborators.send (.upgrade ⟨2⟩ ⟨3⟩ [])).run
      [⟨.send (.upgrade ⟨2⟩ ⟨3⟩ []), .ok (receiptOf ⟨3⟩)⟩] (.ok (.mined (receiptOf ⟨3⟩))) :=
    .ask _ (.done _)
  exact Action.run_bind (validate_run plain_reachable) hsend

/-- The turns of a deployment in which the proxy gets it, after those in which it has become
available. -/
def upgradeTurns : List Turn :=
  [⟨.read (plain.documentPath plainRequest.name.artifact),
    files (plain.documentPath plainRequest.name.artifact)⟩] ++ (locatedTurns plain ++
  ([⟨.exchange (plain.slotQuery ⟨2⟩), some (Node.replyOf (Address.bytes ⟨1⟩))⟩] ++ (preparing ++
    (⟨.recordAlias (firstCode plainRequest artifact) ⟨3⟩, .ok group⟩ :: activatingTurns))))

variable {files artifact preparing}

/-- A deployment that gives the proxy another implementation. -/
theorem upgradeTurns_run
    (hartifact : plain.artifactIn plainRequest.name.artifact
      (files (plain.documentPath plainRequest.name.artifact)) = .ok artifact)
    (hprepared : Dialogue.Run (plain.collaborators.backend.prepareUpgrade ⟨2⟩ artifact
      plainRequest.options).run preparing (.ok ⟨3⟩)) (session : Session) :
    let record : Record := ⟨plainRequest.name, none, ⟨2⟩, ⟨3⟩, .upgraded, false,
      some (.mined (receiptOf ⟨3⟩))⟩
    Dialogue.Run (plain.deploy plainRequest session) (upgradeTurns files artifact group preparing)
      (.ok (record, session.insert record)) := by
  have hdiffer : Dialogue.Run (plain.collaborators.comparator.same ⟨1⟩ ⟨3⟩).run [] (.ok false) :=
    .done _
  exact deploy_run_upgraded rfl hartifact (locatedTurns_run plain_reachable artifact)
    (upgrade_run_activated group plain_reachable (by decide) hprepared hdiffer
      (activatingTurns_run artifact) rfl)

variable {group} {s s' : Ledger}

theorem locatedTurns_steps (site : Site) (hget : s.table.get? "Stub" = some ⟨2⟩)
    (hlive : s.code ⟨2⟩ = [0]) (hzero : s.code .zero = []) :
    (site.frank files).Steps s (locatedTurns site) s := by
  have hcode : site.Truthful s (site.codeQuery ⟨2⟩) (some (Node.replyOf [0])) :=
    hlive ▸ truthful_code ⟨2⟩
  exact .cons ⟨⟨rfl, hget ▸ says_ok _⟩, ⟨_, rfl⟩, trivial, hzero⟩
    (.cons ⟨⟨rfl, hcode⟩, trivial, trivial, hzero⟩ (.nil s))

/-- The ledger after an implementation is created for a code that was not on record. -/
def extendedLedger (s : Ledger) (artifact : Artifact) : Ledger :=
  (s.create ⟨⟨3⟩, artifact.creationCode [], .implementation⟩ [0] .zero).recordAlias .epoch
    (firstCode plainRequest artifact) ⟨3⟩

theorem extendedLedger_zero (hzero : s.code .zero = []) :
    (extendedLedger s artifact).code .zero = [] := by
  have hne : Address.zero ≠ ⟨3⟩ := by decide
  exact (Function.update_of_ne hne [0] s.code).trans hzero

theorem extendedLedger_ofCode (hnew : s.manifest.ofCode? (firstCode plainRequest artifact) = none) :
    (extendedLedger s artifact).manifest.ofCode? (firstCode plainRequest artifact) =
      some ⟨firstCode plainRequest artifact, ⟨3⟩, []⟩ := by
  rw [← History.Manifest.record_fst_of_new hnew .epoch ⟨3⟩]
  exact History.Manifest.ofCode?_record ..

theorem availableTurns_steps (hslot : s.slot ⟨2⟩ = ⟨1⟩) (hfree : s.code ⟨3⟩ = [])
    (hnew : s.manifest.ofCode? (firstCode plainRequest artifact) = none)
    (hzero : s.code .zero = []) :
    (plain.frank files).Steps s (availableTurns artifact) (extendedLedger s artifact) := by
  have hzero' : (extendedLedger s artifact).code .zero = [] := extendedLedger_zero hzero
  refine .cons ⟨⟨rfl, hslot ▸ truthful_slot _⟩, trivial, trivial, hzero⟩ ?_
  refine .cons ⟨⟨rfl, hnew ▸ says_ok _⟩, ⟨_, rfl⟩, trivial, hzero⟩ ?_
  refine .cons ⟨⟨hfree, [0], .zero, by simp, by rintro _ ⟨⟩, rfl⟩, by rintro ⟨⟩, trivial,
    hzero'⟩ ?_
  refine .cons ⟨.inl ⟨.epoch, rfl, ?_⟩, ⟨_, rfl⟩, trivial, hzero'⟩ (.nil _)
  rw [← History.Manifest.record_fst_of_new hnew .epoch ⟨3⟩]
  exact says_ok _

/-- What the deployment adds to that is the activation. -/
theorem upgradeTurns_steps (hget : s.table.get? "Stub" = some ⟨2⟩) (hlive : s.code ⟨2⟩ = [0])
    (hslot : s.slot ⟨2⟩ = ⟨1⟩) (hzero : s.code .zero = [])
    (hprepared : (plain.frank files).Steps s preparing s')
    (hgroup : s'.manifest.ofCode? (firstCode plainRequest artifact) = some group)
    (hhas : group.has ⟨3⟩ = true) (hzero' : s'.code .zero = []) :
    (plain.frank files).Steps s (upgradeTurns files artifact group preparing)
      (s'.activate ⟨⟨2⟩, ⟨3⟩⟩) := by
  refine .append (.cons ⟨rfl, trivial, rfl, hzero⟩ (.nil s)) (.append
    (locatedTurns_steps plain hget hlive hzero) (.append (.cons ⟨⟨rfl, hslot ▸ truthful_slot _⟩,
      trivial, trivial, hzero⟩ (.nil s)) (hprepared.append ?_)))
  refine .cons ⟨answers_recordAlias hgroup hhas, ⟨_, rfl⟩, trivial, hzero'⟩ ?_
  refine .cons ⟨⟨rfl, truthful_call _⟩, trivial, trivial, hzero'⟩ ?_
  exact .cons ⟨.inl ⟨⟨2⟩, ⟨3⟩, [], rfl, rfl⟩, by rintro ⟨_, ⟨⟩⟩, trivial, hzero'⟩ (.nil _)

end Another

end ProxyUpgrade.Site
