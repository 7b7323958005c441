import ProxyUpgrade.Proofs.Site.Asking
/-!
# What each step does

One lemma for each operation that a deployment on a chain is made of: the questions it asks, and
what is left to show of the ledgers that the answers lead to. They hold under all honest rules, so
what is proved from them holds of a site where anything may fail as well as of one where nobody
does.
-/

namespace ProxyUpgrade

namespace Site

section Steps

variable {site : Site} {rules : Dialogue.Rules Ledger Question Question.Answer}
  {answering : Prop} {s : Ledger}

/-- What is quiet changes nothing. -/
theorem eq_of_isQuiet {question : Question} {answer : question.Answer} {s' : Ledger}
    (hquiet : question.isQuiet = true) (hanswers : site.Answers s question answer s') : s' = s := by
  cases question with
  | exchange | registered | entries | groupOfAddress | groupOfCode | groups => exact hanswers.1
  | create | send | register | recordAlias | propose => cases hquiet
  | _ => exact hanswers

/-- **What asks nothing but quiet questions changes nothing**, and neither do proposals. -/
theorem asks_obeys (h : site.Honest rules answering) {α : Type} {d : Talk α}
    (hasks : d.Asks fun question =>
      question.isQuiet = true ∨ ∃ proposal, question = .propose proposal) :
    d.Obeys rules s fun s' _ => s' = s := by
  refine hasks.obeys (· = s) ?_ rfl
  rintro _ question rfl (hquiet | ⟨proposal, rfl⟩)
  · refine ⟨h.permits (by cases question <;> first | rfl | cases hquiet), ?_⟩
    exact fun answer s' hanswer => eq_of_isQuiet hquiet (h.answers hanswer)
  · exact ⟨h.permits rfl, fun answer s' hanswer => h.answers hanswer⟩

/-- Letting time pass changes nothing. -/
theorem sleep_obeys (h : site.Honest rules answering) (time : Nat) :
    ((asking site.account).clock.sleep time).Obeys rules s fun s' _ => s' = s :=
  ⟨h.permits rfl, fun _ _ hanswer => h.answers hanswer⟩

/-! ### Artifacts -/

/-- The path of the document of an artifact. -/
def documentPath (site : Site) (name : String) : Path :=
  (site.proxies (asking site.account)).build.documentPath name

/-- The artifact of a name in what was read of its file. -/
def artifactIn (site : Site) (name : String) (answer : Except Files.Fault String) :
    Except Error Artifact :=
  Build.textOf (site.documentPath name) answer >>=
    Build.documentOf "artifact" Build.code? (site.documentPath name) >>= Build.artifactOf name

/-- An artifact is what is read of its file. -/
theorem read_obeys {S : Type} {rules : Dialogue.Rules S Question Question.Answer} {s : S}
    {name : String} {post : S → Except Error Artifact → Prop}
    (hpermits : rules.permits s (.read (site.documentPath name)))
    (hpost : ∀ answer s', rules.answers s (.read (site.documentPath name)) answer s' →
      post s' (site.artifactIn name answer)) :
    ((site.proxies (asking site.account)).build.artifact name).Obeys rules s post := by
  simp only [Build.artifact, Build.document, Build.text, Action.obeys_bind_ofExcept,
    Action.obeys_lift]
  exact ⟨hpermits, hpost⟩

/-- Reading changes nothing. -/
theorem artifact_obeys (h : site.Honest rules answering) {name : String}
    {post : Ledger → Except Error Artifact → Prop}
    (hpost : ∀ answer, rules.answers s (.read (site.documentPath name)) answer s →
      post s (site.artifactIn name answer)) :
    ((site.proxies (asking site.account)).build.artifact name).Obeys rules s post := by
  refine read_obeys (h.permits rfl) fun answer s' hanswer => ?_
  obtain rfl : s' = s := h.answers hanswer
  exact hpost answer hanswer

/-- All that is asked for an artifact is its file. -/
theorem artifact_run {name : String} {turns : List Turn} {result : Except Error Artifact}
    (hrun : Dialogue.Run ((site.proxies (asking site.account)).build.artifact name).run turns
      result) : ∃ answer, turns = [⟨.read (site.documentPath name), answer⟩] ∧
        result = site.artifactIn name answer := by
  have hobeys : ((site.proxies (asking site.account)).build.artifact name).Obeys
      (.history fun _ _ => True) [] fun past result => ∃ answer,
        past = [⟨.read (site.documentPath name), answer⟩] ∧ result = site.artifactIn name answer :=
    read_obeys trivial fun answer past hpast => ⟨answer, hpast, rfl⟩
  exact hrun.post (Dialogue.Rules.history_steps _ [] turns) hobeys

/-! ### Creations -/

/-- A creation yields the contract that is reported, and fails if there is none. -/
theorem create_obeys {S : Type} {rules : Dialogue.Rules S Question Question.Answer} {s : S}
    (purpose : Purpose) {artifact : Artifact} {args : Bytes}
    {post : S → Except Error Address → Prop}
    (hpermits : rules.permits s (.create purpose (artifact.creationCode args)))
    (hreported : ∀ answer address s',
      rules.answers s (.create purpose (artifact.creationCode args)) answer s' →
        reported answer = some address → post s' (.ok address))
    (hnothing : ∀ answer s',
      rules.answers s (.create purpose (artifact.creationCode args)) answer s' →
        reported answer = none → ∀ e, post s' (.error e)) :
    ({ site.proxies (asking site.account) with signer := acting site.account purpose }.create
      artifact args).Obeys rules s post := by
  refine Action.obeys_bind.mpr ⟨hpermits, fun answer s' hanswer => ?_⟩
  -- A receipt without a contract is a failure as well.
  rcases answer with e | ⟨transaction, block, - | address, succeeded⟩
  · exact hnothing _ s' hanswer rfl e
  · exact hnothing _ s' hanswer rfl _
  · exact hreported _ address s' hanswer rfl

/-- **An implementation is the one on record**, or it is created and recorded. -/
theorem implementationFor_obeys (h : site.Honest rules answering) {artifact : Artifact}
    {args : Bytes} {current : Option Address} {post : Ledger → Except Error Address → Prop}
    (hfail : ¬ answering → ∀ e, post s (.error e))
    (hfound : ∀ address, s.onRecord (artifact.codeHash args) current = some address →
      post s (.ok address))
    (hpermits : s.onRecord (artifact.codeHash args) current = none →
      rules.permits s (.create .implementation (artifact.creationCode args)))
    (hcreated : s.onRecord (artifact.codeHash args) current = none → ∀ answer address s₁,
      rules.answers s (.create .implementation (artifact.creationCode args)) answer s₁ →
        reported answer = some address → ∀ answer' s₂,
          rules.answers s₁ (.recordAlias (artifact.codeHash args) address) answer' s₂ →
            post s₂ (answer'.map fun _ => address))
    (hnothing : ∀ answer s₁,
      rules.answers s (.create .implementation (artifact.creationCode args)) answer s₁ →
        reported answer = none → ∀ e, post s₁ (.error e)) :
    ((site.proxies (asking site.account)).implementationFor artifact current args).Obeys rules s
      post := by
  refine (existing_reads h _ current).obeys_bind hfail ?_
  rcases honRecord : s.onRecord (artifact.codeHash args) current with - | address
  · refine Action.obeys_bind.mpr (create_obeys .implementation (hpermits honRecord)
      (fun answer address s₁ hanswer hreported => ?_) hnothing)
    refine Action.obeys_bind.mpr ⟨h.permits rfl, fun answer' s₂ hanswer' => ?_⟩
    have hrecorded := hcreated honRecord answer address s₁ hanswer hreported answer' s₂ hanswer'
    rcases answer' with e | group <;> exact hrecorded
  · exact hfound address honRecord

/-- **A proxy is created** from an artifact of its own, once there is an implementation for it. -/
theorem createProxy_obeys (h : site.Honest rules answering) {artifact : Artifact} {data : Bytes}
    {options : Deploy.Options} {post : Ledger → Except Error Address → Prop}
    (hpost : ((site.proxies (asking site.account)).implementationFor artifact none
      options.constructorArgs).Obeys rules s fun s₁ result =>
        match result with
        | .error e => post s₁ (.error e)
        | .ok implementation => ∀ answer,
          rules.answers s₁ (.read (site.documentPath site.proxyName)) answer s₁ →
          match site.artifactIn site.proxyName answer with
          | .error e => post s₁ (.error e)
          | .ok proxy =>
            let creation : Question := .create (.proxy implementation)
              (proxy.creationCode (Node.Proxies.constructorArgs implementation data))
            rules.permits s₁ creation ∧
              (∀ answer address s₂, rules.answers s₁ creation answer s₂ →
                reported answer = some address → post s₂ (.ok address)) ∧
              ∀ answer s₂, rules.answers s₁ creation answer s₂ →
                reported answer = none → ∀ e, post s₂ (.error e)) :
    (site.collaborators.backend.createProxy artifact data options).Obeys rules s post := by
  refine Action.obeys_bind.mpr (hpost.mono ?_)
  rintro s₁ (e | implementation) hpost
  · exact hpost
  -- The artifact of the proxy is read only now, when the implementation is there.
  refine Action.obeys_bind.mpr (artifact_obeys h fun answer hanswer => ?_)
  have hcreation := hpost answer hanswer
  generalize site.artifactIn _ answer = proxy at hcreation ⊢
  rcases proxy with e | proxy
  · exact hcreation
  · obtain ⟨hpermits, hreported, hnothing⟩ := hcreation
    exact create_obeys (.proxy implementation) hpermits hreported hnothing

/-- The implementation of a proxy is looked up before the one that is to follow it. -/
theorem prepareUpgrade_obeys (h : site.Honest rules answering) {artifact : Artifact}
    {proxy : Address} {options : Deploy.Options} {post : Ledger → Except Error Address → Prop}
    (hfail : ¬ answering → ∀ e, post s (.error e))
    (hpost : ((site.proxies (asking site.account)).implementationFor artifact (some (s.slot proxy))
      options.constructorArgs).Obeys rules s post) :
    (site.collaborators.backend.prepareUpgrade proxy artifact options).Obeys rules s post :=
  (implementationOf_reads h proxy).obeys_bind hfail hpost

/-! ### Upgrades -/

/-- The implementation of a proxy has to be one. -/
theorem currentOf_obeys (h : site.Honest rules answering) {key : Key} {proxy : Address}
    {post : Ledger → Except Error Address → Prop} (hfail : ¬ answering → ∀ e, post s (.error e))
    (hzero : s.slot proxy = .zero → ∀ e, post s (.error e))
    (hpost : s.slot proxy ≠ .zero → post s (.ok (s.slot proxy))) :
    (Deploy.currentOf site.collaborators key proxy).Obeys rules s post := by
  refine (implementationOf_reads h proxy).obeys_bind hfail ?_
  split
  next heq => exact hzero heq _
  next hne => exact hpost hne

theorem currentOf_reads (h : site.Honest rules answering) {proxy : Address}
    (hnonzero : s.slot proxy ≠ .zero) (key : Key) :
    Reads rules answering s (Deploy.currentOf site.collaborators key proxy) (s.slot proxy) := by
  refine (implementationOf_reads h proxy).bind ?_
  rw [if_neg hnonzero]
  exact .pure _

/-- What is left to show of the answer to a call that may be sent again: after each failure `kept`
still has to hold. -/
def Sent (kept : Ledger → Prop) (post : Ledger → Except Error Route.Outcome → Prop) (s : Ledger) :
    Except Error Receipt → Prop
  | .ok receipt => post s (.ok (.mined receipt))
  | .error _ => kept s

/-- On the direct route a call is sent until it is mined, or given up. -/
theorem send_obeys (h : site.Honest rules answering) {retry : Retry.Policy}
    (hway : site.way = .direct retry) {call : Call} (kept : Ledger → Prop)
    {post : Ledger → Except Error Route.Outcome → Prop}
    (hfailed : ∀ s e, kept s → post s (.error e))
    (hsent : ∀ s, kept s → rules.permits s (.send call) ∧
      ∀ answer s', rules.answers s (.send call) answer s' → Sent kept post s' answer)
    (hs : kept s) :
    (site.collaborators.send call).Obeys rules s post := by
  have hroute : (site.orchestrator (asking site.account)).route = .direct retry := by
    simp [orchestrator, route, hway]
  simp only [collaborators, Deploy.Orchestrator.collaborators, hroute, Route.send]
  refine Action.obeys_bind.mpr ?_
  refine retry.run_obeys kept ?_ ?_ ?_ hs
  · intro s time hkept
    refine (sleep_obeys h time).mono ?_
    rintro _ - rfl
    exact hkept
  · intro s e hkept
    exact hfailed s e hkept
  · intro s hkept
    refine ⟨(hsent s hkept).1, fun answer s' hanswer => ?_⟩
    have hresult := (hsent s hkept).2 answer s' hanswer
    rcases answer with e | receipt <;> exact hresult

/-- Proposing a call to a wallet changes nothing. -/
theorem propose_obeys (h : site.Honest rules answering) {wallet : Address} {chain : BitVec 64}
    {retry : Retry.Policy} (hway : site.way = .wallet wallet chain retry) (call : Call) :
    (site.collaborators.send call).Obeys rules s fun s' _ => s' = s := by
  have hroute : (site.orchestrator (asking site.account)).route =
      .wallet ⟨(asking site.account).service, wallet, chain, retry⟩ := by
    simp [orchestrator, route, hway]
  simp only [collaborators, Deploy.Orchestrator.collaborators, hroute, Route.send]
  exact asks_obeys h (Action.Asks.bind (propose_asks (fun _ => .inl)
    (fun proposal => .inr ⟨proposal, rfl⟩) wallet chain retry call) fun _ => Action.asks_pure _)

/-- Checking an implementation changes nothing. -/
theorem validate_obeys (h : site.Honest rules answering) (proxy candidate : Address)
    (artifact : Artifact) :
    (site.collaborators.backend.validateUpgrade proxy candidate artifact).Obeys rules s
      fun s' _ => s' = s :=
  asks_obeys h (validate_asks (fun _ => .inl) proxy candidate artifact)

/-- **An activation is checked, if that is wanted, and sent.** -/
theorem activate_obeys (h : site.Honest rules answering) {request : Deploy.Request}
    {artifact : Artifact} {proxy candidate : Address}
    {post : Ledger → Except Error Route.Outcome → Prop} (hfailed : ∀ e, post s (.error e))
    (hsend : (site.collaborators.send
      (.upgrade proxy candidate request.options.upgradeData)).Obeys rules s post) :
    (Deploy.activate site.collaborators request artifact proxy candidate).Obeys rules s post := by
  rw [Deploy.activate]
  split
  · refine Action.obeys_bind.mpr ((validate_obeys h proxy candidate artifact).mono ?_)
    rintro _ (e | _) rfl
    · exact hfailed e
    · exact hsend
  · exact hsend

/-! ### Verification -/

/-- **The verification of a deployment changes nothing.** -/
theorem deploy_verify_obeys (h : site.Honest rules answering) (request : Deploy.Request)
    (artifact : Artifact) (proxy implementation : Address) (activation : Option Route.Outcome) :
    (Deploy.verify site.collaborators request artifact proxy implementation activation).Obeys
      rules s fun s' _ => s' = s :=
  asks_obeys h (deploy_verify_asks (fun _ => .inl) ..)

/-! ### Whole calls -/

/-- What becomes of the session is known when the record is. -/
theorem deploy_obeys {S : Type} {rules : Dialogue.Rules S Question Question.Answer} {s : S}
    {request : Deploy.Request} {session : Session}
    {post : S → Except Error (Record × Session) → Prop}
    (h : (Deploy.record site.collaborators request).Obeys rules s fun s' result =>
      post s' (result.map fun record => (record, session.insert record))) :
    (site.deploy request session).Obeys rules s post := by
  refine (Action.obeys_bind (x := Deploy.record site.collaborators request)).mpr (h.mono ?_)
  rintro s' (e | record) hpost <;> exact hpost

/-- Nothing is asked once there is a record. -/
theorem deploy_run {request : Deploy.Request} {session : Session} {turns : List Turn}
    {result : Except Error (Record × Session)}
    (hrun : Dialogue.Run (site.deploy request session) turns result) :
    ∃ recorded, Dialogue.Run (Deploy.record site.collaborators request).run turns recorded ∧
      result = recorded.map fun record => (record, session.insert record) := by
  obtain ⟨first, recorded, rest, rfl, hfirst, hrest⟩ :=
    Action.exists_run_of_bind (x := Deploy.record site.collaborators request) hrun
  rcases recorded with e | record
  · obtain ⟨rfl, rfl⟩ := hrest
    exact ⟨.error e, by simpa using hfirst, rfl⟩
  · cases hrest
    exact ⟨.ok record, by simpa using hfirst, rfl⟩

end Steps

end Site

end ProxyUpgrade
