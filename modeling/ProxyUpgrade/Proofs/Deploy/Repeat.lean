import ProxyUpgrade.Proofs.Deploy.Assessment
import ProxyUpgrade.Proofs.Deploy.First
import ProxyUpgrade.Proofs.Registry.Table
/-!
# Deploying again

A deployment that went well can be made again and does nothing then. What the first call leaves
behind is a state in which there is nothing to do (`Site.Idle`): the proxy is on record and has
code, and the implementation that would be chosen for it now is taken to carry the same code as the
one it has. Such a state is left alone (`Site.record_reads`), so what has to be shown is that a
successful call leads there (`Site.record_idle`).

The delicate part is the choice of an implementation. It prefers the current one, and which one is
current may just have changed, as may the group it is chosen from. What an assessment has made
available is also what would be chosen next (`Site.Provides.next`), before and after it is activated
(`Site.idle_of_settled`).
-/

namespace ProxyUpgrade.Site

open Deploy (Request Assessment)

/-! ### Nothing to do -/

/-- **There is nothing to do** for a request whose artifact is at hand: its proxy is on record and
has code, and the implementation it would get now is taken for the one it has. -/
structure Idle (site : Site) (request : Request) (artifact : Artifact) (proxy : Address)
    (s : Ledger) : Prop where
  registered : ∃ id, request.key.id = .ok id ∧ s.table.get? id = some proxy
  live : s.live proxy = true
  nonzero : s.slot proxy ≠ .zero
  same : ∃ group candidate,
    s.manifest.ofCode? (artifact.codeHash request.options.constructorArgs) = some group ∧
      group.has candidate = true ∧
      s.onRecord (artifact.codeHash request.options.constructorArgs) (some (s.slot proxy)) =
        some candidate ∧
      s.same site.aliasing (s.slot proxy) candidate = true

section Idle

variable {site : Site} {rules : Dialogue.Rules Ledger Question Question.Answer}
  {answering : Prop} {s : Ledger} (h : site.Honest rules answering) {request : Request}
  {artifact : Artifact} {proxy : Address}
include h

theorem locate_reads (hregistered : ∃ id, request.key.id = .ok id ∧ s.table.get? id = some proxy)
    (hlive : s.live proxy = true) (state : State) :
    Reads rules answering s (Deploy.locate site.collaborators request artifact state)
      (proxy, state) := by
  obtain ⟨id, hid, hget⟩ := hregistered
  have hlocated : Reads rules answering s
      (Registry.proxyAddress site.collaborators.registry request.key) (some proxy) := by
    rw [Registry.proxyAddress, hid, ← hget]
    exact registered_reads h id
  refine hlocated.bind ?_
  have hexists : Reads rules answering s (site.collaborators.backend.contractExists proxy) true :=
    hlive ▸ hasCode_reads h proxy
  exact hexists.bind (.pure _)

theorem upgrade_reads (hidle : site.Idle request artifact proxy s) (state : State) :
    Reads rules answering s (Deploy.upgrade site.collaborators request artifact proxy state)
      (s.slot proxy, none, state) := by
  obtain ⟨group, candidate, hgroup, hhas, honRecord, hsame⟩ := hidle.same
  refine (currentOf_reads h hidle.nonzero request.key).bind ?_
  have hprepared : Reads rules answering s
      (site.collaborators.backend.prepareUpgrade proxy artifact request.options) candidate := by
    refine prepareUpgrade_obeys h (fun hfails e => ⟨rfl, .inr ⟨hfails, e, rfl⟩⟩) ?_
    refine (existing_reads h _ _).bind ?_
    rw [honRecord]
    exact .pure _
  -- It is on record already, and taken for the one that the proxy has.
  refine hprepared.bind ((recordAlias_reads h hgroup hhas).bind ?_)
  refine Reads.bind (hsame ▸ same_reads h (s.slot proxy) candidate) ?_
  exact .pure _

/-- **Where there is nothing to do, nothing is done.** -/
theorem record_reads (hidle : site.Idle request artifact proxy s)
    (hartifact : ∀ answer,
      rules.answers s (.read (site.documentPath request.name.artifact)) answer s →
        Yields answering artifact (site.artifactIn request.name.artifact answer)) :
    (Deploy.record site.collaborators request).Obeys rules s fun s' result => s' = s ∧
      ((∃ verified, result = .ok ⟨request.name, request.instanceId, proxy, s.slot proxy, .none,
        verified, none⟩) ∨ ¬ answering ∧ ∃ e, result = .error e) := by
  have hfail (hfails : ¬ answering) (e : Error) : s = s ∧
      ((∃ verified, (.error e : Except Error Record) = .ok ⟨request.name, request.instanceId, proxy,
        s.slot proxy, .none, verified, none⟩) ∨
        ¬ answering ∧ ∃ e', (.error e : Except Error Record) = .error e') :=
    ⟨rfl, .inr ⟨hfails, e, rfl⟩⟩
  have hread : Reads rules answering s
      (site.collaborators.backend.artifact request.name.artifact) artifact :=
    artifact_obeys h fun answer hanswer => ⟨rfl, hartifact answer hanswer⟩
  refine hread.obeys_bind hfail ?_
  refine (locate_reads h hidle.registered hidle.live .initial).obeys_bind hfail ?_
  refine (upgrade_reads h hidle .initial).obeys_bind hfail ?_
  refine Action.obeys_bind.mpr (Action.obeys_lift.mpr ((deploy_verify_obeys h ..).mono ?_))
  rintro _ outcome rfl
  exact ⟨rfl, .inl ⟨outcome.isVerified, rfl⟩⟩

end Idle

/-! ### A successful call, step by step -/

section Success

variable {site : Site} {rules : Dialogue.Rules Ledger Question Question.Answer}
  {s : Ledger} (h : site.Honest rules False) (hpermits : ∀ s question, rules.permits s question)
  (hvoid : ∀ {s question answer s'}, rules.answers s question answer s' → s'.code .zero = [])
  {request : Request} {artifact : Artifact} {proxy : Address}
include h hpermits hvoid

/-- A proxy that has been created has code. -/
theorem createProxy_live (data : Bytes) (options : Deploy.Options) :
    (site.collaborators.backend.createProxy artifact data options).Obeys rules s
      (Action.Yielding fun s' proxy =>
        s'.live proxy = true ∧ (s.code .zero = [] → s'.code .zero = [])) := by
  refine createProxy_obeys h
    ((implementationFor_provides h (fun _ => hpermits _ _) False.elim).mono ?_)
  rintro s₁ (e | implementation) -
  · trivial
  intro answer hanswer
  generalize site.artifactIn _ answer = front
  rcases front with e | front
  · trivial
  refine ⟨hpermits _ _, fun answer proxy s₂ hanswer hreported => ?_, fun _ _ _ _ _ => trivial⟩
  exact ⟨(creates_of_reported (h.answers hanswer) hreported).live, fun _ => hvoid hanswer⟩

omit hpermits hvoid in
/-- Whatever was on record before, the proxy is on record once it has been saved. -/
theorem saveProxy_registered :
    (Registry.saveProxy site.collaborators.registry request.key proxy).Obeys rules s
      (Action.Yielding fun s' _ =>
        (∃ id, request.key.id = .ok id ∧ s'.table.get? id = some proxy) ∧ s'.code = s.code) := by
  rcases hid : request.key.id with e | id
  · simp [Registry.saveProxy, hid, Action.obeys_bind]
  simp only [Registry.saveProxy, hid]
  refine (registered_reads h id).obeys_bind (fun _ _ => trivial) ?_
  rcases hget : s.table.get? id with - | existing
  · refine ⟨h.permits rfl, ?_⟩
    rintro (e | ⟨⟩) s' hanswer
    · trivial
    rcases h.answers hanswer with rfl | ⟨⟨e, he⟩, -⟩
    · exact ⟨⟨id, rfl, Registry.Table.get?_insert_self ..⟩, rfl⟩
    · cases he
  · dsimp only
    split
    next heq => exact ⟨⟨id, rfl, heq ▸ hget⟩, rfl⟩
    next => trivial

/-- A proxy that has been located is on record and has code. -/
theorem locate_registered (state : State) :
    (Deploy.locate site.collaborators request artifact state).Obeys rules s
      (Action.Yielding fun s' located =>
        (∃ id, request.key.id = .ok id ∧ s'.table.get? id = some located.1) ∧
          s'.live located.1 = true ∧ (s.code .zero = [] → s'.code .zero = [])) := by
  rcases hid : request.key.id with e | id
  · simp [Deploy.locate, Registry.proxyAddress, hid, Action.obeys_bind]
  have hlocated : Reads rules False s
      (Registry.proxyAddress site.collaborators.registry request.key) (s.table.get? id) := by
    rw [Registry.proxyAddress, hid]
    exact registered_reads h id
  refine hlocated.obeys_bind (fun _ _ => trivial) ?_
  rcases hget : s.table.get? id with - | proxy
  · rcases Deploy.initializerData request.initArgs request.options.initializer with e | data
    · simp [Action.obeys_bind]
    simp only [Action.obeys_bind_yielding, Action.obeys_ofExcept, Action.yielding_ok]
    refine (createProxy_live h hpermits hvoid data request.options).mono ?_
    rintro s₁ (e | proxy) hcreated
    · trivial
    refine (saveProxy_registered h).mono ?_
    rintro s₂ (e | _) hsaved
    · trivial
    rcases state.advance .deployed with e | state
    · trivial
    obtain ⟨hregistered, hcode⟩ := hsaved
    rw [hid] at hregistered
    refine ⟨hregistered, ?_, fun hzero => ?_⟩
    · rw [Ledger.live, hcode]
      exact hcreated.1
    · rw [hcode]
      exact hcreated.2 hzero
  · refine (hasCode_reads h proxy).obeys_bind (fun _ _ => trivial) ?_
    rcases hlive : s.live proxy with - | -
    · trivial
    · exact ⟨⟨id, rfl, hget⟩, hlive, fun h => h⟩

omit hpermits in
/-- **Once a difference is settled there is nothing to do.** -/
theorem idle_of_settled {accepted : Prop} {s₁ s' : Ledger} {found : Assessment} {state : State}
    {result : Address × Option Route.Outcome × State}
    (hregistered : ∃ id, request.key.id = .ok id ∧ s.table.get? id = some proxy)
    (hlive : s.live proxy = true) (hzero : s.code .zero = [])
    (hassessed : Assessed site rules s artifact request.options.constructorArgs proxy s₁ found)
    (hsettled : Settled accepted s₁ proxy state found s' result) :
    site.Idle request artifact proxy s' ∧ result.1 = s'.slot proxy := by
  obtain ⟨⟨group, hgroup, hhas⟩, hnext⟩ := hassessed.provides.next h
  have hslot := hassessed.provides.slot h hlive
  have hregistered₁ : ∃ id, request.key.id = .ok id ∧ s₁.table.get? id = some proxy :=
    hassessed.provides.table h ▸ hregistered
  have hcandidate := hassessed.provides.live h
  have hlive₁ : s₁.live proxy = true := by
    by_cases heq : proxy = found.candidate
    · exact heq ▸ hcandidate
    · exact (hassessed.provides.live_of_ne h heq).trans hlive
  cases hsettled with
  | unchanged hsame =>
    rw [hassessed.current]
    refine ⟨⟨hregistered₁, hlive₁, hslot ▸ hassessed.nonzero, group, found.candidate, hgroup, hhas,
      ?_, ?_⟩, hslot.symm⟩
    · exact hslot ▸ hnext
    · rw [hslot, ← hassessed.same, hsame]
  | activated hsame _ hupgraded outcome hstate =>
    -- What has been activated is chosen again, now as the current implementation.
    obtain ⟨activations, rfl⟩ := hupgraded
    have hupdated : Function.update s₁.slot proxy found.candidate proxy = found.candidate := by simp
    refine ⟨⟨hregistered₁, hlive₁, ?_, group, found.candidate, hgroup, hhas, ?_, ?_⟩,
      hupdated.symm⟩ <;> dsimp only <;> rw [hupdated]
    · exact Ledger.live_zero (hassessed.provides.zero hvoid hzero) hcandidate
    · exact onRecord_current (s := s₁) hgroup hhas hcandidate
    · simp [Ledger.same]

/-- **After an upgrade that went well there is nothing to do.** -/
theorem upgrade_idle {retry : Retry.Policy} (hway : site.way = .direct retry)
    (hregistered : ∃ id, request.key.id = .ok id ∧ s.table.get? id = some proxy)
    (hlive : s.live proxy = true) (hzero : s.code .zero = []) (state : State) :
    (Deploy.upgrade site.collaborators request artifact proxy state).Obeys rules s
      (Action.Yielding fun s' upgraded => site.Reachable ∧
        site.Idle request artifact proxy s' ∧ upgraded.1 = s'.slot proxy) := by
  refine (upgrade_settles h hpermits hway proxy state).mono ?_
  rintro s' (e | result) hupgraded
  · trivial
  obtain ⟨s₁, found, hassessed, hsettled⟩ := hupgraded
  exact ⟨hassessed.reachable, idle_of_settled h hvoid hregistered hlive hzero hassessed hsettled⟩

/-- **After a call that went well there is nothing to do** for the same request. -/
theorem record_idle {retry : Retry.Policy} (hway : site.way = .direct retry)
    (hzero : s.code .zero = []) :
    (Deploy.record site.collaborators request).Obeys rules s
      (Action.Yielding fun s' record => ∃ answer artifact,
        rules.answers s (.read (site.documentPath request.name.artifact)) answer s ∧
          site.artifactIn request.name.artifact answer = .ok artifact ∧ site.Reachable ∧
          site.Idle request artifact record.proxy s' ∧
          record.implementation = s'.slot record.proxy) := by
  refine Action.obeys_bind_yielding.mpr (artifact_obeys h fun answer hanswer => ?_)
  rcases hartifact : site.artifactIn request.name.artifact answer with e | artifact
  · trivial
  refine Action.obeys_bind_yielding.mpr ((locate_registered h hpermits hvoid .initial).mono ?_)
  rintro s₁ (e | ⟨proxy, state⟩) hlocated
  · trivial
  obtain ⟨hregistered, hlive, hzero'⟩ := hlocated
  refine Action.obeys_bind_yielding.mpr
    ((upgrade_idle h hpermits hvoid hway hregistered hlive (hzero' hzero) state).mono ?_)
  rintro s₂ (e | ⟨implementation, activation, state⟩) hupgraded
  · trivial
  refine Action.obeys_bind.mpr (Action.obeys_lift.mpr ((deploy_verify_obeys h ..).mono ?_))
  rintro _ outcome rfl
  exact ⟨answer, artifact, hanswer, hartifact, hupgraded⟩

end Success

/-! ### The same call again -/

/-- **Where there is nothing to do, deploying does nothing**, and goes well. -/
theorem deploy_idle {site : Site}
    {files : Path → Except Files.Fault String} (hreachable : site.Reachable) {request : Request}
    {artifact : Artifact} {proxy : Address} {s : Ledger}
    (hartifact : site.artifactIn request.name.artifact
      (files (site.documentPath request.name.artifact)) = .ok artifact)
    (hidle : site.Idle request artifact proxy s) (session : Session) :
    (site.deploy request session).Obeys (site.calm files) s fun s' result => s' = s ∧
      ∃ verified, result = .ok (⟨request.name, request.instanceId, proxy, s.slot proxy, .none,
        verified, none⟩, session.insert ⟨request.name, request.instanceId, proxy, s.slot proxy,
          .none, verified, none⟩) := by
  have hrecord := record_reads (site.calm_honest files hreachable) hidle
    fun answer hanswer => by
      obtain rfl : answer = files (site.documentPath request.name.artifact) := hanswer.2.1
      exact .inl hartifact
  refine deploy_obeys (hrecord.mono fun s' result hresult => ?_)
  obtain ⟨rfl, ⟨verified, rfl⟩ | ⟨hfails, -⟩⟩ := hresult
  · exact ⟨rfl, verified, rfl⟩
  · exact absurd trivial hfails

/-- **Deploying again does nothing.** If a call on the direct route has gone well, whatever the
chain, the registry and the history held before, then the same call made at once, with everybody
answering, goes well again: it sends nothing, leaves the ledger as it is, and reports the same
addresses. -/
theorem deploy_again {site : Site}
    {files : Path → Except Files.Fault String} {retry : Retry.Policy}
    (hway : site.way = .direct retry) {request : Request} {session session₁ : Session}
    {record : Record} {s s₁ : Ledger} (hzero : s.code .zero = []) {turns : List Turn}
    (hrun : Dialogue.Run (site.deploy request session) turns (.ok (record, session₁)))
    (hsteps : (site.steady files).Steps s turns s₁) (session₂ : Session) :
    (∃ turns₂ result s₂, Dialogue.Run (site.deploy request session₂) turns₂ result ∧
      (site.calm files).Steps s₁ turns₂ s₂) ∧
    ∀ turns₂ result s₂, Dialogue.Run (site.deploy request session₂) turns₂ result →
      (site.calm files).Steps s₁ turns₂ s₂ →
      s₂ = s₁ ∧ (∀ turn ∈ turns₂, turn.1.isTransaction = false) ∧
        ∃ record₂, result = .ok (record₂, session₂.insert record₂) ∧ record₂.status = .none ∧
          record₂.activation = none ∧ record₂.proxy = record.proxy ∧
          record₂.implementation = record.implementation := by
  obtain ⟨answer, artifact, hread, hartifact, hreachable, hidle, himplementation⟩ :
      Action.Yielding (fun s' yielded => ∃ answer artifact,
        (site.steady files).answers s
          (.read (site.documentPath request.name.artifact)) answer s ∧
        site.artifactIn request.name.artifact answer = .ok artifact ∧ site.Reachable ∧
        site.Idle request artifact yielded.1.proxy s' ∧
        yielded.1.implementation = s'.slot yielded.1.proxy) s₁ (.ok (record, session₁)) := by
    refine hrun.post hsteps (deploy_obeys ((record_idle (site.steady_honest files)
      (fun _ _ => trivial) (fun h => h.2.2) hway hzero).mono ?_))
    rintro s' (e | record) hdone <;> exact hdone
  -- The artifact that was read is the one that will be read again.
  obtain rfl : answer = files (site.documentPath request.name.artifact) := hread.2.1
  have hagain := deploy_idle hreachable hartifact hidle session₂
  refine ⟨?_, fun turns₂ result s₂ hrun₂ hsteps₂ => ?_⟩
  · -- Everything that may be asked has an answer, so the call comes to its end.
    obtain ⟨turns₂, result, s₂, hrun₂, hsteps₂, -⟩ :=
      hagain.exists_run fun s question _ => site.calm_answers files s question
    exact ⟨turns₂, result, s₂, hrun₂, hsteps₂⟩
  obtain ⟨hledger, verified, rfl⟩ := hrun₂.post hsteps₂ hagain
  refine ⟨hledger, fun turn hturn => ?_, _, rfl, rfl, rfl, rfl, himplementation.symm⟩
  obtain ⟨before, after, hsplit⟩ := List.append_of_mem hturn
  obtain ⟨s', -, hpermitted⟩ := hrun₂.permitted hsteps₂ hagain before turn after hsplit
  exact hpermitted

/-- A first deployment, made again. -/
theorem deploy_again_plain : ∃ turns record,
    Dialogue.Run (plain.deploy plainRequest .empty) turns
      (.ok (record, Session.empty.insert record)) ∧
    (plain.calm plainFiles).Steps plainLedger turns plainLedger ∧
    (∀ turn ∈ turns, turn.1.isTransaction = false) ∧ record.status = .none ∧
      record.activation = none ∧ record.proxy = ⟨2⟩ ∧ record.implementation = ⟨1⟩ := by
  obtain ⟨first, hrun, hproxy, himplementation⟩ := plain_run .empty
  have hsteps : (plain.steady plainFiles).Steps .blank plainTurns plainLedger :=
    plain_steps.mono fun h => ⟨h.1, h.2.2⟩
  obtain ⟨⟨turns, result, s, hrun₂, hsteps₂⟩, hagain⟩ :=
    deploy_again rfl rfl hrun hsteps .empty
  obtain ⟨rfl, hquiet, record, rfl, hstatus, hactivation, hproxy₂, himplementation₂⟩ :=
    hagain turns result s hrun₂ hsteps₂
  exact ⟨turns, record, hrun₂, hsteps₂, hquiet, hstatus, hactivation, hproxy₂.trans hproxy,
    himplementation₂.trans himplementation⟩

end ProxyUpgrade.Site
