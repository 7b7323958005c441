import ProxyUpgrade.Proofs.Deploy.Repeat
import ProxyUpgrade.Proofs.Site.Agreement
import ProxyUpgrade.Proofs.Site.Proposing
/-!
# Both routes lead to the same upgrade

A call that activates an implementation is either sent, or proposed to a wallet whose owners execute
it later. The two have nothing in common but what goes before: the assessment of the proxy. Where
the chain follows a law, it finds the same on both routes (`Site.Assessed.agree`), so what is
proposed is what would have been sent, and the ledgers agree once it is executed
(`Site.routes_agree`).

The ledgers of the wallet's route come with a queue. Nothing waits in it at first; what is proposed
is stored, and executed only afterwards.
-/

namespace ProxyUpgrade.Site

open Deploy (Request Assessment)
open Wallet (Queue)

/-- A site with another way to the chain. -/
def via (site : Site) (way : Way) : Site := { site with way := way }

/-- A call made now, with everybody answering, goes well and finds nothing to do. -/
def Rests (site : Site) (files : Path → Except Files.Fault String) (request : Request)
    (s : Ledger) : Prop :=
  ∀ session,
    (∃ turns result s', Dialogue.Run (site.deploy request session) turns result ∧
      (site.calm files).Steps s turns s') ∧
    ∀ turns result s', Dialogue.Run (site.deploy request session) turns result →
      (site.calm files).Steps s turns s' →
      ∃ record, result = .ok (record, session.insert record) ∧ record.status = .none

/-! ### What both routes find -/

section Found

variable {site site' : Site} {law : Law} {files : Path → Except Files.Fault String}
  {s s₁ s₂ : Ledger} {artifact : Artifact} {args : Bytes} {current : Option Address}
  {candidate candidate' : Address}

/-- What has been created according to the law may be created again. -/
theorem Provides.mayOblige
    (h : Provides (site.lawful law files) s artifact args current candidate s₁)
    (hnone : s.onRecord (artifact.codeHash args) current = none) :
    MayOblige law s (.create .implementation (artifact.creationCode args)) := by
  cases h with
  | found hfound =>
    rw [hnone] at hfound
    cases hfound
  | created _ hanswer hreported now =>
    have hcreates := creates_of_reported ((site.lawful_honest law files).answers hanswer) hreported
    obtain ⟨rfl, rfl⟩ := hanswer.2 candidate hreported
    exact hcreates

/-- **The same implementation is made available.** -/
theorem Provides.agree
    (h : Provides (site.lawful law files) s artifact args current candidate s₁)
    (h' : Provides (site'.obliging law files) s artifact args current candidate' s₂) :
    candidate' = candidate ∧ s₂.chain = s₁.chain ∧ s₁.Agrees s₂ := by
  cases h with
  | found hfound =>
    cases h' with
    | found hfound' => exact ⟨Option.some.inj (hfound'.symm.trans hfound), rfl, .refl s⟩
    | created hnone =>
      rw [hnone] at hfound
      cases hfound
  | created hnone hanswer hreported now =>
    cases h' with
    | found hfound' =>
      rw [hnone] at hfound'
      cases hfound'
    | created _ hanswer' hreported' later =>
      -- Both have been created at the place that the law has for them.
      obtain ⟨rfl, rfl⟩ := hanswer.2 candidate hreported
      obtain ⟨rfl, rfl⟩ := hanswer'.2.1 candidate' hreported'
      exact ⟨rfl, rfl, .recordAlias _ now later _ _⟩

/-- **Assessments find the same.** -/
theorem Assessed.agree {proxy : Address} {found found' : Assessment}
    (haliasing : site'.aliasing = site.aliasing)
    (h : Assessed site (site.lawful law files) s artifact args proxy s₁ found)
    (h' : Assessed site' (site'.obliging law files) s artifact args proxy s₂ found') :
    found' = found ∧ s₂.chain = s₁.chain ∧ s₁.Agrees s₂ := by
  obtain ⟨hcandidate, hchain, hagrees⟩ := h.provides.agree h'.provides
  have hcurrent : found'.current = found.current := h'.current.trans h.current.symm
  have hsame : found'.same = found.same := by
    rw [h'.same, h.same, haliasing, hcandidate, hagrees.same]
  obtain ⟨current, candidate, same⟩ := found
  obtain ⟨current', candidate', same'⟩ := found'
  subst hcurrent hcandidate hsame
  exact ⟨rfl, hchain, hagrees⟩

end Found

/-- **A record reports what has become of a proxy.** -/
structure Reports (record : Record) (proxy : Address)
    (result : Address × Option Route.Outcome × State) : Prop where
  proxy : record.proxy = proxy
  implementation : record.implementation = result.1
  status : record.status = result.2.2.status

/-! ### The direct route -/

/-- **What a call on the direct route has found**, before it sent anything. -/
structure Planned (site : Site) (law : Law) (files : Path → Except Files.Fault String)
    (request : Request) (proxy : Address) (artifact : Artifact) (s s' : Ledger)
    (found : Assessment) : Prop where
  read : site.artifactIn request.name.artifact
    (files (site.documentPath request.name.artifact)) = .ok artifact
  live : s.live proxy = true
  assessed : Assessed site (site.lawful law files) s artifact request.options.constructorArgs proxy
    s' found

section Direct

variable {site : Site} {law : Law} {files : Path → Except Files.Fault String} {s : Ledger}
  {request : Request} {proxy : Address}

/-- The proxy of a key that is on record is located without asking for more than its code. -/
theorem locate_obeys {rules : Dialogue.Rules Ledger Question Question.Answer}
    {answering : Prop} (h : site.Honest rules answering) {artifact : Artifact}
    (hregistered : ∃ id, request.key.id = .ok id ∧ s.table.get? id = some proxy) (state : State) :
    (Deploy.locate site.collaborators request artifact state).Obeys rules s
      (Action.Yielding fun s' located =>
        s' = s ∧ located = (proxy, state) ∧ s.live proxy = true) := by
  obtain ⟨id, hid, hget⟩ := hregistered
  have hlocated : Reads rules answering s
      (Registry.proxyAddress site.collaborators.registry request.key) (some proxy) := by
    rw [Registry.proxyAddress, hid, ← hget]
    exact registered_reads h id
  refine hlocated.obeys_bind (fun _ _ => trivial) ?_
  refine (hasCode_reads h proxy).obeys_bind (fun _ _ => trivial) ?_
  rcases hlive : s.live proxy with - | -
  · trivial
  · exact ⟨rfl, rfl, rfl⟩

theorem record_settled {retry : Retry.Policy} (hway : site.way = .direct retry)
    (hregistered : ∃ id, request.key.id = .ok id ∧ s.table.get? id = some proxy) :
    (Deploy.record site.collaborators request).Obeys (site.lawful law files) s
      (Action.Yielding fun s₁ record => ∃ artifact s' found result,
        Planned site law files request proxy artifact s s' found ∧
        Settled (request.options.validate = true → law.Accepts s' found.candidate) s' proxy .initial
          found s₁ result ∧ Reports record proxy result) := by
  have h := site.lawful_honest law files
  refine Action.obeys_bind_yielding.mpr (artifact_obeys h fun answer hanswer => ?_)
  obtain rfl : answer = files (site.documentPath request.name.artifact) := hanswer.1.2.1
  rcases hartifact : site.artifactIn request.name.artifact
    (files (site.documentPath request.name.artifact)) with e | artifact
  · trivial
  refine Action.obeys_bind_yielding.mpr ((locate_obeys h hregistered .initial).mono ?_)
  rintro _ (e | _) hlocated
  · trivial
  obtain ⟨rfl, rfl, hlive⟩ := hlocated
  refine Action.obeys_bind_yielding.mpr ?_
  rw [Deploy.upgrade_eq_assess, Action.obeys_bind_yielding]
  refine (assess_obeys h False.elim (fun _ => trivial) False.elim).mono ?_
  rintro s' (e | found) hassessed
  · trivial
  refine (settle_obeys h hway (fun _ _ => trivial) validate_accepts .initial).mono ?_
  rintro s₁ (e | result) hsettled
  · trivial
  refine Action.obeys_bind.mpr (Action.obeys_lift.mpr ((deploy_verify_obeys h ..).mono ?_))
  rintro _ outcome rfl
  exact ⟨artifact, s', found, result, ⟨hartifact, hlive, hassessed⟩, hsettled, rfl, rfl, rfl⟩

end Direct

/-! ### The wallet's route -/

section Wallet

variable {site : Site} {law : Law} {files : Path → Except Files.Fault String}
  {chain : BitVec 64} {wallet : Address} {s : Ledger} {q : Queue} {request : Request}
  {artifact : Artifact} {proxy : Address}

/-- **What a difference has come to** on the wallet's route. -/
inductive Submitted (wallet : Address) (data : Bytes) (s : Ledger) (q : Queue) (proxy : Address)
    (state : State) (found : Assessment) :
    Ledger × Queue → Address × Option Route.Outcome × State → Prop
  | unchanged (hsame : found.same = true) :
    Submitted wallet data s q proxy state found (s, q) (found.current, none, state)
  | proposed (hsame : found.same = false) (nonce : BitVec 64) (hash : Hash) {state' : State}
      (hstate : state.advance .upgraded = .ok state') :
    Submitted wallet data s q proxy state found
      (s, q.add (.ofCall (.upgrade proxy found.candidate data) nonce))
      (found.candidate, some (.proposed wallet hash), state')

/-- What is acceptable is proposed. -/
theorem activate_proposes {retry : Retry.Policy} (hway : site.way = .wallet wallet chain retry)
    (hreachable : site.Reachable) (hq : q.queued = []) {candidate : Address}
    (haccepts : request.options.validate = true → law.Accepts s candidate) :
    (Deploy.activate site.collaborators request artifact proxy candidate).Obeys
      (site.proposing law files chain wallet) (s, q) fun t result => ∃ nonce hash,
        result = .ok (.proposed wallet hash) ∧
        t = (s, q.add (.ofCall (.upgrade proxy candidate request.options.upgradeData) nonce)) := by
  have hsend : (site.collaborators.send
      (.upgrade proxy candidate request.options.upgradeData)).Obeys
        (site.proposing law files chain wallet) (s, q) _ := send_proposes hway hq _
  rw [Deploy.activate]
  split
  next hchecked =>
    have hvalidate : Reads (site.obliging law files) True s
        (site.collaborators.backend.validateUpgrade proxy candidate artifact) () :=
      (validate_obliging hreachable (haccepts hchecked)).mono fun _ _ h => ⟨h.1, .inl h.2⟩
    exact hvalidate.proposing (validate_asks isOther_of_isQuiet ..) hsend
  next => exact hsend

theorem settle_submits {retry : Retry.Policy} (hway : site.way = .wallet wallet chain retry)
    (hreachable : site.Reachable) (hq : q.queued = []) {found : Assessment}
    (haccepts : found.same = false → request.options.validate = true →
      law.Accepts s found.candidate) :
    (Deploy.settle site.collaborators request artifact proxy .initial found).Obeys
      (site.proposing law files chain wallet) (s, q) fun t result => ∃ settled,
        result = .ok settled ∧
        Submitted wallet request.options.upgradeData s q proxy .initial found t settled := by
  rw [Deploy.settle]
  cases hsame : found.same with
  | true => exact ⟨_, rfl, .unchanged hsame⟩
  | false =>
    simp only [Bool.false_eq_true, if_false]
    refine Action.obeys_bind.mpr
      ((activate_proposes hway hreachable hq (haccepts hsame)).mono ?_)
    rintro _ _ ⟨nonce, hash, rfl, rfl⟩
    exact ⟨_, rfl, .proposed hsame nonce hash rfl⟩

theorem assess_asks (request : Request) (artifact : Artifact) (proxy : Address) :
    (Deploy.assess site.collaborators request artifact proxy).Asks Question.IsOther := by
  have hquiet := isOther_of_isQuiet
  refine .bind (currentOf_asks hquiet ..) fun current => ?_
  refine .bind (prepareUpgrade_asks hquiet (fun _ _ => nofun) (fun _ _ => nofun) ..)
    fun candidate => ?_
  refine .bind ⟨nofun, fun _ _ _ => trivial⟩ fun group => ?_
  exact .bind (same_asks hquiet ..) fun same => Action.asks_pure _

/-- **The wallet's route finds what the direct route has found**, and proposes what would have been
sent. -/
theorem record_submits {retry : Retry.Policy} {s' : Ledger} {found : Assessment}
    (hplanned : Planned site law files request proxy artifact s s' found)
    (hregistered : ∃ id, request.key.id = .ok id ∧ s.table.get? id = some proxy)
    (haccepts : found.same = false → request.options.validate = true →
      law.Accepts s' found.candidate) (hq : q.queued = []) :
    let other := site.via (.wallet wallet chain retry)
    (Deploy.record other.collaborators request).Obeys
      (other.proposing law files chain wallet) (s, q) fun t result => ∃ s'' settled record,
        result = .ok record ∧ s'.Agrees s'' ∧
        Submitted wallet request.options.upgradeData s'' q proxy .initial found t settled ∧
        Reports record proxy settled := by
  intro other
  have hreachable : other.Reachable := hplanned.assessed.reachable
  have h : other.Honest (other.obliging law files) True := obliging_honest hreachable
  have hread : Reads (other.obliging law files) True s
      (other.collaborators.backend.artifact request.name.artifact) artifact := by
    refine artifact_obeys h fun answer hanswer => ⟨rfl, .inl ?_⟩
    obtain rfl : answer = files (other.documentPath request.name.artifact) := hanswer.1.2.1
    exact hplanned.read
  refine hread.proposing (artifact_asks isOther_of_isQuiet _) ?_
  refine (locate_reads h hregistered hplanned.live .initial).proposing
    (locate_asks isOther_of_isQuiet (fun _ _ => nofun) (fun _ _ => nofun) (fun _ _ => nofun) ..) ?_
  refine Action.obeys_bind.mpr ?_
  rw [Deploy.upgrade_eq_assess, Action.obeys_bind]
  have hassess : (Deploy.assess other.collaborators request artifact proxy).Obeys
      (other.obliging law files) s (Ends True (Assessed other (other.obliging law files) s artifact
        request.options.constructorArgs proxy)) :=
    assess_obeys h (fun _ => hplanned.assessed.nonzero) hplanned.assessed.provides.mayOblige
      fun _ _ _ => obliging_creates
  -- Up to here nothing is proposed, so that the queue does not matter.
  refine (other_obeys (assess_asks ..) hassess).mono ?_
  rintro _ (e | found') ⟨s'', rfl, hassessed⟩
  · exact absurd trivial hassessed
  have haliasing : other.aliasing = site.aliasing := rfl
  obtain ⟨rfl, hchain, hagrees⟩ := hplanned.assessed.agree haliasing hassessed
  -- A contract answers as the chain has it, and the histories only differ in times.
  have haccepts' : found'.same = false → request.options.validate = true →
      law.Accepts s'' found'.candidate := by
    rw [Law.Accepts, hchain]
    exact haccepts
  refine (settle_submits rfl hreachable hq haccepts').mono ?_
  rintro t _ ⟨settled, rfl, hsubmitted⟩
  refine Action.obeys_bind.mpr (Action.obeys_lift.mpr
    ((quiet_proposing (deploy_verify_asks (fun _ => id) ..)).mono ?_))
  rintro _ outcome rfl
  exact ⟨s'', settled, _, rfl, hagrees, hsubmitted, rfl, rfl, rfl⟩

end Wallet

/-! ### Both routes -/

section Routes

variable {site : Site} {law : Law} {files : Path → Except Files.Fault String} {s s' : Ledger}
  {request : Request} {artifact : Artifact} {proxy : Address}

/-- What agrees with a ledger in which there is nothing to do is one, whichever way calls take. -/
theorem Idle.agrees (h : site.Idle request artifact proxy s) (hagrees : s.Agrees s') (way : Way) :
    (site.via way).Idle request artifact proxy s' where
  registered := hagrees.table ▸ h.registered
  live := (hagrees.live proxy).trans h.live
  nonzero := hagrees.slot ▸ h.nonzero
  same := by
    obtain ⟨group, candidate, hgroup, hhas, hnext, hsame⟩ := h.same
    obtain ⟨other, hother, huntimed⟩ := hagrees.exists_group hgroup
    refine ⟨other, candidate, hother, ?_, ?_, ?_⟩
    · rw [History.Group.has_untimed huntimed, hhas]
    · rw [hagrees.slot, hagrees.onRecord, hnext]
    · rw [hagrees.slot, hagrees.same]
      exact hsame

theorem rests_of_idle (hreachable : site.Reachable)
    (hartifact : site.artifactIn request.name.artifact
      (files (site.documentPath request.name.artifact)) = .ok artifact)
    (hidle : site.Idle request artifact proxy s) : site.Rests files request s := by
  intro session
  have hagain := deploy_idle hreachable hartifact hidle session
  refine ⟨?_, fun turns result s' run steps => ?_⟩
  · obtain ⟨turns, result, s', run, steps, -⟩ :=
      hagain.exists_run fun s question _ => site.calm_answers files s question
    exact ⟨turns, result, s', run, steps⟩
  · obtain ⟨-, verified, rfl⟩ := run.post steps hagain
    exact ⟨_, rfl, rfl⟩

/-- Once the owners have executed what was proposed, the ledger is the one of the direct route. -/
theorem Submitted.executed {accepted : Prop} {wallet : Address} {data : Bytes} {q : Queue}
    {state : State} {found : Assessment} {s₁ s'' : Ledger} {t : Ledger × Queue}
    {result result' : Address × Option Route.Outcome × State} (hq : q.queued = [])
    (hsettled : Settled accepted s' proxy state found s₁ result) (hagrees : s'.Agrees s'')
    (hsubmitted : Submitted wallet data s'' q proxy state found t result') :
    result'.1 = result.1 ∧ result'.2.2 = result.2.2 ∧ (∃ s₂, Executed t.1 t.2 s₂) ∧
      ∀ s₂, Executed t.1 t.2 s₂ → s₁.Agrees s₂ := by
  cases hsubmitted with
  | unchanged hsame =>
    cases hsettled with
    | activated hdiffer =>
      rw [hsame] at hdiffer
      cases hdiffer
    | unchanged =>
      refine ⟨rfl, rfl, ⟨s'', .nothing s'' hq⟩, fun s₂ hexecuted => ?_⟩
      obtain rfl := (executed_nothing hq).mp hexecuted
      exact hagrees
  | proposed hsame nonce hash hstate =>
    cases hsettled with
    | unchanged hequal =>
      rw [hsame] at hequal
      cases hequal
    | activated _ _ hupgraded outcome hstate' =>
      have hwaiting : (q.add (.ofCall (.upgrade proxy found.candidate data) nonce)).queued =
          [.ofCall (.upgrade proxy found.candidate data) nonce] := congrArg (List.cons _) hq
      refine ⟨rfl, Except.ok.inj (hstate.symm.trans hstate'),
        ⟨_, (executed_single hwaiting).mpr (executes_upgrade.mpr rfl)⟩, fun s₂ hexecuted => ?_⟩
      obtain rfl := executes_upgrade.mp ((executed_single hwaiting).mp hexecuted)
      exact hagrees.upgraded hupgraded (Ledger.upgraded_activate ..)

variable (site law files)

/-- **Both routes lead to the same upgrade.** If a call on the direct route has gone well for a key
that is on record, then the same call through a wallet in whose queue nothing waits, with everybody
doing what is asked, comes to its end and goes well. What it has proposed, if anything, can be
executed; and once it is, the ledgers agree: on the chain and the contracts created there, on the
registry, and on the groups of the history with their addresses. The records agree as well, and from
then on there is nothing to do for the request, whichever way its calls would take. -/
theorem routes_agree {retry policy : Retry.Policy} {wallet : Address} {chain : BitVec 64}
    (hregistered : ∃ id proxy, request.key.id = .ok id ∧ s.table.get? id = some proxy)
    (hzero : s.code .zero = []) {session session₁ : Session} {record : Record} {s₁ : Ledger}
    {turns : List Turn}
    (hrun : Dialogue.Run ((site.via (.direct retry)).deploy request session) turns
      (.ok (record, session₁)))
    (hsteps : ((site.via (.direct retry)).lawful law files).Steps s turns s₁)
    {q : Queue} (hq : q.queued = []) (session' : Session) :
    let multisig := site.via (.wallet wallet chain policy)
    (∃ turns' result t, Dialogue.Run (multisig.deploy request session') turns' result ∧
      (multisig.proposing law files chain wallet).Steps (s, q) turns' t) ∧
    ∀ turns' result t, Dialogue.Run (multisig.deploy request session') turns' result →
      (multisig.proposing law files chain wallet).Steps (s, q) turns' t →
      ∃ record', result = .ok (record', session'.insert record') ∧
        record'.proxy = record.proxy ∧ record'.implementation = record.implementation ∧
        record'.status = record.status ∧ (∃ s₂, Executed t.1 t.2 s₂) ∧
        ∀ s₂, Executed t.1 t.2 s₂ → s₁.Agrees s₂ ∧ ∀ way,
          (site.via way).Rests files request s₁ ∧ (site.via way).Rests files request s₂ := by
  intro multisig
  let direct := site.via (.direct retry)
  obtain ⟨id, proxy, hid, hget⟩ := hregistered
  obtain ⟨_ | recorded, hrecorded, hresult⟩ := deploy_run hrun
  · cases hresult
  cases hresult
  obtain ⟨artifact, s', found, result, hplanned, hsettled, hreports⟩ :
      Action.Yielding _ s₁ (.ok record) :=
    hrecorded.post hsteps (record_settled rfl ⟨id, hid, hget⟩)
  have hreachable := hplanned.assessed.reachable
  obtain ⟨hidle, -⟩ := idle_of_settled (direct.lawful_honest law files) (fun h => h.1.2.2)
    ⟨id, hid, hget⟩ hplanned.live hzero hplanned.assessed hsettled
  have hwallet : (multisig.deploy request session').Obeys
      (multisig.proposing law files chain wallet) (s, q) fun t result => ∃ s'' settled record',
        result = .ok (record', session'.insert record') ∧ s'.Agrees s'' ∧
        Submitted wallet request.options.upgradeData s'' q proxy .initial found t settled ∧
        Reports record' proxy settled := by
    refine deploy_obeys ((record_submits hplanned ⟨id, hid, hget⟩ hsettled.accepted hq).mono ?_)
    rintro t _ ⟨s'', settled, record', rfl, hsubmitted⟩
    exact ⟨s'', settled, record', rfl, hsubmitted⟩
  refine ⟨?_, fun turns' result' t run steps => ?_⟩
  · obtain ⟨turns', result', t, run, steps, -⟩ :=
      hwallet.exists_run (multisig.proposing_answers law files chain wallet)
    exact ⟨turns', result', t, run, steps⟩
  obtain ⟨s'', settled, record', rfl, hagrees, hsubmitted, hreports'⟩ := run.post steps hwallet
  obtain ⟨hsame, hstate, hexists, hexecuted⟩ := hsubmitted.executed hq hsettled hagrees
  refine ⟨record', rfl, hreports'.proxy.trans hreports.proxy.symm, ?_, ?_, hexists,
    fun s₂ hdone => ?_⟩
  · rw [hreports'.implementation, hreports.implementation, hsame]
  · rw [hreports'.status, hreports.status, hstate]
  -- There was nothing to do after the direct route, so there is nothing to do in what agrees.
  have hagrees₂ := hexecuted s₂ hdone
  exact ⟨hagrees₂, fun way =>
    ⟨rests_of_idle hreachable hplanned.read (hidle.agrees (.refl s₁) way),
      rests_of_idle hreachable hplanned.read (hidle.agrees hagrees₂ way)⟩⟩

end Routes

/-! A proxy whose implementation the history does not know is given another one. -/

/-- A law by which there is a place for one contract, and every contract says that it can be
upgraded itself. -/
def plainLaw : Law where
  birth _ _ := ⟨⟨3⟩, [0], .zero⟩
  view _ _ _ := some Node.implementationSlot.bytes

/-- A proxy is on record, in front of an implementation that is not. -/
def foreignLedger : Ledger where
  code address := if address = ⟨1⟩ ∨ address = ⟨2⟩ then [0] else []
  slot _ := ⟨1⟩
  created := []
  activations := []
  table := .insert "Stub" ⟨2⟩ .empty
  manifest := []

/-- The ledger once another implementation is available. -/
def availableLedger : Ledger :=
  (foreignLedger.create ⟨⟨3⟩, [1], .implementation⟩ [0] .zero).recordAlias .epoch plainCode
    ⟨3⟩

/-- The turns of the call that activates it. -/
def upgradingTurns : List Turn :=
  upgradeTurns plainFiles ⟨"Stub", [1]⟩ ⟨plainCode, ⟨3⟩, []⟩ (availableTurns ⟨"Stub", [1]⟩)

theorem upgradingTurns_run :
    let record : Record := ⟨plainRequest.name, none, ⟨2⟩, ⟨3⟩, .upgraded, false,
      some (.mined (receiptOf ⟨3⟩))⟩
    Dialogue.Run (plain.deploy plainRequest .empty) upgradingTurns
      (.ok (record, Session.empty.insert record)) :=
  upgradeTurns_run _ (plain_artifactIn _ _) (availableTurns_run _) .empty

theorem availableTurns_lawful : (plain.lawful plainLaw plainFiles).Steps foreignLedger
    (availableTurns ⟨"Stub", [1]⟩) availableLedger := by
  have hzero : foreignLedger.code .zero = [] := rfl
  have hzero' : availableLedger.code .zero = [] := rfl
  refine .cons (lawful_slot hzero ⟨2⟩) (.cons ⟨⟨⟨rfl, says_ok _⟩, trivial, hzero⟩, trivial⟩
    (.cons ⟨⟨⟨rfl, [0], .zero, by simp, ?_, rfl⟩, trivial, hzero'⟩, ?_⟩
      (.cons ⟨⟨.inl ⟨.epoch, rfl, says_ok _⟩, trivial, hzero'⟩, trivial⟩ (.nil _))))
  · rintro _ ⟨⟩
  · rintro _ ⟨⟩
    exact ⟨rfl, rfl⟩

theorem activatingTurns_lawful : (plain.lawful plainLaw plainFiles).Steps availableLedger
    (⟨.recordAlias plainCode ⟨3⟩, .ok ⟨plainCode, ⟨3⟩, []⟩⟩ :: activatingTurns)
    (availableLedger.activate ⟨⟨2⟩, ⟨3⟩⟩) := by
  have hzero : availableLedger.code .zero = [] := rfl
  have hzero' : (availableLedger.activate ⟨⟨2⟩, ⟨3⟩⟩).code .zero = [] := rfl
  have hgroup : availableLedger.manifest.ofCode? plainCode = some ⟨plainCode, ⟨3⟩, []⟩ := by
    simp [availableLedger, foreignLedger, Ledger.create, Ledger.recordAlias,
      History.Manifest.record, History.Manifest.ofCode?]
  have hhas : History.Group.has ⟨plainCode, ⟨3⟩, []⟩ ⟨3⟩ = true := History.Group.has_canonical _
  exact .cons ⟨⟨answers_recordAlias hgroup hhas, trivial, hzero⟩, trivial⟩
    (.cons (lawful_call hzero rfl)
      (.cons ⟨⟨.inl ⟨⟨2⟩, ⟨3⟩, [], rfl, rfl⟩, trivial, hzero'⟩, trivial⟩ (.nil _)))

theorem upgradingTurns_steps : (plain.lawful plainLaw plainFiles).Steps foreignLedger upgradingTurns
    (availableLedger.activate ⟨⟨2⟩, ⟨3⟩⟩) := by
  have hzero : foreignLedger.code .zero = [] := rfl
  refine .append (.cons ⟨⟨rfl, rfl, hzero⟩, trivial⟩ (.nil _)) (.append (.append
    (.cons ⟨⟨⟨rfl, says_ok _⟩, trivial, hzero⟩, trivial⟩ (.nil _))
    (.cons (lawful_code hzero ⟨2⟩) (.nil _))) (.append (.cons (lawful_slot hzero ⟨2⟩) (.nil _))
      (.append availableTurns_lawful activatingTurns_lawful)))

/-- The upgrade is proposed, and executed in the end. -/
theorem routes_agree_replaced :
    let multisig := plain.via (.wallet ⟨8⟩ 1 .once)
    let upgraded := availableLedger.activate ⟨⟨2⟩, ⟨3⟩⟩
    ∃ record session, Dialogue.Run (plain.deploy plainRequest .empty) upgradingTurns
        (.ok (record, session)) ∧
      (plain.lawful plainLaw plainFiles).Steps foreignLedger upgradingTurns upgraded ∧
    ∃ turns record' t s₂, Dialogue.Run (multisig.deploy plainRequest .empty) turns
        (.ok (record', Session.empty.insert record')) ∧
      (multisig.proposing plainLaw plainFiles 1 ⟨8⟩).Steps (foreignLedger, ⟨[], []⟩) turns t ∧
      record'.proxy = record.proxy ∧ record'.implementation = ⟨3⟩ ∧ record'.status = .upgraded ∧
      Executed t.1 t.2 s₂ ∧ upgraded.Agrees s₂ ∧ s₂.slot ⟨2⟩ = ⟨3⟩ ∧
      multisig.Rests plainFiles plainRequest s₂ := by
  have hregistered : ∃ id proxy, plainRequest.key.id = .ok id ∧
      foreignLedger.table.get? id = some proxy := ⟨"Stub", ⟨2⟩, rfl, rfl⟩
  have hempty : (⟨[], []⟩ : Queue).queued = [] := rfl
  intro multisig upgraded
  refine ⟨_, _, upgradingTurns_run, upgradingTurns_steps, ?_⟩
  obtain ⟨⟨turns, result, t, run, steps⟩, hagree⟩ :=
    routes_agree plain plainLaw plainFiles hregistered rfl upgradingTurns_run upgradingTurns_steps
      hempty .empty
  obtain ⟨record, rfl, hproxy, himplementation, hstatus, ⟨s₂, hexecuted⟩, hends⟩ :=
    hagree turns result t run steps
  obtain ⟨hledgers, hrests⟩ := hends s₂ hexecuted
  refine ⟨turns, record, t, s₂, run, steps, hproxy, himplementation, hstatus, hexecuted, hledgers,
    ?_, (hrests _).2⟩
  rw [hledgers.slot]
  rfl

end ProxyUpgrade.Site
