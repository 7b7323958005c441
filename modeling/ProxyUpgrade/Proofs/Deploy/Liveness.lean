import ProxyUpgrade.Proofs.Deploy.Assessment
import ProxyUpgrade.Proofs.Deploy.Sharing
/-!
# Proxies in front of live code

An implementation that is made available has code. So a new proxy is in front of code, and so is one
that is upgraded. A proxy that is left alone keeps what it has, and that need not have code any
more: the choice of an implementation passes over addresses without code, but the comparison that
follows only looks at the groups on record. An implementation that has lost its code is then taken
for the one that was made available to replace it, and stays (`Site.Stranded`). That is the only
way in which a deployment on the direct route ends in front of nothing (`Site.live_iff`).
-/

namespace ProxyUpgrade.Site

open Deploy (Request Assessment)

/-! ### Proxies that are left in front of nothing -/

/-- **An implementation without code is taken for one that has code**: the two share a group. -/
structure Mistaken (site : Site) (code : Hash) (current : Address) (s s' : Ledger) : Prop where
  aliasing : site.aliasing = true
  dead : s.live current = false
  shared : ∃ candidate, s'.onRecord code (some current) = some candidate ∧ candidate ≠ current ∧
    ∃ group ∈ s'.manifest, group.has current = true ∧ group.has candidate = true

/-- **A proxy on record is stranded**: its implementation has lost its code, and is taken for the
one that is available in the end. -/
structure Stranded (site : Site) (key : Key) (code : Hash) (proxy : Address) (s s' : Ledger) :
    Prop where
  registered : ∃ id, key.id = .ok id ∧ s.table.get? id = some proxy
  mistaken : Mistaken site code (s.slot proxy) s s'

theorem Ledger.same_iff {s : Ledger} {aliasing : Bool} {a b : Address} :
    s.same aliasing a b = true ↔ a = b ∨ aliasing = true ∧
      ∃ group ∈ s.manifest, group.has a = true ∧ group.has b = true := by
  simp [Ledger.same]

/-- What is on record before an activation is on record after it. -/
theorem mistaken_upgraded {site : Site} {code : Hash} {proxy current implementation : Address}
    {s s₁ s' : Ledger} (hupgraded : s₁.Upgraded proxy implementation s') :
    Mistaken site code current s s' ↔ Mistaken site code current s s₁ := by
  obtain ⟨activations, rfl⟩ := hupgraded
  exact ⟨fun h => ⟨h.1, h.2, h.3⟩, fun h => ⟨h.1, h.2, h.3⟩⟩

section Upgrades

variable {site : Site} {rules : Dialogue.Rules Ledger Question Question.Answer}
  {answering : Prop} {s s₁ s' : Ledger} (h : site.Honest rules answering) {artifact : Artifact}
  {args : Bytes} {proxy : Address} {found : Assessment}
include h

/-- A proxy that keeps its implementation is in front of code unless that is mistaken. -/
theorem live_unchanged (hassessed : Assessed site rules s artifact args proxy s₁ found)
    (hsame : found.same = true) : s₁.live (s.slot proxy) = true ↔
      ¬ Mistaken site (artifact.codeHash args) (s.slot proxy) s s₁ := by
  have hnext := (hassessed.provides.next h).2
  have hcandidate := hassessed.provides.live h
  rw [hassessed.same, Ledger.same_iff] at hsame
  constructor
  · rintro hlive ⟨-, hdead, candidate, hcandidate', hne, -⟩
    obtain rfl : found.candidate = candidate := Option.some.inj (hnext.symm.trans hcandidate')
    rw [hassessed.provides.live_of_ne h hne.symm, hdead] at hlive
    cases hlive
  · intro hnot
    by_contra hdead
    -- Then the two are not the same address, so that they share a group.
    have hne : found.candidate ≠ s.slot proxy := by
      rintro heq
      exact hdead (heq ▸ hcandidate)
    obtain heq | ⟨haliasing, hshared⟩ := hsame
    · exact hne heq.symm
    rw [hassessed.provides.live_of_ne h hne.symm, Bool.not_eq_true] at hdead
    exact hnot ⟨haliasing, hdead, found.candidate, hnext, hne, hshared⟩

/-- A difference that is settled by an activation leaves the proxy in front of code. -/
theorem live_activated (hassessed : Assessed site rules s artifact args proxy s₁ found)
    (hsame : found.same = false) (hupgraded : s₁.Upgraded proxy found.candidate s') :
    s'.live found.candidate = true ∧
      ¬ Mistaken site (artifact.codeHash args) (s.slot proxy) s s' := by
  refine ⟨?_, fun hmistaken => ?_⟩
  · obtain ⟨activations, rfl⟩ := hupgraded
    exact hassessed.provides.live h
  · obtain ⟨haliasing, -, candidate, hcandidate, -, hshared⟩ :=
      (mistaken_upgraded hupgraded).mp hmistaken
    obtain rfl : found.candidate = candidate :=
      Option.some.inj ((hassessed.provides.next h).2.symm.trans hcandidate)
    have hequal : s₁.same site.aliasing (s.slot proxy) found.candidate = true :=
      Ledger.same_iff.mpr (.inr ⟨haliasing, hshared⟩)
    rw [← hassessed.same, hsame] at hequal
    cases hequal

/-- **What an upgrade leaves a proxy in front of.** -/
theorem live_settled {accepted : Prop} {state : State}
    {result : Address × Option Route.Outcome × State} (hlive : s.live proxy = true)
    (hassessed : Assessed site rules s artifact args proxy s₁ found)
    (hsettled : Settled accepted s₁ proxy state found s' result) :
    result.1 = s'.slot proxy ∧ (s'.live result.1 = true ↔
      ¬ Mistaken site (artifact.codeHash args) (s.slot proxy) s s') := by
  cases hsettled with
  | unchanged hsame =>
    rw [hassessed.current]
    exact ⟨(hassessed.provides.slot h hlive).symm, live_unchanged h hassessed hsame⟩
  | activated hsame _ hupgraded outcome hstate =>
    obtain ⟨hcandidate, hnot⟩ := live_activated h hassessed hsame hupgraded
    refine ⟨?_, iff_of_true hcandidate hnot⟩
    obtain ⟨activations, rfl⟩ := hupgraded
    simp

end Upgrades

/-! ### Whole calls -/

/-- **Where a located proxy comes from**: it was on record, or it has been created in front of
code. -/
inductive Origin (s : Ledger) (key : Key) (proxy : Address) : Ledger → Prop
  | registered {id : String} (hid : key.id = .ok id) (hget : s.table.get? id = some proxy) :
    Origin s key proxy s
  | created {id : String} (hid : key.id = .ok id) (hget : s.table.get? id = none) {s' : Ledger}
      (hlive : s'.live (s'.slot proxy) = true) : Origin s key proxy s'

section Calls

variable {site : Site} {s : Ledger} {request : Request} {artifact : Artifact}

theorem createProxy_origin (data : Bytes) (options : Deploy.Options) :
    (site.collaborators.backend.createProxy artifact data options).Obeys site.lenient s
      (Action.Yielding fun s' proxy =>
        s'.live proxy = true ∧ s'.live (s'.slot proxy) = true) := by
  have h := site.lenient_honest
  refine createProxy_obeys h
    ((implementationFor_provides h (fun _ => trivial) False.elim).mono ?_)
  rintro s₁ (e | implementation) hprovides
  · trivial
  intro answer hanswer
  generalize site.artifactIn _ answer = front
  rcases front with e | front
  · trivial
  refine ⟨trivial, fun answer proxy s₂ hanswer hreported => ?_, fun _ _ _ _ _ => trivial⟩
  have hcreated := creates_of_reported (h.answers hanswer) hreported
  have himplementation := hprovides.live h
  refine ⟨hcreated.live, ?_⟩
  rw [hcreated.slot_proxy rfl, hcreated.live_of_ne (hcreated.ne_of_live himplementation)]
  exact himplementation

/-- Putting a proxy on record changes nothing on the chain. -/
theorem saveProxy_chain (key : Key) (proxy : Address) :
    (Registry.saveProxy site.collaborators.registry key proxy).Obeys site.lenient s
      fun (s' : Ledger) _ => s'.code = s.code ∧ s'.slot = s.slot := by
  have hasks : (Registry.saveProxy site.collaborators.registry key proxy).Asks fun question =>
      question.isQuiet = true ∨ ∃ id address, question = .register id address :=
    saveProxy_asks (fun _ => .inl) (fun id address => .inr ⟨id, address, rfl⟩) key proxy
  refine hasks.obeys (fun s' : Ledger => s'.code = s.code ∧ s'.slot = s.slot) ?_ ⟨rfl, rfl⟩
  rintro s₁ question hkept (hquiet | ⟨id, address, rfl⟩) <;>
    refine ⟨trivial, fun answer s₂ hanswer => ?_⟩
  · obtain rfl := eq_of_isQuiet hquiet hanswer
    exact hkept
  · rcases hanswer with rfl | ⟨-, rfl⟩ <;> exact hkept

theorem locate_origin (state : State) :
    (Deploy.locate site.collaborators request artifact state).Obeys site.lenient s
      (Action.Yielding fun s' located =>
        s'.live located.1 = true ∧ Origin s request.key located.1 s') := by
  have h := site.lenient_honest
  rcases hid : request.key.id with e | id
  · simp [Deploy.locate, Registry.proxyAddress, hid, Action.obeys_bind]
  have hlocated : Reads site.lenient False s
      (Registry.proxyAddress site.collaborators.registry request.key) (s.table.get? id) := by
    rw [Registry.proxyAddress, hid]
    exact registered_reads h id
  refine hlocated.obeys_bind (fun _ _ => trivial) ?_
  rcases hget : s.table.get? id with - | proxy
  · rcases Deploy.initializerData request.initArgs request.options.initializer with e | data
    · simp [Action.obeys_bind]
    simp only [Action.obeys_bind_yielding, Action.obeys_ofExcept, Action.yielding_ok]
    refine (createProxy_origin data request.options).mono ?_
    rintro s₁ (e | proxy) hcreated
    · trivial
    refine (saveProxy_chain request.key proxy).mono ?_
    rintro s₂ (e | _) ⟨hcode, hslot⟩
    · trivial
    rcases state.advance .deployed with e | state
    · trivial
    have hlive (address : Address) : s₂.live address = s₁.live address := by
      rw [Ledger.live, hcode, Ledger.live]
    refine ⟨(hlive proxy).trans hcreated.1, .created hid hget ?_⟩
    rw [hlive, hslot]
    exact hcreated.2
  · refine (hasCode_reads h proxy).obeys_bind (fun _ _ => trivial) ?_
    rcases hlive : s.live proxy with - | -
    · trivial
    · exact ⟨hlive, .registered hid hget⟩

/-- What a call leaves a proxy in front of, once the artifact has been read. -/
theorem live_of_origin {s₁ s₂ s' : Ledger} {proxy : Address} {args : Bytes} {found : Assessment}
    {accepted : Prop} {state : State} {result : Address × Option Route.Outcome × State}
    (horigin : Origin s request.key proxy s₁) (hlive : s₁.live proxy = true)
    (hassessed : Assessed site site.lenient s₁ artifact args proxy s₂ found)
    (hsettled : Settled accepted s₂ proxy state found s' result) :
    result.1 = s'.slot proxy ∧ (s'.live result.1 = true ↔
      ¬ Stranded site request.key (artifact.codeHash args) proxy s s') := by
  obtain ⟨hslot, hiff⟩ := live_settled site.lenient_honest hlive hassessed hsettled
  refine ⟨hslot, hiff.trans (not_congr ?_)⟩
  cases horigin with
  | registered hid hget => exact ⟨fun h => ⟨⟨_, hid, hget⟩, h⟩, fun h => h.mistaken⟩
  | created hid hget hfront =>
    -- A new proxy is neither mistaken, nor was it on record.
    refine iff_of_false (fun hmistaken => ?_) (fun hstranded => ?_)
    · rw [hmistaken.dead] at hfront
      cases hfront
    · obtain ⟨id, hid', hget'⟩ := hstranded.registered
      obtain rfl := Except.ok.inj (hid.symm.trans hid')
      rw [hget] at hget'
      cases hget'

/-- **A call that goes well on the direct route ends in front of code, unless its proxy is
stranded.** The first thing it does is to read its artifact; with the code of that, the record tells
what the proxy is in front of, and there is code exactly if the proxy is not a stranded one. -/
theorem live_iff {retry : Retry.Policy} (hway : site.way = .direct retry)
    {session session' : Session} {record : Record} {s' : Ledger} {turns : List Turn}
    (hrun : Dialogue.Run (site.deploy request session) turns (.ok (record, session')))
    (hsteps : site.lenient.Steps s turns s') :
    record.implementation = s'.slot record.proxy ∧ ∃ answer rest artifact,
      turns = ⟨.read (site.documentPath request.name.artifact), answer⟩ :: rest ∧
      site.artifactIn request.name.artifact answer = .ok artifact ∧
      (s'.live record.implementation = true ↔
        ¬ Stranded site request.key (artifact.codeHash request.options.constructorArgs)
          record.proxy s s') := by
  obtain ⟨_ | recorded, hrecorded, hresult⟩ := deploy_run hrun
  · cases hresult
  cases hresult
  obtain ⟨first, _ | artifact, rest, rfl, hfirst, hrest⟩ :=
    Action.exists_run_of_bind (x := site.collaborators.backend.artifact request.name.artifact)
      hrecorded
  · cases hrest.2
  obtain ⟨answer, rfl, hartifact⟩ := artifact_run hfirst
  obtain - | ⟨⟨⟩, hsteps⟩ := hsteps
  have hrecord : Action.Yielding (fun s' (record : Record) =>
      record.implementation = s'.slot record.proxy ∧ (s'.live record.implementation = true ↔
        ¬ Stranded site request.key (artifact.codeHash request.options.constructorArgs)
          record.proxy s s')) s' (.ok record) := by
    refine hrest.post hsteps (Action.obeys_bind_yielding.mpr ((locate_origin .initial).mono ?_))
    rintro s₁ (e | ⟨proxy, state⟩) hlocated
    · trivial
    refine Action.obeys_bind_yielding.mpr ((upgrade_settles site.lenient_honest
      (fun _ _ => trivial) hway proxy state).mono ?_)
    rintro s₂ (e | ⟨implementation, activation, state⟩) hupgraded
    · trivial
    obtain ⟨_, found, hassessed, hsettled⟩ := hupgraded
    refine Action.obeys_bind.mpr (Action.obeys_lift.mpr
      ((deploy_verify_obeys site.lenient_honest ..).mono ?_))
    rintro _ outcome rfl
    exact live_of_origin hlocated.2 hlocated.1 hassessed hsettled
  exact ⟨hrecord.1, answer, rest, artifact, rfl, hartifact.symm, hrecord.2⟩

end Calls

/-! A proxy whose implementation has lost its code. Another one is created. It is activated without
aliasing, and otherwise it is not. -/

/-- The ledger after a first deployment, without the code of the implementation. -/
def fadedLedger : Ledger := { plainLedger with code := Function.update plainLedger.code ⟨1⟩ [] }

/-- The group of both implementations. -/
def replacedGroup : History.Group := ⟨plainCode, ⟨1⟩, [⟨⟨3⟩, .epoch⟩]⟩

/-- The turns in which the proxy turns out to have an implementation of the same group. -/
def strandingTurns : List Turn :=
  [⟨.exchange (sharing.slotQuery ⟨2⟩), some (Node.replyOf (Address.bytes ⟨1⟩))⟩] ++
    (replacementTurns sharing ++ [⟨.recordAlias plainCode ⟨3⟩, .ok replacedGroup⟩,
      ⟨.groups, .ok [replacedGroup]⟩])

/-- The turns of a deployment that leaves the proxy stranded. -/
def strandedTurns : List Turn :=
  [⟨.read (sharing.documentPath plainRequest.name.artifact),
    plainFiles (sharing.documentPath plainRequest.name.artifact)⟩] ++
    (locatedTurns sharing ++ strandingTurns)

/-- The ledger after that. -/
def strandedLedger : Ledger :=
  (fadedLedger.create ⟨⟨3⟩, [1], .implementation⟩ [0] .zero).recordAlias .epoch plainCode ⟨3⟩

theorem strandingTurns_run (state : State) :
    Dialogue.Run (Deploy.upgrade sharing.collaborators plainRequest ⟨"Stub", [1]⟩ ⟨2⟩ state).run
      strandingTurns (.ok (⟨1⟩, none, state)) := by
  have hreachable : sharing.Reachable := plain_reachable
  have hsame : Dialogue.Run (sharing.collaborators.comparator.same ⟨1⟩ ⟨3⟩).run
      [⟨.groups, .ok [replacedGroup]⟩] (.ok true) := .ask _ (.done _)
  exact upgrade_run_kept replacedGroup hreachable (by decide) (replacementTurns_run hreachable)
    hsame

theorem strandedTurns_run :
    let record : Record := ⟨plainRequest.name, none, ⟨2⟩, ⟨1⟩, .none, false, none⟩
    Dialogue.Run (sharing.deploy plainRequest .empty) strandedTurns
      (.ok (record, Session.empty.insert record)) := by
  have hartifact : sharing.artifactIn plainRequest.name.artifact
      (plainFiles (sharing.documentPath plainRequest.name.artifact)) = .ok ⟨"Stub", [1]⟩ :=
    plain_artifactIn _ _
  exact deploy_run_upgraded rfl hartifact (locatedTurns_run plain_reachable _)
    (strandingTurns_run .initial)

theorem fadedLedger_ofCode :
    fadedLedger.manifest.ofCode? plainCode = some ⟨plainCode, ⟨1⟩, []⟩ :=
  createdLedger_ofCode plainRequest ⟨"Stub", [1]⟩ ⟨"Proxy", [1]⟩ [] ⟨1⟩ ⟨2⟩

theorem fadedLedger_record :
    fadedLedger.manifest.record .epoch plainCode ⟨3⟩ = (replacedGroup, [replacedGroup]) := by
  simp [fadedLedger, plainLedger, firstLedger, createdLedger, Ledger.register, Ledger.create,
    Ledger.recordAlias, Ledger.blank, History.Manifest.record, History.Group.add, History.Group.has,
    History.Group.addresses, replacedGroup, plainCode]

theorem strandedLedger_manifest : strandedLedger.manifest = [replacedGroup] := by
  simp only [strandedLedger, Ledger.recordAlias, Ledger.create, fadedLedger_record]

theorem fadedLedger_get : fadedLedger.table.get? "Stub" = some ⟨2⟩ := rfl

/-- What is on the chain. -/
theorem fadedLedger_chain : fadedLedger.code ⟨1⟩ = [] ∧ fadedLedger.code ⟨2⟩ = [0] ∧
    fadedLedger.code ⟨3⟩ = [] ∧ fadedLedger.slot ⟨2⟩ = ⟨1⟩ := by
  simp [fadedLedger, plainLedger, firstLedger, createdLedger, Ledger.register, Ledger.create,
    Ledger.recordAlias, Ledger.blank]

theorem fadedLedger_zero : fadedLedger.code .zero = [] := rfl

theorem strandedLedger_zero : strandedLedger.code .zero = [] := rfl

theorem strandedLedger_ofCode : strandedLedger.manifest.ofCode? plainCode = some replacedGroup := by
  simp [strandedLedger_manifest, History.Manifest.ofCode?, replacedGroup]

theorem replacedGroup_has : replacedGroup.has ⟨3⟩ = true := by
  simp [replacedGroup, History.Group.has, History.Group.addresses]

/-- In the turns in which the other implementation is created, nobody fails. -/
theorem replacementTurns_frank (site : Site) :
    (site.frank plainFiles).Steps fadedLedger (replacementTurns site) strandedLedger := by
  obtain ⟨hdead, -, hfree, hslot⟩ := fadedLedger_chain
  have hzero := fadedLedger_zero
  have hcode : site.Truthful fadedLedger (site.codeQuery ⟨1⟩) (some (Node.replyOf [])) :=
    hdead ▸ truthful_code ⟨1⟩
  have hgroup : Says (.ok (some ⟨plainCode, ⟨1⟩, []⟩)) (fadedLedger.manifest.ofCode? plainCode) :=
    fadedLedger_ofCode ▸ says_ok _
  have hrecorded : Says (.ok replacedGroup)
      (fadedLedger.manifest.record .epoch plainCode ⟨3⟩).1 :=
    fadedLedger_record ▸ says_ok _
  have hasked : (site.frank plainFiles).answers fadedLedger (.exchange (site.codeQuery ⟨1⟩))
      (some (Node.replyOf [])) fadedLedger := ⟨⟨rfl, hcode⟩, trivial, trivial, hzero⟩
  refine .cons ⟨⟨rfl, hslot ▸ truthful_slot _⟩, trivial, trivial, hzero⟩ ?_
  refine .cons ⟨⟨rfl, hgroup⟩, ⟨_, rfl⟩, trivial, hzero⟩ (.cons hasked (.cons hasked ?_))
  refine .cons ⟨⟨hfree, [0], .zero, by simp, by rintro _ ⟨⟩, rfl⟩, by rintro ⟨⟩, trivial,
    strandedLedger_zero⟩ ?_
  exact .cons ⟨.inl ⟨.epoch, rfl, hrecorded⟩, ⟨_, rfl⟩, trivial, strandedLedger_zero⟩ (.nil _)

theorem strandedTurns_steps : sharing.lenient.Steps fadedLedger strandedTurns strandedLedger := by
  obtain ⟨-, hlive, -, hslot⟩ := fadedLedger_chain
  have hlocated : (sharing.frank plainFiles).Steps fadedLedger (locatedTurns sharing) fadedLedger :=
    locatedTurns_steps sharing fadedLedger_get hlive fadedLedger_zero
  have hagain : sharing.Answers strandedLedger (.recordAlias plainCode ⟨3⟩)
      (.ok replacedGroup) strandedLedger :=
    answers_recordAlias strandedLedger_ofCode replacedGroup_has
  have hgroups : Says (.ok [replacedGroup]) strandedLedger.manifest :=
    strandedLedger_manifest ▸ says_ok _
  exact .append (.cons rfl (.nil _)) (.append (hlocated.mono fun h => h.1) (.append
    (.cons ⟨rfl, hslot ▸ truthful_slot _⟩ (.nil _)) (.append
      ((replacementTurns_frank sharing).mono fun h => h.1)
      (.cons hagain (.cons ⟨rfl, hgroups⟩ (.nil _))))))

/-- **A deployment may leave a proxy in front of nothing.** It creates an implementation and goes
well, and the proxy keeps the one that has lost its code. -/
theorem stranded_in_front_of_nothing : ∃ record session,
    Dialogue.Run (sharing.deploy plainRequest .empty) strandedTurns (.ok (record, session)) ∧
      sharing.lenient.Steps fadedLedger strandedTurns strandedLedger ∧ sharing.aliasing = true ∧
      ¬ strandedLedger.live record.implementation = true := by
  refine ⟨_, _, strandedTurns_run, strandedTurns_steps, rfl, ?_⟩
  have hcode : strandedLedger.code ⟨1⟩ = [] := by
    simp [strandedLedger, Ledger.create, Ledger.recordAlias, fadedLedger]
  change ¬ strandedLedger.live ⟨1⟩ = true
  rw [Ledger.live, hcode]
  decide

/-- The turns of a deployment that gets the proxy out of that. -/
def rescueTurns : List Turn :=
  upgradeTurns plainFiles ⟨"Stub", [1]⟩ replacedGroup (replacementTurns plain)

/-- The ledger after that. -/
def rescuedLedger : Ledger := strandedLedger.activate ⟨⟨2⟩, ⟨3⟩⟩

theorem rescueTurns_steps : plain.lenient.Steps fadedLedger rescueTurns rescuedLedger := by
  obtain ⟨-, hlive, -, hslot⟩ := fadedLedger_chain
  exact (upgradeTurns_steps fadedLedger_get hlive hslot fadedLedger_zero
    (replacementTurns_frank plain) strandedLedger_ofCode replacedGroup_has
    strandedLedger_zero).mono fun h => h.1

/-- **A dead implementation is replaced** where there is no aliasing. -/
theorem live_iff_plain : ∃ record session,
    Dialogue.Run (plain.deploy plainRequest .empty) rescueTurns (.ok (record, session)) ∧
      plain.lenient.Steps fadedLedger rescueTurns rescuedLedger ∧
      fadedLedger.live (fadedLedger.slot record.proxy) = false ∧
      rescuedLedger.activations = ⟨record.proxy, record.implementation⟩ :: fadedLedger.activations ∧
      record.implementation = rescuedLedger.slot record.proxy ∧
      rescuedLedger.live record.implementation = true := by
  have hrun := upgradeTurns_run replacedGroup (plain_artifactIn _ _)
    (replacementTurns_run plain_reachable) .empty
  obtain ⟨hslot, answer, rest, artifact, -, -, hlive⟩ := live_iff rfl hrun rescueTurns_steps
  have hdead : fadedLedger.live (fadedLedger.slot ⟨2⟩) = false := by
    rw [fadedLedger_chain.2.2.2, Ledger.live, fadedLedger_chain.1]
    rfl
  refine ⟨_, _, hrun, rescueTurns_steps, hdead, rfl, hslot, hlive.mpr fun hstranded => ?_⟩
  -- Nothing is mistaken for another address.
  cases hstranded.mistaken.aliasing

end ProxyUpgrade.Site
