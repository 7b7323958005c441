import ProxyUpgrade.Proofs.Deploy.First
import ProxyUpgrade.Proofs.Registry.Table
/-!
# Lost proxies

Between the creation of a proxy and the moment when it is on record a call may fail. Nothing then
remembers the proxy: it is *lost*, and the next call for its key creates another. This is the only
way to more than one proxy for a key. Calls of which any number may fail anywhere, with or without
having had an effect, create as many proxies as are lost, and one more if the key is on record in
the end (`Site.proxies_of_calls`).
-/

namespace ProxyUpgrade.Site

open Deploy (Request)

/-! ### Keys on record -/

/-- Whether there is a proxy on record for a key. -/
def Ledger.knows (s : Ledger) (key : Key) : Bool :=
  match key.id with
  | .ok id => (s.table.get? id).isSome
  | .error _ => false

section Knows

variable {s s' : Ledger} {key : Key}

theorem knows_of_table (h : s'.table = s.table) (key : Key) : s'.knows key = s.knows key := by
  rw [Ledger.knows, Ledger.knows, h]

theorem knows_of_id {id : String} (hid : key.id = .ok id) :
    s.knows key = (s.table.get? id).isSome := by
  rw [Ledger.knows, hid]

end Knows

/-! ### One call, step by step -/

/-- **Neither a proxy nor a row of the registry is new.** -/
structure Quiet (s s' : Ledger) : Prop where
  proxies : s'.proxies = s.proxies
  table : s'.table = s.table

theorem quiet_refl (s : Ledger) : Quiet s s := ⟨rfl, rfl⟩

theorem Quiet.trans {s s₁ s' : Ledger} (h : Quiet s s₁) (h' : Quiet s₁ s') : Quiet s s' :=
  ⟨h'.proxies.trans h.proxies, h'.table.trans h.table⟩

section Steps

variable {site : Site} {s : Ledger}

/-- Making an implementation available is quiet. -/
theorem implementationFor_quiet (artifact : Artifact) (current : Option Address) (args : Bytes) :
    ((site.proxies (asking site.account)).implementationFor artifact current args).Obeys
      site.lenient s fun s' _ => Quiet s s' := by
  have hquiet {address : Address} {s₁ : Ledger} (hcreated : s.Creates
      ⟨address, artifact.creationCode args, .implementation⟩ s₁) : Quiet s s₁ :=
    ⟨by simp [Ledger.proxies, hcreated.created, Purpose.isProxy], hcreated.table⟩
  refine implementationFor_obeys site.lenient_honest (fun _ _ => quiet_refl s)
    (fun _ _ => quiet_refl s) (fun _ => trivial) ?_ ?_
  · rintro - answer address s₁ hanswer hreported answer' s₂ hrecorded
    have hnew := hquiet (creates_of_reported (site.lenient_honest.answers hanswer) hreported)
    rcases hrecorded with ⟨now, rfl, -⟩ | ⟨-, rfl⟩
    · exact ⟨hnew.proxies, hnew.table⟩
    · exact hnew
  · intro answer s₁ hanswer hreported e
    have hanswer := site.lenient_honest.answers hanswer
    rcases eq_or_creates_of_reported hanswer hreported with rfl | ⟨address, hcreated⟩
    · exact quiet_refl _
    · exact hquiet hcreated

/-- **At most one proxy is created**, also if the creation is reported as a failure. -/
theorem createProxy_proxies (artifact : Artifact) (data : Bytes) (options : Deploy.Options) :
    (site.collaborators.backend.createProxy artifact data options).Obeys site.lenient s
      fun s' result => s'.table = s.table ∧
        ((∃ e, result = .error e) ∧ s'.proxies = s.proxies ∨
          ∃ creation, s'.proxies = creation :: s.proxies) := by
  refine createProxy_obeys site.lenient_honest
    ((implementationFor_quiet artifact none options.constructorArgs).mono ?_)
  rintro s₁ (e | implementation) hquiet
  · exact ⟨hquiet.table, .inl ⟨⟨e, rfl⟩, hquiet.proxies⟩⟩
  intro answer _
  generalize site.artifactIn _ answer = front
  rcases front with e | front
  · exact ⟨hquiet.table, .inl ⟨⟨e, rfl⟩, hquiet.proxies⟩⟩
  have hnew {proxy : Address} {code : Bytes} {s₂ : Ledger}
      (hcreated : s₁.Creates ⟨proxy, code, .proxy implementation⟩ s₂) :
      s₂.table = s.table ∧ ∃ creation, s₂.proxies = creation :: s.proxies := by
    refine ⟨hcreated.table.trans hquiet.table, ⟨proxy, code, .proxy implementation⟩, ?_⟩
    rw [Ledger.proxies, hcreated.created, ← hquiet.proxies]
    rfl
  refine ⟨trivial, ?_, ?_⟩
  · intro answer proxy s₂ hanswer hreported
    have hcreated := creates_of_reported (site.lenient_honest.answers hanswer) hreported
    exact (hnew hcreated).imp_right .inr
  · intro answer s₂ hanswer hreported e
    have hanswer := site.lenient_honest.answers hanswer
    -- There may be a proxy that nobody knows the address of.
    rcases eq_or_creates_of_reported hanswer hreported with rfl | ⟨proxy, hcreated⟩
    · exact ⟨hquiet.table, .inl ⟨⟨e, rfl⟩, hquiet.proxies⟩⟩
    · exact (hnew hcreated).imp_right .inr

/-- A proxy that has been saved without a failure is on record. -/
theorem saveProxy_knows {key : Key} {id : String} (hid : key.id = .ok id) (proxy : Address) :
    (Registry.saveProxy site.collaborators.registry key proxy).Obeys site.lenient s
      fun s' result => s'.proxies = s.proxies ∧ (result = .ok () → s'.knows key = true) := by
  simp only [Registry.saveProxy, hid]
  refine (registered_reads site.lenient_honest id).obeys_bind
    (fun _ e => ⟨rfl, by rintro ⟨⟩⟩) ?_
  rcases hget : s.table.get? id with - | existing
  · refine ⟨trivial, fun answer s' hanswer => ?_⟩
    -- A write that is reported as a failure may have been made all the same.
    rcases hanswer with rfl | ⟨⟨e, rfl⟩, rfl⟩
    · refine ⟨rfl, fun _ => ?_⟩
      rw [knows_of_id hid, Ledger.register, Registry.Table.get?_insert_self]
      rfl
    · exact ⟨rfl, by rintro ⟨⟩⟩
  · have hknows : s.knows key = true := by rw [knows_of_id hid, hget]; rfl
    dsimp only
    split
    · exact ⟨rfl, fun _ => hknows⟩
    · exact ⟨rfl, by rintro ⟨⟩⟩

/-- **What a call for a key does**: it creates no proxy, or else one, and that only if there was
none on record. -/
inductive Effect (key : Key) (s s' : Ledger) : Prop
  | none (proxies : s'.proxies = s.proxies) (knows : s'.knows key = s.knows key)
  | one (unknown : s.knows key = false) (creation : Creation)
      (proxies : s'.proxies = creation :: s.proxies)

theorem Effect.quiet {key : Key} {s s₁ s' : Ledger} (h : Effect key s s₁) (hquiet : Quiet s₁ s') :
    Effect key s s' := by
  cases h with
  | none proxies knows =>
    exact .none (hquiet.proxies.trans proxies) ((knows_of_table hquiet.table key).trans knows)
  | one unknown creation proxies => exact .one unknown creation (hquiet.proxies.trans proxies)

/-- Locating a proxy has the effect of a call, and puts the key on record unless it fails. -/
theorem locate_effect (request : Request) (artifact : Artifact) (state : State) :
    (Deploy.locate site.collaborators request artifact state).Obeys site.lenient s
      fun s' result => Effect request.key s s' ∧
        ∀ located, result = .ok located → s'.knows request.key = true := by
  have hfailed (e : Error) : Effect request.key s s ∧
      ∀ located : Address × State, .error e = Except.ok located → s.knows request.key = true :=
    ⟨.none rfl rfl, by rintro _ ⟨⟩⟩
  rcases hid : request.key.id with e | id
  · simp only [Deploy.locate, Registry.proxyAddress, hid]
    exact hfailed e
  have hregistered : Reads site.lenient False s
      (Registry.proxyAddress site.collaborators.registry request.key) (s.table.get? id) := by
    rw [Registry.proxyAddress, hid]
    exact registered_reads site.lenient_honest id
  refine hregistered.obeys_bind (fun _ e => hfailed e) ?_
  rcases hget : s.table.get? id with - | proxy
  · have hunknown : s.knows request.key = false := by rw [knows_of_id hid, hget]; rfl
    rcases Deploy.initializerData request.initArgs request.options.initializer with e | data
    · exact hfailed e
    refine Action.obeys_bind.mpr (Action.obeys_ofExcept.mpr (Action.obeys_bind.mpr
      ((createProxy_proxies artifact data request.options).mono ?_)))
    rintro s₁ (e | proxy) ⟨htable, hproxies⟩
    · refine ⟨?_, by rintro _ ⟨⟩⟩
      rcases hproxies with ⟨-, hproxies⟩ | ⟨creation, hproxies⟩
      · exact .none hproxies (knows_of_table htable _)
      · exact .one hunknown creation hproxies
    obtain ⟨⟨e, he⟩, -⟩ | ⟨creation, hproxies⟩ := hproxies
    · cases he
    refine Action.obeys_bind.mpr ((saveProxy_knows hid proxy).mono ?_)
    rintro s₂ result ⟨hsaved, hknows⟩
    have heffect : Effect request.key s s₂ := .one hunknown creation (hsaved.trans hproxies)
    rcases result with e | ⟨⟩
    · exact ⟨heffect, by rintro _ ⟨⟩⟩
    rcases state.advance .deployed with e | state
    · exact ⟨heffect, by rintro _ ⟨⟩⟩
    · exact ⟨heffect, fun _ _ => hknows rfl⟩
  · refine (hasCode_reads site.lenient_honest proxy).obeys_bind (fun _ e => hfailed e) ?_
    have hknows : s.knows request.key = true := by rw [knows_of_id hid, hget]; rfl
    split
    · exact ⟨.none rfl rfl, fun _ _ => hknows⟩
    · exact hfailed _

/-- Activating new code is quiet, whichever way the call goes. -/
theorem activate_quiet (request : Request) (artifact : Artifact) (proxy candidate : Address) :
    (Deploy.activate site.collaborators request artifact proxy candidate).Obeys site.lenient s
      fun s' _ => Quiet s s' := by
  refine activate_obeys site.lenient_honest (fun _ => quiet_refl s) ?_
  rcases hway : site.way with retry | ⟨wallet, chain, retry⟩
  · refine send_obeys site.lenient_honest hway (Quiet s) (fun _ _ h => h) ?_ (quiet_refl s)
    refine fun s₁ hquiet => ⟨trivial, fun answer s₂ hanswer => ?_⟩
    have hsent : Quiet s s₂ := by
      rcases hanswer with ⟨_, _, _, -, rfl⟩ | ⟨-, rfl⟩
      · exact ⟨hquiet.proxies, hquiet.table⟩
      · exact hquiet
    rcases answer with e | receipt <;> exact hsent
  · refine (propose_obeys site.lenient_honest hway _).mono ?_
    rintro _ result rfl
    exact quiet_refl _

/-- Upgrading a proxy is quiet. -/
theorem upgrade_quiet (request : Request) (artifact : Artifact) (proxy : Address) (state : State) :
    (Deploy.upgrade site.collaborators request artifact proxy state).Obeys site.lenient s
      fun s' _ => Quiet s s' := by
  refine Action.obeys_bind.mpr (currentOf_obeys site.lenient_honest (fun _ _ => quiet_refl s)
    (fun _ _ => quiet_refl s) fun _ => ?_)
  refine Action.obeys_bind.mpr (prepareUpgrade_obeys site.lenient_honest
    (fun _ _ => quiet_refl s) ((implementationFor_quiet artifact _ _).mono ?_))
  rintro s₁ (e | candidate) hprepared
  · exact hprepared
  refine Action.obeys_bind.mpr ⟨trivial, fun answer s₂ hanswer => ?_⟩
  have hrecorded : Quiet s s₂ := by
    rcases hanswer with ⟨now, rfl, -⟩ | ⟨-, rfl⟩
    · exact ⟨hprepared.proxies, hprepared.table⟩
    · exact hprepared
  rcases answer with e | group
  · exact hrecorded
  refine (same_reads site.lenient_honest _ _).obeys_bind (fun _ _ => hrecorded) ?_
  split
  · exact hrecorded
  refine Action.obeys_bind.mpr ((activate_quiet request artifact proxy candidate).mono ?_)
  rintro s₃ (e | outcome) hactivated
  · exact hrecorded.trans hactivated
  rcases state.advance .upgraded with e | state <;> exact hrecorded.trans hactivated

/-- **A call has its effect**, and puts its key on record unless it fails. -/
theorem record_effect (request : Request) :
    (Deploy.record site.collaborators request).Obeys site.lenient s fun s' result =>
      Effect request.key s s' ∧ ∀ record, result = .ok record → s'.knows request.key = true := by
  refine Action.obeys_bind.mpr (artifact_obeys site.lenient_honest fun answer _ => ?_)
  rcases site.artifactIn request.name.artifact answer with e | artifact
  · exact ⟨.none rfl rfl, by rintro _ ⟨⟩⟩
  refine Action.obeys_bind.mpr ((locate_effect request artifact .initial).mono ?_)
  rintro s₁ (e | ⟨proxy, state⟩) ⟨heffect, hknows⟩
  · exact ⟨heffect, by rintro _ ⟨⟩⟩
  have hknown := hknows _ rfl
  refine Action.obeys_bind.mpr ((upgrade_quiet request artifact proxy state).mono ?_)
  rintro s₂ (e | ⟨implementation, activation, state⟩) hquiet
  · exact ⟨heffect.quiet hquiet, by rintro _ ⟨⟩⟩
  refine Action.obeys_bind.mpr (Action.obeys_lift.mpr
    ((deploy_verify_obeys site.lenient_honest ..).mono ?_))
  rintro _ outcome rfl
  exact ⟨heffect.quiet hquiet, fun _ _ => (knows_of_table hquiet.table _).trans hknown⟩

end Steps

/-! ### Any number of calls -/

/-- **A proxy is lost**: it has been created, and its key is not on record. -/
def Loses (key : Key) (s s' : Ledger) : Prop :=
  s'.knows key = false ∧ s.proxies.length < s'.proxies.length

/-- **Calls for one key**, one after another, any of which may fail anywhere, and the number of
those in which a proxy is lost. -/
inductive Calls (key : Key) (s : Ledger) : (losses : Nat) → Ledger → Prop
  | none : Calls key s 0 s
  | kept {losses : Nat} {s₁ s₂ : Ledger} {site : Site} {request : Request} {session : Session}
      {turns : List Turn} {result : Except Error (Record × Session)}
      (before : Calls key s losses s₁) (hkey : request.key = key)
      (run : Dialogue.Run (site.deploy request session) turns result)
      (steps : site.lenient.Steps s₁ turns s₂) (hkept : ¬ Loses key s₁ s₂) : Calls key s losses s₂
  | lost {losses : Nat} {s₁ s₂ : Ledger} {site : Site} {request : Request} {session : Session}
      {turns : List Turn} {result : Except Error (Record × Session)}
      (before : Calls key s losses s₁) (hkey : request.key = key)
      (run : Dialogue.Run (site.deploy request session) turns result)
      (steps : site.lenient.Steps s₁ turns s₂) (hlost : Loses key s₁ s₂) :
      Calls key s (losses + 1) s₂

/-- What a whole call does. -/
theorem deploy_effect {site : Site} {request : Request} {session : Session} {turns : List Turn}
    {result : Except Error (Record × Session)} {s s' : Ledger}
    (hrun : Dialogue.Run (site.deploy request session) turns result)
    (hsteps : site.lenient.Steps s turns s') :
    Effect request.key s s' ∧ ∀ yielded, result = .ok yielded → s'.knows request.key = true := by
  obtain ⟨recorded, hrecord, rfl⟩ := deploy_run hrun
  obtain ⟨heffect, hknows⟩ := hrecord.post hsteps (record_effect request)
  refine ⟨heffect, fun yielded hyielded => ?_⟩
  rcases recorded with e | record
  · cases hyielded
  · exact hknows record rfl

/-- A call in which no proxy is lost creates as many as it puts on record. -/
theorem Effect.length_of_kept {key : Key} {s s' : Ledger} (h : Effect key s s')
    (hkept : ¬ Loses key s s') :
    s'.proxies.length + (s.knows key).toNat = s.proxies.length + (s'.knows key).toNat := by
  cases h with
  | none proxies knows => rw [proxies, knows]
  | one unknown creation proxies =>
    have hknows : s'.knows key = true := by
      by_contra hnot
      exact hkept ⟨by simpa using hnot, by simp [proxies]⟩
    simp [proxies, unknown, hknows]

/-- A call in which a proxy is lost creates one, and puts none on record. -/
theorem Effect.length_of_lost {key : Key} {s s' : Ledger} (h : Effect key s s')
    (hlost : Loses key s s') : s'.proxies.length + (s.knows key).toNat =
      s.proxies.length + 1 + (s'.knows key).toNat := by
  cases h with
  | none proxies _ => exact absurd hlost.2 (by simp [proxies])
  | one unknown creation proxies => simp [proxies, unknown, hlost.1]

/-- **All proxies for a key are lost but the one on record**, whatever fails in the calls for it. So
calls for a key that has none create at most one proxy exactly if none is lost, or one is lost and
none put on record afterwards; and only a call that fails loses a proxy. -/
theorem proxies_of_calls {key : Key} {s s' : Ledger} {losses : Nat}
    (h : Calls key s losses s') :
    s'.proxies.length + (s.knows key).toNat =
      s.proxies.length + losses + (s'.knows key).toNat ∧
    (s.knows key = false → (s'.proxies.length ≤ s.proxies.length + 1 ↔
      losses = 0 ∨ losses = 1 ∧ s'.knows key = false)) ∧
    ∀ (site : Site) (request : Request) (session : Session) (turns : List Turn)
      (result : Except Error (Record × Session)) (s'' : Ledger), request.key = key →
      Dialogue.Run (site.deploy request session) turns result →
      site.lenient.Steps s' turns s'' → Loses key s' s'' → ∃ e, result = .error e := by
  -- By induction on the calls: where no proxy is lost, one is on record as soon as it is created.
  have hlength : s'.proxies.length + (s.knows key).toNat =
      s.proxies.length + losses + (s'.knows key).toNat := by
    induction h with
    | none => rfl
    | kept _ hkey run steps hkept ih =>
      subst hkey
      have hcall := (deploy_effect run steps).1.length_of_kept hkept
      omega
    | lost _ hkey run steps hlost ih =>
      subst hkey
      have hcall := (deploy_effect run steps).1.length_of_lost hlost
      omega
  refine ⟨hlength, fun hunknown => ?_, ?_⟩
  · rw [hunknown] at hlength
    rcases hknows : s'.knows key with - | - <;> simp [hknows] at hlength ⊢ <;> omega
  · rintro site request session turns (e | yielded) s'' rfl hrun hsteps hlost
    · exact ⟨e, rfl⟩
    · have hknows := (deploy_effect hrun hsteps).2 yielded rfl
      rw [hlost.1] at hknows
      cases hknows

/-! A proxy that is lost since it cannot be put on record, and another that is created by the next
call. -/

/-- What a registry reports that cannot be written. -/
def notWritten : Error := .storage "read-only"

/-- The turns in which the proxy `2` is created, and lost. -/
def losingTurns : List Turn :=
  [⟨.read (plain.documentPath "Stub"), plainFiles (plain.documentPath "Stub")⟩] ++
  ([⟨.registered "Stub", .ok none⟩] ++
    (creationTurns plain plainFiles plainRequest ⟨"Stub", [1]⟩ ⟨"Proxy", [1]⟩ [] ⟨1⟩ ⟨2⟩ ++
      [⟨.registered "Stub", .ok none⟩, ⟨.register "Stub" ⟨2⟩, .error notWritten⟩]))

/-- The ledger after that: nothing tells of the proxy. -/
def losingLedger : Ledger :=
  createdLedger plainRequest ⟨"Stub", [1]⟩ ⟨"Proxy", [1]⟩ [] ⟨1⟩ ⟨2⟩

theorem losingTurns_run :
    Dialogue.Run (plain.deploy plainRequest .empty) losingTurns (.error notWritten) :=
  deploy_run_unregistered (plain_artifactIn _ _) rfl rfl (createdTurns_run (plain_artifactIn _ _)) _

theorem losingTurns_steps : plain.lenient.Steps .blank losingTurns losingLedger := by
  have hcreated := creationTurns_steps plain plainFiles plainRequest ⟨"Stub", [1]⟩ ⟨"Proxy", [1]⟩ []
    ⟨1⟩ ⟨2⟩ (by decide) (by decide) (by decide)
  refine .append (.cons rfl (.nil _)) (.append (.cons ⟨rfl, ?_⟩ (.nil _))
    (.append (hcreated.mono fun h => h.1)
      (.cons ⟨rfl, ?_⟩ (.cons (.inr ⟨⟨_, rfl⟩, rfl⟩) (.nil _)))))
  all_goals
    rintro _ ⟨⟩
    rfl

/-- The turns in which another proxy is created for the implementation of the lost one. -/
def recreationTurns : List Turn :=
  [⟨.groupOfCode (firstCode plainRequest ⟨"Stub", [1]⟩),
      .ok (some ⟨firstCode plainRequest ⟨"Stub", [1]⟩, ⟨1⟩, []⟩)⟩,
    ⟨.exchange (plain.codeQuery ⟨1⟩), some (Node.replyOf [0])⟩] ++
  [⟨.read (plain.documentPath "Proxy"), plainFiles (plain.documentPath "Proxy")⟩,
    ⟨.create (.proxy ⟨1⟩) (Artifact.creationCode ⟨"Proxy", [1]⟩
      (Node.Proxies.constructorArgs ⟨1⟩ [])), .ok (receiptOf ⟨3⟩)⟩]

/-- The turns of the call in which that happens. -/
def secondTurns : List Turn :=
  [⟨.read (plain.documentPath "Stub"), plainFiles (plain.documentPath "Stub")⟩] ++
  (([⟨.registered "Stub", .ok none⟩] ++
    (recreationTurns ++ [⟨.registered "Stub", .ok none⟩, ⟨.register "Stub" ⟨3⟩, .ok ()⟩])) ++
  plain.unchangedTurns ⟨3⟩ ⟨1⟩ (firstCode plainRequest ⟨"Stub", [1]⟩) [0])

/-- The ledger after the other proxy has been created. -/
def recreatedLedger : Ledger :=
  losingLedger.create ⟨⟨3⟩, Artifact.creationCode ⟨"Proxy", [1]⟩
    (Node.Proxies.constructorArgs ⟨1⟩ []), .proxy ⟨1⟩⟩ [0] ⟨1⟩

/-- The ledger after that call. -/
def secondLedger : Ledger := recreatedLedger.register "Stub" ⟨3⟩

theorem recreationTurns_run :
    Dialogue.Run (plain.collaborators.backend.createProxy ⟨"Stub", [1]⟩ []
      plainRequest.options).run recreationTurns (.ok ⟨3⟩) :=
  createProxy_run (implementationFor_run_known plain_reachable (.inl rfl) (by simp))
    (plain_artifactIn _ _)

/-- So it goes wherever the implementation is there and the address of the proxy is free. -/
theorem recreationTurns_steps {s : Ledger}
    (hgroup : s.manifest.ofCode? (firstCode plainRequest ⟨"Stub", [1]⟩) =
      some ⟨firstCode plainRequest ⟨"Stub", [1]⟩, ⟨1⟩, []⟩)
    (hcode : s.code ⟨1⟩ = [0]) (hfree : s.code ⟨3⟩ = []) :
    plain.lenient.Steps s recreationTurns (s.create ⟨⟨3⟩, Artifact.creationCode ⟨"Proxy", [1]⟩
      (Node.Proxies.constructorArgs ⟨1⟩ []), .proxy ⟨1⟩⟩ [0] ⟨1⟩) := by
  have hsaid : Says (.ok (some ⟨firstCode plainRequest ⟨"Stub", [1]⟩, ⟨1⟩, []⟩))
      (s.manifest.ofCode? (firstCode plainRequest ⟨"Stub", [1]⟩)) := by
    rw [hgroup]
    exact says_ok _
  have hcreated : s.Creates ⟨⟨3⟩, Artifact.creationCode ⟨"Proxy", [1]⟩
      (Node.Proxies.constructorArgs ⟨1⟩ []), .proxy ⟨1⟩⟩ (s.create ⟨⟨3⟩, Artifact.creationCode
        ⟨"Proxy", [1]⟩ (Node.Proxies.constructorArgs ⟨1⟩ []), .proxy ⟨1⟩⟩ [0] ⟨1⟩) := by
    refine ⟨hfree, [0], ⟨1⟩, by simp, ?_, rfl⟩
    rintro _ ⟨⟩
    rfl
  exact .append (.cons ⟨rfl, hsaid⟩ (.cons ⟨rfl, hcode ▸ truthful_code _⟩ (.nil _)))
    (.cons rfl (.cons hcreated (.nil _)))

theorem secondTurns_run (session : Session) :
    ∃ record, Dialogue.Run (plain.deploy plainRequest session) secondTurns
      (.ok (record, session.insert record)) ∧ record.proxy = ⟨3⟩ ∧ record.implementation = ⟨1⟩ :=
  deploy_run_unchanged plain_reachable rfl (plain_artifactIn _ _)
    (locate_run_new rfl rfl recreationTurns_run) (by decide) (by simp)

theorem secondTurns_steps : plain.lenient.Steps losingLedger secondTurns secondLedger := by
  have hofCode : losingLedger.manifest.ofCode? (firstCode plainRequest ⟨"Stub", [1]⟩) =
      some ⟨firstCode plainRequest ⟨"Stub", [1]⟩, ⟨1⟩, []⟩ := createdLedger_ofCode ..
  have hcode : losingLedger.code ⟨1⟩ = [0] ∧ losingLedger.code ⟨3⟩ = [] := by
    simp [losingLedger, createdLedger, Ledger.create, Ledger.recordAlias, Ledger.blank]
  have hknown : recreatedLedger.slot ⟨3⟩ = ⟨1⟩ ∧ recreatedLedger.code ⟨1⟩ = [0] ∧
      recreatedLedger.code .zero = [] := by
    simp [recreatedLedger, losingLedger, createdLedger, Ledger.create, Ledger.recordAlias,
      Ledger.blank, Address.zero]
  have hunchanged := unchangedTurns_steps plain plainFiles ⟨1⟩ ⟨3⟩ (s := secondLedger)
    hknown.1 hknown.2.1 hofCode hknown.2.2
  exact .append (.cons rfl (.nil _)) (.append (.append (.cons ⟨rfl, says_ok none⟩ (.nil _))
    (.append (recreationTurns_steps hofCode hcode.1 hcode.2)
      (.cons ⟨rfl, says_ok none⟩ (.cons (.inl rfl) (.nil _))))) (hunchanged.mono fun h => h.1))

/-- **A key may get two proxies.** The first call creates one and fails to put it on record; the
second one, in which nobody fails, creates another. -/
theorem two_proxies_for_one_key :
    Dialogue.Run (plain.deploy plainRequest .empty) losingTurns (.error notWritten) ∧
      plain.lenient.Steps .blank losingTurns losingLedger ∧
      (∃ yielded, Dialogue.Run (plain.deploy plainRequest .empty) secondTurns (.ok yielded)) ∧
      plain.lenient.Steps losingLedger secondTurns secondLedger ∧
      ¬ secondLedger.proxies.length ≤ 1 := by
  obtain ⟨record, hrun, -⟩ := secondTurns_run .empty
  exact ⟨losingTurns_run, losingTurns_steps, ⟨_, hrun⟩, secondTurns_steps, by decide⟩

theorem losingTurns_loses : Loses plainRequest.key .blank losingLedger := ⟨rfl, by decide⟩

/-- These two calls, in the first of which a proxy is lost. -/
theorem secondLedger_calls : Calls plainRequest.key .blank 1 secondLedger := by
  obtain ⟨record, hrun, -⟩ := secondTurns_run .empty
  exact .kept (.lost .none rfl losingTurns_run losingTurns_steps losingTurns_loses) rfl hrun
    secondTurns_steps fun hlost => Bool.noConfusion hlost.1

theorem proxies_of_calls_plain :
    secondLedger.proxies.length + (Ledger.blank.knows plainRequest.key).toNat =
      Ledger.blank.proxies.length + 1 + (secondLedger.knows plainRequest.key).toNat ∧
    (secondLedger.proxies.length ≤ Ledger.blank.proxies.length + 1 ↔
      1 = 0 ∨ 1 = 1 ∧ secondLedger.knows plainRequest.key = false) ∧
    ∃ e, (.error notWritten : Except Error (Record × Session)) = .error e :=
  ⟨(proxies_of_calls secondLedger_calls).1, (proxies_of_calls secondLedger_calls).2.1 rfl,
    (proxies_of_calls .none).2.2 plain plainRequest .empty losingTurns (.error notWritten)
      losingLedger rfl losingTurns_run losingTurns_steps losingTurns_loses⟩

end ProxyUpgrade.Site
