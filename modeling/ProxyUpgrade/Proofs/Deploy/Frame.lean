import ProxyUpgrade.Proofs.Deploy.Loss
import ProxyUpgrade.Proofs.History.Growth
import ProxyUpgrade.Proofs.Registry.Key
/-!
# What a call leaves alone

A call for one key has nothing to do with the others. It creates contracts where there were none, so
no proxy that is on record; it upgrades only the proxy that is on record for its key, and that one
is on record for no other; and it writes only the row of its key. The bounds hold at every moment of
the call, so they hold wherever it fails as well (`Site.Frame`, `Site.record_frame`).

That a proxy is on record for one key only, and that there is code at it, is an invariant of all
calls which follows from these bounds (`Site.Frame.sound`). In every ledger that calls lead to, the
next one leaves the rows and the proxies of all other keys alone, and only adds to the history
(`Site.deploy_frame`).
-/

namespace ProxyUpgrade.Site

open Deploy (Request)

/-! ### The frame of a key -/

/-- **A proxy is on record for a key.** -/
def Ledger.Registers (s : Ledger) (key : Key) (proxy : Address) : Prop :=
  ∃ id, key.id = .ok id ∧ s.table.get? id = some proxy

/-- **What has changed since a call for a key has started**: contracts at free addresses, the
implementation of its proxy, its own row if there was none, and what is new in the history. -/
structure Frame (key : Key) (s s' : Ledger) : Prop where
  code : ∀ address, s.live address = true → s'.code address = s.code address
  slot : ∀ address, s.live address = true → ¬ s.Registers key address →
    s'.slot address = s.slot address
  kept : ∀ id address, s.table.get? id = some address → s'.table.get? id = some address
  rows : ∀ id address, s'.table.get? id = some address →
    s.table.get? id = some address ∨
      key.id = .ok id ∧ s.live address = false ∧ s'.live address = true
  manifest : s.manifest.Grows s'.manifest
  created : ∃ new, s'.created = new ++ s.created ∧
    ∀ creation ∈ new, s.live creation.address = false

section Frame

variable {key : Key} {s s₁ s' : Ledger} {proxy : Address} {id : String}

theorem frame_refl (key : Key) (s : Ledger) : Frame key s s where
  code _ _ := rfl
  slot _ _ _ := rfl
  kept _ _ h := h
  rows _ _ h := .inl h
  manifest := .refl s.manifest
  created := ⟨[], rfl, by simp⟩

/-- Where there was code when the call started, there is code. -/
theorem Frame.live (h : Frame key s s₁) {address : Address} (hlive : s.live address = true) :
    s₁.live address = true := by
  rw [Ledger.live, h.code address hlive]
  exact hlive

/-- Where there is none now, there was none. -/
theorem Frame.free (h : Frame key s s₁) {address : Address} (hfree : s₁.code address = []) :
    s.live address = false := by
  by_contra hlive
  have := h.live (by simpa using hlive)
  simp [Ledger.live, hfree] at this

/-- The row of another text stays. -/
theorem Frame.get?_eq (h : Frame key s s') (hid : key.id ≠ .ok id) :
    s'.table.get? id = s.table.get? id := by
  rcases hget : s'.table.get? id with - | address
  · rcases hbefore : s.table.get? id with - | address
    · rfl
    · rw [h.kept id address hbefore] at hget
      cases hget
  · rcases h.rows id address hget with hbefore | ⟨hown, -⟩
    · exact hbefore.symm
    · exact absurd hown hid

/-! ### Steps of a call -/

/-- A contract may be created. -/
theorem Frame.create (h : Frame key s s₁) {creation : Creation} (hnew : s₁.Creates creation s') :
    Frame key s s' where
  code address hlive := by
    rw [hnew.code_of_ne (hnew.ne_of_live (h.live hlive)), h.code address hlive]
  slot address hlive hother := by
    rw [hnew.slot_of_ne (hnew.ne_of_live (h.live hlive)), h.slot address hlive hother]
  kept id address hget := hnew.table ▸ h.kept id address hget
  rows id address hget := by
    rcases h.rows id address (hnew.table ▸ hget) with hbefore | ⟨hown, hfree, hlive⟩
    · exact .inl hbefore
    · exact .inr ⟨hown, hfree, by rwa [hnew.live_of_ne (hnew.ne_of_live hlive)]⟩
  manifest := hnew.manifest ▸ h.manifest
  created := by
    obtain ⟨new, hcreated, hfree⟩ := h.created
    refine ⟨creation :: new, by rw [hnew.created, hcreated]; rfl, ?_⟩
    rintro other (- | ⟨-, hother⟩)
    · exact h.free hnew.1
    · exact hfree other hother

/-- An address may be recorded with its code. -/
theorem Frame.recordAlias (h : Frame key s s₁) (now : Timestamp) (code : Hash) (address : Address) :
    Frame key s (s₁.recordAlias now code address) where
  code := h.code
  slot := h.slot
  kept := h.kept
  rows := h.rows
  manifest := h.manifest.trans (History.Manifest.grows_record now code address s₁.manifest)
  created := h.created

/-- A proxy that has come up during the call may be put on record for the key, if none is. -/
theorem Frame.register (h : Frame key s s₁) (hid : key.id = .ok id)
    (hget : s₁.table.get? id = none) (hfree : s.live proxy = false) (hlive : s₁.live proxy = true) :
    Frame key s (s₁.register id proxy) where
  code := h.code
  slot := h.slot
  kept other address hother := by
    have hkept := h.kept other address hother
    have hne : other ≠ id := by
      rintro rfl
      rw [hget] at hkept
      cases hkept
    rwa [Ledger.register, Registry.Table.get?_insert_of_ne hne]
  rows other address hother := by
    rcases eq_or_ne other id with rfl | hne
    · rw [Ledger.register, Registry.Table.get?_insert_self] at hother
      cases hother
      exact .inr ⟨hid, hfree, hlive⟩
    · rw [Ledger.register, Registry.Table.get?_insert_of_ne hne] at hother
      exact h.rows other address hother
  manifest := h.manifest
  created := h.created

/-- The proxy on record for the key may be upgraded. -/
theorem Frame.activate (h : Frame key s s₁) (hregistered : s₁.Registers key proxy)
    (implementation : Address) : Frame key s (s₁.activate ⟨proxy, implementation⟩) where
  code := h.code
  slot address hlive hother := by
    obtain ⟨id, hid, hget⟩ := hregistered
    -- The proxy has been on record from the start, or there was nothing at its address.
    have hne : address ≠ proxy := by
      rintro rfl
      rcases h.rows id address hget with hbefore | ⟨-, hfree, -⟩
      · exact hother ⟨id, hid, hbefore⟩
      · rw [hlive] at hfree
        cases hfree
    simp only [Ledger.activate, Function.update_of_ne hne]
    exact h.slot address hlive hother
  kept := h.kept
  rows := h.rows
  manifest := h.manifest
  created := h.created

end Frame

/-! ### One call -/

section Steps

variable {site : Site} {key : Key} {s s₁ : Ledger}

/-- An implementation is made available within the frame, and without a word to the registry. -/
theorem implementationFor_frame (hs : Frame key s s₁) (artifact : Artifact)
    (current : Option Address) (args : Bytes) :
    ((site.proxies (asking site.account)).implementationFor artifact current args).Obeys
      site.lenient s₁ fun s' _ => Frame key s s' ∧ s'.table = s₁.table := by
  refine implementationFor_obeys site.lenient_honest (fun _ _ => ⟨hs, rfl⟩)
    (fun _ _ => ⟨hs, rfl⟩) (fun _ => trivial) ?_ ?_
  · rintro - answer address s₂ hanswer hreported answer' s₃ hrecorded
    have hnew := creates_of_reported (site.lenient_honest.answers hanswer) hreported
    rcases hrecorded with ⟨now, rfl, -⟩ | ⟨-, rfl⟩
    · exact ⟨(hs.create hnew).recordAlias now _ address, hnew.table⟩
    · exact ⟨hs.create hnew, hnew.table⟩
  · intro answer s₂ hanswer hreported e
    have hanswer := site.lenient_honest.answers hanswer
    rcases eq_or_creates_of_reported hanswer hreported with rfl | ⟨address, hnew⟩
    · exact ⟨hs, rfl⟩
    · exact ⟨hs.create hnew, hnew.table⟩

/-- **A proxy that is created is a new one.** -/
theorem createProxy_frame (hs : Frame key s s₁) (artifact : Artifact) (data : Bytes)
    (options : Deploy.Options) :
    (site.collaborators.backend.createProxy artifact data options).Obeys site.lenient s₁
      fun s' result => Frame key s s' ∧
        ∀ proxy, result = .ok proxy → s.live proxy = false ∧ s'.live proxy = true := by
  refine createProxy_obeys site.lenient_honest
    ((implementationFor_frame hs artifact none options.constructorArgs).mono ?_)
  rintro s₂ (e | implementation) ⟨hframe, -⟩
  · exact ⟨hframe, by rintro _ ⟨⟩⟩
  intro answer _
  generalize site.artifactIn _ answer = front
  rcases front with e | front
  · exact ⟨hframe, by rintro _ ⟨⟩⟩
  refine ⟨trivial, ?_, ?_⟩
  · intro answer proxy s₃ hanswer hreported
    have hnew := creates_of_reported (site.lenient_honest.answers hanswer) hreported
    refine ⟨hframe.create hnew, ?_⟩
    rintro _ ⟨⟩
    exact ⟨hframe.free hnew.1, hnew.live⟩
  · intro answer s₃ hanswer hreported e
    have hanswer := site.lenient_honest.answers hanswer
    rcases eq_or_creates_of_reported hanswer hreported with rfl | ⟨proxy, hnew⟩
    · exact ⟨hframe, by rintro _ ⟨⟩⟩
    · exact ⟨hframe.create hnew, by rintro _ ⟨⟩⟩

/-- A new proxy is put on record for its key alone. -/
theorem saveProxy_frame (hs : Frame key s s₁) {proxy : Address} (hfree : s.live proxy = false)
    (hlive : s₁.live proxy = true) :
    (Registry.saveProxy site.collaborators.registry key proxy).Obeys site.lenient s₁
      fun s' result => Frame key s s' ∧ (result = .ok () → s'.Registers key proxy) := by
  rcases hid : key.id with e | id
  · simp only [Registry.saveProxy, hid]
    exact ⟨hs, by rintro ⟨⟩⟩
  simp only [Registry.saveProxy, hid]
  refine (registered_reads site.lenient_honest id).obeys_bind
    (fun _ e => ⟨hs, by rintro ⟨⟩⟩) ?_
  rcases hget : s₁.table.get? id with - | existing
  · refine ⟨trivial, fun answer s' hanswer => ?_⟩
    rcases hanswer with rfl | ⟨⟨e, rfl⟩, rfl⟩
    · exact ⟨hs.register hid hget hfree hlive,
        fun _ => ⟨id, hid, Registry.Table.get?_insert_self ..⟩⟩
    · exact ⟨hs, by rintro ⟨⟩⟩
  · dsimp only
    split
    next heq => exact ⟨hs, fun _ => ⟨id, hid, heq ▸ hget⟩⟩
    next => exact ⟨hs, by rintro ⟨⟩⟩

/-- **The proxy that is located is the one on record** for the key. -/
theorem locate_frame (request : Request) (artifact : Artifact) (state : State) :
    (Deploy.locate site.collaborators request artifact state).Obeys site.lenient s
      fun s' result => Frame request.key s s' ∧ ∀ proxy state', result = .ok (proxy, state') →
        s'.Registers request.key proxy := by
  have hfailed (e : Error) : Frame request.key s s ∧ ∀ proxy (state' : State),
      .error e = Except.ok (proxy, state') → s.Registers request.key proxy :=
    ⟨frame_refl _ s, by rintro _ _ ⟨⟩⟩
  rcases hid : request.key.id with e | id
  · simp only [Deploy.locate, Registry.proxyAddress, hid]
    exact hfailed e
  have hregistered : Reads site.lenient False s
      (Registry.proxyAddress site.collaborators.registry request.key) (s.table.get? id) := by
    rw [Registry.proxyAddress, hid]
    exact registered_reads site.lenient_honest id
  refine hregistered.obeys_bind (fun _ e => hfailed e) ?_
  rcases hget : s.table.get? id with - | proxy
  · rcases Deploy.initializerData request.initArgs request.options.initializer with e | data
    · exact hfailed e
    refine Action.obeys_bind.mpr (Action.obeys_ofExcept.mpr (Action.obeys_bind.mpr
      ((createProxy_frame (frame_refl request.key s) artifact data request.options).mono ?_)))
    rintro s₁ (e | proxy) ⟨hframe, hproxy⟩
    · exact ⟨hframe, by rintro _ _ ⟨⟩⟩
    obtain ⟨hfree, hlive⟩ := hproxy proxy rfl
    refine Action.obeys_bind.mpr ((saveProxy_frame hframe hfree hlive).mono ?_)
    rintro s₂ (e | ⟨⟩) ⟨hframe, hsaved⟩
    · exact ⟨hframe, by rintro _ _ ⟨⟩⟩
    rcases state.advance .deployed with e | state
    · exact ⟨hframe, by rintro _ _ ⟨⟩⟩
    · refine ⟨hframe, ?_⟩
      rintro _ _ ⟨⟩
      exact hsaved rfl
  · refine (hasCode_reads site.lenient_honest proxy).obeys_bind (fun _ e => hfailed e) ?_
    split
    · refine ⟨frame_refl _ s, ?_⟩
      rintro _ _ ⟨⟩
      exact ⟨id, hid, hget⟩
    · exact hfailed _

variable {proxy : Address}

/-- **Activating new code changes the proxy on record for the key**, and no other. -/
theorem activate_frame (request : Request) (hs : Frame request.key s s₁)
    (hregistered : s₁.Registers request.key proxy) (artifact : Artifact) (candidate : Address) :
    (Deploy.activate site.collaborators request artifact proxy candidate).Obeys site.lenient s₁
      fun s' _ => Frame request.key s s' := by
  refine activate_obeys site.lenient_honest (fun _ => hs) ?_
  rcases hway : site.way with retry | ⟨wallet, chain, retry⟩
  · refine send_obeys site.lenient_honest hway
      (fun s' => Frame request.key s s' ∧ s'.Registers request.key proxy) (fun _ _ h => h.1) ?_
      ⟨hs, hregistered⟩
    rintro s₂ ⟨hframe, hregistered⟩
    refine ⟨trivial, fun answer s₃ hanswer => ?_⟩
    have hsent : Frame request.key s s₃ ∧ s₃.Registers request.key proxy := by
      rcases hanswer with hactivates | ⟨-, rfl⟩
      · obtain rfl := Ledger.activates_upgrade hactivates
        exact ⟨hframe.activate hregistered candidate, hregistered⟩
      · exact ⟨hframe, hregistered⟩
    rcases answer with e | receipt
    · exact hsent
    · exact hsent.1
  · refine (propose_obeys site.lenient_honest hway _).mono ?_
    rintro _ result rfl
    exact hs

/-- Upgrading the proxy on record for the key stays within its frame. -/
theorem upgrade_frame (request : Request) (hs : Frame request.key s s₁)
    (hregistered : s₁.Registers request.key proxy) (artifact : Artifact) (state : State) :
    (Deploy.upgrade site.collaborators request artifact proxy state).Obeys site.lenient s₁
      fun s' _ => Frame request.key s s' := by
  refine Action.obeys_bind.mpr (currentOf_obeys site.lenient_honest (fun _ _ => hs)
    (fun _ _ => hs) fun _ => ?_)
  refine Action.obeys_bind.mpr (prepareUpgrade_obeys site.lenient_honest
    (fun _ _ => hs) ((implementationFor_frame hs artifact _ _).mono ?_))
  rintro s₂ (e | candidate) ⟨hprepared, htable⟩
  · exact hprepared
  have hregistered : s₂.Registers request.key proxy := by rwa [Ledger.Registers, htable]
  refine Action.obeys_bind.mpr ⟨trivial, fun answer s₃ hanswer => ?_⟩
  have hrecorded : Frame request.key s s₃ ∧ s₃.Registers request.key proxy := by
    rcases hanswer with ⟨now, rfl, -⟩ | ⟨-, rfl⟩
    · exact ⟨hprepared.recordAlias .., hregistered⟩
    · exact ⟨hprepared, hregistered⟩
  rcases answer with e | group
  · exact hrecorded.1
  refine (same_reads site.lenient_honest _ _).obeys_bind (fun _ _ => hrecorded.1) ?_
  split
  · exact hrecorded.1
  refine Action.obeys_bind.mpr
    ((activate_frame request hrecorded.1 hrecorded.2 artifact candidate).mono ?_)
  rintro s₄ (e | outcome) hactivated
  · exact hactivated
  rcases state.advance .upgraded with e | state <;> exact hactivated

/-- **A call stays within the frame of its key**, whether it fails or not. -/
theorem record_frame (request : Request) :
    (Deploy.record site.collaborators request).Obeys site.lenient s
      fun s' _ => Frame request.key s s' := by
  refine Action.obeys_bind.mpr (artifact_obeys site.lenient_honest fun answer _ => ?_)
  rcases site.artifactIn request.name.artifact answer with e | artifact
  · exact frame_refl _ s
  refine Action.obeys_bind.mpr ((locate_frame request artifact .initial).mono ?_)
  rintro s₁ (e | ⟨proxy, state⟩) ⟨hframe, hlocated⟩
  · exact hframe
  refine Action.obeys_bind.mpr
    ((upgrade_frame request hframe (hlocated proxy state rfl) artifact state).mono ?_)
  rintro s₂ (e | ⟨implementation, activation, state⟩) hframe
  · exact hframe
  refine Action.obeys_bind.mpr (Action.obeys_lift.mpr
    ((deploy_verify_obeys site.lenient_honest ..).mono ?_))
  rintro _ outcome rfl
  exact hframe

end Steps

/-! ### Any number of calls -/

/-- **A registry that names proxies**: there is code at every address on record, and none is on
record under two texts. -/
structure Sound (s : Ledger) : Prop where
  live : ∀ id proxy, s.table.get? id = some proxy → s.live proxy = true
  unique : ∀ id other proxy, s.table.get? id = some proxy → s.table.get? other = some proxy →
    id = other

theorem sound_blank : Sound .blank := ⟨by rintro _ _ ⟨⟩, by rintro _ _ _ ⟨⟩⟩

/-- **A call leaves the registry sound.** -/
theorem Frame.sound {key : Key} {s s' : Ledger} (h : Frame key s s') (hs : Sound s) : Sound s' where
  live id proxy hget := by
    rcases h.rows id proxy hget with hbefore | ⟨-, -, hlive⟩
    · exact h.live (hs.live id proxy hbefore)
    · exact hlive
  unique id other proxy hget hother := by
    -- What was on record before has had code since, and what is new had none.
    rcases h.rows id proxy hget with hbefore | ⟨hid, hfree, -⟩ <;>
      rcases h.rows other proxy hother with hbefore' | ⟨hid', hfree', -⟩
    · exact hs.unique id other proxy hbefore hbefore'
    · rw [hs.live id proxy hbefore] at hfree'
      cases hfree'
    · rw [hs.live other proxy hbefore'] at hfree
      cases hfree
    · rw [hid] at hid'
      exact Except.ok.inj hid'

/-- **The ledgers that calls lead to**, for any keys, over any routes, however they fail. In between
whoever may upgrade a proxy does so. -/
inductive Arises : Ledger → Prop
  | blank : Arises .blank
  | deploy {s s' : Ledger} {site : Site} {request : Request} {session : Session}
      {turns : List Turn} {result : Except Error (Record × Session)} (before : Arises s)
      (run : Dialogue.Run (site.deploy request session) turns result)
      (steps : site.lenient.Steps s turns s') : Arises s'
  | upgraded {s : Ledger} (before : Arises s) (activation : Activation) :
      Arises (s.activate activation)

/-- What a whole call may change. -/
theorem deploy_frame_of_run {site : Site} {request : Request} {session : Session}
    {turns : List Turn} {result : Except Error (Record × Session)} {s s' : Ledger}
    (hrun : Dialogue.Run (site.deploy request session) turns result)
    (hsteps : site.lenient.Steps s turns s') : Frame request.key s s' := by
  obtain ⟨recorded, hrecord, -⟩ := deploy_run hrun
  exact hrecord.post hsteps (record_frame request)

theorem Arises.sound {s : Ledger} (h : Arises s) : Sound s := by
  induction h with
  | blank => exact sound_blank
  | deploy _ run steps ih => exact (deploy_frame_of_run run steps).sound ih
  | upgraded _ activation ih => exact ⟨ih.live, ih.unique⟩

/-- **A call leaves the other keys alone.** Whatever calls have led to, the next one keeps the row
of every other key, and the implementation and the code of the proxy on record there; groups and
aliases of the history stay where they are; and what is created is at addresses that were on record
for no key. So it is wherever the call fails. -/
theorem deploy_frame {site : Site} {request : Request} {session : Session} {turns : List Turn}
    {result : Except Error (Record × Session)} {s s' : Ledger} (hs : Arises s)
    (hrun : Dialogue.Run (site.deploy request session) turns result)
    (hsteps : site.lenient.Steps s turns s') :
    (∀ other : Key, other ≠ request.key → ∀ id, other.id = .ok id →
      s'.table.get? id = s.table.get? id ∧ ∀ proxy, s.table.get? id = some proxy →
        s'.slot proxy = s.slot proxy ∧ s'.code proxy = s.code proxy) ∧
    s.manifest.Grows s'.manifest ∧
    ∃ new, s'.created = new ++ s.created ∧
      ∀ creation ∈ new, ∀ id, s.table.get? id ≠ some creation.address := by
  have hframe := deploy_frame_of_run hrun hsteps
  refine ⟨fun other hne id hid => ?_, hframe.manifest, ?_⟩
  · have hown : request.key.id ≠ .ok id := fun hown => hne (Key.eq_of_id hid hown)
    refine ⟨hframe.get?_eq hown, fun proxy hget => ?_⟩
    have hlive := hs.sound.live id proxy hget
    refine ⟨hframe.slot proxy hlive ?_, hframe.code proxy hlive⟩
    rintro ⟨own, hkey, hget'⟩
    exact hown (hs.sound.unique own id proxy hget' hget ▸ hkey)
  · obtain ⟨new, hcreated, hfree⟩ := hframe.created
    refine ⟨new, hcreated, fun creation hmem id hget => ?_⟩
    have hlive := hs.sound.live id creation.address hget
    rw [hfree creation hmem] at hlive
    cases hlive

/-! A second instance of a contract is deployed beside the first one, and its row is written
although that is reported as a failure. -/

/-- A request for a second instance. -/
def instanceRequest : Request := { plainRequest with instanceId := some "b" }

/-- The turns in which its proxy `3` is created. -/
def instanceTurns : List Turn :=
  [⟨.read (plain.documentPath "Stub"), plainFiles (plain.documentPath "Stub")⟩] ++
  ([⟨.registered "Stub@b", .ok none⟩] ++ (recreationTurns ++
    [⟨.registered "Stub@b", .ok none⟩, ⟨.register "Stub@b" ⟨3⟩, .error notWritten⟩]))

/-- The ledger after that. -/
def instanceLedger : Ledger :=
  (plainLedger.create ⟨⟨3⟩, Artifact.creationCode ⟨"Proxy", [1]⟩
    (Node.Proxies.constructorArgs ⟨1⟩ []), .proxy ⟨1⟩⟩ [0] ⟨1⟩).register "Stub@b" ⟨3⟩

theorem instanceTurns_run :
    Dialogue.Run (plain.deploy instanceRequest .empty) instanceTurns (.error notWritten) := by
  have hcreated : Dialogue.Run (plain.collaborators.backend.createProxy ⟨"Stub", [1]⟩ []
      instanceRequest.options).run recreationTurns (.ok ⟨3⟩) := recreationTurns_run
  exact deploy_run_unregistered (plain_artifactIn _ _) rfl rfl hcreated _

theorem instanceTurns_steps : plain.lenient.Steps plainLedger instanceTurns instanceLedger := by
  have hcode : plainLedger.code ⟨1⟩ = [0] ∧ plainLedger.code ⟨3⟩ = [] := by
    simp [plainLedger, firstLedger, createdLedger, Ledger.register, Ledger.create,
      Ledger.recordAlias, Ledger.blank]
  have hrecreated := recreationTurns_steps (s := plainLedger)
    (createdLedger_ofCode plainRequest ⟨"Stub", [1]⟩ ⟨"Proxy", [1]⟩ [] ⟨1⟩ ⟨2⟩) hcode.1 hcode.2
  exact .append (.cons rfl (.nil _)) (.append (.cons ⟨rfl, says_ok none⟩ (.nil _))
    (hrecreated.append (.cons ⟨rfl, says_ok none⟩ (.cons (.inl rfl) (.nil _)))))

theorem plainLedger_arises : Arises plainLedger := by
  obtain ⟨record, hrun, -⟩ := plain_run .empty
  exact .deploy .blank hrun (plain_steps.mono fun h => h.1)

theorem deploy_frame_instance :
    instanceLedger.table.get? "Stub" = some ⟨2⟩ ∧ instanceLedger.slot ⟨2⟩ = plainLedger.slot ⟨2⟩ ∧
      instanceLedger.table.get? "Stub@b" = some ⟨3⟩ ∧
      plainLedger.manifest.Grows instanceLedger.manifest := by
  obtain ⟨hothers, hgrows, -⟩ := deploy_frame plainLedger_arises instanceTurns_run
    instanceTurns_steps
  obtain ⟨hrow, hslot⟩ := hothers plainRequest.key (by decide) "Stub" rfl
  exact ⟨hrow.trans rfl, (hslot ⟨2⟩ rfl).1, rfl, hgrows⟩

end ProxyUpgrade.Site
