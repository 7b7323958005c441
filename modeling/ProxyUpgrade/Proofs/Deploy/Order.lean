import ProxyUpgrade.Proofs.Deploy.Questions
/-!
# The order of the calls

A deployment calls a dozen operations of its collaborators, each of which may fail or answer
anything. What it may call depends on what has been answered so far:

* a proxy is created once, and only when the registry has none under the key;
* once it is created, nothing but the registry is asked until it is on record;
* a call is sent once, after the new implementation has been prepared, recorded, compared with the
  current one and checked.

`Deploy.InOrder` is this rule, and `Deploy.calls_in_order` says that every run keeps to it. The
proof goes through the steps of a deployment one by one. What a step hands on to the next is the
list of turns so far, which for a proxy that has been located is one of three (`Deploy.Located`).
-/

namespace ProxyUpgrade.Deploy

open Question

/-! ### The rule -/

namespace Question

/-- Whether a call has a proxy created. -/
def isCreation : Question → Bool
  | createProxy .. => true
  | _ => false

/-- Whether a call has another call sent to the chain. -/
def isSend : Question → Bool
  | send _ => true
  | _ => false

end Question

/-- The turns that say that a proxy is on record. -/
def Records (request : Request) (proxy : Address) (turn : Turn) : Prop :=
  ∃ id, request.key.id = .ok id ∧
    (turn = ⟨register id proxy, .ok ()⟩ ∨ turn = ⟨registered id, .ok (some proxy)⟩)

/-- **Every proxy that was created is on record** since. -/
def Settled (request : Request) (past : List Turn) : Prop :=
  ∀ earlier later artifact data options proxy,
    past = earlier ++ ⟨createProxy artifact data options, .ok proxy⟩ :: later →
      ∃ turn ∈ later, Records request proxy turn

/-- **A proxy may be created** if none was, and the registry has none under the key. -/
def MayCreate (request : Request) (past : List Turn) : Prop :=
  (∀ turn ∈ past, turn.1.isCreation = false) ∧
    ∃ id, request.key.id = .ok id ∧ ⟨registered id, .ok none⟩ ∈ past

/-- **The turns that locate a proxy**: it is on record and exists, or it is created and put on
record, or the registry has it on record as soon as it is created. -/
inductive Located (request : Request) (artifact : Artifact) (proxy : Address) : List Turn → Prop
  | found {id : String} (hid : request.key.id = .ok id) :
    Located request artifact proxy
      [⟨.artifact request.name.artifact, .ok artifact⟩, ⟨registered id, .ok (some proxy)⟩,
        ⟨contractExists proxy, .ok true⟩]
  | created {id : String} (hid : request.key.id = .ok id) (data : Bytes) :
    Located request artifact proxy
      [⟨.artifact request.name.artifact, .ok artifact⟩, ⟨registered id, .ok none⟩,
        ⟨createProxy artifact data request.options, .ok proxy⟩, ⟨registered id, .ok none⟩,
        ⟨register id proxy, .ok ()⟩]
  | present {id : String} (hid : request.key.id = .ok id) (data : Bytes) :
    Located request artifact proxy
      [⟨.artifact request.name.artifact, .ok artifact⟩, ⟨registered id, .ok none⟩,
        ⟨createProxy artifact data request.options, .ok proxy⟩,
        ⟨registered id, .ok (some proxy)⟩]

/-- The turns in which the implementation behind a proxy is looked up and a new one is prepared and
recorded. -/
def prepared (request : Request) (artifact : Artifact) (proxy current candidate : Address)
    (group : History.Group) : List Turn :=
  [⟨currentImplementation proxy, .ok current⟩,
    ⟨prepareUpgrade proxy artifact request.options, .ok candidate⟩,
    ⟨recordAlias (artifact.codeHash request.options.constructorArgs) candidate, .ok group⟩]

/-- **The turns in which two implementations are found to differ**: none if they are only compared
by their addresses, else one that has no group with both. -/
inductive Differ (current candidate : Address) : (aliasing : Bool) → List Turn → Prop
  | addresses : Differ current candidate false []
  | groups {groups : List History.Group}
      (h : ∀ group ∈ groups, ¬ (group.has current ∧ group.has candidate)) :
    Differ current candidate true [⟨.groups, .ok groups⟩]

/-- The turns in which a new implementation is checked, if that is wanted. -/
def checked (request : Request) (artifact : Artifact) (proxy candidate : Address) : List Turn :=
  if request.options.validate then [⟨validateUpgrade proxy candidate artifact, .ok ()⟩] else []

/-- **A call may be sent** if none was, the last turns have led up to it, and it is the one that
activates the implementation which these turns are about. -/
def MaySend (request : Request) (aliasing : Bool) (past : List Turn) (call : Call) : Prop :=
  (∀ turn ∈ past, turn.1.isSend = false) ∧
    ∃ artifact proxy current candidate group located compared,
      Located request artifact proxy located ∧ current ≠ .zero ∧ current ≠ candidate ∧
      Differ current candidate aliasing compared ∧
      past = located ++ prepared request artifact proxy current candidate group ++ compared ++
        checked request artifact proxy candidate ∧
      call = .upgrade proxy candidate request.options.upgradeData

/-- **What may be called** after the turns so far. -/
structure InOrder (request : Request) (aliasing : Bool) (past : List Turn) (question : Question) :
    Prop where
  create : question.isCreation → MayCreate request past
  settled : question.isRegistry = false → Settled request past
  send : ∀ call, question = .send call → MaySend request aliasing past call

/-- The rule as one for dialogues. -/
def rules (request : Request) (aliasing : Bool) :
    Dialogue.Rules (List Turn) Question Question.Answer :=
  .history (InOrder request aliasing)

/-! ### Proxies on record -/

section Settled

variable {request : Request} {past : List Turn}

/-- Among turns that create nothing there is none that creates a proxy. -/
theorem no_creation_among {turns before after : List Turn} {artifact : Artifact} {data : Bytes}
    {options : Options} {answer : Except Error Address}
    (h : ∀ turn ∈ turns, turn.1.isCreation = false)
    (hsplit : turns = before ++ ⟨createProxy artifact data options, answer⟩ :: after) : False := by
  have hmem : ⟨createProxy artifact data options, answer⟩ ∈ turns := by simp [hsplit]
  simpa [isCreation] using h _ hmem

theorem settled_of_no_creation (h : ∀ turn ∈ past, turn.1.isCreation = false) :
    Settled request past := by
  rintro earlier later artifact data options proxy rfl
  exact (no_creation_among h rfl).elim

/-- Later turns that create nothing leave every proxy on record. -/
theorem Settled.append (hpast : Settled request past) {rest : List Turn}
    (h : ∀ turn ∈ rest, turn.1.isCreation = false) : Settled request (past ++ rest) := by
  intro earlier later artifact data options proxy hsplit
  -- The creation is not among the later turns, so it is among the earlier ones.
  rcases List.append_eq_append_iff.mp hsplit with ⟨between, -, hrest⟩ | ⟨between, hpast', hrest⟩
  · exact (no_creation_among h hrest).elim
  · rcases between with - | ⟨first, between⟩
    · exact (no_creation_among h (show rest = [] ++ _ from hrest.symm)).elim
    · obtain ⟨rfl, rfl⟩ : _ = first ∧ later = between ++ rest := by simpa using hrest
      obtain ⟨turn, hturn, hrecords⟩ := hpast earlier between artifact data options proxy hpast'
      exact ⟨turn, List.mem_append_left _ hturn, hrecords⟩

/-- The only creation among some turns is settled by a later one that says so. -/
theorem settled_creation {earlier later : List Turn} {artifact : Artifact} {data : Bytes}
    {options : Options} {proxy : Address}
    (hearlier : ∀ turn ∈ earlier, turn.1.isCreation = false)
    (hlater : ∀ turn ∈ later, turn.1.isCreation = false)
    (hrecords : ∃ turn ∈ later, Records request proxy turn) :
    Settled request
      (earlier ++ ⟨createProxy artifact data options, .ok proxy⟩ :: later) := by
  intro earlier' later' artifact' data' options' proxy' hsplit
  -- Where `between` is empty the two creations are the same; nowhere else is there one.
  rcases List.append_eq_append_iff.mp hsplit with ⟨between, -, hcons⟩ | ⟨between, hbefore, hcons⟩
  · rcases between with - | ⟨first, between⟩
    · simp only [List.nil_append, List.cons.injEq, Sigma.mk.injEq, createProxy.injEq] at hcons
      obtain ⟨⟨⟨rfl, rfl, rfl⟩, hproxy⟩, rfl⟩ := hcons
      obtain rfl : proxy = proxy' := by simpa using hproxy
      exact hrecords
    · exact (no_creation_among hlater (List.cons.inj hcons).2).elim
  · rcases between with - | ⟨first, between⟩
    · simp only [List.nil_append, List.cons.injEq, Sigma.mk.injEq, createProxy.injEq] at hcons
      obtain ⟨⟨⟨rfl, rfl, rfl⟩, hproxy⟩, rfl⟩ := hcons
      obtain rfl : proxy' = proxy := by simpa using hproxy
      exact hrecords
    · obtain rfl := (List.cons.inj hcons).1
      exact (no_creation_among hearlier hbefore).elim

end Settled

/-! ### Step by step -/

section Steps

variable {request : Request} {aliasing : Bool} {network : String} {artifact : Artifact}
  {proxy : Address}

/-- The registry may be asked at any time. -/
theorem inOrder_registry {past : List Turn} {question : Question}
    (h : question.isRegistry = true) : InOrder request aliasing past question where
  create hcreate := by cases question <;> simp_all [isCreation, isRegistry]
  settled hother := by simp [h] at hother
  send call hsend := by simp [hsend, isRegistry] at h

/-- What neither creates nor sends may be asked as long as every proxy is on record. -/
theorem inOrder_settled {past : List Turn} {question : Question}
    (hcreate : question.isCreation = false) (hsend : question.isSend = false)
    (hsettled : Settled request past) : InOrder request aliasing past question where
  create h := by simp [hcreate] at h
  settled _ := hsettled
  send call h := by simp [h, isSend] at hsend

theorem Located.no_send {past : List Turn} (h : Located request artifact proxy past) :
    ∀ turn ∈ past, turn.1.isSend = false := by
  cases h <;> simp [isSend]

theorem Located.settled {past : List Turn} (h : Located request artifact proxy past) :
    Settled request past := by
  cases h with
  | found hid => exact settled_of_no_creation (by simp [isCreation])
  | @created id hid data =>
    change Settled request ([_, _] ++ _ :: _)
    refine settled_creation (by simp [isCreation]) (by simp [isCreation]) ?_
    exact ⟨_, List.mem_cons_of_mem _ List.mem_cons_self, id, hid, .inl rfl⟩
  | @present id hid data =>
    change Settled request ([_, _] ++ _ :: _)
    refine settled_creation (by simp [isCreation]) (by simp [isCreation]) ?_
    exact ⟨_, List.mem_cons_self, id, hid, .inr rfl⟩

/-- A proxy has been put on record by one of two turns, after the registry has been asked. -/
theorem saveProxy_inOrder {id : String} (hid : request.key.id = .ok id) {past : List Turn} :
    (Registry.saveProxy (asking aliasing network).registry request.key proxy).Obeys
      (rules request aliasing) past (Action.Yielding fun turns _ =>
        turns = past ++ [⟨registered id, .ok none⟩, ⟨register id proxy, .ok ()⟩] ∨
          turns = past ++ [⟨registered id, .ok (some proxy)⟩]) := by
  simp only [Registry.saveProxy, Action.obeys_bind_yielding, hid, Action.obeys_ofExcept,
    Action.yielding_ok]
  refine ⟨inOrder_registry rfl, ?_⟩
  rintro (error | _ | existing) _ rfl
  · trivial
  · refine ⟨inOrder_registry rfl, ?_⟩
    rintro (error | ⟨⟩) _ rfl
    · trivial
    · exact .inl (by simp)
  · by_cases h : existing = proxy
    · simp [h]
    · simp [h]

/-- A new proxy has been located once it is on record. -/
theorem create_inOrder {id : String} (hid : request.key.id = .ok id) (state : State) :
    (do
      let data ← Action.ofExcept (initializerData request.initArgs request.options.initializer)
      let proxy ← (asking aliasing network).backend.createProxy artifact data request.options
      Registry.saveProxy (asking aliasing network).registry request.key proxy
      let state ← Action.ofExcept (state.advance .deployed)
      pure (proxy, state) : Action Talk (Address × State)).Obeys (rules request aliasing)
      [⟨.artifact request.name.artifact, .ok artifact⟩, ⟨registered id, .ok none⟩]
      (Action.Yielding fun past located => Located request artifact located.1 past) := by
  rcases initializerData request.initArgs request.options.initializer with error | data
  · simp [Action.obeys_bind]
  simp only [Action.obeys_bind_yielding, Action.obeys_ofExcept, Action.yielding_ok]
  have hcreate : MayCreate request [⟨.artifact request.name.artifact, .ok artifact⟩,
      ⟨registered id, .ok none⟩] :=
    ⟨by simp [isCreation], id, hid, by simp⟩
  refine ⟨⟨fun _ => hcreate, fun _ => settled_of_no_creation hcreate.1, by rintro _ ⟨⟩⟩, ?_⟩
  rintro (error | proxy) _ rfl
  · trivial
  refine (saveProxy_inOrder hid).mono ?_
  rintro turns (error | _) hsaved
  · trivial
  rcases state.advance .deployed with error | state
  · trivial
  rcases hsaved with rfl | rfl
  · exact .created hid data
  · exact .present hid data

theorem locate_inOrder (state : State) :
    (locate (asking aliasing network) request artifact state).Obeys (rules request aliasing)
      [⟨.artifact request.name.artifact, .ok artifact⟩]
      (Action.Yielding fun past located => Located request artifact located.1 past) := by
  rcases hid : request.key.id with error | id
  · simp [locate, Registry.proxyAddress, Action.obeys_bind, hid]
  simp only [locate, Registry.proxyAddress, Action.obeys_bind_yielding, hid,
    Action.obeys_ofExcept, Action.yielding_ok]
  refine ⟨inOrder_registry rfl, ?_⟩
  -- The registry fails, has no proxy, or has one.
  rintro (error | _ | proxy) _ rfl
  · trivial
  · exact create_inOrder hid state
  · simp only [Dialogue.obeys_done, Action.yielding_ok, Action.obeys_bind_yielding]
    refine ⟨inOrder_settled rfl rfl (settled_of_no_creation (by simp [isCreation])), ?_⟩
    rintro (error | _ | _) _ rfl
    · trivial
    · trivial
    · exact .found hid

/-! ### Upgrades -/

/-- Turns that neither create nor send. -/
def Quiet (turns : List Turn) : Prop :=
  ∀ turn ∈ turns, turn.1.isCreation = false ∧ turn.1.isSend = false

theorem Quiet.append {turns rest : List Turn} (h : Quiet turns) (hrest : Quiet rest) :
    Quiet (turns ++ rest) := fun turn hturn =>
  (List.mem_append.mp hturn).elim (h turn) (hrest turn)

theorem Located.no_send_append {located rest : List Turn}
    (h : Located request artifact proxy located) (hrest : Quiet rest) :
    ∀ turn ∈ located ++ rest, turn.1.isSend = false := fun turn hturn =>
  (List.mem_append.mp hturn).elim (h.no_send turn) fun hturn => (hrest turn hturn).2

theorem Settled.append_quiet {past rest : List Turn} (h : Settled request past)
    (hrest : Quiet rest) : Settled request (past ++ rest) :=
  h.append fun turn hturn => (hrest turn hturn).1

theorem quiet_prepared {current candidate : Address} {group : History.Group} :
    Quiet (prepared request artifact proxy current candidate group) := by
  simp [Quiet, prepared, isCreation, isSend]

theorem quiet_checked {candidate : Address} : Quiet (checked request artifact proxy candidate) := by
  rw [checked]
  split <;> simp [Quiet, isCreation, isSend]

theorem currentOf_inOrder {key : Key} {past : List Turn} (h : Settled request past) :
    (currentOf (asking aliasing network) key proxy).Obeys (rules request aliasing) past
      (Action.Yielding fun turns current =>
        turns = past ++ [⟨currentImplementation proxy, .ok current⟩] ∧ current ≠ .zero) := by
  simp only [currentOf, Action.obeys_bind_yielding]
  refine ⟨inOrder_settled rfl rfl h, ?_⟩
  rintro (error | current) _ rfl
  · trivial
  by_cases hzero : current = .zero
  · simp [hzero]
  · simp [hzero]

theorem same_inOrder {current candidate : Address} {past : List Turn} (h : Settled request past) :
    ((asking aliasing network).comparator.same current candidate).Obeys
      (rules request aliasing) past (Action.Yielding fun turns same =>
        ∃ compared, turns = past ++ compared ∧ Quiet compared ∧
          (same = false → current ≠ candidate ∧ Differ current candidate aliasing compared)) := by
  have haliasing : (asking aliasing network).comparator.aliasing = aliasing := rfl
  rw [History.Comparator.same, haliasing]
  split
  next heq => exact ⟨[], by simp, by simp [Quiet], by simp⟩
  next hne =>
    cases aliasing with
    | false => exact ⟨[], by simp, by simp [Quiet], fun _ => ⟨hne, .addresses⟩⟩
    | true =>
      simp only [Bool.not_true, Bool.false_eq_true, if_false, Action.obeys_bind_yielding]
      refine ⟨inOrder_settled rfl rfl h, ?_⟩
      rintro (error | groups) _ rfl
      · trivial
      refine ⟨[⟨.groups, .ok groups⟩], rfl, by simp [Quiet, isCreation, isSend], fun hsame => ?_⟩
      exact ⟨hne, .groups (by simpa using hsame)⟩

theorem send_inOrder (network : String) {call : Call} {past : List Turn}
    (hsettled : Settled request past)
    (hsend : MaySend request aliasing past call) :
    ((asking aliasing network).send call).Obeys (rules request aliasing) past
      (Action.Yielding fun turns _ => Settled request turns) := by
  refine ⟨⟨by rintro ⟨⟩, fun _ => hsettled, ?_⟩, ?_⟩
  · rintro _ ⟨⟩
    exact hsend
  · rintro (error | outcome) _ rfl
    · trivial
    · exact hsettled.append (by simp [isCreation])

theorem activate_inOrder {current candidate : Address} {group : History.Group}
    {located compared : List Turn} (hlocated : Located request artifact proxy located)
    (hcompared : Quiet compared) (hzero : current ≠ .zero) (hne : current ≠ candidate)
    (hdiffer : Differ current candidate aliasing compared) :
    (activate (asking aliasing network) request artifact proxy candidate).Obeys
      (rules request aliasing)
      (located ++ prepared request artifact proxy current candidate group ++ compared)
      (Action.Yielding fun turns _ => Settled request turns) := by
  have hquiet : Quiet (prepared request artifact proxy current candidate group ++ compared) :=
    quiet_prepared.append hcompared
  have hsend : MaySend request aliasing
      (located ++ prepared request artifact proxy current candidate group ++ compared ++
        checked request artifact proxy candidate)
      (.upgrade proxy candidate request.options.upgradeData) := by
    refine ⟨?_, artifact, proxy, current, candidate, group, located, compared, hlocated, hzero, hne,
      hdiffer, rfl, rfl⟩
    simpa only [List.append_assoc] using
      hlocated.no_send_append (hquiet.append quiet_checked)
  have hsettled := hlocated.settled.append_quiet hquiet
  rw [← List.append_assoc] at hsettled
  by_cases hvalidate : request.options.validate
  · simp only [activate, hvalidate, if_true, Action.obeys_bind_yielding]
    refine ⟨inOrder_settled rfl rfl hsettled, ?_⟩
    rintro (error | ⟨⟩) _ rfl
    · trivial
    · refine send_inOrder network (hsettled.append (by simp [isCreation])) ?_
      simpa only [checked, hvalidate, if_true] using hsend
  · simp only [activate, hvalidate, Bool.false_eq_true, if_false]
    refine send_inOrder network hsettled ?_
    simpa only [checked, hvalidate, Bool.false_eq_true, if_false, List.append_nil] using hsend

theorem upgrade_inOrder {located : List Turn} (h : Located request artifact proxy located)
    (state : State) :
    (upgrade (asking aliasing network) request artifact proxy state).Obeys
      (rules request aliasing) located (Action.Yielding fun turns _ => Settled request turns) := by
  simp only [upgrade, Action.obeys_bind_yielding]
  refine (currentOf_inOrder h.settled).mono ?_
  rintro turns (error | current) hcurrent
  · trivial
  obtain ⟨rfl, hzero⟩ := hcurrent
  have hsettled : Settled request (located ++ [⟨currentImplementation proxy, .ok current⟩]) :=
    h.settled.append (by simp [isCreation])
  refine ⟨inOrder_settled rfl rfl hsettled, ?_⟩
  rintro (error | candidate) _ rfl
  · trivial
  refine ⟨inOrder_settled rfl rfl (hsettled.append (by simp [isCreation])), ?_⟩
  rintro (error | group) _ rfl
  · trivial
  -- The three turns since are what a call has to be preceded by.
  have hturns : located ++ [⟨currentImplementation proxy, .ok current⟩] ++
      [⟨prepareUpgrade proxy artifact request.options, .ok candidate⟩] ++
      [⟨recordAlias (artifact.codeHash request.options.constructorArgs) candidate, .ok group⟩] =
      located ++ prepared request artifact proxy current candidate group := by
    simp [prepared]
  rw [hturns]
  have hprepared :
      Settled request (located ++ prepared request artifact proxy current candidate group) :=
    h.settled.append_quiet quiet_prepared
  refine (same_inOrder hprepared).mono ?_
  rintro turns (error | same) hsame
  · trivial
  obtain ⟨compared, rfl, hcompared, hdiffer⟩ := hsame
  cases same with
  | true => exact hprepared.append_quiet hcompared
  | false =>
    obtain ⟨hne, hdiffer⟩ := hdiffer rfl
    simp only [Bool.false_eq_true, if_false, Action.yielding_ok, Action.obeys_bind_yielding]
    refine (activate_inOrder h hcompared hzero hne hdiffer).mono ?_
    rintro turns (error | outcome) hactivated
    · trivial
    rcases state.advance .upgraded with error | state
    · trivial
    · exact hactivated

/-- A deployment keeps to the rule; the explorer is asked last, when every proxy is on record. -/
theorem record_inOrder :
    (record (asking aliasing network) request).Obeys (rules request aliasing) []
      (Action.Yielding fun _ _ => True) := by
  simp only [record, Action.obeys_bind_yielding]
  refine ⟨inOrder_settled rfl rfl (settled_of_no_creation (by simp)), ?_⟩
  rintro (error | artifact) _ rfl
  · trivial
  refine (locate_inOrder .initial).mono ?_
  rintro turns (error | ⟨proxy, state⟩) hlocated
  · trivial
  refine (upgrade_inOrder hlocated state).mono ?_
  rintro turns (error | ⟨implementation, activation, state⟩) hsettled
  · trivial
  simp only [Action.yielding_ok, verify]
  split
  · exact ⟨inOrder_settled rfl rfl hsettled, fun _ _ _ => trivial⟩
  · exact ⟨inOrder_settled rfl rfl hsettled, fun _ _ _ => trivial⟩

end Steps

/-! ### Whole runs -/

/-- **The calls of a deployment are in order**, for every request and whatever its collaborators
answer. The first part says that a deployment with any collaborators is its dialogue answered by
them; the second that in every run of that dialogue each call is one that the rule permits after the
calls before it. -/
theorem calls_in_order {m : Type → Type} [Monad m] [LawfulMonad m] (o : Orchestrator m)
    (request : Request) (session : Session) :
    (run o request session = do
      let record ← Action.answeredBy o.collaborators.reply (record o.collaborators.asked request)
      pure (record, session.insert record)) ∧
    ∀ turns result, Dialogue.Run (record o.collaborators.asked request).run turns result →
      ∀ before turn after, turns = before ++ turn :: after →
        InOrder request o.comparator.aliasing before turn.1 := by
  refine ⟨?_, fun turns result hrun before turn after hsplit => ?_⟩
  · rw [run, record_eq_answeredBy]
  · have hsteps := Dialogue.Rules.history_steps (InOrder request o.comparator.aliasing) [] turns
    obtain ⟨past, hpast, hpermits⟩ := hrun.permitted hsteps record_inOrder before turn after hsplit
    obtain rfl : past = before := Dialogue.Rules.eq_append_of_history_steps hpast
    exact hpermits

/-! A run that creates a proxy and upgrades it at once, with everything answered in its favour. -/

/-- What collaborators do that are out of reach. -/
def unreachable {α : Type} : Action Id α := throw (.network "unreachable")

/-- An orchestrator whose collaborators are all out of reach; implementations are compared by their
addresses only. -/
def Orchestrator.isolated : Orchestrator Id where
  backend := ⟨fun _ => unreachable, fun _ _ _ => unreachable, fun _ _ _ => unreachable,
    fun _ => unreachable, fun _ => unreachable, fun _ _ _ => unreachable⟩
  registry := ⟨fun _ => unreachable, fun _ _ => unreachable, unreachable⟩
  comparator := ⟨⟨fun _ _ => unreachable, fun _ => unreachable, fun _ => unreachable, unreachable⟩,
    false⟩
  verification := .disabled
  route := .direct .once
  signer := ⟨.zero, fun _ => unreachable, fun _ => unreachable, fun _ => unreachable⟩
  clock := ⟨0, fun _ => ()⟩
  network := unknownNetwork

/-- A request with nothing but the name of an artifact. -/
def Request.plain (artifact : String) : Request := ⟨⟨artifact, []⟩, none, [], .standard⟩

/-- The turns up to the call that activates new code behind a new proxy. -/
def turnsBeforeSend (artifact : Artifact) (proxy current candidate : Address) : List Turn :=
  [⟨.artifact artifact.name, .ok artifact⟩, ⟨registered artifact.name, .ok none⟩,
    ⟨createProxy artifact [] .standard, .ok proxy⟩, ⟨registered artifact.name, .ok none⟩,
    ⟨register artifact.name proxy, .ok ()⟩] ++
  prepared (.plain artifact.name) artifact proxy current candidate
    ⟨artifact.codeHash [], candidate, []⟩ ++
  [⟨validateUpgrade proxy candidate artifact, .ok ()⟩]

theorem calls_in_order_upgraded :
    InOrder (.plain "Stub") false (turnsBeforeSend ⟨"Stub", [1]⟩ ⟨1⟩ ⟨2⟩ ⟨3⟩)
      (send (.upgrade ⟨1⟩ ⟨3⟩ [])) := by
  let receipt : Receipt := ⟨.zero, none, none, true⟩
  have hrun : Dialogue.Run (record Orchestrator.isolated.collaborators.asked (.plain "Stub")).run
      (turnsBeforeSend ⟨"Stub", [1]⟩ ⟨1⟩ ⟨2⟩ ⟨3⟩ ++
        [⟨send (.upgrade ⟨1⟩ ⟨3⟩ []), .ok (.mined receipt)⟩,
          ⟨verifyProxy ⟨1⟩ ⟨3⟩ "Stub" [], .disabled⟩])
      (.ok ⟨⟨"Stub", []⟩, none, ⟨1⟩, ⟨3⟩, .upgraded, false, some (.mined receipt)⟩) :=
    .ask _ (.ask _ (.ask _ (.ask _ (.ask _ (.ask _ (.ask _ (.ask _ (.ask _ (.ask _ (.ask _
      (.done _)))))))))))
  exact (calls_in_order Orchestrator.isolated (.plain "Stub") .empty).2 _ _ hrun _ _ _ rfl

end ProxyUpgrade.Deploy
