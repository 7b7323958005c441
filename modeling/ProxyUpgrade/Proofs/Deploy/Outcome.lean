import ProxyUpgrade.Proofs.Deploy.Order
/-!
# What a deployment reports

A deployment moves its status on in two places, hands on an outcome of the router, and reports an
implementation that it has worked out on one of several branches. All of this has to tell what has
happened:

* no move of the status is refused, so a refusal can only come from a collaborator;
* the status says whether a call was sent, and if not whether a proxy was created;
* the implementation is the one in the proxy's slot, unless a proposal to a wallet still waits.

`Deploy.Completed` lists the turns that a deployment may have taken when it yields a record, with
what the record says then. Everything else is read off these lists. For the slots, a `Deploy.Chain`
says which proxies there are and what they keep; it only changes the slot of a proxy when an upgrade
of it is mined.
-/

namespace ProxyUpgrade.Deploy

open Question

/-! ### What turns say -/

namespace Question

/-- The failure that a call was answered with. -/
def failure? : (question : Question) → question.Answer → Option Error
  | artifact _, .error e | createProxy .., .error e | prepareUpgrade .., .error e
  | currentImplementation _, .error e | contractExists _, .error e | validateUpgrade .., .error e
  | registered _, .error e | register .., .error e | entries, .error e | recordAlias .., .error e
  | groupOfAddress _, .error e | groupOfCode _, .error e | groups, .error e | send _, .error e =>
    some e
  | _, _ => none

/-- Whether a call is one that leaves the chain alone and tells nothing of it. -/
def isAside : Question → Bool
  | groups | validateUpgrade .. | verifySource .. | verifyProxy .. => true
  | _ => false

end Question

/-- Whether a proxy was created. -/
def hasCreated : Turn → Bool
  | ⟨createProxy .., .ok _⟩ => true
  | _ => false

/-- Whether a call was sent. -/
def hasSent : Turn → Bool
  | ⟨send _, .ok _⟩ => true
  | _ => false

/-- **The status that the turns of a deployment amount to.** -/
def statusOf (turns : List Turn) : Status :=
  if turns.any hasSent then .upgraded else if turns.any hasCreated then .deployed else .none

/-- The failures that a deployment finds by itself: in the key, in the arguments, or in what the
registry and the chain say of a proxy. -/
inductive OwnFailure : Error → Prop
  | config (reason : String) : OwnFailure (.config reason)
  | encoding (reason : String) : OwnFailure (.encoding reason)
  | registryInconsistency (reason : String) : OwnFailure (.registryInconsistency reason)

/-- **A failure is explained** by the turns: a collaborator has answered with it in the last one, or
it is one that a deployment finds by itself. -/
def Explained (turns : List Turn) (e : Error) : Prop :=
  (∃ before turn, turns = before ++ [turn] ∧ turn.1.failure? turn.2 = some e) ∨ OwnFailure e

/-- How an action ends: with a value of which something holds, or with a failure that is
explained. -/
def Ends {α : Type} (post : List Turn → α → Prop) (turns : List Turn) : Except Error α → Prop
  | .ok a => post turns a
  | .error e => Explained turns e

@[simp] theorem ends_ok {α : Type} {post : List Turn → α → Prop} {turns : List Turn} {a : α} :
    Ends post turns (.ok a) ↔ post turns a := Iff.rfl

/-- The rules under which anything may be asked. -/
def anything : Dialogue.Rules (List Turn) Question Question.Answer := .history fun _ _ => True

/-! ### The turns of a whole deployment -/

/-- **The turns of a deployment that yields a record**, and what the record says. -/
inductive Completed (request : Request) : List Turn → Record → Prop
  /-- The implementation is the same, so the record has the current one. -/
  | unchanged {artifact : Artifact} {proxy current candidate : Address} {group : History.Group}
      {located asides : List Turn} (hlocated : Located request artifact proxy located)
      (hasides : ∀ turn ∈ asides, turn.1.isAside = true) (verified : Bool) :
    Completed request
      (located ++ (prepared request artifact proxy current candidate group ++ asides))
      ⟨request.name, request.instanceId, proxy, current, statusOf located, verified, none⟩
  /-- The implementation is another, and the call that activates it has been sent. -/
  | activated {artifact : Artifact} {proxy current candidate : Address} {group : History.Group}
      {located asides rest : List Turn} (hlocated : Located request artifact proxy located)
      (hasides : ∀ turn ∈ asides, turn.1.isAside = true) (outcome : Route.Outcome)
      (hrest : ∀ turn ∈ rest, turn.1.isAside = true) (verified : Bool) :
    Completed request
      (located ++ (prepared request artifact proxy current candidate group ++ asides) ++
        ⟨send (.upgrade proxy candidate request.options.upgradeData), .ok outcome⟩ :: rest)
      ⟨request.name, request.instanceId, proxy, candidate, .upgraded, verified, some outcome⟩

section Steps

variable {request : Request} {aliasing : Bool} {network : String} {artifact : Artifact}
  {proxy : Address} {past : List Turn}

/-- The last turn explains the failure it was answered with. -/
theorem explained_last {turn : Turn} {e : Error} (h : turn.1.failure? turn.2 = some e) :
    Explained (past ++ [turn]) e :=
  .inl ⟨past, turn, rfl, h⟩

theorem argumentNames_failure {args : List Abi.Value} {e : Error}
    (h : Abi.argumentNames args = .error e) : OwnFailure e := by
  induction args with
  | nil => cases h
  | cons arg rest ih =>
    rw [Abi.argumentNames] at h
    split at h
    · rcases hrest : Abi.argumentNames rest with e' | names
      · rw [hrest] at h
        obtain rfl : e' = e := by simpa [bind, Except.bind] using h
        exact ih hrest
      · rw [hrest] at h
        cases h
    · cases h
      exact .encoding _

theorem initializerData_failure {args : List Abi.Value} {initializer : Option String} {e : Error}
    (h : initializerData args initializer = .error e) : OwnFailure e := by
  rcases initializer with - | signature
  · by_cases hargs : args.isEmpty
    · simp [initializerData, hargs] at h
    · rcases hnames : Abi.argumentNames args with e' | names
      · obtain rfl : e' = e := by
          simpa [initializerData, hargs, Abi.signature, hnames, bind, Except.bind] using h
        exact argumentNames_failure hnames
      · simp [initializerData, hargs, Abi.signature, hnames, bind, Except.bind, pure,
          Except.pure] at h
  · cases h

theorem id_failure {key : Key} {e : Error} (h : key.id = .error e) : OwnFailure e := by
  rw [Key.id] at h
  split at h
  · cases h
    exact .config _
  · cases h

/-- A proxy that is saved has been put on record, or was there already. -/
theorem saveProxy_ends {id : String} (hid : request.key.id = .ok id) :
    (Registry.saveProxy (asking aliasing network).registry request.key proxy).Obeys anything past
      (Ends fun turns _ =>
        turns = past ++ [⟨registered id, .ok none⟩, ⟨register id proxy, .ok ()⟩] ∨
          turns = past ++ [⟨registered id, .ok (some proxy)⟩]) := by
  simp only [Registry.saveProxy, Action.obeys_bind, hid, Action.obeys_ofExcept]
  refine ⟨trivial, ?_⟩
  rintro (e | _ | existing) _ rfl
  · exact explained_last rfl
  · refine ⟨trivial, ?_⟩
    rintro (e | ⟨⟩) _ rfl
    · exact explained_last rfl
    · exact .inl (by simp)
  · simp only [Dialogue.obeys_done]
    split
    next heq =>
      subst heq
      exact .inr rfl
    next => exact .inr (.registryInconsistency _)

/-- A new proxy has been located once it is on record, and the status says that it is new. -/
theorem create_ends {id : String} (hid : request.key.id = .ok id) :
    (do
      let data ← Action.ofExcept (initializerData request.initArgs request.options.initializer)
      let proxy ← (asking aliasing network).backend.createProxy artifact data request.options
      Registry.saveProxy (asking aliasing network).registry request.key proxy
      let state ← Action.ofExcept (State.initial.advance .deployed)
      pure (proxy, state) : Action Talk (Address × State)).Obeys anything
      [⟨.artifact request.name.artifact, .ok artifact⟩, ⟨registered id, .ok none⟩]
      (Ends fun turns located => Located request artifact located.1 turns ∧
        located.2.status = statusOf turns) := by
  simp only [Action.obeys_bind, Action.obeys_ofExcept]
  rcases hdata : initializerData request.initArgs request.options.initializer with e | data
  · exact .inr (initializerData_failure hdata)
  refine ⟨trivial, ?_⟩
  rintro (e | proxy) _ rfl
  · exact explained_last rfl
  refine (saveProxy_ends hid).mono ?_
  rintro turns (e | _) hsaved
  · exact hsaved
  rcases hsaved with rfl | rfl
  · exact ⟨.created hid data, rfl⟩
  · exact ⟨.present hid data, rfl⟩

theorem locate_ends :
    (locate (asking aliasing network) request artifact .initial).Obeys anything
      [⟨.artifact request.name.artifact, .ok artifact⟩]
      (Ends fun turns located => Located request artifact located.1 turns ∧
        located.2.status = statusOf turns) := by
  simp only [locate, Registry.proxyAddress, Action.obeys_bind, Action.obeys_ofExcept]
  rcases hid : request.key.id with e | id
  · exact .inr (id_failure hid)
  refine ⟨trivial, ?_⟩
  -- The registry fails, has no proxy, or has one.
  rintro (e | _ | proxy) _ rfl
  · exact explained_last rfl
  · exact create_ends hid
  · refine Action.obeys_bind.mpr ⟨trivial, ?_⟩
    rintro (e | _ | _) _ rfl
    · exact explained_last rfl
    · exact .inr (.registryInconsistency _)
    · exact ⟨.found hid, rfl⟩

theorem currentOf_ends {key : Key} :
    (currentOf (asking aliasing network) key proxy).Obeys anything past
      (Ends fun turns current => turns = past ++ [⟨currentImplementation proxy, .ok current⟩]) := by
  refine Action.obeys_bind.mpr ⟨trivial, ?_⟩
  rintro (e | current) _ rfl
  · exact explained_last rfl
  simp only [Dialogue.obeys_done]
  split
  · exact .inr (.registryInconsistency _)
  · exact rfl

theorem same_ends {a b : Address} :
    ((asking aliasing network).comparator.same a b).Obeys anything past
      (Ends fun turns _ => ∃ asides, turns = past ++ asides ∧
        ∀ turn ∈ asides, turn.1.isAside = true) := by
  rw [History.Comparator.same]
  split
  · exact ⟨[], by simp, by simp⟩
  split
  · exact ⟨[], by simp, by simp⟩
  · refine Action.obeys_bind.mpr ⟨trivial, ?_⟩
    rintro (e | groups) _ rfl
    · exact explained_last rfl
    · exact ⟨[⟨.groups, .ok groups⟩], rfl, by simp [isAside]⟩

theorem send_ends (aliasing : Bool) (network : String) (call : Call) :
    ((asking aliasing network).send call).Obeys anything past
      (Ends fun turns outcome => turns = past ++ [⟨send call, .ok outcome⟩]) := by
  refine ⟨trivial, ?_⟩
  rintro (e | outcome) _ rfl
  · exact explained_last rfl
  · exact rfl

theorem activate_ends {candidate : Address} :
    (activate (asking aliasing network) request artifact proxy candidate).Obeys anything past
      (Ends fun turns outcome => ∃ asides,
        turns = past ++ asides ++
          [⟨send (.upgrade proxy candidate request.options.upgradeData), .ok outcome⟩] ∧
        ∀ turn ∈ asides, turn.1.isAside = true) := by
  rw [activate]
  split
  · refine Action.obeys_bind.mpr ⟨trivial, ?_⟩
    rintro (e | ⟨⟩) _ rfl
    · exact explained_last rfl
    refine (send_ends aliasing network _).mono ?_
    rintro turns (e | outcome) hsent
    · exact hsent
    · exact ⟨[⟨validateUpgrade proxy candidate artifact, .ok ()⟩], hsent, by simp [isAside]⟩
  · refine (send_ends aliasing network _).mono ?_
    rintro turns (e | outcome) hsent
    · exact hsent
    · rw [ends_ok] at hsent
      exact ⟨[], by simpa using hsent, by simp⟩

/-- Where a proxy has been located nothing has been sent, so the status may still move on. -/
theorem Located.allowed (h : Located request artifact proxy past) :
    Status.Allowed (statusOf past) .upgraded := by
  cases h <;> simp [Status.Allowed, Status.sources, statusOf, hasSent, hasCreated]

theorem upgrade_ends (hlocated : Located request artifact proxy past) {state : State}
    (hstate : state.status = statusOf past) :
    (upgrade (asking aliasing network) request artifact proxy state).Obeys anything past
      (Ends fun turns upgraded => ∀ rest, (∀ turn ∈ rest, turn.1.isAside = true) →
        ∀ verified, Completed request (turns ++ rest)
          ⟨request.name, request.instanceId, proxy, upgraded.1, upgraded.2.2.status, verified,
            upgraded.2.1⟩) := by
  refine Action.obeys_bind.mpr (currentOf_ends.mono ?_)
  rintro turns (e | current) hcurrent
  · exact hcurrent
  obtain rfl := hcurrent
  refine Action.obeys_bind.mpr ⟨trivial, ?_⟩
  rintro (e | candidate) _ rfl
  · exact explained_last rfl
  refine Action.obeys_bind.mpr ⟨trivial, ?_⟩
  rintro (e | group) _ rfl
  · exact explained_last rfl
  refine Action.obeys_bind.mpr (same_ends.mono ?_)
  rintro turns (e | same) hsame
  · exact hsame
  obtain ⟨asides, rfl, hasides⟩ := hsame
  have hturns : past ++ [⟨currentImplementation proxy, .ok current⟩] ++
      [⟨prepareUpgrade proxy artifact request.options, .ok candidate⟩] ++
      [⟨recordAlias (artifact.codeHash request.options.constructorArgs) candidate, .ok group⟩] =
      past ++ prepared request artifact proxy current candidate group := by
    simp [prepared]
  rw [hturns]
  cases same with
  | true =>
    intro rest hrest verified
    have hall : ∀ turn ∈ asides ++ rest, turn.1.isAside = true := fun turn hturn =>
      (List.mem_append.mp hturn).elim (hasides turn) (hrest turn)
    rw [hstate, List.append_assoc, List.append_assoc]
    exact .unchanged hlocated hall verified
  | false =>
    refine Action.obeys_bind.mpr (activate_ends.mono ?_)
    rintro turns (e | outcome) hactivated
    · exact hactivated
    obtain ⟨checks, rfl, hchecks⟩ := hactivated
    rw [State.advance_of_allowed (hstate ▸ hlocated.allowed)]
    intro rest hrest verified
    have hall : ∀ turn ∈ asides ++ checks, turn.1.isAside = true := fun turn hturn =>
      (List.mem_append.mp hturn).elim (hasides turn) (hchecks turn)
    simpa using Completed.activated hlocated hall outcome hrest verified

/-- **Every deployment ends as listed**, or with a failure that is explained. -/
theorem record_ends :
    (record (asking aliasing network) request).Obeys anything [] (Ends (Completed request)) := by
  refine Action.obeys_bind.mpr ⟨trivial, ?_⟩
  rintro (e | artifact) _ rfl
  · exact explained_last rfl
  refine Action.obeys_bind.mpr (locate_ends.mono ?_)
  rintro turns (e | ⟨proxy, state⟩) hlocated
  · exact hlocated
  refine Action.obeys_bind.mpr ((upgrade_ends hlocated.1 hlocated.2).mono ?_)
  rintro turns (e | ⟨implementation, activation, state⟩) hupgraded
  · exact hupgraded
  refine Action.obeys_bind.mpr (Action.obeys_lift.mpr ?_)
  rw [verify]
  split
  · refine ⟨trivial, ?_⟩
    rintro outcome _ rfl
    exact hupgraded [_] (by simp [isAside]) _
  · refine ⟨trivial, ?_⟩
    rintro outcome _ rfl
    exact hupgraded [_] (by simp [isAside]) _

end Steps

/-- **No move of the status is refused**: where a deployment ends with such a failure, the last
collaborator has answered with it. -/
theorem Explained.answered {attempted current : Status} {turns : List Turn}
    (h : Explained turns (.illegalTransition attempted current)) :
    ∃ before turn, turns = before ++ [turn] ∧
      turn.1.failure? turn.2 = some (.illegalTransition attempted current) := by
  rcases h with hlast | hown
  · exact hlast
  · cases hown

/-! ### Status and activation -/

/-- A call was sent, with such an outcome. -/
def Sent (turns : List Turn) (outcome : Route.Outcome) : Prop :=
  ∃ call, ⟨send call, .ok outcome⟩ ∈ turns

/-- A proxy was created. -/
def Created (turns : List Turn) (proxy : Address) : Prop :=
  ∃ artifact data options, ⟨createProxy artifact data options, .ok proxy⟩ ∈ turns

/-- **A record tells what has happened**: its status whether a call was sent, and else whether the
proxy was created; its activation what became of that call. -/
structure Tells (turns : List Turn) (record : Record) : Prop where
  upgraded : record.status = .upgraded ↔ ∃ outcome, Sent turns outcome
  deployed : record.status = .deployed ↔
    (¬ ∃ outcome, Sent turns outcome) ∧ Created turns record.proxy
  unchanged : record.status = .none ↔
    (¬ ∃ outcome, Sent turns outcome) ∧ ¬ Created turns record.proxy
  present : record.activation.isSome = true ↔ record.status = .upgraded
  activation : ∀ outcome, record.activation = some outcome ↔ Sent turns outcome

section Tells

variable {request : Request} {artifact : Artifact} {proxy : Address} {turns : List Turn}
  {record : Record}

theorem quiet_of_asides (h : ∀ turn ∈ turns, turn.1.isAside = true) : Quiet turns := by
  intro turn hturn
  have haside := h turn hturn
  cases hquestion : turn.1 <;> simp_all [isAside, isCreation, isSend]

theorem not_sent (h : ∀ turn ∈ turns, turn.1.isSend = false) (outcome : Route.Outcome) :
    ¬ Sent turns outcome := by
  rintro ⟨call, hmem⟩
  simpa [isSend] using h _ hmem

theorem not_created (h : ∀ turn ∈ turns, turn.1.isCreation = false) : ¬ Created turns proxy := by
  rintro ⟨artifact, data, options, hmem⟩
  simpa [isCreation] using h _ hmem

/-- What was located was created, or else nothing was. -/
theorem Located.status (h : Located request artifact proxy turns) :
    statusOf turns = .deployed ∧ Created turns proxy ∨
      statusOf turns = .none ∧ ∀ turn ∈ turns, turn.1.isCreation = false := by
  cases h with
  | found hid => exact .inr ⟨rfl, by simp [isCreation]⟩
  | created hid data => exact .inl ⟨rfl, artifact, data, request.options, by simp⟩
  | present hid data => exact .inl ⟨rfl, artifact, data, request.options, by simp⟩

/-- Where nothing was sent, the status tells whether the proxy was created. -/
theorem tells_unsent {middle : List Turn} (hlocated : Located request artifact proxy turns)
    (hmiddle : Quiet middle) (implementation : Address) (verified : Bool) :
    Tells (turns ++ middle) ⟨request.name, request.instanceId, proxy, implementation,
      statusOf turns, verified, none⟩ := by
  have hsent := not_sent (hlocated.no_send_append hmiddle)
  rcases hlocated.status with ⟨hstatus, artifact, data, options, hmem⟩ | ⟨hstatus, hnone⟩
  · have hcreated : Created (turns ++ middle) proxy :=
      ⟨artifact, data, options, List.mem_append_left _ hmem⟩
    rw [hstatus]
    constructor <;> simp [hsent, hcreated]
  · have hcreated : ¬ Created (turns ++ middle) proxy := not_created fun turn hturn =>
      (List.mem_append.mp hturn).elim (hnone turn) fun hturn => (hmiddle turn hturn).1
    rw [hstatus]
    constructor <;> simp [hsent, hcreated]

/-- Where a call was sent, the status says so, and the activation is the outcome. -/
theorem tells_sent {before after : List Turn} (hbefore : ∀ turn ∈ before, turn.1.isSend = false)
    (hafter : ∀ turn ∈ after, turn.1.isSend = false) (call : Call) (outcome : Route.Outcome)
    (implementation : Address) (verified : Bool) :
    Tells (before ++ ⟨send call, .ok outcome⟩ :: after) ⟨request.name, request.instanceId, proxy,
      implementation, .upgraded, verified, some outcome⟩ := by
  have hsent (other : Route.Outcome) :
      Sent (before ++ ⟨send call, .ok outcome⟩ :: after) other ↔ outcome = other := by
    constructor
    · rintro ⟨call', hmem⟩
      rcases List.mem_append.mp hmem with hmem | hmem
      · exact absurd ⟨call', hmem⟩ (not_sent hbefore other)
      · rcases List.mem_cons.mp hmem with heq | hmem
        · cases heq
          rfl
        · exact absurd ⟨call', hmem⟩ (not_sent hafter other)
    · rintro rfl
      exact ⟨call, by simp⟩
  constructor <;> simp [hsent]

/-- **The record of every deployment tells what has happened.** -/
theorem Completed.tells (h : Completed request turns record) : Tells turns record := by
  cases h with
  | unchanged hlocated hasides verified =>
    exact tells_unsent hlocated (quiet_prepared.append (quiet_of_asides hasides)) _ verified
  | activated hlocated hasides outcome hrest verified =>
    refine tells_sent (hlocated.no_send_append ?_) (fun turn hturn => ?_) _ outcome _ verified
    · exact quiet_prepared.append (quiet_of_asides hasides)
    · exact (quiet_of_asides hrest turn hturn).2

end Tells

end ProxyUpgrade.Deploy
