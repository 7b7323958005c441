import Mathlib.Logic.Function.Basic
import ProxyUpgrade.Proofs.Chain.Upgrade
import ProxyUpgrade.Proofs.Deploy.Outcome
import ProxyUpgrade.Proofs.Deploy.Session
/-!
# The slots of proxies

A record reports an implementation. What the proxy really runs is what a chain keeps in the proxy's
slot, and the two are worked out apart: the one from the answers of the backend, the other by the
calls that are mined. `Deploy.Chain` is what has to be known of a chain for this, and
`Chain.Answers` which answers it allows: nothing is written to the slot of a contract that is there,
except by an upgrade of it that is mined. What the router says of a call that it has sent depends on
the route: the direct one says that the call was mined, the one to a wallet that it waits
(`Deploy.outcome_of_route`).

The main statement is `Deploy.record_truthful`.
-/

namespace ProxyUpgrade.Deploy

open Question

/-! ### Chains -/

/-- The contracts on a chain, and what each keeps in the slot for the implementation of a proxy. -/
structure Chain where
  there : Address → Prop
  slot : Address → Address

namespace Chain

/-- An upgrade is mined. -/
def upgrade (s : Chain) (proxy implementation : Address) : Chain :=
  { s with slot := Function.update s.slot proxy implementation }

/-- **Nothing is written to a slot** of a contract that is there. There may be more contracts. -/
structure Keeps (s s' : Chain) : Prop where
  there : ∀ address, s.there address → s'.there address
  slot : ∀ address, s.there address → s'.slot address = s.slot address

/-- A call is mined, if it is one that upgrades. -/
def Mines (s : Chain) (call : Call) (s' : Chain) : Prop :=
  ∃ proxy implementation data, call = .upgrade proxy implementation data ∧
    (s.upgrade proxy implementation).Keeps s'

/-- What becomes of a call that is sent. On the route to a wallet it waits there; on the direct one
it is mined, or else the router reports a failure. -/
def Sends (viaWallet : Bool) (s : Chain) (call : Call) (s' : Chain) :
    Except Error Route.Outcome → Prop
  | .ok outcome => outcome.isPending = viaWallet ∧
    if viaWallet then s.Keeps s' else s.Mines call s'
  | .error _ => s.Keeps s' ∨ viaWallet = false ∧ s.Mines call s'

/-- **The answers that a chain allows**, each with the chain that it leads to. Of a new proxy and of
one that is found to exist there is a contract, and its current implementation is what its slot
holds. -/
def Answers (viaWallet : Bool) (s : Chain) : (question : Question) → question.Answer → Chain → Prop
  | .createProxy .., answer, s' => s.Keeps s' ∧ ∀ proxy, answer = .ok proxy → s'.there proxy
  | .contractExists address, answer, s' => s.Keeps s' ∧ (answer = .ok true → s.there address)
  | .currentImplementation proxy, answer, s' =>
    s.Keeps s' ∧ ∀ current, answer = .ok current → s.slot proxy = current
  | .send call, answer, s' => s.Sends viaWallet call s' answer
  | _, _, s' => s.Keeps s'

/-- The rules of a chain. -/
def rules (viaWallet : Bool) : Dialogue.Rules Chain Question Question.Answer where
  permits _ _ := True
  answers := Answers viaWallet

section Laws

variable {viaWallet : Bool} {s s₁ s' : Chain} {turns : List Turn} {request : Request}
  {artifact : Artifact} {proxy : Address}

theorem keeps_refl (s : Chain) : s.Keeps s := ⟨fun _ h => h, fun _ _ => rfl⟩

theorem Keeps.trans (h : s.Keeps s₁) (h' : s₁.Keeps s') : s.Keeps s' where
  there address hs := h'.there address (h.there address hs)
  slot address hs := (h'.slot address (h.there address hs)).trans (h.slot address hs)

theorem answers_aside {question : Question} {answer : question.Answer}
    (haside : question.isAside = true) (h : s.Answers viaWallet question answer s') :
    s.Keeps s' := by
  cases question <;> first | exact h | cases haside

/-- Asides write nothing. -/
theorem keeps_of_asides (hasides : ∀ turn ∈ turns, turn.1.isAside = true)
    (h : (rules viaWallet).Steps s turns s') : s.Keeps s' := by
  induction h with
  | nil s => exact keeps_refl s
  | cons first _ ih =>
    have hfirst := answers_aside (hasides _ List.mem_cons_self) first
    exact hfirst.trans (ih fun turn hturn => hasides turn (List.mem_cons_of_mem _ hturn))

/-- There is a contract where a proxy has been located. -/
theorem there_of_located (hlocated : Located request artifact proxy turns)
    (h : (rules viaWallet).Steps s turns s') : s'.there proxy := by
  cases hlocated with
  | found hid =>
    simp only [Dialogue.Rules.steps_cons, Dialogue.Rules.steps_nil] at h
    obtain ⟨_, -, _, -, s₃, ⟨hkeeps, hthere⟩, rfl⟩ := h
    exact hkeeps.there proxy (hthere rfl)
  | created hid data =>
    simp only [Dialogue.Rules.steps_cons, Dialogue.Rules.steps_nil] at h
    obtain ⟨_, -, _, -, s₃, ⟨-, hnew⟩, s₄, hkeeps, s₅, hkeeps', rfl⟩ := h
    exact Keeps.there hkeeps' proxy (Keeps.there hkeeps proxy (hnew proxy rfl))
  | present hid data =>
    simp only [Dialogue.Rules.steps_cons, Dialogue.Rules.steps_nil] at h
    obtain ⟨_, -, _, -, s₃, ⟨-, hnew⟩, s₄, hkeeps, rfl⟩ := h
    exact Keeps.there hkeeps proxy (hnew proxy rfl)

/-- The current implementation is what the slot holds, and goes on to hold while another one is
prepared. -/
theorem slot_of_prepared {current candidate : Address} {group : History.Group}
    (hproxy : s.there proxy)
    (h : (rules viaWallet).Steps s
      (prepared request artifact proxy current candidate group) s') :
    s'.there proxy ∧ s'.slot proxy = current := by
  simp only [prepared, Dialogue.Rules.steps_cons, Dialogue.Rules.steps_nil] at h
  obtain ⟨s₁, ⟨hkeeps, hcurrent⟩, s₂, hprepared, s₃, hrecorded, rfl⟩ := h
  have hkeeps := hkeeps.trans (Keeps.trans hprepared hrecorded)
  exact ⟨hkeeps.there proxy hproxy, (hkeeps.slot proxy hproxy).trans (hcurrent current rfl)⟩

/-- **What slots show** when a deployment has ended. On the direct route the record has the
implementation in the slot. On the route to a wallet the slot holds what was asked for and answered
once in the run, and the record has another implementation only if a proposal waits. -/
structure Shows (viaWallet : Bool) (turns : List Turn) (record : Record) (s : Chain) : Prop where
  direct : viaWallet = false → s.slot record.proxy = record.implementation
  wallet : viaWallet = true → ∃ current,
    (∀ answer, ⟨currentImplementation record.proxy, answer⟩ ∈ turns ↔ answer = .ok current) ∧
    s.slot record.proxy = current ∧
    (record.implementation ≠ current →
      ∃ wallet hash, record.activation = some (.proposed wallet hash))

/-- Only the turns that prepare an upgrade ask for the current implementation. -/
theorem mem_current {current candidate : Address} {group : History.Group}
    {asides : List Turn} (hlocated : Located request artifact proxy turns)
    (hasides : ∀ turn ∈ asides, turn.1.isAside = true) (answer : Except Error Address) :
    ⟨currentImplementation proxy, answer⟩ ∈
        turns ++ (prepared request artifact proxy current candidate group ++ asides) ↔
      answer = .ok current := by
  have haside : ⟨currentImplementation proxy, answer⟩ ∉ asides := fun hmem => by
    simpa [isAside] using hasides _ hmem
  have hnot : ⟨currentImplementation proxy, answer⟩ ∉ turns := by
    cases hlocated <;> simp
  simp [hnot, haside, prepared]

/-- The slot when all has been prepared, and nothing sent yet. -/
theorem slot_of_middle {current candidate : Address} {group : History.Group}
    {asides : List Turn} (hlocated : Located request artifact proxy turns)
    (hasides : ∀ turn ∈ asides, turn.1.isAside = true)
    (h : (rules viaWallet).Steps s
      (turns ++ (prepared request artifact proxy current candidate group ++ asides)) s') :
    s'.there proxy ∧ s'.slot proxy = current := by
  obtain ⟨s₁, hfirst, hmiddle⟩ := h.exists_of_append
  obtain ⟨s₂, hprepared, hrest⟩ := hmiddle.exists_of_append
  obtain ⟨hthere, hslot⟩ := slot_of_prepared (there_of_located hlocated hfirst) hprepared
  have hkeeps := keeps_of_asides hasides hrest
  exact ⟨hkeeps.there proxy hthere, (hkeeps.slot proxy hthere).trans hslot⟩

/-- **The slots show what the record of a deployment says.** -/
theorem shows_of_completed {record : Record} (hcompleted : Completed request turns record)
    (h : (rules viaWallet).Steps s turns s') : Shows viaWallet turns record s' := by
  cases hcompleted with
  | @unchanged artifact proxy current candidate group located asides hlocated hasides verified =>
    obtain ⟨-, hslot⟩ := slot_of_middle hlocated hasides h
    exact ⟨fun _ => hslot, fun _ => ⟨current, mem_current hlocated hasides, hslot, by simp⟩⟩
  | @activated artifact proxy current candidate group located asides rest hlocated hasides outcome
      hrest verified =>
    obtain ⟨s₁, hmiddle, hafter⟩ := h.exists_of_append
    obtain ⟨hthere, hslot⟩ := slot_of_middle hlocated hasides hmiddle
    obtain ⟨s₂, ⟨hpending, hsent⟩, hasides'⟩ := Dialogue.Rules.steps_cons.mp hafter
    have hkeeps := keeps_of_asides hrest hasides'
    cases viaWallet with
    | false =>
      obtain ⟨proxy', implementation, data, hcall, hmined⟩ := hsent
      obtain ⟨rfl, rfl⟩ := Call.upgrade_inj hcall
      have hkept := hmined.trans hkeeps
      refine ⟨fun _ => ?_, by simp⟩
      exact (hkept.slot proxy hthere).trans (by simp [upgrade])
    | true =>
      have hkept := Keeps.trans hsent hkeeps
      refine ⟨by simp, fun _ => ⟨current, fun answer => ?_, ?_, fun _ => ?_⟩⟩
      · have hnot : ⟨currentImplementation proxy, answer⟩ ∉ rest := fun hmem => by
          simpa [isAside] using hrest _ hmem
        rw [List.mem_append, mem_current hlocated hasides, List.mem_cons]
        simp [hnot]
      · exact (hkept.slot proxy hthere).trans hslot
      · rcases outcome with receipt | ⟨wallet, hash⟩
        · cases hpending
        · exact ⟨wallet, hash, rfl⟩

end Laws

end Chain

/-! ### Whole deployments -/

section Whole

variable {m : Type → Type} [Monad m] [LawfulMonad m]

/-- **What the router says depends on the route** only: it never says of a call that it waits unless
it was proposed to a wallet, and of those it always does. -/
theorem outcome_of_route (o : Orchestrator m) (call : Call) :
    ∃ sent : Action m {outcome : Route.Outcome // outcome.isPending = o.route.isWallet},
      o.collaborators.send call = Subtype.val <$> sent := by
  have hsend : o.collaborators.send call = o.route.send o.clock o.signer call := rfl
  rw [hsend]
  rcases o.route with retry | proposer
  · refine ⟨do pure ⟨.mined (← retry.run o.clock (o.signer.send call)), rfl⟩, ?_⟩
    simp [Route.send]
  · refine ⟨do
      pure ⟨.proposed proposer.wallet (← proposer.propose o.clock o.signer call), rfl⟩, ?_⟩
    simp [Route.send]

/-- **Every record is truthful**, for every request and whatever the collaborators answer.

The first part says that a deployment is its dialogue, answered by the collaborators, the second
what the router can answer, and the third what a session has afterwards. In every run of the
dialogue, no move of the status is refused unless the last collaborator says so; a record tells what
has been sent and created; and the chain that the turns have led to shows the implementation that
the record has. -/
theorem record_truthful (o : Orchestrator m) (request : Request) (session : Session) :
    (run o request session = do
      let record ← Action.answeredBy o.collaborators.reply (record o.collaborators.asked request)
      pure (record, session.insert record)) ∧
    (∀ call, ∃ sent : Action m {outcome : Route.Outcome // outcome.isPending = o.route.isWallet},
      o.collaborators.send call = Subtype.val <$> sent) ∧
    (∀ record proxy, (session.insert record).get? proxy =
      if proxy = record.proxy then some record else session.get? proxy) ∧
    ∀ turns result, Dialogue.Run (record o.collaborators.asked request).run turns result →
      (∀ attempted current, result = .error (.illegalTransition attempted current) →
        ∃ before turn, turns = before ++ [turn] ∧
          turn.1.failure? turn.2 = some (.illegalTransition attempted current)) ∧
      ∀ record, result = .ok record → Tells turns record ∧
        ∀ s s', (Chain.rules o.route.isWallet).Steps s turns s' →
          Chain.Shows o.route.isWallet turns record s' := by
  refine ⟨?_, outcome_of_route o, session.get?_insert, fun turns result hrun => ?_⟩
  · rw [run, record_eq_answeredBy]
  have hsteps : anything.Steps [] turns ([] ++ turns) := Dialogue.Rules.history_steps _ [] turns
  have hends : Ends (Completed request) turns result := hrun.post hsteps record_ends
  constructor
  · rintro attempted current rfl
    exact Explained.answered hends
  · rintro record rfl
    exact ⟨Completed.tells hends, fun s s' h => Chain.shows_of_completed hends h⟩

end Whole

/-! A proxy that is created and upgraded at once, on a chain that is empty before. -/

/-- The receipt of the upgrade. -/
def plainReceipt : Receipt := ⟨.zero, none, none, true⟩

/-- The turns of the whole run. -/
def upgradedTurns : List Turn :=
  turnsBeforeSend ⟨"Stub", [1]⟩ ⟨1⟩ ⟨2⟩ ⟨3⟩ ++
    [⟨send (.upgrade ⟨1⟩ ⟨3⟩ []), .ok (.mined plainReceipt)⟩,
      ⟨verifyProxy ⟨1⟩ ⟨3⟩ "Stub" [], .disabled⟩]

/-- The record of the run. -/
def upgradedRecord : Record :=
  ⟨⟨"Stub", []⟩, none, ⟨1⟩, ⟨3⟩, .upgraded, false, some (.mined plainReceipt)⟩

/-- The chain once the proxy has been created in front of its first implementation. -/
def createdChain : Chain := ⟨fun address => address = ⟨1⟩, fun _ => ⟨2⟩⟩

/-- The empty chain. -/
def emptyChain : Chain := ⟨fun _ => False, fun _ => .zero⟩

theorem upgradedTurns_steps :
    (Chain.rules false).Steps emptyChain upgradedTurns (createdChain.upgrade ⟨1⟩ ⟨3⟩) := by
  have hkeeps := Chain.keeps_refl
  have hcreated : emptyChain.Answers false (createProxy ⟨"Stub", [1]⟩ [] .standard) (.ok ⟨1⟩)
      createdChain := by
    refine ⟨⟨nofun, nofun⟩, ?_⟩
    rintro _ ⟨⟩
    exact rfl
  have hcurrent : createdChain.Answers false (currentImplementation ⟨1⟩) (.ok ⟨2⟩)
      createdChain := by
    refine ⟨hkeeps _, ?_⟩
    rintro _ ⟨⟩
    exact rfl
  have hsent : createdChain.Answers false (send (.upgrade ⟨1⟩ ⟨3⟩ [])) (.ok (.mined plainReceipt))
      (createdChain.upgrade ⟨1⟩ ⟨3⟩) :=
    ⟨rfl, ⟨1⟩, ⟨3⟩, [], rfl, hkeeps _⟩
  exact .cons (hkeeps _) (.cons (hkeeps _) (.cons hcreated (.cons (hkeeps _) (.cons (hkeeps _)
    (.cons hcurrent (.cons (hkeeps _) (.cons (hkeeps _) (.cons (hkeeps _) (.cons hsent
      (.cons (hkeeps _) (.nil _)))))))))))

theorem record_truthful_upgraded :
    Tells upgradedTurns upgradedRecord ∧
      Chain.Shows false upgradedTurns upgradedRecord (createdChain.upgrade ⟨1⟩ ⟨3⟩) := by
  have hrun : Dialogue.Run (record Orchestrator.isolated.collaborators.asked (.plain "Stub")).run
      upgradedTurns (.ok upgradedRecord) :=
    .ask _ (.ask _ (.ask _ (.ask _ (.ask _ (.ask _ (.ask _ (.ask _ (.ask _ (.ask _ (.ask _
      (.done _)))))))))))
  have htruthful := (record_truthful Orchestrator.isolated (.plain "Stub") .empty).2.2.2
  obtain ⟨htells, hshows⟩ := (htruthful _ _ hrun).2 _ rfl
  exact ⟨htells, hshows _ _ upgradedTurns_steps⟩

end ProxyUpgrade.Deploy
