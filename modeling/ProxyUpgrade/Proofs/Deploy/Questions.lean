import ProxyUpgrade.Deploy
import ProxyUpgrade.Proofs.Dialogue
/-!
# What a deployment asks of others

The steps of a deployment run over every monad, so they can be run where every call of a
collaborator is a question. The dialogue that comes out is the deployment itself: with the questions
answered by the collaborators, it is what `Deploy.record` does with these
(`Deploy.record_eq_answeredBy`). A statement about all runs of the dialogue is therefore one about
deployments with any collaborators at all, whatever they answer and whenever they fail.
-/

namespace ProxyUpgrade

/-! ### Questions that are answered at once

What answers the questions of a program can be taken into those whom it works with: it makes no
difference whether they answer each question at once or the whole dialogue is answered
afterwards. -/

section Answers

variable {Q : Type} {A : Q → Type} {m : Type → Type} [Monad m] (reply : (q : Q) → m (A q))

/-- A backend that answers the questions which another would pass on. -/
def Deploy.Backend.answeredBy (backend : Deploy.Backend (Dialogue Q A)) : Deploy.Backend m where
  artifact name := Action.answeredBy reply (backend.artifact name)
  createProxy artifact data options :=
    Action.answeredBy reply (backend.createProxy artifact data options)
  prepareUpgrade proxy artifact options :=
    Action.answeredBy reply (backend.prepareUpgrade proxy artifact options)
  currentImplementation proxy := Action.answeredBy reply (backend.currentImplementation proxy)
  contractExists address := Action.answeredBy reply (backend.contractExists address)
  validateUpgrade proxy candidate artifact :=
    Action.answeredBy reply (backend.validateUpgrade proxy candidate artifact)

/-- The same for a registry. -/
def Registry.Store.answeredBy (store : Registry.Store (Dialogue Q A)) : Registry.Store m where
  get id := Action.answeredBy reply (store.get id)
  set id address := Action.answeredBy reply (store.set id address)
  entries := Action.answeredBy reply store.entries

/-- The same for a history. -/
def History.Store.answeredBy (store : History.Store (Dialogue Q A)) : History.Store m where
  record code address := Action.answeredBy reply (store.record code address)
  ofAddress address := Action.answeredBy reply (store.ofAddress address)
  ofCode code := Action.answeredBy reply (store.ofCode code)
  groups := Action.answeredBy reply store.groups

end Answers

namespace Deploy

/-- A call of a collaborator. -/
inductive Question where
  | artifact (name : String)
  | createProxy (artifact : Artifact) (data : Bytes) (options : Options)
  | prepareUpgrade (proxy : Address) (artifact : Artifact) (options : Options)
  | currentImplementation (proxy : Address)
  | contractExists (address : Address)
  | validateUpgrade (proxy candidate : Address) (artifact : Artifact)
  /-- The address on record under a text. -/
  | registered (id : String)
  /-- Puts an address on record under a text. -/
  | register (id : String) (address : Address)
  | entries
  /-- Puts on record that an address carries a code. -/
  | recordAlias (code : Hash) (address : Address)
  | groupOfAddress (address : Address)
  | groupOfCode (code : Hash)
  | groups
  /-- Sends a call on its way to the chain. -/
  | send (call : Call)
  | verifySource (implementation : Address) (contract : String) (args : Bytes)
  | verifyProxy (proxy implementation : Address) (contract : String) (args : Bytes)

namespace Question

/-- What a call may be answered with. Only a verification cannot fail. -/
abbrev Answer : Question → Type
  | artifact _ => Except Error Artifact
  | createProxy .. => Except Error Address
  | prepareUpgrade .. => Except Error Address
  | currentImplementation _ => Except Error Address
  | contractExists _ => Except Error Bool
  | validateUpgrade .. => Except Error Unit
  | registered _ => Except Error (Option Address)
  | register .. => Except Error Unit
  | entries => Except Error (List Registry.Entry)
  | recordAlias .. => Except Error History.Group
  | groupOfAddress _ => Except Error (Option History.Group)
  | groupOfCode _ => Except Error (Option History.Group)
  | groups => Except Error (List History.Group)
  | send _ => Except Error Route.Outcome
  | verifySource .. => Verification.Outcome
  | verifyProxy .. => Verification.Outcome

/-- Whether a call is one of the registry. -/
def isRegistry : Question → Bool
  | registered _ | register .. | entries => true
  | _ => false

end Question

/-- A call with the answer that was given. -/
abbrev Turn : Type := Dialogue.Turn Question.Answer

/-- A program that asks instead of doing anything. -/
abbrev Talk : Type → Type := Dialogue Question Question.Answer

/-- The program that only asks a question. -/
def Question.put (question : Question) : Talk question.Answer := Dialogue.question question

/-- Collaborators that only pass the questions on. -/
def asking (aliasing : Bool) (network : String) : Collaborators Talk where
  backend := {
    artifact := fun name => ExceptT.mk (Question.artifact name).put
    createProxy := fun artifact data options =>
      ExceptT.mk (Question.createProxy artifact data options).put
    prepareUpgrade := fun proxy artifact options =>
      ExceptT.mk (Question.prepareUpgrade proxy artifact options).put
    currentImplementation := fun proxy => ExceptT.mk (Question.currentImplementation proxy).put
    contractExists := fun address => ExceptT.mk (Question.contractExists address).put
    validateUpgrade := fun proxy candidate artifact =>
      ExceptT.mk (Question.validateUpgrade proxy candidate artifact).put }
  registry := {
    get := fun id => ExceptT.mk (Question.registered id).put
    set := fun id address => ExceptT.mk (Question.register id address).put
    entries := ExceptT.mk Question.entries.put }
  comparator := {
    store := {
      record := fun code address => ExceptT.mk (Question.recordAlias code address).put
      ofAddress := fun address => ExceptT.mk (Question.groupOfAddress address).put
      ofCode := fun code => ExceptT.mk (Question.groupOfCode code).put
      groups := ExceptT.mk Question.groups.put }
    aliasing := aliasing }
  send call := ExceptT.mk (Question.send call).put
  verifySource implementation contract args :=
    (Question.verifySource implementation contract args).put
  verifyProxy proxy implementation contract args :=
    (Question.verifyProxy proxy implementation contract args).put
  network := network

section Answers

variable {m : Type → Type} [Monad m]

/-- How collaborators answer a question. -/
def Collaborators.reply (c : Collaborators m) : (question : Question) → m question.Answer
  | .artifact name => (c.backend.artifact name).outcome
  | .createProxy artifact data options => (c.backend.createProxy artifact data options).outcome
  | .prepareUpgrade proxy artifact options =>
    (c.backend.prepareUpgrade proxy artifact options).outcome
  | .currentImplementation proxy => (c.backend.currentImplementation proxy).outcome
  | .contractExists address => (c.backend.contractExists address).outcome
  | .validateUpgrade proxy candidate artifact =>
    (c.backend.validateUpgrade proxy candidate artifact).outcome
  | .registered id => (c.registry.get id).outcome
  | .register id address => (c.registry.set id address).outcome
  | .entries => c.registry.entries.outcome
  | .recordAlias code address => (c.comparator.store.record code address).outcome
  | .groupOfAddress address => (c.comparator.store.ofAddress address).outcome
  | .groupOfCode code => (c.comparator.store.ofCode code).outcome
  | .groups => c.comparator.store.groups.outcome
  | .send call => (c.send call).outcome
  | .verifySource implementation contract args => c.verifySource implementation contract args
  | .verifyProxy proxy implementation contract args =>
    c.verifyProxy proxy implementation contract args

/-- The same calls as questions. -/
def Collaborators.asked (c : Collaborators m) : Collaborators Talk :=
  asking c.comparator.aliasing c.network

end Answers

/-! ### A deployment with its questions answered -/

section Steps

variable {Q : Type} {A : Q → Type} {m : Type → Type} [Monad m] (reply : (q : Q) → m (A q))

/-- Collaborators that answer the questions which others would pass on. -/
def Collaborators.answeredBy (c : Collaborators (Dialogue Q A)) : Collaborators m where
  backend := c.backend.answeredBy reply
  registry := c.registry.answeredBy reply
  comparator := ⟨c.comparator.store.answeredBy reply, c.comparator.aliasing⟩
  send call := Action.answeredBy reply (c.send call)
  verifySource implementation contract args :=
    (c.verifySource implementation contract args).answeredBy reply
  verifyProxy proxy implementation contract args :=
    (c.verifyProxy proxy implementation contract args).answeredBy reply
  network := c.network

variable [LawfulMonad m] (c : Collaborators (Dialogue Q A))

theorem proxyAddress_answeredBy (key : Key) :
    Action.answeredBy reply (Registry.proxyAddress c.registry key) =
      Registry.proxyAddress (c.answeredBy reply).registry key := by
  rw [Registry.proxyAddress, Action.answeredBy_bind]
  rfl

theorem saveProxy_answeredBy (key : Key) (address : Address) :
    Action.answeredBy reply (Registry.saveProxy c.registry key address) =
      Registry.saveProxy (c.answeredBy reply).registry key address := by
  simp only [Registry.saveProxy, Action.answeredBy_bind]
  refine bind_congr fun id => bind_congr fun existing => ?_
  rcases existing with - | existing
  · rfl
  · dsimp only
    split <;> rfl

theorem locate_answeredBy (request : Request) (artifact : Artifact) (state : State) :
    Action.answeredBy reply (locate c request artifact state) =
      locate (c.answeredBy reply) request artifact state := by
  simp only [locate, Action.answeredBy_bind, proxyAddress_answeredBy]
  refine bind_congr fun proxy => ?_
  rcases proxy with - | proxy
  · simp only [Action.answeredBy_bind, saveProxy_answeredBy]
    rfl
  · simp only [Action.answeredBy_bind]
    refine bind_congr fun found => ?_
    split <;> rfl

theorem currentOf_answeredBy (key : Key) (proxy : Address) :
    Action.answeredBy reply (currentOf c key proxy) =
      currentOf (c.answeredBy reply) key proxy := by
  simp only [currentOf, Action.answeredBy_bind]
  refine bind_congr fun current => ?_
  split <;> rfl

theorem same_answeredBy (a b : Address) :
    Action.answeredBy reply (c.comparator.same a b) =
      (c.answeredBy reply).comparator.same a b := by
  have haliasing : (c.answeredBy reply).comparator.aliasing = c.comparator.aliasing := rfl
  simp only [History.Comparator.same, haliasing]
  split
  · rfl
  · split
    · rfl
    · rw [Action.answeredBy_bind]
      rfl

theorem activate_answeredBy (request : Request) (artifact : Artifact)
    (proxy candidate : Address) :
    Action.answeredBy reply (activate c request artifact proxy candidate) =
      activate (c.answeredBy reply) request artifact proxy candidate := by
  simp only [activate]
  split
  · rw [Action.answeredBy_bind]
    rfl
  · rfl

theorem upgrade_answeredBy (request : Request) (artifact : Artifact) (proxy : Address)
    (state : State) :
    Action.answeredBy reply (upgrade c request artifact proxy state) =
      upgrade (c.answeredBy reply) request artifact proxy state := by
  simp only [upgrade, Action.answeredBy_bind, currentOf_answeredBy, same_answeredBy]
  refine bind_congr fun current => bind_congr fun candidate => bind_congr fun _ =>
    bind_congr fun same => ?_
  split
  · rfl
  · simp only [Action.answeredBy_bind, activate_answeredBy, Action.answeredBy_ofExcept]
    rfl

omit [LawfulMonad m] in
theorem verify_answeredBy (request : Request) (artifact : Artifact)
    (proxy implementation : Address) (activation : Option Route.Outcome) :
    (verify c request artifact proxy implementation activation).answeredBy reply =
      verify (c.answeredBy reply) request artifact proxy implementation activation := by
  simp only [verify]
  split <;> rfl

theorem record_answeredBy (request : Request) :
    Action.answeredBy reply (record c request) = record (c.answeredBy reply) request := by
  simp only [record, Action.answeredBy_bind, Action.answeredBy_lift, locate_answeredBy,
    upgrade_answeredBy, verify_answeredBy]
  rfl

end Steps

/-! ### The dialogue of a deployment -/

section Dialogue

variable {m : Type → Type} [Monad m] [LawfulMonad m]

/-- The questions, answered by the collaborators that would have been called. -/
theorem Collaborators.asked_answeredBy (c : Collaborators m) : c.asked.answeredBy c.reply = c := by
  simp only [answeredBy, Backend.answeredBy, Registry.Store.answeredBy, History.Store.answeredBy,
    asked, asking, Action.answeredBy, ExceptT.mk, ExceptT.run, Question.put,
    Dialogue.answeredBy_question, reply, Action.outcome]

/-- **A deployment is its dialogue**, answered by the collaborators. -/
theorem record_eq_answeredBy (c : Collaborators m) (request : Request) :
    record c request = Action.answeredBy c.reply (record c.asked request) := by
  rw [record_answeredBy, c.asked_answeredBy]

end Dialogue

end Deploy

end ProxyUpgrade
