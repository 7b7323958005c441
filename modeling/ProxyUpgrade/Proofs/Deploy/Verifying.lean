import ProxyUpgrade.Proofs.Beside
import ProxyUpgrade.Proofs.Deploy.Questions
import ProxyUpgrade.Proofs.Deploy.Session
import ProxyUpgrade.Proofs.Verification
/-!
# Verification makes no difference

Verification comes last (`Deploy.record_eq_unverified`), and nothing but its outcome is used. So a
deployment asks everybody but the explorer the same things whatever the explorer answers and however
verification is configured, and it ends in the same way, except for what the record says about
verification (`Deploy.deploying_agree`).

Two deployments are compared that may differ in their explorers and in their settings. The other
collaborators may be asked on any level – the calls of a backend, or the requests to a node – and
they behave in a fixed way: what they answer depends on a state of theirs, which each question may
change. The explorer may look at that state; it and the clock that a verification waits by answer
anything.
-/

namespace ProxyUpgrade.Deploy

/-! ### A deployment up to its verification -/

section Unverified

variable {m : Type → Type} [Monad m] (c : Collaborators m) (request : Request)

/-- A deployment up to its verification: the artifact, and a record with nothing verified. -/
def unverified : Action m (Artifact × Record) := do
  let artifact ← c.backend.artifact request.name.artifact
  let (proxy, state) ← locate c request artifact .initial
  let (implementation, activation, state) ← upgrade c request artifact proxy state
  pure (artifact, ⟨request.name, request.instanceId, proxy, implementation, state.status, false,
    activation⟩)

/-- What is verified of a record. -/
def verifyRecord (artifact : Artifact) (record : Record) : m Verification.Outcome :=
  verify c request artifact record.proxy record.implementation record.activation

/-- **Verification comes last**, and changes one field of the record. -/
theorem record_eq_unverified [LawfulMonad m] :
    record c request = (do
      let prepared ← unverified c request
      let outcome ← ExceptT.lift (verifyRecord c request prepared.1 prepared.2)
      pure { prepared.2 with verified := outcome.isVerified }) := by
  simp only [record, unverified, verifyRecord, bind_assoc, pure_bind]

end Unverified

/-! ### Ways of verifying -/

section Verifying

variable {Q : Type} {A : Q → Type}

/-- What others and an explorer may answer. -/
abbrev Beside (A : Q → Type) : Q ⊕ Verification.Question → Type :=
  Sum.elim A Verification.Question.Answer

/-- **The same collaborators with another way of verifying**, which asks an explorer if it is
configured, and nobody else. -/
def Collaborators.verifying (c : Collaborators (Dialogue Q A))
    (settings : Option (Retry.Policy × Span)) : Collaborators (Dialogue _ (Beside A)) :=
  { c.answeredBy Dialogue.putLeft with
    verifySource := fun implementation contract args =>
      (Verification.verify (Verification.serviceOf Verification.asking settings)
        Verification.pauses (.source implementation contract args)).answeredBy Dialogue.putRight
    verifyProxy := fun proxy implementation contract args =>
      (Verification.verifyProxy (Verification.serviceOf Verification.asking settings)
        Verification.pauses proxy implementation contract args).answeredBy Dialogue.putRight }

/-- **The dialogue of a deployment** with such collaborators. -/
def deploying (c : Collaborators (Dialogue Q A)) (settings : Option (Retry.Policy × Span))
    (request : Request) (session : Session) :
    Dialogue _ (Beside A) (Except Error (Record × Session)) :=
  (do
    let record ← record (c.verifying settings) request
    pure (record, session.insert record) : Action (Dialogue _ (Beside A)) _).run

variable (c : Collaborators (Dialogue Q A)) (settings : Option (Retry.Policy × Span))
  (request : Request)

section Answers

variable {m : Type → Type} [Monad m] [LawfulMonad m] (reply : (question : Q) → m (A question))
  (explorer : Explorer m) (clock : Clock m)

theorem verifying_answeredBy :
    (c.verifying settings).answeredBy
        (Dialogue.either reply (Verification.reply explorer clock)) =
      { c.answeredBy reply with
        verifySource := fun implementation contract args =>
          Verification.verify (Verification.serviceOf explorer settings) clock
            (.source implementation contract args)
        verifyProxy :=
          Verification.verifyProxy (Verification.serviceOf explorer settings) clock } := by
  -- Only the explorer and the clock are asked by the verification.
  have hright {α : Type} (d : Verification.Talk α) :
      (d.answeredBy Dialogue.putRight).answeredBy
          (Dialogue.either reply (Verification.reply explorer clock)) =
        d.answeredBy (Verification.reply explorer clock) := by
    rw [Dialogue.answeredBy_answeredBy]
    simp only [Dialogue.putRight_answeredBy]
  have hleft : (c.answeredBy Dialogue.putLeft).answeredBy
      (Dialogue.either reply (Verification.reply explorer clock)) = c.answeredBy reply := by
    simp only [Collaborators.answeredBy, Backend.answeredBy, Registry.Store.answeredBy,
      History.Store.answeredBy, Action.answeredBy_answeredBy, Dialogue.answeredBy_answeredBy,
      Dialogue.putLeft_answeredBy]
  rw [← hleft]
  simp only [Collaborators.verifying, Collaborators.answeredBy, hright]
  simp only [Verification.verify_answeredBy, Verification.verifyProxy_answeredBy,
    Verification.serviceOf_answeredBy, Verification.pauses_answeredBy]

/-- **A deployment is its dialogue**, answered by the collaborators of which others were asked, by
an explorer and by a clock. -/
theorem deploying_answeredBy {o : Orchestrator m} (hothers : c.answeredBy reply = o.collaborators)
    (hverification : o.verification = Verification.serviceOf explorer settings)
    (session : Session) :
    (deploying c settings request session).answeredBy
        (Dialogue.either reply (Verification.reply explorer o.clock)) =
      (run o request session).outcome := by
  have hcollaborators : (c.verifying settings).answeredBy
      (Dialogue.either reply (Verification.reply explorer o.clock)) = o.collaborators := by
    rw [verifying_answeredBy, hothers, ← hverification]
    rfl
  have hrun : Action.answeredBy (Dialogue.either reply (Verification.reply explorer o.clock))
      (ExceptT.mk (deploying c settings request session)) = run o request session := by
    rw [run, ← hcollaborators, ← record_answeredBy]
    exact Action.answeredBy_bind ..
  exact congrArg Action.outcome hrun

end Answers

/-! ### Both parts of a deployment -/

/-- What a deployment returns, once it is known what is verified. -/
def finished (session : Session) (prepared : Artifact × Record) (verified : Bool) :
    Record × Session :=
  ({ prepared.2 with verified := verified },
    session.insert { prepared.2 with verified := verified })

/-- The part that verifies. -/
def finishing (session : Session) (prepared : Artifact × Record) :
    Action (Dialogue _ (Beside A)) (Record × Session) := do
  let outcome ←
    ExceptT.lift (verifyRecord (c.verifying settings) request prepared.1 prepared.2)
  pure (finished session prepared outcome.isVerified)

theorem unverified_verifying :
    unverified (c.verifying settings) request =
      Action.answeredBy Dialogue.putLeft (unverified c request) := by
  simp only [unverified, Action.answeredBy_bind, locate_answeredBy, upgrade_answeredBy]
  rfl

/-- The part before it asks others than the explorer, and has no part in how that is done. -/
theorem deploying_eq (session : Session) :
    deploying c settings request session =
      (Action.answeredBy Dialogue.putLeft (unverified c request) >>=
        finishing c settings request session).run := by
  rw [deploying, record_eq_unverified, unverified_verifying]
  simp only [bind_assoc, pure_bind]
  rfl

variable {S E : Type} (behaviour : S → (question : Q) → A question × S)
  (explorer : S → E → (question : Verification.Question) → question.Answer × E)

/-- A verification asks the explorer only, and never fails. -/
theorem finishing_play (session : Session) (prepared : Artifact × Record) (s : S) (e : E) :
    ∃ (asked : List (Dialogue.Turn Verification.Question.Answer)) (verified : Bool) (e' : E),
      (finishing c settings request session prepared).run.play
        (Dialogue.beside behaviour explorer) (s, e) =
          ⟨asked.map Dialogue.Turn.right, .ok (finished session prepared verified), (s, e')⟩ := by
  obtain ⟨d, hd⟩ : ∃ d : Verification.Talk Verification.Outcome,
      verifyRecord (c.verifying settings) request prepared.1 prepared.2 =
        d.answeredBy Dialogue.putRight := by
    simp only [verifyRecord, verify]
    split <;> exact ⟨_, rfl⟩
  let played := d.play (explorer s) e
  refine ⟨played.turns, played.result.isVerified, played.state, ?_⟩
  rw [finishing, hd, Action.play_bind_lift, Dialogue.play_right]
  exact congrArg (Dialogue.Played.mk · _ _) (List.append_nil _)

/-- **What is played of a deployment**: first what is asked of others, which the settings and the
explorer have no part in, and then what is asked of the explorer. -/
theorem deploying_play (session : Session) (s : S) (e : E) :
    let prepared := (unverified c request).run.play behaviour s
    ∃ (asked : List (Dialogue.Turn Verification.Question.Answer)) (verified : Bool) (e' : E),
      (deploying c settings request session).play (Dialogue.beside behaviour explorer) (s, e) =
        ⟨prepared.turns.map Dialogue.Turn.left ++ asked.map Dialogue.Turn.right,
          prepared.result.map (finished session · verified), (prepared.state, e')⟩ := by
  have hfirst : (Action.answeredBy Dialogue.putLeft (unverified c request)).run.play
      (Dialogue.beside behaviour explorer) (s, e) = _ :=
    Dialogue.play_left s e (unverified c request).run
  rw [deploying_eq]
  rcases hresult : ((unverified c request).run.play behaviour s).result with error | prepared
  · refine ⟨[], false, e, ?_⟩
    rw [Action.play_bind_error _ (by rw [hfirst]; exact hresult), hfirst]
    simp [hresult, Except.map]
  · obtain ⟨asked, verified, e', hrest⟩ := finishing_play c settings request behaviour explorer
      session prepared ((unverified c request).run.play behaviour s).state e
    refine ⟨asked, verified, e', ?_⟩
    rw [Action.play_bind_ok _ (by rw [hfirst]; exact hresult), hfirst]
    simp only [hrest, hresult]
    rfl

end Verifying

/-! ### Two deployments -/

/-- **Two results agree, except for what is said about verification**: both are the same failure, or
both records and both sessions are the same but for one field of the record. -/
inductive Agree : Except Error (Record × Session) → Except Error (Record × Session) → Prop
  | error (e : Error) : Agree (.error e) (.error e)
  | ok {session₁ session₂ : Session} (record : Record) (before after : List Record)
      (first second : Bool)
      (records₁ : session₁.records = before ++ { record with verified := first } :: after)
      (records₂ : session₂.records = before ++ { record with verified := second } :: after) :
    Agree (.ok ({ record with verified := first }, session₁))
      (.ok ({ record with verified := second }, session₂))

theorem agree_finished (session : Session) (prepared : Except Error (Artifact × Record))
    (first second : Bool) :
    Agree (prepared.map (finished session · first)) (prepared.map (finished session · second)) := by
  rcases prepared with e | ⟨artifact, record⟩
  · exact .error e
  · obtain ⟨before, after, hinsert⟩ := session.exists_insert record
    exact .ok record before after first second
      (hinsert { record with verified := first } rfl)
      (hinsert { record with verified := second } rfl)

/-- **Verification is best effort.** Two deployments of one request that start from the same state
of all others, with any two explorers and any settings, ask the others the same questions in the
same order, leave them in the same state, and end in the same way: with the same error, or with
records and sessions that differ in nothing but in what is verified. -/
theorem deploying_agree {Q : Type} {A : Q → Type} (c : Collaborators (Dialogue Q A))
    (request : Request) (session : Session) {S E₁ E₂ : Type}
    (behaviour : S → (question : Q) → A question × S) (s : S)
    (settings₁ settings₂ : Option (Retry.Policy × Span))
    (explorer₁ : S → E₁ → (question : Verification.Question) → question.Answer × E₁) (e₁ : E₁)
    (explorer₂ : S → E₂ → (question : Verification.Question) → question.Answer × E₂) (e₂ : E₂) :
    let played₁ := (deploying c settings₁ request session).play
      (Dialogue.beside behaviour explorer₁) (s, e₁)
    let played₂ := (deploying c settings₂ request session).play
      (Dialogue.beside behaviour explorer₂) (s, e₂)
    played₁.turns.filterMap Dialogue.ofLeft = played₂.turns.filterMap Dialogue.ofLeft ∧
      played₁.state.1 = played₂.state.1 ∧ Agree played₁.result played₂.result := by
  obtain ⟨asked₁, verified₁, e₁', hplayed₁⟩ :=
    deploying_play c settings₁ request behaviour explorer₁ session s e₁
  obtain ⟨asked₂, verified₂, e₂', hplayed₂⟩ :=
    deploying_play c settings₂ request behaviour explorer₂ session s e₂
  simp only [hplayed₁, hplayed₂, Dialogue.filterMap_ofLeft, true_and]
  exact agree_finished ..

end ProxyUpgrade.Deploy
