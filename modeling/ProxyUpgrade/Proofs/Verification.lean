import ProxyUpgrade.Proofs.Asking
import ProxyUpgrade.Verification
/-!
# What a verification asks

A verification asks an explorer, and lets time pass. It makes no difference whether its questions
are answered at once or afterwards (`Verification.verify_answeredBy`,
`Verification.verifyProxy_answeredBy`). So it can be written as a dialogue of its own, with nobody
else to ask (`Verification.asking`): what it has to do with the rest of a program is its outcome,
and nothing more.
-/

namespace ProxyUpgrade

section Answers

variable {Q : Type} {A : Q → Type} {m : Type → Type} [Monad m] (reply : (q : Q) → m (A q))

/-- An explorer whose questions are answered. -/
def Explorer.answeredBy (explorer : Explorer (Dialogue Q A)) : Explorer m where
  isVerified target := Action.answeredBy reply (explorer.isVerified target)
  submit target := (explorer.submit target).answeredBy reply

namespace Verification

/-- A service whose questions are answered. -/
def Service.answeredBy : Service (Dialogue Q A) → Service m
  | .disabled => .disabled
  | .enabled explorer retry delay => .enabled (explorer.answeredBy reply) retry delay

variable [LawfulMonad m] (clock : Clock (Dialogue Q A))

theorem attempt_answeredBy (explorer : Explorer (Dialogue Q A)) (delay : Span)
    (target : Explorer.Target) :
    Action.answeredBy reply (attempt explorer delay clock target) =
      attempt (explorer.answeredBy reply) delay (clock.answeredBy reply) target := by
  simp only [attempt, Action.answeredBy_bind, Action.answeredBy_lift]
  refine bind_congr fun submitted => ?_
  rcases submitted with ⟨lines, e | ⟨⟩⟩
  · rfl
  · simp only [Action.answeredBy_bind, Action.answeredBy_lift]
    refine bind_congr fun _ => bind_congr fun shown => ?_
    rcases shown with e | _ | _ <;> rfl

theorem verify_answeredBy (service : Service (Dialogue Q A)) (target : Explorer.Target) :
    (verify service clock target).answeredBy reply =
      verify (service.answeredBy reply) (clock.answeredBy reply) target := by
  rcases service with - | ⟨explorer, retry, delay⟩
  · rfl
  simp only [verify, Service.answeredBy, Dialogue.answeredBy_bind]
  have hstatus (policy : Retry.Policy) :=
    policy.run_answeredBy reply clock (explorer.isVerified target)
  have hattempt := retry.run_answeredBy reply clock (attempt explorer delay clock target)
  rw [attempt_answeredBy] at hattempt
  refine (congrArg (fun shown : Action m Bool => shown.outcome >>= _) (hstatus _)).trans
    (bind_congr fun shown => ?_)
  rcases shown with e | _ | _
  · rfl
  · simp only [Dialogue.answeredBy_bind]
    refine (congrArg (fun attempted : Action m Unit => attempted.outcome >>= _) hattempt).trans
      (bind_congr fun attempted => ?_)
    rcases attempted with e | ⟨⟩ <;> rfl
  · rfl

theorem verifyProxy_answeredBy (service : Service (Dialogue Q A)) (proxy implementation : Address)
    (contract : String) (args : Bytes) :
    (verifyProxy service clock proxy implementation contract args).answeredBy reply =
      verifyProxy (service.answeredBy reply) (clock.answeredBy reply) proxy implementation contract
        args := by
  simp only [verifyProxy, Dialogue.answeredBy_bind, verify_answeredBy]
  refine bind_congr fun source => ?_
  split
  · simp only [Dialogue.answeredBy_bind, verify_answeredBy]
    rfl
  · rfl

end Verification

end Answers

namespace Verification

/-! ### What it asks of others -/

/-- The way of verifying with an explorer, if it is wanted. -/
def serviceOf {m : Type → Type} (explorer : Explorer m) :
    (settings : Option (Retry.Policy × Span)) → Service m
  | some (retry, delay) => .enabled explorer retry delay
  | none => .disabled

section Asks

variable {Q : Type} {A : Q → Type} {p : Q → Prop} {explorer : Explorer (Dialogue Q A)}
  {clock : Clock (Dialogue Q A)} (hshown : ∀ target, (explorer.isVerified target).Asks p)
  (hsubmit : ∀ target, (explorer.submit target).Asks p)
  (hsleep : ∀ time, (clock.sleep time).Asks p)
include hshown hsubmit hsleep

theorem attempt_asks (delay : Span) (target : Explorer.Target) :
    (attempt explorer delay clock target).Asks p := by
  refine .bind (Action.asks_lift (hsubmit target)) ?_
  rintro ⟨lines, e | ⟨⟩⟩
  · exact Action.asks_throw _
  · refine .bind (Action.asks_lift (hsleep delay)) fun _ =>
      .bind (Action.asks_lift (hshown target)) ?_
    rintro (e | _ | _)
    · exact Action.asks_throw _
    · exact Action.asks_throw _
    · exact Action.asks_pure _

theorem verify_asks (settings : Option (Retry.Policy × Span)) (target : Explorer.Target) :
    (verify (serviceOf explorer settings) clock target).Asks p := by
  rcases settings with - | ⟨retry, delay⟩
  · trivial
  refine .bind (Retry.Policy.run_asks _ hsleep (hshown target)) ?_
  rintro (e | _ | _)
  · trivial
  · refine .bind (retry.run_asks hsleep (attempt_asks hshown hsubmit hsleep delay target)) ?_
    rintro (e | _) <;> trivial
  · trivial

/-- **A verification only asks what the explorer and the clock do.** -/
theorem verifyProxy_asks (settings : Option (Retry.Policy × Span)) (proxy implementation : Address)
    (contract : String) (args : Bytes) :
    (verifyProxy (serviceOf explorer settings) clock proxy implementation contract args).Asks
      p := by
  refine .bind (verify_asks hshown hsubmit hsleep settings _) fun source => ?_
  split
  · exact .bind (verify_asks hshown hsubmit hsleep settings _) fun _ => trivial
  · trivial

end Asks

/-! ### The dialogue of a verification -/

/-- What a verification asks. -/
inductive Question where
  | isVerified (target : Explorer.Target)
  | submit (target : Explorer.Target)
  | now
  | sleep (time : Nat)

/-- What may be answered. -/
abbrev Question.Answer : Question → Type
  | isVerified _ => Except Error Bool
  | submit _ => List Log.Line × Except Error Unit
  | now => Nat
  | sleep _ => Unit

/-- A program that asks what a verification asks. -/
abbrev Talk : Type → Type := Dialogue Question Question.Answer

/-- An explorer that is asked. -/
def asking : Explorer Talk where
  isVerified target := ExceptT.mk (Dialogue.question (Question.isVerified target))
  submit target := Dialogue.question (Question.submit target)

/-- A clock that is asked. -/
def pauses : Clock Talk where
  now := Dialogue.question Question.now
  sleep time := Dialogue.question (Question.sleep time)

/-- How an explorer and a clock answer. -/
def reply {m : Type → Type} (explorer : Explorer m) (clock : Clock m) :
    (question : Question) → m question.Answer
  | .isVerified target => (explorer.isVerified target).outcome
  | .submit target => explorer.submit target
  | .now => clock.now
  | .sleep time => clock.sleep time

section Answers

variable {m : Type → Type} [Monad m] [LawfulMonad m] (explorer : Explorer m) (clock : Clock m)

theorem asking_answeredBy : asking.answeredBy (reply explorer clock) = explorer := by
  simp only [Explorer.answeredBy, asking, Action.answeredBy, ExceptT.mk, ExceptT.run,
    Dialogue.answeredBy_question, reply, Action.outcome]

theorem pauses_answeredBy : pauses.answeredBy (reply explorer clock) = clock := by
  simp only [Clock.answeredBy, pauses, Dialogue.answeredBy_question, reply]

theorem serviceOf_answeredBy (settings : Option (Retry.Policy × Span)) :
    (serviceOf asking settings).answeredBy (reply explorer clock) =
      serviceOf explorer settings := by
  rcases settings with - | ⟨retry, delay⟩
  · rfl
  · rw [serviceOf, Service.answeredBy, asking_answeredBy]
    rfl

end Answers

end Verification

end ProxyUpgrade
