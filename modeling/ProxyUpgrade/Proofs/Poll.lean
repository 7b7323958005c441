import ProxyUpgrade.Poll
import ProxyUpgrade.Proofs.Retry
/-!
# What waiting comes down to

A check finds nothing yet (`Poll.NotYet`), or it settles the matter, with something that was found
or a failure for good. And it makes no difference to those who wait whether questions are answered
at once or afterwards (`Poll.await_answeredBy`).
-/

namespace ProxyUpgrade.Poll

section Answers

variable {Q : Type} {A : Q → Type} {m : Type → Type} [Monad m] [LawfulMonad m]
  (reply : (q : Q) → m (A q)) {α : Type}

theorem checkBy_answeredBy (clock : Clock (Dialogue Q A)) (what : String) (deadline : Nat)
    (interval : Span) (check : Action (Dialogue Q A) (Option α)) (waits : Nat) :
    (checkBy clock what deadline interval check waits).answeredBy reply =
      checkBy (clock.answeredBy reply) what deadline interval (Action.answeredBy reply check)
        waits := by
  induction waits with
  | zero =>
    simp only [checkBy, Dialogue.answeredBy_bind]
    refine bind_congr fun found => ?_
    rcases settled? found with - | outcome <;> rfl
  | succ waits ih =>
    simp only [checkBy, Dialogue.answeredBy_bind]
    refine bind_congr fun found => ?_
    rcases settled? found with - | outcome
    · simp only [Dialogue.answeredBy_bind]
      refine bind_congr fun time => ?_
      split
      · rfl
      · simp only [Dialogue.answeredBy_bind, ih]
        rfl
    · rfl

theorem await_answeredBy (clock : Clock (Dialogue Q A)) (what : String) (timeout interval : Span)
    (check : Action (Dialogue Q A) (Option α)) :
    Action.answeredBy reply (await clock what timeout interval check) =
      await (clock.answeredBy reply) what timeout interval (Action.answeredBy reply check) := by
  refine (Dialogue.answeredBy_bind _ _).trans (bind_congr fun start => ?_)
  exact checkBy_answeredBy reply clock what _ interval check _

end Answers

/-! ### What a check finds -/

variable {α : Type} {found : Except Error (Option α)}

/-- Nothing yet: neither has anything been found, nor has the check failed for good. -/
def NotYet (found : Except Error (Option α)) : Prop :=
  found = .ok none ∨ ∃ e, found = .error e ∧ e.isTransient = true

theorem settled?_eq_none : settled? found = none ↔ NotYet found := by
  rcases found with e | _ | a
  · simp [settled?, NotYet]
  · simp [settled?, NotYet]
  · simp [settled?, NotYet]

/-- What settles the matter is something that was found, or a failure for good. -/
theorem of_settled?_eq_some {result : Except Error α} (h : settled? found = some result) :
    (∃ a, found = .ok (some a) ∧ result = .ok a) ∨
      ∃ e, found = .error e ∧ e.isTransient = false ∧ result = .error e := by
  rcases found with e | _ | a
  · simp only [settled?] at h
    split at h
    next => cases h
    next hlasting =>
      cases h
      exact .inr ⟨e, rfl, by simpa using hlasting, rfl⟩
  · cases h
  · cases h
    exact .inl ⟨a, rfl, rfl⟩

/-! ### Pauses -/

/-- There are as many pauses as fit into the time. -/
theorem le_rounds_mul {timeout interval : Span} (h : 0 < interval) :
    timeout ≤ rounds timeout interval * interval := by
  have hinterval : max interval 1 = interval := Nat.max_eq_left h
  rw [rounds, hinterval]
  exact Nat.le_of_lt (Nat.lt_mul_of_div_lt (Nat.lt_succ_self _) h)

end ProxyUpgrade.Poll
