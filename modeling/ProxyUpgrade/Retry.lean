import ProxyUpgrade.Action
import ProxyUpgrade.Time.Span
/-!
# Trying again

A policy says how often an action may be attempted, how long to wait between two attempts, and which
failures are worth another one. `Policy.run` attempts the action until it succeeds, until the policy
gives up on a failure, or until the attempts are used up, and hands on the outcome of the last one.

Attempts are numbered from one, and the number is what the policy sees along with the failure.
-/

namespace ProxyUpgrade.Retry

/-- How an action is tried again. -/
structure Policy where
  /-- How often the action is attempted at most. -/
  attempts : Nat
  /-- The wait between two attempts. -/
  delay : Span
  /-- Which failures, at which attempt, are worth another attempt; all of them if nothing is said.
  -/
  again : Option (Error → Nat → Bool)
  attempts_pos : 0 < attempts

namespace Policy

/-- At most so many attempts, but at least one, after any failure. -/
def every (attempts : Nat) (delay : Span) : Policy :=
  ⟨max attempts 1, delay, none, by omega⟩

/-- A policy with its choice of failures replaced. -/
def choosing (policy : Policy) (again : Error → Nat → Bool) : Policy :=
  { policy with again := some again }

/-- One attempt. -/
def once : Policy := every 1 0

/-- Further attempts only after a failure of the network. -/
def transient (attempts : Nat) (delay : Span) : Policy :=
  (every attempts delay).choosing fun error _ => error.isTransient

/-- Whether a failure at some attempt is worth another one. -/
def retries (policy : Policy) (error : Error) (number : Nat) : Bool :=
  match policy.again with
  | some again => again error number
  | none => true

/-- The text that describes a policy. -/
def text (policy : Policy) : String :=
  let attempts := toString policy.attempts
  let delay := policy.delay.text
  let chosen := toString policy.again.isSome
  s!"RetryPolicy \x7b retries: {attempts}, delay: {delay}, is_need_retry: {chosen} \x7d"

variable {m : Type → Type} [Monad m] {α : Type}

/-- Attempts an action that has the given number and so many further attempts left. -/
def runFrom (policy : Policy) (clock : Clock m) (action : Action m α) :
    (left : Nat) → (number : Nat) → m (Except Error α)
  | 0, _ => action.outcome
  | left + 1, number => do
    match ← action.outcome with
    | .ok value => pure (.ok value)
    | .error error =>
      if policy.retries error number then
        clock.sleep policy.delay
        runFrom policy clock action left (number + 1)
      else pure (.error error)

/-- Attempts an action as often as the policy allows. -/
def run (policy : Policy) (clock : Clock m) (action : Action m α) : Action m α :=
  ExceptT.mk (policy.runFrom clock action (policy.attempts - 1) 1)

end Policy

end ProxyUpgrade.Retry
