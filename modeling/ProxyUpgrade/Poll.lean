import ProxyUpgrade.Action
import ProxyUpgrade.Time.Span
/-!
# Waiting for a condition

A check is made at once and then again after every interval, until it yields something, fails for
good, or ends when the time is up. Failures of the network count as "not yet". The time is looked at
after a check and not before, so there is always one check, and the last one may begin after the
deadline.

Every wait lasts at least the interval, so the number of waits that fit into the time bounds the
recursion and never decides anything. (An interval of zero is bounded as one of a millisecond.)
-/

namespace ProxyUpgrade.Poll

variable {m : Type → Type} [Monad m] {α : Type}

/-- What a check ends the waiting with, if it does. -/
def settled? : Except Error (Option α) → Option (Except Error α)
  | .ok (some value) => some (.ok value)
  | .ok none => none
  | .error error => if error.isTransient then none else some (.error error)

/-- Checks until the deadline, with at most so many waits. -/
def checkBy (clock : Clock m) (what : String) (deadline : Nat) (interval : Span)
    (check : Action m (Option α)) : (waits : Nat) → m (Except Error α)
  | 0 => do
    match settled? (← check.outcome) with
    | some outcome => pure outcome
    | none => pure (.error (.timeout what))
  | waits + 1 => do
    match settled? (← check.outcome) with
    | some outcome => pure outcome
    | none =>
      if deadline ≤ (← clock.now) then pure (.error (.timeout what))
      else
        clock.sleep interval
        checkBy clock what deadline interval check waits

/-- The number of intervals after which a time has surely passed. -/
def rounds (timeout interval : Span) : Nat := timeout / max interval 1 + 1

/-- Checks until something is there or the time is up. -/
def await (clock : Clock m) (what : String) (timeout interval : Span)
    (check : Action m (Option α)) : Action m α :=
  ExceptT.mk do
    let start ← clock.now
    checkBy clock what (start + timeout) interval check (rounds timeout interval)

end ProxyUpgrade.Poll
