import ProxyUpgrade.Explorer.Target
import ProxyUpgrade.Retry
/-!
# Verification, as far as it goes

An upgrade is worth publishing on an explorer, but never worth failing for: whatever the explorer
answers ends in an `Outcome`. A target that is verified already is left alone. Otherwise it is
submitted, and after a safety delay the explorer is asked again, attempt after attempt, as the
policy has it. What was logged during the submission of the last attempt is kept with the failure.
-/

namespace ProxyUpgrade.Verification

/-- What became of a target. -/
inductive Outcome where
  /-- Verification is off, and nothing was asked. -/
  | disabled
  /-- It was verified before. -/
  | alreadyVerified
  /-- It was submitted and then shown as verified. -/
  | verified
  /-- It did not come to be shown as verified; `output` is what was logged meanwhile. -/
  | failed (reason output : String)
  deriving DecidableEq

namespace Outcome

/-- Whether the explorer ended up showing the target as verified. -/
def isVerified : Outcome → Bool
  | alreadyVerified | verified => true
  | disabled | failed _ _ => false

/-- The outcome for two targets of which the second was tried after the first. -/
def followedBy (first second : Outcome) : Outcome :=
  if !first.isVerified then first
  else if !second.isVerified then second
  else if first = alreadyVerified ∧ second = alreadyVerified then alreadyVerified
  else verified

end Outcome

/-- How targets are verified, if they are. -/
inductive Service (m : Type → Type) where
  | disabled
  | enabled (explorer : Explorer m) (retry : Retry.Policy) (safetyDelay : Span)

namespace Service

/-- Whether anything is asked of an explorer. -/
def isEnabled {m : Type → Type} : Service m → Bool
  | disabled => false
  | enabled _ _ _ => true

end Service

variable {m : Type → Type} [Monad m]

/-- What is reported when a submission had no effect in time. -/
def notShown : String := "explorer does not report verified source"

/-- Submits a target and asks after the safety delay whether it is shown as verified. -/
def attempt (explorer : Explorer m) (safetyDelay : Span) (clock : Clock m)
    (target : Explorer.Target) : Action m Unit := do
  let (lines, submitted) ← ExceptT.lift (explorer.submit target)
  let failure (reason : String) : Error := .verification target.address reason (Log.text lines)
  match submitted with
  | .error error => throw (failure error.message)
  | .ok () =>
    ExceptT.lift (clock.sleep safetyDelay)
    match ← ExceptT.lift (explorer.isVerified target).outcome with
    | .ok true => pure ()
    | .ok false => throw (failure notShown)
    | .error error => throw (failure error.message)

/-- What was logged during a failed attempt. -/
def outputOf : Error → String
  | .verification _ _ output => output
  | _ => ""

/-- Verifies a target, unless it is verified already or verification is off. -/
def verify (service : Service m) (clock : Clock m) (target : Explorer.Target) : m Outcome := do
  match service with
  | .disabled => pure .disabled
  | .enabled explorer retry safetyDelay =>
    let status := Retry.Policy.transient retry.attempts retry.delay
    match ← (status.run clock (explorer.isVerified target)).outcome with
    | .ok true => pure .alreadyVerified
    | .error error => pure (.failed error.message "")
    | .ok false =>
      match ← (retry.run clock (attempt explorer safetyDelay clock target)).outcome with
      | .ok () => pure .verified
      | .error error => pure (.failed error.message (outputOf error))

/-- Whether a target was submitted and then shown as verified. -/
def verifyIfNeeded (service : Service m) (clock : Clock m) (target : Explorer.Target) :
    m Bool := do
  pure ((← verify service clock target) = .verified)

/-- Verifies the source of an implementation and then, if that went well, the link to it. -/
def verifyProxy (service : Service m) (clock : Clock m) (proxy implementation : Address)
    (contract : String) (args : Bytes) : m Outcome := do
  let source ← verify service clock (.source implementation contract args)
  if source.isVerified then
    pure (source.followedBy (← verify service clock (.link proxy implementation)))
  else pure source

end ProxyUpgrade.Verification
