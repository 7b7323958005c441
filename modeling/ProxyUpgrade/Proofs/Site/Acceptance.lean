import ProxyUpgrade.Proofs.Site.Sending
/-!
# Transactions that a node accepts

A submission whose reply is lost may have been accepted all the same: the node acts before it
answers, and what it is sent carries nothing by which it could tell a transaction from the same one
submitted again. So how many transactions a node accepts for one call depends on the replies that
get lost. What is submitted after a reply has been heard is nothing, so at most one transaction is
accepted whose reply is heard; of those whose reply is lost there may be one for every attempt that
the policy allows (`Site.accepted_for_call`). A policy keeps the node from accepting two only if it
allows a single attempt.
-/

namespace ProxyUpgrade.Site

/-- How many transactions a node has accepted for a call. -/
structure Intake where
  /-- Those whose reply was lost, or could not be read. -/
  lost : Nat
  /-- Those whose reply was heard. -/
  heard : Nat
  deriving DecidableEq

namespace Intake

/-- All transactions that have been accepted. -/
def accepted (s : Intake) : Nat := s.lost + s.heard

/-- A submission is lost if it fails on the way. -/
def isLost : Except Error Hash → Bool
  | .error (.network _) => true
  | _ => false

theorem isLost_iff {outcome : Except Error Hash} : isLost outcome = true ↔ Unheard outcome := by
  constructor
  · rintro h
    rcases outcome with e | hash
    · cases e with
      | network reason => exact ⟨reason, rfl⟩
      | _ => cases h
    · cases h
  · rintro ⟨reason, rfl⟩
    rfl

/-- One more transaction is accepted, whose submission comes to something. -/
def accept (s : Intake) (outcome : Except Error Hash) : Intake :=
  if isLost outcome then { s with lost := s.lost + 1 } else { s with heard := s.heard + 1 }

end Intake

variable (site : Site)

/-- **The rules of a node that may accept whatever is submitted**, and reply as it likes. -/
def accepting : Dialogue.Rules Intake Question Question.Answer where
  permits _ _ := True
  answers s question answer s' :=
    s' = s ∨ ∃ outcome, site.submission? ⟨question, answer⟩ = some outcome ∧ s' = s.accept outcome

variable {site}

/-- No more is accepted than is submitted. -/
theorem le_of_accepting {s s' : Intake} {turns : List Turn}
    (steps : site.accepting.Steps s turns s') :
    s'.lost ≤ s.lost + (site.submissions turns).countP Intake.isLost ∧
      s'.heard ≤ s.heard + (site.submissions turns).countP (!Intake.isLost ·) := by
  -- What is accepted in a turn is submitted in it; what is submitted may as well not be accepted.
  induction steps with
  | nil => exact ⟨Nat.le_add_right _ _, Nat.le_add_right _ _⟩
  | @cons s s₁ s₂ question answer turns first _ ih =>
    rw [submissions, List.filterMap_cons, ← submissions]
    rcases first with rfl | ⟨outcome, hsubmission, rfl⟩
    · rcases site.submission? ⟨question, answer⟩ with - | outcome
      · exact ih
      · simp only [List.countP_cons]
        omega
    · simp only [hsubmission, List.countP_cons]
      rw [Intake.accept] at ih
      split at ih
      next hlost => simp [hlost] at ih ⊢; omega
      next hheard => simp [hheard] at ih ⊢; omega

section Calls

variable {key : Option Secp256k1.Key} {attempts : Nat} {delay : Span} {call : Call}
  {turns : List Turn} {result : Except Error Route.Outcome}

/-- What is submitted are some lost submissions, and perhaps one that is not. -/
theorem submissions_of_run
    (run : Dialogue.Run (site.sendDirectly (asking site.account) key attempts delay call).run turns
      result) :
    (site.submissions turns).length ≤ (Retry.Policy.transient attempts delay).attempts ∧
      (site.submissions turns).countP (!Intake.isLost ·) ≤ 1 := by
  obtain ⟨answered, rfl, hattempts⟩ := sendDirectly_run_iff.mp run
  have hpos := (Retry.Policy.transient attempts delay).attempts_pos
  by_cases hreachable : site.Reachable
  · obtain ⟨failed, last, hsubmissions, hfailed, hlength, -⟩ :=
      (sent_of_attempts hreachable hattempts).upToHeard
    have hlost : failed.countP (!Intake.isLost ·) = 0 := by
      refine List.countP_eq_zero.mpr fun outcome hmem => ?_
      simp [Intake.isLost_iff.mpr (hfailed outcome hmem)]
    rw [hsubmissions]
    constructor
    · simp only [List.length_append, List.length_singleton]
      omega
    · rw [List.countP_append, hlost, Nat.zero_add]
      exact List.countP_le_length
  · obtain ⟨rfl, -⟩ := attempts_unreachable hreachable hattempts
    have hnone : site.submissions (List.replicate
        ((Retry.Policy.transient attempts delay).attempts - 1) ⟨.sleep delay, ()⟩) = [] := by
      refine List.filterMap_eq_nil_iff.mpr fun turn hmem => ?_
      rw [List.eq_of_mem_replicate hmem]
      rfl
    simp [hnone]

/-- Every attempt may be lost, and accepted. -/
theorem exists_attempts_lost (key : Option Secp256k1.Key) (attempts : Nat) (delay : Span)
    (draft : Node.Draft) (hreachable : site.Reachable) (left number : Nat) (s : Intake) :
    ∃ turns answered, (Retry.Policy.transient attempts delay).Attempts (asking site.account).clock
        ((site.sender (asking site.account) key).submit draft) left number turns answered ∧
      site.accepting.Steps s turns { s with lost := s.lost + (left + 1) } := by
  have hlost : site.hashIn none = .error (.network _) := rfl
  have hrun : Dialogue.Run ((site.sender (asking site.account) key).submit draft).run _ _ :=
    submit_run_failed hreachable hlost
  have haccepted (s : Intake) : site.accepting.answers s (.exchange (site.sendQuery draft)) none
      { s with lost := s.lost + 1 } := .inr ⟨_, submission?_sendQuery, rfl⟩
  induction left generalizing number s with
  | zero => exact ⟨_, _, .last hrun fun _ _ => .inl rfl, .cons (haccepted s) (.nil _)⟩
  | succ left ih =>
    obtain ⟨rest, answered, hattempts, hsteps⟩ := ih (number + 1) { s with lost := s.lost + 1 }
    refine ⟨_, answered, .again hrun rfl (sleep_run site.account delay) hattempts,
      .cons (haccepted s) (.cons (.inl rfl) ?_)⟩
    have hcount : s.lost + 1 + (left + 1) = s.lost + (left + 1 + 1) := by omega
    rw [hcount] at hsteps
    exact hsteps

end Calls

section Whole

variable (site : Site) (key : Option Secp256k1.Key) (attempts : Nat) (delay : Span) (call : Call)

/-- **How many transactions a node accepts for one call.** Of all that is submitted in one run, at
most one transaction is accepted whose reply is heard, and there are not more than the policy allows
attempts; so there is at most one exactly if no reply is lost to a transaction that is accepted, or
only one and no other transaction is accepted. That there is always at most one is true of a policy
only if it allows a single attempt. -/
theorem accepted_for_call :
    (∀ turns result s,
      Dialogue.Run (site.sendDirectly (asking site.account) key attempts delay call).run turns
        result →
      site.accepting.Steps ⟨0, 0⟩ turns s →
        s.heard ≤ 1 ∧ s.accepted ≤ (Retry.Policy.transient attempts delay).attempts ∧
          (s.accepted ≤ 1 ↔ s.lost = 0 ∨ s.lost = 1 ∧ s.heard = 0)) ∧
    (site.Reachable →
      ((∀ turns result s,
        Dialogue.Run (site.sendDirectly (asking site.account) key attempts delay call).run turns
          result →
        site.accepting.Steps ⟨0, 0⟩ turns s → s.accepted ≤ 1) ↔
          (Retry.Policy.transient attempts delay).attempts = 1)) := by
  have hpos := (Retry.Policy.transient attempts delay).attempts_pos
  have hbound (turns : List Turn) (result : Except Error Route.Outcome) (s : Intake)
      (run : Dialogue.Run (site.sendDirectly (asking site.account) key attempts delay call).run
        turns result) (steps : site.accepting.Steps ⟨0, 0⟩ turns s) :
      s.heard ≤ 1 ∧ s.accepted ≤ (Retry.Policy.transient attempts delay).attempts := by
    obtain ⟨hlost, hheard⟩ := le_of_accepting steps
    obtain ⟨hlength, hone⟩ := submissions_of_run run
    have hall : (site.submissions turns).length = (site.submissions turns).countP Intake.isLost +
        (site.submissions turns).countP (!Intake.isLost ·) := by
      simpa using List.length_eq_countP_add_countP Intake.isLost
    simp only [Nat.zero_add] at hlost hheard
    rw [Intake.accepted]
    omega
  refine ⟨fun turns result s run steps => ?_, fun hreachable => ⟨fun honce => ?_, ?_⟩⟩
  · obtain ⟨hheard, haccepted⟩ := hbound turns result s run steps
    refine ⟨hheard, haccepted, ?_⟩
    rw [Intake.accepted]
    omega
  · -- As many transactions are accepted as there are attempts, if all replies are lost.
    obtain ⟨turns, answered, hattempts, hsteps⟩ := exists_attempts_lost key attempts delay
      (site.draftOf call) hreachable ((Retry.Policy.transient attempts delay).attempts - 1) 1 ⟨0, 0⟩
    have haccepted := honce turns _ _ (sendDirectly_run_iff.mpr ⟨answered, rfl, hattempts⟩) hsteps
    simp only [Intake.accepted] at haccepted
    omega
  · intro hsingle turns result s run steps
    exact hsingle ▸ (hbound turns result s run steps).2

end Whole

/-! The call whose first submission is not heard of, at a node that accepts both submissions. -/

theorem sentTurns_steps : patientSite.accepting.Steps ⟨0, 0⟩ sentTurns ⟨1, 1⟩ := by
  have hlost : patientSite.accepting.answers ⟨0, 0⟩
      (.exchange (patientSite.sendQuery (patientSite.draftOf sentCall))) none ⟨1, 0⟩ :=
    .inr ⟨_, submission?_sendQuery, rfl⟩
  have hheard : patientSite.accepting.answers ⟨1, 0⟩
      (.exchange (patientSite.sendQuery (patientSite.draftOf sentCall))) (some hashReply)
      ⟨1, 1⟩ := by
    refine .inr ⟨.ok (.ofNat 7), ?_, rfl⟩
    rw [submission?_sendQuery, hashIn_hashReply]
  exact .cons hlost (.cons (.inl rfl) (.cons hheard (.cons (.inl rfl) (.cons (.inl rfl)
    (.cons (.inl rfl) (.cons (.inl rfl) (.cons (.inl rfl) (.nil _))))))))

theorem two_accepted_for_one_call :
    Dialogue.Run (patientSite.sendDirectly (asking patientSite.account) none 3 5 sentCall).run
      sentTurns (.ok (.mined sentReceipt)) ∧
    patientSite.accepting.Steps ⟨0, 0⟩ sentTurns ⟨1, 1⟩ ∧ ¬ (⟨1, 1⟩ : Intake).accepted ≤ 1 :=
  ⟨sentTurns_run, sentTurns_steps, by decide⟩

theorem accepted_for_call_lost :
    ((⟨1, 1⟩ : Intake).heard ≤ 1 ∧ (⟨1, 1⟩ : Intake).accepted ≤ 3) ∧
      ∀ turns result s,
        Dialogue.Run (patientSite.sendDirectly (asking patientSite.account) none 1 5 sentCall).run
          turns result →
        patientSite.accepting.Steps ⟨0, 0⟩ turns s → s.accepted ≤ 1 := by
  have hlost := (accepted_for_call patientSite none 3 5 sentCall).1 _ _ _ sentTurns_run
    sentTurns_steps
  have hsingle := (accepted_for_call patientSite none 1 5 sentCall).2 patientSite_reachable
  exact ⟨⟨hlost.1, hlost.2.1⟩, hsingle.mpr rfl⟩

end ProxyUpgrade.Site
