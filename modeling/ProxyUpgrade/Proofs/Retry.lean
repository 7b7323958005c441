import ProxyUpgrade.Proofs.Dialogue
import ProxyUpgrade.Retry
/-!
# Actions that are tried again

How often an action is attempted, and with which pauses, is up to the policy. What can be said of it
whatever the policy is: an invariant of single attempts and of the pauses is one of the whole
(`Retry.Policy.run_obeys`), an action that never fails is attempted once
(`Retry.Policy.run_obeys_of_ok`), and it makes no difference whether questions are answered at once
or afterwards (`Retry.Policy.run_answeredBy`). A run is a list of attempts, all but the last of
which have failed (`Retry.Policy.run_iff_attempts`), so what it takes can be told from what an
attempt and a pause take (`Retry.Policy.Attempts.measure_le`).
-/

namespace ProxyUpgrade

section Answers

variable {Q : Type} {A : Q → Type} {m : Type → Type} [Monad m] (reply : (q : Q) → m (A q))

/-- A clock whose questions are answered. -/
def Clock.answeredBy (clock : Clock (Dialogue Q A)) : Clock m where
  now := clock.now.answeredBy reply
  sleep time := (clock.sleep time).answeredBy reply

variable [LawfulMonad m]

theorem Retry.Policy.runFrom_answeredBy {α : Type} (policy : Retry.Policy)
    (clock : Clock (Dialogue Q A)) (action : Action (Dialogue Q A) α) (left number : Nat) :
    (policy.runFrom clock action left number).answeredBy reply =
      policy.runFrom (clock.answeredBy reply) (Action.answeredBy reply action) left number := by
  induction left generalizing number with
  | zero => rfl
  | succ left ih =>
    simp only [runFrom, Dialogue.answeredBy_bind]
    refine bind_congr fun result => ?_
    rcases result with e | value
    · dsimp only
      split
      · simp only [Dialogue.answeredBy_bind, ih]
        rfl
      · rfl
    · rfl

theorem Retry.Policy.run_answeredBy {α : Type} (policy : Retry.Policy)
    (clock : Clock (Dialogue Q A)) (action : Action (Dialogue Q A) α) :
    Action.answeredBy reply (policy.run clock action) =
      policy.run (clock.answeredBy reply) (Action.answeredBy reply action) :=
  policy.runFrom_answeredBy reply clock action _ _

end Answers

namespace Retry.Policy

variable {S Q : Type} {A : Q → Type} {α : Type} {rules : Dialogue.Rules S Q A}
  {clock : Clock (Dialogue Q A)} {action : Action (Dialogue Q A) α} {s : S}

/-- **An action that is tried again keeps an invariant** if each attempt does, and the waiting does.
What holds after a failed attempt has to do for the last one as well. -/
theorem run_obeys (policy : Policy) (kept : S → Prop) {post : S → Except Error α → Prop}
    (hsleep : ∀ s time, kept s → (clock.sleep time).Obeys rules s fun s' _ => kept s')
    (hfailed : ∀ s e, kept s → post s (.error e))
    (h : ∀ s, kept s → action.Obeys rules s fun s' result =>
      match result with
      | .ok a => post s' (.ok a)
      | .error _ => kept s')
    (hs : kept s) : (policy.run clock action).Obeys rules s post := by
  have hlast (s : S) (result : Except Error α)
      (hresult : match result with | .ok a => post s (.ok a) | .error _ => kept s) :
      post s result := by
    rcases result with e | a
    · exact hfailed s e hresult
    · exact hresult
  change (policy.runFrom clock action (policy.attempts - 1) 1).Obeys rules s post
  -- The induction is on the attempts that are left; their numbers only matter to the policy.
  generalize policy.attempts - 1 = left
  generalize 1 = number
  induction left generalizing number s with
  | zero => exact (h s hs).mono hlast
  | succ left ih =>
    refine Dialogue.obeys_bind.mpr ((h s hs).mono ?_)
    rintro s' (e | a) hresult
    · dsimp only
      split
      · exact Dialogue.obeys_bind.mpr ((hsleep s' _ hresult).mono fun s'' _ hs'' => ih hs'' _)
      · exact hfailed s' e hresult
    · exact hresult

/-- **An action that cannot fail is attempted once.** -/
theorem run_obeys_of_ok (policy : Policy) (clock : Clock (Dialogue Q A)) {post : S → α → Prop}
    (h : action.Obeys rules s fun s' result => ∃ a, result = .ok a ∧ post s' a) :
    (policy.run clock action).Obeys rules s fun s' result => ∃ a, result = .ok a ∧ post s' a := by
  change (policy.runFrom clock action (policy.attempts - 1) 1).Obeys rules s _
  rcases policy.attempts - 1 with - | left
  · exact h
  · refine Dialogue.obeys_bind.mpr (h.mono ?_)
    rintro s' _ ⟨a, rfl, hpost⟩
    exact ⟨a, rfl, hpost⟩

/-! ### Attempts -/

section Attempts

variable (policy : Policy) (clock : Clock (Dialogue Q A)) (action : Action (Dialogue Q A) α)

/-- **The attempts at an action**: the first of them has the given number, and so many others may
follow it. Either it is the last one, or it fails, the failure is worth another attempt, and after a
pause come the attempts at what is left. -/
inductive Attempts : (left number : Nat) → List (Dialogue.Turn A) → Except Error α → Prop
  /-- The last attempt yields something, or nothing is worth trying any more. -/
  | last {left number : Nat} {turns : List (Dialogue.Turn A)} {result : Except Error α}
      (run : Dialogue.Run action.run turns result)
      (final : ∀ e, result = .error e → left = 0 ∨ policy.retries e number = false) :
    Attempts left number turns result
  /-- A failed attempt is followed by others. -/
  | again {left number : Nat} {first pause rest : List (Dialogue.Turn A)} {e : Error}
      {result : Except Error α} (run : Dialogue.Run action.run first (.error e))
      (worth : policy.retries e number = true)
      (slept : Dialogue.Run (clock.sleep policy.delay) pause ())
      (next : Attempts left (number + 1) rest result) :
    Attempts (left + 1) number (first ++ (pause ++ rest)) result

variable {policy clock action}

theorem attempts_of_runFrom {left number : Nat} {turns : List (Dialogue.Turn A)}
    {result : Except Error α}
    (run : Dialogue.Run (policy.runFrom clock action left number) turns result) :
    policy.Attempts clock action left number turns result := by
  induction left generalizing number turns with
  | zero => exact .last run fun _ _ => .inl rfl
  | succ left ih =>
    obtain ⟨first, attempted, rest, rfl, hfirst, hrest⟩ := Dialogue.Run.exists_of_bind run
    rcases attempted with e | a
    · dsimp only at hrest
      split at hrest
      next hworth =>
        obtain ⟨pause, ⟨⟩, rest, rfl, hpause, hrest⟩ := Dialogue.Run.exists_of_bind hrest
        exact .again hfirst hworth hpause (ih hrest)
      next hworth =>
        cases hrest
        rw [List.append_nil]
        refine .last hfirst ?_
        rintro _ ⟨⟩
        exact .inr (by simpa using hworth)
    · cases hrest
      rw [List.append_nil]
      exact .last hfirst (by rintro _ ⟨⟩)

theorem Attempts.runFrom {left number : Nat} {turns : List (Dialogue.Turn A)}
    {result : Except Error α} (h : policy.Attempts clock action left number turns result) :
    Dialogue.Run (policy.runFrom clock action left number) turns result := by
  induction h with
  | @last left number turns result run final =>
    rcases left with - | left
    · exact run
    · rw [← List.append_nil turns]
      refine Dialogue.Run.bind run ?_
      rcases result with e | a
      · have hfinal : policy.retries e number = false := by simpa using final e rfl
        dsimp only
        rw [if_neg (by simp [hfinal])]
        exact .done _
      · exact .done _
  | again run worth slept _ ih =>
    refine Dialogue.Run.bind run ?_
    dsimp only
    rw [if_pos worth]
    exact Dialogue.Run.bind slept ih

/-- **The runs of an action that is tried again** are the attempts at it. -/
theorem run_iff_attempts {turns : List (Dialogue.Turn A)} {result : Except Error α} :
    Dialogue.Run (policy.run clock action).run turns result ↔
      policy.Attempts clock action (policy.attempts - 1) 1 turns result :=
  ⟨attempts_of_runFrom, Attempts.runFrom⟩

/-- **The turns end with the last attempt.** Those before it are turns of attempts that have failed,
and of pauses. -/
theorem Attempts.exists_last {left number : Nat} {turns : List (Dialogue.Turn A)}
    {result : Except Error α} (h : policy.Attempts clock action left number turns result) :
    ∃ before last, turns = before ++ last ∧ Dialogue.Run action.run last result ∧
      ∀ turn ∈ before, (∃ failed e, Dialogue.Run action.run failed (.error e) ∧ turn ∈ failed) ∨
        ∃ pause, Dialogue.Run (clock.sleep policy.delay) pause () ∧ turn ∈ pause := by
  induction h with
  | @last _ _ turns _ run final => exact ⟨[], turns, rfl, run, by simp⟩
  | @again _ _ first pause rest e _ run worth slept next ih =>
    obtain ⟨before, last, rfl, hlast, hbefore⟩ := ih
    refine ⟨first ++ pause ++ before, last, by simp, hlast, ?_⟩
    simp only [List.forall_mem_append]
    exact ⟨⟨fun turn hmem => .inl ⟨first, e, run, hmem⟩,
      fun turn hmem => .inr ⟨pause, slept, hmem⟩⟩,
      hbefore⟩

/-- What holds of all turns of an attempt and of a pause holds of all turns. -/
theorem Attempts.forall_turns {p : Dialogue.Turn A → Prop} {left number : Nat}
    {turns : List (Dialogue.Turn A)} {result : Except Error α}
    (h : policy.Attempts clock action left number turns result)
    (hattempt : ∀ turns result, Dialogue.Run action.run turns result → ∀ turn ∈ turns, p turn)
    (hpause : ∀ turns, Dialogue.Run (clock.sleep policy.delay) turns () → ∀ turn ∈ turns, p turn) :
    ∀ turn ∈ turns, p turn := by
  obtain ⟨before, last, rfl, hlast, hbefore⟩ := h.exists_last
  simp only [List.forall_mem_append]
  refine ⟨fun turn hmem => ?_, hattempt _ _ hlast⟩
  obtain ⟨failed, e, run, hmem⟩ | ⟨pause, slept, hmem⟩ := hbefore turn hmem
  · exact hattempt _ _ run turn hmem
  · exact hpause _ slept turn hmem

/-- **What attempts amount to**, in a measure that adds up: there is one pause less than there are
attempts. -/
theorem Attempts.measure_le {measure : List (Dialogue.Turn A) → Nat}
    {left number : Nat} {turns : List (Dialogue.Turn A)} {result : Except Error α}
    (h : policy.Attempts clock action left number turns result) (each pause : Nat)
    (hadd : ∀ first rest, measure (first ++ rest) = measure first + measure rest)
    (hattempt : ∀ turns result, Dialogue.Run action.run turns result → measure turns ≤ each)
    (hpause : ∀ turns, Dialogue.Run (clock.sleep policy.delay) turns () → measure turns ≤ pause) :
    measure turns ≤ (left + 1) * each + left * pause := by
  induction h with
  | @last left _ turns _ run final =>
    calc measure turns ≤ each := hattempt _ _ run
      _ ≤ (left + 1) * each := Nat.le_mul_of_pos_left _ (Nat.succ_pos _)
      _ ≤ (left + 1) * each + left * pause := Nat.le_add_right _ _
  | @again left _ first slept rest _ _ run worth hslept next ih =>
    have hfirst := hattempt _ _ run
    have hwait := hpause _ hslept
    have hsplit : (left + 1 + 1) * each + (left + 1) * pause =
        each + pause + ((left + 1) * each + left * pause) := by
      simp only [Nat.add_mul, Nat.one_mul]
      omega
    rw [hadd, hadd, hsplit]
    omega

/-- Without a choice of failures, nothing but success ends the attempts before they are used up. -/
theorem Attempts.le_measure {measure : List (Dialogue.Turn A) → Nat} {left number : Nat}
    {turns : List (Dialogue.Turn A)} {e : Error} (hagain : policy.again = none)
    (h : policy.Attempts clock action left number turns (.error e)) (each : Nat)
    (hadd : ∀ first rest, measure (first ++ rest) = measure first + measure rest)
    (hattempt : ∀ turns e, Dialogue.Run action.run turns (.error e) → each ≤ measure turns) :
    (left + 1) * each ≤ measure turns := by
  generalize hresult : (.error e : Except Error α) = result at h
  induction h with
  | @last left number turns result run final =>
    have hleft : left = 0 := by
      simpa [Policy.retries, hagain] using final e hresult.symm
    subst hleft hresult
    simpa using hattempt _ _ run
  | @again left _ first slept rest _ _ run worth hslept next ih =>
    have hfirst := hattempt _ _ run
    have hrest := ih hresult
    rw [hadd, hadd, Nat.add_mul, Nat.one_mul]
    omega

/-- An action that succeeds at once is attempted once. -/
theorem run_of_ok {turns : List (Dialogue.Turn A)} {a : α}
    (run : Dialogue.Run action.run turns (.ok a)) :
    Dialogue.Run (policy.run clock action).run turns (.ok a) :=
  run_iff_attempts.mpr (.last run (by rintro _ ⟨⟩))

end Attempts

end Retry.Policy

end ProxyUpgrade
