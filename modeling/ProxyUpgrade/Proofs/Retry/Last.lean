import Mathlib.Data.List.Basic
import Mathlib.Data.Nat.Find
import Mathlib.Order.Bounds.Defs
import ProxyUpgrade.Proofs.Retry
/-!
# Which attempt is the last one

What comes of an attempt, together with its number, settles whether another one follows: none does
after a success, after a failure that the policy does not take for worth it, and after the attempt
whose number is the one the policy allows (`Retry.Policy.Final`). So, given what would come of each
attempt, the last one is the first that is final, and there always is one.

All else is said by the attempts in order, each but the last followed by a pause of the length that
the policy asks for (`Retry.Policy.interleaved`). The runs of an action that is tried again are
these, no more and no fewer, and their outcome is the one of the last attempt
(`Retry.Policy.run_iff_last`). Since attempts may be of any action, with any answers, this is what
happens whatever happens: nothing is attempted after a success, and no attempt is left out.
-/

namespace ProxyUpgrade.Retry.Policy

variable {Q : Type} {A : Q → Type} {α : Type}

/-- **An attempt is final**, given what comes of each: it succeeds, or it fails in a way that is not
worth another attempt at its number, or it is the last one that is allowed. -/
def Final (policy : Policy) (outcomes : Nat → Except Error α) (number : Nat) : Prop :=
  (∃ a, outcomes number = .ok a) ∨
    (∃ e again, outcomes number = .error e ∧ policy.again = some again ∧
      again e number = false) ∨
    number = policy.attempts

/-- The turns of attempts from a first to a last one, with those of a pause after each but the
last. -/
def interleaved (attempt pause : Nat → List (Dialogue.Turn A)) (first last : Nat) :
    List (Dialogue.Turn A) :=
  (List.range' first (last - first)).flatMap (fun number => attempt number ++ pause number) ++
    attempt last

theorem interleaved_self (attempt pause : Nat → List (Dialogue.Turn A)) (first : Nat) :
    interleaved attempt pause first first = attempt first := by
  simp [interleaved]

theorem interleaved_of_lt (attempt pause : Nat → List (Dialogue.Turn A)) {first last : Nat}
    (h : first < last) : interleaved attempt pause first last =
      attempt first ++ (pause first ++ interleaved attempt pause (first + 1) last) := by
  obtain ⟨count, rfl⟩ := Nat.exists_eq_add_of_lt h
  have hcount : first + count + 1 - first = count + 1 := by omega
  have hrest : first + count + 1 - (first + 1) = count := by omega
  simp [interleaved, hcount, hrest, List.range'_succ]

/-- What is asked before the first attempt makes no difference. -/
theorem interleaved_congr {attempt attempt' pause pause' : Nat → List (Dialogue.Turn A)}
    {first last : Nat} (hle : first ≤ last)
    (hattempt : ∀ number, first ≤ number → attempt number = attempt' number)
    (hpause : ∀ number, first ≤ number → pause number = pause' number) :
    interleaved attempt pause first last = interleaved attempt' pause' first last := by
  rw [interleaved, interleaved, hattempt last hle]
  congr 1
  refine List.flatMap_congr fun number hmem => ?_
  have hnumber := (List.mem_range'_1.mp hmem).1
  rw [hattempt number hnumber, hpause number hnumber]

section Last

variable (policy : Policy) (outcomes : Nat → Except Error α)

/-- **There is a first attempt that is final.** -/
theorem exists_last :
    ∃ last, IsLeast {number | 1 ≤ number ∧ policy.Final outcomes number} last := by
  classical
  have hfinal : ∃ number, 1 ≤ number ∧ policy.Final outcomes number :=
    ⟨policy.attempts, policy.attempts_pos, .inr (.inr rfl)⟩
  exact ⟨Nat.find hfinal, Nat.find_spec hfinal, fun _ h => Nat.find_min' hfinal h⟩

variable {policy outcomes}

/-- Whether an attempt is final is up to what comes of it. -/
theorem final_congr {outcomes' : Nat → Except Error α} {number : Nat}
    (h : outcomes number = outcomes' number) :
    policy.Final outcomes number ↔ policy.Final outcomes' number := by
  rw [Final, Final, h]

/-- An attempt that is not final has failed in a way that is worth another one. -/
theorem exists_of_not_final {number : Nat} (h : ¬ policy.Final outcomes number) :
    ∃ e, outcomes number = .error e ∧ policy.retries e number = true := by
  simp only [Final, not_or] at h
  obtain ⟨hfailed, hrefused, -⟩ := h
  rcases houtcome : outcomes number with e | a
  · refine ⟨e, rfl, ?_⟩
    rcases hagain : policy.again with - | again
    · simp [retries, hagain]
    · rw [retries, hagain]
      exact Bool.of_not_eq_false fun hfalse => hrefused ⟨e, again, houtcome, hagain, hfalse⟩
  · exact absurd ⟨a, houtcome⟩ hfailed

/-- A failure that is worth another attempt is not final as long as others are allowed. -/
theorem not_final_of_retries {number : Nat} {e : Error} (houtcome : outcomes number = .error e)
    (hworth : policy.retries e number = true) (hlt : number < policy.attempts) :
    ¬ policy.Final outcomes number := by
  rintro (⟨a, ha⟩ | ⟨e', again, he, hagain, hfalse⟩ | rfl)
  · rw [houtcome] at ha
    cases ha
  · rw [houtcome] at he
    cases he
    simp [retries, hagain, hfalse] at hworth
  · exact absurd hlt (Nat.lt_irrefl _)

/-- Of a failure that is final, nothing is left of the attempts or it is not worth another one. -/
theorem Final.of_error {number : Nat} {e : Error} (h : policy.Final outcomes number)
    (houtcome : outcomes number = .error e) :
    number = policy.attempts ∨ policy.retries e number = false := by
  by_contra hcontra
  rw [not_or, Bool.not_eq_false] at hcontra
  rcases h with ⟨a, ha⟩ | ⟨e', again, he, hagain, hfalse⟩ | hlast
  · rw [houtcome] at ha
    cases ha
  · rw [houtcome] at he
    cases he
    simp [retries, hagain, hfalse] at hcontra
  · exact hcontra.1 hlast

end Last

section Runs

variable {policy : Policy} {clock : Clock (Dialogue Q A)} {action : Action (Dialogue Q A) α}
  {turns : List (Dialogue.Turn A)} {result : Except Error α}

/-- **What is said of the attempts from a number on**: what comes of each, its turns and those of
the pause after it, as far as the first one that is final. -/
structure Schedule (policy : Policy) (clock : Clock (Dialogue Q A))
    (action : Action (Dialogue Q A) α) (outcomes : Nat → Except Error α)
    (attempt pause : Nat → List (Dialogue.Turn A)) (first last : Nat) : Prop where
  isLeast : IsLeast {number | first ≤ number ∧ policy.Final outcomes number} last
  attempted : ∀ number, first ≤ number → number ≤ last →
    Dialogue.Run action.run (attempt number) (outcomes number)
  paused : ∀ number, first ≤ number → number < last →
    Dialogue.Run (clock.sleep policy.delay) (pause number) ()

/-- A single attempt, if it is final. -/
theorem Schedule.single {number : Nat} (run : Dialogue.Run action.run turns result)
    (final : policy.Final (fun _ => result) number) :
    Schedule policy clock action (fun _ => result) (fun _ => turns) (fun _ => []) number
      number where
  isLeast := ⟨⟨Nat.le_refl _, final⟩, fun _ hmem => hmem.1⟩
  attempted _ _ _ := run
  paused _ hle hlt := absurd hle (Nat.not_le_of_lt hlt)

/-- **An attempt is put in front of a schedule.** -/
theorem Schedule.again {outcomes : Nat → Except Error α}
    {attempt pause : Nat → List (Dialogue.Turn A)} {number last : Nat} {e : Error}
    {first slept : List (Dialogue.Turn A)}
    (h : Schedule policy clock action outcomes attempt pause (number + 1) last)
    (run : Dialogue.Run action.run first (.error e)) (worth : policy.retries e number = true)
    (paused : Dialogue.Run (clock.sleep policy.delay) slept ())
    (hallowed : number < policy.attempts) :
    Schedule policy clock action (Function.update outcomes number (.error e))
      (Function.update attempt number first) (Function.update pause number slept) number last := by
  have hlt : number < last := h.isLeast.1.1
  -- Nothing changes behind the attempt.
  have hbehind {other : Nat} (hle : number + 1 ≤ other) : other ≠ number := by omega
  refine ⟨⟨⟨Nat.le_of_lt hlt, ?_⟩, ?_⟩, ?_, ?_⟩
  · rw [final_congr (Function.update_of_ne (hbehind hlt) _ _)]
    exact h.isLeast.1.2
  · rintro other ⟨hle, hfinal⟩
    rcases Nat.eq_or_lt_of_le hle with rfl | hother
    · exact absurd hfinal (not_final_of_retries (Function.update_self _ _ _) worth hallowed)
    · rw [final_congr (Function.update_of_ne (hbehind hother) _ _)] at hfinal
      exact h.isLeast.2 ⟨hother, hfinal⟩
  · intro other hle hother
    rcases Nat.eq_or_lt_of_le hle with rfl | hbefore
    · simpa using run
    · rw [Function.update_of_ne (hbehind hbefore), Function.update_of_ne (hbehind hbefore)]
      exact h.attempted other hbefore hother
  · intro other hle hother
    rcases Nat.eq_or_lt_of_le hle with rfl | hbefore
    · simpa using paused
    · rw [Function.update_of_ne (hbehind hbefore)]
      exact h.paused other hbefore hother

theorem interleaved_update {attempt pause : Nat → List (Dialogue.Turn A)} {number last : Nat}
    (hlt : number < last) (first slept : List (Dialogue.Turn A)) :
    interleaved (Function.update attempt number first) (Function.update pause number slept) number
      last = first ++ (slept ++ interleaved attempt pause (number + 1) last) := by
  have hbehind {other : Nat} (hle : number + 1 ≤ other) : other ≠ number := by omega
  have hrest : interleaved (Function.update attempt number first)
      (Function.update pause number slept) (number + 1) last =
      interleaved attempt pause (number + 1) last :=
    interleaved_congr hlt (fun _ hother => Function.update_of_ne (hbehind hother) _ _)
      fun _ hother => Function.update_of_ne (hbehind hother) _ _
  rw [interleaved_of_lt _ _ hlt, hrest, Function.update_self, Function.update_self]

/-- Attempts follow a schedule. -/
theorem Attempts.exists_schedule {left number : Nat}
    (h : policy.Attempts clock action left number turns result)
    (hleft : number + left = policy.attempts) :
    ∃ outcomes attempt pause last,
      Schedule policy clock action outcomes attempt pause number last ∧
        turns = interleaved attempt pause number last ∧ result = outcomes last := by
  -- The schedule of the attempts that are left has the first one put in front.
  induction h with
  | @last left number turns result run final =>
    have hfinal : policy.Final (fun _ => result) number := by
      by_contra hcontra
      obtain ⟨e, he, hworth⟩ := exists_of_not_final hcontra
      rcases final e he with rfl | hrefused
      · exact hcontra (.inr (.inr hleft))
      · rw [hrefused] at hworth
        cases hworth
    have hturns := interleaved_self (fun _ => turns) (fun _ => []) number
    exact ⟨_, _, _, number, .single run hfinal, hturns.symm, rfl⟩
  | @again left number first slept rest e result run worth hslept _ ih =>
    obtain ⟨outcomes, attempt, pause, last, schedule, rfl, rfl⟩ := ih (by omega)
    have hlt : number < last := schedule.isLeast.1.1
    exact ⟨_, _, _, last, schedule.again run worth hslept (by omega),
      (interleaved_update hlt first slept).symm,
      (Function.update_of_ne (Nat.ne_of_gt hlt) _ _).symm⟩

/-- Attempts can follow any schedule. -/
theorem Schedule.attempts {outcomes : Nat → Except Error α}
    {attempt pause : Nat → List (Dialogue.Turn A)} {left number last : Nat}
    (h : Schedule policy clock action outcomes attempt pause number last)
    (hleft : number + left = policy.attempts) :
    policy.Attempts clock action left number (interleaved attempt pause number last)
      (outcomes last) := by
  -- Where no attempt is left, the present one is final for this reason alone.
  induction left generalizing number with
  | zero =>
    obtain rfl : number = last :=
      Nat.le_antisymm h.isLeast.1.1 (h.isLeast.2 ⟨Nat.le_refl _, .inr (.inr hleft)⟩)
    rw [interleaved_self]
    exact .last (h.attempted number (Nat.le_refl _) (Nat.le_refl _)) fun _ _ => .inl rfl
  | succ left ih =>
    rcases Nat.eq_or_lt_of_le h.isLeast.1.1 with rfl | hlt
    · rw [interleaved_self]
      refine .last (h.attempted number (Nat.le_refl _) (Nat.le_refl _)) fun e he => .inr ?_
      exact (h.isLeast.1.2.of_error he).resolve_left (by omega)
    · obtain ⟨e, he, hworth⟩ := exists_of_not_final fun hfinal =>
        Nat.not_le_of_lt hlt (h.isLeast.2 ⟨Nat.le_refl _, hfinal⟩)
      have hfirst := h.attempted number (Nat.le_refl _) (Nat.le_of_lt hlt)
      rw [he] at hfirst
      have hrest : Schedule policy clock action outcomes attempt pause (number + 1) last :=
        ⟨⟨⟨hlt, h.isLeast.1.2⟩, fun other hother =>
            h.isLeast.2 ⟨Nat.le_of_succ_le hother.1, hother.2⟩⟩,
          fun other hle => h.attempted other (Nat.le_of_succ_le hle),
          fun other hle => h.paused other (Nat.le_of_succ_le hle)⟩
      rw [interleaved_of_lt _ _ hlt]
      exact .again hfirst hworth (h.paused number (Nat.le_refl _) hlt) (ih hrest (by omega))

end Runs

/-- **What comes of trying again.** Whatever would come of each attempt, there is a first one that
is final. The runs of an action that is tried again consist of the attempts up to this one, each but
the last followed by a pause of the policy's length, and of nothing else; they can be any attempts
and pauses. The outcome is the one of the last attempt. -/
theorem run_iff_last (policy : Policy) (clock : Clock (Dialogue Q A))
    (action : Action (Dialogue Q A) α) :
    (∀ outcomes : Nat → Except Error α,
      ∃ last, IsLeast {number | 1 ≤ number ∧ policy.Final outcomes number} last) ∧
    ∀ turns result, Dialogue.Run (policy.run clock action).run turns result ↔
      ∃ (outcomes : Nat → Except Error α) (attempt pause : Nat → List (Dialogue.Turn A))
        (last : Nat),
        IsLeast {number | 1 ≤ number ∧ policy.Final outcomes number} last ∧
        (∀ number, 1 ≤ number → number ≤ last →
          Dialogue.Run action.run (attempt number) (outcomes number)) ∧
        (∀ number, 1 ≤ number → number < last →
          Dialogue.Run (clock.sleep policy.delay) (pause number) ()) ∧
        turns = (List.range' 1 (last - 1)).flatMap
          (fun number => attempt number ++ pause number) ++ attempt last ∧
        result = outcomes last := by
  have hattempts : 1 + (policy.attempts - 1) = policy.attempts :=
    Nat.add_sub_of_le policy.attempts_pos
  refine ⟨policy.exists_last, fun turns result => ?_⟩
  rw [run_iff_attempts]
  constructor
  · intro h
    obtain ⟨outcomes, attempt, pause, last, schedule, hturns, hresult⟩ :=
      h.exists_schedule hattempts
    exact ⟨outcomes, attempt, pause, last, schedule.isLeast, schedule.attempted, schedule.paused,
      hturns, hresult⟩
  · rintro ⟨outcomes, attempt, pause, last, hleast, hattempted, hpaused, rfl, rfl⟩
    exact Schedule.attempts ⟨hleast, hattempted, hpaused⟩ hattempts

/-! An action of a single question, under a policy with five attempts that takes a failure for worth
another one at the first attempt only. -/

namespace Noted

/-- What is answered to an attempt, and to a pause. -/
def Answer : Option Span → Type
  | none => Except Error Nat
  | some _ => Unit

/-- The action. -/
def action : Action (Dialogue (Option Span) Answer) Nat :=
  ExceptT.mk (Dialogue.question none)

/-- The clock. -/
def clock : Clock (Dialogue (Option Span) Answer) where
  now := pure 0
  sleep time := Dialogue.question (some time)

/-- The policy. -/
def policy : Policy := (Policy.every 5 10).choosing fun _ number => number ≤ 1

/-- Failures only. -/
def outcomes (number : Nat) : Except Error Nat := .error (.config s!"attempt {number}")

theorem isLeast : IsLeast {number | 1 ≤ number ∧ policy.Final outcomes number} 2 := by
  refine ⟨⟨by decide, .inr (.inl ⟨_, _, rfl, rfl, rfl⟩)⟩, ?_⟩
  rintro number ⟨hpos, hfinal⟩
  by_contra hlt
  obtain rfl : number = 1 := by omega
  exact not_final_of_retries rfl rfl (by decide) hfinal

end Noted

theorem run_iff_last_refused :
    Dialogue.Run (Noted.policy.run Noted.clock Noted.action).run
      [⟨none, Noted.outcomes 1⟩, ⟨some 10, ()⟩, ⟨none, Noted.outcomes 2⟩] (Noted.outcomes 2) := by
  refine ((run_iff_last Noted.policy Noted.clock Noted.action).2 _ _).mpr ⟨Noted.outcomes,
    fun number => [⟨none, Noted.outcomes number⟩], fun _ => [⟨some 10, ()⟩], 2, Noted.isLeast,
    fun number _ _ => ?_, fun number _ _ => ?_, rfl, rfl⟩
  · exact Dialogue.run_question.mpr rfl
  · exact Dialogue.run_question.mpr rfl

end ProxyUpgrade.Retry.Policy
