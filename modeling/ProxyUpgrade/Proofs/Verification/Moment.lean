import ProxyUpgrade.Proofs.Verification.Course
/-!
# The moment from which a target is shown

An explorer goes over what is submitted to it in its own time, so a target may come to be shown at
any moment: between two calls of a verification, or while it lets time pass. From then on it stays
shown, and the explorer refuses to have it submitted again (`Verification.Shows`). The turns before
the moment and those after it are told apart here by writing all turns as `early ++ late`.

A verification only learns of the moment if it asks afterwards. It asks at the start, and after each
submission that is accepted, but not after one that is refused. So a target that comes to be shown
after a poll, or after the queries at the start, is submitted once more, and all that is left of the
attempts are refusals: the target is shown before the last attempt begins, and the outcome is a
failure (`Verification.shown_in_time`). There is no policy under which that cannot happen, as long
as it does not choose between failures.
-/

namespace ProxyUpgrade.Verification

/-- **What an explorer answers that has come to show a target**, or has not yet: the target is shown
if it is asked for, and it is not accepted again. -/
def Shows (target : Explorer.Target) (shown : Bool) : Turn → Prop
  | ⟨.isVerified other, answer⟩ => other = target → (answer = .ok true ↔ shown = true)
  | ⟨.submit other, (_, submitted)⟩ =>
    other = target → shown = true → ∃ e, submitted = .error e
  | _ => True

/-- It could not be found out at the start whether the target is shown. -/
def Unanswered (target : Explorer.Target) (turns : List Turn) : Prop :=
  submissions turns = 0 ∧ ∃ before e, turns = before ++ [⟨.isVerified target, .error e⟩]

section Answers

variable {policy : Retry.Policy} {target : Explorer.Target} {safetyDelay : Span}
  {left number : Nat} {turns : List Turn}

theorem pause_ne {delay : Span} {pause : List Turn} {turn : Turn}
    (slept : Dialogue.Run (pauses.sleep delay) pause ()) (hmem : turn ∈ pause)
    (answer : Except Error Bool) : turn ≠ ⟨.isVerified target, answer⟩ := by
  rw [pause_run_iff.mp slept, List.mem_singleton] at hmem
  rintro rfl
  cases hmem

/-- The explorer shows the target in an attempt that goes well, and in no other. -/
theorem Round.mem_iff {result : Except Error Unit} (round : Round safetyDelay target turns result) :
    ⟨.isVerified target, .ok true⟩ ∈ turns ↔ result = .ok () := by
  cases round with
  | refused lines e => simp
  | polled lines answer => rcases answer with e | _ | _ <;> simp [judged]

theorem asked_mem_iff {answer : Except Error Bool}
    (h : policy.Attempts pauses (asking.isVerified target) left number turns answer) :
    ⟨.isVerified target, .ok true⟩ ∈ turns ↔ answer = .ok true := by
  obtain ⟨before, last, rfl, run, hbefore⟩ := h.exists_last
  rw [List.mem_append, query_run_iff.mp run, List.mem_singleton]
  constructor
  · rintro (hmem | heq)
    · obtain ⟨failed, e, hfailed, hmem⟩ | ⟨pause, slept, hmem⟩ := hbefore _ hmem
      · rw [query_run_iff.mp hfailed, List.mem_singleton] at hmem
        cases hmem
      · exact absurd rfl (pause_ne slept hmem _)
    · cases heq
      rfl
  · rintro rfl
    exact .inr rfl

theorem rounds_mem_iff {result : Except Error Unit}
    (h : policy.Attempts pauses (attempt asking safetyDelay pauses target) left number turns
      result) :
    ⟨.isVerified target, .ok true⟩ ∈ turns ↔ result = .ok () := by
  obtain ⟨before, last, rfl, run, hbefore⟩ := h.exists_last
  rw [List.mem_append, (attempt_run_iff.mp run).mem_iff, or_iff_right]
  intro hmem
  obtain ⟨failed, e, hfailed, hmem⟩ | ⟨pause, slept, hmem⟩ := hbefore _ hmem
  · cases (attempt_run_iff.mp hfailed).mem_iff.mp hmem
  · exact absurd rfl (pause_ne slept hmem _)

end Answers

section Runs

variable {retry : Retry.Policy} {safetyDelay : Span} {target : Explorer.Target} {turns : List Turn}
  {outcome : Outcome}

/-- **A target counts as verified if the explorer has said so**, at any time. -/
theorem isVerified_iff_mem (run : Dialogue.Run
    (verify (.enabled asking retry safetyDelay) pauses target) turns outcome) :
    outcome.isVerified = true ↔ ⟨.isVerified target, .ok true⟩ ∈ turns := by
  obtain ⟨initial, answer, attempts, rfl, hasked, hrest⟩ := verify_run_cases run
  rw [List.mem_append, asked_mem_iff hasked]
  rcases answer with e | _ | _
  · obtain ⟨rfl, rfl⟩ := hrest
    simp [Outcome.isVerified]
  · obtain ⟨result, hattempts, rfl⟩ := hrest
    rw [rounds_mem_iff hattempts]
    rcases result with e | ⟨⟩ <;> simp [concluded, Outcome.isVerified]
  · obtain ⟨rfl, rfl⟩ := hrest
    simp [Outcome.isVerified]

/-- **Without a choice of failures all attempts are made** before a target is given up that could be
asked about. -/
theorem submissions_of_failed (hagain : retry.again = none) (run : Dialogue.Run
    (verify (.enabled asking retry safetyDelay) pauses target) turns outcome)
    (hfailed : outcome.isVerified = false) :
    Unanswered target turns ∨ retry.attempts ≤ submissions turns := by
  obtain ⟨initial, answer, attempts, rfl, hasked, hrest⟩ := verify_run_cases run
  obtain ⟨hwithin, before, rfl⟩ := asked_of_attempts hasked
  have hnone := Nat.le_zero.mp hwithin.submissions_le
  rcases answer with e | _ | _
  · obtain ⟨rfl, rfl⟩ := hrest
    rw [List.append_nil]
    exact .inl ⟨hnone, before, e, rfl⟩
  · obtain ⟨result, hattempts, rfl⟩ := hrest
    rcases result with e | ⟨⟩
    · have hall := hattempts.le_measure hagain 1 submissions_append
        fun turns e hround => by
        obtain ⟨answer, rest, rfl⟩ := (attempt_run_iff.mp hround).begun
        simp [submissions, Question.isSubmission]
      have hpos := retry.attempts_pos
      rw [submissions_append]
      exact .inr (by omega)
    · cases hfailed
  · obtain ⟨rfl, rfl⟩ := hrest
    cases hfailed

/-- A target that could not be asked about at the start does not count as verified. -/
theorem Unanswered.isVerified (h : Unanswered target turns) (run : Dialogue.Run
    (verify (.enabled asking retry safetyDelay) pauses target) turns outcome) :
    outcome.isVerified = false := by
  obtain ⟨hnone, before, e, hturns⟩ := h
  by_contra hverified
  rw [Bool.not_eq_false] at hverified
  have halready := (alreadyVerified_iff_of_run run).mpr ⟨hverified, hnone⟩
  obtain ⟨initial, attempts, rfl, course⟩ := course_of_run run
  obtain ⟨rfl, before', rfl⟩ := course.alreadyVerified_iff.mp halready
  rw [List.append_nil] at hturns
  simpa using congrArg List.getLast? hturns

/-! ### The moment -/

section Moment

variable {early late : List Turn} (hearly : ∀ turn ∈ early, Shows target false turn)
  (hlate : ∀ turn ∈ late, Shows target true turn)
  (run : Dialogue.Run (verify (.enabled asking retry safetyDelay) pauses target) (early ++ late)
    outcome)
include hlate run

include hearly in
/-- A target counts as verified if it is asked for after the moment. -/
theorem isVerified_iff_late :
    outcome.isVerified = true ↔ ∃ answer, ⟨.isVerified target, answer⟩ ∈ late := by
  rw [isVerified_iff_mem run, List.mem_append]
  constructor
  · rintro (hmem | hmem)
    · cases (hearly _ hmem rfl).mp rfl
    · exact ⟨_, hmem⟩
  · rintro ⟨answer, hmem⟩
    obtain rfl := (hlate _ hmem rfl).mpr rfl
    exact .inr hmem

/-- A target that counts as verified is not submitted after the moment. -/
theorem submissions_late (hverified : outcome.isVerified = true) : submissions late = 0 := by
  obtain ⟨initial, attempts, hturns, course⟩ := course_of_run run
  cases outcome with
  | alreadyVerified =>
    obtain ⟨rfl, -⟩ := course.alreadyVerified_iff.mp rfl
    have hnone := course.unsubmitted
    rw [← List.append_nil initial, ← hturns, submissions_append] at hnone
    omega
  | verified =>
    obtain ⟨before, lines, rfl⟩ := course.verified_iff.mp rfl
    -- The last submission is accepted, so it is made before the moment.
    have haccepted : (⟨.submit target, (lines, .ok ())⟩ : Turn) ∉ late := by
      intro hmem
      obtain ⟨e, he⟩ := hlate _ hmem rfl rfl
      cases he
    rw [← List.append_assoc, List.append_eq_append_iff] at hturns
    obtain ⟨rest, -, rfl⟩ | ⟨rest, -, hrest⟩ := hturns
    · simp at haccepted
    · rcases rest with - | ⟨first, rest⟩
      · rw [← List.nil_append late, ← hrest] at haccepted
        simp at haccepted
      · have hafter : 0 = submissions (rest ++ late) := congrArg submissions (List.cons.inj hrest).2
        rw [submissions_append] at hafter
        omega
  | disabled | failed => cases hverified

/-- **A target that is shown in time counts as verified unless it is submitted once more**, or could
not be asked about at the start. -/
theorem isVerified_iff_submissions (hagain : retry.again = none)
    (htime : submissions early < retry.attempts) : outcome.isVerified = true ↔
      submissions late = 0 ∧ ¬ Unanswered target (early ++ late) := by
  constructor
  · intro hverified
    refine ⟨submissions_late hlate run hverified, fun hunanswered => ?_⟩
    rw [hunanswered.isVerified run] at hverified
    cases hverified
  · rintro ⟨hnone, hanswered⟩
    by_contra hfailed
    rw [Bool.not_eq_true] at hfailed
    obtain hunanswered | hall := submissions_of_failed hagain run hfailed
    · exact hanswered hunanswered
    · rw [submissions_append] at hall
      omega

end Moment

end Runs

/-! ### Refusals -/

/-- What is said of a target that is shown already. -/
def knownAlready : String := "Contract source code already verified"

/-- A submission that is refused. -/
def refusal (target : Explorer.Target) : Turn :=
  ⟨.submit target, ([], .error (.explorer knownAlready))⟩

/-- The refusal of all attempts, of which so many follow the first one. -/
def refusals (target : Explorer.Target) (delay : Span) : (left : Nat) → List Turn
  | 0 => [refusal target]
  | left + 1 => refusal target :: ⟨.sleep delay, ()⟩ :: refusals target delay left

section Refusals

variable {retry : Retry.Policy} (target : Explorer.Target) (safetyDelay : Span)

/-- An explorer that shows the target refuses every attempt. -/
theorem refusals_shows (delay : Span) (left : Nat) :
    ∀ turn ∈ refusals target delay left, Shows target true turn := by
  induction left with
  | zero =>
    intro turn hmem
    obtain rfl := List.mem_singleton.mp hmem
    exact fun _ _ => ⟨_, rfl⟩
  | succ left ih =>
    intro turn hmem
    obtain rfl | rfl | hmem : turn = _ ∨ turn = _ ∨ _ := by simpa [refusals] using hmem
    · exact fun _ _ => ⟨_, rfl⟩
    · trivial
    · exact ih turn hmem

theorem submissions_refusals (delay : Span) (left : Nat) :
    0 < submissions (refusals target delay left) := by
  cases left <;> simp [refusals, refusal, submissions, Question.isSubmission]

/-- Nothing keeps the attempts from being made all the same. -/
theorem refusals_attempts (hagain : retry.again = none) (left number : Nat) :
    ∃ e, retry.Attempts pauses (attempt asking safetyDelay pauses target) left number
      (refusals target retry.delay left) (.error e) := by
  have hrun : Dialogue.Run (attempt asking safetyDelay pauses target).run [refusal target] _ :=
    attempt_run_iff.mpr (.refused [] (.explorer knownAlready))
  induction left generalizing number with
  | zero => exact ⟨_, .last hrun fun _ _ => .inl rfl⟩
  | succ left ih =>
    obtain ⟨e, hrest⟩ := ih (number + 1)
    have hworth (e : Error) : retry.retries e number = true := by
      simp [Retry.Policy.retries, hagain]
    exact ⟨e, .again hrun (hworth _) (pause_run_iff.mpr rfl) hrest⟩

end Refusals

/-- **Whether a target that comes to be shown counts as verified.** It does if the explorer is asked
after the moment. If the moment comes before the last attempt begins, that is so unless the target
is submitted once more when it is shown, or it could not be found out at the start whether it is.
And under each policy that does not choose between failures it may be submitted once more, and count
as failed, although it was shown before the first attempt. -/
theorem shown_in_time (retry : Retry.Policy) (hagain : retry.again = none) (safetyDelay : Span)
    (target : Explorer.Target) :
    (∀ early late outcome, Dialogue.Run (verify (.enabled asking retry safetyDelay) pauses target)
        (early ++ late) outcome →
      (∀ turn ∈ early, Shows target false turn) → (∀ turn ∈ late, Shows target true turn) →
        (outcome.isVerified = true ↔ ∃ answer, ⟨.isVerified target, answer⟩ ∈ late) ∧
        (submissions early < retry.attempts → (outcome.isVerified = true ↔
          submissions late = 0 ∧ ¬ Unanswered target (early ++ late)))) ∧
    ∃ early late outcome, Dialogue.Run (verify (.enabled asking retry safetyDelay) pauses target)
        (early ++ late) outcome ∧
      (∀ turn ∈ early, Shows target false turn) ∧ (∀ turn ∈ late, Shows target true turn) ∧
        submissions early = 0 ∧ ¬ Unanswered target (early ++ late) ∧
          outcome.isVerified = false := by
  constructor
  · intro early late outcome run hearly hlate
    exact ⟨isVerified_iff_late hearly hlate run,
      fun htime => isVerified_iff_submissions hlate run hagain htime⟩
  · obtain ⟨e, hattempts⟩ := refusals_attempts target safetyDelay hagain (retry.attempts - 1) 1
    have hasked : Dialogue.Run ((Retry.Policy.transient retry.attempts retry.delay).run pauses
        (asking.isVerified target)).run [⟨.isVerified target, .ok false⟩] (.ok false) :=
      Retry.Policy.run_of_ok (query_run_iff.mpr rfl)
    have hrun : Dialogue.Run (verify (.enabled asking retry safetyDelay) pauses target)
        ([⟨.isVerified target, .ok false⟩] ++
          (refusals target retry.delay (retry.attempts - 1) ++ []))
        (.failed e.message (outputOf e)) :=
      .bind hasked (.bind (Retry.Policy.run_iff_attempts.mpr hattempts) (.done _))
    rw [List.append_nil] at hrun
    refine ⟨_, _, _, hrun, ?_, refusals_shows _ _ _, rfl, ?_, rfl⟩
    · intro turn hmem
      obtain rfl := List.mem_singleton.mp hmem
      exact fun _ => by simp
    · rintro ⟨hnone, -⟩
      have hrefused := submissions_refusals target retry.delay (retry.attempts - 1)
      rw [submissions_append] at hnone
      omega

/-! A source whose first submission is accepted: it is shown in time for the poll, or just after. -/

/-- The turns up to the first poll. -/
def acceptedTurns : List Turn :=
  [⟨.isVerified stubSource, .ok false⟩, ⟨.submit stubSource, ([], .ok ())⟩, ⟨.sleep 10, ()⟩]

theorem acceptedTurns_shows : ∀ turn ∈ acceptedTurns, Shows stubSource false turn := by
  intro turn hmem
  obtain rfl | rfl | rfl : turn = _ ∨ turn = _ ∨ turn = _ := by simpa [acceptedTurns] using hmem
  · exact fun _ => by simp
  · exact fun _ h => by cases h
  · trivial

/-- What follows an answer that the source is not shown. -/
theorem verify_stubSource_run {attempts : List Turn} {result : Except Error Unit}
    (run : Dialogue.Run (Retry.Policy.run (.every 2 5) pauses
      (attempt asking 10 pauses stubSource)).run attempts result) :
    Dialogue.Run (verify (.enabled asking (.every 2 5) 10) pauses stubSource)
      ([⟨.isVerified stubSource, .ok false⟩] ++ attempts) (concluded result) := by
  have hasked : Dialogue.Run ((Retry.Policy.transient 2 5).run pauses
      (asking.isVerified stubSource)).run [⟨.isVerified stubSource, .ok false⟩] (.ok false) :=
    Retry.Policy.run_of_ok (query_run_iff.mpr rfl)
  have hrest : Dialogue.Run (verify (.enabled asking (.every 2 5) 10) pauses stubSource)
      ([⟨.isVerified stubSource, .ok false⟩] ++ (attempts ++ [])) (concluded result) := by
    refine .bind hasked (.bind run ?_)
    rcases result with e | ⟨⟩ <;> exact .done _
  rwa [List.append_nil] at hrest

theorem shown_in_time_polled :
    (∀ turn ∈ acceptedTurns, Shows stubSource false turn) ∧ submissions acceptedTurns < 2 ∧
      Outcome.verified.isVerified = true ∧
        (Outcome.verified.isVerified = true ↔ submissions [⟨.isVerified stubSource, .ok true⟩] = 0 ∧
          ¬ Unanswered stubSource (acceptedTurns ++ [⟨.isVerified stubSource, .ok true⟩])) := by
  have hlate : ∀ turn ∈ [(⟨.isVerified stubSource, .ok true⟩ : Turn)],
      Shows stubSource true turn := by
    intro turn hmem
    obtain rfl := List.mem_singleton.mp hmem
    exact fun _ => by simp
  have hpolled : Round 10 stubSource _ _ := .polled [] (.ok true)
  have hrun := verify_stubSource_run (Retry.Policy.run_of_ok (attempt_run_iff.mpr hpolled))
  have htime := (shown_in_time (.every 2 5) rfl 10 stubSource).1 acceptedTurns _ _ hrun
    acceptedTurns_shows hlate
  exact ⟨acceptedTurns_shows, by decide, rfl, htime.2 (by decide)⟩

/-- The poll comes too early, and the other attempt too late. -/
theorem refused_once_shown : ∃ early late outcome,
    Dialogue.Run (verify (.enabled asking (.every 2 5) 10) pauses stubSource) (early ++ late)
        outcome ∧
      (∀ turn ∈ early, Shows stubSource false turn) ∧ (∀ turn ∈ late, Shows stubSource true turn) ∧
        submissions early < 2 ∧ outcome.isVerified = false := by
  have hpolled : Round 10 stubSource _ _ := .polled [] (.ok false)
  have hrefused : Round 10 stubSource _ _ := .refused [] (.explorer knownAlready)
  have hattempts : (Retry.Policy.every 2 5).Attempts pauses (attempt asking 10 pauses stubSource)
      1 1 _ _ := .again (attempt_run_iff.mpr hpolled) rfl (pause_run_iff.mpr rfl)
        (.last (attempt_run_iff.mpr hrefused) fun _ _ => .inl rfl)
  have hrun := verify_stubSource_run (Retry.Policy.run_iff_attempts.mpr hattempts)
  refine ⟨acceptedTurns ++ [⟨.isVerified stubSource, .ok false⟩],
    [⟨.sleep 5, ()⟩, refusal stubSource], _, hrun, ?_, ?_, by decide, rfl⟩
  · simp only [List.forall_mem_append]
    refine ⟨acceptedTurns_shows, fun turn hmem => ?_⟩
    obtain rfl := List.mem_singleton.mp hmem
    exact fun _ => by simp
  · intro turn hmem
    obtain rfl | rfl : turn = _ ∨ turn = _ := by simpa using hmem
    · trivial
    · exact fun _ _ => ⟨_, rfl⟩

end ProxyUpgrade.Verification
