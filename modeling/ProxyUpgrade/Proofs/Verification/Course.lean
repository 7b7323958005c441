import Mathlib.Algebra.GroupWithZero.Nat
import Mathlib.Data.List.Basic
import ProxyUpgrade.Proofs.Beside
import ProxyUpgrade.Proofs.Verification
/-!
# The course of a verification

A verification first asks whether its target is shown already, and then makes its attempts, each of
which is a submission that may be followed by a poll. The first submission is where the two parts
meet, so that the queries before it can be told from the polls after it. Both parts are tried again
under policies of their own, and each bound on the whole is the sum of the bounds on the two
(`Verification.Course`).

What a verification ends with is to be read off the last thing that the explorer has been asked: a
target counts as verified only if the explorer has just said so, and a failure keeps what was logged
during the last submission, of which nothing can be left from an earlier one. For a proxy two
verifications follow each other, and the second one depends on how the first has ended
(`Verification.outcomes_accounted`).
-/

namespace ProxyUpgrade.Verification

/-- A question with the answer that was given. -/
abbrev Turn : Type := Dialogue.Turn Question.Answer

namespace Question

/-- Whether it is asked if a target is shown. -/
def isQuery : Question → Bool
  | isVerified _ => true
  | _ => false

/-- Whether a target is submitted. -/
def isSubmission : Question → Bool
  | submit _ => true
  | _ => false

/-- The time that passes before the answer. -/
def pause : Question → Nat
  | sleep time => time
  | _ => 0

/-- The target that an explorer is asked about. -/
def target? : Question → Option Explorer.Target
  | isVerified target | submit target => some target
  | _ => none

end Question

/-- How often it is asked if a target is shown. -/
def queries (turns : List Turn) : Nat := turns.countP (·.1.isQuery)

/-- How often a target is submitted. -/
def submissions (turns : List Turn) : Nat := turns.countP (·.1.isSubmission)

/-- The time that passes in all pauses. -/
def waiting (turns : List Turn) : Nat := (turns.map (·.1.pause)).sum

section Measures

variable (first rest : List Turn)

theorem queries_append : queries (first ++ rest) = queries first + queries rest :=
  List.countP_append

theorem submissions_append :
    submissions (first ++ rest) = submissions first + submissions rest :=
  List.countP_append

theorem waiting_append : waiting (first ++ rest) = waiting first + waiting rest := by
  simp [waiting]

end Measures

/-- **What turns about one target come to** at most: so many queries and submissions, and so much
time. -/
structure Within (target : Explorer.Target) (queried submitted waited : Nat) (turns : List Turn) :
    Prop where
  queries_le : queries turns ≤ queried
  submissions_le : submissions turns ≤ submitted
  waiting_le : waiting turns ≤ waited
  target_eq : ∀ turn ∈ turns, ∀ other, turn.1.target? = some other → other = target

/-! ### Single attempts -/

/-- What an attempt comes to once the explorer has been asked again. -/
def judged (target : Explorer.Target) (lines : List Log.Line) :
    Except Error Bool → Except Error Unit
  | .ok true => .ok ()
  | .ok false => .error (.verification target.address notShown (Log.text lines))
  | .error e => .error (.verification target.address e.message (Log.text lines))

/-- **The turns of an attempt**, with what comes of it. -/
inductive Round (safetyDelay : Span) (target : Explorer.Target) :
    List Turn → Except Error Unit → Prop
  /-- The submission fails. -/
  | refused (lines : List Log.Line) (e : Error) :
    Round safetyDelay target [⟨.submit target, (lines, .error e)⟩]
      (.error (.verification target.address e.message (Log.text lines)))
  /-- After the submission the explorer is asked again. -/
  | polled (lines : List Log.Line) (answer : Except Error Bool) :
    Round safetyDelay target [⟨.submit target, (lines, .ok ())⟩, ⟨.sleep safetyDelay, ()⟩,
      ⟨.isVerified target, answer⟩] (judged target lines answer)

section Parts

variable {target : Explorer.Target} {safetyDelay delay : Span} {turns : List Turn}

theorem query_run_iff {answer : Except Error Bool} :
    Dialogue.Run (asking.isVerified target).run turns answer ↔
      turns = [⟨.isVerified target, answer⟩] :=
  Dialogue.run_question

theorem pause_run_iff : Dialogue.Run (pauses.sleep delay) turns () ↔ turns = [⟨.sleep delay, ()⟩] :=
  Dialogue.run_question

theorem within_query (answer : Except Error Bool) :
    Within target 1 0 0 [⟨.isVerified target, answer⟩] := by
  refine ⟨Nat.le_refl _, Nat.le_refl _, Nat.le_refl _, fun turn hmem other hother => ?_⟩
  obtain rfl := List.mem_singleton.mp hmem
  cases hother
  rfl

/-- A pause is about no target, and thus about any. -/
theorem within_pause (delay : Span) : Within target 0 0 delay [⟨.sleep delay, ()⟩] := by
  refine ⟨Nat.le_refl _, Nat.le_refl _, by simp [waiting, Question.pause],
    fun turn hmem other hother => ?_⟩
  obtain rfl := List.mem_singleton.mp hmem
  cases hother

theorem attempt_run_iff {result : Except Error Unit} :
    Dialogue.Run (attempt asking safetyDelay pauses target).run turns result ↔
      Round safetyDelay target turns result := by
  constructor
  · rintro (- | ⟨⟨lines, e | ⟨⟩⟩, run⟩)
    · cases run
      exact .refused lines e
    · obtain - | ⟨⟨⟩, - | ⟨answer, run⟩⟩ := run
      rcases answer with e | _ | _ <;> cases run
      · exact .polled lines (.error e)
      · exact .polled lines (.ok false)
      · exact .polled lines (.ok true)
  · rintro (⟨lines, e⟩ | ⟨lines, answer⟩)
    · exact .ask _ (.done _)
    · refine .ask _ (.ask _ (.ask _ ?_))
      rcases answer with e | _ | _ <;> exact .done _

variable {result : Except Error Unit} (round : Round safetyDelay target turns result)
include round

theorem Round.within : Within target 1 1 safetyDelay turns := by
  cases round with
  | refused lines e =>
    refine ⟨Nat.zero_le _, Nat.le_refl _, Nat.zero_le _, fun turn hmem other hother => ?_⟩
    obtain rfl := List.mem_singleton.mp hmem
    cases hother
    rfl
  | polled lines answer =>
    refine ⟨Nat.le_refl _, Nat.le_refl _, by simp [waiting, Question.pause],
      fun turn hmem other hother => ?_⟩
    simp only [List.mem_cons, List.not_mem_nil, or_false] at hmem
    rcases hmem with rfl | rfl | rfl <;> cases hother <;> rfl

theorem Round.begun : ∃ answer rest, turns = ⟨.submit target, answer⟩ :: rest := by
  cases round <;> exact ⟨_, _, rfl⟩

/-- An attempt has gone well if it ends with an explorer that shows the target. -/
theorem Round.eq_ok (hlast : turns.getLast? = some ⟨.isVerified target, .ok true⟩) :
    result = .ok () := by
  cases round with
  | refused lines e => simp at hlast
  | polled lines answer =>
    obtain rfl : answer = .ok true := by simpa using hlast
    rfl

/-- What a failure keeps was logged during the submission. -/
theorem Round.output {e : Error} (hresult : result = .error e) :
    ∃ lines submitted after, turns = ⟨.submit target, (lines, submitted)⟩ :: after ∧
      submissions after = 0 ∧ outputOf e = Log.text lines := by
  cases round with
  | refused lines e =>
    cases hresult
    exact ⟨lines, _, _, rfl, rfl, rfl⟩
  | polled lines answer =>
    refine ⟨lines, _, _, rfl, rfl, ?_⟩
    rcases answer with e | _ | _ <;> cases hresult <;> rfl

/-- An attempt that goes well ends with an explorer that shows the target. -/
theorem Round.eq_polled (hresult : result = .ok ()) :
    ∃ lines, turns = [⟨.submit target, (lines, .ok ())⟩, ⟨.sleep safetyDelay, ()⟩,
      ⟨.isVerified target, .ok true⟩] := by
  cases round with
  | refused => cases hresult
  | polled lines answer =>
    rcases answer with e | _ | _ <;> cases hresult
    exact ⟨lines, rfl⟩

end Parts

/-! ### Queries and attempts -/

section Phases

variable {policy : Retry.Policy} {target : Explorer.Target} {safetyDelay : Span}
  {left number : Nat} {turns : List Turn}

/-- **What an attempt comes to tells what all of them come to.** -/
theorem within_of_attempts {α : Type} {action : Action Talk α} {result : Except Error α}
    {queried submitted waited : Nat}
    (h : policy.Attempts pauses action left number turns result)
    (hattempt : ∀ turns result, Dialogue.Run action.run turns result →
      Within target queried submitted waited turns) :
    Within target ((left + 1) * queried) ((left + 1) * submitted)
      ((left + 1) * waited + left * policy.delay) turns := by
  have hpause (turns : List Turn) (slept : Dialogue.Run (pauses.sleep policy.delay) turns ()) :
      Within target 0 0 policy.delay turns := by
    rw [pause_run_iff.mp slept]
    exact within_pause policy.delay
  refine ⟨?_, ?_, ?_, ?_⟩
  · exact h.measure_le queried 0 queries_append (fun _ _ run => (hattempt _ _ run).queries_le)
      fun _ slept => (hpause _ slept).queries_le
  · exact h.measure_le submitted 0 submissions_append
      (fun _ _ run => (hattempt _ _ run).submissions_le)
      fun _ slept => (hpause _ slept).submissions_le
  · exact h.measure_le waited policy.delay waiting_append
      (fun _ _ run => (hattempt _ _ run).waiting_le) fun _ slept => (hpause _ slept).waiting_le
  · exact h.forall_turns (fun _ _ run => (hattempt _ _ run).target_eq)
      fun _ slept => (hpause _ slept).target_eq

/-- The queries before the attempts end with the answer that is taken. -/
theorem asked_of_attempts {answer : Except Error Bool}
    (h : policy.Attempts pauses (asking.isVerified target) left number turns answer) :
    Within target (left + 1) 0 (left * policy.delay) turns ∧
      ∃ before, turns = before ++ [⟨.isVerified target, answer⟩] := by
  constructor
  · have hwithin := within_of_attempts h fun _ answer run =>
      (query_run_iff.mp run) ▸ within_query answer
    simpa using hwithin
  · obtain ⟨before, last, rfl, run, -⟩ := h.exists_last
    exact ⟨before, by rw [query_run_iff.mp run]⟩

/-- The attempts start with a submission, and end with the one whose result is taken. -/
theorem rounds_of_attempts {result : Except Error Unit}
    (h : policy.Attempts pauses (attempt asking safetyDelay pauses target) left number turns
      result) :
    Within target (left + 1) (left + 1) ((left + 1) * safetyDelay + left * policy.delay) turns ∧
      (∃ answer rest, turns = ⟨.submit target, answer⟩ :: rest) ∧
        ∃ before last, turns = before ++ last ∧ Round safetyDelay target last result := by
  refine ⟨?_, ?_, ?_⟩
  · have hwithin := within_of_attempts h fun _ _ run => (attempt_run_iff.mp run).within
    simpa using hwithin
  · cases h with
    | last run final => exact (attempt_run_iff.mp run).begun
    | again run worth slept next =>
      obtain ⟨answer, rest, rfl⟩ := (attempt_run_iff.mp run).begun
      exact ⟨answer, _, rfl⟩
  · obtain ⟨before, last, rfl, run, -⟩ := h.exists_last
    exact ⟨before, last, rfl, attempt_run_iff.mp run⟩

end Phases

/-! ### Whole verifications -/

/-- **How a verification goes** that first asks whether its target is shown, and then makes its
attempts. -/
structure Course (retry : Retry.Policy) (safetyDelay : Span) (target : Explorer.Target)
    (initial attempts : List Turn) (outcome : Outcome) : Prop where
  /-- Nothing is submitted before the attempts. -/
  unsubmitted : submissions initial = 0
  /-- If there are any, they begin with a submission. -/
  begun : attempts = [] ∨ ∃ answer rest, attempts = ⟨.submit target, answer⟩ :: rest
  /-- The explorer is asked about nothing else. -/
  target_eq : ∀ turn ∈ initial ++ attempts, ∀ other, turn.1.target? = some other → other = target
  queries_le : queries initial ≤ retry.attempts
  submissions_le : submissions attempts ≤ retry.attempts
  polls_le : queries attempts ≤ retry.attempts
  waiting_le : waiting (initial ++ attempts) ≤
    2 * (retry.attempts - 1) * retry.delay + retry.attempts * safetyDelay
  disabled : outcome ≠ .disabled
  alreadyVerified_iff : outcome = .alreadyVerified ↔
    attempts = [] ∧ ∃ before, initial = before ++ [⟨.isVerified target, .ok true⟩]
  verified_iff : outcome = .verified ↔ ∃ before lines,
    attempts = before ++ [⟨.submit target, (lines, .ok ())⟩, ⟨.sleep safetyDelay, ()⟩,
      ⟨.isVerified target, .ok true⟩]
  /-- What a failure keeps was logged during the last submission. -/
  output : ∀ reason output, outcome = .failed reason output →
    attempts = [] ∧ output = "" ∨ ∃ before lines submitted after,
      attempts = before ++ ⟨.submit target, (lines, submitted)⟩ :: after ∧
        submissions after = 0 ∧ output = Log.text lines

/-- What a verification ends with once the explorer has been asked whether the target is shown. -/
def settled? : Except Error Bool → Option Outcome
  | .ok true => some .alreadyVerified
  | .ok false => none
  | .error e => some (.failed e.message "")

/-- What a verification ends with after its attempts. -/
def concluded : Except Error Unit → Outcome
  | .ok () => .verified
  | .error e => .failed e.message (outputOf e)

section Whole

variable {retry : Retry.Policy} {safetyDelay : Span} {target : Explorer.Target} {turns : List Turn}
  {outcome : Outcome}

/-- The policy of the first queries allows as many attempts. -/
theorem transient_attempts (policy : Retry.Policy) (delay : Span) :
    (Retry.Policy.transient policy.attempts delay).attempts = policy.attempts :=
  Nat.max_eq_left policy.attempts_pos

/-- **A verification is over when its target is shown, or when that cannot be found out**; else
there are attempts. -/
theorem verify_run_cases (run : Dialogue.Run
    (verify (.enabled asking retry safetyDelay) pauses target) turns outcome) :
    ∃ initial answer attempts, turns = initial ++ attempts ∧
      (Retry.Policy.transient retry.attempts retry.delay).Attempts pauses
        (asking.isVerified target) (retry.attempts - 1) 1 initial answer ∧
      match settled? answer with
      | some settled => attempts = [] ∧ outcome = settled
      | none => ∃ result, retry.Attempts pauses (attempt asking safetyDelay pauses target)
          (retry.attempts - 1) 1 attempts result ∧ outcome = concluded result := by
  obtain ⟨initial, answer, attempts, rfl, hasked, hrest⟩ := Dialogue.Run.exists_of_bind run
  have hasked := Retry.Policy.run_iff_attempts.mp hasked
  rw [transient_attempts] at hasked
  refine ⟨initial, answer, attempts, rfl, hasked, ?_⟩
  rcases answer with e | _ | _
  · cases hrest
    exact ⟨rfl, rfl⟩
  · obtain ⟨first, result, rest, rfl, hfirst, hrest⟩ := Dialogue.Run.exists_of_bind hrest
    have hconcluded : rest = [] ∧ outcome = concluded result := by
      rcases result with e | ⟨⟩ <;> cases hrest <;> exact ⟨rfl, rfl⟩
    obtain ⟨rfl, rfl⟩ := hconcluded
    rw [List.append_nil]
    exact ⟨result, Retry.Policy.run_iff_attempts.mp hfirst, rfl⟩
  · cases hrest
    exact ⟨rfl, rfl⟩

/-- How a verification goes that needs no attempt. -/
theorem course_settled {initial : List Turn} {answer : Except Error Bool}
    (h : (Retry.Policy.transient retry.attempts retry.delay).Attempts pauses
      (asking.isVerified target) (retry.attempts - 1) 1 initial answer)
    (hsettled : settled? answer = some outcome) :
    Course retry safetyDelay target initial [] outcome := by
  obtain ⟨hasked, before, rfl⟩ := asked_of_attempts h
  rw [Nat.sub_add_cancel retry.attempts_pos] at hasked
  have hwaiting : _ ≤ (retry.attempts - 1) * retry.delay := hasked.waiting_le
  have hlast : (∃ before', before ++ [(⟨.isVerified target, answer⟩ : Turn)] =
      before' ++ [⟨.isVerified target, .ok true⟩]) ↔ answer = .ok true := by
    constructor
    · rintro ⟨before', heq⟩
      simpa using congrArg List.getLast? heq
    · rintro rfl
      exact ⟨before, rfl⟩
  refine ⟨Nat.le_zero.mp hasked.submissions_le, .inl rfl, ?_, hasked.queries_le, Nat.zero_le _,
    Nat.zero_le _, ?_, ?_, ?_, ?_, ?_⟩
  · rw [List.append_nil]
    exact hasked.target_eq
  · rw [List.append_nil, Nat.mul_assoc, Nat.two_mul]
    omega
  · rintro rfl
    rcases answer with e | _ | _ <;> cases hsettled
  · rw [hlast]
    rcases answer with e | _ | _ <;> cases hsettled <;> simp
  · refine iff_of_false ?_ (by simp)
    rintro rfl
    rcases answer with e | _ | _ <;> cases hsettled
  · rintro reason output rfl
    rcases answer with e | _ | _ <;> cases hsettled
    exact .inl ⟨rfl, rfl⟩

/-- How a verification goes with attempts. -/
theorem course_concluded {initial attempts : List Turn} {result : Except Error Unit}
    (h : (Retry.Policy.transient retry.attempts retry.delay).Attempts pauses
      (asking.isVerified target) (retry.attempts - 1) 1 initial (.ok false))
    (hattempts : retry.Attempts pauses (attempt asking safetyDelay pauses target)
      (retry.attempts - 1) 1 attempts result) :
    Course retry safetyDelay target initial attempts (concluded result) := by
  obtain ⟨hasked, -⟩ := asked_of_attempts h
  obtain ⟨hrounds, hbegun, before, last, hlast, hround⟩ := rounds_of_attempts hattempts
  rw [Nat.sub_add_cancel retry.attempts_pos] at hasked hrounds
  have hwaiting : _ ≤ (retry.attempts - 1) * retry.delay := hasked.waiting_le
  have hpausing := hrounds.waiting_le
  refine ⟨Nat.le_zero.mp hasked.submissions_le, .inr hbegun, ?_, hasked.queries_le,
    hrounds.submissions_le, hrounds.queries_le, ?_, ?_, ?_, ?_, ?_⟩
  · simp only [List.forall_mem_append]
    exact ⟨hasked.target_eq, hrounds.target_eq⟩
  · rw [waiting_append, Nat.mul_assoc, Nat.two_mul]
    omega
  · rcases result with e | ⟨⟩ <;> simp [concluded]
  · obtain ⟨answer, rest, rfl⟩ := hbegun
    rcases result with e | ⟨⟩ <;> simp [concluded]
  · constructor
    · intro hverified
      obtain ⟨lines, rfl⟩ : ∃ lines, last = [⟨.submit target, (lines, .ok ())⟩,
          ⟨.sleep safetyDelay, ()⟩, ⟨.isVerified target, .ok true⟩] := by
        refine hround.eq_polled ?_
        rcases result with e | ⟨⟩
        · cases hverified
        · rfl
      exact ⟨before, lines, hlast⟩
    · rintro ⟨before', lines, heq⟩
      -- The last turn of all is the last one of the last attempt.
      have hnonempty : last ≠ [] := by
        rintro rfl
        obtain ⟨answer, rest, hnil⟩ := hround.begun
        cases hnil
      have hend : last.getLast? = some ⟨.isVerified target, .ok true⟩ := by
        have hgetLast := congrArg List.getLast? (hlast.symm.trans heq)
        rw [List.getLast?_append_of_ne_nil _ hnonempty] at hgetLast
        simpa using hgetLast
      rw [hround.eq_ok hend]
      rfl
  · rintro reason output hfailed
    rcases result with e | ⟨⟩
    · cases hfailed
      obtain ⟨lines, submitted, after, rfl, hafter, houtput⟩ := hround.output rfl
      exact .inr ⟨before, lines, submitted, after, hlast, hafter, houtput⟩
    · cases hfailed

/-- **Every verification takes its course.** -/
theorem course_of_run (run : Dialogue.Run
    (verify (.enabled asking retry safetyDelay) pauses target) turns outcome) :
    ∃ initial attempts, turns = initial ++ attempts ∧
      Course retry safetyDelay target initial attempts outcome := by
  obtain ⟨initial, answer, attempts, rfl, hasked, hrest⟩ := verify_run_cases run
  refine ⟨initial, attempts, rfl, ?_⟩
  rcases hsettled : settled? answer with - | settled
  · rw [hsettled] at hrest
    obtain ⟨result, hattempts, rfl⟩ := hrest
    have hshown : answer = .ok false := by
      rcases answer with e | _ | _ <;> first | rfl | cases hsettled
    exact course_concluded (hshown ▸ hasked) hattempts
  · rw [hsettled] at hrest
    obtain ⟨rfl, rfl⟩ := hrest
    exact course_settled hasked hsettled

end Whole

/-! ### Proxies -/

namespace Outcome

variable {first second : Outcome}

theorem isVerified_followedBy : (first.followedBy second).isVerified = true ↔
    first.isVerified = true ∧ second.isVerified = true := by
  cases first <;> cases second <;> simp [followedBy, isVerified]

theorem followedBy_eq_alreadyVerified :
    first.followedBy second = .alreadyVerified ↔
      first = .alreadyVerified ∧ second = .alreadyVerified := by
  cases first <;> cases second <;> simp [followedBy, isVerified]

end Outcome

section Accounts

variable {retry : Retry.Policy} {safetyDelay : Span} {target : Explorer.Target} {turns : List Turn}
  {outcome : Outcome}

/-- A target that is shown without a submission was shown already. -/
theorem alreadyVerified_iff_of_run (run : Dialogue.Run
    (verify (.enabled asking retry safetyDelay) pauses target) turns outcome) :
    outcome = .alreadyVerified ↔ outcome.isVerified = true ∧ submissions turns = 0 := by
  obtain ⟨initial, attempts, rfl, course⟩ := course_of_run run
  rw [submissions_append, course.unsubmitted, Nat.zero_add]
  constructor
  · rintro rfl
    obtain ⟨rfl, -⟩ := course.alreadyVerified_iff.mp rfl
    exact ⟨rfl, rfl⟩
  · rintro ⟨hverified, hnone⟩
    cases outcome with
    | alreadyVerified => rfl
    | verified =>
      obtain ⟨before, lines, rfl⟩ := course.verified_iff.mp rfl
      rw [submissions_append] at hnone
      simp [submissions, Question.isSubmission] at hnone
    | disabled | failed => cases hverified

end Accounts

section Play

variable {S : Type} (behaviour : S → (question : Question) → question.Answer × S) (s : S)

/-- The link is verified after the source, if that is verified in the end. -/
theorem verifyProxy_play (service : Service Talk) (proxy implementation : Address)
    (contract : String) (args : Bytes) :
    let source := (verify service pauses (.source implementation contract args)).play behaviour s
    let link := (verify service pauses (.link proxy implementation)).play behaviour source.state
    (verifyProxy service pauses proxy implementation contract args).play behaviour s =
      if source.result.isVerified then
        ⟨source.turns ++ link.turns, source.result.followedBy link.result, link.state⟩
      else source := by
  intro source link
  simp only [verifyProxy, Dialogue.play_bind]
  split
  · simp only [Dialogue.play_bind]
    exact congrArg (Dialogue.Played.mk · _ _)
      (congrArg (source.turns ++ ·) (List.append_nil link.turns))
  · exact congrArg (Dialogue.Played.mk · _ _) (List.append_nil source.turns)

/-- **What verifications do and what their outcomes tell**, whatever the explorer answers. The
verification of a target takes its course. The one of a proxy is that of the source, followed by
that of the link if the source is verified in the end; otherwise nothing is asked about the link. It
is verified if both are, and it was verified already if moreover nothing is submitted. -/
theorem outcomes_accounted (retry : Retry.Policy) (safetyDelay : Span) :
    let service := Service.enabled asking retry safetyDelay
    (∀ target, let played := (verify service pauses target).play behaviour s
      ∃ initial attempts, played.turns = initial ++ attempts ∧
        Course retry safetyDelay target initial attempts played.result) ∧
    ∀ proxy implementation contract args,
      let source := (verify service pauses (.source implementation contract args)).play behaviour s
      let link := (verify service pauses (.link proxy implementation)).play behaviour source.state
      let played := (verifyProxy service pauses proxy implementation contract args).play behaviour s
      played.turns = source.turns ++ (if source.result.isVerified then link.turns else []) ∧
      (source.result.isVerified = false →
        ∀ turn ∈ played.turns, turn.1.target? ≠ some (.link proxy implementation)) ∧
      (played.result.isVerified = true ↔
        source.result.isVerified = true ∧ link.result.isVerified = true) ∧
      (played.result = .alreadyVerified ↔ source.result.isVerified = true ∧
        link.result.isVerified = true ∧ submissions played.turns = 0) := by
  intro service
  refine ⟨fun target => course_of_run (Dialogue.play_run behaviour s _), ?_⟩
  intro proxy implementation contract args source link played
  have hsource := Dialogue.play_run behaviour s
    (verify service pauses (.source implementation contract args))
  have hlink := Dialogue.play_run behaviour source.state
    (verify service pauses (.link proxy implementation))
  have hplayed : played = if source.result.isVerified = true then
      ⟨source.turns ++ link.turns, source.result.followedBy link.result, link.state⟩ else source :=
    verifyProxy_play behaviour s service proxy implementation contract args
  have hsourced : source.result = .alreadyVerified ↔ _ := alreadyVerified_iff_of_run hsource
  have hlinked : link.result = .alreadyVerified ↔ _ := alreadyVerified_iff_of_run hlink
  rcases hverified : source.result.isVerified with - | -
  · -- The source is all that is asked about.
    rw [hverified, if_neg Bool.false_ne_true] at hplayed
    obtain ⟨initial, attempts, hturns, course⟩ := course_of_run hsource
    rw [hplayed, hverified, hsourced, hverified]
    refine ⟨(List.append_nil _).symm, fun _ turn hmem hlink => ?_, by simp, by simp⟩
    cases course.target_eq turn (hturns ▸ hmem) _ hlink
  · rw [hverified, if_pos rfl] at hplayed
    rw [hplayed]
    refine ⟨rfl, by simp, ?_, ?_⟩
    · rw [Outcome.isVerified_followedBy, hverified]
    · rw [Outcome.followedBy_eq_alreadyVerified, hsourced, hlinked, hverified, submissions_append]
      change (true = true ∧ submissions source.turns = 0) ∧
        (link.result.isVerified = true ∧ submissions link.turns = 0) ↔
          true = true ∧ link.result.isVerified = true ∧
            submissions source.turns + submissions link.turns = 0
      rw [Nat.add_eq_zero_iff]
      constructor
      · rintro ⟨⟨-, hfirst⟩, hshown, hsecond⟩
        exact ⟨rfl, hshown, hfirst, hsecond⟩
      · rintro ⟨-, hshown, hfirst, hsecond⟩
        exact ⟨⟨rfl, hfirst⟩, hshown, hsecond⟩

/-! A source that is refused twice, with another line logged each time. -/

/-- The source that is submitted. -/
def stubSource : Explorer.Target := .source ⟨1⟩ "Stub" []

/-- What is logged while a source is refused. -/
def refusalLine (number : Nat) : Log.Line :=
  ⟨.warn, "explorer", if number = 0 then "first" else "second"⟩

/-- An explorer that shows nothing and refuses everything; it counts the submissions. -/
def stubborn : Nat → (question : Question) → question.Answer × Nat
  | number, .isVerified _ => (.ok false, number)
  | number, .submit _ => (([refusalLine number], .error (.explorer "refused")), number + 1)
  | number, .now => (0, number)
  | number, .sleep _ => ((), number)

/-- Only the second line is kept, and the link is left alone. -/
theorem outcomes_accounted_refused :
    let service := Service.enabled asking (.every 2 5) 10
    let source := (verify service pauses stubSource).play stubborn 0
    let played := (verifyProxy service pauses ⟨2⟩ ⟨1⟩ "Stub" []).play stubborn 0
    source.result.isVerified = false ∧ submissions source.turns = 2 ∧
      (∃ reason, source.result = .failed reason (Log.text [refusalLine 1])) ∧
      (∃ initial attempts, source.turns = initial ++ attempts ∧
        Course (.every 2 5) 10 stubSource initial attempts source.result) ∧
      ∀ turn ∈ played.turns, turn.1.target? ≠ some (.link ⟨2⟩ ⟨1⟩) := by
  intro service source played
  obtain ⟨hcourses, hproxies⟩ := outcomes_accounted stubborn 0 (.every 2 5) 10
  have hrefused : source.result.isVerified = false := rfl
  exact ⟨hrefused, rfl, ⟨_, rfl⟩, hcourses _, (hproxies ⟨2⟩ ⟨1⟩ "Stub" []).2.1 hrefused⟩

end Play

end ProxyUpgrade.Verification
