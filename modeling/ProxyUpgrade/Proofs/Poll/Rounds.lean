import Mathlib.Data.Nat.Find
import Mathlib.Order.Bounds.Defs
import ProxyUpgrade.Proofs.Poll
import ProxyUpgrade.Rehearsal.Event
/-!
# When a condition is looked at

On a clock that only waiting moves, a condition is looked at when the waiting begins and after each
interval from then on. Whether it is looked at once more is settled by what was found, and by the
time, which is looked at afterwards: so it is looked at for the last time when something is found,
when a check fails for good, or in the first round that does not begin before the deadline
(`Poll.Ends`). The bound on the number of pauses plays no part, as so many pauses take at least as
long as there is time.

The number of that round is the least one for which so many intervals take as long as there is time,
so there is always a first check, and one at the deadline or after it if none before has settled the
matter (`Poll.await_rounds`).
-/

namespace ProxyUpgrade.Poll

open Rehearsal (Play Stage)

variable {α : Type}

/-- **Checks that take no time**, given what comes of each. They are numbered from zero, and the
time of each is kept. -/
def checking (outcomes : Nat → Except Error (Option α)) : Action (Play (List Nat)) (Option α) :=
  ExceptT.mk do
    let stage ← get
    set { stage with props := stage.props ++ [stage.now] }
    pure (outcomes stage.props.length)

/-- The times at which so many rounds begin. -/
def times (start interval count : Nat) : List Nat :=
  (List.range count).map fun number => start + number * interval

/-- **The waiting ends in a round**: nothing is there before, and there is time left; then the
matter is settled, or else the time is up. -/
structure Ends (what : String) (timeout interval : Span)
    (outcomes : Nat → Except Error (Option α)) (first last : Nat) (result : Except Error α) :
    Prop where
  le : first ≤ last
  before : ∀ number, first ≤ number → number < last →
    NotYet (outcomes number) ∧ number * interval < timeout
  ended : settled? (outcomes last) = some result ∨
    NotYet (outcomes last) ∧ timeout ≤ last * interval ∧ result = .error (.timeout what)

/-- Of two programs on a stage the second goes on where the first has ended. -/
theorem play_bind {σ β γ : Type} (x : Play σ β) (f : β → Play σ γ) (stage : Stage σ) :
    (x >>= f) stage = f (x stage).1 (x stage).2 := rfl

section Rounds

variable {what : String} {timeout interval : Span} {outcomes : Nat → Except Error (Option α)}
  {first last : Nat} {result : Except Error α}

/-- The matter is settled in the first round. -/
theorem Ends.settled (h : settled? (outcomes first) = some result) :
    Ends what timeout interval outcomes first first result :=
  ⟨Nat.le_refl _, fun _ hle hlt => absurd hle (Nat.not_le_of_lt hlt), .inl h⟩

/-- The time is up in the first round. -/
theorem Ends.late (h : NotYet (outcomes first)) (hlate : timeout ≤ first * interval) :
    Ends what timeout interval outcomes first first (.error (.timeout what)) :=
  ⟨Nat.le_refl _, fun _ hle hlt => absurd hle (Nat.not_le_of_lt hlt), .inr ⟨h, hlate, rfl⟩⟩

/-- There is a round more. -/
theorem Ends.again (h : Ends what timeout interval outcomes (first + 1) last result)
    (hnotYet : NotYet (outcomes first)) (hearly : first * interval < timeout) :
    Ends what timeout interval outcomes first last result := by
  refine ⟨Nat.le_of_succ_le h.le, fun number hle hlt => ?_, h.ended⟩
  rcases Nat.eq_or_lt_of_le hle with rfl | hbehind
  · exact ⟨hnotYet, hearly⟩
  · exact h.before number hbehind hlt

/-- A check is made, and its time kept. -/
theorem checking_outcome (start : Nat) (notes : List (Nat × Rehearsal.Event)) (number : Nat) :
    (checking outcomes).outcome
        ⟨start + number * interval, notes, times start interval number⟩ =
      (outcomes number,
        ⟨start + number * interval, notes, times start interval (number + 1)⟩) := by
  have hlength : (times start interval number).length = number := by simp [times]
  have htimes : times start interval (number + 1) =
      times start interval number ++ [start + number * interval] := by
    simp [times, List.range_succ]
  rw [htimes]
  refine Prod.ext ?_ rfl
  change outcomes (times start interval number).length = outcomes number
  rw [hlength]

variable (what outcomes) in
/-- **The rounds from a number on**, as long as the pauses that are left suffice. -/
theorem checkBy_ends (start : Nat) (notes : List (Nat × Rehearsal.Event)) {waits number : Nat}
    (hwaits : timeout ≤ (number + waits) * interval) :
    ∃ last result, Ends what timeout interval outcomes number last result ∧
      checkBy Play.clock what (start + timeout) interval (checking outcomes) waits
        ⟨start + number * interval, notes, times start interval number⟩ =
      (result, ⟨start + last * interval, notes, times start interval (last + 1)⟩) := by
  -- Where no pause is left, the time is up as well, so the bound on them changes nothing.
  induction waits generalizing number with
  | zero =>
    rw [checkBy, play_bind, checking_outcome]
    rcases hsettled : settled? (outcomes number) with - | result
    · exact ⟨number, _, .late (settled?_eq_none.mp hsettled) hwaits, rfl⟩
    · exact ⟨number, result, .settled hsettled, rfl⟩
  | succ waits ih =>
    rw [checkBy, play_bind, checking_outcome]
    rcases hsettled : settled? (outcomes number) with - | result
    · have hnotYet := settled?_eq_none.mp hsettled
      by_cases hlate : timeout ≤ number * interval
      · refine ⟨number, _, .late hnotYet hlate, ?_⟩
        change (if start + timeout ≤ start + number * interval then
          (pure (.error (.timeout what)) : Play (List Nat) (Except Error α)) else _) _ = _
        rw [if_pos (Nat.add_le_add_left hlate start)]
        rfl
      · have hmore : timeout ≤ (number + 1 + waits) * interval := by
          rwa [Nat.add_right_comm, Nat.add_assoc]
        have hnext : start + (number + 1) * interval = start + number * interval + interval := by
          rw [Nat.add_mul, Nat.one_mul, Nat.add_assoc]
        obtain ⟨last, result, ends, hrest⟩ := ih hmore
        refine ⟨last, result, ends.again hnotYet (Nat.lt_of_not_le hlate), ?_⟩
        change (if start + timeout ≤ start + number * interval then
          (pure (.error (.timeout what)) : Play (List Nat) (Except Error α)) else _) _ = _
        rw [if_neg fun h => hlate (Nat.le_of_add_le_add_left h), ← hrest, hnext]
        rfl
    · exact ⟨number, result, .settled hsettled, rfl⟩

end Rounds

/-- **When the waiting ends.** A condition is waited for, with time between the checks, on a clock
that only waiting moves, and whatever comes of each check. There is a least number of intervals that
take as long as there is time: say `rounds`. If one of the checks from the first one to the one
after so many intervals finds something or fails for good, the first of them that does is the last
check, at its own time, and its outcome is the result. If none does, all of them are made, and the
time is up. A failure of the network is never the result. -/
theorem await_rounds (what : String) (timeout interval : Span) (hinterval : 0 < interval)
    (outcomes : Nat → Except Error (Option α)) (start : Nat)
    (notes : List (Nat × Rehearsal.Event)) :
    ∃ (rounds last : Nat) (result : Except Error α),
      IsLeast {count : Nat | timeout ≤ count * interval} rounds ∧
      (await Play.clock what timeout interval (checking outcomes)).outcome ⟨start, notes, []⟩ =
        (result, ⟨start + last * interval, notes,
          (List.range (last + 1)).map fun number => start + number * interval⟩) ∧
      (IsLeast {number | ¬ NotYet (outcomes number)} last ∧ last ≤ rounds ∧
          ((∃ a, outcomes last = .ok (some a) ∧ result = .ok a) ∨
            ∃ e, outcomes last = .error e ∧ e.isTransient = false ∧ result = .error e) ∨
        (∀ number ≤ rounds, NotYet (outcomes number)) ∧ last = rounds ∧
          result = .error (.timeout what)) ∧
      ∀ e, result = .error e → e.isTransient = false := by
  have hpauses : timeout ≤ (0 + Poll.rounds timeout interval) * interval := by
    rw [Nat.zero_add]
    exact le_rounds_mul hinterval
  have hexists : ∃ count : Nat, timeout ≤ count * interval := ⟨_, hpauses⟩
  obtain ⟨last, result, ends, hrun⟩ := checkBy_ends what outcomes start notes hpauses
  rw [Nat.zero_mul] at hrun
  have hle : last ≤ Nat.find hexists := by
    by_contra hlt
    exact Nat.not_le_of_lt (ends.before _ (Nat.zero_le _) (Nat.lt_of_not_le hlt)).2
      (Nat.find_spec hexists)
  refine ⟨Nat.find hexists, last, result,
    ⟨Nat.find_spec hexists, fun count hcount => Nat.find_min' hexists hcount⟩, hrun, ?_⟩
  rcases ends.ended with hsettled | ⟨hnotYet, hlate, rfl⟩
  · have hcases := of_settled?_eq_some hsettled
    refine ⟨.inl ⟨⟨?_, ?_⟩, hle, hcases⟩, ?_⟩
    · intro hnotYet
      rw [settled?_eq_none.mpr hnotYet] at hsettled
      cases hsettled
    · intro number hnumber
      by_contra hlt
      exact hnumber (ends.before _ (Nat.zero_le _) (Nat.lt_of_not_le hlt)).1
    · rintro e rfl
      obtain ⟨a, -, ⟨⟩⟩ | ⟨e', -, hlasting, ⟨⟩⟩ := hcases
      exact hlasting
  · have hlast : last = Nat.find hexists := Nat.le_antisymm hle (Nat.find_min' hexists hlate)
    refine ⟨.inr ⟨fun number hnumber => ?_, hlast, rfl⟩, ?_⟩
    · rcases Nat.eq_or_lt_of_le (hlast ▸ hnumber : number ≤ last) with rfl | hlt
      · exact hnotYet
      · exact (ends.before number (Nat.zero_le _) hlt).1
    · rintro e ⟨⟩
      rfl

/-! Something is found in the fourth round, after the deadline, and a check before it is lost. -/

/-- What comes of the checks. -/
def lateOutcomes (number : Nat) : Except Error (Option Nat) :=
  if number = 1 then .error (.network "lost") else .ok (if number = 3 then some 42 else none)

theorem notYet_lateOutcomes {number : Nat} (h : number < 3) : NotYet (lateOutcomes number) := by
  obtain rfl | rfl | rfl : number = 0 ∨ number = 1 ∨ number = 2 := by omega
  all_goals exact settled?_eq_none.mp rfl

theorem await_rounds_late : 0 < 3 ∧
    (await Play.clock "block" 7 3 (checking lateOutcomes)).outcome ⟨0, [], []⟩ =
      (.ok 42, ⟨9, [], [0, 3, 6, 9]⟩) := by
  have hinterval : 0 < 3 := by decide
  refine ⟨hinterval, ?_⟩
  obtain ⟨rounds, last, result, hrounds, hrun, hended, -⟩ :=
    await_rounds "block" 7 3 hinterval lateOutcomes 0 []
  have hlate : 7 ≤ rounds * 3 := hrounds.1
  rcases hended with ⟨hleast, -, hresult⟩ | ⟨hnone, -, -⟩
  · have hlast : last = 3 := by
      refine Nat.le_antisymm (hleast.2 ?_) (Nat.le_of_not_lt fun h => hleast.1
        (notYet_lateOutcomes h))
      exact fun h => absurd (settled?_eq_none.mpr h) (by simp [lateOutcomes, settled?])
    subst hlast
    obtain ⟨a, ⟨⟩, rfl⟩ | ⟨e, ⟨⟩, -⟩ := hresult
    exact hrun
  · have hthird : 3 ≤ rounds := by omega
    exact absurd (settled?_eq_none.mpr (hnone 3 hthird)) (by simp [lateOutcomes, settled?])

end ProxyUpgrade.Poll
