import ProxyUpgrade.Node.Account
import ProxyUpgrade.Proofs.Poll
import ProxyUpgrade.Proofs.Site.Reads
/-!
# Waiting for receipts

Once a transaction is out, all that is done about it is to ask for its receipt, again and again,
until there is one, the node answers nonsense, or the time is up. What has been read then decides
how it ends (`Site.Followed`): nothing else is asked, no failure of the network gets through, and
the time is up no sooner than it should be.

A receipt may say whether the transaction has succeeded, by a *status*; it counts as a success if
the status is one or is left out (`Receipt.exists_statusIn?`).
-/

namespace ProxyUpgrade

/-! ### What a receipt says -/

/-- The status in a receipt as a node writes it; none if it is left out. -/
def Receipt.statusIn? (json : Json) : Option (Option Nat) := do
  let fields ← json.fields? ["transactionHash", "blockNumber", "contractAddress", "status"]
  fields.optional "status" (Quantity.ofJson? 64)

theorem Receipt.exists_statusIn? {json : Json} {receipt : Receipt}
    (h : Receipt.ofNodeJson? json = some receipt) :
    ∃ status, Receipt.statusIn? json = some status ∧ receipt.succeeded = status.all (· == 1) := by
  simp only [ofNodeJson?, Option.bind_eq_bind, Option.bind_eq_some_iff, Option.pure_def,
    Option.some.injEq] at h
  obtain ⟨fields, hfields, status, hstatus, hash, -, block, -, contract, -, rfl⟩ := h
  refine ⟨status, ?_, rfl⟩
  simp [statusIn?, hfields, hstatus]

theorem Json.of_nullable?_eq_some {α : Type} {read : Json → Option α} {json : Json} {value : α}
    (h : json.nullable? read = some (some value)) : read json = some value := by
  cases json with
  | null => simp [nullable?] at h
  | _ => simpa [nullable?] using h

namespace Site

variable (site : Site)

/-- Asks for the receipt of a transaction. -/
def receiptQuery (hash : Hash) : Http.Request :=
  site.query "eth_getTransactionReceipt" [hash.toJson]

/-- The receipt that a reply says there is, if there is one. -/
def receiptIn (reply : Option Http.Reply) : Except Error (Option Receipt) :=
  site.understood "eth_getTransactionReceipt" (Json.nullable? Receipt.ofNodeJson?) reply

/-- **A reply shows a receipt**, with the status that it says. -/
def Shows (reply : Option Http.Reply) (receipt : Receipt) (status : Option Nat) : Prop :=
  site.receiptIn reply = .ok (some receipt) ∧
    ∃ json, Node.heard "eth_getTransactionReceipt" (site.arrived reply) = .ok json ∧
      Receipt.statusIn? json = some status

/-- The rules of a site whose clock is right, and where answers may take their time. The state is
the time. -/
def ticking : Dialogue.Rules Nat Question Question.Answer where
  permits _ _ := True
  answers time question answer time' := time ≤ time' ∧
    match question, answer with
    | .now, seen => seen = time'
    | .sleep pause, _ => time + pause ≤ time'
    | _, _ => True

theorem le_of_ticking {time time' : Nat} {turns : List Turn}
    (steps : ticking.Steps time turns time') : time ≤ time' := by
  induction steps with
  | nil => exact Nat.le_refl _
  | cons first _ ih => exact Nat.le_trans first.1 ih

/-! ### Polls -/

/-- **The turns in which a receipt is waited for** until a deadline, with at most so many pauses
between them. -/
inductive Polls (hash : Hash) (deadline : Nat) :
    (waits : Nat) → List Turn → Except Error Receipt → Prop
  /-- A reply settles the matter. -/
  | settled {waits : Nat} {reply : Option Http.Reply} {result : Except Error Receipt}
      (settles : Poll.settled? (site.receiptIn reply) = some result) :
    Polls hash deadline waits [⟨.exchange (site.receiptQuery hash), reply⟩] result
  /-- No pause is left. -/
  | spent {reply : Option Http.Reply} (notYet : Poll.NotYet (site.receiptIn reply)) :
    Polls hash deadline 0 [⟨.exchange (site.receiptQuery hash), reply⟩]
      (.error (.timeout "transaction receipt"))
  /-- The deadline has passed. -/
  | late {waits : Nat} {reply : Option Http.Reply} {time : Nat}
      (notYet : Poll.NotYet (site.receiptIn reply)) (passed : deadline ≤ time) :
    Polls hash deadline (waits + 1)
      [⟨.exchange (site.receiptQuery hash), reply⟩, ⟨.now, time⟩]
      (.error (.timeout "transaction receipt"))
  /-- There is time to ask again. -/
  | again {waits : Nat} {reply : Option Http.Reply} {time : Nat} {rest : List Turn}
      {result : Except Error Receipt} (notYet : Poll.NotYet (site.receiptIn reply))
      (early : time < deadline) (next : Polls hash deadline waits rest result) :
    Polls hash deadline (waits + 1)
      (⟨.exchange (site.receiptQuery hash), reply⟩ :: ⟨.now, time⟩ ::
        ⟨.sleep Node.interval, ()⟩ :: rest) result

section Polls

variable {site} {hash : Hash} {deadline waits : Nat} {turns : List Turn}
  {result : Except Error Receipt}

theorem polls_of_checkBy (hreachable : site.Reachable)
    (run : Dialogue.Run (Poll.checkBy (asking site.account).clock "transaction receipt" deadline
      Node.interval ((site.node (asking site.account)).receipt hash) waits) turns result) :
    site.Polls hash deadline waits turns result := by
  -- The induction is on the pauses that are left, as the loop runs.
  induction waits generalizing turns with
  | zero =>
    obtain ⟨first, found, rest, rfl, hfirst, hrest⟩ := Dialogue.Run.exists_of_bind run
    obtain ⟨reply, rfl, rfl⟩ := query_run_cases hreachable hfirst
    rcases hsettled : Poll.settled? (site.receiptIn reply) with - | outcome
    · rw [receiptIn] at hsettled
      rw [hsettled] at hrest
      cases hrest
      exact .spent (Poll.settled?_eq_none.mp hsettled)
    · rw [receiptIn] at hsettled
      rw [hsettled] at hrest
      cases hrest
      exact .settled hsettled
  | succ waits ih =>
    obtain ⟨first, found, rest, rfl, hfirst, hrest⟩ := Dialogue.Run.exists_of_bind run
    obtain ⟨reply, rfl, rfl⟩ := query_run_cases hreachable hfirst
    rcases hsettled : Poll.settled? (site.receiptIn reply) with - | outcome
    · have hnotYet := Poll.settled?_eq_none.mp hsettled
      rw [receiptIn] at hsettled
      rw [hsettled] at hrest
      obtain ⟨look, time, rest, rfl, hlook, hlooked⟩ := Dialogue.Run.exists_of_bind hrest
      obtain rfl := Dialogue.run_question.mp hlook
      by_cases hpassed : deadline ≤ time
      · rw [if_pos hpassed] at hlooked
        cases hlooked
        exact .late hnotYet hpassed
      · rw [if_neg hpassed] at hlooked
        obtain ⟨pause, ⟨⟩, rest, rfl, hpause, hnext⟩ := Dialogue.Run.exists_of_bind hlooked
        obtain rfl := Dialogue.run_question.mp hpause
        exact .again hnotYet (Nat.lt_of_not_le hpassed) (ih hnext)
    · rw [receiptIn] at hsettled
      rw [hsettled] at hrest
      cases hrest
      exact .settled hsettled

/-- Any such turns can be taken. -/
theorem Polls.run (hreachable : site.Reachable) (h : site.Polls hash deadline waits turns result) :
    Dialogue.Run (Poll.checkBy (asking site.account).clock "transaction receipt" deadline
      Node.interval ((site.node (asking site.account)).receipt hash) waits) turns result := by
  have hcheck (reply : Option Http.Reply) : Dialogue.Run
      ((site.node (asking site.account)).receipt hash).outcome
      [⟨.exchange (site.receiptQuery hash), reply⟩] (site.receiptIn reply) :=
    query_run_understood hreachable reply
  induction h with
  | @settled waits reply result settles =>
    rcases waits with - | waits
    all_goals
      refine Dialogue.Run.bind (hcheck reply) ?_
      rw [settles]
      exact .done result
  | @spent reply notYet =>
    refine Dialogue.Run.bind (hcheck reply) ?_
    rw [Poll.settled?_eq_none.mpr notYet]
    exact .done _
  | @late waits reply time notYet passed =>
    refine Dialogue.Run.bind (hcheck reply) ?_
    rw [Poll.settled?_eq_none.mpr notYet]
    refine Dialogue.Run.bind (now_run site.account time) ?_
    rw [if_pos passed]
    exact .done _
  | @again waits reply time rest result notYet early next ih =>
    refine Dialogue.Run.bind (hcheck reply) ?_
    rw [Poll.settled?_eq_none.mpr notYet]
    refine Dialogue.Run.bind (now_run site.account time) ?_
    rw [if_neg (Nat.not_le_of_lt early)]
    exact Dialogue.Run.bind (sleep_run site.account Node.interval) ih

/-- Waiting for a receipt begins with a look at the time. -/
theorem awaitReceipt_run_cases (hreachable : site.Reachable)
    (run : Dialogue.Run ((site.node (asking site.account)).awaitReceipt hash).run turns result) :
    ∃ begun polls polled, turns = ⟨.now, begun⟩ :: polls ∧
      site.Polls hash (begun + site.patience) (Poll.rounds site.patience Node.interval) polls
        polled ∧ result = polled.mapError (Node.late hash) := by
  obtain ⟨waiting, polled, rest, rfl, hwaiting, hresult⟩ := Dialogue.Run.exists_of_bind run
  obtain ⟨look, begun, polls, rfl, hlook, hpolls⟩ := Dialogue.Run.exists_of_bind hwaiting
  obtain rfl := Dialogue.run_question.mp hlook
  refine ⟨begun, polls, polled, ?_, polls_of_checkBy hreachable hpolls, ?_⟩
  · rcases polled with e | receipt <;> cases hresult <;> simp
  · rcases polled with e | receipt <;> cases hresult <;> rfl

theorem awaitReceipt_run (hreachable : site.Reachable) {begun : Nat}
    (h : site.Polls hash (begun + site.patience) (Poll.rounds site.patience Node.interval) turns
      result) :
    Dialogue.Run ((site.node (asking site.account)).awaitReceipt hash).run (⟨.now, begun⟩ :: turns)
      (result.mapError (Node.late hash)) := by
  have hawait : Dialogue.Run (Poll.await (asking site.account).clock "transaction receipt"
      site.patience Node.interval ((site.node (asking site.account)).receipt hash)).outcome
      (⟨.now, begun⟩ :: turns) result :=
    Dialogue.Run.bind (now_run site.account begun) (h.run hreachable)
  rw [← List.append_nil (_ :: _)]
  refine Dialogue.Run.bind hawait ?_
  rcases result with e | receipt <;> exact .done _

/-- Nothing else is asked. -/
theorem Polls.asks (h : site.Polls hash deadline waits turns result) :
    ∀ turn ∈ turns, turn.1 = .now ∨ turn.1 = .sleep Node.interval ∨
      turn.1 = .exchange (site.receiptQuery hash) := by
  induction h with
  | settled | spent | late => simp
  | again _ _ _ ih => simpa using ih

/-- **A reply that is not "not yet" is the last one**, and settles the matter. -/
theorem Polls.settles (h : site.Polls hash deadline waits turns result) {reply : Option Http.Reply}
    (hmem : ⟨.exchange (site.receiptQuery hash), reply⟩ ∈ turns)
    (hfound : ¬ Poll.NotYet (site.receiptIn reply)) :
    Poll.settled? (site.receiptIn reply) = some result := by
  induction h with
  | settled settles =>
    obtain rfl : reply = _ := by simpa using hmem
    exact settles
  | spent notYet | late notYet =>
    obtain rfl : reply = _ := by simpa using hmem
    exact absurd notYet hfound
  | again notYet _ _ ih =>
    obtain rfl | hmem : reply = _ ∨ _ := by simpa using hmem
    · exact absurd notYet hfound
    · exact ih hmem

/-- **The waiting ends because a reply settles the matter, or else because the time is up.** -/
theorem Polls.ends (h : site.Polls hash deadline waits turns result) :
    (∃ reply, ⟨.exchange (site.receiptQuery hash), reply⟩ ∈ turns ∧
      Poll.settled? (site.receiptIn reply) = some result) ∨
    result = .error (.timeout "transaction receipt") ∧
      ∀ reply, ⟨.exchange (site.receiptQuery hash), reply⟩ ∈ turns →
        Poll.NotYet (site.receiptIn reply) := by
  induction h with
  | settled settles => exact .inl ⟨_, List.mem_singleton_self _, settles⟩
  | spent notYet | late notYet =>
    refine .inr ⟨rfl, fun reply hmem => ?_⟩
    obtain rfl : reply = _ := by simpa using hmem
    exact notYet
  | again notYet _ _ ih =>
    rcases ih with ⟨reply, hmem, hsettles⟩ | ⟨hresult, hnone⟩
    · exact .inl ⟨reply, by simp [hmem], hsettles⟩
    · refine .inr ⟨hresult, fun reply hmem => ?_⟩
      obtain rfl | hmem : reply = _ ∨ _ := by simpa using hmem
      · exact notYet
      · exact hnone reply hmem

/-- Once the clock shows the deadline, nothing more is asked. -/
theorem Polls.punctual (h : site.Polls hash deadline waits turns result)
    {before more : List Turn} {time : Nat} (hsplit : turns = before ++ ⟨.now, time⟩ :: more)
    (hpassed : deadline ≤ time) :
    more = [] ∧ result = .error (.timeout "transaction receipt") := by
  -- Of the turns of one round, only the second is a look at the clock.
  induction h generalizing before with
  | settled | spent => rcases before with - | ⟨turn, before⟩ <;> simp at hsplit
  | late =>
    rcases before with - | ⟨turn, - | ⟨turn, before⟩⟩
    · simp at hsplit
    · simp only [List.cons_append, List.nil_append, List.cons.injEq] at hsplit
      exact ⟨hsplit.2.2.symm, rfl⟩
    · simp at hsplit
  | again _ early _ ih =>
    rcases before with - | ⟨turn, - | ⟨turn, - | ⟨turn, before⟩⟩⟩
    · simp at hsplit
    · simp only [List.cons_append, List.nil_append, List.cons.injEq] at hsplit
      obtain ⟨-, ⟨⟩, -⟩ := hsplit
      exact absurd early (Nat.not_lt_of_le hpassed)
    · simp at hsplit
    · simp only [List.cons_append, List.cons.injEq] at hsplit
      exact ih hsplit.2.2.2

/-- The time is not up before the deadline, if there are as many pauses as fit into it. -/
theorem Polls.deadline_le (h : site.Polls hash deadline waits turns result) {start ended : Nat}
    (hwaits : deadline ≤ start + waits * Node.interval) (steps : ticking.Steps start turns ended)
    (hresult : ∀ reply, ⟨.exchange (site.receiptQuery hash), reply⟩ ∈ turns →
      Poll.NotYet (site.receiptIn reply)) : deadline ≤ ended := by
  -- Each round takes the time of its pause at least, so what is left of the time fits into the
  -- pauses that are left.
  induction h generalizing start with
  | @settled _ reply _ settles =>
    have hnotYet := Poll.settled?_eq_none.mpr (hresult reply (List.mem_singleton_self _))
    rw [hnotYet] at settles
    cases settles
  | spent => exact Nat.le_trans (by simpa using hwaits) (le_of_ticking steps)
  | @late _ _ time _ passed =>
    obtain - | ⟨-, - | ⟨hlook, steps⟩⟩ := steps
    exact Nat.le_trans (Nat.le_trans passed (Nat.le_of_eq hlook.2)) (le_of_ticking steps)
  | @again waits _ _ _ _ _ _ _ ih =>
    obtain - | ⟨hasked, - | ⟨hlook, - | ⟨hpause, steps⟩⟩⟩ := steps
    refine ih ?_ steps fun reply hmem => hresult reply (by simp [hmem])
    calc deadline ≤ start + (waits + 1) * Node.interval := hwaits
      _ = start + Node.interval + waits * Node.interval := by rw [Nat.add_mul]; omega
      _ ≤ _ := Nat.add_le_add_right ?_ _
    exact Nat.le_trans (Nat.add_le_add_right (Nat.le_trans hasked.1 hlook.1) _) hpause.2

end Polls

/-! ### Transactions that are out -/

/-- **How a transaction is followed** that is out since some time. -/
structure Followed (hash : Hash) (begun : Nat) (turns : List Turn)
    (result : Except Error Route.Outcome) : Prop where
  /-- Nothing is asked but the time and for the receipt. -/
  asks : ∀ turn ∈ turns, turn.1 = .now ∨ turn.1 = .sleep Node.interval ∨
    turn.1 = .exchange (site.receiptQuery hash)
  /-- It counts as mined only if a receipt has been read that does not say that it failed. -/
  mined : ∀ outcome, result = .ok outcome → ∃ reply receipt status,
    ⟨.exchange (site.receiptQuery hash), reply⟩ ∈ turns ∧ site.Shows reply receipt status ∧
      (status = none ∨ status = some 1) ∧ outcome = .mined receipt
  /-- A receipt that is read decides, by its status. -/
  shown : ∀ reply receipt status, ⟨.exchange (site.receiptQuery hash), reply⟩ ∈ turns →
    site.Shows reply receipt status →
      result = if status = none ∨ status = some 1 then .ok (.mined receipt)
        else .error (.reverted hash Node.Account.failedReceipt)
  /-- It is late if no reply says anything, neither that there is a receipt nor that there never
  will be one. -/
  late : result = .error (.receiptTimeout hash) ↔
    ∀ reply, ⟨.exchange (site.receiptQuery hash), reply⟩ ∈ turns →
      Poll.NotYet (site.receiptIn reply)
  /-- Once the clock shows the deadline, it is late, and nothing more is asked. -/
  punctual : ∀ before time more, turns = before ++ ⟨.now, time⟩ :: more →
    begun + site.patience ≤ time → more = [] ∧ result = .error (.receiptTimeout hash)
  /-- It is not late before the deadline. -/
  patient : ∀ ended, ticking.Steps begun turns ended → result = .error (.receiptTimeout hash) →
    begun + site.patience ≤ ended
  /-- No failure is one that would be tried again. -/
  lasting : ∀ e, result = .error e → e.isTransient = false

/-- What becomes of a transaction when the waiting for its receipt has ended. -/
def concluded (hash : Hash) : Except Error Receipt → Except Error Receipt
  | .ok receipt =>
    if receipt.succeeded then .ok receipt else .error (.reverted hash Node.Account.failedReceipt)
  | .error e => .error (Node.late hash e)

section Followed

variable {site} {hash : Hash} {begun : Nat} {turns : List Turn} {polled : Except Error Receipt}
  {reply : Option Http.Reply} {receipt : Receipt}

theorem exists_shows (h : site.receiptIn reply = .ok (some receipt)) :
    ∃ status, site.Shows reply receipt status := by
  obtain ⟨json, hheard, hread⟩ := understood_eq_ok.mp h
  obtain ⟨status, hstatus, -⟩ := Receipt.exists_statusIn? (Json.of_nullable?_eq_some hread)
  exact ⟨status, h, json, hheard, hstatus⟩

/-- Whether a receipt stands for a success is up to its status. -/
theorem Shows.succeeded {status : Option Nat} (h : site.Shows reply receipt status) :
    receipt.succeeded = true ↔ status = none ∨ status = some 1 := by
  obtain ⟨hreceipt, json, hheard, hstatus⟩ := h
  obtain ⟨json', hheard', hread⟩ := understood_eq_ok.mp hreceipt
  obtain rfl : json = json' := Except.ok.inj (hheard.symm.trans hheard')
  obtain ⟨status', hstatus', hsucceeded⟩ :=
    Receipt.exists_statusIn? (Json.of_nullable?_eq_some hread)
  obtain rfl : status = status' := Option.some.inj (hstatus.symm.trans hstatus')
  rw [hsucceeded]
  rcases status with - | status <;> simp

/-- Something that was read decides, or else it is late. -/
theorem Polls.cases {waits deadline : Nat} (h : site.Polls hash deadline waits turns polled) :
    (∃ reply receipt, ⟨.exchange (site.receiptQuery hash), reply⟩ ∈ turns ∧
      site.receiptIn reply = .ok (some receipt) ∧ polled = .ok receipt) ∨
    (∃ reply e, ⟨.exchange (site.receiptQuery hash), reply⟩ ∈ turns ∧
      site.receiptIn reply = .error e ∧ polled = .error e ∧
        ((∃ reason, e = .rejected "eth_getTransactionReceipt" reason) ∨
          ∃ reason, e = .encoding reason)) ∨
    polled = .error (.timeout "transaction receipt") ∧
      ∀ reply, ⟨.exchange (site.receiptQuery hash), reply⟩ ∈ turns →
        Poll.NotYet (site.receiptIn reply) := by
  rcases h.ends with ⟨reply, hmem, hsettles⟩ | hlate
  · rcases Poll.of_settled?_eq_some hsettles with
      ⟨receipt, hfound, rfl⟩ | ⟨e, hfound, hlasting, rfl⟩
    · exact .inl ⟨reply, receipt, hmem, hfound, rfl⟩
    · refine .inr (.inl ⟨reply, e, hmem, hfound, rfl, ?_⟩)
      cases failure_of_understood hfound with
      | network reason => cases hlasting
      | rejected reason => exact .inl ⟨reason, rfl⟩
      | encoding reason => exact .inr ⟨reason, rfl⟩
  · exact .inr (.inr hlate)

/-- It is late if nothing that was read decides. -/
theorem Polls.late_iff {waits deadline : Nat} (h : site.Polls hash deadline waits turns polled) :
    (concluded hash polled).map Route.Outcome.mined = .error (.receiptTimeout hash) ↔
      ∀ reply, ⟨.exchange (site.receiptQuery hash), reply⟩ ∈ turns →
        Poll.NotYet (site.receiptIn reply) := by
  rcases h.cases with ⟨reply, receipt, hmem, hreceipt, rfl⟩ | ⟨reply, e, hmem, he, rfl, hform⟩ |
    ⟨rfl, hnone⟩
  · refine iff_of_false ?_ fun hnone => ?_
    · rw [concluded]
      split <;> simp [Except.map]
    · simpa [hreceipt, Poll.NotYet] using hnone reply hmem
  · refine iff_of_false ?_ fun hnone => ?_
    · rcases hform with ⟨reason, rfl⟩ | ⟨reason, rfl⟩ <;> simp [concluded, Node.late, Except.map]
    · rcases hform with ⟨reason, rfl⟩ | ⟨reason, rfl⟩ <;>
        simpa [he, Poll.NotYet, Error.isTransient] using hnone reply hmem
  · exact iff_of_true rfl hnone

theorem followed_of_polls
    (h : site.Polls hash (begun + site.patience) (Poll.rounds site.patience Node.interval) turns
      polled) : site.Followed hash begun turns ((concluded hash polled).map .mined) where
  asks := h.asks
  mined outcome hresult := by
    rcases h.cases with ⟨reply, receipt, hmem, hreceipt, rfl⟩ | ⟨_, _, -, -, rfl, -⟩ | ⟨rfl, -⟩
    · obtain ⟨status, hshows⟩ := exists_shows hreceipt
      rw [concluded] at hresult
      split at hresult
      next hsucceeded =>
        cases hresult
        exact ⟨reply, receipt, status, hmem, hshows, hshows.succeeded.mp hsucceeded, rfl⟩
      next => cases hresult
    · cases hresult
    · cases hresult
  shown reply receipt status hmem hshows := by
    have hsettles := h.settles hmem (by simp [hshows.1, Poll.NotYet])
    rw [hshows.1] at hsettles
    cases hsettles
    rw [concluded]
    simp only [hshows.succeeded]
    split <;> rfl
  late := h.late_iff
  punctual before time more hsplit hpassed := by
    obtain ⟨hmore, rfl⟩ := h.punctual hsplit hpassed
    exact ⟨hmore, rfl⟩
  patient ended steps hlate :=
    h.deadline_le (Nat.add_le_add_left (Poll.le_rounds_mul (by decide)) begun) steps
      (h.late_iff.mp hlate)
  lasting e hresult := by
    rcases h.cases with ⟨reply, receipt, -, -, rfl⟩ | ⟨reply, e', -, -, rfl, hform⟩ | ⟨rfl, -⟩
    · rw [concluded] at hresult
      split at hresult <;> cases hresult
      rfl
    · rcases hform with ⟨reason, rfl⟩ | ⟨reason, rfl⟩ <;> cases hresult <;> rfl
    · cases hresult
      rfl

end Followed

end Site

end ProxyUpgrade
