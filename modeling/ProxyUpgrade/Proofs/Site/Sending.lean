import ProxyUpgrade.Node.Account
import ProxyUpgrade.Proofs.Deploy.First
import ProxyUpgrade.Proofs.Site.Parts
import ProxyUpgrade.Proofs.Site.Receipts
/-!
# Sending calls through the node

An account that a node acts for has the node send its transactions. A call is submitted, and if the
reply is lost it is submitted again, as often as the policy allows; once a reply is heard it is not
submitted any more, whatever becomes of it (`Site.sent_until_heard`). There are two loops, one
around the other: the attempts at the whole, and within each of them the polls for a receipt
(`Site.Followed`). That they do not get in the way of each other is due to what the inner one may
end in: with none of the failures that the outer one tries again.

Whether the node has sent a transaction although its reply was lost cannot be told from here.
-/

namespace ProxyUpgrade.Site

/-! ### Calls that are sent directly -/

section Assembly

variable {m : Type → Type} [Monad m] (site : Site) (parts : Parts m)

/-- The account of a site, where the node acts for it. -/
def sender (key : Option Secp256k1.Key) : Node.Account m := ⟨site.node parts, site.account, key⟩

/-- Has the account send a call, again after failures of the network. -/
def sendDirectly (key : Option Secp256k1.Key) (attempts : Nat) (delay : Span) (call : Call) :
    Action m Route.Outcome :=
  (Route.direct (.transient attempts delay)).send parts.clock (site.sender parts key).signer call

end Assembly

section Answers

variable {Q : Type} {A : Q → Type} {m : Type → Type} [Monad m] [LawfulMonad m]

theorem submit_answeredBy (reply : (q : Q) → m (A q)) (site : Site)
    (parts : Parts (Dialogue Q A)) (key : Option Secp256k1.Key) (draft : Node.Draft) :
    Action.answeredBy reply ((site.sender parts key).submit draft) =
      (site.sender (parts.answeredBy reply) key).submit draft := by
  have hreceipt (hash : Hash) : Action.answeredBy reply ((site.node parts).receipt hash) =
      (site.node (parts.answeredBy reply)).receipt hash := query_answeredBy reply site parts ..
  have hawait (hash : Hash) : Action.answeredBy reply ((site.node parts).awaitReceipt hash) =
      (site.node (parts.answeredBy reply)).awaitReceipt hash := by
    refine (Dialogue.answeredBy_bind _ _).trans ?_
    have hpolled := Poll.await_answeredBy reply (site.node parts).clock "transaction receipt"
      (site.node parts).patience Node.interval ((site.node parts).receipt hash)
    rw [hreceipt] at hpolled
    refine congrArg₂ _ (congrArg Action.outcome hpolled) (funext fun outcome => ?_)
    rcases outcome with e | receipt <;> rfl
  have hsend : Action.answeredBy reply ((site.node parts).send draft) =
      (site.node (parts.answeredBy reply)).send draft := query_answeredBy reply site parts ..
  simp only [Node.Account.submit, sender, Action.answeredBy_bind, hawait, hsend]
  refine bind_congr fun hash => bind_congr fun receipt => ?_
  split <;> rfl

theorem sendDirectly_answeredBy (site : Site) (parts : Parts m) (key : Option Secp256k1.Key)
    (attempts : Nat) (delay : Span) (call : Call) :
    Action.answeredBy parts.reply
        (site.sendDirectly (asking site.account) key attempts delay call) =
      site.sendDirectly parts key attempts delay call := by
  let acted : Parts m := { parts with signer := { parts.signer with address := site.account } }
  have hparts : (asking site.account).answeredBy parts.reply = acted :=
    @asking_answeredBy m _ _ acted
  simp only [sendDirectly, Route.send, Action.answeredBy_bind, Retry.Policy.run_answeredBy]
  have hsubmit (draft : Node.Draft) := submit_answeredBy parts.reply site (asking site.account) key
    draft
  rw [hparts] at hsubmit
  have hclock := congrArg Parts.clock hparts
  change (asking site.account).clock.answeredBy parts.reply = parts.clock at hclock
  simp only [Node.Account.signer, hsubmit, hclock]
  rfl

end Answers

/-! ### Submissions -/

variable (site : Site)

/-- The transaction of a call. -/
def draftOf (call : Call) : Node.Draft := ⟨site.account, some call.target, call.payload, call.value⟩

/-- Has a transaction sent. -/
def sendQuery (draft : Node.Draft) : Http.Request :=
  site.query "eth_sendTransaction" [draft.toJson]

/-- The hash of the transaction that a reply says is sent. -/
def hashIn (reply : Option Http.Reply) : Except Error Hash :=
  site.understood "eth_sendTransaction" Hash.ofJson? reply

/-- The method that a request calls, if it calls one. -/
def methodOf? (request : Http.Request) : Option String :=
  match request.body with
  | .json document => (document.member? "method").bind Json.text?
  | _ => none

/-- What came of a turn, if it is one in which a transaction is submitted. -/
def submission? : Turn → Option (Except Error Hash)
  | ⟨.exchange request, reply⟩ =>
    if methodOf? request = some "eth_sendTransaction" then some (site.hashIn reply) else none
  | _ => none

/-- **What came of the submissions** among some turns. -/
def submissions (turns : List Turn) : List (Except Error Hash) :=
  turns.filterMap site.submission?

/-- A submission failed on the way, there or back. -/
def Unheard (outcome : Except Error Hash) : Prop := ∃ reason, outcome = .error (.network reason)

/-- How a call ends, by what came of its last submission: with the failure, or as the transaction
does that is then out. -/
def Concludes (draft : Node.Draft) (turns : List Turn) (result : Except Error Route.Outcome) :
    Except Error Hash → Prop
  | .error e => result = .error e
  | .ok hash => ∃ before reply begun after,
      turns = before ++ ⟨.exchange (site.sendQuery draft), reply⟩ :: ⟨.now, begun⟩ :: after ∧
        site.hashIn reply = .ok hash ∧ site.Followed hash begun after result

/-- **How a transaction is sent** with at most so many attempts. -/
structure SentUntilHeard (draft : Node.Draft) (attempts : Nat) (turns : List Turn)
    (result : Except Error Route.Outcome) : Prop where
  /-- No other transaction is submitted. -/
  same : ∀ turn ∈ turns, site.submission? turn ≠ none →
    turn.1 = .exchange (site.sendQuery draft)
  /-- It is submitted up to the first time that the node is heard, which settles how it ends. -/
  upToHeard : ∃ failed last, site.submissions turns = failed ++ [last] ∧
    (∀ outcome ∈ failed, Unheard outcome) ∧ failed.length < attempts ∧
      (Unheard last → failed.length + 1 = attempts) ∧ site.Concludes draft turns result last

section Submissions

variable {site} {draft : Node.Draft} {reply : Option Http.Reply} {key : Option Secp256k1.Key}
  {turns : List Turn} {answered : Except Error Receipt}

theorem methodOf?_query (method : String) (args : List Json) :
    methodOf? (site.query method args) = some method := rfl

@[simp] theorem submission?_sendQuery :
    site.submission? ⟨.exchange (site.sendQuery draft), reply⟩ = some (site.hashIn reply) := by
  rw [submission?, sendQuery, methodOf?_query, if_pos rfl]

@[simp] theorem submission?_receiptQuery (hash : Hash) :
    site.submission? ⟨.exchange (site.receiptQuery hash), reply⟩ = none := by
  rw [submission?, receiptQuery, methodOf?_query, if_neg (by decide)]

theorem submissions_append (first rest : List Turn) :
    site.submissions (first ++ rest) = site.submissions first ++ site.submissions rest :=
  List.filterMap_append

@[simp] theorem submission?_now (time : Nat) : site.submission? ⟨.now, time⟩ = none := rfl

@[simp] theorem submission?_sleep (time : Nat) : site.submission? ⟨.sleep time, ()⟩ = none := rfl

/-- Whoever follows a transaction submits none. -/
theorem Followed.submission?_eq_none {hash : Hash} {begun : Nat}
    {result : Except Error Route.Outcome} (h : site.Followed hash begun turns result) :
    ∀ turn ∈ turns, site.submission? turn = none := by
  rintro ⟨question, answer⟩ hmem
  obtain rfl | rfl | rfl := h.asks _ hmem
  · rfl
  · rfl
  · exact submission?_receiptQuery hash

/-! ### A single attempt -/

/-- **One attempt** submits the transaction, and then waits for its receipt. -/
theorem submit_run_cases (hreachable : site.Reachable)
    (run : Dialogue.Run ((site.sender (asking site.account) key).submit draft).run turns
      answered) :
    ∃ reply after, turns = ⟨.exchange (site.sendQuery draft), reply⟩ :: after ∧
      ((∃ e, site.hashIn reply = .error e ∧ after = [] ∧ answered = .error e) ∨
        ∃ hash begun rest, site.hashIn reply = .ok hash ∧ after = ⟨.now, begun⟩ :: rest ∧
          site.Followed hash begun rest (answered.map .mined)) := by
  obtain ⟨first, sent, rest, rfl, hfirst, hrest⟩ := Action.exists_run_of_bind run
  obtain ⟨reply, rfl, rfl⟩ := query_run_cases hreachable hfirst
  refine ⟨reply, rest, rfl, ?_⟩
  rcases hhash : site.hashIn reply with e | hash
  · rw [hashIn] at hhash
    rw [hhash] at hrest
    exact .inl ⟨e, rfl, hrest⟩
  · rw [hashIn] at hhash
    rw [hhash] at hrest
    obtain ⟨waiting, awaited, rest, rfl, hwaiting, hsettled⟩ := Action.exists_run_of_bind hrest
    obtain ⟨begun, polls, polled, rfl, hpolls, rfl⟩ := awaitReceipt_run_cases hreachable hwaiting
    have hfollowed := followed_of_polls hpolls
    have hconcluded : rest = [] ∧ answered = concluded hash polled := by
      rcases polled with e | receipt
      · exact hsettled
      · change Dialogue.Run (if receipt.succeeded = true then pure receipt
          else throw (.reverted hash Node.Account.failedReceipt) : Action Talk Receipt).run rest
          answered at hsettled
        rw [concluded]
        split at hsettled <;> cases hsettled <;> simp [*]
    obtain ⟨rfl, rfl⟩ := hconcluded
    exact .inr ⟨hash, begun, polls, rfl, by simp, hfollowed⟩

theorem send_run (hreachable : site.Reachable) (draft : Node.Draft) (reply : Option Http.Reply) :
    Dialogue.Run ((site.node (asking site.account)).send draft).run
      [⟨.exchange (site.sendQuery draft), reply⟩] (site.hashIn reply) :=
  query_run_understood hreachable reply

theorem submit_run_failed (hreachable : site.Reachable) {e : Error}
    (hhash : site.hashIn reply = .error e) :
    Dialogue.Run ((site.sender (asking site.account) key).submit draft).run
      [⟨.exchange (site.sendQuery draft), reply⟩] (.error e) := by
  have hsend := send_run hreachable draft reply
  rw [hhash] at hsend
  exact Action.run_bind_error hsend

theorem submit_run_followed (hreachable : site.Reachable) {hash : Hash} {begun : Nat}
    {polled : Except Error Receipt} (hhash : site.hashIn reply = .ok hash)
    (h : site.Polls hash (begun + site.patience) (Poll.rounds site.patience Node.interval) turns
      polled) :
    Dialogue.Run ((site.sender (asking site.account) key).submit draft).run
      (⟨.exchange (site.sendQuery draft), reply⟩ :: ⟨.now, begun⟩ :: turns)
      (concluded hash polled) := by
  have hsend := send_run hreachable draft reply
  rw [hhash] at hsend
  have hawait := awaitReceipt_run hreachable h
  refine Action.run_bind hsend ?_
  rcases polled with e | receipt
  · exact Action.run_bind_error hawait
  · refine Action.run_yield hawait ?_
    rw [concluded]
    split <;> rfl

/-! ### All attempts -/

/-- What comes before it makes no difference to how a call ends. -/
theorem Concludes.append {last : Except Error Hash} {result : Except Error Route.Outcome}
    (h : site.Concludes draft turns result last) (first : List Turn) :
    site.Concludes draft (first ++ turns) result last := by
  rcases last with e | hash
  · exact h
  · obtain ⟨before, reply, begun, after, rfl, hhash, hfollowed⟩ := h
    exact ⟨first ++ before, reply, begun, after, by simp, hhash, hfollowed⟩

/-- The last attempt settles how the call ends, and nothing else is submitted. -/
theorem sent_of_submit (hreachable : site.Reachable)
    (run : Dialogue.Run ((site.sender (asking site.account) key).submit draft).run turns
      answered) :
    ∃ last, site.submissions turns = [last] ∧
      site.Concludes draft turns (answered.map .mined) last ∧
      (∀ turn ∈ turns, site.submission? turn ≠ none → turn.1 = .exchange (site.sendQuery draft)) ∧
      ∀ e, answered = .error e → e.isTransient = true → last = .error e := by
  obtain ⟨reply, after, rfl, ⟨e, hhash, rfl, rfl⟩ | ⟨hash, begun, rest, hhash, rfl, hfollowed⟩⟩ :=
    submit_run_cases hreachable run
  · refine ⟨.error e, by simp [submissions, hhash], rfl, ?_, ?_⟩
    · simp
    · rintro _ ⟨⟩ -
      rfl
  · refine ⟨.ok hash, ?_, ⟨[], reply, begun, rest, rfl, hhash, hfollowed⟩, ?_, ?_⟩
    · simpa [submissions, hhash] using hfollowed.submission?_eq_none
    · intro turn hmem hsubmitted
      simp only [List.mem_cons] at hmem
      rcases hmem with rfl | rfl | hmem
      · rfl
      · exact absurd rfl hsubmitted
      · exact absurd (hfollowed.submission?_eq_none turn hmem) hsubmitted
    · rintro e rfl htransient
      have hlasting := hfollowed.lasting e rfl
      rw [htransient] at hlasting
      cases hlasting

theorem unheard_of_isTransient {e : Error} (h : e.isTransient = true) : Unheard (.error e) := by
  cases e with
  | network reason => exact ⟨reason, rfl⟩
  | _ => cases h

/-- **Each attempt but the last is a submission that was not heard of**, whatever the number that
they have. -/
theorem sent_of_attempts (hreachable : site.Reachable) {attempts left number : Nat} {delay : Span}
    (h : (Retry.Policy.transient attempts delay).Attempts (asking site.account).clock
      ((site.sender (asking site.account) key).submit draft) left number turns answered) :
    site.SentUntilHeard draft (left + 1) turns (answered.map .mined) := by
  -- The attempts that are left bound what is submitted; which attempt it is does not matter here.
  induction h with
  | @last left number turns answered run final =>
    obtain ⟨last, hsubmissions, hconcludes, hsame, -⟩ := sent_of_submit hreachable run
    refine ⟨hsame, [], last, hsubmissions, by simp, Nat.succ_pos _, ?_, hconcludes⟩
    rintro ⟨reason, rfl⟩
    obtain rfl : answered = .error (.network reason) := by
      rcases answered with e | receipt
      · exact congrArg _ (Except.error.inj hconcludes)
      · cases hconcludes
    rcases final _ rfl with rfl | hfinal
    · rfl
    · cases hfinal
  | @again left number first pause rest e answered run worth slept next ih =>
    -- Only a failure of the network is worth another attempt, so the submission was not heard of.
    obtain ⟨last, hsubmissions, -, hsame, hlost⟩ := sent_of_submit hreachable run
    obtain rfl := hlost e rfl worth
    obtain rfl := Dialogue.run_question.mp slept
    obtain ⟨hsame', failed, last, hrest, hfailed, hlength, hlast, hconcludes⟩ := ih
    refine ⟨?_, .error e :: failed, last, ?_, ?_, ?_, ?_, ?_⟩
    · intro turn hmem hsubmitted
      simp only [List.mem_append, List.mem_singleton] at hmem
      rcases hmem with hmem | rfl | hmem
      · exact hsame turn hmem hsubmitted
      · exact absurd rfl hsubmitted
      · exact hsame' turn hmem hsubmitted
    · rw [submissions_append, hsubmissions, submissions_append, hrest]
      rfl
    · simpa using ⟨unheard_of_isTransient worth, hfailed⟩
    · simpa using hlength
    · exact fun hunheard => congrArg (· + 1) (hlast hunheard)
    · exact (hconcludes.append _).append _

/-- Where no request can be sent, an attempt fails at once. -/
theorem submit_unreachable (key : Option Secp256k1.Key) (draft : Node.Draft)
    (hunreachable : ¬ site.Reachable) :
    ∃ reason, (site.sender (asking site.account) key).submit draft =
      Action.ofExcept (.error (.network reason)) := by
  have hsend (request : Http.Request) (hurl : request.url = site.url) :
      (asking site.account).http.send request = pure (.error (.unsupported site.url)) := by
    rw [Http.send, hurl]
    exact if_neg hunreachable
  refine ⟨"failed to send eth_sendTransaction request: " ++
    (Http.Fault.unsupported site.url).message, ?_⟩
  rw [Node.Account.submit, Node.send, Node.query, Node.call]
  change ((ExceptT.lift ((asking site.account).http.send (site.sendQuery draft)) >>= _) >>= _) >>=
    _ = _
  rw [hsend (site.sendQuery draft) rfl]
  rfl

theorem attempts_unreachable (hunreachable : ¬ site.Reachable) {attempts left number : Nat}
    {delay : Span}
    (h : (Retry.Policy.transient attempts delay).Attempts (asking site.account).clock
      ((site.sender (asking site.account) key).submit draft) left number turns answered) :
    turns = List.replicate left ⟨.sleep delay, ()⟩ ∧
      ∃ reason, answered = .error (.network reason) := by
  obtain ⟨reason, hsubmit⟩ := submit_unreachable key draft hunreachable
  rw [hsubmit] at h
  induction h with
  | last run final =>
    cases run
    obtain rfl | hfinal := final _ rfl
    · exact ⟨rfl, reason, rfl⟩
    · cases hfinal
  | again run _ slept _ ih =>
    cases run
    obtain rfl := Dialogue.run_question.mp slept
    obtain ⟨rfl, hanswered⟩ := ih
    exact ⟨rfl, hanswered⟩

theorem sendDirectly_run_iff {attempts : Nat} {delay : Span} {call : Call}
    {result : Except Error Route.Outcome} :
    Dialogue.Run (site.sendDirectly (asking site.account) key attempts delay call).run turns
        result ↔
      ∃ answered, result = answered.map .mined ∧
        (Retry.Policy.transient attempts delay).Attempts (asking site.account).clock
          ((site.sender (asking site.account) key).submit (site.draftOf call))
          ((Retry.Policy.transient attempts delay).attempts - 1) 1 turns answered := by
  constructor
  · intro run
    obtain ⟨first, answered, rest, rfl, hfirst, hrest⟩ := Action.exists_run_of_bind run
    have hattempts := Retry.Policy.run_iff_attempts.mp hfirst
    obtain ⟨rfl, rfl⟩ : rest = [] ∧ result = answered.map .mined := by
      rcases answered with e | receipt
      · exact hrest
      · cases hrest
        exact ⟨rfl, rfl⟩
    rw [List.append_nil]
    exact ⟨answered, rfl, hattempts⟩
  · rintro ⟨answered, rfl, hattempts⟩
    have hrun := Retry.Policy.run_iff_attempts.mpr hattempts
    rcases answered with e | receipt
    · exact Action.run_bind_error hrun
    · exact Action.run_yield hrun rfl

end Submissions

section Whole

variable (site : Site) (key : Option Secp256k1.Key) (attempts : Nat) (delay : Span) (call : Call)

/-- **A call is submitted until the node is heard, and never again.**

The first part says that whoever sends a call is the dialogue, answered by the node and the clock.
The second is about all its runs, whatever is answered. The transaction is submitted up to the first
time that the submission does not fail on the way, and at most as often as the policy allows; if the
node has then given a hash, nothing is submitted any more, and how the call ends is up to what is
read of the receipt for that hash. The last part is about addresses that no request can be sent to
at all: every attempt fails before anything is asked. -/
theorem sent_until_heard :
    (∀ {m : Type → Type} [Monad m] [LawfulMonad m] (parts : Parts m),
      site.sendDirectly parts key attempts delay call = Action.answeredBy parts.reply
        (site.sendDirectly (asking site.account) key attempts delay call)) ∧
    ∀ turns result,
      Dialogue.Run (site.sendDirectly (asking site.account) key attempts delay call).run turns
        result →
      (site.Reachable → site.SentUntilHeard (site.draftOf call)
        (Retry.Policy.transient attempts delay).attempts turns result) ∧
      (¬ site.Reachable →
        turns = List.replicate ((Retry.Policy.transient attempts delay).attempts - 1)
          ⟨.sleep delay, ()⟩ ∧ ∃ reason, result = .error (.network reason)) := by
  refine ⟨fun parts => (sendDirectly_answeredBy site parts key attempts delay call).symm, ?_⟩
  intro turns result run
  obtain ⟨answered, rfl, hattempts⟩ := sendDirectly_run_iff.mp run
  constructor
  · intro hreachable
    have hpos := (Retry.Policy.transient attempts delay).attempts_pos
    have hsent := sent_of_attempts hreachable hattempts
    rwa [Nat.sub_add_cancel hpos] at hsent
  · intro hunreachable
    obtain ⟨hturns, reason, rfl⟩ := attempts_unreachable hunreachable hattempts
    exact ⟨hturns, reason, rfl⟩

end Whole

/-! A call whose first submission is lost, and whose receipt is there when it is asked for again. -/

/-- A site where receipts are waited for a little. -/
def patientSite : Site := { plain with patience := 1000 }

theorem patientSite_reachable : patientSite.Reachable := plain_reachable

/-- A call. -/
def sentCall : Call := ⟨⟨1⟩, [1, 2, 3, 4], "stub()", 5⟩

/-- The reply to a submission, with a hash. -/
def hashReply : Http.Reply := Node.replyOf (Hash.ofNat 7).bytes

/-- The reply with the receipt. -/
def receiptReply : Http.Reply where
  status := 200
  reason := "OK"
  text := "\x7b\"result\":\x7b\"status\":\"0x1\",\"transactionHash\":" ++
    "\"0x0000000000000000000000000000000000000000000000000000000000000007\"\x7d\x7d"
  complete := true

/-- The receipt. -/
def sentReceipt : Receipt := ⟨.ofNat 7, none, none, true⟩

theorem hashIn_hashReply : patientSite.hashIn (some hashReply) = .ok (.ofNat 7) := by
  decide +kernel

theorem receiptIn_receiptReply :
    patientSite.receiptIn (some receiptReply) = .ok (some sentReceipt) := by
  decide +kernel

/-- The polls for the receipt; the first of them is lost. -/
def receiptTurns : List Turn :=
  [⟨.exchange (patientSite.receiptQuery (.ofNat 7)), none⟩, ⟨.now, 3⟩,
    ⟨.sleep Node.interval, ()⟩,
    ⟨.exchange (patientSite.receiptQuery (.ofNat 7)), some receiptReply⟩]

/-- The turns in which the call is sent. -/
def sentTurns : List Turn :=
  [⟨.exchange (patientSite.sendQuery (patientSite.draftOf sentCall)), none⟩, ⟨.sleep 5, ()⟩] ++
    (⟨.exchange (patientSite.sendQuery (patientSite.draftOf sentCall)), some hashReply⟩ ::
      ⟨.now, 0⟩ :: receiptTurns)

theorem receiptTurns_polls :
    patientSite.Polls (.ofNat 7) (0 + patientSite.patience)
      (Poll.rounds patientSite.patience Node.interval) receiptTurns (.ok sentReceipt) := by
  have hsettles : Poll.settled? (patientSite.receiptIn (some receiptReply)) =
      some (.ok sentReceipt) := by
    rw [receiptIn_receiptReply]
    rfl
  exact .again (.inr ⟨_, rfl, rfl⟩) (by decide) (.settled hsettles)

theorem sentTurns_run :
    Dialogue.Run (patientSite.sendDirectly (asking patientSite.account) none 3 5 sentCall).run
      sentTurns (.ok (.mined sentReceipt)) := by
  have hlost : patientSite.hashIn none = .error (.network _) := rfl
  have hfirst : Dialogue.Run ((patientSite.sender (asking patientSite.account) none).submit
      (patientSite.draftOf sentCall)).run _ _ :=
    submit_run_failed patientSite_reachable hlost
  have hsecond : Dialogue.Run ((patientSite.sender (asking patientSite.account) none).submit
      (patientSite.draftOf sentCall)).run _ _ :=
    submit_run_followed patientSite_reachable hashIn_hashReply receiptTurns_polls
  have hattempts : (Retry.Policy.transient 3 5).Attempts (asking patientSite.account).clock
      ((patientSite.sender (asking patientSite.account) none).submit (patientSite.draftOf sentCall))
      (1 + 1) 1 (_ ++ ([⟨.sleep 5, ()⟩] ++ _)) (.ok sentReceipt) :=
    .again hfirst rfl (sleep_run patientSite.account 5) (.last hsecond (by rintro _ ⟨⟩))
  exact sendDirectly_run_iff.mpr ⟨.ok sentReceipt, rfl, hattempts⟩

theorem sent_until_heard_lost :
    Dialogue.Run (patientSite.sendDirectly (asking patientSite.account) none 3 5 sentCall).run
      sentTurns (.ok (.mined sentReceipt)) ∧
    patientSite.SentUntilHeard (patientSite.draftOf sentCall) 3 sentTurns
      (.ok (.mined sentReceipt)) :=
  ⟨sentTurns_run, ((sent_until_heard patientSite none 3 5 sentCall).2 sentTurns _ sentTurns_run).1
    patientSite_reachable⟩

end ProxyUpgrade.Site
