import ProxyUpgrade.Proofs.Wallet.Listing
/-!
# Calls that are taken to wait already

A call is not proposed if a transaction with its target and its data waits. A transaction has more
to it: the value that goes with the call, and whether the target is called at all or its code is run
by the wallet. These are not looked at. So a call may be handed the hash of a transaction that
performs another one, and whether it is depends on the first transaction on the first page alone
(`Wallet.handed_on_performs_iff`).
-/

namespace ProxyUpgrade.Wallet

open Site (Question Talk Turn asking)

/-- **A transaction performs a call**, with its value and as a plain call. -/
structure Transaction.Performs (t : Transaction) (call : Call) : Prop where
  target : t.target = call.target
  data : t.data = call.payload
  value : t.value = call.value
  operation : t.operation = .call

/-! ### Looking for a call -/

namespace Listing

variable (l : Listing) (url : Url) (wallet target : Address)

/-- The rules of a service that serves a listing. -/
def rules : Dialogue.Rules Unit Question Question.Answer where
  permits _ _ := True
  answers _ question answer _ := l.Serves url wallet target ⟨question, answer⟩

variable {l url wallet target} {account : Address} {data : Bytes} {turns : List Turn}

theorem steps_of_serves (h : ∀ turn ∈ turns, l.Serves url wallet target turn) :
    (l.rules url wallet target).Steps () turns () :=
  steps_of_tells h

theorem ask_obeys (address : Url) : ((Client.mk (asking account).http url).ask address).Obeys
    (l.rules url wallet target) ()
      (Action.Yielding fun _ document => l.Answers url wallet target address document) :=
  ask_telling address

theorem ownNonce_obeys : ((Client.mk (asking account).http url).ownNonce wallet).Obeys
    (l.rules url wallet target) () (Action.Yielding fun _ own => own = l.nonce) :=
  ownNonce_telling fun _ _ haddress hanswers => nonce?_of_tells (hanswers.nonce haddress)

theorem findPending_obeys :
    ((Client.mk (asking account).http url).findPending wallet target data).Obeys
      (l.rules url wallet target) ()
        (Action.Yielding fun _ found => l.Finds target data found) := by
  refine Action.obeys_bind_yielding.mpr (ownNonce_obeys.mono ?_)
  rintro s (e | own) hown
  · trivial
  rw [Action.yielding_ok] at hown ⊢
  subst hown
  rcases haddress : (Client.mk (asking account).http url).queueUrl wallet l.nonce
      [("to", target.checksum)] with e | address
  · trivial
  refine Action.obeys_bind_yielding.mpr (Action.obeys_bind_yielding.mpr
    ((ask_obeys address).mono ?_))
  rintro s (e | document) hanswers
  · trivial
  · exact (hanswers.page 0 (.inl rfl) haddress).finds

end Listing

section Handing

variable {account wallet : Address} {url : Url} {chain : BitVec 64} {retry : Retry.Policy}
  {call : Call} {l : Listing} {turns : List Turn} {hash : Hash}

/-- Looking for a call comes to what is on the first page, also if it is tried again. -/
theorem finds_of_lookingUp {found : Option Hash}
    (run : Dialogue.Run (lookingUp account url wallet retry call).run turns (.ok found))
    (hserves : ∀ turn ∈ turns, l.Serves url wallet call.target turn) :
    l.Finds call.target call.payload found := by
  have hobeys : (lookingUp account url wallet retry call).Obeys
      (l.rules url wallet call.target) ()
        (Action.Yielding fun _ found => l.Finds call.target call.payload found) := by
    refine retry.run_obeys (fun _ => True) (fun _ _ _ => ?_) (fun _ _ _ => trivial)
      (fun _ _ => ?_) trivial
    · exact ⟨trivial, fun _ _ _ => trivial⟩
    · refine Listing.findPending_obeys.mono ?_
      rintro s (e | found) h
      · trivial
      · exact h
  exact run.post (Listing.steps_of_serves hserves) hobeys

/-- **A hash that is handed on without a proposal** is the one of the first transaction on the first
page that carries the data. -/
theorem first_of_handed_on
    (run : Dialogue.Run (submitting (asking account) url wallet chain retry call).run turns
      (.ok hash))
    (hserves : ∀ turn ∈ turns, l.Serves url wallet call.target turn) (hposts : posts turns = []) :
    ∃ e, l.First call.target call.payload e ∧ e.hash = hash := by
  have looked : Dialogue.Run (lookingUp account url wallet retry call).run turns
      (.ok (some hash)) := by
    cases submitting_run_iff.mp run with
    | waiting looked => exact looked
    | asked looked counts answered =>
      rcases (submittedAsSigned_of_answered looked counts answered).handedOn hash rfl with
        looked | ⟨hsubmitted, -⟩
      · exact looked
      · exact absurd hposts hsubmitted
  exact finds_of_lookingUp looked hserves

/-- The turn in which a document is asked for. -/
def asked (serve : Http.Request → Option Http.Reply) (address : Url) : Turn :=
  ⟨.exchange ⟨address, .empty⟩, serve ⟨address, .empty⟩⟩

/-- Where a document is there, asking for it takes a single turn. -/
theorem ask_run_of_available {serve : Http.Request → Option Http.Reply} {address : Url}
    {document : Json} (account : Address) (url : Url) (h : Available serve address document) :
    Dialogue.Run ((Client.mk (asking account).http url).ask address).run [asked serve address]
      (.ok document) := by
  obtain ⟨reply, hserve, hstatus, hplain⟩ := h.replied
  have hreceived : received address (some reply) = .ok reply := by simp [received, hstatus]
  rw [asked, hserve]
  exact ask_run h.scheme hreceived hplain

/-- Where the nonce can be read in what is told of the wallet, it takes a single turn to find. -/
theorem ownNonce_run_of_available {serve : Http.Request → Option Http.Reply} {address : Url}
    {document : Json} {own : BitVec 64} (account : Address)
    (hwallet : (Client.mk (m := Id) .unreachable url).walletUrl wallet = .ok address)
    (hinfo : Available serve address document)
    (hnonce : (document.member? "nonce").bind Client.nonce? = some own) :
    Dialogue.Run ((Client.mk (asking account).http url).ownNonce wallet).run [asked serve address]
      (.ok own) := by
  refine Action.run_bind_ofExcept hwallet
    (Action.run_yield (ask_run_of_available account url hinfo) ?_)
  rw [hnonce]
  rfl

theorem tells_asked {serve : Http.Request → Option Http.Reply} {right : Url → Json → Prop}
    (h : ∀ address reply document, serve ⟨address, .empty⟩ = some reply →
      Http.isFailure reply.status = false → reply.plain? = some document → right address document)
    (address : Url) : Tells right (asked serve address) := by
  intro address' reply document heq hstatus hplain
  obtain ⟨hquestion, hanswer⟩ := Sigma.mk.inj heq
  cases hquestion
  exact h address reply document (eq_of_heq hanswer) hstatus hplain

theorem serves_asked {serve : Http.Request → Option Http.Reply} {target : Address}
    (h : l.ServedBy url wallet target serve) (address : Url) :
    l.Serves url wallet target (asked serve address) :=
  tells_asked h.agrees address

/-- **Where a service answers, the first transaction on the first page is handed on.** -/
theorem exists_run_of_first {serve : Http.Request → Option Http.Reply} {e : Entry}
    (account : Address) (chain : BitVec 64) (retry : Retry.Policy)
    (h : l.ServedBy url wallet call.target serve) (he : l.First call.target call.payload e) :
    ∃ turns, Dialogue.Run (submitting (asking account) url wallet chain retry call).run turns
        (.ok e.hash) ∧ (∀ turn ∈ turns, l.Serves url wallet call.target turn) ∧
          posts turns = [] := by
  obtain ⟨walletAddress, info, hinfo, hwallet⟩ := h.nonce
  obtain ⟨queueAddress, page, hpage, hqueue⟩ := h.page
  have howned := ownNonce_run_of_available account hwallet hinfo
    (nonce?_of_tells ((h.answers hinfo).nonce hwallet))
  have hfinds : l.Finds call.target call.payload (Client.matching? page call.payload) :=
    ((h.answers hpage).page 0 (.inl rfl) hqueue).finds
  have hlooked : Dialogue.Run ((Client.mk (asking account).http url).findPending wallet call.target
      call.payload).run [asked serve walletAddress, asked serve queueAddress]
        (.ok (some e.hash)) := by
    refine Action.run_bind howned (Action.run_bind_ofExcept hqueue
      (Action.run_yield (ask_run_of_available account url hpage) ?_))
    rw [hfinds.eq_of_first he]
    rfl
  refine ⟨_, submitting_run_iff.mpr (.waiting (Retry.Policy.run_of_ok hlooked)), ?_, rfl⟩
  simp [serves_asked h]

end Handing

section Whole

variable (account wallet : Address) (url : Url) (chain : BitVec 64) (retry : Retry.Policy)
  (call : Call) (l : Listing)

/-- **What is handed on without a proposal.** Whatever a proposer is told by a service that serves a
listing, a hash that it hands on without having submitted anything is the one of a transaction that
waits and has the target and the data of the call. If the service answers, all such transactions
perform the call exactly if the first one on the first page does: if its value is the one of the
call, and it is a plain call. -/
theorem handed_on_performs_iff :
    (∀ turns hash,
      Dialogue.Run (submitting (asking account) url wallet chain retry call).run turns (.ok hash) →
      (∀ turn ∈ turns, l.Serves url wallet call.target turn) → posts turns = [] →
        ∃ e ∈ l.waiting call.target, e.hash = hash ∧ e.transaction.target = call.target ∧
          e.transaction.data = call.payload) ∧
    ∀ serve, l.ServedBy url wallet call.target serve →
      ((∀ turns hash,
        Dialogue.Run (submitting (asking account) url wallet chain retry call).run turns
          (.ok hash) →
        (∀ turn ∈ turns, l.Serves url wallet call.target turn) → posts turns = [] →
          ∀ e ∈ l.waiting call.target, e.hash = hash → e.transaction.Performs call) ↔
      ∀ e, l.First call.target call.payload e →
        e.transaction.value = call.value ∧ e.transaction.operation = .call) := by
  have htarget {e : Entry} (he : e ∈ l.waiting call.target) : e.transaction.target = call.target :=
    (Listing.mem_waiting.mp he).2.2.2
  refine ⟨?_, fun serve hserve => ⟨fun h e he => ?_, ?_⟩⟩
  · intro turns hash run hserves hposts
    obtain ⟨e, hfirst, hhash⟩ := first_of_handed_on run hserves hposts
    have hwaits := Listing.waiting_of_page hfirst.mem
    exact ⟨e, hwaits, hhash, htarget hwaits, hfirst.carries.1⟩
  · obtain ⟨turns, run, hserves, hposts⟩ := exists_run_of_first account chain retry hserve he
    have hperforms := h turns _ run hserves hposts e (Listing.waiting_of_page he.mem) rfl
    exact ⟨hperforms.value, hperforms.operation⟩
  · intro h turns hash run hserves hposts e hwaits hhash
    obtain ⟨first, hfirst, rfl⟩ := first_of_handed_on run hserves hposts
    obtain rfl := Listing.eq_of_hash hwaits (Listing.waiting_of_page hfirst.mem) hhash
    obtain ⟨hvalue, hoperation⟩ := h e hfirst
    exact ⟨htarget hwaits, hfirst.carries.1, hvalue, hoperation⟩

end Whole

/-! The call that another owner has proposed, and the same call with a value. -/

/-- The call with a value. -/
def paidCall : Call := { laterCall with value := 5 }

/-- The transaction that another owner has proposed. -/
def laterEntry : Entry := .plain (.ofCall laterCall 9) (.ofNat 1)

theorem first_later : pagedListing.First laterCall.target laterCall.payload laterEntry :=
  ⟨[], [], rfl, ⟨rfl, Entry.plain_readable _ _⟩, by simp⟩

/-- **A call is handed the hash of a transaction that does not perform it.** -/
theorem other_call_handed_on :
    pagedListing.ServedBy localService sharedWallet paidCall.target (serving Paged.documents) ∧
      ∃ turns, Dialogue.Run (submitting (asking owner) localService sharedWallet 1
          (.transient 3 5) paidCall).run turns (.ok (.ofNat 1)) ∧
        (∀ turn ∈ turns, pagedListing.Serves localService sharedWallet paidCall.target turn) ∧
        posts turns = [] ∧
        ∀ e ∈ pagedListing.waiting paidCall.target, e.hash = .ofNat 1 →
          ¬ e.transaction.Performs paidCall := by
  have hserved : pagedListing.ServedBy localService sharedWallet paidCall.target
      (serving Paged.documents) := Paged.served
  have hfirst : pagedListing.First paidCall.target paidCall.payload laterEntry := first_later
  obtain ⟨turns, run, hserves, hposts⟩ :=
    exists_run_of_first owner 1 (.transient 3 5) hserved hfirst
  refine ⟨hserved, turns, run, hserves, hposts, fun e he hhash hperforms => ?_⟩
  obtain rfl := Listing.eq_of_hash he (Listing.waiting_of_page hfirst.mem) hhash
  exact absurd hperforms.value (by decide)

/-- The call without a value is handed the hash of a transaction that performs it. -/
theorem handed_on_performs_later :
    pagedListing.ServedBy localService sharedWallet laterCall.target (serving Paged.documents) ∧
      ∀ turns hash, Dialogue.Run (submitting (asking owner) localService sharedWallet 1
          (.transient 3 5) laterCall).run turns (.ok hash) →
        (∀ turn ∈ turns, pagedListing.Serves localService sharedWallet laterCall.target turn) →
        posts turns = [] → ∀ e ∈ pagedListing.waiting laterCall.target, e.hash = hash →
          e.transaction.Performs laterCall := by
  have hserved : pagedListing.ServedBy localService sharedWallet laterCall.target
      (serving Paged.documents) := Paged.served
  refine ⟨hserved, ((handed_on_performs_iff owner sharedWallet localService 1 (.transient 3 5)
    laterCall pagedListing).2 _ hserved).mpr fun e he => ?_⟩
  obtain rfl := he.unique first_later
  exact ⟨rfl, rfl⟩

end ProxyUpgrade.Wallet
