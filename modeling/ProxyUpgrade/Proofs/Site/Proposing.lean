import ProxyUpgrade.Proofs.Site.Asking
import ProxyUpgrade.Proofs.Site.Law
import ProxyUpgrade.Proofs.Wallet.Queue
/-!
# Sites whose calls go to a wallet

Next to the ledger there is the queue of a wallet. Calls are stored there, to be executed later
(`Site.Executed`). Only a proposal changes the queue: whatever else is asked is answered as if there
were none (`Site.other_obeys`). Where nothing waits and everybody does what is asked, a call is
proposed as it is (`Site.send_proposes`).
-/

namespace ProxyUpgrade.Site

open Wallet (Queue)

/-! ### Answers of a wallet -/

/-- **How the service of a wallet answers**: it finds what waits, knows a nonce that is free if
there is one, and stores what is proposed. -/
def Queues (chain : BitVec 64) (wallet : Address) (q : Queue) :
    (question : Question) → question.Answer → Queue → Prop
  | .findPending _ target data, answer, q' => q' = q ∧ ∃ found, answer = .ok found ∧
    q.Found chain wallet target data found
  | .nextNonce _, answer, q' => q' = q ∧ ∃ nonce, answer = .ok nonce ∧
    ((∃ free, q.Free free) → q.Free nonce)
  | .propose proposal, answer, q' => answer = .ok () ∧ q' = q.add proposal.transaction
  | _, _, q' => q' = q

/-- The rules of a site whose calls go to a wallet, and where everybody does what is asked. -/
def proposing (site : Site) (law : Law) (files : Path → Except Files.Fault String)
    (chain : BitVec 64) (wallet : Address) :
    Dialogue.Rules (Ledger × Queue) Question Question.Answer where
  permits t question := MayOblige law t.1 question
  answers t question answer t' := (site.obliging law files).answers t.1 question answer t'.1 ∧
    Queues chain wallet t.2 question answer t'.2

/-- **Everybody may do what is asked**, the service of the wallet included. -/
theorem proposing_answers (site : Site) (law : Law) (files : Path → Except Files.Fault String)
    (chain : BitVec 64) (wallet : Address) (t : Ledger × Queue) (question : Question)
    (h : MayOblige law t.1 question) :
    ∃ answer t', (site.proposing law files chain wallet).answers t question answer t' := by
  obtain ⟨s, q⟩ := t
  cases question with
  | findPending asked target data =>
    obtain ⟨found, hfound⟩ : ∃ found, q.Found chain wallet target data found := by
      by_cases hwaits : q.Waits target data
      · obtain ⟨t, ht, htarget, hdata⟩ := hwaits
        exact ⟨some (t.signingHash chain wallet), t, ht, htarget, hdata, rfl⟩
      · exact ⟨none, hwaits⟩
    exact ⟨.ok found, (s, q), ⟨⟨rfl, trivial, trivial⟩, trivial, trivial⟩, rfl, found, rfl, hfound⟩
  | nextNonce asked =>
    obtain ⟨nonce, hnonce⟩ : ∃ nonce, (∃ free, q.Free free) → q.Free nonce := by
      by_cases hfree : ∃ free, q.Free free
      · exact hfree.imp fun _ hnonce _ => hnonce
      · exact ⟨0, fun h => absurd h hfree⟩
    exact ⟨.ok nonce, (s, q), ⟨⟨rfl, trivial, trivial⟩, trivial, trivial⟩, rfl, nonce, rfl, hnonce⟩
  | propose proposal =>
    exact ⟨.ok (), (s, q.add proposal.transaction),
      ⟨⟨rfl, trivial, trivial⟩, trivial, trivial⟩, rfl, rfl⟩
  | _ =>
    -- The wallet has no part in anything else.
    obtain ⟨answer, s', hanswer⟩ := site.obliging_answers law files s _ h
    exact ⟨answer, (s', q), hanswer, rfl⟩

/-! ### Executions -/

/-- **A transaction of a wallet is executed**: its call is made. -/
def Executes (s : Ledger) (t : Wallet.Transaction) (s' : Ledger) : Prop :=
  t.operation = .call ∧ ∃ signature, s.Activates ⟨t.target, t.data, signature, t.value⟩ s'

/-- **The owners execute all that waits**, the lowest nonce first. -/
inductive Executed : Ledger → Queue → Ledger → Prop
  | nothing (s : Ledger) {q : Queue} (hq : q.queued = []) : Executed s q s
  | first {s s₁ s₂ : Ledger} {q : Queue} {t : Wallet.Transaction} (hwaits : t ∈ q.queued)
      (hfirst : ∀ other ∈ q.queued, t.nonce ≤ other.nonce) (hexecutes : Executes s t s₁)
      (hrest : Executed s₁ ⟨t :: q.executed, q.queued.erase t⟩ s₂) : Executed s q s₂

theorem executed_nothing {s s' : Ledger} {q : Queue} (hq : q.queued = []) :
    Executed s q s' ↔ s' = s := by
  constructor
  · rintro (- | ⟨hwaits, -, -, -⟩)
    · rfl
    · rw [hq] at hwaits
      cases hwaits
  · rintro rfl
    exact .nothing s' hq

theorem executed_single {s s' : Ledger} {q : Queue} {t : Wallet.Transaction} (hq : q.queued = [t]) :
    Executed s q s' ↔ Executes s t s' := by
  have hrest : q.queued.erase t = [] := by simp [hq]
  constructor
  · rintro (⟨-, hnone⟩ | ⟨hwaits, -, hexecutes, hdone⟩)
    · rw [hq] at hnone
      cases hnone
    · rw [hq, List.mem_singleton] at hwaits
      subst hwaits
      rw [executed_nothing hrest] at hdone
      exact hdone ▸ hexecutes
  · intro hexecutes
    have hwaits : t ∈ q.queued := by simp [hq]
    have hfirst : ∀ other ∈ q.queued, t.nonce ≤ other.nonce := by simp [hq]
    exact .first hwaits hfirst hexecutes (.nothing s' hrest)

/-- An upgrade that waits is executed in one way. -/
theorem executes_upgrade {s s' : Ledger} {proxy implementation : Address} {data : Bytes}
    {nonce : BitVec 64} : Executes s (.ofCall (.upgrade proxy implementation data) nonce) s' ↔
      s' = s.activate ⟨proxy, implementation⟩ := by
  constructor
  · rintro ⟨-, signature, proxy', implementation', data', hcall, rfl⟩
    -- The signature is not part of a transaction, but there is only one that fits.
    obtain rfl : signature = Call.upgradeSignature := congrArg Call.signature hcall
    obtain ⟨rfl, rfl⟩ := Call.upgrade_inj hcall
    rfl
  · rintro rfl
    exact ⟨rfl, Call.upgradeSignature, proxy, implementation, data, rfl, rfl⟩

/-! ### What leaves the queue alone -/

section Wallet

variable {site : Site} {law : Law} {files : Path → Except Files.Fault String}
  {chain : BitVec 64} {wallet : Address} {s : Ledger} {q : Queue}

/-- Whether a question is no proposal. -/
def Question.IsOther (question : Question) : Prop := ∀ proposal, question ≠ .propose proposal

theorem isOther_of_isQuiet (question : Question) (h : question.isQuiet = true) :
    question.IsOther := by
  rintro proposal rfl
  cases h

theorem queues_other {q' : Queue} {question : Question} {answer : question.Answer}
    (hother : question.IsOther) (h : Queues chain wallet q question answer q') : q' = q := by
  cases question with
  | propose proposal => exact absurd rfl (hother proposal)
  | findPending | nextNonce => exact h.1
  | _ => exact h

/-- **What proposes nothing leaves the queue alone**, and does on the ledger what it does without
one. -/
theorem other_obeys {α : Type} {x : Action Talk α} {post : Ledger → Except Error α → Prop}
    (hasks : x.Asks Question.IsOther) (h : x.Obeys (site.obliging law files) s post) :
    x.Obeys (site.proposing law files chain wallet) (s, q)
      fun t result => ∃ s', t = (s', q) ∧ post s' result := by
  -- The queue is carried along, and stays the one of the beginning.
  refine Dialogue.Obeys.simulated (fun s t => t = (s, q)) ?_ ?_ h hasks rfl
  · rintro s _ question rfl - hpermits
    exact hpermits
  · rintro s _ question answer ⟨s', q'⟩ rfl hother ⟨hanswer, hqueue⟩
    obtain rfl := queues_other hother hqueue
    exact ⟨s', hanswer, rfl⟩

/-- Lookups are made as usual. -/
theorem Reads.proposing {α β : Type} {x : Action Talk α} {a : α}
    (hx : Reads (site.obliging law files) True s x a) (hasks : x.Asks Question.IsOther)
    {f : α → Action Talk β} {post : Ledger × Queue → Except Error β → Prop}
    (hf : (f a).Obeys (site.proposing law files chain wallet) (s, q) post) :
    (x >>= f).Obeys (site.proposing law files chain wallet) (s, q) post := by
  refine Action.obeys_bind.mpr ((other_obeys hasks hx).mono ?_)
  rintro _ _ ⟨s', rfl, rfl, rfl | ⟨hfails, -⟩⟩
  · exact hf
  · exact absurd trivial hfails

/-- What is quiet changes neither the ledger nor the queue. -/
theorem quiet_proposing {α : Type} {d : Talk α} {t : Ledger × Queue}
    (hasks : d.Asks fun question => question.isQuiet = true) :
    d.Obeys (site.proposing law files chain wallet) t fun t' _ => t' = t := by
  refine hasks.obeys (· = t) ?_ rfl
  rintro _ question rfl hquiet
  have hpermits (s : Ledger) : MayOblige law s question := by
    cases question <;> trivial
  refine ⟨hpermits _, ?_⟩
  rintro answer ⟨s', q'⟩ ⟨hanswer, hqueue⟩
  have hledger := eq_of_isQuiet hquiet hanswer.1.1
  exact Prod.ext hledger (queues_other (isOther_of_isQuiet _ hquiet) hqueue)

/-! What a proposer asks is answered at once. -/

section Proposing

variable {retry : Retry.Policy} {account : Address}

theorem findPending_proposing (hq : q.queued = []) (target : Address) (data : Bytes) :
    (retry.run (asking account).clock ((asking account).service.findPending wallet target
      data)).Obeys (site.proposing law files chain wallet) (s, q)
        fun t result => ∃ found, result = .ok found ∧ found = none ∧ t = (s, q) := by
  refine retry.run_obeys_of_ok _ ⟨trivial, ?_⟩
  rintro _ ⟨s', q'⟩ ⟨⟨⟨rfl, -⟩, -⟩, rfl, found, rfl, hfound⟩
  refine ⟨found, rfl, ?_, rfl⟩
  rcases found with - | hash
  · rfl
  · obtain ⟨t, ht, -⟩ := hfound
    rw [hq] at ht
    cases ht

theorem nextNonce_proposing :
    (retry.run (asking account).clock ((asking account).service.nextNonce wallet)).Obeys
      (site.proposing law files chain wallet) (s, q)
        fun t result => ∃ nonce : BitVec 64, result = .ok nonce ∧ t = (s, q) := by
  refine retry.run_obeys_of_ok _ ⟨trivial, ?_⟩
  rintro _ ⟨s', q'⟩ ⟨⟨⟨rfl, -⟩, -⟩, rfl, nonce, rfl, -⟩
  exact ⟨nonce, rfl, rfl⟩

theorem signed_proposing (t : Wallet.Transaction) :
    (Wallet.Proposer.signed ⟨(asking account).service, wallet, chain, retry⟩
      (asking account).signer t).Obeys (site.proposing law files chain wallet) (s, q)
        fun u result => ∃ proposal : Wallet.Proposal, result = .ok proposal ∧
          proposal.transaction = t ∧ u = (s, q) := by
  refine Action.obeys_bind.mpr ⟨trivial, ?_⟩
  rintro _ ⟨s', q'⟩ ⟨⟨⟨rfl, -⟩, -, signature, rfl⟩, rfl⟩
  exact ⟨_, rfl, rfl, rfl⟩

theorem submit_proposing (proposal : Wallet.Proposal) :
    (retry.run (asking account).clock ((asking account).service.propose proposal)).Obeys
      (site.proposing law files chain wallet) (s, q)
        fun t result => ∃ done, result = .ok done ∧ t = (s, q.add proposal.transaction) := by
  refine retry.run_obeys_of_ok _ ⟨trivial, ?_⟩
  rintro _ ⟨s', q'⟩ ⟨⟨⟨hledger, -⟩, -⟩, rfl, hqueue⟩
  exact ⟨(), rfl, Prod.ext hledger hqueue⟩

end Proposing

/-- **Where nothing waits, a call is proposed as it is**, and waits then. -/
theorem send_proposes {retry : Retry.Policy} (hway : site.way = .wallet wallet chain retry)
    (hq : q.queued = []) (call : Call) :
    (site.collaborators.send call).Obeys (site.proposing law files chain wallet) (s, q)
      fun t result => ∃ nonce hash, result = .ok (.proposed wallet hash) ∧
        t = (s, q.add (.ofCall call nonce)) := by
  have hroute : (site.orchestrator (asking site.account)).route =
      .wallet ⟨(asking site.account).service, wallet, chain, retry⟩ := by
    simp [orchestrator, route, hway]
  simp only [collaborators, Deploy.Orchestrator.collaborators, hroute, Route.send,
    Wallet.Proposer.propose]
  refine Action.obeys_bind.mpr (Action.obeys_bind.mpr ((findPending_proposing hq _ _).mono ?_))
  rintro _ _ ⟨_, rfl, rfl, rfl⟩
  refine Action.obeys_bind.mpr (nextNonce_proposing.mono ?_)
  rintro _ _ ⟨nonce, rfl, rfl⟩
  refine Action.obeys_bind.mpr ((signed_proposing (.ofCall call nonce)).mono ?_)
  rintro _ _ ⟨proposal, rfl, htransaction, rfl⟩
  refine Action.obeys_bind.mpr ((submit_proposing proposal).mono ?_)
  rintro _ _ ⟨_, rfl, rfl⟩
  exact ⟨nonce, proposal.hash, rfl, by rw [htransaction]⟩

end Wallet

end ProxyUpgrade.Site
