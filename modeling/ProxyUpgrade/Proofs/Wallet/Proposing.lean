import ProxyUpgrade.Proofs.Retry
import ProxyUpgrade.Proofs.Site.Parts
import ProxyUpgrade.Proofs.Wallet.Queue
/-!
# Proposing calls

A proposer asks whether a call waits already, then for a nonce, has the transaction signed and
submits it; each of these is tried again after failures, and a failure may hide that the service has
done what it was asked. All the while the owners may execute what waits. What keeps the queue in
order is that the nonce is only used when nothing waits that does the same, and that every attempt
to submit carries the same transaction.

The main statement, `Wallet.proposals_fresh`, is about all states that a queue can get into by calls
that are proposed one after the other, by executions at any time, and by other clients in between.
-/

namespace ProxyUpgrade.Wallet

open Site (Question Talk Turn asking)

/-- **The dialogue in which a call is proposed.** -/
def proposing (account wallet : Address) (chain : BitVec 64) (retry : Retry.Policy) (call : Call) :
    Action Talk Hash :=
  Proposer.propose ⟨(asking account).service, wallet, chain, retry⟩ (asking account).clock
    (asking account).signer call

/-- It is what a proposer does, answered by whatever the proposer works with. -/
theorem propose_eq_answeredBy {m : Type → Type} [Monad m] [LawfulMonad m] (parts : Site.Parts m)
    (wallet : Address) (chain : BitVec 64) (retry : Retry.Policy) (call : Call) :
    Proposer.propose ⟨parts.service, wallet, chain, retry⟩ parts.clock parts.signer call =
      Action.answeredBy parts.reply
        (proposing parts.signer.address wallet chain retry call) := by
  have h := Site.propose_answeredBy parts.reply (asking parts.signer.address) wallet chain retry
    call
  rw [Site.asking_answeredBy] at h
  exact h.symm

section Steps

variable {account wallet : Address} {chain : BitVec 64} {retry : Retry.Policy} {answering : Prop}
  {s : Queue} {t : Transaction} {call : Call}

/-! ### Steps of a proposal -/

theorem sleep_obeys (kept : Queue → Prop)
    (hkept : ∀ {s s' : Queue}, s.Executions s' → kept s → kept s') (hs : kept s) (time : Nat) :
    ((asking account).clock.sleep time).Obeys (Queue.rules chain wallet answering) s
      fun s' _ => kept s' := by
  refine ⟨trivial, ?_⟩
  rintro _ s' ⟨s₁, hexecutions, rfl⟩
  exact hkept hexecutions hs

/-- An action that is tried again keeps what executions keep, if it does so itself. -/
theorem run_obeys {α : Type} {action : Action Talk α} (kept : Queue → Prop)
    {post : Queue → α → Prop} (hkept : ∀ {s s' : Queue}, s.Executions s' → kept s → kept s')
    (h : ∀ s, kept s → action.Obeys (Queue.rules chain wallet answering) s fun s' result =>
      match result with
      | .ok a => post s' a
      | .error _ => kept s')
    (hs : kept s) :
    (retry.run (asking account).clock action).Obeys (Queue.rules chain wallet answering) s
      (Action.Yielding post) := by
  refine retry.run_obeys kept (fun s time hs => sleep_obeys kept hkept hs time)
    (fun _ _ _ => trivial) (fun s hs => (h s hs).mono ?_) hs
  rintro s' (e | a) hresult
  · exact hresult
  · exact hresult

theorem findPending_obeys {target : Address} {data : Bytes} :
    (retry.run (asking account).clock ((asking account).service.findPending wallet target
      data)).Obeys (Queue.rules chain wallet answering) s
        (Action.Yielding fun s' found => found = none → ¬ s'.Waits target data) := by
  refine run_obeys (fun _ => True) (fun _ _ => trivial) (fun s _ => ⟨rfl, ?_⟩) trivial
  rintro (e | found) s' ⟨s₁, -, rfl, -, hfound⟩
  · trivial
  · rintro rfl
    exact hfound none rfl

theorem nextNonce_obeys {target : Address} {data : Bytes} (hs : ¬ s.Waits target data) :
    (retry.run (asking account).clock ((asking account).service.nextNonce wallet)).Obeys
      (Queue.rules chain wallet answering) s
        (Action.Yielding fun s' nonce => ¬ s'.Waits target data ∧ s'.Free nonce) := by
  refine run_obeys (fun s => ¬ s.Waits target data) (fun h => h.not_waits)
    (fun s hs => ⟨rfl, ?_⟩) hs
  rintro (e | nonce) s' ⟨s₁, hexecutions, rfl, -, hfree⟩
  · exact hexecutions.not_waits hs
  · exact ⟨hexecutions.not_waits hs, hfree nonce rfl⟩

theorem signed_obeys (hs : s.Fresh t) :
    (Proposer.signed ⟨(asking account).service, wallet, chain, retry⟩ (asking account).signer
      t).Obeys (Queue.rules chain wallet answering) s (Action.Yielding fun s' proposal =>
        proposal.wallet = wallet ∧ proposal.transaction = t ∧
          proposal.hash = t.signingHash chain wallet ∧ s'.Fresh t) := by
  refine Action.obeys_bind.mpr ⟨trivial, ?_⟩
  rintro (e | _ | signature) s' ⟨s₁, hexecutions, rfl⟩
  · trivial
  · trivial
  · exact ⟨rfl, rfl, rfl, hexecutions.fresh hs⟩

/-- However often a fresh transaction is submitted, each time it is fresh or known. -/
theorem submit_obeys {proposal : Proposal} (hwallet : proposal.wallet = wallet)
    (hhash : proposal.hash = proposal.transaction.signingHash chain wallet)
    (hs : s.Fresh proposal.transaction) :
    (retry.run (asking account).clock ((asking account).service.propose proposal)).Obeys
      (Queue.rules chain wallet answering) s (Action.Yielding fun _ _ => True) := by
  refine run_obeys (fun s => s.Knows chain wallet proposal.hash ∨ s.Fresh proposal.transaction)
    (fun h hs => hs.imp h.knows h.fresh) (fun s hs => ⟨⟨hwallet, hhash, hs⟩, ?_⟩) (.inr hs)
  rintro (e | ⟨⟩) s' ⟨s₁, hexecutions, hserves⟩
  · rcases hserves with rfl | ⟨rfl, -⟩
    · rw [hhash]
      exact .inl (Queue.knows_submit _ _)
    · exact hs.imp hexecutions.knows hexecutions.fresh
  · trivial

/-- What a proposer does once it has been told that nothing waits. -/
theorem queue_obeys (hs : ¬ s.Waits call.target call.payload) :
    (do
      let nonce ← retry.run (asking account).clock ((asking account).service.nextNonce wallet)
      let proposal ← Proposer.signed ⟨(asking account).service, wallet, chain, retry⟩
        (asking account).signer (.ofCall call nonce)
      retry.run (asking account).clock ((asking account).service.propose proposal)
      pure proposal.hash : Action Talk Hash).Obeys (Queue.rules chain wallet answering) s
        (Action.Yielding fun _ _ => True) := by
  simp only [Action.obeys_bind_yielding]
  refine (nextNonce_obeys hs).mono ?_
  rintro s (e | nonce) hnonce
  · trivial
  have hfresh : s.Fresh (.ofCall call nonce) := ⟨hnonce.1, hnonce.2⟩
  refine (signed_obeys hfresh).mono ?_
  rintro s (e | proposal) hsigned
  · trivial
  obtain ⟨hwallet, htransaction, hhash, hfresh⟩ := hsigned
  rw [← htransaction] at hhash hfresh
  refine (submit_obeys hwallet hhash hfresh).mono ?_
  rintro s (e | _) -
  · trivial
  · trivial

theorem propose_obeys :
    (proposing account wallet chain retry call).Obeys (Queue.rules chain wallet answering) s
      (Action.Yielding fun _ _ => True) := by
  rw [proposing, Proposer.propose, Action.obeys_bind_yielding]
  refine findPending_obeys.mono ?_
  rintro s (e | _ | hash) hpending
  · trivial
  · exact queue_obeys (hpending rfl)
  · trivial

/-- A service that answers does so at once. -/
theorem findPending_answered {target : Address} {data : Bytes} :
    (retry.run (asking account).clock ((asking account).service.findPending wallet target
      data)).Obeys (Queue.rules chain wallet True) s fun s' result => ∃ found, result = .ok found ∧
        s.Executions s' ∧ s'.Found chain wallet target data found := by
  refine retry.run_obeys_of_ok _ ⟨rfl, ?_⟩
  rintro answer s' ⟨s₁, hexecutions, rfl, hanswers, hfound⟩
  obtain ⟨found, rfl⟩ := hanswers trivial
  exact ⟨found, rfl, hexecutions, hfound found rfl⟩

/-- **A call that waits is not proposed again**: whoever proposes it is given the hash of one that
waits, unless the owners execute it meanwhile. -/
theorem propose_waiting (ht : t ∈ s.queued) (htarget : t.target = call.target)
    (hdata : t.data = call.payload) :
    (proposing account wallet chain retry call).Obeys (Queue.rules chain wallet True) s
      fun s' result => t ∈ s'.queued → s.Executions s' ∧ ∃ u ∈ s'.queued,
        u.target = call.target ∧ u.data = call.payload ∧
          result = .ok (u.signingHash chain wallet) := by
  rw [proposing, Proposer.propose, Action.obeys_bind]
  refine findPending_answered.mono ?_
  rintro s₁ _ ⟨found, rfl, hexecutions, hfound⟩
  rcases found with - | hash
  · -- Nothing waits any more, so the transaction has been executed.
    have hpast : Queue.Past chain wallet t s₁ :=
      ⟨hexecutions.knows (Queue.knows_of_mem ht), fun h => hfound ⟨t, h, htarget, hdata⟩⟩
    refine (Dialogue.Obeys.keeping (queue_obeys hfound) ?_ hpast).mono ?_
    · exact fun _ hanswers hpast => hpast.of_answers hanswers
    · exact fun s' result h hmem => absurd hmem h.2.notQueued
  · obtain ⟨u, hu, hsame, hdata', rfl⟩ := hfound
    exact fun _ => ⟨hexecutions, u, hu, hsame, hdata', rfl⟩

end Steps

/-! ### All that can happen to a queue -/

section Whole

variable (account wallet : Address) (chain : BitVec 64) (retry : Retry.Policy)

/-- **The states that a queue gets into**: calls are proposed one after the other, and between them
the owners execute and others submit transactions with nonces that are free. During a call the
owners may execute as well. -/
inductive Reached (start : Queue) : Queue → Prop
  | start : Reached start start
  | proposed {s s' : Queue} {call : Call} {turns : List Turn} {result : Except Error Hash}
      (h : Reached start s)
      (run : Dialogue.Run (proposing account wallet chain retry call).run turns result)
      (steps : (Queue.rules chain wallet False).Steps s turns s') : Reached start s'
  | executed {s s' : Queue} (h : Reached start s) (step : s.Executes s') : Reached start s'
  | submitted {s : Queue} (h : Reached start s) (t : Transaction) (free : s.Free t.nonce) :
    Reached start (s.submit chain wallet t)

variable {account wallet chain retry}

/-- No two transactions ever share a nonce if none do at the start. -/
theorem Reached.nodup_nonces {start s : Queue} (h : Reached account wallet chain retry start s)
    (hstart : start.nonces.Nodup) : s.nonces.Nodup := by
  induction h with
  | start => exact hstart
  | @proposed s s' call _ _ _ run steps ih =>
    have hobeys : (proposing account wallet chain retry call).Obeys
        (Queue.rules chain wallet False) s (Action.Yielding fun _ _ => True) := propose_obeys
    have hkeeping := Dialogue.Obeys.keeping hobeys
      (fun hpermits hanswers => (Queue.grows_of_permitted hpermits hanswers).nodup_nonces) ih
    exact (run.post steps hkeeping).2
  | executed _ step ih => exact Queue.Executions.nodup_nonces (.single step) ih
  | submitted _ t hfree ih =>
    rw [Queue.submit]
    split
    · exact ih
    · exact Queue.nodup_nonces_add ih hfree

variable (account wallet chain retry)

/-- **A proposer only adds what is fresh, and what waits it does not add again.**

The first part says that a proposer is its dialogue, whatever it works with. The others are about
all states that a queue can get into: nonces stay apart; in a run of the dialogue, a turn adds at
most one transaction, which then differs from all that are known in its nonce and from all that wait
in its target or data; and as long as one waits that does the same, the result is the hash of such a
transaction, and none is added. -/
theorem proposals_fresh :
    (∀ {m : Type → Type} [Monad m] [LawfulMonad m] (parts : Site.Parts m),
      parts.signer.address = account → ∀ call,
        Proposer.propose ⟨parts.service, wallet, chain, retry⟩ parts.clock parts.signer call =
          Action.answeredBy parts.reply (proposing account wallet chain retry call)) ∧
    ∀ start s, Reached account wallet chain retry start s →
      (start.nonces.Nodup → s.nonces.Nodup) ∧
      ∀ call turns result,
        Dialogue.Run (proposing account wallet chain retry call).run turns result →
        (∀ before turn after, turns = before ++ turn :: after →
          ∀ s₁ s₂, (Queue.rules chain wallet False).Steps s before s₁ →
            (Queue.rules chain wallet False).answers s₁ turn.1 turn.2 s₂ → s₁.Grows s₂) ∧
        ∀ s', (Queue.rules chain wallet True).Steps s turns s' →
          ∀ t ∈ s.queued, t.target = call.target → t.data = call.payload → t ∈ s'.queued →
            s.Executions s' ∧ ∃ u ∈ s'.queued, u.target = call.target ∧ u.data = call.payload ∧
              result = .ok (u.signingHash chain wallet) := by
  refine ⟨?_, fun start s hreached => ⟨hreached.nodup_nonces, fun call turns result run => ?_⟩⟩
  · rintro m _ _ parts rfl call
    exact propose_eq_answeredBy parts wallet chain retry call
  constructor
  · intro before turn after hsplit s₁ s₂ steps hanswers
    exact Queue.grows_of_permitted (run.permits propose_obeys hsplit steps) hanswers
  · intro s' steps t ht htarget hdata
    exact run.post steps (propose_waiting ht htarget hdata)

end Whole

/-! A call whose proposal is stored although the reply is lost, and that is then proposed again. -/

/-- A call. -/
def plainCall : Call := ⟨⟨1⟩, [1, 2, 3, 4], "stub()", 0⟩

/-- Its transaction. -/
def plainTransaction : Transaction := .ofCall plainCall 0

/-- The hash of the transaction, for a wallet on some chain. -/
def plainHash : Hash := plainTransaction.signingHash 1 ⟨2⟩

/-- The proposal of the transaction. -/
def plainProposal : Proposal := ⟨⟨2⟩, plainTransaction, plainHash, ⟨3⟩, ⟨0, 0, false⟩⟩

/-- The turns of the proposal, up to the lost reply. -/
def turnsBeforeLoss : List Turn :=
  [⟨.findPending ⟨2⟩ ⟨1⟩ [1, 2, 3, 4], .ok none⟩, ⟨.nextNonce ⟨2⟩, .ok 0⟩,
    ⟨.sign plainHash, .ok (some ⟨0, 0, false⟩)⟩]

theorem turnsBeforeLoss_steps :
    (Queue.rules 1 ⟨2⟩ False).Steps ⟨[], []⟩ turnsBeforeLoss ⟨[], []⟩ := by
  refine .cons ⟨_, .refl, rfl, False.elim, ?_⟩ (.cons ⟨_, .refl, rfl, False.elim, ?_⟩
    (.cons ⟨_, .refl, rfl⟩ (.nil _)))
  · rintro _ ⟨⟩ ⟨t, ht, -⟩
    cases ht
  · exact fun _ _ => List.not_mem_nil

/-- The lost reply, although the transaction has been stored. -/
theorem loss_answers :
    (Queue.rules 1 ⟨2⟩ False).answers ⟨[], []⟩ (.propose plainProposal)
      (.error (.network "connection reset")) ⟨[], [plainTransaction]⟩ := by
  refine ⟨_, .refl, .inl ?_⟩
  rw [Queue.submit, if_neg]
  · rfl
  · rintro ⟨t, ht, -⟩
    cases ht

theorem proposals_fresh_repeated :
    Queue.Grows ⟨[], []⟩ ⟨[], [plainTransaction]⟩ ∧
      ∃ u ∈ [plainTransaction], u.target = plainCall.target ∧ u.data = plainCall.payload ∧
        (.ok plainHash : Except Error Hash) = .ok (u.signingHash 1 ⟨2⟩) := by
  have hfresh := (proposals_fresh ⟨3⟩ ⟨2⟩ 1 .once).2 ⟨[], []⟩
  have hrun : Dialogue.Run (proposing ⟨3⟩ ⟨2⟩ 1 .once plainCall).run
      (turnsBeforeLoss ++ [⟨.propose plainProposal, .error (.network "connection reset")⟩])
      (.error (.network "connection reset")) :=
    .ask _ (.ask _ (.ask _ (.ask _ (.done _))))
  have hrepeated : Dialogue.Run (proposing ⟨3⟩ ⟨2⟩ 1 .once plainCall).run
      [⟨.findPending ⟨2⟩ ⟨1⟩ [1, 2, 3, 4], .ok (some plainHash)⟩] (.ok plainHash) :=
    .ask _ (.done _)
  have hgrows := ((hfresh _ .start).2 _ _ _ hrun).1 turnsBeforeLoss _ [] rfl _ _
    turnsBeforeLoss_steps loss_answers
  have hreached : Reached ⟨3⟩ ⟨2⟩ 1 .once ⟨[], []⟩ ⟨[], [plainTransaction]⟩ :=
    .proposed .start hrun (turnsBeforeLoss_steps.append (.cons loss_answers (.nil _)))
  have hfound : (Queue.rules 1 ⟨2⟩ True).Steps ⟨[], [plainTransaction]⟩
      [⟨.findPending ⟨2⟩ ⟨1⟩ [1, 2, 3, 4], .ok (some plainHash)⟩] ⟨[], [plainTransaction]⟩ := by
    refine .cons ⟨_, .refl, rfl, fun _ => ⟨_, rfl⟩, ?_⟩ (.nil _)
    rintro _ ⟨⟩
    exact ⟨plainTransaction, List.mem_singleton_self _, rfl, rfl, rfl⟩
  exact ⟨hgrows, (((hfresh _ hreached).2 _ _ _ hrepeated).2 _ hfound plainTransaction
    (List.mem_singleton_self _) rfl rfl (List.mem_singleton_self _)).2⟩

end ProxyUpgrade.Wallet
