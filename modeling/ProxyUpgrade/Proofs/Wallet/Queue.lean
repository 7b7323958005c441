import Mathlib.Logic.Relation
import ProxyUpgrade.Proofs.Site.Basic
/-!
# The queue of a wallet

The service of a wallet knows the transactions that the owners have executed and those that wait. It
tells transactions apart by the hash that owners sign, so one that is submitted again changes
nothing. The owners execute what waits in the order of the nonces, and they may do so at any time:
also while a call is being proposed.

* `Queue.Executions` – what the owners do.
* `Queue.Fresh` – no transaction that waits does the same as a given one, and none at all has its
  nonce.
* `Queue.rules` – what may be asked of the service, and how it answers. A submission that it stores
  may be answered with a failure.
* `Queue.Grows` – the queue after a turn that the rules allow (`Queue.grows_of_permitted`).
-/

namespace ProxyUpgrade.Wallet

open Site (Question)

/-- The transactions of a wallet that its service knows. -/
structure Queue where
  executed : List Transaction
  queued : List Transaction

namespace Queue

/-- All transactions. -/
def known (s : Queue) : List Transaction := s.executed ++ s.queued

/-- The nonces of all transactions. -/
def nonces (s : Queue) : List (BitVec 64) := s.known.map Transaction.nonce

/-- The owners execute a transaction that waits, and none that waits has a lower nonce. -/
def Executes (s s' : Queue) : Prop :=
  ∃ t ∈ s.queued, (∀ other ∈ s.queued, t.nonce ≤ other.nonce) ∧
    s' = ⟨t :: s.executed, s.queued.erase t⟩

/-- The owners execute some transactions, one after the other. -/
abbrev Executions : Queue → Queue → Prop := Relation.ReflTransGen Executes

/-- A transaction that does the same waits. -/
def Waits (s : Queue) (target : Address) (data : Bytes) : Prop :=
  ∃ t ∈ s.queued, t.target = target ∧ t.data = data

/-- No transaction has the nonce. -/
def Free (s : Queue) (nonce : BitVec 64) : Prop := nonce ∉ s.nonces

/-- **A transaction is fresh** if none that waits does the same, and none at all has its nonce. -/
structure Fresh (s : Queue) (t : Transaction) : Prop where
  alone : ¬ s.Waits t.target t.data
  free : s.Free t.nonce

/-- The queue with one more transaction that waits. -/
def add (s : Queue) (t : Transaction) : Queue := { s with queued := t :: s.queued }

/-- **What becomes of a queue** while the owners execute and one transaction may be added: it is
fresh when it is added. -/
inductive Grows (s s' : Queue) : Prop
  | executed (h : s.Executions s')
  | added {s₁ : Queue} (h : s.Executions s₁) (t : Transaction) (fresh : s₁.Fresh t)
      (heq : s' = s₁.add t)

section Service

variable (chain : BitVec 64) (wallet : Address)

/-- The service knows a transaction with the hash. -/
def Knows (s : Queue) (hash : Hash) : Prop := ∃ t ∈ s.known, t.signingHash chain wallet = hash

instance (s : Queue) (hash : Hash) : Decidable (s.Knows chain wallet hash) :=
  inferInstanceAs (Decidable (∃ t ∈ s.known, t.signingHash chain wallet = hash))

/-- A transaction is submitted: one that is known changes nothing. -/
def submit (s : Queue) (t : Transaction) : Queue :=
  if s.Knows chain wallet (t.signingHash chain wallet) then s else s.add t

/-- What is found when a transaction is looked for that waits: the hash of one, or nothing if there
is none. -/
def Found (s : Queue) (target : Address) (data : Bytes) : Option Hash → Prop
  | none => ¬ s.Waits target data
  | some hash =>
    ∃ t ∈ s.queued, t.target = target ∧ t.data = data ∧ t.signingHash chain wallet = hash

/-- **How the service answers.** A submission may be answered with a failure, whether it has been
stored or not. So may the other questions, unless the service is an answering one. -/
def Serves (answering : Prop) (s : Queue) : (question : Question) → question.Answer → Queue → Prop
  | .findPending _ target data, answer, s' => s' = s ∧ (answering → ∃ found, answer = .ok found) ∧
    ∀ found, answer = .ok found → s.Found chain wallet target data found
  | .nextNonce _, answer, s' => s' = s ∧ (answering → ∃ nonce, answer = .ok nonce) ∧
    ∀ nonce, answer = .ok nonce → s.Free nonce
  | .propose proposal, answer, s' =>
    s' = s.submit chain wallet proposal.transaction ∨ s' = s ∧ ∃ e, answer = .error e
  | _, _, s' => s' = s

/-- **What may be asked**: only of the wallet itself, and a transaction may be submitted if it is
fresh or known already. -/
def MayAsk (s : Queue) : Question → Prop
  | .findPending asked .. | .nextNonce asked => asked = wallet
  | .propose proposal => proposal.wallet = wallet ∧
    proposal.hash = proposal.transaction.signingHash chain wallet ∧
    (s.Knows chain wallet proposal.hash ∨ s.Fresh proposal.transaction)
  | .sign _ | .now | .sleep _ => True
  | _ => False

/-- The rules of the service. Before each answer the owners may have executed something. -/
def rules (answering : Prop) : Dialogue.Rules Queue Question Question.Answer where
  permits s question := s.MayAsk chain wallet question
  answers s question answer s' :=
    ∃ s₁, s.Executions s₁ ∧ s₁.Serves chain wallet answering question answer s'

end Service

/-! ### Executions -/

section Laws

variable {chain : BitVec 64} {wallet : Address} {answering : Prop} {s s₁ s' : Queue}
  {t : Transaction} {hash : Hash}

theorem Executions.known_perm (h : s.Executions s') : s'.known.Perm s.known := by
  induction h with
  | refl => exact .refl _
  | tail _ hstep ih =>
    obtain ⟨t, ht, -, rfl⟩ := hstep
    refine List.Perm.trans ?_ ih
    exact List.perm_middle.symm.trans ((List.perm_cons_erase ht).symm.append_left _)

theorem Executions.queued_subset (h : s.Executions s') : s'.queued ⊆ s.queued := by
  induction h with
  | refl => exact List.Subset.refl _
  | tail _ hstep ih =>
    obtain ⟨t, -, -, rfl⟩ := hstep
    exact fun other hother => ih (List.mem_of_mem_erase hother)

theorem Executions.not_waits {target : Address} {data : Bytes} (h : s.Executions s')
    (hs : ¬ s.Waits target data) : ¬ s'.Waits target data := by
  rintro ⟨t, ht, hsame⟩
  exact hs ⟨t, h.queued_subset ht, hsame⟩

theorem Executions.mem_nonces {nonce : BitVec 64} (h : s.Executions s') :
    nonce ∈ s'.nonces ↔ nonce ∈ s.nonces :=
  (h.known_perm.map _).mem_iff

theorem Executions.free {nonce : BitVec 64} (h : s.Executions s') (hs : s.Free nonce) :
    s'.Free nonce :=
  fun hmem => hs (h.mem_nonces.mp hmem)

theorem Executions.fresh (h : s.Executions s') (hs : s.Fresh t) : s'.Fresh t :=
  ⟨h.not_waits hs.alone, h.free hs.free⟩

theorem Executions.knows (h : s.Executions s') (hs : s.Knows chain wallet hash) :
    s'.Knows chain wallet hash := by
  obtain ⟨t, ht, hhash⟩ := hs
  exact ⟨t, h.known_perm.mem_iff.mpr ht, hhash⟩

theorem knows_of_mem (h : t ∈ s.queued) : s.Knows chain wallet (t.signingHash chain wallet) :=
  ⟨t, List.mem_append_right _ h, rfl⟩

/-! ### Submissions -/

theorem known_add (s : Queue) (t : Transaction) : (s.add t).known.Perm (t :: s.known) :=
  List.perm_middle

/-- What was submitted is known. -/
theorem knows_submit (s : Queue) (t : Transaction) :
    (s.submit chain wallet t).Knows chain wallet (t.signingHash chain wallet) := by
  rw [submit]
  split
  · assumption
  · exact knows_of_mem (s := s.add t) List.mem_cons_self

theorem Knows.submit (h : s.Knows chain wallet hash) (t : Transaction) :
    (s.submit chain wallet t).Knows chain wallet hash := by
  rw [Queue.submit]
  split
  · exact h
  · obtain ⟨other, hother, hhash⟩ := h
    exact ⟨other, (known_add s t).mem_iff.mpr (List.mem_cons_of_mem _ hother), hhash⟩

/-- A fresh transaction is added, and one that is known is not. -/
theorem submit_eq (h : s.Knows chain wallet (t.signingHash chain wallet) ∨ s.Fresh t) :
    s.submit chain wallet t = s ∨ s.Fresh t ∧ s.submit chain wallet t = s.add t := by
  rw [submit]
  split
  next hknows => exact .inl rfl
  next hnew => exact .inr ⟨h.resolve_left hnew, rfl⟩

/-! ### Turns -/

/-- **Whatever may be asked, the queue grows only by what is fresh.** -/
theorem grows_of_permitted {question : Question} {answer : question.Answer}
    (hpermits : (rules chain wallet answering).permits s question)
    (hanswers : (rules chain wallet answering).answers s question answer s') : s.Grows s' := by
  obtain ⟨s₁, hexecutions, hserves⟩ := hanswers
  cases question with
  | propose proposal =>
    obtain ⟨-, hhash, hmay⟩ := hpermits
    rw [hhash] at hmay
    have hmay₁ := hmay.imp hexecutions.knows hexecutions.fresh
    rcases hserves with rfl | ⟨rfl, -⟩
    · rcases submit_eq hmay₁ with heq | ⟨hfresh, heq⟩
      · rw [heq]
        exact .executed hexecutions
      · exact .added hexecutions _ hfresh heq
    · exact .executed hexecutions
  | findPending asked target data =>
    obtain ⟨rfl, -⟩ := hserves
    exact .executed hexecutions
  | nextNonce asked =>
    obtain ⟨rfl, -⟩ := hserves
    exact .executed hexecutions
  | _ =>
    obtain rfl := hserves
    exact .executed hexecutions

theorem nodup_nonces_add (hs : s.nonces.Nodup) (hfree : s.Free t.nonce) :
    (s.add t).nonces.Nodup := by
  have hperm : (s.add t).nonces.Perm (t.nonce :: s.nonces) := (known_add s t).map _
  rw [hperm.nodup_iff]
  exact List.nodup_cons.mpr ⟨hfree, hs⟩

theorem Executions.nodup_nonces (h : s.Executions s') (hs : s.nonces.Nodup) : s'.nonces.Nodup :=
  (h.known_perm.map _).nodup_iff.mpr hs

/-- No two transactions come to share a nonce. -/
theorem Grows.nodup_nonces (h : s.Grows s') (hs : s.nonces.Nodup) : s'.nonces.Nodup := by
  cases h with
  | executed h => exact h.nodup_nonces hs
  | added h t hfresh heq =>
    rw [heq]
    exact nodup_nonces_add (h.nodup_nonces hs) hfresh.free

/-- A transaction is known and does not wait: it has been executed. -/
structure Past (chain : BitVec 64) (wallet : Address) (t : Transaction) (s : Queue) : Prop where
  knows : s.Knows chain wallet (t.signingHash chain wallet)
  notQueued : t ∉ s.queued

/-- **What has been executed never waits again.** -/
theorem Past.of_answers {question : Question} {answer : question.Answer}
    (h : Past chain wallet t s)
    (hanswers : (rules chain wallet answering).answers s question answer s') :
    Past chain wallet t s' := by
  obtain ⟨s₁, hexecutions, hserves⟩ := hanswers
  have hpast : Past chain wallet t s₁ :=
    ⟨hexecutions.knows h.knows, fun ht => h.notQueued (hexecutions.queued_subset ht)⟩
  cases question with
  | propose proposal =>
    rcases hserves with rfl | ⟨rfl, -⟩
    · refine ⟨hpast.knows.submit _, ?_⟩
      rw [submit]
      split
      · exact hpast.notQueued
      next hnew =>
        intro ht
        rcases List.mem_cons.mp ht with rfl | ht
        · exact hnew hpast.knows
        · exact hpast.notQueued ht
    · exact hpast
  | findPending asked target data =>
    obtain ⟨rfl, -⟩ := hserves
    exact hpast
  | nextNonce asked =>
    obtain ⟨rfl, -⟩ := hserves
    exact hpast
  | _ =>
    obtain rfl := hserves
    exact hpast

end Laws

end Queue

end ProxyUpgrade.Wallet
