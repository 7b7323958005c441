import Mathlib.Order.Bounds.Basic
import ProxyUpgrade.Proofs.Wallet.Identity
/-!
# Nonces that are free

A transaction is proposed with the next nonce that is free: none below it can be, as the wallet
executes its transactions in the order of their nonces, and one that waits already would be replaced
by a new one with the same nonce. The service is asked for the wallet's own nonce, and then for the
last transaction that waits. The nonce after that one is the next that is free, or the own nonce if
nothing waits.

Nonces in a reply may be of any size, while the next one has 64 bits. Nothing can be read of a nonce
that is too large, which is taken as if nothing waits, and zero comes after the largest nonce that
can be read. So what is given is the next nonce that is free exactly if there is a nonce after each
one that waits (`Wallet.nextNonce_free_iff`).
-/

namespace ProxyUpgrade.Wallet

open Site (Turn asking)

/-- **A transaction by its nonce**, which may be of any size. -/
structure Numbered where
  nonce : Nat
  executed : Bool
  deriving DecidableEq

/-- **The nonces of a wallet**, as a service knows them. -/
structure Numbering where
  /-- The nonce of the next transaction that is executed. -/
  own : BitVec 64
  /-- All transactions, the latest nonce first. -/
  entries : List Numbered
  descending : entries.Pairwise fun a b => b.nonce ≤ a.nonce

namespace Numbering

variable (l : Numbering)

/-- **The transactions that wait.** -/
def queued : List Numbered :=
  l.entries.filter fun e => !e.executed && decide (l.own.toNat ≤ e.nonce)

/-- **A nonce is free** if it is not below the wallet's own, and above those of all transactions
that have not been executed. -/
def Free (n : Nat) : Prop := l.own.toNat ≤ n ∧ ∀ e ∈ l.entries, e.executed = false → e.nonce < n

/-- **What is given as the next nonce**: the one after the last that waits, which is zero after the
largest one, or the wallet's own if nothing waits or the last one does not fit. -/
def given : BitVec 64 :=
  match l.queued with
  | [] => l.own
  | last :: _ => if Bits.fits 64 last.nonce then BitVec.ofNat 64 last.nonce + 1 else l.own

/-- **A document shows the last transaction that waits**, if any does. -/
def Shows (document : Json) : Prop :=
  ∃ shown, document.member? "results" = some (.array shown) ∧
    List.Forall₂ (fun e told => TellsNumber told e.nonce) (l.queued.take 1) shown

/-- **How the service answers** when it is asked for a document: it tells the nonce of the wallet,
and shows the last transaction that waits. -/
structure Answers (url : Url) (wallet : Address) (address : Url) (document : Json) : Prop where
  own : (Client.mk (m := Id) .unreachable url).walletUrl wallet = .ok address →
    TellsNumber document l.own.toNat
  queue : (Client.mk (m := Id) .unreachable url).queueUrl wallet l.own [("limit", "1")] =
    .ok address → l.Shows document

/-- **The nonces are served** by what replies to requests: all that is replied agrees with them, and
both documents are there. -/
structure ServedBy (url : Url) (wallet : Address) (serve : Http.Request → Option Http.Reply) :
    Prop where
  agrees : ∀ address reply document, serve ⟨address, .empty⟩ = some reply →
    Http.isFailure reply.status = false → reply.plain? = some document →
      l.Answers url wallet address document
  own : ∃ address document, Available serve address document ∧
    (Client.mk (m := Id) .unreachable url).walletUrl wallet = .ok address
  queue : ∃ address document, Available serve address document ∧
    (Client.mk (m := Id) .unreachable url).queueUrl wallet l.own [("limit", "1")] = .ok address

variable {l} {document : Json} {e last : Numbered} {rest : List Numbered}

theorem mem_queued :
    e ∈ l.queued ↔ e ∈ l.entries ∧ e.executed = false ∧ l.own.toNat ≤ e.nonce := by
  simp [queued]

theorem own_le_last (hqueued : l.queued = last :: rest) : l.own.toNat ≤ last.nonce :=
  (mem_queued.mp (hqueued ▸ List.mem_cons_self)).2.2

/-! ### What is read -/

/-- If nothing waits, no nonce is read. -/
theorem Shows.firstNonce?_nil (h : l.Shows document) (hqueued : l.queued = []) :
    Client.firstNonce? document = none := by
  obtain ⟨shown, hresults, htells⟩ := h
  rw [hqueued, List.take_nil, List.forall₂_nil_left_iff] at htells
  simp [Client.firstNonce?, Client.results, hresults, htells, Json.items?]

/-- The nonce of the last transaction that waits is read if it fits. -/
theorem Shows.firstNonce?_cons (h : l.Shows document) (hqueued : l.queued = last :: rest) :
    Client.firstNonce? document =
      if Bits.fits 64 last.nonce then some (BitVec.ofNat 64 last.nonce) else none := by
  obtain ⟨shown, hresults, htells⟩ := h
  rw [hqueued, List.take_succ_cons, List.take_zero] at htells
  obtain ⟨told, htold, rfl⟩ := by simpa [List.forall₂_cons_left_iff] using htells
  rw [← nonce?_of_tellsNumber htold]
  simp [Client.firstNonce?, Client.results, hresults, Json.items?]

/-- **What follows from the document is what is given.** -/
theorem Shows.nonceAfter (h : l.Shows document) :
    Client.nonceAfter l.own (Client.firstNonce? document) = l.given := by
  rw [given]
  rcases hqueued : l.queued with - | ⟨last, rest⟩
  · rw [h.firstNonce?_nil hqueued]
    rfl
  · dsimp only
    rw [h.firstNonce?_cons hqueued]
    split
    next hfits =>
      have hvalue : (BitVec.ofNat 64 last.nonce).toNat = last.nonce :=
        Nat.mod_eq_of_lt (of_decide_eq_true hfits)
      -- The nonce that is read is not below the wallet's own, as its transaction waits.
      have hle : l.own ≤ BitVec.ofNat 64 last.nonce := by
        rw [BitVec.le_def, hvalue]
        exact own_le_last hqueued
      exact if_pos hle
    · rfl

/-! ### What is free -/

/-- What holds below the wallet's own nonce only has to be shown of the transactions that wait. -/
theorem forall_queued_iff {p : Nat → Prop} (hbelow : ∀ n, n < l.own.toNat → p n) :
    (∀ e ∈ l.queued, p e.nonce) ↔ ∀ e ∈ l.entries, e.executed = false → p e.nonce := by
  refine ⟨fun h e he hexecuted => ?_, fun h e he => ?_⟩
  · rcases Nat.lt_or_ge e.nonce l.own.toNat with hlt | hge
    · exact hbelow e.nonce hlt
    · exact h e (mem_queued.mpr ⟨he, hexecuted, hge⟩)
  · obtain ⟨hmem, hexecuted, -⟩ := mem_queued.mp he
    exact h e hmem hexecuted

/-- Only the transactions that wait are in the way. -/
theorem free_iff {n : Nat} : l.Free n ↔ l.own.toNat ≤ n ∧ ∀ e ∈ l.queued, e.nonce < n :=
  and_congr_right fun hown => (forall_queued_iff (p := (· < n)) fun _ hlt => hlt.trans_le hown).symm

/-- Of those that wait, the first one has the latest nonce. -/
theorem nonce_le_last (hqueued : l.queued = last :: rest) (he : e ∈ l.queued) :
    e.nonce ≤ last.nonce := by
  have hsorted : l.queued.Pairwise fun a b => b.nonce ≤ a.nonce := l.descending.filter _
  rw [hqueued] at he hsorted
  rcases List.mem_cons.mp he with rfl | he
  · exact Nat.le_refl _
  · exact List.rel_of_pairwise_cons hsorted he

/-- Where a transaction waits, a nonce is free if it is after the latest one. -/
theorem free_iff_of_cons (hqueued : l.queued = last :: rest) {n : Nat} :
    l.Free n ↔ last.nonce < n := by
  have hown := own_le_last hqueued
  rw [free_iff]
  refine ⟨fun h => h.2 last (hqueued ▸ List.mem_cons_self), fun h => ⟨by omega, fun e he => ?_⟩⟩
  exact (nonce_le_last hqueued he).trans_lt h

/-- There is a nonce after the latest one if there is one after each. -/
theorem forall_fits_iff_of_cons (hqueued : l.queued = last :: rest) :
    (∀ e ∈ l.queued, e.nonce + 1 < 2 ^ 64) ↔ last.nonce + 1 < 2 ^ 64 := by
  refine ⟨fun h => h last (hqueued ▸ List.mem_cons_self), fun h e he => ?_⟩
  exact (Nat.succ_le_succ (nonce_le_last hqueued he)).trans_lt h

/-- **What is given is the nonce after the latest one** if that fits, and no other nonce is. -/
theorem given_eq_iff (hqueued : l.queued = last :: rest) :
    l.given.toNat = last.nonce + 1 ↔ last.nonce + 1 < 2 ^ 64 := by
  have hown := own_le_last hqueued
  simp only [given, hqueued]
  split
  next hfits =>
    have hlast : last.nonce < 2 ^ 64 := of_decide_eq_true hfits
    rw [BitVec.toNat_add, BitVec.toNat_ofNat, Nat.mod_eq_of_lt hlast]
    exact Nat.mod_eq_iff_lt (by decide)
  next hfits =>
    -- What is given is the wallet's own nonce, and this is not above the one that does not fit.
    have hlast : ¬ last.nonce < 2 ^ 64 := fun h => hfits (decide_eq_true h)
    omega

/-- **What is given is the first nonce that is free** if there is one after each that waits. -/
theorem isLeast_given_iff : IsLeast {n | l.Free n} l.given.toNat ↔
    ∀ e ∈ l.entries, e.executed = false → e.nonce + 1 < 2 ^ 64 := by
  have hbelow (n : Nat) (hlt : n < l.own.toNat) : n + 1 < 2 ^ 64 := by
    have hown : l.own.toNat < 2 ^ 64 := l.own.isLt
    omega
  rw [← forall_queued_iff (p := fun n => n + 1 < 2 ^ 64) hbelow]
  rcases hqueued : l.queued with - | ⟨last, rest⟩
  · have hgiven : l.given = l.own := by rw [given, hqueued]
    simp [IsLeast, lowerBounds, free_iff, hqueued, hgiven]
  · rw [← hqueued, forall_fits_iff_of_cons hqueued, ← given_eq_iff hqueued]
    simp only [free_iff_of_cons hqueued]
    constructor
    · intro h
      exact Nat.le_antisymm (h.2 (Nat.lt_succ_self last.nonce)) h.1
    · intro h
      rw [h]
      exact ⟨Nat.lt_succ_self _, fun n hn => hn⟩

/-! ### Asking for it -/

section Asking

variable {account wallet : Address} {url : Url} {serve : Http.Request → Option Http.Reply}

theorem nextNonce_obeys : ((Client.mk (asking account).http url).nextNonce wallet).Obeys
    (telling (l.Answers url wallet)) () (Action.Yielding fun _ nonce => nonce = l.given) := by
  rw [Client.nextNonce]
  refine Action.obeys_bind_yielding.mpr ((ownNonce_telling fun _ _ haddress hanswers =>
    nonce?_of_tellsNumber_toNat (hanswers.own haddress)).mono ?_)
  rintro s (e | own) hown
  · trivial
  rw [Action.yielding_ok] at hown ⊢
  subst hown
  rcases haddress : (Client.mk (asking account).http url).queueUrl wallet l.own
      [("limit", "1")] with e | address
  · trivial
  refine Action.obeys_bind_yielding.mpr (Action.obeys_bind_yielding.mpr
    ((ask_telling address).mono ?_))
  rintro s (e | document) hanswers
  · trivial
  · exact (hanswers.queue haddress).nonceAfter

theorem ServedBy.answers (h : l.ServedBy url wallet serve) {address : Url}
    (hdocument : Available serve address document) : l.Answers url wallet address document := by
  obtain ⟨reply, hserve, hstatus, hplain⟩ := hdocument.replied
  exact h.agrees address reply document hserve hstatus hplain

theorem ServedBy.nextNonce (h : l.ServedBy url wallet serve) {m : Type → Type} [Monad m]
    [LawfulMonad m] : (Client.mk (answering serve) url).nextNonce wallet =
      (pure l.given : Action m (BitVec 64)) := by
  obtain ⟨walletAddress, info, hinfo, hwallet⟩ := h.own
  obtain ⟨queueAddress, page, hpage, hqueue⟩ := h.queue
  have hown := nonce?_of_tellsNumber_toNat ((h.answers hinfo).own hwallet)
  have hqueue' : (Client.mk (answering serve : Http m) url).queueUrl wallet l.own
      [("limit", "1")] = .ok queueAddress := hqueue
  rw [Client.nextNonce, ownNonce_of_available hwallet hinfo hown, pure_bind, ofExcept_bind hqueue',
    ask_of_available hpage, pure_bind, ((h.answers hpage).queue hqueue).nonceAfter]

theorem ServedBy.exists_run (h : l.ServedBy url wallet serve) (account : Address) :
    ∃ turns, Dialogue.Run ((Client.mk (asking account).http url).nextNonce wallet).run turns
      (.ok l.given) ∧ ∀ turn ∈ turns, Tells (l.Answers url wallet) turn := by
  obtain ⟨walletAddress, info, hinfo, hwallet⟩ := h.own
  obtain ⟨queueAddress, page, hpage, hqueue⟩ := h.queue
  have howned := ownNonce_run_of_available account hwallet hinfo
    (nonce?_of_tellsNumber_toNat ((h.answers hinfo).own hwallet))
  refine ⟨[asked serve walletAddress, asked serve queueAddress], ?_, ?_⟩
  · refine Action.run_bind howned (Action.run_bind_ofExcept hqueue
      (Action.run_yield (ask_run_of_available account url hpage) ?_))
    rw [((h.answers hpage).queue hqueue).nonceAfter]
    rfl
  · simp [tells_asked h.agrees]

end Asking

end Numbering

/-- **What the next nonce comes to.** Whatever a service tells that knows the nonces of a wallet,
what is given as the next one, if anything, is the same, and it is given where the service answers.
It is the least nonce that is free exactly if for each transaction that has not been executed, the
nonce after its own fits in 64 bits. -/
theorem nextNonce_free_iff (account wallet : Address) (url : Url) (l : Numbering) :
    (∀ turns nonce,
      Dialogue.Run ((Client.mk (asking account).http url).nextNonce wallet).run turns (.ok nonce) →
      (∀ turn ∈ turns, Tells (l.Answers url wallet) turn) → nonce = l.given) ∧
    (∀ serve, l.ServedBy url wallet serve → ∀ {m : Type → Type} [Monad m] [LawfulMonad m],
      (Client.mk (answering serve) url).nextNonce wallet =
        (pure l.given : Action m (BitVec 64))) ∧
    (IsLeast {n | l.Free n} l.given.toNat ↔
      ∀ e ∈ l.entries, e.executed = false → e.nonce + 1 < 2 ^ 64) := by
  refine ⟨fun turns nonce run htells => ?_, fun serve hserve => hserve.nextNonce, ?_⟩
  · exact run.post (steps_of_tells htells) Numbering.nextNonce_obeys
  · exact Numbering.isLeast_given_iff

/-! ### Two wallets -/

/-- A wallet for which two transactions wait, where the nonce of the last one is too large. -/
def overfullNumbering : Numbering where
  own := 7
  entries := [⟨2 ^ 64, false⟩, ⟨7, false⟩]
  descending := by decide

/-- A wallet for which two transactions wait, and none with its own nonce. -/
def usualNumbering : Numbering where
  own := 7
  entries := [⟨9, false⟩, ⟨8, false⟩]
  descending := by decide

namespace Counted

/-- Where the last transaction is shown. -/
def lastUrl : Url := localQueue sharedWallet [("limit", "1")]

/-- A document that shows the last transaction by the digits of its nonce. -/
def last (digits : String) : Json :=
  .object [("results", .array [.object [("nonce", .string digits)]])]

/-- All that is told by the service of a wallet whose own nonce is seven. -/
def documents (digits : String) : List (Url × Json) :=
  [(Paged.infoUrl, Paged.info), (lastUrl, last digits)]

/-- The service on the web. -/
def serve (digits : String) : Http.Request → Option Http.Reply := serving (documents digits)

variable (digits : String)

theorem urls_nodup : ((documents digits).map Prod.fst).Nodup := by
  have hlast : lastUrl.query ≠ none := Option.some_ne_none _
  have hne : Paged.infoUrl ≠ lastUrl := fun h => hlast (h ▸ rfl)
  simp [documents, hne]

theorem plain_documents :
    ∀ found ∈ documents digits, (replyWith found.2).plain? = some found.2 := by
  have hinfo : (replyWith Paged.info).plain? = some Paged.info :=
    Paged.plain_documents (Paged.infoUrl, Paged.info) List.mem_cons_self
  have hlast : (replyWith (last digits)).plain? = some (last digits) :=
    replyWith_plain (by simp [last, Json.IsExact, Json.AreExact, Json.HasExact]) rfl
  simp [documents, hinfo, hlast]

variable {digits}

theorem available {address : Url} {document : Json}
    (hmem : (address, document) ∈ documents digits) :
    Available (serve digits) address document := by
  refine available_of_mem (plain_documents digits) (urls_nodup digits) ?_ hmem
  simp only [documents, List.mem_cons, Prod.mk.injEq, List.not_mem_nil, or_false] at hmem
  rcases hmem with ⟨rfl, -⟩ | ⟨rfl, -⟩
  · rfl
  · exact congrArg Http.schemes.contains (Url.withPairs_scheme _ _)

/-- The nonces are served if the digits are those of the last one. -/
theorem served {l : Numbering} {e : Numbered} {rest : List Numbered} (hown : l.own = 7)
    (hqueued : l.queued = e :: rest)
    (hdigits : Quantity.ofDecimal? digits.toList = some e.nonce) :
    l.ServedBy localService sharedWallet (serve digits) := by
  have hqueue : (Client.mk (m := Id) .unreachable localService).queueUrl sharedWallet l.own
      [("limit", "1")] = .ok lastUrl := by
    rw [hown]
    exact local_queueUrl sharedWallet _
  refine ⟨?_, ⟨Paged.infoUrl, Paged.info, available (by simp [documents]),
    local_walletUrl sharedWallet⟩, ⟨lastUrl, last digits, available (by simp [documents]), hqueue⟩⟩
  intro address reply document hreply _ hplain
  have hdocument {told : Json} : (address, told) ∈ documents digits → told = document :=
    told_of_serving (plain_documents digits) (urls_nodup digits) hreply hplain
  refine ⟨fun hwallet => ?_, fun hlast => ?_⟩
  · obtain rfl : Paged.infoUrl = address :=
      Except.ok.inj ((local_walletUrl sharedWallet).symm.trans hwallet)
    obtain rfl : Paged.info = document := hdocument (by simp [documents])
    rw [hown]
    exact TellsNonce.tellsNumber (.inl rfl)
  · obtain rfl : lastUrl = address := Except.ok.inj (hqueue.symm.trans hlast)
    obtain rfl : last digits = document := hdocument (by simp [documents])
    refine ⟨_, rfl, ?_⟩
    rw [hqueued]
    exact .cons (.text hdigits rfl) .nil

end Counted

/-- **The nonce of a transaction that waits is given once more**, where a later one has a nonce that
is too large. -/
theorem queued_nonce_given :
    overfullNumbering.ServedBy localService sharedWallet (Counted.serve "18446744073709551616") ∧
      (Client.mk (answering (Counted.serve "18446744073709551616")) localService).nextNonce
        sharedWallet = (pure 7 : Action Id (BitVec 64)) ∧
      (∃ e ∈ overfullNumbering.queued, e.nonce = (7 : BitVec 64).toNat) ∧
      ¬ overfullNumbering.Free (7 : BitVec 64).toNat := by
  have hserved : overfullNumbering.ServedBy localService sharedWallet
      (Counted.serve "18446744073709551616") := Counted.served rfl rfl rfl
  have hmem : (⟨7, false⟩ : Numbered) ∈ overfullNumbering.queued := by decide
  refine ⟨hserved, hserved.nextNonce, ⟨_, hmem, rfl⟩, fun hfree => ?_⟩
  exact absurd ((Numbering.free_iff.mp hfree).2 _ hmem) (by decide)

/-- The nonce after the last one is given where this is a usual one. -/
theorem nextNonce_free_iff_usual :
    usualNumbering.ServedBy localService sharedWallet (Counted.serve "9") ∧
      (Client.mk (answering (Counted.serve "9")) localService).nextNonce sharedWallet =
        (pure 10 : Action Id (BitVec 64)) ∧
      (∃ turns nonce, Dialogue.Run ((Client.mk (asking owner).http localService).nextNonce
          sharedWallet).run turns (.ok nonce) ∧
        (∀ turn ∈ turns, Tells (usualNumbering.Answers localService sharedWallet) turn) ∧
        nonce = 10) ∧
      IsLeast {n | usualNumbering.Free n} 10 := by
  have hserved : usualNumbering.ServedBy localService sharedWallet (Counted.serve "9") :=
    Counted.served rfl rfl rfl
  obtain ⟨hsame, hgiven, hleast⟩ :=
    nextNonce_free_iff owner sharedWallet localService usualNumbering
  obtain ⟨turns, run, htells⟩ := hserved.exists_run owner
  exact ⟨hserved, hgiven _ hserved, ⟨turns, _, run, htells, hsame turns _ run htells⟩,
    hleast.mpr (by decide)⟩

end ProxyUpgrade.Wallet
