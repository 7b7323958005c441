import ProxyUpgrade.Proofs.Wallet.Proposing
import ProxyUpgrade.Wallet.Client
/-!
# What a service on the web is asked

A proposer that works with a service on the web asks it with requests that carry nothing, and
submits a proposal with a request that carries a document.

* `Wallet.submitting` – the proposer over the web. What it does is a dialogue about exchanges,
  pauses and signatures, whatever answers these (`Wallet.submitting_eq_answeredBy`).
* `Wallet.posts`, `Wallet.signings` – what is submitted and what is to be signed in a run.
* `Wallet.IsHarmless` – actions that do neither, as all that comes before the signature.
* `Wallet.posts_of_submit` – all that is submitted for a proposal is its document.
* `Wallet.telling` – the rules of a service that may fail, but tells nothing that is not right.
-/

namespace ProxyUpgrade.Wallet

open Site (Question Talk Turn asking)

/-! ### Proposals over the web -/

section Assembly

variable {m : Type → Type} [Monad m] (parts : Site.Parts m) (url : Url)

/-- Parts with a service that is reached over the web. -/
def overWeb : Site.Parts m := { parts with service := (Client.mk parts.http url).service }

/-- Has a call proposed to a service on the web. -/
def submitting (wallet : Address) (chain : BitVec 64) (retry : Retry.Policy) (call : Call) :
    Action m Hash :=
  Proposer.propose ⟨(overWeb parts url).service, wallet, chain, retry⟩ parts.clock parts.signer call

end Assembly

section Answers

variable {Q : Type} {A : Q → Type} {m : Type → Type} [Monad m] [LawfulMonad m]
  (reply : (q : Q) → m (A q)) (parts : Site.Parts (Dialogue Q A)) (url : Url)

theorem sendChecked_answeredBy (request : Http.Request) :
    (parts.http.sendChecked request).answeredBy reply =
      (parts.answeredBy reply).http.sendChecked request := by
  simp only [Http.sendChecked, Dialogue.answeredBy_bind, Site.http_send_answeredBy]
  refine bind_congr fun answer => ?_
  rcases answer with fault | answer
  · rfl
  · dsimp only
    split <;> rfl

theorem ask_answeredBy (address : Url) :
    Action.answeredBy reply ((Client.mk parts.http url).ask address) =
      (Client.mk (parts.answeredBy reply).http url).ask address := by
  simp only [Client.ask, Action.answeredBy_bind, Action.answeredBy_lift, sendChecked_answeredBy]
  refine bind_congr fun answer => ?_
  rcases answer with fault | answer
  · rfl
  · dsimp only
    rcases answer.plain? with - | json <;> rfl

theorem ownNonce_answeredBy (wallet : Address) :
    Action.answeredBy reply ((Client.mk parts.http url).ownNonce wallet) =
      (Client.mk (parts.answeredBy reply).http url).ownNonce wallet := by
  simp only [Client.ownNonce, Action.answeredBy_bind, Action.answeredBy_ofExcept, ask_answeredBy]
  refine bind_congr fun address => bind_congr fun info => ?_
  rcases (info.member? "nonce").bind Client.nonce? with - | nonce <;> rfl

theorem overWeb_answeredBy :
    (overWeb parts url).answeredBy reply = overWeb (parts.answeredBy reply) url := by
  have hnonce (wallet : Address) :
      Action.answeredBy reply ((Client.mk parts.http url).nextNonce wallet) =
        (Client.mk (parts.answeredBy reply).http url).nextNonce wallet := by
    simp only [Client.nextNonce, Action.answeredBy_bind, Action.answeredBy_ofExcept,
      ownNonce_answeredBy, ask_answeredBy]
    rfl
  have hfind (wallet target : Address) (data : Bytes) :
      Action.answeredBy reply ((Client.mk parts.http url).findPending wallet target data) =
        (Client.mk (parts.answeredBy reply).http url).findPending wallet target data := by
    simp only [Client.findPending, Action.answeredBy_bind, Action.answeredBy_ofExcept,
      ownNonce_answeredBy, ask_answeredBy]
    rfl
  have hpropose (proposal : Proposal) :
      Action.answeredBy reply ((Client.mk parts.http url).propose proposal) =
        (Client.mk (parts.answeredBy reply).http url).propose proposal := by
    simp only [Client.propose, Action.answeredBy_bind, Action.answeredBy_ofExcept,
      Action.answeredBy_lift, sendChecked_answeredBy]
    refine bind_congr fun address => bind_congr fun answer => ?_
    rcases answer with fault | answer <;> rfl
  simp only [Site.Parts.answeredBy, overWeb, Client.service, hnonce, hfind, hpropose]

end Answers

theorem submitting_eq_answeredBy {m : Type → Type} [Monad m] [LawfulMonad m] (parts : Site.Parts m)
    (url : Url) (wallet : Address) (chain : BitVec 64) (retry : Retry.Policy) (call : Call) :
    submitting parts url wallet chain retry call = Action.answeredBy parts.reply
      (submitting (asking parts.signer.address) url wallet chain retry call) := by
  have h := Site.propose_answeredBy parts.reply (overWeb (asking parts.signer.address) url) wallet
    chain retry call
  rw [overWeb_answeredBy, Site.asking_answeredBy] at h
  exact h.symm

/-! ### What is asked -/

/-- What is submitted in a turn, if anything is. -/
def postOf? : Turn → Option Http.Body
  | ⟨.exchange ⟨_, .empty⟩, _⟩ => none
  | ⟨.exchange ⟨_, body⟩, _⟩ => some body
  | _ => none

/-- The hash that is to be signed in a turn, if one is. -/
def signingOf? : Turn → Option Hash
  | ⟨.sign hash, _⟩ => some hash
  | _ => none

/-- **What is submitted** in some turns. -/
def posts (turns : List Turn) : List Http.Body := turns.filterMap postOf?

/-- **What is to be signed** in some turns. -/
def signings (turns : List Turn) : List Hash := turns.filterMap signingOf?

theorem posts_append (first rest : List Turn) : posts (first ++ rest) = posts first ++ posts rest :=
  List.filterMap_append

theorem signings_append (first rest : List Turn) :
    signings (first ++ rest) = signings first ++ signings rest :=
  List.filterMap_append

/-- A question in which nothing is submitted or signed. -/
def Harmless (question : Question) : Prop :=
  (∃ url, question = .exchange ⟨url, .empty⟩) ∨ ∃ time, question = .sleep time

/-- A question in which only a certain document is submitted. -/
def Submits (document : Json) (question : Question) : Prop :=
  (∃ url, question = .exchange ⟨url, .json document⟩) ∨ ∃ time, question = .sleep time

section Asking

variable {account wallet target : Address} {data : Bytes} {url : Url} {retry : Retry.Policy}
  {S : Type} {rules : Dialogue.Rules S Question Question.Answer} {s : S}

theorem sendChecked_obeys (account : Address) {request : Http.Request}
    {post : S → Except Http.Fault Http.Reply → Prop}
    (hpermits : rules.permits s (.exchange request)) (hfault : ∀ fault, post s (.error fault))
    (h : ∀ reply s', rules.answers s (.exchange request) reply s' → ∀ outcome, post s' outcome) :
    ((asking account).http.sendChecked request).Obeys rules s post := by
  rw [Http.sendChecked, Dialogue.obeys_bind, Http.send]
  split
  · refine ⟨hpermits, fun reply s' hanswer => ?_⟩
    have hpost := h reply s' hanswer
    rcases reply with - | reply
    · exact hpost _
    · change Dialogue.Obeys rules s' (if Http.isFailure reply.status = true then _ else _) post
      split <;> exact hpost _
  · exact hfault _

theorem retried_obeys {α : Type} {action : Action Talk α} {permitted : Question → Prop}
    (hsleep : ∀ time, permitted (.sleep time)) (past : List Turn)
    {post : List Turn → Except Error α → Prop}
    (hfailed : ∀ past e, post past (.error e))
    (h : ∀ past, action.Obeys (.history fun _ question => permitted question) past post) :
    (retry.run (asking account).clock action).Obeys (.history fun _ question => permitted question)
      past post := by
  refine retry.run_obeys (fun _ => True) (fun past time _ => ?_) (fun past e _ => hfailed past e)
    (fun past _ => (h past).mono ?_) trivial
  · exact ⟨hsleep time, fun _ _ _ => trivial⟩
  · rintro past (e | a) hpost
    · trivial
    · exact hpost

/-- An action that neither submits nor signs. -/
def IsHarmless {α : Type} (action : Action Talk α) : Prop :=
  ∀ past, action.Obeys (.history fun _ question => Harmless question) past fun _ _ => True

theorem IsHarmless.ofExcept {α : Type} (result : Except Error α) :
    IsHarmless (Action.ofExcept result) := fun _ => trivial

theorem IsHarmless.bind {α β : Type} {x : Action Talk α} {f : α → Action Talk β}
    (hx : IsHarmless x) (hf : ∀ a, IsHarmless (f a)) : IsHarmless (x >>= f) := by
  refine fun past => Action.obeys_bind.mpr ((hx past).mono ?_)
  rintro past (e | a) -
  · trivial
  · exact hf a past

theorem IsHarmless.retried {α : Type} {action : Action Talk α} (h : IsHarmless action) :
    IsHarmless (retry.run (asking account).clock action) := fun past =>
  retried_obeys (fun time => .inr ⟨time, rfl⟩) past (fun _ _ => trivial) h

theorem ask_harmless (address : Url) :
    IsHarmless ((Client.mk (asking account).http url).ask address) := by
  intro past
  rw [Client.ask]
  refine Action.obeys_bind.mpr (Action.obeys_lift.mpr
    (sendChecked_obeys account (.inl ⟨address, rfl⟩) ?_ ?_))
  · exact fun _ => trivial
  · rintro reply past - (fault | reply)
    · trivial
    · dsimp only
      rcases reply.plain? with - | json <;> trivial

theorem ownNonce_harmless : IsHarmless ((Client.mk (asking account).http url).ownNonce wallet) := by
  refine .bind (.ofExcept _) fun address => .bind (ask_harmless address) fun info => ?_
  split
  · exact fun _ => trivial
  · exact fun _ => trivial

theorem findPending_harmless :
    IsHarmless ((Client.mk (asking account).http url).findPending wallet target data) :=
  .bind ownNonce_harmless fun _ => .bind (.ofExcept _) fun address =>
    .bind (ask_harmless address) fun page => .ofExcept (.ok (Client.matching? page data))

theorem nextNonce_harmless :
    IsHarmless ((Client.mk (asking account).http url).nextNonce wallet) :=
  .bind ownNonce_harmless fun own => .bind (.ofExcept _) fun address =>
    .bind (ask_harmless address) fun page =>
      .ofExcept (.ok (Client.nonceAfter own (Client.firstNonce? page)))

/-- In a harmless run nothing is submitted or signed. -/
theorem IsHarmless.of_run {α : Type} {action : Action Talk α} (h : IsHarmless action)
    {turns : List Turn} {result : Except Error α} (run : Dialogue.Run action.run turns result) :
    posts turns = [] ∧ signings turns = [] := by
  have hturns := run.forall_permitted (h [])
  have hnone (turn : Turn) (hmem : turn ∈ turns) :
      postOf? turn = none ∧ signingOf? turn = none := by
    obtain ⟨question, answer⟩ := turn
    obtain ⟨address, rfl⟩ | ⟨time, rfl⟩ := hturns _ hmem
    · exact ⟨rfl, rfl⟩
    · exact ⟨rfl, rfl⟩
  exact ⟨List.filterMap_eq_nil_iff.mpr fun turn hmem => (hnone turn hmem).1,
    List.filterMap_eq_nil_iff.mpr fun turn hmem => (hnone turn hmem).2⟩

/-- A proposal is submitted as its document, once at least if that is successful. -/
theorem submit_obeys_document (account : Address) (url : Url) (retry : Retry.Policy)
    (proposal : Proposal) (past : List Turn) :
    (retry.run (asking account).clock
      ((Client.mk (asking account).http url).propose proposal)).Obeys
        (.history fun _ question => Submits (Client.document proposal) question) past
        fun past result => result = .ok () → posts past ≠ [] := by
  refine retried_obeys (fun time => .inr ⟨time, rfl⟩) past (by rintro _ _ ⟨⟩) fun past => ?_
  rw [Client.propose, Action.obeys_bind]
  rcases (Client.mk (asking account).http url).transactionsUrl proposal.wallet with e | address
  · rintro ⟨⟩
  · refine Action.obeys_bind.mpr (Action.obeys_lift.mpr
      (sendChecked_obeys account (.inl ⟨address, rfl⟩) ?_ ?_))
    · rintro fault ⟨⟩
    · rintro reply past rfl (fault | reply)
      · rintro ⟨⟩
      · rintro -
        simp [posts, postOf?]

theorem posts_of_submit {proposal : Proposal} {turns : List Turn} {result : Except Error Unit}
    (run : Dialogue.Run (retry.run (asking account).clock
      ((Client.mk (asking account).http url).propose proposal)).run turns result) :
    (∀ body ∈ posts turns, body = .json (Client.document proposal)) ∧ signings turns = [] ∧
      (result = .ok () → posts turns ≠ []) := by
  have hobeys := submit_obeys_document account url retry proposal []
  have hturns := run.forall_permitted hobeys
  refine ⟨?_, List.filterMap_eq_nil_iff.mpr ?_,
    run.post (Dialogue.Rules.history_steps _ [] turns) hobeys⟩
  · intro body hbody
    obtain ⟨⟨question, answer⟩, hmem, hpost⟩ := List.mem_filterMap.mp hbody
    obtain ⟨address, rfl⟩ | ⟨time, rfl⟩ := hturns _ hmem
    · exact (Option.some.inj hpost).symm
    · cases hpost
  · rintro ⟨question, answer⟩ hmem
    obtain ⟨address, rfl⟩ | ⟨time, rfl⟩ := hturns _ hmem
    · rfl
    · rfl

end Asking

/-! ### What is told -/

section Telling

variable (right : Url → Json → Prop)

/-- **A turn tells what is right** of the document at an address. It may also be one without a
reply, or with a reply that tells of a failure or holds no document. -/
def Tells (turn : Turn) : Prop :=
  ∀ address reply document, turn = ⟨.exchange ⟨address, .empty⟩, some reply⟩ →
    Http.isFailure reply.status = false → reply.plain? = some document → right address document

/-- The rules of a service that tells what is right. -/
def telling : Dialogue.Rules Unit Question Question.Answer where
  permits _ _ := True
  answers _ question answer _ := Tells right ⟨question, answer⟩

variable {right} {account wallet : Address} {url : Url}

theorem steps_of_tells {turns : List Turn} (h : ∀ turn ∈ turns, Tells right turn) :
    (telling right).Steps () turns () := by
  induction turns with
  | nil => exact .nil ()
  | cons turn turns ih =>
    exact .cons (h turn List.mem_cons_self) (ih fun other hother => h other (.tail _ hother))

theorem ask_telling (address : Url) : ((Client.mk (asking account).http url).ask address).Obeys
    (telling right) () (Action.Yielding fun _ document => right address document) := by
  rw [Client.ask]
  refine Action.obeys_bind.mpr (Action.obeys_lift.mpr ?_)
  rw [Http.sendChecked, Dialogue.obeys_bind, Http.send]
  split
  case isFalse => trivial
  refine ⟨trivial, fun reply _ htells => ?_⟩
  rcases reply with - | reply
  · trivial
  change Dialogue.Obeys _ _ (if Http.isFailure reply.status = true then _ else _) _
  split
  · trivial
  next hstatus =>
    -- The reply tells of no failure, so any document that it holds is right.
    have hright := fun document => htells address reply document rfl (by simpa using hstatus)
    refine Dialogue.obeys_done.mpr ?_
    rcases hplain : reply.plain? with - | document <;> simp only [hplain]
    · trivial
    · exact hright document hplain

/-- If the nonce can be read in what is right, it is what the wallet is taken to have. -/
theorem ownNonce_telling {own : BitVec 64}
    (h : ∀ address document, (Client.mk (asking account).http url).walletUrl wallet = .ok address →
      right address document → (document.member? "nonce").bind Client.nonce? = some own) :
    ((Client.mk (asking account).http url).ownNonce wallet).Obeys (telling right) ()
      (Action.Yielding fun _ nonce => nonce = own) := by
  rw [Client.ownNonce]
  rcases haddress : (Client.mk (asking account).http url).walletUrl wallet with e | address
  · trivial
  refine Action.obeys_bind_yielding.mpr (Action.obeys_bind_yielding.mpr
    ((ask_telling address).mono ?_))
  rintro s (e | document) hright
  · trivial
  · rw [Action.yielding_ok] at hright ⊢
    rw [h address document haddress hright]
    rfl

end Telling

end ProxyUpgrade.Wallet
