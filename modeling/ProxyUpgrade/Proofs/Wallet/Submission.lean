import ProxyUpgrade.Proofs.Wallet.Form
import ProxyUpgrade.Proofs.Wallet.Requests
/-!
# Submitting what is signed

A proposer over the web goes through stages: it looks whether the call waits already, asks for a
nonce, has the account sign, and submits. It may stop in each of them (`Wallet.Stages`). The same
transaction goes through all of this: the one whose hash is signed is the one that the document
tells, however often it is submitted, and nothing is submitted that was not signed
(`Wallet.submitted_as_signed`).

That is so because before the account is asked nothing is submitted and nothing is to be signed,
and after it has signed only the submission is tried again, not what goes before.
-/

namespace ProxyUpgrade.Wallet

open Site (Question Talk Turn asking)

/-! ### Runs of a proposal -/

section Runs

variable (account : Address) (url : Url) (wallet : Address) (chain : BitVec 64)
  (retry : Retry.Policy) (call : Call)

/-- Asks whether a call waits already, again after failures that the policy allows. -/
def lookingUp : Action Talk (Option Hash) :=
  retry.run (asking account).clock
    ((Client.mk (asking account).http url).findPending wallet call.target call.payload)

/-- Asks for the next nonce, again after failures that the policy allows. -/
def counting : Action Talk (BitVec 64) :=
  retry.run (asking account).clock ((Client.mk (asking account).http url).nextNonce wallet)

/-- Submits a proposal, again after failures that the policy allows. -/
def handingIn (proposal : Proposal) : Action Talk Unit :=
  retry.run (asking account).clock ((Client.mk (asking account).http url).propose proposal)

/-- The hash that is signed for a call with a nonce. -/
def hashFor (nonce : BitVec 64) : Hash := (Transaction.ofCall call nonce).signingHash chain wallet

/-- The proposal of a call with a nonce, once it is signed. -/
def proposalFor (nonce : BitVec 64) (signature : Signature) : Proposal :=
  ⟨wallet, .ofCall call nonce, hashFor wallet chain call nonce, account, signature⟩

/-- What comes after the account is asked to sign, by its answer. -/
inductive Answered (nonce : BitVec 64) :
    Except Error (Option Signature) → List Turn → Except Error Hash → Prop
  /-- The account fails. -/
  | failed (e : Error) : Answered nonce (.error e) [] (.error e)
  /-- The account has no signature. -/
  | unsigned : Answered nonce (.ok none) []
      (.error (.signatureMissing account (hashFor wallet chain call nonce)))
  /-- The account signs, and the proposal is submitted. -/
  | signed {signature : Signature} {turns : List Turn} {submitted : Except Error Unit}
      (run : Dialogue.Run (handingIn account url retry
        (proposalFor account wallet chain call nonce signature)).run turns submitted) :
    Answered nonce (.ok (some signature)) turns
      (submitted.map fun _ => hashFor wallet chain call nonce)

/-- **The runs of a proposal**, by the stage in which the proposer stops. -/
inductive Stages : List Turn → Except Error Hash → Prop
  /-- It is not found out whether the call waits. -/
  | unknown {turns : List Turn} {e : Error}
      (looked : Dialogue.Run (lookingUp account url wallet retry call).run turns (.error e)) :
    Stages turns (.error e)
  /-- The call waits. -/
  | waiting {turns : List Turn} {hash : Hash}
      (looked : Dialogue.Run (lookingUp account url wallet retry call).run turns
        (.ok (some hash))) :
    Stages turns (.ok hash)
  /-- No nonce is found. -/
  | uncounted {pending counted : List Turn} {e : Error}
      (looked : Dialogue.Run (lookingUp account url wallet retry call).run pending (.ok none))
      (counts : Dialogue.Run (counting account url wallet retry).run counted (.error e)) :
    Stages (pending ++ counted) (.error e)
  /-- The account is asked to sign. -/
  | asked {pending counted rest : List Turn} {nonce : BitVec 64}
      {answer : Except Error (Option Signature)} {result : Except Error Hash}
      (looked : Dialogue.Run (lookingUp account url wallet retry call).run pending (.ok none))
      (counts : Dialogue.Run (counting account url wallet retry).run counted (.ok nonce))
      (answered : Answered account url wallet chain retry call nonce answer rest result) :
    Stages (pending ++ (counted ++ ⟨.sign (hashFor wallet chain call nonce), answer⟩ :: rest))
      result

/-- **A call is proposed as one transaction**, with a nonce and a signature. -/
structure Proposed (turns : List Turn) (nonce : BitVec 64) (signature : Signature) : Prop where
  /-- The call does not wait, the nonce is the next one, and the account has signed. -/
  asked : ∃ pending counted rest, turns = pending ++ (counted ++
      ⟨.sign (hashFor wallet chain call nonce), .ok (some signature)⟩ :: rest) ∧
    Dialogue.Run (lookingUp account url wallet retry call).run pending (.ok none) ∧
      Dialogue.Run (counting account url wallet retry).run counted (.ok nonce)
  /-- No other hash is to be signed. -/
  signed : signings turns = [hashFor wallet chain call nonce]
  /-- All that is submitted is one document, which tells the transaction, its hash, the account and
  the signature. -/
  submitted : ∃ document, (∀ body ∈ posts turns, body = .json document) ∧
    Form.ofJson? document = some ⟨.ofCall call nonce, hashFor wallet chain call nonce, account,
      signature.bytes⟩

/-- **Only what is signed is submitted.** -/
structure SubmittedAsSigned (turns : List Turn) (result : Except Error Hash) : Prop where
  /-- Whatever is submitted proposes the call as one transaction. -/
  posted : posts turns ≠ [] →
    ∃ nonce signature, Proposed account url wallet chain retry call turns nonce signature
  /-- A hash that is handed on is the one of a transaction that waits, or the one that was signed
  for what has been submitted. -/
  handedOn : ∀ hash, result = .ok hash →
    Dialogue.Run (lookingUp account url wallet retry call).run turns (.ok (some hash)) ∨
      posts turns ≠ [] ∧ ∃ nonce signature,
        Proposed account url wallet chain retry call turns nonce signature ∧
          hash = hashFor wallet chain call nonce
  /-- If the account has no signature for a hash, nothing is submitted and no other signature is
  asked for. -/
  unsigned : ∀ hash, ⟨.sign hash, .ok none⟩ ∈ turns →
    result = .error (.signatureMissing account hash) ∧ posts turns = [] ∧ signings turns = [hash] ∧
      ∃ nonce, hash = hashFor wallet chain call nonce

variable {account url wallet chain retry call}

theorem mem_signings {turns : List Turn} {hash : Hash} {answer : Except Error (Option Signature)}
    (h : ⟨.sign hash, answer⟩ ∈ turns) : hash ∈ signings turns :=
  List.mem_filterMap.mpr ⟨_, h, rfl⟩

/-- An account is asked once for a signature. -/
theorem signed_run_cases {service : Service Talk} {nonce : BitVec 64} {turns : List Turn}
    {result : Except Error Proposal}
    (run : Dialogue.Run (Proposer.signed ⟨service, wallet, chain, retry⟩ (asking account).signer
      (.ofCall call nonce)).run turns result) :
    ∃ answer, turns = [⟨.sign (hashFor wallet chain call nonce), answer⟩] ∧
      result = match answer with
        | .error e => .error e
        | .ok none => .error (.signatureMissing account (hashFor wallet chain call nonce))
        | .ok (some signature) => .ok (proposalFor account wallet chain call nonce signature) := by
  obtain ⟨first, answer, rest, rfl, hfirst, hrest⟩ := Action.exists_run_of_bind run
  obtain rfl := Dialogue.run_question.mp hfirst
  refine ⟨answer, ?_⟩
  rcases answer with e | _ | signature
  · obtain ⟨rfl, rfl⟩ := hrest
    exact ⟨rfl, rfl⟩
  · cases hrest
    exact ⟨rfl, rfl⟩
  · cases hrest
    exact ⟨rfl, rfl⟩

theorem stages_of_run {turns : List Turn} {result : Except Error Hash}
    (run : Dialogue.Run (submitting (asking account) url wallet chain retry call).run turns
      result) : Stages account url wallet chain retry call turns result := by
  obtain ⟨pending, found, afterwards, rfl, hpending, hafterwards⟩ := Action.exists_run_of_bind run
  rcases found with e | _ | hash
  · obtain ⟨rfl, rfl⟩ := hafterwards
    rw [List.append_nil]
    exact .unknown hpending
  · obtain ⟨counted, nonce, afterwards, rfl, hcounted, hafterwards⟩ :=
      Action.exists_run_of_bind hafterwards
    rcases nonce with e | nonce
    · obtain ⟨rfl, rfl⟩ := hafterwards
      rw [List.append_nil]
      exact .uncounted hpending hcounted
    · obtain ⟨signing, proposal, rest, rfl, hsigning, hrest⟩ :=
        Action.exists_run_of_bind hafterwards
      obtain ⟨answer, rfl, rfl⟩ := signed_run_cases hsigning
      refine .asked hpending hcounted ?_
      rcases answer with e | _ | signature
      · obtain ⟨rfl, rfl⟩ := hrest
        exact .failed e
      · obtain ⟨rfl, rfl⟩ := hrest
        exact .unsigned
      · obtain ⟨submitting, submitted, idle, rfl, hsubmitting, hidle⟩ :=
          Action.exists_run_of_bind hrest
        obtain ⟨rfl, rfl⟩ : idle = [] ∧ result = submitted.map fun _ =>
            hashFor wallet chain call nonce := by
          rcases submitted with e | ⟨⟩
          · exact hidle
          · cases hidle
            exact ⟨rfl, rfl⟩
        rw [List.append_nil]
        exact .signed hsubmitting
  · cases hafterwards
    rw [List.append_nil]
    exact .waiting hpending

theorem Answered.run {nonce : BitVec 64} {answer : Except Error (Option Signature)}
    {rest : List Turn} {result : Except Error Hash}
    (h : Answered account url wallet chain retry call nonce answer rest result) :
    Dialogue.Run (do
      let proposal ← Proposer.signed ⟨(overWeb (asking account) url).service, wallet, chain, retry⟩
        (asking account).signer (.ofCall call nonce)
      handingIn account url retry proposal
      pure proposal.hash : Action Talk Hash).run
        ([⟨.sign (hashFor wallet chain call nonce), answer⟩] ++ rest) result := by
  have hsign := Site.sign_run account (hashFor wallet chain call nonce) answer
  cases h with
  | failed e => exact Action.run_bind_error (Action.run_bind_error hsign)
  | unsigned => exact Action.run_bind_error (Action.run_yield hsign rfl)
  | @signed signature turns submitted run =>
    have hsigned : Dialogue.Run (Proposer.signed
        ⟨(overWeb (asking account) url).service, wallet, chain, retry⟩ (asking account).signer
        (.ofCall call nonce)).run _ (.ok (proposalFor account wallet chain call nonce signature)) :=
      Action.run_yield hsign rfl
    refine Action.run_bind hsigned ?_
    rcases submitted with e | ⟨⟩
    · exact Action.run_bind_error run
    · exact Action.run_yield run rfl

/-- **The proposer goes through its stages**, and may stop in each of them. -/
theorem submitting_run_iff {turns : List Turn} {result : Except Error Hash} :
    Dialogue.Run (submitting (asking account) url wallet chain retry call).run turns result ↔
      Stages account url wallet chain retry call turns result := by
  refine ⟨stages_of_run, fun h => ?_⟩
  cases h with
  | unknown looked => exact Action.run_bind_error looked
  | waiting looked => exact Action.run_yield looked rfl
  | uncounted looked counts => exact Action.run_bind looked (Action.run_bind_error counts)
  | asked looked counts answered =>
    exact Action.run_bind looked (Action.run_bind counts answered.run)

/-! ### What is submitted, and what is signed -/

/-- Before an account is asked for a signature nothing is submitted, and it is not asked for
another one. -/
theorem turns_of_signing {pending counted rest : List Turn} {nonce : BitVec 64} (hash : Hash)
    (answer : Except Error (Option Signature))
    (hpending : Dialogue.Run (lookingUp account url wallet retry call).run pending (.ok none))
    (hcounted : Dialogue.Run (counting account url wallet retry).run counted (.ok nonce))
    (hrest : signings rest = []) :
    posts (pending ++ (counted ++ ⟨.sign hash, answer⟩ :: rest)) = posts rest ∧
      signings (pending ++ (counted ++ ⟨.sign hash, answer⟩ :: rest)) = [hash] ∧
      ∀ hash' answer', ⟨.sign hash', answer'⟩ ∈
        pending ++ (counted ++ ⟨.sign hash, answer⟩ :: rest) → hash' = hash ∧ answer' = answer := by
  have hquiet := findPending_harmless.retried.of_run hpending
  have hquiet' := nextNonce_harmless.retried.of_run hcounted
  have hposts : posts (⟨.sign hash, answer⟩ :: rest) = posts rest := rfl
  have hsignings : signings (⟨.sign hash, answer⟩ :: rest) = hash :: signings rest := rfl
  refine ⟨?_, ?_, fun hash' answer' hmem => ?_⟩
  · rw [posts_append, posts_append, hquiet.1, hquiet'.1, hposts]
    rfl
  · rw [signings_append, signings_append, hquiet.2, hquiet'.2, hsignings, hrest]
    rfl
  · have hnone {turns : List Turn} (h : signings turns = []) : ⟨.sign hash', answer'⟩ ∉ turns :=
      fun hmem => by simpa [h] using mem_signings hmem
    simp only [List.mem_append, List.mem_cons, hnone hquiet.2, hnone hquiet'.2, hnone hrest,
      false_or, or_false] at hmem
    cases hmem
    exact ⟨rfl, rfl⟩

/-- Where the account is not asked to sign, nothing is submitted. -/
theorem submittedAsSigned_of_quiet {turns : List Turn} {result : Except Error Hash}
    (hquiet : posts turns = [] ∧ signings turns = [])
    (hfound : ∀ hash, result = .ok hash →
      Dialogue.Run (lookingUp account url wallet retry call).run turns (.ok (some hash))) :
    SubmittedAsSigned account url wallet chain retry call turns result where
  posted hposts := absurd hquiet.1 hposts
  handedOn hash hresult := .inl (hfound hash hresult)
  unsigned hash hmem := by
    have hsigned := mem_signings hmem
    rw [hquiet.2] at hsigned
    cases hsigned

/-- Where the account is asked to sign, its answer decides. -/
theorem submittedAsSigned_of_answered {pending counted rest : List Turn} {nonce : BitVec 64}
    {answer : Except Error (Option Signature)} {result : Except Error Hash}
    (hpending : Dialogue.Run (lookingUp account url wallet retry call).run pending (.ok none))
    (hcounted : Dialogue.Run (counting account url wallet retry).run counted (.ok nonce))
    (h : Answered account url wallet chain retry call nonce answer rest result) :
    SubmittedAsSigned account url wallet chain retry call
      (pending ++ (counted ++ ⟨.sign (hashFor wallet chain call nonce), answer⟩ :: rest))
      result := by
  have hnothing : signings [] = [] := rfl
  cases h with
  | failed e =>
    obtain ⟨hposts, -, honly⟩ := turns_of_signing _ (.error e) hpending hcounted hnothing
    refine ⟨fun h => absurd hposts h, by rintro _ ⟨⟩, fun hash hmem => ?_⟩
    cases (honly hash _ hmem).2
  | unsigned =>
    obtain ⟨hposts, hsignings, honly⟩ := turns_of_signing _ (.ok none) hpending hcounted hnothing
    refine ⟨fun h => absurd hposts h, by rintro _ ⟨⟩, fun hash hmem => ?_⟩
    obtain rfl := (honly hash _ hmem).1
    exact ⟨rfl, hposts, hsignings, nonce, rfl⟩
  | @signed signature turns submitted run =>
    obtain ⟨hbodies, hunsigned, hposted⟩ := posts_of_submit run
    obtain ⟨hposts, hsignings, honly⟩ :=
      turns_of_signing _ (.ok (some signature)) hpending hcounted hunsigned
    have hproposed : Proposed account url wallet chain retry call _ nonce signature :=
      ⟨⟨pending, counted, rest, rfl, hpending, hcounted⟩, hsignings, _, hposts.symm ▸ hbodies,
        Form.ofJson?_document _⟩
    refine ⟨fun _ => ⟨nonce, signature, hproposed⟩, fun hash hresult => .inr ?_,
      fun hash hmem => ?_⟩
    · rw [hposts]
      rcases submitted with e | ⟨⟩
      · cases hresult
      · cases hresult
        exact ⟨hposted rfl, nonce, signature, hproposed, rfl⟩
    · cases (honly hash _ hmem).2

end Runs

section Whole

variable (account : Address) (url : Url) (wallet : Address) (chain : BitVec 64)
  (retry : Retry.Policy) (call : Call)

/-- **What is submitted is what was signed.** The proposer does the same whatever answers it. Its
runs are those that go through the stages in turn, and of each of them the following holds.

* If anything is submitted, the call did not wait, a nonce was found, the account signed, and the
  document that is submitted, however often, tells just the transaction whose hash was signed.
* A hash that is handed on is the one of a transaction that waits, or the one that was signed.
* If the account has no signature for a hash, that is what the failure says, nothing is submitted,
  and no other signature is asked for. -/
theorem submitted_as_signed :
    (∀ {m : Type → Type} [Monad m] [LawfulMonad m] (parts : Site.Parts m),
      parts.signer.address = account →
        submitting parts url wallet chain retry call = Action.answeredBy parts.reply
          (submitting (asking account) url wallet chain retry call)) ∧
    ∀ turns result,
      (Dialogue.Run (submitting (asking account) url wallet chain retry call).run turns result ↔
        Stages account url wallet chain retry call turns result) ∧
      (Dialogue.Run (submitting (asking account) url wallet chain retry call).run turns result →
        SubmittedAsSigned account url wallet chain retry call turns result) := by
  refine ⟨?_, fun turns result => ⟨submitting_run_iff, fun run => ?_⟩⟩
  · rintro m _ _ parts rfl
    exact submitting_eq_answeredBy parts url wallet chain retry call
  cases submitting_run_iff.mp run with
  | unknown looked =>
    exact submittedAsSigned_of_quiet (findPending_harmless.retried.of_run looked) (by rintro _ ⟨⟩)
  | waiting looked =>
    refine submittedAsSigned_of_quiet (findPending_harmless.retried.of_run looked) ?_
    rintro _ ⟨⟩
    exact looked
  | @uncounted pending counted e looked counts =>
    obtain ⟨hposts, hsignings⟩ := findPending_harmless.retried.of_run looked
    obtain ⟨hposts', hsignings'⟩ := nextNonce_harmless.retried.of_run counts
    have hquiet : posts (pending ++ counted) = [] ∧ signings (pending ++ counted) = [] := by
      rw [posts_append, signings_append, hposts, hposts', hsignings, hsignings']
      exact ⟨rfl, rfl⟩
    exact submittedAsSigned_of_quiet hquiet (by rintro _ ⟨⟩)
  | asked looked counts answered => exact submittedAsSigned_of_answered looked counts answered

end Whole

/-! ### A proposal whose first submission is lost -/

section Example

variable {account : Address} {http : Http Talk} {url address : Url} {json : Json}
  {nonce : BitVec 64}

/-- What is made of the answer to a request. -/
def received (address : Url) : Option Http.Reply → Except Http.Fault Http.Reply
  | none => .error (.noReply address)
  | some reply =>
    if Http.isFailure reply.status then .error (.refused reply.status reply.reason address)
    else .ok reply

theorem sendChecked_run {request : Http.Request}
    (hscheme : Http.schemes.contains request.url.scheme = true) (answer : Option Http.Reply) :
    Dialogue.Run ((asking account).http.sendChecked request) [⟨.exchange request, answer⟩]
      (received request.url answer) := by
  rw [Http.sendChecked, Http.send, if_pos hscheme]
  apply Dialogue.Run.ask
  rcases answer with - | reply
  · exact .done _
  · change Dialogue.Run (if Http.isFailure reply.status = true then _ else _) [] _
    rw [received]
    split <;> exact .done _

theorem ask_run (hscheme : Http.schemes.contains address.scheme = true) {reply : Http.Reply}
    (hreceived : received address (some reply) = .ok reply) (hjson : reply.plain? = some json) :
    Dialogue.Run ((Client.mk (asking account).http url).ask address).run
      [⟨.exchange ⟨address, .empty⟩, some reply⟩] (.ok json) := by
  have hsent : Dialogue.Run ((asking account).http.sendChecked ⟨address, .empty⟩)
      [⟨.exchange ⟨address, .empty⟩, some reply⟩] (.ok reply) :=
    hreceived ▸ sendChecked_run hscheme (some reply)
  refine Action.run_yield (Action.run_lift hsent) ?_
  dsimp only
  rw [hjson]
  rfl

theorem propose_run {proposal : Proposal}
    (haddress : (Client.mk (asking account).http url).transactionsUrl proposal.wallet = .ok address)
    (hscheme : Http.schemes.contains address.scheme = true) (answer : Option Http.Reply) :
    Dialogue.Run ((Client.mk (asking account).http url).propose proposal).run
      [⟨.exchange ⟨address, .json (Client.document proposal)⟩, answer⟩]
      (match received address answer with
        | .ok _ => .ok ()
        | .error fault => .error (fault.toError .multisig)) := by
  have hsent : Dialogue.Run ((asking account).http.sendChecked
      ⟨address, .json (Client.document proposal)⟩) _ (received address answer) :=
    sendChecked_run hscheme answer
  refine Action.run_bind_ofExcept haddress (Action.run_yield (Action.run_lift hsent) ?_)
  rcases received address answer <;> rfl

/-- A service on the same machine. -/
def localService : Url := ⟨"http".toList, none, .segments [], none, none⟩

/-- What the service has under some names. -/
def localBelow (names : List String) : Url :=
  { localService with location := .segments (names.map String.toList) }

/-- A reply that tells the nonce of a wallet, and lists nothing. -/
def emptyReply : Http.Reply := ⟨200, "OK", "\x7b\"nonce\":7\x7d", true⟩

theorem emptyReply_plain : ∃ json, emptyReply.plain? = some json ∧
    (json.member? "nonce").bind Client.nonce? = some 7 ∧ Client.results json = [] := by
  have h : (emptyReply.plain?.map fun json =>
      ((json.member? "nonce").bind Client.nonce?, (Client.results json).isEmpty)) =
        some (some 7, true) := by decide +kernel
  obtain ⟨json, hjson, hfacts⟩ := Option.map_eq_some_iff.mp h
  obtain ⟨hnonce, hresults⟩ := Prod.mk.inj hfacts
  exact ⟨json, hjson, hnonce, List.isEmpty_iff.mp hresults⟩

/-- The service tells a wallet's nonce. -/
def infoTurn (wallet : Address) : Turn :=
  ⟨.exchange ⟨localBelow (Client.walletNames wallet ++ [""]), .empty⟩, some emptyReply⟩

/-- The transactions of a wallet that wait. -/
def localQueue (wallet : Address) (more : List (String × String)) : Url :=
  (localBelow (Client.walletNames wallet ++ ["multisig-transactions", ""])).withPairs
    ([("executed", "false"), ("nonce__gte", "7"), ("ordering", "-nonce")] ++ more)

/-- The service lists none of the transactions that are asked for. -/
def queueTurn (wallet : Address) (more : List (String × String)) : Turn :=
  ⟨.exchange ⟨localQueue wallet more, .empty⟩, some emptyReply⟩

section Local

variable (account wallet : Address)

theorem local_ownNonce_run :
    Dialogue.Run ((Client.mk (asking account).http localService).ownNonce wallet).run
      [infoTurn wallet] (.ok 7) := by
  obtain ⟨json, hjson, hnonce, -⟩ := emptyReply_plain
  have hasked : Dialogue.Run ((Client.mk (asking account).http localService).ask
      (localBelow (Client.walletNames wallet ++ [""]))).run [infoTurn wallet] (.ok json) :=
    ask_run rfl rfl hjson
  refine Action.run_bind_ofExcept (a := localBelow (Client.walletNames wallet ++ [""])) rfl
    (Action.run_yield hasked ?_)
  rw [hnonce]
  rfl

theorem local_queue_run {α : Type} {next : BitVec 64 → Json → α} {more : List (String × String)}
    {result : α} (h : ∀ page, Client.results page = [] → next 7 page = result) :
    Dialogue.Run (do
      let own ← (Client.mk (asking account).http localService).ownNonce wallet
      let page ← (Client.mk (asking account).http localService).ask (← Action.ofExcept
        ((Client.mk (asking account).http localService).queueUrl wallet own more))
      pure (next own page) : Action Talk α).run [infoTurn wallet, queueTurn wallet more]
        (.ok result) := by
  obtain ⟨json, hjson, -, hresults⟩ := emptyReply_plain
  have hasked : Dialogue.Run ((Client.mk (asking account).http localService).ask
      (localQueue wallet more)).run [queueTurn wallet more] (.ok json) :=
    ask_run (congrArg Http.schemes.contains (Url.withPairs_scheme _ _)) rfl hjson
  refine Action.run_bind (local_ownNonce_run account wallet)
    (Action.run_bind_ofExcept (a := localQueue wallet more) rfl (Action.run_yield hasked ?_))
  rw [h json hresults]
  rfl

variable (chain : BitVec 64) (call : Call) (signature : Signature)

/-- A request that submits it. -/
def localSubmission : Http.Request :=
  ⟨localBelow (Client.walletNames wallet ++ ["multisig-transactions", ""]),
    .json (Client.document (proposalFor account wallet chain call 7 signature))⟩

/-- The turns in which it is submitted; the first reply is lost. -/
def localSubmissions : List Turn :=
  [⟨.exchange (localSubmission account wallet chain call signature), none⟩, ⟨.sleep 5, ()⟩,
    ⟨.exchange (localSubmission account wallet chain call signature), some emptyReply⟩]

theorem localSubmissions_run :
    Dialogue.Run (handingIn account localService (.transient 3 5)
      (proposalFor account wallet chain call 7 signature)).run
      (localSubmissions account wallet chain call signature) (.ok ()) := by
  have hlost : Dialogue.Run ((Client.mk (asking account).http localService).propose
      (proposalFor account wallet chain call 7 signature)).run _ (.error (.network _)) :=
    propose_run rfl rfl none
  have hheard : Dialogue.Run ((Client.mk (asking account).http localService).propose
      (proposalFor account wallet chain call 7 signature)).run _ (.ok ()) :=
    propose_run rfl rfl (some emptyReply)
  have hattempts : (Retry.Policy.transient 3 5).Attempts (asking account).clock
      ((Client.mk (asking account).http localService).propose
        (proposalFor account wallet chain call 7 signature))
      (1 + 1) 1 (_ ++ ([⟨.sleep 5, ()⟩] ++ _)) (.ok ()) :=
    .again hlost rfl (Site.sleep_run account 5) (.last hheard (by rintro _ ⟨⟩))
  exact Retry.Policy.run_iff_attempts.mpr hattempts

/-- The turns in which a call is proposed, with the answer of the account that is asked to sign. -/
def localTurns (answer : Option Signature) (rest : List Turn) : List Turn :=
  [infoTurn wallet, queueTurn wallet [("to", call.target.checksum)]] ++
    ([infoTurn wallet, queueTurn wallet [("limit", "1")]] ++
      (⟨.sign (hashFor wallet chain call 7), .ok answer⟩ :: rest))

/-- The account is asked once the service has told that nothing waits, and the nonce. -/
theorem localTurns_run {answer : Option Signature} {rest : List Turn} {result : Except Error Hash}
    (h : Answered account localService wallet chain (.transient 3 5) call 7 (.ok answer) rest
      result) :
    Dialogue.Run (submitting (asking account) localService wallet chain (.transient 3 5) call).run
      (localTurns wallet chain call answer rest) result := by
  have hlooked : Dialogue.Run
      (lookingUp account localService wallet (.transient 3 5) call).run _ (.ok none) :=
    Retry.Policy.run_of_ok (local_queue_run account wallet fun page hpage => by
      rw [Client.matching?, hpage]
      rfl)
  have hcounted : Dialogue.Run
      (counting account localService wallet (.transient 3 5)).run _ (.ok 7) :=
    Retry.Policy.run_of_ok (local_queue_run account wallet fun page hpage => by
      rw [Client.firstNonce?, hpage]
      rfl)
  exact submitting_run_iff.mpr (.asked hlooked hcounted h)

end Local

/-- An owner of a wallet. -/
def owner : Address := .ofNat 2

/-- A wallet. -/
def sharedWallet : Address := .ofNat 3

/-- A call that the wallet is to make. -/
def sharedCall : Call := ⟨.ofNat 4, [1, 2, 3, 4], "initialize()", 0⟩

/-- The signature of the owner. -/
def ownerSignature : Signature := ⟨5, 6, false⟩

/-- The turns in which the call is submitted twice. -/
def submittedTurns : List Turn :=
  localTurns sharedWallet 1 sharedCall (some ownerSignature)
    (localSubmissions owner sharedWallet 1 sharedCall ownerSignature)

/-- The turns in which the owner does not sign. -/
def unsignedTurns : List Turn := localTurns sharedWallet 1 sharedCall none []

theorem submitted_as_signed_lost :
    (Dialogue.Run (submitting (asking owner) localService sharedWallet 1 (.transient 3 5)
        sharedCall).run submittedTurns (.ok (hashFor sharedWallet 1 sharedCall 7)) ∧
      (posts submittedTurns).length = 2 ∧
      SubmittedAsSigned owner localService sharedWallet 1 (.transient 3 5) sharedCall
        submittedTurns (.ok (hashFor sharedWallet 1 sharedCall 7))) ∧
    Dialogue.Run (submitting (asking owner) localService sharedWallet 1 (.transient 3 5)
        sharedCall).run unsignedTurns
        (.error (.signatureMissing owner (hashFor sharedWallet 1 sharedCall 7))) ∧
      SubmittedAsSigned owner localService sharedWallet 1 (.transient 3 5) sharedCall
        unsignedTurns (.error (.signatureMissing owner (hashFor sharedWallet 1 sharedCall 7))) := by
  have hsubmitted : Dialogue.Run _ submittedTurns _ :=
    localTurns_run owner sharedWallet 1 sharedCall
      (.signed (localSubmissions_run owner sharedWallet 1 sharedCall ownerSignature))
  have hunsigned : Dialogue.Run _ unsignedTurns _ :=
    localTurns_run owner sharedWallet 1 sharedCall .unsigned
  have hlaw := (submitted_as_signed owner localService sharedWallet 1 (.transient 3 5)
    sharedCall).2
  exact ⟨⟨hsubmitted, rfl, (hlaw _ _).2 hsubmitted⟩, hunsigned, (hlaw _ _).2 hunsigned⟩

end Example

end ProxyUpgrade.Wallet
