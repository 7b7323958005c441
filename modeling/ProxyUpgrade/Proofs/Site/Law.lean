import ProxyUpgrade.Proofs.Site.Answering
import ProxyUpgrade.Proofs.Site.Steps
/-!
# Chains that follow a law

What a deployment does depends on what becomes of the contracts it creates. Two deployments can only
be compared if the chain does the same for both, so here it follows a law (`Site.Law`): from the
state of the chain it is settled where the next contract goes, and what a contract answers to a call
that changes nothing. Neither depends on the registry or on the history.

* `Site.lawful` – the chain follows the law; anything may fail.
* `Site.obliging` – the chain follows the law, and everybody does what is asked. No call may be
  sent.
-/

namespace ProxyUpgrade.Site

/-! ### Laws -/

/-- What a ledger says of the chain alone. -/
def Ledger.chain (s : Ledger) : Ledger := { s with table := .empty, manifest := [] }

/-- Where the next contract goes, which code it has then, and what it keeps in its slot. -/
structure Birth where
  address : Address
  runtime : Bytes
  slot : Address

/-- **The law of a chain.** -/
structure Law where
  /-- What becomes of a contract that is created. -/
  birth : (chain : Ledger) → (code : Bytes) → Birth
  /-- What a contract answers to a call that changes nothing, if it answers at all. -/
  view : (chain : Ledger) → (target : Address) → (data : Bytes) → Option Bytes

variable (site : Site) (law : Law) (files : Path → Except Files.Fault String)

/-- The ledger after a creation. -/
def Law.born (s : Ledger) (purpose : Purpose) (code : Bytes) : Ledger :=
  let birth := law.birth s.chain code
  s.create ⟨birth.address, code, purpose⟩ birth.runtime birth.slot

/-- A call that changes nothing, as a request. -/
def callQuery (target : Address) (data : Bytes) : Http.Request :=
  site.query "eth_call"
    [.object [("data", data.toJson), ("to", target.toJson)], Node.latest]

/-- What a reply says that a contract has answered. -/
def callIn (reply : Option Http.Reply) : Except Error Bytes :=
  site.understood "eth_call" Bytes.ofJson? reply

/-- **An answer follows the law.** -/
def Follows (s : Ledger) : (question : Question) → question.Answer → Ledger → Prop
  | .exchange request, reply, _ => ∀ target data bytes, request = site.callQuery target data →
    site.callIn reply = .ok bytes → law.view s.chain target data = some bytes
  | .create purpose code, answer, s' => ∀ address, reported answer = some address →
    address = (law.birth s.chain code).address ∧ s' = law.born s purpose code
  | _, _, _ => True

/-- **What is asked for is done**: contracts are created, answers of contracts are passed on, and
hashes are signed. -/
def Obliges (s : Ledger) : (question : Question) → question.Answer → Prop
  | .exchange request, reply => ∀ target data bytes, request = site.callQuery target data →
    law.view s.chain target data = some bytes → site.callIn reply = .ok bytes
  | .create .., answer => ∃ address, reported answer = some address
  | .sign _, answer => ∃ signature, answer = .ok (some signature)
  | _, _ => True

/-! ### Rules -/

/-- The rules of a site whose chain follows a law. Anything may fail, except that files stay as they
are and that there never is code at the address zero. -/
def lawful : Dialogue.Rules Ledger Question Question.Answer where
  permits _ _ := True
  answers s question answer s' :=
    (site.steady files).answers s question answer s' ∧ site.Follows law s question answer s'

theorem lawful_honest : site.Honest (site.lawful law files) False where
  permits _ := trivial
  answers h := (site.steady_honest files).answers h.1
  answered := False.elim
  reachable := False.elim

/-- A contract may be created where the law has a place for it, and no call may be sent. -/
def MayOblige (s : Ledger) : Question → Prop
  | .create purpose code =>
    s.Creates ⟨(law.birth s.chain code).address, code, purpose⟩ (law.born s purpose code)
  | .send _ => False
  | _ => True

/-- The rules of a site whose chain follows a law, and where everybody does what is asked. -/
def obliging : Dialogue.Rules Ledger Question Question.Answer where
  permits s question := MayOblige law s question
  answers s question answer s' :=
    (site.calm files).answers s question answer s' ∧ site.Follows law s question answer s' ∧
      site.Obliges law s question answer

variable {site law files}

theorem obliging_honest (hreachable : site.Reachable) :
    site.Honest (site.obliging law files) True where
  permits {s question} h := by cases question <;> trivial
  answers h := (site.calm_honest files hreachable).answers h.1
  answered hanswering _ _ _ _ h := (site.calm_honest files hreachable).answered hanswering h.1
  reachable _ := hreachable

/-- Whoever obliges creates what is to be created. -/
theorem obliging_creates {s s' : Ledger} {purpose : Purpose} {code : Bytes}
    {answer : Except Error Receipt}
    (hanswer : (site.obliging law files).answers s (.create purpose code) answer s') :
    ∃ address, reported answer = some address := hanswer.2.2

/-! ### Answers -/

theorem callQuery_injective {target other : Address} {data data' : Bytes}
    (h : site.callQuery target data = site.callQuery other data') :
    target = other ∧ data = data' := by
  simp only [callQuery, query, Node.document, Address.toJson, Bytes.toJson, Http.Request.mk.injEq,
    Http.Body.json.injEq, Json.object.injEq, List.cons.injEq, Prod.mk.injEq, Json.array.injEq,
    Json.string.injEq, true_and, and_true] at h
  obtain ⟨hdata, htarget⟩ := h
  have hdecoded := congrArg Hex.decode? hdata
  rw [Hex.decode?_encode, Hex.decode?_encode, Option.some.injEq] at hdecoded
  exact ⟨Address.toHex_injective htarget, hdecoded⟩

theorem codeQuery_ne_callQuery {address target : Address} {data : Bytes} :
    site.codeQuery address ≠ site.callQuery target data := by
  simp [codeQuery, callQuery, query, Node.document]

theorem slotQuery_ne_callQuery {proxy target : Address} {data : Bytes} :
    site.slotQuery proxy ≠ site.callQuery target data := by
  simp [slotQuery, callQuery, query, Node.document]

theorem callIn_replyOf (bytes : Bytes) : site.callIn (some (Node.replyOf bytes)) = .ok bytes := by
  rw [callIn, understood_replyOf, Node.formed_bytes]

/-- Of a call that changes nothing, a node may say what the law says. -/
theorem exists_reply_call (site : Site) (law : Law) (s : Ledger) (target : Address) (data : Bytes) :
    ∃ reply, ∀ bytes,
      site.callIn reply = .ok bytes ↔ law.view s.chain target data = some bytes := by
  rcases hview : law.view s.chain target data with - | bytes
  · obtain ⟨e, hnothing⟩ : ∃ e, site.callIn none = .error e := ⟨_, rfl⟩
    exact ⟨none, fun bytes => by simp [hnothing]⟩
  · refine ⟨some (Node.replyOf bytes), fun other => ?_⟩
    rw [callIn_replyOf, Except.ok.injEq, Option.some.injEq]

/-- What is said of a call says nothing of the chain. -/
theorem truthful_call {s : Ledger} {target : Address} {data : Bytes} (reply : Option Http.Reply) :
    site.Truthful s (site.callQuery target data) reply where
  code _ _ h := absurd h.symm codeQuery_ne_callQuery
  slot _ _ h := absurd h.symm slotQuery_ne_callQuery

/-- **There is a reply to every request** that follows the law and obliges. -/
theorem exists_reply_obliging (site : Site) (law : Law) (s : Ledger) (request : Http.Request) :
    ∃ reply, site.Truthful s request reply ∧ site.Answered (.exchange request) reply ∧
      site.Follows law s (.exchange request) reply s ∧
      site.Obliges law s (.exchange request) reply := by
  by_cases hcall : ∃ target data, request = site.callQuery target data
  · obtain ⟨target, data, rfl⟩ := hcall
    obtain ⟨reply, hreply⟩ := exists_reply_call site law s target data
    refine ⟨reply, truthful_call reply, ⟨?_, ?_⟩, ?_, ?_⟩
    · exact fun _ h => absurd h.symm codeQuery_ne_callQuery
    · exact fun _ h => absurd h.symm slotQuery_ne_callQuery
    · rintro _ _ bytes hquery hbytes
      obtain ⟨rfl, rfl⟩ := callQuery_injective hquery
      exact (hreply bytes).mp hbytes
    · rintro _ _ bytes hquery hbytes
      obtain ⟨rfl, rfl⟩ := callQuery_injective hquery
      exact (hreply bytes).mpr hbytes
  · -- What is no such call is not touched by the law.
    obtain ⟨reply, htrue, hanswered⟩ := site.exists_reply s request
    exact ⟨reply, htrue, hanswered, fun target data _ h => absurd ⟨target, data, h⟩ hcall,
      fun target data _ h => absurd ⟨target, data, h⟩ hcall⟩

/-- **Everybody may do what is asked.** -/
theorem obliging_answers (site : Site) (law : Law) (files : Path → Except Files.Fault String)
    (s : Ledger) (question : Question) (h : MayOblige law s question) :
    ∃ answer s', (site.obliging law files).answers s question answer s' := by
  obtain ⟨answer, s', hcalm⟩ := site.calm_answers files s question
  cases question with
  | exchange request =>
    obtain ⟨reply, htrue, hanswered, hfollows, hobliges⟩ :=
      site.exists_reply_obliging law s request
    exact ⟨reply, s, ⟨⟨rfl, htrue⟩, trivial, hanswered⟩, hfollows, hobliges⟩
  | create purpose code =>
    -- The receipt tells the address that the law has settled.
    refine ⟨.ok ⟨.zero, none, some (law.birth s.chain code).address, true⟩,
      law.born s purpose code, ⟨h, trivial, trivial⟩, ?_, _, rfl⟩
    rintro _ ⟨⟩
    exact ⟨rfl, rfl⟩
  | send call => exact h.elim
  | sign hash =>
    exact ⟨.ok (some ⟨0, 0, false⟩), s, ⟨rfl, trivial, trivial⟩, trivial, _, rfl⟩
  | _ => exact ⟨answer, s', hcalm, trivial, trivial⟩

section Lawful

variable {s : Ledger} (hzero : s.code .zero = [])
include hzero

/-- A node that tells the code at an address follows every law. -/
theorem lawful_code (address : Address) : (site.lawful law files).answers s
    (.exchange (site.codeQuery address)) (some (Node.replyOf (s.code address))) s :=
  ⟨⟨⟨rfl, truthful_code address⟩, trivial, hzero⟩,
    fun _ _ _ h => absurd h codeQuery_ne_callQuery⟩

theorem lawful_slot (proxy : Address) : (site.lawful law files).answers s
    (.exchange (site.slotQuery proxy)) (some (Node.replyOf (s.slot proxy).bytes)) s :=
  ⟨⟨⟨rfl, truthful_slot proxy⟩, trivial, hzero⟩,
    fun _ _ _ h => absurd h slotQuery_ne_callQuery⟩

/-- What a contract answers is passed on. -/
theorem lawful_call {target : Address} {data bytes : Bytes}
    (hview : law.view s.chain target data = some bytes) : (site.lawful law files).answers s
      (.exchange (site.callQuery target data)) (some (Node.replyOf bytes)) s := by
  refine ⟨⟨⟨rfl, truthful_call _⟩, trivial, hzero⟩, ?_⟩
  rintro _ _ other hquery hother
  obtain ⟨rfl, rfl⟩ := callQuery_injective hquery
  rw [callIn_replyOf] at hother
  exact Except.ok.inj hother ▸ hview

end Lawful

/-! ### Checks of an implementation -/

/-- **An implementation is accepted**: it says that it can be upgraded itself. -/
def Law.Accepts (law : Law) (s : Ledger) (candidate : Address) : Prop :=
  ∃ answer, law.view s.chain candidate (Abi.selector Node.Proxies.uuidSignature) = some answer ∧
    Node.Proxies.uuid? answer = some Node.implementationSlot

theorem verdict_eq_ok {proxy candidate : Address} {artifact : Artifact}
    {answer : Except Error Bytes} : Node.Proxies.verdict proxy candidate artifact answer = .ok () ↔
      ∃ bytes, answer = .ok bytes ∧ Node.Proxies.uuid? bytes = some Node.implementationSlot := by
  rcases answer with e | bytes
  · cases e <;> simp [Node.Proxies.verdict]
  · rcases huuid : Node.Proxies.uuid? bytes with - | uuid
    · simp [Node.Proxies.verdict, huuid]
    · by_cases hslot : uuid = Node.implementationSlot <;>
        simp [Node.Proxies.verdict, huuid, hslot]

/-- Contracts say so by answering with the slot. -/
theorem uuid?_bytes (hash : Hash) : Node.Proxies.uuid? hash.bytes = some hash := by
  have hlength : hash.bytes.length = 32 := Bytes.length_ofNat 32 _
  rw [Node.Proxies.uuid?, if_pos hlength.ge, List.take_of_length_le hlength.le, Hash.ofBytes_bytes]

section Checks

variable {proxy candidate : Address} {artifact : Artifact}

/-- What is asked of a candidate is a single call. -/
theorem validate_obeys_call {S : Type} {rules : Dialogue.Rules S Question Question.Answer} {s : S}
    {post : S → Except Error Unit → Prop}
    (hpermits : rules.permits s (.exchange (site.callQuery candidate
      (Abi.selector Node.Proxies.uuidSignature))))
    (hunreachable : ¬ site.Reachable → ∀ e,
      post s (Node.Proxies.verdict proxy candidate artifact (.error e)))
    (h : ∀ reply s', rules.answers s (.exchange (site.callQuery candidate
        (Abi.selector Node.Proxies.uuidSignature))) reply s' →
      post s' (Node.Proxies.verdict proxy candidate artifact (site.callIn reply))) :
    (site.collaborators.backend.validateUpgrade proxy candidate artifact).Obeys rules s post :=
  Dialogue.obeys_bind.mpr (query_obeys hpermits hunreachable fun _ reply s' hanswer =>
    h reply s' hanswer)

theorem validate_run (hreachable : site.Reachable) :
    Dialogue.Run (site.collaborators.backend.validateUpgrade proxy candidate artifact).run
      [⟨.exchange (site.callQuery candidate (Abi.selector Node.Proxies.uuidSignature)),
        some (Node.replyOf Node.implementationSlot.bytes)⟩] (.ok ()) := by
  refine Dialogue.Obeys.run (validate_obeys_call ⟨_, [], rfl⟩ (absurd hreachable) ?_)
  rintro _ rest ⟨⟩
  exact ⟨rfl, verdict_eq_ok.mpr ⟨_, callIn_replyOf _, uuid?_bytes _⟩⟩

/-- **A check that succeeds has found the candidate acceptable.** -/
theorem validate_accepts {s : Ledger} :
    (site.collaborators.backend.validateUpgrade proxy candidate artifact).Obeys
      (site.lawful law files) s (Action.Yielding fun s' _ => s' = s ∧ law.Accepts s candidate) := by
  refine validate_obeys_call trivial (fun _ e => ?_) fun reply s' hanswer => ?_
  · rcases hverdict : Node.Proxies.verdict proxy candidate artifact (.error e) with e' | _
    · trivial
    · obtain ⟨bytes, hbytes, -⟩ := verdict_eq_ok.mp hverdict
      cases hbytes
  · obtain ⟨⟨⟨rfl, -⟩, -⟩, hfollows⟩ := hanswer
    rcases hverdict : Node.Proxies.verdict proxy candidate artifact (site.callIn reply) with e | _
    · trivial
    · obtain ⟨bytes, hbytes, huuid⟩ := verdict_eq_ok.mp hverdict
      exact ⟨rfl, bytes, hfollows _ _ bytes rfl hbytes, huuid⟩

/-- **What is acceptable is accepted** by those who oblige. -/
theorem validate_obliging {s : Ledger} (hreachable : site.Reachable)
    (haccepts : law.Accepts s candidate) :
    (site.collaborators.backend.validateUpgrade proxy candidate artifact).Obeys
      (site.obliging law files) s fun s' result => s' = s ∧ result = .ok () := by
  refine validate_obeys_call trivial (absurd hreachable) fun reply s' hanswer => ?_
  obtain ⟨⟨⟨rfl, -⟩, -⟩, -, hobliges⟩ := hanswer
  obtain ⟨bytes, hview, huuid⟩ := haccepts
  exact ⟨rfl, verdict_eq_ok.mpr ⟨bytes, hobliges _ _ bytes rfl hview, huuid⟩⟩

end Checks

end ProxyUpgrade.Site
