import ProxyUpgrade.Proofs.History.Manifest
import ProxyUpgrade.Proofs.Site.Rules
/-!
# Looking things up

Most of what a deployment asks changes nothing: it looks at the chain, at the registry or at the
history. Under honest rules such an action yields what the ledger holds (`Site.Reads`), or else it
fails; and it does not fail as long as everything that can be asked is answered. So lookups are put
together like values: `Site.Reads.bind` is the one place where failures are dealt with.

The last section is about the choice of an implementation that is on record: the first address of
its group that has code, the current implementation of the proxy before the others. A new contract
joins its group as the only one that has code, so it is also what would be chosen next
(`Site.onRecord_created`).
-/

namespace ProxyUpgrade

/-! ### Failures of a node -/

/-- **How the call of a method fails**: nothing usable comes back, the node says that there is an
error, or its result is nonsense. -/
inductive Node.Failure (method : String) : Error → Prop
  | network (reason : String) : Failure method (.network reason)
  | rejected (reason : String) : Failure method (.rejected method reason)
  | encoding (reason : String) : Failure method (.encoding reason)

theorem Node.failure_of_heard {method : String} {arrived : Except Http.Fault Http.Reply} {e : Error}
    (h : heard method arrived = .error e) : Failure method e := by
  rcases arrived with fault | reply
  · cases h
    exact .network _
  · rw [heard] at h
    split at h
    next json _ =>
      rw [resultOf] at h
      split at h
      next =>
        cases h
        exact .rejected _
      next => cases h
      next =>
        cases h
        exact .encoding _
    next =>
      cases h
      exact .network _

namespace Site

variable (site : Site)

/-! ### Lookups -/

/-- What a lookup ends with: a value, or a failure if not everybody answers. -/
def Yields {α : Type} (answering : Prop) (value : α) (result : Except Error α) : Prop :=
  result = .ok value ∨ ¬ answering ∧ ∃ e, result = .error e

/-- **An action looks a value up**: it changes nothing, and ends with the value. -/
def Reads {α : Type} (rules : Dialogue.Rules Ledger Question Question.Answer) (answering : Prop)
    (s : Ledger) (action : Action Talk α) (value : α) : Prop :=
  action.Obeys rules s fun s' result => s' = s ∧ Yields answering value result

section Reads

variable {rules : Dialogue.Rules Ledger Question Question.Answer} {answering : Prop} {s : Ledger}
  {α β : Type}

theorem Reads.pure (a : α) : Reads rules answering s (pure a) a := ⟨rfl, .inl rfl⟩

/-- What follows a lookup follows its value. -/
theorem Reads.obeys_bind {x : Action Talk α} {a : α} (hx : Reads rules answering s x a)
    {f : α → Action Talk β} {post : Ledger → Except Error β → Prop}
    (hfail : ¬ answering → ∀ e, post s (.error e)) (hf : (f a).Obeys rules s post) :
    (x >>= f).Obeys rules s post := by
  refine Action.obeys_bind.mpr (Action.Obeys.mono hx ?_)
  rintro s' result ⟨rfl, rfl | ⟨hfails, e, rfl⟩⟩
  · exact hf
  · exact hfail hfails e

theorem Reads.bind {x : Action Talk α} {a : α} (hx : Reads rules answering s x a)
    {f : α → Action Talk β} {b : β} (hf : Reads rules answering s (f a) b) :
    Reads rules answering s (x >>= f) b :=
  hx.obeys_bind (fun hfails e => ⟨rfl, .inr ⟨hfails, e, rfl⟩⟩) hf

/-- What a store says is a lookup. -/
theorem Yields.of_answer {answer : Except Error α} {a : α} (hvalue : Says answer a)
    (hanswered : answering → ∃ said, answer = .ok said) : Yields answering a answer := by
  rcases answer with e | said
  · refine .inr ⟨fun hanswering => ?_, e, rfl⟩
    obtain ⟨said, hsaid⟩ := hanswered hanswering
    cases hsaid
  · exact .inl (congrArg Except.ok (hvalue said rfl))

end Reads

/-! ### The node -/

section Exchange

variable {site} {S : Type} {rules : Dialogue.Rules S Question Question.Answer} {s : S} {α : Type}

theorem http_send_obeys {request : Http.Request} (hurl : request.url = site.url)
    {post : S → Except Http.Fault Http.Reply → Prop}
    (hpermits : rules.permits s (.exchange request))
    (hunreachable : ¬ site.Reachable → ∀ fault, post s (.error fault))
    (h : site.Reachable → ∀ reply s', rules.answers s (.exchange request) reply s' →
      post s' (site.arrived reply)) :
    ((site.node (asking site.account)).http.send request).Obeys rules s post := by
  rw [Http.send, hurl]
  split
  next hreachable =>
    refine ⟨hpermits, fun reply s' hanswer => ?_⟩
    have hpost := h hreachable reply s' hanswer
    rcases reply with - | reply <;> exact hpost
  next hunreached => exact hunreachable hunreached _

/-- A call of a method asks one thing, and goes on with what is understood of the reply. -/
theorem query_obeys {method : String} {args : List Json}
    {read : Json → Option α} {post : S → Except Error α → Prop}
    (hpermits : rules.permits s (.exchange (site.query method args)))
    (hunreachable : ¬ site.Reachable → ∀ e, post s (.error e))
    (h : site.Reachable → ∀ reply s',
      rules.answers s (.exchange (site.query method args)) reply s' →
        post s' (site.understood method read reply)) :
    ((site.node (asking site.account)).query method args read).Obeys rules s post := by
  simp only [Node.query, Node.call, Action.obeys_bind_ofExcept, Action.obeys_lift]
  exact http_send_obeys rfl hpermits (fun hreachable _ => hunreachable hreachable _) h

/-- The turn in which a method is called. -/
theorem query_run_cases {method : String} {args : List Json} {read : Json → Option α}
    (hreachable : site.Reachable) {turns : List Turn} {result : Except Error α}
    (run : Dialogue.Run ((site.node (asking site.account)).query method args read).run turns
      result) :
    ∃ reply, turns = [⟨.exchange (site.query method args), reply⟩] ∧
      result = site.understood method read reply := by
  have hobeys : ((site.node (asking site.account)).query method args read).Obeys
      (.history fun _ _ => True) [] fun past result =>
        ∃ reply, past = [⟨.exchange (site.query method args), reply⟩] ∧
          result = site.understood method read reply := by
    refine query_obeys trivial (absurd hreachable) ?_
    rintro - reply past rfl
    exact ⟨reply, rfl, rfl⟩
  exact run.post (Dialogue.Rules.history_steps _ [] turns) hobeys

/-- A method can be called, whatever is replied. -/
theorem query_run_understood {method : String} {args : List Json} {read : Json → Option α}
    (hreachable : site.Reachable) (reply : Option Http.Reply) :
    Dialogue.Run ((site.node (asking site.account)).query method args read).run
      [⟨.exchange (site.query method args), reply⟩] (site.understood method read reply) := by
  refine Dialogue.Obeys.run (query_obeys ⟨reply, [], rfl⟩ (absurd hreachable) ?_)
  rintro - reply' rest ⟨⟩
  exact ⟨rfl, rfl⟩

/-- What is understood has been heard, and has the form that is expected. -/
theorem understood_eq_ok {method : String} {read : Json → Option α} {reply : Option Http.Reply}
    {value : α} : site.understood method read reply = .ok value ↔
      ∃ json, Node.heard method (site.arrived reply) = .ok json ∧ read json = some value := by
  rw [understood]
  rcases Node.heard method (site.arrived reply) with e | json
  · simp [bind, Except.bind]
  · change Node.formed method read json = .ok value ↔ _
    rw [Node.formed]
    rcases hread : read json with - | found <;> simp [hread]

theorem failure_of_understood {method : String} {read : Json → Option α}
    {reply : Option Http.Reply} {e : Error}
    (h : site.understood method read reply = .error e) : Node.Failure method e := by
  rw [understood] at h
  rcases hresult : Node.heard method (site.arrived reply) with e' | json
  · rw [hresult] at h
    cases h
    exact Node.failure_of_heard hresult
  · rw [hresult] at h
    change Node.formed method read json = .error e at h
    rw [Node.formed] at h
    split at h
    next => cases h
    next =>
      cases h
      exact .encoding _

end Exchange

section Node

variable {site} {rules : Dialogue.Rules Ledger Question Question.Answer}
  {answering : Prop} {s : Ledger} (h : site.Honest rules answering)
include h

/-- **The code at an address** is what the node says there is. -/
theorem code_reads (address : Address) :
    Reads rules answering s ((site.node (asking site.account)).code address) (s.code address) := by
  refine query_obeys (h.permits rfl) (fun hunreachable e => ?_) fun _ reply s' hanswer => ?_
  · exact ⟨rfl, .inr ⟨fun hanswering => hunreachable (h.reachable hanswering), e, rfl⟩⟩
  · obtain ⟨rfl, htrue⟩ := h.answers hanswer
    refine ⟨rfl, Yields.of_answer (htrue.code address · rfl) fun hanswering => ?_⟩
    exact (h.answered hanswering hanswer).1 address rfl

/-- **The implementation behind a proxy** is what the node says it is. -/
theorem implementationOf_reads (proxy : Address) :
    Reads rules answering s ((site.node (asking site.account)).implementationOf proxy)
      (s.slot proxy) := by
  refine Action.obeys_bind.mpr ?_
  refine query_obeys (h.permits rfl) (fun hunreachable e => ?_) fun _ reply s' hanswer => ?_
  · exact ⟨rfl, .inr ⟨fun hanswering => hunreachable (h.reachable hanswering), e, rfl⟩⟩
  · obtain ⟨rfl, htrue⟩ := h.answers hanswer
    have hslot : Yields answering (s'.slot proxy) (site.slotIn reply) :=
      Yields.of_answer (htrue.slot proxy · rfl) fun hanswering =>
        (h.answered hanswering hanswer).2 proxy rfl
    rw [slotIn] at hslot
    -- The slot holds a word, of which the implementation is the lower part.
    rcases hword : site.understood "eth_getStorageAt" Word.ofJson? reply with e | word
    · rw [hword] at hslot
      exact ⟨rfl, hslot⟩
    · rw [hword] at hslot
      exact ⟨rfl, hslot⟩

/-- Where the node cannot be reached, nothing is learnt of a proxy. -/
theorem implementationOf_unreachable (hunreachable : ¬ site.Reachable) (proxy : Address) :
    ((site.node (asking site.account)).implementationOf proxy).Obeys rules s
      (Action.Yielding fun _ _ => False) := by
  refine Action.obeys_bind_yielding.mpr ?_
  exact query_obeys (h.permits rfl) (fun _ _ => trivial) fun hreachable =>
    absurd hreachable hunreachable

end Node

/-! ### Implementations on record -/

/-- **The implementation on record** for a code: the first address of its group that has code, the
current implementation before all others. -/
def Ledger.onRecord (s : Ledger) (code : Hash) (current : Option Address) : Option Address :=
  (s.manifest.ofCode? code).bind fun group =>
    (Node.Proxies.candidates group current).find? s.live

theorem mem_candidates {group : History.Group} {current : Option Address} {address : Address} :
    address ∈ Node.Proxies.candidates group current ↔ group.has address = true := by
  have haddresses : address ∈ group.addresses ↔ group.has address = true := by
    simp [History.Group.has]
  rcases current with - | current
  · simp [Node.Proxies.candidates, haddresses]
  · by_cases hcurrent : group.has current = true
    · simp only [Node.Proxies.candidates, Option.filter, hcurrent, if_true, Option.toList_some,
        List.singleton_append, List.mem_cons, haddresses]
      exact ⟨fun h => h.elim (fun h => h ▸ hcurrent) id, .inr⟩
    · simp [Node.Proxies.candidates, Option.filter, hcurrent, haddresses]

/-- What is on record for a code belongs to its group. -/
theorem group_of_onRecord {s : Ledger} {code : Hash} {address : Address} {current : Option Address}
    (h : s.onRecord code current = some address) :
    ∃ group, s.manifest.ofCode? code = some group ∧ group.has address = true ∧
      s.live address = true := by
  rw [Ledger.onRecord] at h
  rcases hgroup : s.manifest.ofCode? code with - | group
  · simp [hgroup] at h
  · rw [hgroup, Option.bind_some] at h
    exact ⟨group, rfl, mem_candidates.mp (List.mem_of_find?_eq_some h), List.find?_some h⟩

/-- Where nothing is on record, no address of the group has code. -/
theorem live_of_onRecord_none {s : Ledger} {code : Hash} {address : Address}
    {current : Option Address} (h : s.onRecord code current = none) {group : History.Group}
    (hgroup : s.manifest.ofCode? code = some group) (hhas : group.has address = true) :
    s.live address = false := by
  rw [Ledger.onRecord, hgroup, Option.bind_some, List.find?_eq_none] at h
  simpa using h address (mem_candidates.mpr hhas)

theorem find?_eq_some_of_only {α : Type} {p : α → Bool} {a : α} {list : List α} (hmem : a ∈ list)
    (ha : p a = true) (honly : ∀ b ∈ list, p b = true → b = a) : list.find? p = some a := by
  obtain ⟨b, hb⟩ : ∃ b, list.find? p = some b :=
    Option.isSome_iff_exists.mp (List.find?_isSome.mpr ⟨a, hmem, ha⟩)
  rw [hb, honly b (List.mem_of_find?_eq_some hb) (List.find?_some hb)]

section Choice

variable {s s' : Ledger} {code : Hash} {address current : Address}

/-- A current implementation that is on record and has code is chosen again. -/
theorem onRecord_current {group : History.Group} (hgroup : s.manifest.ofCode? code = some group)
    (hhas : group.has current = true) (hlive : s.live current = true) :
    s.onRecord code (some current) = some current := by
  simp [Ledger.onRecord, hgroup, Node.Proxies.candidates, Option.filter, hhas, hlive]

/-- **A new contract is what would be chosen next**: where nothing on record had code, it is now the
only one of its group that has. -/
theorem onRecord_created {current : Option Address} (hnone : s.onRecord code current = none)
    (hmanifest : s'.manifest = s.manifest) (hlive : s'.live address = true)
    (hothers : ∀ other ≠ address, s'.live other = s.live other) (now : Timestamp) :
    ∃ group, (s'.recordAlias now code address).manifest.ofCode? code = some group ∧
      group.has address = true ∧
      (s'.recordAlias now code address).onRecord code current = some address := by
  have hgroup : (s'.recordAlias now code address).manifest.ofCode? code =
      some (s'.manifest.record now code address).1 := History.Manifest.ofCode?_record ..
  have hhas := History.Manifest.record_fst_has now code address s'.manifest
  refine ⟨_, hgroup, hhas, ?_⟩
  rw [Ledger.onRecord, hgroup]
  refine find?_eq_some_of_only (mem_candidates.mpr hhas) hlive fun other hmem hother => ?_
  by_contra hne
  -- Any other address of the group was there before, and had no code.
  have hwas : s.live other = true := hothers other hne ▸ hother
  rw [hmanifest] at hmem
  rcases History.Manifest.has_of_record_fst_has (mem_candidates.mp hmem) with
    heq | ⟨group, hold, hin⟩
  · exact hne heq
  · rw [live_of_onRecord_none hnone hold hin] at hwas
    cases hwas

end Choice

/-- Whether two addresses are taken to carry the same code. -/
def Ledger.same (s : Ledger) (aliasing : Bool) (a b : Address) : Bool :=
  a = b || aliasing && s.manifest.any fun group => group.has a && group.has b

section Implementations

variable {site} {rules : Dialogue.Rules Ledger Question Question.Answer}
  {answering : Prop} {s : Ledger} (h : site.Honest rules answering)
include h

theorem hasCode_reads (address : Address) :
    Reads rules answering s ((site.proxies (asking site.account)).hasCode address)
      (s.live address) :=
  (code_reads h address).bind (.pure _)

theorem firstLive_reads (addresses : List Address) :
    Reads rules answering s ((site.proxies (asking site.account)).firstLive addresses)
      (addresses.find? s.live) := by
  induction addresses with
  | nil => exact .pure _
  | cons address rest ih =>
    refine (hasCode_reads h address).bind ?_
    rcases hlive : s.live address with - | -
    · simpa [List.find?_cons, hlive] using ih
    · simpa [List.find?_cons, hlive] using Reads.pure (some address)

/-- The group of a code, as the history has it. -/
theorem ofCode_reads (code : Hash) :
    Reads rules answering s ((asking site.account).history.ofCode code)
      (s.manifest.ofCode? code) := by
  refine ⟨h.permits rfl, fun answer s' hanswer => ?_⟩
  obtain ⟨rfl, hvalue⟩ := h.answers hanswer
  exact ⟨rfl, Yields.of_answer hvalue fun hanswering => h.answered hanswering hanswer⟩

theorem existing_reads (code : Hash) (current : Option Address) :
    Reads rules answering s ((site.proxies (asking site.account)).existing code current)
      (s.onRecord code current) := by
  refine (ofCode_reads h code).bind ?_
  rw [Ledger.onRecord]
  rcases s.manifest.ofCode? code with - | group
  · exact .pure _
  · exact firstLive_reads h _

theorem groups_reads :
    Reads rules answering s (asking site.account).history.groups s.manifest := by
  refine ⟨h.permits rfl, fun answer s' hanswer => ?_⟩
  obtain ⟨rfl, hvalue⟩ := h.answers hanswer
  exact ⟨rfl, Yields.of_answer hvalue fun hanswering => h.answered hanswering hanswer⟩

theorem same_reads (a b : Address) :
    Reads rules answering s (site.collaborators.comparator.same a b)
      (s.same site.aliasing a b) := by
  have haliasing : site.collaborators.comparator.aliasing = site.aliasing := rfl
  rw [History.Comparator.same, haliasing, Ledger.same]
  split
  next heq => simpa [heq] using Reads.pure true
  next hne =>
    rcases site.aliasing with - | -
    · simpa [hne] using Reads.pure false
    · refine (groups_reads h).bind ?_
      simpa [hne] using Reads.pure _

omit h in
/-- Nothing is added to a group that has the address, so that the time does not matter. -/
theorem Ledger.recordAlias_of_has (now : Timestamp) {code : Hash} {address : Address}
    {group : History.Group} (hgroup : s.manifest.ofCode? code = some group)
    (hhas : group.has address = true) : s.recordAlias now code address = s := by
  rw [Ledger.recordAlias, History.Manifest.record_of_has hgroup hhas]

omit h in
/-- What is on record may be recorded again. -/
theorem answers_recordAlias {code : Hash} {address : Address} {group : History.Group}
    (hgroup : s.manifest.ofCode? code = some group) (hhas : group.has address = true) :
    site.Answers s (.recordAlias code address) (.ok group) s := by
  refine .inl ⟨.epoch, (Ledger.recordAlias_of_has _ hgroup hhas).symm, ?_⟩
  rw [History.Manifest.record_fst hgroup, History.Group.add_of_has hhas]
  exact says_ok group

/-- Recording what is on record changes nothing. -/
theorem recordAlias_reads {code : Hash} {address : Address} {group : History.Group}
    (hgroup : s.manifest.ofCode? code = some group) (hhas : group.has address = true) :
    Reads rules answering s (site.collaborators.comparator.store.record code address) group := by
  refine ⟨h.permits rfl, fun answer s' hanswer => ?_⟩
  have hanswered : answering → ∃ said, answer = .ok said :=
    fun hanswering => h.answered hanswering hanswer
  rcases h.answers hanswer with ⟨now, rfl, hvalue⟩ | ⟨⟨e, rfl⟩, rfl⟩
  · rw [History.Manifest.record_fst hgroup, History.Group.add_of_has hhas] at hvalue
    exact ⟨Ledger.recordAlias_of_has now hgroup hhas, Yields.of_answer hvalue hanswered⟩
  · exact ⟨rfl, Yields.of_answer (by rintro _ ⟨⟩) hanswered⟩

theorem registered_reads (id : String) :
    Reads rules answering s ((asking site.account).registry.get id) (s.table.get? id) := by
  refine ⟨h.permits rfl, fun answer s' hanswer => ?_⟩
  obtain ⟨rfl, hvalue⟩ := h.answers hanswer
  exact ⟨rfl, Yields.of_answer hvalue fun hanswering => h.answered hanswering hanswer⟩

end Implementations

end Site

end ProxyUpgrade
