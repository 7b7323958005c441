import ProxyUpgrade.Proofs.Deploy.First
/-!
# The choice of an implementation

For each code the history has at most one group that counts, the first one. An implementation is
taken from that group as long as one of its addresses has code, and otherwise one is created, with
that very code, and joins the group. Which address of the group is taken is settled by
`Site.Ledger.Prefers`, whatever the group looks like: it may hold addresses that have lost their
code, some of them twice, and the current implementation of a proxy may belong to it or not.

All that is relied on is that the node tells the truth, that the history says what it has on record,
and that a contract that is reported has code (`Site.crediting`). What else a creation changes on
the chain does not matter, nor whether anything was at its address before.

Where it cannot be found out whether there is code at an address, nothing at all is done
(`Site.CodeUnknown`).
-/

namespace ProxyUpgrade

/-- Every question of a run is one that may be asked. -/
theorem Dialogue.Run.asked {Q : Type} {A : Q → Type} {α : Type} {d : Dialogue Q A α}
    {turns : List (Dialogue.Turn A)} {result : α} (run : Dialogue.Run d turns result)
    {p : Q → Prop} (h : d.Asks p) : ∀ turn ∈ turns, p turn.1 := by
  induction run with
  | done => exact fun _ hmem => absurd hmem List.not_mem_nil
  | ask answer _ ih =>
    intro turn hmem
    rcases List.mem_cons.mp hmem with rfl | hmem
    · exact h.1
    · exact ih (h.2 answer () trivial) turn hmem

namespace Site

variable {site : Site}

/-! ### Preference -/

/-- **An address is preferred** to the others of a group. -/
inductive Ledger.Prefers (s : Ledger) (group : History.Group) (current : Option Address)
    (address : Address) : Prop
  /-- It is the current implementation, and belongs to the group. -/
  | current (hcurrent : current = some address) (hhas : group.has address = true)
      (hlive : s.live address = true)
  /-- The current implementation is of no use, and this is the first address that has code. -/
  | first {before after : List Address}
      (hcurrent : ∀ other, current = some other → group.has other = true → s.live other = false)
      (haddresses :
        group.canonical :: group.aliases.map (·.address) = before ++ address :: after)
      (hbefore : ∀ other ∈ before, s.live other = false) (hlive : s.live address = true)

section Preference

variable {s : Ledger} {code : Hash} {group : History.Group} {current : Option Address}
  {address : Address}

theorem candidates_of_has (hhas : group.has address = true) :
    Node.Proxies.candidates group (some address) = address :: group.addresses := by
  simp [Node.Proxies.candidates, Option.filter, hhas]

/-- A current implementation that does not belong to the group is left out. -/
theorem candidates_of_not_has
    (hcurrent : ∀ other, current = some other → group.has other = false) :
    Node.Proxies.candidates group current = group.addresses := by
  rcases current with - | other
  · rfl
  · simp [Node.Proxies.candidates, Option.filter, hcurrent other rfl]

/-- The first address that has code is preferred, unless the current implementation is. -/
theorem prefers_of_find? (hfind : group.addresses.find? s.live = some address)
    (hcurrent : ∀ other, current = some other → group.has other = true → s.live other = false) :
    s.Prefers group current address := by
  obtain ⟨hlive, before, after, haddresses, hbefore⟩ := List.find?_eq_some_iff_append.mp hfind
  exact .first hcurrent haddresses (by simpa using hbefore) hlive

/-- **What is on record is what is preferred** of its group. -/
theorem prefers_of_onRecord (h : s.onRecord code current = some address) :
    ∃ group, s.manifest.ofCode? code = some group ∧ s.Prefers group current address := by
  obtain ⟨group, hgroup, -⟩ := group_of_onRecord h
  refine ⟨group, hgroup, ?_⟩
  rw [Ledger.onRecord, hgroup, Option.bind_some] at h
  by_cases hbelongs : ∃ other, current = some other ∧ group.has other = true
  · obtain ⟨other, rfl, hhas⟩ := hbelongs
    rw [candidates_of_has hhas, List.find?_cons] at h
    rcases hlive : s.live other with - | -
    · rw [hlive] at h
      refine prefers_of_find? h ?_
      rintro _ ⟨⟩ -
      exact hlive
    · rw [hlive] at h
      cases h
      exact .current rfl hhas hlive
  · have hforeign : ∀ other, current = some other → group.has other = false := by
      intro other hother
      by_contra hhas
      exact hbelongs ⟨other, hother, by simpa using hhas⟩
    rw [candidates_of_not_has hforeign] at h
    refine prefers_of_find? h fun other hother hhas => ?_
    rw [hforeign other hother] at hhas
    cases hhas

end Preference

/-! ### Implementations that are made available -/

/-- What becomes of a creation, by the contract that is reported: that one has code. -/
def Credited (s : Ledger) (purpose : Purpose) (code : Bytes) (s' : Ledger) :
    (reported : Option Address) → Prop
  | some address => s'.live address = true ∧ s'.manifest = s.manifest ∧
      s'.created = ⟨address, code, purpose⟩ :: s.created
  | none => s'.manifest = s.manifest ∧
      (s'.created = s.created ∨ ∃ address, s'.created = ⟨address, code, purpose⟩ :: s.created)

/-- **An answer may be given** where nothing is known of creations but that. -/
def Credits (site : Site) (s : Ledger) : (question : Question) → question.Answer → Ledger → Prop
  | .create purpose code, answer, s' => Credited s purpose code s' (reported answer)
  | question, answer, s' => site.Answers s question answer s'

/-- The rules of a site where contracts that are reported have code. -/
def crediting (site : Site) : Dialogue.Rules Ledger Question Question.Answer where
  permits _ _ := True
  answers := site.Credits

/-- **An implementation is available**, taken from the group of its code or created. -/
structure Available (s : Ledger) (artifact : Artifact) (args : Bytes) (current : Option Address)
    (s' : Ledger) (address : Address) : Prop where
  onRecord : ∃ group, s'.manifest.ofCode? (artifact.codeHash args) = some group ∧
    group.has address = true
  live : s'.live address = true
  /-- Where no address of the group had code, one contract has been created. -/
  created : (∀ group, s.manifest.ofCode? (artifact.codeHash args) = some group →
      ∀ other, group.has other = true → s.live other = false) →
    s'.created = ⟨address, artifact.code ++ args, .implementation⟩ :: s.created
  /-- Otherwise nothing has changed, neither the chain nor the history. -/
  taken : ∀ group other, s.manifest.ofCode? (artifact.codeHash args) = some group →
    group.has other = true → s.live other = true → s' = s ∧ s.Prefers group current address

section Available

variable {s : Ledger} {artifact : Artifact} {args : Bytes} {current : Option Address}
  {address : Address}

theorem available_of_onRecord
    (honRecord : s.onRecord (artifact.codeHash args) current = some address) :
    Available s artifact args current s address := by
  obtain ⟨group, hgroup, hhas, hlive⟩ := group_of_onRecord honRecord
  refine ⟨⟨group, hgroup, hhas⟩, hlive, fun hdead => ?_, ?_⟩
  · rw [hdead group hgroup address hhas] at hlive
    cases hlive
  · rintro group' other hgroup' - -
    obtain ⟨preferred, hpreferred, hprefers⟩ := prefers_of_onRecord honRecord
    rw [hgroup', Option.some.injEq] at hpreferred
    exact ⟨rfl, hpreferred ▸ hprefers⟩

/-- A new contract joins the group, which had no address with code. -/
theorem available_of_created {s₁ : Ledger}
    (hnone : s.onRecord (artifact.codeHash args) current = none)
    (hcredited : Credited s .implementation (artifact.creationCode args) s₁ (some address))
    (now : Timestamp) :
    Available s artifact args current (s₁.recordAlias now (artifact.codeHash args) address)
      address := by
  obtain ⟨hlive, -, hcreated⟩ := hcredited
  refine ⟨⟨_, History.Manifest.ofCode?_record .., History.Manifest.record_fst_has ..⟩, hlive,
    fun _ => hcreated, fun group other hgroup hhas hother => ?_⟩
  rw [live_of_onRecord_none hnone hgroup hhas] at hother
  cases hother

/-- Looking for an implementation on record needs no more than looking ever does. -/
theorem existing_credited (code : Hash) :
    ((site.proxies (asking site.account)).existing code current).Obeys site.crediting s
      fun s' result => s' = s ∧ Yields False (s.onRecord code current) result := by
  have hlenient := existing_reads (s := s) site.lenient_honest code current
  have hquiet : ((site.proxies (asking site.account)).existing code current).Asks
      fun question => question.isQuiet = true := existing_asks (fun _ h => h) code current
  refine (Dialogue.Obeys.simulated Eq (fun _ _ _ => trivial) ?_ hlenient hquiet rfl).mono ?_
  · rintro _ t question answer t' rfl hquiet hcredits
    refine ⟨t', ?_, rfl⟩
    cases question with
    | create => cases hquiet
    | _ => exact hcredits
  · rintro _ result ⟨s', rfl, hpost⟩
    exact hpost

/-- **Whatever is handed on is available.** -/
theorem implementationFor_available :
    ((site.proxies (asking site.account)).implementationFor artifact current args).Obeys
      site.crediting s (Action.Yielding fun s' address =>
        Available s artifact args current s' address) := by
  refine Action.obeys_bind.mpr ((existing_credited (artifact.codeHash args)).mono ?_)
  rintro s' result ⟨rfl, rfl | ⟨-, e, rfl⟩⟩
  · rcases honRecord : s'.onRecord (artifact.codeHash args) current with - | address
    · refine Action.obeys_bind.mpr
        (create_obeys .implementation trivial ?_ fun _ _ _ _ _ => trivial)
      intro answer address s₁ hcredited hreported
      change Credited s' .implementation _ s₁ (reported answer) at hcredited
      rw [hreported] at hcredited
      refine Action.obeys_bind.mpr ⟨trivial, fun answer' s₂ hrecorded => ?_⟩
      rcases answer' with e | group
      · trivial
      · rcases hrecorded with ⟨now, rfl, -⟩ | ⟨⟨e, he⟩, -⟩
        · exact available_of_created honRecord hcredited now
        · cases he
    · exact available_of_onRecord honRecord
  · trivial

end Available

/-! ### Code that cannot be asked for -/

/-- **It cannot be found out** whether there is code at an address that is on record. -/
inductive CodeUnknown (site : Site) (code : Hash) (turns : List Turn) : Prop
  /-- What the node replies is of no use. -/
  | reply {address : Address} {reply : Option Http.Reply} {e : Error}
      (hmem : ⟨.exchange (site.codeQuery address), reply⟩ ∈ turns)
      (hreply : site.codeIn reply = .error e)
  /-- The node cannot be reached at all. -/
  | unreachable {group : History.Group}
      (hmem : ⟨.groupOfCode code, .ok (some group)⟩ ∈ turns) (hunreachable : ¬ site.Reachable)

section Failures

variable {turns : List Turn} {address : Address} {code : Hash} {current : Option Address}
  {artifact : Artifact} {args : Bytes}

/-- A reply to one request is the reply to another if the turns are the same. -/
theorem reply_eq_of_turn_eq {request request' : Http.Request} {reply reply' : Option Http.Reply}
    (h : (⟨.exchange request, reply⟩ : Turn) = ⟨.exchange request', reply'⟩) : reply = reply' := by
  cases h
  rfl

/-- Asking for code takes one turn, if the node can be reached. -/
theorem hasCode_run_cases {result : Except Error Bool}
    (run : Dialogue.Run ((site.proxies (asking site.account)).hasCode address).run turns result) :
    (site.Reachable ∧ ∃ reply, turns = [⟨.exchange (site.codeQuery address), reply⟩] ∧
        result = (site.codeIn reply).map (!·.isEmpty)) ∨
      ¬ site.Reachable ∧ turns = [] ∧ ∃ e, result = .error e := by
  have hobeys : ((site.proxies (asking site.account)).hasCode address).Obeys
      (.history fun _ _ => True) [] fun past result =>
        (site.Reachable ∧ ∃ reply, past = [⟨.exchange (site.codeQuery address), reply⟩] ∧
          result = (site.codeIn reply).map (!·.isEmpty)) ∨
        ¬ site.Reachable ∧ past = [] ∧ ∃ e, result = .error e := by
    refine Action.obeys_bind.mpr (query_obeys trivial
      (fun hunreachable e => .inr ⟨hunreachable, rfl, e, rfl⟩)
      fun hreachable reply past hpast => ?_)
    rcases hcode : site.understood "eth_getCode" Bytes.ofJson? reply with e | bytes
    · exact .inl ⟨hreachable, reply, hpast, by rw [codeIn, hcode]; rfl⟩
    · exact .inl ⟨hreachable, reply, hpast, by rw [codeIn, hcode]; rfl⟩
  exact run.post (Dialogue.Rules.history_steps _ [] turns) hobeys

/-- **A search ends with the first reply that is of no use.** -/
theorem firstLive_run_error {addresses : List Address} {result : Except Error (Option Address)}
    (run : Dialogue.Run ((site.proxies (asking site.account)).firstLive addresses).run turns result)
    {reply : Option Http.Reply} {e : Error}
    (hmem : ⟨.exchange (site.codeQuery address), reply⟩ ∈ turns)
    (hreply : site.codeIn reply = .error e) : ∃ e, result = .error e := by
  induction addresses generalizing turns with
  | nil =>
    cases run
    cases hmem
  | cons candidate rest ih =>
    obtain ⟨first, yielded, later, rfl, hfirst, hlater⟩ := Action.exists_run_of_bind run
    rcases hasCode_run_cases hfirst with ⟨-, reply', rfl, rfl⟩ | ⟨-, rfl, e', rfl⟩
    · rcases hcode : site.codeIn reply' with e' | bytes
      · rw [hcode] at hlater
        exact ⟨e', hlater.2⟩
      · -- This reply is of use, so the one that is not comes later.
        have hmem' : ⟨.exchange (site.codeQuery address), reply⟩ ∈ later := by
          rcases List.mem_cons.mp hmem with heq | hmem
          · rw [reply_eq_of_turn_eq heq, hcode] at hreply
            cases hreply
          · exact hmem
        rw [hcode] at hlater
        rcases hlive : bytes.isEmpty with - | -
        · rw [Except.map, hlive] at hlater
          cases hlater
          cases hmem'
        · rw [Except.map, hlive] at hlater
          exact ih hlater hmem'
    · exact ⟨e', hlater.2⟩

/-- A search fails where the node cannot be reached. -/
theorem firstLive_run_unreachable (hunreachable : ¬ site.Reachable) {addresses : List Address}
    (hne : addresses ≠ []) {result : Except Error (Option Address)}
    (run : Dialogue.Run ((site.proxies (asking site.account)).firstLive addresses).run turns
      result) : ∃ e, result = .error e := by
  obtain ⟨candidate, rest, rfl⟩ := List.exists_cons_of_ne_nil hne
  obtain ⟨first, yielded, later, rfl, hfirst, hlater⟩ := Action.exists_run_of_bind run
  rcases hasCode_run_cases hfirst with ⟨hreachable, -⟩ | ⟨-, -, e, rfl⟩
  · exact absurd hreachable hunreachable
  · exact ⟨e, hlater.2⟩

theorem existing_run_error {result : Except Error (Option Address)}
    (run : Dialogue.Run ((site.proxies (asking site.account)).existing code current).run turns
      result) (hunknown : site.CodeUnknown code turns) : ∃ e, result = .error e := by
  obtain - | ⟨answer, run⟩ := run
  rcases answer with e | - | group
  · cases run
    exact ⟨e, rfl⟩
  · -- Without a group no code is asked for.
    cases run
    rcases hunknown with ⟨hmem, -⟩ | ⟨hmem, -⟩ <;> simp at hmem
  · change Dialogue.Run ((site.proxies (asking site.account)).firstLive
      (Node.Proxies.candidates group current)).run _ _ at run
    rcases hunknown with @⟨address, reply, e, hmem, hreply⟩ | ⟨-, hunreachable⟩
    · have hasked := (List.mem_cons.mp hmem).resolve_left nofun
      exact firstLive_run_error run hasked hreply
    · have hcanonical : group.canonical ∈ Node.Proxies.candidates group current :=
        mem_candidates.mpr group.has_canonical
      exact firstLive_run_unreachable hunreachable (List.ne_nil_of_mem hcanonical) run

/-- Whether a question is one of those about what is on record and what has code. -/
def Question.isLookup : Question → Bool
  | exchange _ | groupOfCode _ => true
  | _ => false

/-- Quiet turns lead nowhere. -/
theorem eq_of_quiet_steps {s s' : Ledger} (hquiet : ∀ turn ∈ turns, turn.1.isQuiet = true)
    (steps : site.crediting.Steps s turns s') : s' = s := by
  induction steps with
  | nil => rfl
  | @cons s s₁ s₂ question answer turns first _ ih =>
    have hanswers : site.Answers s question answer s₁ := by
      cases question with
      | create => cases hquiet _ List.mem_cons_self
      | _ => exact first
    have hfirst : s₁ = s := eq_of_isQuiet (hquiet _ List.mem_cons_self) hanswers
    rw [ih fun turn hmem => hquiet turn (List.mem_cons_of_mem _ hmem), hfirst]

/-- **Where it cannot be found out whether there is code, nothing is done.** -/
theorem implementationFor_run_unknown {result : Except Error Address}
    (run : Dialogue.Run ((site.proxies (asking site.account)).implementationFor artifact current
      args).run turns result) (hunknown : site.CodeUnknown (artifact.codeHash args) turns) :
    (∃ e, result = .error e) ∧ ∀ turn ∈ turns, turn.1.isQuiet = true := by
  obtain ⟨first, yielded, rest, rfl, hfirst, hrest⟩ := Action.exists_run_of_bind run
  have hquiet := hfirst.asked (existing_asks (fun _ h => h) _ current)
  rcases yielded with e | found
  · obtain ⟨rfl, rfl⟩ := hrest
    rw [List.append_nil]
    exact ⟨⟨e, rfl⟩, hquiet⟩
  · -- All lookups have been made by now, so it is one of them that has failed.
    have hlater : ∀ turn ∈ rest, turn.1.isLookup = false := by
      rcases found with - | address
      · have hcreate := @create_asks site (fun question => question.isLookup = false)
          (fun _ _ => rfl) .implementation artifact args
        have hrecord (address : Address) : Action.Asks (fun question => question.isLookup = false)
            ((asking site.account).history.record (artifact.codeHash args) address) :=
          ⟨rfl, fun _ _ _ => trivial⟩
        exact Dialogue.Run.asked hrest (Action.Asks.bind hcreate fun address =>
          (hrecord address).bind fun _ => Action.asks_pure _)
      · cases hrest
        exact fun _ hmem => absurd hmem List.not_mem_nil
    have hbefore : site.CodeUnknown (artifact.codeHash args) first := by
      rcases hunknown with ⟨hmem, hreply⟩ | ⟨hmem, hunreachable⟩
      · rcases List.mem_append.mp hmem with hmem | hmem
        · exact .reply hmem hreply
        · cases hlater _ hmem
      · rcases List.mem_append.mp hmem with hmem | hmem
        · exact .unreachable hmem hunreachable
        · cases hlater _ hmem
    obtain ⟨e, he⟩ := existing_run_error hfirst hbefore
    cases he

end Failures

/-- **Which implementation a proxy gets**, whatever the history and the chain look like. What is
handed on is the preferred address of the group, if any address of it has code; then neither the
chain nor the history changes. Else it is a new contract, the only one that is created, and it has
joined the group. If it cannot be found out whether there is code at an address, the search fails,
and nothing is created or recorded. -/
theorem implementation_chosen (site : Site) (artifact : Artifact) (args : Bytes)
    (current : Option Address) (turns : List Turn) (result : Except Error Address)
    (run : Dialogue.Run ((site.proxies (asking site.account)).implementationFor artifact current
      args).run turns result) :
    (∀ s s' address, site.crediting.Steps s turns s' → result = .ok address →
      Available s artifact args current s' address) ∧
    (site.CodeUnknown (artifact.codeHash args) turns →
      (∃ e, result = .error e) ∧ (∀ turn ∈ turns, turn.1.isQuiet = true) ∧
        ∀ s s', site.crediting.Steps s turns s' → s' = s) := by
  constructor
  · rintro s s' address steps rfl
    exact run.post steps implementationFor_available
  · intro hunknown
    obtain ⟨herror, hquiet⟩ := implementationFor_run_unknown run hunknown
    exact ⟨herror, hquiet, fun s s' steps => eq_of_quiet_steps hquiet steps⟩

/-! The canonical address has lost its code, and the current implementation belongs to no group. -/

/-- The code of the contract that is looked for. -/
def choiceCode : Hash := Artifact.codeHash ⟨"Stub", [1]⟩ [7]

/-- The group of that code. -/
def choiceGroup : History.Group := ⟨choiceCode, ⟨1⟩, [⟨⟨2⟩, .epoch⟩]⟩

/-- The alias has code, and so has an address that belongs to no group. -/
def choiceLedger : Ledger :=
  { Ledger.blank with
    code := fun address => if address = ⟨1⟩ then [] else [1]
    manifest := [choiceGroup] }

/-- The turns in which the alias is found. -/
def choiceTurns : List Turn :=
  [⟨.groupOfCode choiceCode, .ok (some choiceGroup)⟩,
    ⟨.exchange (plain.codeQuery ⟨1⟩), some (Node.replyOf [])⟩,
    ⟨.exchange (plain.codeQuery ⟨2⟩), some (Node.replyOf [1])⟩]

theorem choiceTurns_run : Dialogue.Run ((plain.proxies (asking plain.account)).implementationFor
    ⟨"Stub", [1]⟩ (some ⟨3⟩) [7]).run choiceTurns (.ok ⟨2⟩) := by
  have hcandidates : Node.Proxies.candidates choiceGroup (some ⟨3⟩) = [⟨1⟩, ⟨2⟩] :=
    candidates_of_not_has fun _ h => by cases h; decide
  have hdead := hasCode_run plain_reachable ⟨1⟩ []
  have hlive := hasCode_run plain_reachable ⟨2⟩ [1]
  have hfound : Dialogue.Run ((plain.proxies (asking plain.account)).firstLive
      (Node.Proxies.candidates choiceGroup (some ⟨3⟩))).run choiceTurns.tail (.ok (some ⟨2⟩)) := by
    rw [hcandidates]
    exact Action.run_bind hdead (Action.run_yield hlive rfl)
  have hexisting : Dialogue.Run ((plain.proxies (asking plain.account)).existing choiceCode
      (some ⟨3⟩)).run choiceTurns (.ok (some ⟨2⟩)) := .ask _ hfound
  exact Action.run_yield hexisting rfl

theorem choiceTurns_steps : plain.crediting.Steps choiceLedger choiceTurns choiceLedger := by
  have hgroup : choiceLedger.manifest.ofCode? choiceCode = some choiceGroup := by
    simp [choiceLedger, choiceGroup, History.Manifest.ofCode?]
  refine .cons ⟨rfl, hgroup ▸ says_ok _⟩ (.cons ⟨rfl, truthful_code (s := choiceLedger) ⟨1⟩⟩
    (.cons ⟨rfl, truthful_code (s := choiceLedger) ⟨2⟩⟩ (.nil _)))

theorem implementation_chosen_alias :
    Dialogue.Run ((plain.proxies (asking plain.account)).implementationFor ⟨"Stub", [1]⟩
        (some ⟨3⟩) [7]).run choiceTurns (.ok ⟨2⟩) ∧
      plain.crediting.Steps choiceLedger choiceTurns choiceLedger ∧
        Available choiceLedger ⟨"Stub", [1]⟩ [7] (some ⟨3⟩) choiceLedger ⟨2⟩ :=
  ⟨choiceTurns_run, choiceTurns_steps, (implementation_chosen plain ⟨"Stub", [1]⟩ [7] (some ⟨3⟩)
    choiceTurns (.ok ⟨2⟩) choiceTurns_run).1 choiceLedger choiceLedger ⟨2⟩ choiceTurns_steps rfl⟩

end Site

end ProxyUpgrade
