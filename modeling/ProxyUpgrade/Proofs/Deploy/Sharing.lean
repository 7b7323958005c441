import Mathlib.Logic.Relation
import ProxyUpgrade.Proofs.Deploy.First
import ProxyUpgrade.Proofs.History.Annals
/-!
# Groups of a history that deployments write

The history lets an address be recorded under several codes. A backend and deployments never do
that: what they record is either the address that a creation has just returned, or one that is on
record under the same code. So the annals stay in order (`Site.Reached.orderly`), whatever is
created, prepared and deployed, whatever fails, and whatever a node says about the code at recorded
addresses: none of this is known to the rules (`Site.remembering`), which only say that a creation
returns an address that none has returned before, and that the history says what it has been told.
-/

namespace ProxyUpgrade.Site

open History (Annals Orderly Group)

/-! ### Rules -/

/-- **What may be answered**: creations return new addresses, and the history says what is on
record, or fails. All others say what they like. -/
def Remembers (s : Annals) : (question : Question) → question.Answer → Annals → Prop
  | .create .., answer, s' =>
    match reported answer with
    | some address => address ∉ s.returned ∧ s' = s.create address
    | none => s' = s
  | .recordAlias code address, answer, s' =>
    (∃ now, s' = s.record now code address ∧
      Says answer (s.manifest.record now code address).1) ∨ (∃ e, answer = .error e) ∧ s' = s
  | .groupOfAddress address, answer, s' => s' = s ∧ Says answer (s.manifest.ofAddress? address)
  | .groupOfCode code, answer, s' => s' = s ∧ Says answer (s.manifest.ofCode? code)
  | .groups, answer, s' => s' = s ∧ Says answer s.manifest
  | _, _, s' => s' = s

/-- The rules of a history. An address is only recorded if it may be. -/
def remembering : Dialogue.Rules Annals Question Question.Answer where
  permits
    | s, .recordAlias code address => s.MayRecord code address
    | _, _ => True
  answers := Remembers

/-- Whether a question may have to do with what comes on record. -/
def Question.isNotable : Question → Bool
  | create .. | recordAlias .. => true
  | _ => false

section Steps

variable {s s' : Annals} {site : Site} {α β : Type}

/-- **Every turn that is permitted leaves the annals in order.** -/
theorem orderly_of_permitted (question : Question) {answer : question.Answer}
    (hpermits : remembering.permits s question) (hanswers : Remembers s question answer s')
    (hs : Orderly s) : Orderly s' := by
  cases question with
  | create purpose code =>
    simp only [Remembers] at hanswers
    split at hanswers
    next address _ =>
      obtain ⟨-, rfl⟩ := hanswers
      exact hs.create address
    next =>
      obtain rfl := hanswers
      exact hs
  | recordAlias code address =>
    rcases hanswers with ⟨now, rfl, -⟩ | ⟨-, rfl⟩
    · exact hs.record hpermits now
    · exact hs
  | groupOfAddress | groupOfCode | groups =>
    obtain ⟨rfl, -⟩ := hanswers
    exact hs
  | _ =>
    obtain rfl := hanswers
    exact hs

/-- What is not notable leaves the annals as they are. -/
theorem unnoted_obeys {d : Talk α} (h : d.Asks fun question => question.isNotable = false) :
    d.Obeys remembering s fun s' _ => s' = s := by
  refine h.obeys (· = s) ?_ rfl
  rintro _ question rfl hquestion
  cases question with
  | create | recordAlias => cases hquestion
  | groupOfAddress | groupOfCode | groups => exact ⟨trivial, fun _ _ hanswer => hanswer.1⟩
  | _ => exact ⟨trivial, fun _ _ hanswer => hanswer⟩

theorem isNotable_of_isQuiet (question : Question) (h : question.isQuiet = true) :
    question.isNotable = false := by
  cases question <;> first | rfl | cases h

/-! ### Steps that keep the annals in order -/

/-- **An action keeps the annals in order**, and something holds of what it yields. -/
def Keeps (s : Annals) (x : Action Talk α) (post : Annals → α → Prop) : Prop :=
  Orderly s → x.Obeys remembering s fun s' result => Orderly s' ∧ Action.Yielding post s' result

theorem Keeps.bind {x : Action Talk α} {f : α → Action Talk β} {mid : Annals → α → Prop}
    {post : Annals → β → Prop} (hx : Keeps s x mid)
    (hf : ∀ s' a, mid s' a → Keeps s' (f a) post) : Keeps s (x >>= f) post := by
  refine fun hs => Action.obeys_bind.mpr ((hx hs).mono ?_)
  rintro s' (e | a) ⟨hs', hmid⟩
  · exact ⟨hs', trivial⟩
  · exact hf s' a hmid hs'

theorem keeps_of_asks {x : Action Talk α} (h : x.Asks fun question => question.isNotable = false) :
    Keeps s x fun s' _ => s' = s := by
  refine fun hs => (unnoted_obeys (s := s) h).mono ?_
  rintro _ (e | a) rfl
  · exact ⟨hs, trivial⟩
  · exact ⟨hs, rfl⟩

/-- What may be recorded is recorded, or not. -/
theorem recordAlias_keeps (account : Address) {code : Hash} {address : Address}
    (hmay : s.MayRecord code address) :
    Keeps s ((asking account).history.record code address)
      fun s' _ => (code, address) ∈ s'.recorded := by
  refine fun hs => ⟨hmay, fun answer s' hanswer =>
    ⟨orderly_of_permitted (.recordAlias code address) hmay hanswer hs, ?_⟩⟩
  rcases hanswer with ⟨now, rfl, -⟩ | ⟨⟨e, rfl⟩, -⟩
  · rcases answer with e | group
    · trivial
    · exact List.mem_cons_self
  · trivial

/-- A creation yields an address that is new. -/
theorem create_keeps (purpose : Purpose) (artifact : Artifact) (args : Bytes) :
    Keeps s ({ site.proxies (asking site.account) with
      signer := acting site.account purpose }.create artifact args) fun s' address =>
        address ∉ s.returned ∧ s' = s.create address := by
  refine fun hs => create_obeys purpose trivial (fun answer address s' hanswer hreported => ?_)
    fun answer s' hanswer _ e => ⟨orderly_of_permitted (.create ..) trivial hanswer hs, trivial⟩
  refine ⟨orderly_of_permitted (.create ..) trivial hanswer hs, ?_⟩
  simp only [remembering, Remembers, hreported] at hanswer
  exact hanswer

/-- What is found to have code is one of the addresses that are tried. -/
theorem firstLive_keeps (addresses : List Address) :
    Keeps s ((site.proxies (asking site.account)).firstLive addresses) fun s' found =>
      s' = s ∧ ∀ address, found = some address → address ∈ addresses := by
  induction addresses with
  | nil => exact fun hs => ⟨hs, rfl, by rintro _ ⟨⟩⟩
  | cons address rest ih =>
    refine (keeps_of_asks (hasCode_asks isNotable_of_isQuiet address)).bind ?_
    rintro _ live rfl
    split
    · exact fun hs => ⟨hs, rfl, by rintro _ ⟨⟩; exact List.mem_cons_self⟩
    · refine fun hs => (ih hs).mono ?_
      rintro s' (e | found) ⟨hs', hfound⟩
      · exact ⟨hs', trivial⟩
      · exact ⟨hs', hfound.1, fun address h => List.mem_cons_of_mem _ (hfound.2 address h)⟩

/-- What exists is on record under the code. -/
theorem existing_keeps (code : Hash) (current : Option Address) :
    Keeps s ((site.proxies (asking site.account)).existing code current) fun s' found =>
      s' = s ∧ ∀ address, found = some address → (code, address) ∈ s.recorded := by
  have hofCode : Keeps s ((asking site.account).history.ofCode code) fun s' group =>
      s' = s ∧ s.manifest.ofCode? code = group := by
    rintro hs
    refine ⟨trivial, ?_⟩
    rintro (e | group) _ ⟨rfl, hsaid⟩
    · exact ⟨hs, trivial⟩
    · exact ⟨hs, rfl, (hsaid group rfl).symm⟩
  refine hofCode.bind ?_
  rintro _ (- | group) ⟨rfl, hgroup⟩
  · exact fun hs => ⟨hs, rfl, by rintro _ ⟨⟩⟩
  · intro hs
    refine ((firstLive_keeps _) hs).mono ?_
    rintro s' (e | found) ⟨hs', hfound⟩
    · exact ⟨hs', trivial⟩
    · exact ⟨hs', hfound.1, fun address h =>
        hs.mem_of_ofCode? hgroup (mem_candidates.mp (hfound.2 address h))⟩

/-- **An implementation is on record under its code** once it is made available. -/
theorem implementationFor_keeps (artifact : Artifact) (current : Option Address) (args : Bytes) :
    Keeps s ((site.proxies (asking site.account)).implementationFor artifact current args)
      fun s' address => (artifact.codeHash args, address) ∈ s'.recorded := by
  intro hs
  refine Keeps.bind (existing_keeps _ current) ?_ hs
  rintro _ (- | address) ⟨rfl, hfound⟩
  · refine (create_keeps .implementation artifact args).bind ?_
    rintro _ address ⟨hnew, rfl⟩
    -- An address that is new is not on record.
    have hmay : (Annals.create _ address).MayRecord (artifact.codeHash args) address :=
      ⟨List.mem_cons_self, fun other hrecorded => absurd (hs.returned hrecorded) hnew⟩
    refine (recordAlias_keeps site.account hmay).bind fun s' _ hrecorded => ?_
    exact fun hs' => ⟨hs', hrecorded⟩
  · exact fun hs => ⟨hs, hfound address rfl⟩

theorem createProxy_keeps (artifact : Artifact) (data : Bytes) (options : Deploy.Options) :
    Keeps s (site.collaborators.backend.createProxy artifact data options) fun _ _ => True := by
  refine (implementationFor_keeps artifact none options.constructorArgs).bind fun _ _ _ => ?_
  refine (keeps_of_asks (artifact_asks isNotable_of_isQuiet _)).bind fun _ _ _ => ?_
  refine fun hs => (create_keeps (.proxy _) _ _ hs).mono ?_
  rintro s' (e | proxy) ⟨hs', -⟩ <;> exact ⟨hs', trivial⟩

theorem prepareUpgrade_keeps (proxy : Address) (artifact : Artifact) (options : Deploy.Options) :
    Keeps s (site.collaborators.backend.prepareUpgrade proxy artifact options) fun s' address =>
      (artifact.codeHash options.constructorArgs, address) ∈ s'.recorded :=
  (keeps_of_asks (implementationOf_asks isNotable_of_isQuiet proxy)).bind fun _ _ _ =>
    implementationFor_keeps artifact _ options.constructorArgs

/-! ### Whole calls -/

theorem locate_keeps (request : Deploy.Request) (artifact : Artifact) (state : State) :
    Keeps s (Deploy.locate site.collaborators request artifact state) fun _ _ => True := by
  have hquiet := isNotable_of_isQuiet
  refine (keeps_of_asks (proxyAddress_asks hquiet request.key)).bind fun _ found _ => ?_
  rcases found with - | proxy
  · refine (keeps_of_asks (Action.asks_ofExcept _)).bind fun _ data _ => ?_
    refine (createProxy_keeps artifact data request.options).bind fun _ proxy _ => ?_
    refine (keeps_of_asks (saveProxy_asks hquiet (fun _ _ => rfl) request.key proxy)).bind
      fun _ _ _ => ?_
    refine (keeps_of_asks (Action.asks_ofExcept _)).bind fun _ _ _ => ?_
    exact fun hs => ⟨hs, trivial⟩
  · refine (keeps_of_asks (hasCode_asks hquiet proxy)).bind fun _ live _ => ?_
    split <;> exact fun hs => ⟨hs, trivial⟩

theorem upgrade_keeps (request : Deploy.Request) (artifact : Artifact) (proxy : Address)
    (state : State) :
    Keeps s (Deploy.upgrade site.collaborators request artifact proxy state) fun _ _ => True := by
  have hquiet := isNotable_of_isQuiet
  refine (keeps_of_asks (currentOf_asks hquiet request.key proxy)).bind fun _ current _ => ?_
  refine (prepareUpgrade_keeps proxy artifact request.options).bind fun s candidate hrecorded => ?_
  intro hs
  -- It has just been looked up, or recorded, under the same code.
  have hmay : s.MayRecord (artifact.codeHash request.options.constructorArgs) candidate :=
    ⟨hs.returned hrecorded, fun other hother => hs.single hother hrecorded⟩
  refine ((recordAlias_keeps site.account hmay).bind fun s _ _ => ?_) hs
  refine (keeps_of_asks (same_asks hquiet current candidate)).bind fun _ same _ => ?_
  split
  · exact fun hs => ⟨hs, trivial⟩
  have hactivate : (Deploy.activate site.collaborators request artifact proxy candidate).Asks
      fun question => question.isNotable = false := by
    have hsend : (site.collaborators.send
        (.upgrade proxy candidate request.options.upgradeData)).Asks
        fun question => question.isNotable = false :=
      send_asks hquiet (fun _ => rfl) (fun _ => rfl) _
    rw [Deploy.activate]
    split
    · exact .bind (validate_asks hquiet proxy candidate artifact) fun _ => hsend
    · exact hsend
  refine (keeps_of_asks hactivate).bind fun _ outcome _ => ?_
  refine (keeps_of_asks (Action.asks_ofExcept _)).bind fun _ _ _ => ?_
  exact fun hs => ⟨hs, trivial⟩

theorem record_keeps (request : Deploy.Request) :
    Keeps s (Deploy.record site.collaborators request) fun _ _ => True := by
  have hquiet := isNotable_of_isQuiet
  refine (keeps_of_asks (artifact_asks hquiet request.name.artifact)).bind fun _ artifact _ => ?_
  refine (locate_keeps request artifact .initial).bind fun _ located _ => ?_
  refine (upgrade_keeps request artifact located.1 located.2).bind fun _ upgraded _ => ?_
  refine (keeps_of_asks (Action.asks_lift (deploy_verify_asks hquiet ..))).bind fun _ _ _ => ?_
  exact fun hs => ⟨hs, trivial⟩

end Steps

/-! ### Any sequence of calls -/

/-- **A call leads from some annals to others**: one of the backend of some site, or a deployment
there. -/
inductive Called (s s' : Annals) : Prop
  | createProxy {site : Site} {artifact : Artifact} {data : Bytes} {options : Deploy.Options}
      {turns : List Turn} {result : Except Error Address}
      (run : Dialogue.Run (site.collaborators.backend.createProxy artifact data options).run turns
        result)
      (steps : remembering.Steps s turns s')
  | prepareUpgrade {site : Site} {proxy : Address} {artifact : Artifact} {options : Deploy.Options}
      {turns : List Turn} {result : Except Error Address}
      (run : Dialogue.Run (site.collaborators.backend.prepareUpgrade proxy artifact options).run
        turns result)
      (steps : remembering.Steps s turns s')
  | deploy {site : Site} {request : Deploy.Request} {session : Session} {turns : List Turn}
      {result : Except Error (Record × Session)}
      (run : Dialogue.Run (site.deploy request session) turns result)
      (steps : remembering.Steps s turns s')

/-- One call leaves the annals in order. -/
theorem Called.orderly {s s' : Annals} (h : Called s s') (hs : Orderly s) : Orderly s' := by
  cases h with
  | createProxy run steps => exact (run.post steps (createProxy_keeps _ _ _ hs)).1
  | prepareUpgrade run steps => exact (run.post steps (prepareUpgrade_keeps _ _ _ hs)).1
  | deploy run steps =>
    obtain ⟨recorded, run, -⟩ := deploy_run run
    exact (run.post steps (record_keeps _ hs)).1

/-- **The annals that calls lead to**, one after another, from an empty history. -/
def Written (s : Annals) : Prop := Relation.ReflTransGen Called .empty s

theorem Written.orderly {s : Annals} (h : Written s) : Orderly s := by
  induction h with
  | refl => exact History.orderly_empty
  | tail _ call ih => exact call.orderly ih

/-! ### Comparisons -/

section Comparisons

variable (site : Site) (s : Annals) (a b : Address)

/-- The comparator answers whether two addresses carry the same code. -/
def Compares (answer : Bool) : Prop :=
  ∃ turns s', Dialogue.Run (site.collaborators.comparator.same a b).run turns (.ok answer) ∧
    remembering.Steps s turns s'

/-- The history answers which group an address belongs to. -/
def Finds (found : Option Group) : Prop :=
  ∃ turns s', Dialogue.Run (site.collaborators.comparator.store.ofAddress a).run turns (.ok found) ∧
    remembering.Steps s turns s'

variable {site s a b}

theorem finds_iff {found : Option Group} :
    Finds site s a found ↔ found = s.manifest.ofAddress? a := by
  constructor
  · rintro ⟨turns, s', run, steps⟩
    have hobeys : (site.collaborators.comparator.store.ofAddress a).Obeys remembering s
        (Action.Yielding fun _ found => found = s.manifest.ofAddress? a) := by
      refine ⟨trivial, ?_⟩
      rintro (e | found) s' ⟨-, hsaid⟩
      · trivial
      · exact hsaid found rfl
    exact run.post steps hobeys
  · rintro rfl
    exact ⟨[⟨.groupOfAddress a, .ok _⟩], s, .ask _ (.done _), .cons ⟨rfl, says_ok _⟩ (.nil s)⟩

/-- What the comparator answers is settled by the groups on record. -/
theorem compares_iff_groups {answer : Bool} : Compares site s a b answer ↔
    answer = (a = b || site.aliasing &&
      s.manifest.any fun group => group.has a && group.has b) := by
  have haliasing : site.collaborators.comparator.aliasing = site.aliasing := rfl
  -- The groups are only asked for where they matter.
  rw [Compares, History.Comparator.same, haliasing]
  by_cases heq : a = b
  · simp only [heq, if_true, decide_true, Bool.true_or]
    constructor
    · rintro ⟨turns, s', run, -⟩
      cases run
      rfl
    · rintro rfl
      exact ⟨[], s, .done _, .nil s⟩
  rcases site.aliasing with - | -
  · simp only [heq, if_false, Bool.not_false, if_true, decide_false, Bool.false_and, Bool.or_false]
    constructor
    · rintro ⟨turns, s', run, -⟩
      cases run
      rfl
    · rintro rfl
      exact ⟨[], s, .done _, .nil s⟩
  simp only [heq, if_false, Bool.not_true, Bool.false_eq_true, decide_false, Bool.true_and,
    Bool.false_or]
  constructor
  · rintro ⟨turns, s', run, steps⟩
    obtain - | ⟨said, rest⟩ := run
    obtain - | ⟨⟨rfl, hsaid⟩, -⟩ := steps
    rcases said with e | groups
    · cases rest
    · obtain rfl := hsaid groups rfl
      cases rest
      rfl
  · rintro rfl
    exact ⟨[⟨.groups, .ok s.manifest⟩], s, .ask _ (.done _), .cons ⟨rfl, says_ok _⟩ (.nil s)⟩

theorem compares_iff (hs : Orderly s) {answer : Bool} : Compares site s a b answer ↔
    (answer = true ↔ a = b ∨ site.aliasing = true ∧ s.Share a b) := by
  rw [compares_iff_groups, ← hs.shares_iff, Bool.eq_iff_iff]
  simp

end Comparisons

/-- **Groups stay apart**, whatever has been called and whatever has become of the calls, as long as
no contract is created at an address a second time. So a comparison is an equivalence: with
aliasing, addresses are taken for the same if they were recorded under one code, and the group that
is found for an address consists of those; without, only an address is the same as itself. -/
theorem groups_apart {s : Annals} (h : Written s) :
    (s.manifest.Pairwise fun group other =>
      ∀ a, ¬ (group.has a = true ∧ other.has a = true)) ∧
    ∀ site : Site,
      (Equivalence fun a b => Compares site s a b true) ∧
      (∀ a b answer, Compares site s a b answer ↔
        (answer = true ↔ a = b ∨ site.aliasing = true ∧
          ∃ code, (code, a) ∈ s.recorded ∧ (code, b) ∈ s.recorded)) ∧
      (site.aliasing = true → ∀ code a, (code, a) ∈ s.recorded →
        ∃ group, (∀ found, Finds site s a found ↔ found = some group) ∧
          ∀ b, group.has b = true ↔ Compares site s a b true) ∧
      (site.aliasing = false → ∀ a b, Compares site s a b true ↔ a = b) := by
  have hs := h.orderly
  refine ⟨hs.disjoint, fun site => ⟨?_, fun a b answer => compares_iff hs, ?_, ?_⟩⟩
  · simp only [compares_iff hs, true_iff]
    rcases site.aliasing with - | -
    · simpa using eq_equivalence
    · simpa using hs.equivalence
  · intro haliasing code a hrecorded
    obtain ⟨group, hgroup, hhas⟩ := hs.ofAddress?_recorded hrecorded
    refine ⟨group, fun found => by rw [finds_iff, hgroup], fun b => ?_⟩
    rw [hhas, compares_iff hs]
    -- A recorded address shares its own group.
    have hself : a = b → s.Share a b := by
      rintro rfl
      exact ⟨code, hrecorded, hrecorded⟩
    simpa [haliasing] using hself
  · intro haliasing a b
    simp [compares_iff hs, haliasing]

/-! A proxy is created, its implementation loses its code, and another one is made for it. -/

/-- The plain site, where aliasing is on. -/
def sharing : Site := { plain with aliasing := true }

/-- The annals once the proxy is created. -/
def createdAnnals : Annals :=
  ((Annals.empty.create ⟨1⟩).record .epoch plainCode ⟨1⟩).create ⟨2⟩

/-- The turns in which the other implementation is created. -/
def replacementTurns (site : Site) : List Turn :=
  [⟨.exchange (site.slotQuery ⟨2⟩), some (Node.replyOf (Address.bytes ⟨1⟩))⟩] ++
  (⟨.groupOfCode plainCode, .ok (some ⟨plainCode, ⟨1⟩, []⟩)⟩ ::
    List.replicate 2 ⟨.exchange (site.codeQuery ⟨1⟩), some (Node.replyOf [])⟩ ++
  [⟨.create .implementation [1], .ok (receiptOf ⟨3⟩)⟩,
    ⟨.recordAlias plainCode ⟨3⟩, .ok ⟨plainCode, ⟨1⟩, [⟨⟨3⟩, .epoch⟩]⟩⟩])

/-- The annals after that. -/
def replacedAnnals : Annals := (createdAnnals.create ⟨3⟩).record .epoch plainCode ⟨3⟩

theorem createdAnnals_steps : remembering.Steps .empty
    (creationTurns sharing plainFiles plainRequest ⟨"Stub", [1]⟩ ⟨"Proxy", [1]⟩ [] ⟨1⟩ ⟨2⟩)
    createdAnnals := by
  refine .cons ⟨rfl, says_ok _⟩ (.cons ⟨List.not_mem_nil, rfl⟩ (.cons
    (.inl ⟨.epoch, rfl, says_ok _⟩) (.cons rfl (.cons ⟨?_, rfl⟩ (.nil _)))))
  decide

theorem replacementTurns_run {site : Site} (hreachable : site.Reachable) :
    Dialogue.Run (site.collaborators.backend.prepareUpgrade ⟨2⟩ ⟨"Stub", [1]⟩
      plainRequest.options).run (replacementTurns site) (.ok ⟨3⟩) := by
  have hdead : Dialogue.Run ((site.proxies (asking site.account)).hasCode ⟨1⟩).run _
      (.ok false) := hasCode_run hreachable ⟨1⟩ []
  have hcandidates : Node.Proxies.candidates ⟨plainCode, ⟨1⟩, []⟩ (some ⟨1⟩) = [⟨1⟩, ⟨1⟩] := by
    simp [Node.Proxies.candidates, Option.filter, Group.has, Group.addresses]
  have hlive : Dialogue.Run ((site.proxies (asking site.account)).firstLive
      (Node.Proxies.candidates ⟨plainCode, ⟨1⟩, []⟩ (some ⟨1⟩))).run
      (List.replicate 2 ⟨.exchange (site.codeQuery ⟨1⟩), some (Node.replyOf [])⟩)
      (.ok none) := by
    rw [hcandidates]
    exact Action.run_bind hdead (Action.run_bind hdead (.done _))
  have hexisting : Dialogue.Run ((site.proxies (asking site.account)).existing plainCode
      (some ⟨1⟩)).run (⟨.groupOfCode plainCode, .ok (some ⟨plainCode, ⟨1⟩, []⟩)⟩ ::
        List.replicate 2 ⟨.exchange (site.codeQuery ⟨1⟩), some (Node.replyOf [])⟩)
      (.ok none) := .ask _ hlive
  exact Action.run_bind (implementationOf_run hreachable ⟨2⟩ ⟨1⟩)
    (Action.run_bind hexisting (.ask _ (.ask _ (.done _))))

theorem replacementTurns_steps :
    remembering.Steps createdAnnals (replacementTurns sharing) replacedAnnals := by
  have hgroup : createdAnnals.manifest.ofCode? plainCode = some ⟨plainCode, ⟨1⟩, []⟩ := by
    simp [createdAnnals, Annals.create, Annals.record, Annals.empty, History.Manifest.record,
      History.Manifest.ofCode?]
  have hsaid : (.ok ⟨plainCode, ⟨1⟩, [⟨⟨3⟩, .epoch⟩]⟩ : Except Error Group) = .ok
      ((createdAnnals.create ⟨3⟩).manifest.record .epoch plainCode ⟨3⟩).1 := by
    simp [createdAnnals, Annals.create, Annals.record, Annals.empty, History.Manifest.record,
      Group.add, Group.has, Group.addresses]
  refine .cons rfl (.cons ⟨rfl, hgroup ▸ says_ok _⟩ (.cons rfl (.cons rfl (.cons ⟨?_, rfl⟩ (.cons
    (.inl ⟨.epoch, rfl, hsaid ▸ says_ok _⟩) (.nil _))))))
  decide

theorem replacedAnnals_written : Written replacedAnnals :=
  .tail (.single (.createProxy (createdTurns_run (plain_artifactIn _ _)) createdAnnals_steps))
    (.prepareUpgrade (replacementTurns_run plain_reachable) replacementTurns_steps)

theorem groups_apart_replaced : Written replacedAnnals ∧
    Compares sharing replacedAnnals ⟨1⟩ ⟨3⟩ true ∧ Compares sharing replacedAnnals ⟨1⟩ ⟨2⟩ false ∧
      ∃ group, Finds sharing replacedAnnals ⟨1⟩ (some group) ∧ group.has ⟨3⟩ = true := by
  obtain ⟨-, hsites⟩ := groups_apart replacedAnnals_written
  obtain ⟨-, hcompares, hfinds, -⟩ := hsites sharing
  have hrecorded : replacedAnnals.recorded = [(plainCode, ⟨3⟩), (plainCode, ⟨1⟩)] := rfl
  have hsame : Compares sharing replacedAnnals ⟨1⟩ ⟨3⟩ true :=
    (hcompares ..).mpr (by simp [hrecorded, show sharing.aliasing = true from rfl])
  have hother : Compares sharing replacedAnnals ⟨1⟩ ⟨2⟩ false :=
    (hcompares ..).mpr (by simp [hrecorded])
  obtain ⟨group, hfound, hhas⟩ := hfinds rfl plainCode ⟨1⟩ (by simp [hrecorded])
  exact ⟨replacedAnnals_written, hsame, hother, group, (hfound _).mpr rfl, (hhas _).mpr hsame⟩

end ProxyUpgrade.Site
