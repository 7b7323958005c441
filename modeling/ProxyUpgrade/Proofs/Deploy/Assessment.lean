import ProxyUpgrade.Proofs.Beside
import ProxyUpgrade.Proofs.Site.Steps
/-!
# Before anything is activated

An upgrade has two parts (`Deploy.upgrade_eq_assess`). First the proxy is *assessed*: which
implementation it has, which one it is to have, and whether the two are taken to carry the same
code. Then the difference, if there is one, is *settled*. Only the second part depends on the way
that calls take to the chain.

What an assessment finds follows from the ledger alone, up to the address at which a new
implementation may have to be created (`Site.Provides`). This is shown at once for rules where
anything may fail and for those where nobody does (`Site.Ends`).
-/

namespace ProxyUpgrade

/-! ### Both parts of an upgrade -/

namespace Deploy

/-- What is known of a proxy once it has been assessed. -/
structure Assessment where
  /-- The implementation behind the proxy. -/
  current : Address
  /-- The one that it is to have. -/
  candidate : Address
  /-- Whether they are taken to carry the same code. -/
  same : Bool

section Parts

variable {m : Type → Type} [Monad m] (c : Collaborators m) (request : Request)
  (artifact : Artifact) (proxy : Address)

/-- The first part of an upgrade. -/
def assess : Action m Assessment := do
  let current ← currentOf c request.key proxy
  let candidate ← c.backend.prepareUpgrade proxy artifact request.options
  let _ ← c.comparator.store.record (artifact.codeHash request.options.constructorArgs) candidate
  pure ⟨current, candidate, ← c.comparator.same current candidate⟩

/-- The second part. -/
def settle (state : State) (found : Assessment) :
    Action m (Address × Option Route.Outcome × State) := do
  if found.same then pure (found.current, none, state)
  else
    let outcome ← activate c request artifact proxy found.candidate
    let state ← Action.ofExcept (state.advance .upgraded)
    pure (found.candidate, some outcome, state)

theorem upgrade_eq_assess [LawfulMonad m] (state : State) :
    upgrade c request artifact proxy state =
      assess c request artifact proxy >>= settle c request artifact proxy state := by
  simp only [upgrade, assess, settle, bind_assoc, pure_bind]

end Parts

end Deploy

namespace Site

open Deploy (Request Assessment)

/-! ### Steps that may only fail where others do -/

section Ends

variable {S α β : Type}

/-- **What holds at the end of an action**, unless it has failed; and it may only fail where not
everybody answers. -/
def Ends (answering : Prop) (post : S → α → Prop) (s : S) : Except Error α → Prop
  | .ok a => post s a
  | .error _ => ¬ answering

variable {answering : Prop} {rules : Dialogue.Rules S Question Question.Answer} {s : S}

/-- A step only has to say what it hands on. -/
theorem obeys_bind_ends {x : Action Talk α} {f : α → Action Talk β} {post : S → β → Prop} :
    (x >>= f).Obeys rules s (Ends answering post) ↔
      x.Obeys rules s (Ends answering fun s a => (f a).Obeys rules s (Ends answering post)) := by
  refine Action.obeys_bind.trans (iff_of_eq (congrArg _ ?_))
  funext s result
  cases result <;> rfl

theorem Ends.mono {post post' : S → α → Prop} {result : Except Error α}
    (h : Ends answering post s result) (himp : ∀ a, post s a → post' s a) :
    Ends answering post' s result := by
  rcases result with e | a
  · exact h
  · exact himp a h

end Ends

/-! ### Implementations that are made available -/

/-- **An implementation is made available**: the one on record, or else one that is created and
recorded. -/
inductive Provides (rules : Dialogue.Rules Ledger Question Question.Answer) (s : Ledger)
    (artifact : Artifact) (args : Bytes) (current : Option Address) (candidate : Address) :
    Ledger → Prop
  | found (h : s.onRecord (artifact.codeHash args) current = some candidate) :
    Provides rules s artifact args current candidate s
  | created (hnone : s.onRecord (artifact.codeHash args) current = none)
      {answer : Except Error Receipt} {s₁ : Ledger}
      (hanswer : rules.answers s (.create .implementation (artifact.creationCode args)) answer s₁)
      (hreported : reported answer = some candidate) (now : Timestamp) :
    Provides rules s artifact args current candidate
      (s₁.recordAlias now (artifact.codeHash args) candidate)

section Provides

variable {site : Site} {rules : Dialogue.Rules Ledger Question Question.Answer}
  {answering : Prop} {s s' : Ledger} (h : site.Honest rules answering) {artifact : Artifact}
  {args : Bytes} {current : Option Address} {candidate : Address}
include h

/-- It is what would be chosen next, and belongs to the group of the code. -/
theorem Provides.next (hprovides : Provides rules s artifact args current candidate s') :
    (∃ group, s'.manifest.ofCode? (artifact.codeHash args) = some group ∧
      group.has candidate = true) ∧
    s'.onRecord (artifact.codeHash args) current = some candidate := by
  cases hprovides with
  | found hfound =>
    obtain ⟨group, hgroup, hhas, -⟩ := group_of_onRecord hfound
    exact ⟨⟨group, hgroup, hhas⟩, hfound⟩
  | created hnone hanswer hreported now =>
    have hcreated := creates_of_reported (h.answers hanswer) hreported
    obtain ⟨group, hgroup, hhas, hnext⟩ :=
      onRecord_created hnone hcreated.manifest hcreated.live (fun _ => hcreated.live_of_ne) now
    exact ⟨⟨group, hgroup, hhas⟩, hnext⟩

theorem Provides.live (hprovides : Provides rules s artifact args current candidate s') :
    s'.live candidate = true := by
  obtain ⟨-, -, -, hlive⟩ := group_of_onRecord (hprovides.next h).2
  exact hlive

/-- Nothing else becomes of the code at other addresses. -/
theorem Provides.live_of_ne (hprovides : Provides rules s artifact args current candidate s')
    {other : Address} (hne : other ≠ candidate) : s'.live other = s.live other := by
  cases hprovides with
  | found => rfl
  | created hnone hanswer hreported now =>
    have hcreated := creates_of_reported (h.answers hanswer) hreported
    exact hcreated.live_of_ne hne

/-- Proxies that are there keep their implementations. -/
theorem Provides.slot (hprovides : Provides rules s artifact args current candidate s')
    {proxy : Address} (hlive : s.live proxy = true) : s'.slot proxy = s.slot proxy := by
  cases hprovides with
  | found => rfl
  | created hnone hanswer hreported now =>
    have hcreated := creates_of_reported (h.answers hanswer) hreported
    exact hcreated.slot_of_ne (hcreated.ne_of_live hlive)

/-- The registry is left alone. -/
theorem Provides.table (hprovides : Provides rules s artifact args current candidate s') :
    s'.table = s.table := by
  cases hprovides with
  | found => rfl
  | created hnone hanswer hreported now =>
    exact (creates_of_reported (h.answers hanswer) hreported).table

omit h in
theorem Provides.zero
    (hvoid : ∀ {s question answer s'}, rules.answers s question answer s' → s'.code .zero = [])
    (hprovides : Provides rules s artifact args current candidate s')
    (hzero : s.code .zero = []) : s'.code .zero = [] := by
  cases hprovides with
  | found => exact hzero
  | created hnone hanswer hreported now =>
    have hfree := hvoid hanswer
    exact hfree

theorem implementationFor_provides
    (hpermits : s.onRecord (artifact.codeHash args) current = none →
      rules.permits s (.create .implementation (artifact.creationCode args)))
    (hcreates : answering → ∀ answer s₁,
      rules.answers s (.create .implementation (artifact.creationCode args)) answer s₁ →
        ∃ address, reported answer = some address) :
    ((site.proxies (asking site.account)).implementationFor artifact current args).Obeys rules s
      (Ends answering fun s' candidate =>
        Provides rules s artifact args current candidate s') := by
  refine implementationFor_obeys h (fun hfails _ => hfails) (fun _ => .found) hpermits ?_ ?_
  · rintro hnone answer address s₁ hanswer hreported (e | group) s₂ hanswer'
    · intro hanswering
      obtain ⟨group, hgroup⟩ := h.answered hanswering hanswer'
      cases hgroup
    · rcases h.answers hanswer' with ⟨now, rfl, -⟩ | ⟨⟨e, he⟩, -⟩
      · exact .created hnone hanswer hreported now
      · cases he
  · intro answer s₁ hanswer hnothing e hanswering
    obtain ⟨address, hreported⟩ := hcreates hanswering answer s₁ hanswer
    rw [hnothing] at hreported
    cases hreported

end Provides

/-! ### Assessments -/

/-- **What an assessment finds.** -/
structure Assessed (site : Site) (rules : Dialogue.Rules Ledger Question Question.Answer)
    (s : Ledger) (artifact : Artifact) (args : Bytes) (proxy : Address) (s' : Ledger)
    (found : Assessment) : Prop where
  reachable : site.Reachable
  current : found.current = s.slot proxy
  nonzero : s.slot proxy ≠ .zero
  provides : Provides rules s artifact args (some (s.slot proxy)) found.candidate s'
  same : found.same = s'.same site.aliasing (s.slot proxy) found.candidate

section Assessed

variable {site : Site} {rules : Dialogue.Rules Ledger Question Question.Answer}
  {answering : Prop} {s : Ledger} (h : site.Honest rules answering) {request : Request}
  {artifact : Artifact} {proxy : Address}
include h

/-- Nothing is found where the node cannot be reached. -/
theorem assess_unreachable (hunreachable : ¬ site.Reachable) {post : Ledger → Assessment → Prop} :
    (Deploy.assess site.collaborators request artifact proxy).Obeys rules s
      (Ends answering post) := by
  refine obeys_bind_ends.mpr (obeys_bind_ends.mpr
    ((implementationOf_unreachable h hunreachable proxy).mono ?_))
  rintro s' (e | current) hnever
  · exact fun hanswering => hunreachable (h.reachable hanswering)
  · exact hnever.elim

theorem assess_obeys (hnonzero : answering → s.slot proxy ≠ .zero)
    (hpermits : s.onRecord (artifact.codeHash request.options.constructorArgs)
      (some (s.slot proxy)) = none → rules.permits s
        (.create .implementation (artifact.creationCode request.options.constructorArgs)))
    (hcreates : answering → ∀ answer s₁,
      rules.answers s (.create .implementation
        (artifact.creationCode request.options.constructorArgs)) answer s₁ →
          ∃ address, reported answer = some address) :
    (Deploy.assess site.collaborators request artifact proxy).Obeys rules s
      (Ends answering
        (Assessed site rules s artifact request.options.constructorArgs proxy)) := by
  by_cases hreachable : ¬ site.Reachable
  · exact assess_unreachable h hreachable
  by_cases hzero : s.slot proxy = .zero
  · refine obeys_bind_ends.mpr (currentOf_obeys h (fun hfails _ => hfails) (fun _ _ => ?_) ?_)
    · exact fun hanswering => hnonzero hanswering hzero
    · exact fun hne => absurd hzero hne
  refine (currentOf_reads h hzero request.key).obeys_bind (fun hfails _ => hfails) ?_
  refine obeys_bind_ends.mpr (prepareUpgrade_obeys h (fun hfails _ => hfails)
    ((implementationFor_provides h hpermits hcreates).mono fun s' result hprovides => ?_))
  refine hprovides.mono fun candidate hprovides => ?_
  -- It has just been put on record, if it was not.
  obtain ⟨⟨group, hgroup, hhas⟩, -⟩ := hprovides.next h
  refine (recordAlias_reads h hgroup hhas).obeys_bind (fun hfails _ => hfails) ?_
  refine (same_reads h _ candidate).obeys_bind (fun hfails _ => hfails) ?_
  exact ⟨not_not.mp hreachable, rfl, hzero, hprovides, rfl⟩

end Assessed

/-! ### Settling on the direct route -/

/-- **A difference has been settled**: there was none, or the implementation has been activated,
after it was `accepted`. -/
inductive Settled (accepted : Prop) (s : Ledger) (proxy : Address) (state : State)
    (found : Assessment) : Ledger → Address × Option Route.Outcome × State → Prop
  | unchanged (hsame : found.same = true) :
    Settled accepted s proxy state found s (found.current, none, state)
  | activated (hsame : found.same = false) (haccepted : accepted) {s' : Ledger}
      (hupgraded : s.Upgraded proxy found.candidate s') (outcome : Route.Outcome) {state' : State}
      (hstate : state.advance .upgraded = .ok state') :
    Settled accepted s proxy state found s' (found.candidate, some outcome, state')

/-- Only what is acceptable is activated. -/
theorem Settled.accepted {accepted : Prop} {s s' : Ledger} {proxy : Address} {state : State}
    {found : Assessment} {result : Address × Option Route.Outcome × State}
    (h : Settled accepted s proxy state found s' result) (hdiffer : found.same = false) :
    accepted := by
  cases h with
  | unchanged hsame =>
    rw [hsame] at hdiffer
    cases hdiffer
  | activated _ haccepted => exact haccepted

section Settled

variable {site : Site} {rules : Dialogue.Rules Ledger Question Question.Answer}
  {answering : Prop} {s : Ledger} (h : site.Honest rules answering) {request : Request}
  {artifact : Artifact} {proxy candidate : Address}
include h

/-- An upgrade is sent until it is mined, and may be mined more than once. -/
theorem send_upgrades {retry : Retry.Policy} (hway : site.way = .direct retry)
    (hpermits : ∀ s call, rules.permits s (.send call)) (data : Bytes) :
    (site.collaborators.send (.upgrade proxy candidate data)).Obeys rules s
      (Action.Yielding fun s' _ => s.Upgraded proxy candidate s') := by
  refine send_obeys h hway (fun s' => s' = s ∨ s.Upgraded proxy candidate s')
    (fun _ _ _ => trivial) (fun s' hkept => ⟨hpermits _ _, fun answer s'' hanswer => ?_⟩) (.inl rfl)
  have hactivated : s.Upgraded proxy candidate (s'.activate ⟨proxy, candidate⟩) := by
    rcases hkept with rfl | hkept
    · exact Ledger.upgraded_activate ..
    · exact hkept.activate
  rcases h.answers hanswer with hactivates | ⟨⟨e, rfl⟩, rfl⟩
  · obtain rfl := Ledger.activates_upgrade hactivates
    rcases answer with e | receipt
    · exact .inr hactivated
    · exact hactivated
  · exact hkept

/-- What is activated has been accepted, if it was to be checked. -/
theorem activate_upgrades {retry : Retry.Policy} (hway : site.way = .direct retry)
    (hpermits : ∀ s call, rules.permits s (.send call)) {accepted : Prop}
    (haccepts : (site.collaborators.backend.validateUpgrade proxy candidate artifact).Obeys rules s
      (Action.Yielding fun s' _ => s' = s ∧ accepted)) :
    (Deploy.activate site.collaborators request artifact proxy candidate).Obeys rules s
      (Action.Yielding fun s' _ =>
        (request.options.validate = true → accepted) ∧ s.Upgraded proxy candidate s') := by
  have hsend : (site.collaborators.send
      (.upgrade proxy candidate request.options.upgradeData)).Obeys rules s
        (Action.Yielding fun s' _ => s.Upgraded proxy candidate s') :=
    send_upgrades h hway hpermits _
  rw [Deploy.activate]
  split
  · refine Action.obeys_bind_yielding.mpr (haccepts.mono ?_)
    rintro _ (e | _) hchecked
    · trivial
    obtain ⟨rfl, haccepted⟩ := hchecked
    refine hsend.mono ?_
    rintro s' (e | outcome) hupgraded
    · trivial
    · exact ⟨fun _ => haccepted, hupgraded⟩
  next hskipped =>
    refine hsend.mono ?_
    rintro s' (e | outcome) hupgraded
    · trivial
    · exact ⟨fun hchecked => absurd hchecked hskipped, hupgraded⟩

theorem settle_obeys {retry : Retry.Policy} (hway : site.way = .direct retry)
    (hpermits : ∀ s call, rules.permits s (.send call)) {found : Assessment} {accepted : Prop}
    (haccepts : (site.collaborators.backend.validateUpgrade proxy found.candidate artifact).Obeys
      rules s (Action.Yielding fun s' _ => s' = s ∧ accepted)) (state : State) :
    (Deploy.settle site.collaborators request artifact proxy state found).Obeys rules s
      (Action.Yielding (Settled (request.options.validate = true → accepted) s proxy state
        found)) := by
  rw [Deploy.settle]
  cases hsame : found.same with
  | true => exact .unchanged hsame
  | false =>
    simp only [Bool.false_eq_true, if_false]
    refine Action.obeys_bind_yielding.mpr
      ((activate_upgrades h hway hpermits haccepts).mono ?_)
    rintro s' (e | outcome) hdone
    · trivial
    rcases hstate : state.advance .upgraded with e | state'
    · trivial
    · exact .activated hsame hdone.1 hdone.2 outcome hstate

end Settled

/-- **What becomes of an upgrade on the direct route**: the proxy is assessed, and the difference is
settled. -/
theorem upgrade_settles {site : Site} {rules : Dialogue.Rules Ledger Question Question.Answer}
    {s : Ledger} {request : Request} {artifact : Artifact} (h : site.Honest rules False)
    (hpermits : ∀ s question, rules.permits s question) {retry : Retry.Policy}
    (hway : site.way = .direct retry) (proxy : Address) (state : State) :
    (Deploy.upgrade site.collaborators request artifact proxy state).Obeys rules s
      (Action.Yielding fun s' result => ∃ s₁ found,
        Assessed site rules s artifact request.options.constructorArgs proxy s₁ found ∧
          Settled (request.options.validate = true → True) s₁ proxy state found s' result) := by
  rw [Deploy.upgrade_eq_assess, Action.obeys_bind_yielding]
  refine (assess_obeys h False.elim (fun _ => hpermits _ _) False.elim).mono ?_
  rintro s₁ (e | found) hassessed
  · trivial
  have haccepts : (site.collaborators.backend.validateUpgrade proxy found.candidate artifact).Obeys
      rules s₁ (Action.Yielding fun s' _ => s' = s₁ ∧ True) := by
    refine (validate_obeys h proxy found.candidate artifact).mono ?_
    rintro _ (e | _) rfl
    · trivial
    · exact ⟨rfl, trivial⟩
  refine (settle_obeys h hway (fun _ _ => hpermits _ _) haccepts state).mono ?_
  rintro s' (e | result) hsettled
  · trivial
  · exact ⟨s₁, found, hassessed, hsettled⟩

end Site

end ProxyUpgrade
