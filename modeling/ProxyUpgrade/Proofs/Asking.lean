import ProxyUpgrade.Proofs.Retry
/-!
# What is asked at all

Often all that matters of a step is which questions it may ask, whatever it is answered
(`Dialogue.Asks`). This needs no state, so it is found once, and then tells of every kind of
surroundings: what all those questions keep is kept (`Dialogue.Asks.obeys`).

Rules may also be followed from afar. Where each answer could be given under other rules as well, a
dialogue that obeys those rules obeys the present ones too (`Dialogue.Obeys.simulated`).
-/

namespace ProxyUpgrade

namespace Dialogue

variable {Q : Type} {A : Q → Type} {S T α β : Type}

/-- The rules where only some questions may be asked. -/
def Rules.only (p : Q → Prop) : Rules Unit Q A where
  permits _ := p
  answers _ _ _ _ := True

/-- **A dialogue asks some questions only**, whatever it is answered. -/
def Asks (p : Q → Prop) (d : Dialogue Q A α) : Prop := d.Obeys (.only p) () fun _ _ => True

variable {p : Q → Prop} {d : Dialogue Q A α}

theorem asks_question {q : Q} (h : p q) : (question (A := A) q).Asks p := ⟨h, fun _ _ _ => trivial⟩

theorem Asks.bind {f : α → Dialogue Q A β} (hd : d.Asks p) (hf : ∀ a, (f a).Asks p) :
    (d >>= f).Asks p :=
  obeys_bind.mpr (hd.mono fun _ a _ => hf a)

/-- **What each of those questions keeps is kept.** -/
theorem Asks.obeys {rules : Rules S Q A} (kept : S → Prop) (h : d.Asks p)
    (hp : ∀ s q, kept s → p q → rules.permits s q ∧
      ∀ answer s', rules.answers s q answer s' → kept s') {s : S} (hs : kept s) :
    d.Obeys rules s fun s' _ => kept s' := by
  induction d generalizing s with
  | done a => exact hs
  | ask q next ih =>
    obtain ⟨hpermits, hanswers⟩ := hp s q hs h.1
    exact ⟨hpermits, fun answer s' hanswer =>
      ih answer (h.2 answer () trivial) (hanswers answer s' hanswer)⟩

/-- **Rules are obeyed where others are**, in surroundings that can be followed step by step:
whatever is answered there could be answered under those rules as well. Only what the dialogue asks
matters. -/
theorem Obeys.simulated {rules : Rules S Q A} {rules' : Rules T Q A} (R : S → T → Prop)
    (hpermits : ∀ {s t q}, R s t → p q → rules.permits s q → rules'.permits t q)
    (hanswers : ∀ {s t q answer t'}, R s t → p q → rules'.answers t q answer t' →
      ∃ s', rules.answers s q answer s' ∧ R s' t')
    {s : S} {t : T} {post : S → α → Prop} (h : d.Obeys rules s post) (hasks : d.Asks p)
    (hst : R s t) : d.Obeys rules' t fun t' a => ∃ s', R s' t' ∧ post s' a := by
  induction d generalizing s t with
  | done a => exact ⟨s, hst, h⟩
  | ask q next ih =>
    refine ⟨hpermits hst hasks.1 h.1, fun answer t' hanswer => ?_⟩
    obtain ⟨s', hanswer', hst'⟩ := hanswers hst hasks.1 hanswer
    exact ih answer (h.2 answer s' hanswer') (hasks.2 answer () trivial) hst'

end Dialogue

namespace Action

variable {Q : Type} {A : Q → Type} {α β : Type} {p : Q → Prop}

/-- An action asks some questions only if its dialogue does. -/
def Asks (p : Q → Prop) (x : Action (Dialogue Q A) α) : Prop := Dialogue.Asks p x.run

theorem asks_pure (a : α) : (pure a : Action (Dialogue Q A) α).Asks p := trivial

theorem asks_throw (e : Error) : (throw e : Action (Dialogue Q A) α).Asks p := trivial

theorem asks_ofExcept (result : Except Error α) :
    (ofExcept result : Action (Dialogue Q A) α).Asks p := trivial

theorem asks_lift {d : Dialogue Q A α} (h : d.Asks p) : Asks p (ExceptT.lift d) :=
  obeys_lift.mpr h

theorem Asks.bind {x : Action (Dialogue Q A) α} {f : α → Action (Dialogue Q A) β} (hx : x.Asks p)
    (hf : ∀ a, (f a).Asks p) : (x >>= f).Asks p := by
  refine Action.obeys_bind.mpr (Action.Obeys.mono hx ?_)
  rintro - (e | a) -
  · trivial
  · exact hf a

end Action

/-- Trying again asks nothing else. -/
theorem Retry.Policy.run_asks {Q : Type} {A : Q → Type} {α : Type} {p : Q → Prop}
    (policy : Retry.Policy) {clock : Clock (Dialogue Q A)} {action : Action (Dialogue Q A) α}
    (hsleep : ∀ time, (clock.sleep time).Asks p) (h : action.Asks p) :
    (policy.run clock action).Asks p := by
  refine policy.run_obeys (fun _ => True) (fun _ time _ => hsleep time) (fun _ _ _ => trivial)
    (fun _ _ => Dialogue.Obeys.mono h ?_) trivial
  rintro - (e | a) - <;> trivial

end ProxyUpgrade
