import ProxyUpgrade.Proofs.Dialogue
/-!
# Dialogues side by side

With others who behave in a fixed way a dialogue has just one run, so that run can be computed
(`Dialogue.play`). Two kinds of others may be asked, each with a state of their own
(`Dialogue.beside`). A part of the program that only asks the ones has the same run as without the
others, and leaves these as they are (`Dialogue.play_left`, `Dialogue.play_right`).
-/

namespace ProxyUpgrade

namespace Dialogue

section Laws

variable {Q : Type} {A : Q → Type} {α β γ : Type}

theorem bind_done (d : Dialogue Q A α) : d >>= done = d := by
  induction d with
  | done a => rfl
  | ask q next ih => exact congrArg (ask q) (funext ih)

theorem bind_bind (d : Dialogue Q A α) (f : α → Dialogue Q A β) (g : β → Dialogue Q A γ) :
    d >>= f >>= g = d >>= fun a => f a >>= g := by
  induction d with
  | done a => rfl
  | ask q next ih => exact congrArg (ask q) (funext ih)

instance : LawfulMonad (Dialogue Q A) :=
  LawfulMonad.mk' (Dialogue Q A) bind_done (fun _ _ => rfl) bind_bind

/-- Questions may be passed on before they are answered. -/
theorem answeredBy_answeredBy {R : Type} {C : R → Type} {m : Type → Type} [Monad m] [LawfulMonad m]
    (reply : (r : R) → m (C r)) (pass : (q : Q) → Dialogue R C (A q)) (d : Dialogue Q A α) :
    (d.answeredBy pass).answeredBy reply = d.answeredBy fun q => (pass q).answeredBy reply := by
  induction d with
  | done a => rfl
  | ask q next ih =>
    simp only [answeredBy, answeredBy_bind]
    exact bind_congr ih

end Laws

/-! ### Played dialogues -/

section Play

variable {Q : Type} {A : Q → Type} {S α β : Type}

/-- What comes of a dialogue with others who behave in a fixed way. -/
structure Played (A : Q → Type) (S α : Type) where
  turns : List (Turn A)
  result : α
  /-- The state that the others are left in. -/
  state : S

/-- The same, with a turn before it. -/
def Played.after (turn : Turn A) (played : Played A S α) : Played A S α :=
  { played with turns := turn :: played.turns }

/-- A dialogue with others whose answers depend on a state of theirs, which each question may
change. -/
def play (behaviour : S → (question : Q) → A question × S) : S → Dialogue Q A α → Played A S α
  | s, done result => ⟨[], result, s⟩
  | s, ask question next =>
    let answered := behaviour s question
    (play behaviour answered.2 (next answered.1)).after ⟨question, answered.1⟩

variable {behaviour : S → (question : Q) → A question × S}

/-- What is played is a run. -/
theorem play_run (behaviour : S → (question : Q) → A question × S) (s : S) (d : Dialogue Q A α) :
    Run d (d.play behaviour s).turns (d.play behaviour s).result := by
  induction d generalizing s with
  | done a => exact .done a
  | ask question next ih => exact .ask _ (ih _ _)

/-- What follows is played from the state that has been left. -/
theorem play_bind (s : S) (d : Dialogue Q A α) (f : α → Dialogue Q A β) :
    (d >>= f).play behaviour s =
      let first := d.play behaviour s
      let rest := (f first.result).play behaviour first.state
      ⟨first.turns ++ rest.turns, rest.result, rest.state⟩ := by
  induction d generalizing s with
  | done a => rfl
  | ask question next ih => simp [play, Played.after, ih]

end Play

/-! ### Two kinds of others -/

section Beside

variable {Q P : Type} {A : Q → Type} {B : P → Type} {S T α : Type}

/-- Puts a question to the ones. -/
def putLeft (question : Q) : Dialogue (Q ⊕ P) (Sum.elim A B) (A question) :=
  ask (Sum.inl question) done

/-- Puts a question to the others. -/
def putRight (question : P) : Dialogue (Q ⊕ P) (Sum.elim A B) (B question) :=
  ask (Sum.inr question) done

/-- A turn of the ones. -/
def Turn.left (turn : Turn A) : Turn (Sum.elim A B) := ⟨.inl turn.1, turn.2⟩

/-- A turn of the others. -/
def Turn.right (turn : Turn B) : Turn (Sum.elim A B) := ⟨.inr turn.1, turn.2⟩

/-- The turn, if it is one of the ones. -/
def ofLeft : Turn (Sum.elim A B) → Option (Turn A)
  | ⟨.inl question, answer⟩ => some ⟨question, answer⟩
  | ⟨.inr _, _⟩ => none

@[simp] theorem ofLeft_left (turn : Turn A) : ofLeft (B := B) turn.left = some turn := rfl

@[simp] theorem ofLeft_right (turn : Turn B) : ofLeft (A := A) turn.right = none := rfl

/-- Of turns of the ones followed by turns of the others, those of the ones are the first. -/
theorem filterMap_ofLeft (first : List (Turn A)) (rest : List (Turn B)) :
    (first.map Turn.left ++ rest.map Turn.right).filterMap ofLeft = first := by
  simp [List.filterMap_map, Function.comp_def]

/-- Both kinds behave in a fixed way. The others may look at the state of the ones. -/
def beside (behaviour : S → (question : Q) → A question × S)
    (other : S → T → (question : P) → B question × T) :
    S × T → (question : Q ⊕ P) → Sum.elim A B question × (S × T)
  | (s, t), .inl question =>
    let answered := behaviour s question
    (answered.1, (answered.2, t))
  | (s, t), .inr question =>
    let answered := other s t question
    (answered.1, (s, answered.2))

variable {behaviour : S → (question : Q) → A question × S}
  {other : S → T → (question : P) → B question × T}

/-- **What only asks the ones is played with these.** -/
theorem play_left (s : S) (t : T) (d : Dialogue Q A α) :
    (d.answeredBy putLeft).play (beside behaviour other) (s, t) =
      let played := d.play behaviour s
      ⟨played.turns.map Turn.left, played.result, (played.state, t)⟩ := by
  induction d generalizing s with
  | done a => rfl
  | ask question next ih =>
    have hrest := ih (behaviour s question).1 (behaviour s question).2
    exact congrArg (Played.after ⟨.inl question, (behaviour s question).1⟩) hrest

/-- **What only asks the others is played with those.** -/
theorem play_right (s : S) (t : T) (d : Dialogue P B α) :
    (d.answeredBy putRight).play (beside behaviour other) (s, t) =
      let played := d.play (other s) t
      ⟨played.turns.map Turn.right, played.result, (s, played.state)⟩ := by
  induction d generalizing t with
  | done a => rfl
  | ask question next ih =>
    have hrest := ih (other s t question).1 (other s t question).2
    exact congrArg (Played.after ⟨.inr question, (other s t question).1⟩) hrest

/-- What both kinds answer in a monad. -/
def either {m : Type → Type} (reply : (question : Q) → m (A question))
    (reply' : (question : P) → m (B question)) :
    (question : Q ⊕ P) → m (Sum.elim A B question)
  | .inl question => reply question
  | .inr question => reply' question

section Answers

variable {m : Type → Type} [Monad m] [LawfulMonad m] {reply : (question : Q) → m (A question)}
  {reply' : (question : P) → m (B question)}

@[simp] theorem putLeft_answeredBy (question : Q) :
    (putLeft (A := A) question).answeredBy (either reply reply') = reply question :=
  answeredBy_question (Sum.inl question)

@[simp] theorem putRight_answeredBy (question : P) :
    (putRight (B := B) question).answeredBy (either reply reply') = reply' question :=
  answeredBy_question (Sum.inr question)

end Answers

end Beside

end Dialogue

/-! ### Actions -/

namespace Action

theorem answeredBy_answeredBy {Q R : Type} {A : Q → Type} {C : R → Type} {m : Type → Type}
    [Monad m] [LawfulMonad m] {α : Type} (reply : (r : R) → m (C r))
    (pass : (q : Q) → Dialogue R C (A q)) (x : Action (Dialogue Q A) α) :
    answeredBy reply (answeredBy pass x) = answeredBy (fun q => (pass q).answeredBy reply) x :=
  Dialogue.answeredBy_answeredBy reply pass x.run

variable {Q : Type} {A : Q → Type} {S α β : Type} {behaviour : S → (question : Q) → A question × S}
  {s : S} {x : Action (Dialogue Q A) α} (f : α → Action (Dialogue Q A) β)

/-- An action that fails is all that is played. -/
theorem play_bind_error {e : Error} (h : (x.run.play behaviour s).result = .error e) :
    (x >>= f).run.play behaviour s =
      ⟨(x.run.play behaviour s).turns, .error e, (x.run.play behaviour s).state⟩ := by
  refine (Dialogue.play_bind s x.run (ExceptT.bindCont f)).trans ?_
  simp only [h]
  exact congrArg (Dialogue.Played.mk · _ _) (List.append_nil _)

/-- Else what follows is played with the value that it yields. -/
theorem play_bind_ok {a : α} (h : (x.run.play behaviour s).result = .ok a) :
    (x >>= f).run.play behaviour s =
      let first := x.run.play behaviour s
      let rest := (f a).run.play behaviour first.state
      ⟨first.turns ++ rest.turns, rest.result, rest.state⟩ := by
  refine (Dialogue.play_bind s x.run (ExceptT.bindCont f)).trans ?_
  simp only [h]
  rfl

/-- After what cannot fail there always is a value. -/
theorem play_bind_lift (d : Dialogue Q A α) :
    (ExceptT.lift d >>= f).run.play behaviour s =
      let first := d.play behaviour s
      let rest := (f first.result).run.play behaviour first.state
      ⟨first.turns ++ rest.turns, rest.result, rest.state⟩ := by
  rw [ExceptT.run_bind_lift]
  exact Dialogue.play_bind s d _

end Action

end ProxyUpgrade
