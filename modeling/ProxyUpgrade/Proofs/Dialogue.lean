import ProxyUpgrade.Action
/-!
# Programs as dialogues

A program that works over every monad can be run where nothing is done at all: each thing it asks of
others is only written down, and it goes on with whatever answer it is given. What is left of the
program is a tree, its *dialogue*, with a branch for every answer. A path through the tree is a run,
so a statement about all paths is one about all runs, whatever the others answer.

* `Dialogue.Run` – the runs of a dialogue, each with the questions asked and the answers given.
* `Dialogue.answeredBy` – the same program again, with its questions answered in a monad.
* `Dialogue.Rules` – what may be asked in each state of the surroundings, and where each answer
  leads. The state may be all that was said so far, or what a chain and some files hold.
* `Dialogue.Obeys` – the rules, computed along the tree. They are an invariant of all runs
  (`Dialogue.Run.permitted`, `Dialogue.Run.post`), and they are found stage by stage, because the
  rules for a stage only have to be told what went before it (`Dialogue.obeys_bind`).
-/

namespace ProxyUpgrade

/-- A program as the questions it asks. -/
inductive Dialogue (Q : Type) (A : Q → Type) (α : Type) where
  /-- It ends with a result. -/
  | done (result : α)
  /-- It asks a question, and goes on according to the answer. -/
  | ask (question : Q) (next : A question → Dialogue Q A α)

namespace Dialogue

variable {Q : Type} {A : Q → Type} {α β : Type}

/-- A question with the answer that was given. -/
abbrev Turn (A : Q → Type) : Type := Sigma A

/-- One dialogue after another. -/
def andThen : Dialogue Q A α → (α → Dialogue Q A β) → Dialogue Q A β
  | done result, f => f result
  | ask question next, f => ask question fun answer => (next answer).andThen f

instance : Monad (Dialogue Q A) where
  pure := done
  bind := andThen

@[simp] theorem done_bind (a : α) (f : α → Dialogue Q A β) : (done a >>= f) = f a := rfl

@[simp] theorem ask_bind (q : Q) (next : A q → Dialogue Q A α) (f : α → Dialogue Q A β) :
    (ask q next >>= f) = ask q fun answer => next answer >>= f := rfl

/-- A single question. -/
def question (q : Q) : Dialogue Q A (A q) := ask q done

/-! ### Answers in a monad -/

section Answers

variable {m : Type → Type} [Monad m]

/-- The program of a dialogue: every question is answered in a monad. -/
def answeredBy (reply : (q : Q) → m (A q)) : Dialogue Q A α → m α
  | done result => pure result
  | ask question next => do answeredBy reply (next (← reply question))

variable {reply : (q : Q) → m (A q)}

theorem answeredBy_bind [LawfulMonad m] (d : Dialogue Q A α) (f : α → Dialogue Q A β) :
    (d >>= f).answeredBy reply = d.answeredBy reply >>= fun a => (f a).answeredBy reply := by
  induction d with
  | done a => simp [answeredBy]
  | ask q next ih => simp [answeredBy, ih]

theorem answeredBy_question [LawfulMonad m] (q : Q) : (question q).answeredBy reply = reply q := by
  simp [question, answeredBy]

end Answers

/-! ### Runs -/

/-- **A run of a dialogue**: the turns taken, in order, and the result in which they end. -/
inductive Run : Dialogue Q A α → List (Turn A) → α → Prop
  /-- Nothing is left to ask. -/
  | done (result : α) : Run (.done result) [] result
  /-- A question is asked and answered, and the run goes on from there. -/
  | ask {question : Q} {next : A question → Dialogue Q A α} (answer : A question)
      {turns : List (Turn A)} {result : α} (rest : Run (next answer) turns result) :
      Run (.ask question next) (⟨question, answer⟩ :: turns) result

/-- A run goes on with another dialogue. -/
theorem Run.bind {d : Dialogue Q A α} {f : α → Dialogue Q A β} {first rest : List (Turn A)} {a : α}
    {b : β} (run : Run d first a) (next : Run (f a) rest b) : Run (d >>= f) (first ++ rest) b := by
  induction run with
  | done => exact next
  | ask answer _ ih => exact .ask answer (ih next)

/-- A run of one dialogue after another is a run of either. -/
theorem Run.exists_of_bind {d : Dialogue Q A α} {f : α → Dialogue Q A β} {turns : List (Turn A)}
    {b : β} (run : Run (d >>= f) turns b) :
    ∃ first a rest, turns = first ++ rest ∧ Run d first a ∧ Run (f a) rest b := by
  induction d generalizing turns with
  | done a => exact ⟨[], a, turns, rfl, .done a, run⟩
  | ask question next ih =>
    obtain - | ⟨answer, run⟩ := run
    obtain ⟨first, a, rest, rfl, hfirst, hrest⟩ := ih answer run
    exact ⟨⟨question, answer⟩ :: first, a, rest, rfl, .ask answer hfirst, hrest⟩

/-- A single question is asked and answered. -/
theorem run_question {q : Q} {turns : List (Turn A)} {answer : A q} :
    Run (question q) turns answer ↔ turns = [⟨q, answer⟩] := by
  constructor
  · rintro (- | ⟨answer, rest⟩)
    cases rest
    rfl
  · rintro rfl
    exact .ask answer (.done answer)

/-! ### Rules -/

/-- **The rules of a dialogue** whose surroundings are described by a state of type `S`. -/
structure Rules (S Q : Type) (A : Q → Type) where
  /-- The questions that may be asked. -/
  permits : S → Q → Prop
  /-- The answers that may be given, each with the state it leads to. -/
  answers : S → (question : Q) → A question → S → Prop

namespace Rules

variable {S : Type}

/-- Some turns lead from one state to another. -/
inductive Steps (rules : Rules S Q A) : S → List (Turn A) → S → Prop
  | nil (s : S) : Steps rules s [] s
  | cons {s s₁ s₂ : S} {question : Q} {answer : A question} {turns : List (Turn A)}
      (first : rules.answers s question answer s₁) (rest : Steps rules s₁ turns s₂) :
    Steps rules s (⟨question, answer⟩ :: turns) s₂

@[simp] theorem steps_nil {rules : Rules S Q A} {s s' : S} : rules.Steps s [] s' ↔ s' = s := by
  constructor
  · intro h
    cases h
    rfl
  · rintro rfl
    exact .nil _

theorem steps_cons {rules : Rules S Q A} {s s' : S} {turn : Turn A} {turns : List (Turn A)} :
    rules.Steps s (turn :: turns) s' ↔
      ∃ s₁, rules.answers s turn.1 turn.2 s₁ ∧ rules.Steps s₁ turns s' := by
  constructor
  · rintro (- | ⟨first, rest⟩)
    exact ⟨_, first, rest⟩
  · rintro ⟨s₁, first, rest⟩
    exact .cons first rest

/-- What leads somewhere also does under rules that allow more. -/
theorem Steps.mono {rules rules' : Rules S Q A} {s s' : S} {turns : List (Turn A)}
    (steps : rules.Steps s turns s')
    (h : ∀ {s question answer s'}, rules.answers s question answer s' →
      rules'.answers s question answer s') : rules'.Steps s turns s' := by
  induction steps with
  | nil s => exact .nil s
  | cons first _ ih => exact .cons (h first) ih

/-- Where some turns lead, so do the turns that follow them. -/
theorem Steps.append {rules : Rules S Q A} {s s₁ s' : S} {first rest : List (Turn A)}
    (steps : rules.Steps s first s₁) (next : rules.Steps s₁ rest s') :
    rules.Steps s (first ++ rest) s' := by
  induction steps with
  | nil => exact next
  | cons turn _ ih => exact .cons turn (ih next)

/-- Where some turns lead from, the first ones of them lead to a state on the way. -/
theorem Steps.exists_of_append {rules : Rules S Q A} {s s' : S} {first rest : List (Turn A)}
    (steps : rules.Steps s (first ++ rest) s') :
    ∃ s₁, rules.Steps s first s₁ ∧ rules.Steps s₁ rest s' := by
  induction first generalizing s with
  | nil => exact ⟨s, .nil s, steps⟩
  | cons turn first ih =>
    obtain - | ⟨hturn, steps⟩ := steps
    obtain ⟨s₁, hfirst, hrest⟩ := ih steps
    exact ⟨s₁, .cons hturn hfirst, hrest⟩

/-- The rules where nothing is known of the surroundings but the turns so far. -/
def history (permits : List (Turn A) → Q → Prop) : Rules (List (Turn A)) Q A where
  permits := permits
  answers past question answer past' := past' = past ++ [⟨question, answer⟩]

theorem history_steps (permits : List (Turn A) → Q → Prop) (past turns : List (Turn A)) :
    (history permits).Steps past turns (past ++ turns) := by
  induction turns generalizing past with
  | nil => simp
  | cons turn turns ih => exact .cons rfl (by simpa using ih (past ++ [turn]))

/-- What has led somewhere in the history of a dialogue are its turns. -/
theorem eq_append_of_history_steps {permits : List (Turn A) → Q → Prop}
    {past turns past' : List (Turn A)} (h : (history permits).Steps past turns past') :
    past' = past ++ turns := by
  induction h with
  | nil past => simp
  | cons first _ ih =>
    obtain rfl := first
    simpa using ih

end Rules

/-! ### Dialogues that obey -/

variable {S : Type} (rules : Rules S Q A)

/-- **A dialogue obeys the rules** if it only ever asks what may be asked, and ends in a way that
`post` holds of, wherever the answers lead. -/
def Obeys (s : S) : Dialogue Q A α → (S → α → Prop) → Prop
  | done result, post => post s result
  | ask question next, post =>
    rules.permits s question ∧
      ∀ answer s', rules.answers s question answer s' → Obeys s' (next answer) post

variable {rules} {s : S}

@[simp] theorem obeys_done {a : α} {post : S → α → Prop} :
    (done a).Obeys rules s post ↔ post s a := Iff.rfl

theorem obeys_bind {d : Dialogue Q A α} {f : α → Dialogue Q A β} {post : S → β → Prop} :
    (d >>= f).Obeys rules s post ↔
      d.Obeys rules s fun s a => (f a).Obeys rules s post := by
  induction d generalizing s with
  | done a => rfl
  | ask q next ih => simp only [ask_bind, Obeys, ih]

theorem Obeys.mono {d : Dialogue Q A α} {post post' : S → α → Prop}
    (h : d.Obeys rules s post) (himp : ∀ s a, post s a → post' s a) :
    d.Obeys rules s post' := by
  induction d generalizing s with
  | done a => exact himp s a h
  | ask q next ih => exact ⟨h.1, fun answer s' hs => ih answer (h.2 answer s' hs)⟩

/-- **A dialogue that obeys keeps what every turn keeps** that the rules allow. -/
theorem Obeys.keeping {kept : S → Prop} {d : Dialogue Q A α} {post : S → α → Prop}
    (h : d.Obeys rules s post)
    (hkeep : ∀ {s question answer s'}, rules.permits s question →
      rules.answers s question answer s' → kept s → kept s') (hs : kept s) :
    d.Obeys rules s fun s a => post s a ∧ kept s := by
  induction d generalizing s with
  | done a => exact ⟨h, hs⟩
  | ask q next ih =>
    exact ⟨h.1, fun answer s' hs' => ih answer (h.2 answer s' hs') (hkeep h.1 hs' hs)⟩

/-- **Whatever a run asks may be asked**, wherever the turns before it have led. -/
theorem Run.permits {d : Dialogue Q A α} {turns : List (Turn A)} {result : α}
    (run : Run d turns result) {post : S → α → Prop} (h : d.Obeys rules s post)
    {before after : List (Turn A)} {turn : Turn A} (hsplit : turns = before ++ turn :: after)
    {s₁ : S} (steps : rules.Steps s before s₁) : rules.permits s₁ turn.1 := by
  induction run generalizing s before with
  | done a => simp at hsplit
  | @ask q next answer turns a _ ih =>
    -- The turn is the first one, or one of the rest.
    rcases before with - | ⟨other, before⟩
    · obtain ⟨rfl, -⟩ : (⟨q, answer⟩ : Turn A) = turn ∧ turns = after := by simpa using hsplit
      obtain rfl := Rules.steps_nil.mp steps
      exact h.1
    · obtain ⟨rfl, hrest⟩ : (⟨q, answer⟩ : Turn A) = other ∧ turns = before ++ turn :: after := by
        simpa using hsplit
      obtain ⟨s₂, hfirst, hsteps⟩ := Rules.steps_cons.mp steps
      exact ih (h.2 answer s₂ hfirst) hrest hsteps

/-- **What is obeyed is an invariant of every run.** At each turn the question may be asked in the
state that the turns before it have led to. -/
theorem Run.permitted {d : Dialogue Q A α} {turns : List (Turn A)} {result : α}
    (run : Run d turns result) {s' : S} (steps : rules.Steps s turns s')
    {post : S → α → Prop} (h : d.Obeys rules s post) :
    ∀ before turn after, turns = before ++ turn :: after →
      ∃ s₁, rules.Steps s before s₁ ∧ rules.permits s₁ turn.1 := by
  rintro before turn after hsplit
  obtain ⟨s₁, hbefore, -⟩ := Rules.Steps.exists_of_append (hsplit ▸ steps)
  exact ⟨s₁, hbefore, run.permits h hsplit hbefore⟩

/-- Whatever a run asks is among the questions that may be asked at any time. -/
theorem Run.forall_permitted {d : Dialogue Q A α} {turns : List (Turn A)} {result : α}
    (run : Run d turns result) {permitted : Q → Prop} {post : List (Turn A) → α → Prop}
    (h : d.Obeys (.history fun _ question => permitted question) [] post) :
    ∀ turn ∈ turns, permitted turn.1 := by
  intro turn hmem
  obtain ⟨before, after, hsplit⟩ := List.append_of_mem hmem
  exact run.permits h hsplit (Rules.history_steps _ [] before)

/-- A run ends as the rules say. -/
theorem Run.post {d : Dialogue Q A α} {turns : List (Turn A)} {result : α}
    (run : Run d turns result) {s' : S} (steps : rules.Steps s turns s')
    {post : S → α → Prop} (h : d.Obeys rules s post) : post s' result := by
  induction run generalizing s with
  | done a =>
    cases steps
    exact h
  | ask answer _ ih =>
    obtain - | ⟨first, rest⟩ := steps
    exact ih rest (h.2 answer _ first)

/-- The rules where everything is settled beforehand: the state are the turns to come. -/
def Rules.script : Rules (List (Turn A)) Q A where
  permits turns question := ∃ answer rest, turns = ⟨question, answer⟩ :: rest
  answers turns question answer rest := turns = ⟨question, answer⟩ :: rest

/-- **A dialogue that follows a script to its end has it for a run.** -/
theorem Obeys.run {d : Dialogue Q A α} {turns : List (Turn A)} {result : α}
    (h : d.Obeys .script turns fun rest a => rest = [] ∧ a = result) : Run d turns result := by
  induction d generalizing turns with
  | done a =>
    obtain ⟨rfl, rfl⟩ := h
    exact .done a
  | ask question next ih =>
    obtain ⟨answer, rest, rfl⟩ := h.1
    exact .ask answer (ih answer (h.2 answer rest rfl))

/-- **A dialogue that obeys the rules has a run** if every question that may be asked has an
answer. -/
theorem Obeys.exists_run {d : Dialogue Q A α} {post : S → α → Prop} (h : d.Obeys rules s post)
    (hanswers : ∀ s question, rules.permits s question →
      ∃ answer s', rules.answers s question answer s') :
    ∃ turns result s', Run d turns result ∧ rules.Steps s turns s' ∧ post s' result := by
  induction d generalizing s with
  | done result => exact ⟨[], result, s, .done result, .nil s, h⟩
  | ask question next ih =>
    obtain ⟨answer, s₁, hanswer⟩ := hanswers s question h.1
    obtain ⟨turns, result, s', run, steps, hpost⟩ := ih answer (h.2 answer s₁ hanswer)
    exact ⟨_, result, s', .ask answer run, .cons hanswer steps, hpost⟩

end Dialogue

/-! ### Actions as dialogues -/

namespace Action

variable {Q : Type} {A : Q → Type} {α β : Type}

/-- The action of a dialogue that may fail: every question is answered in a monad. -/
def answeredBy {m : Type → Type} [Monad m] (reply : (q : Q) → m (A q))
    (action : Action (Dialogue Q A) α) : Action m α :=
  ExceptT.mk (action.run.answeredBy reply)

section Answers

variable {m : Type → Type} [Monad m] {reply : (q : Q) → m (A q)}

@[simp] theorem answeredBy_ofExcept (result : Except Error α) :
    answeredBy reply (ofExcept result : Action (Dialogue Q A) α) = ofExcept result := rfl

variable [LawfulMonad m]

@[simp] theorem answeredBy_bind (x : Action (Dialogue Q A) α) (f : α → Action (Dialogue Q A) β) :
    answeredBy reply (x >>= f) = answeredBy reply x >>= fun a => answeredBy reply (f a) := by
  refine (Dialogue.answeredBy_bind x.run _).trans (bind_congr fun result => ?_)
  cases result <;> rfl

@[simp] theorem answeredBy_lift (d : Dialogue Q A α) :
    answeredBy reply (ExceptT.lift d) = ExceptT.lift (d.answeredBy reply) := by
  refine (Dialogue.answeredBy_bind d _).trans ?_
  rw [ExceptT.lift, map_eq_pure_bind]
  rfl

end Answers

/-- A run that has yielded a value goes on. -/
theorem run_bind {x : Action (Dialogue Q A) α} {f : α → Action (Dialogue Q A) β} {a : α}
    {first rest : List (Dialogue.Turn A)} {result : Except Error β}
    (run : Dialogue.Run x.run first (.ok a)) (next : Dialogue.Run (f a).run rest result) :
    Dialogue.Run (x >>= f).run (first ++ rest) result :=
  Dialogue.Run.bind (f := ExceptT.bindCont fun a => f a) run next

/-- A run that has yielded a value is over if nothing else is asked. -/
theorem run_yield {x : Action (Dialogue Q A) α} {f : α → Action (Dialogue Q A) β} {a : α}
    {turns : List (Dialogue.Turn A)} {result : Except Error β}
    (run : Dialogue.Run x.run turns (.ok a)) (hresult : f a = Action.ofExcept result) :
    Dialogue.Run (x >>= f).run turns result := by
  have hdone : Dialogue.Run (f a).run [] result := by
    rw [hresult]
    exact .done result
  simpa using run_bind run hdone

/-- A run that has failed is over. -/
theorem run_bind_error {x : Action (Dialogue Q A) α} {f : α → Action (Dialogue Q A) β}
    {turns : List (Dialogue.Turn A)} {e : Error} (run : Dialogue.Run x.run turns (.error e)) :
    Dialogue.Run (x >>= f).run turns (.error e) := by
  have hdone : Dialogue.Run (ExceptT.bindCont f (.error e) : Dialogue Q A _) [] (.error e) :=
    .done _
  have hrun := Dialogue.Run.bind run hdone
  rw [List.append_nil] at hrun
  exact hrun

/-- What cannot fail yields its result. -/
theorem run_lift {d : Dialogue Q A α} {turns : List (Dialogue.Turn A)} {a : α}
    (run : Dialogue.Run d turns a) :
    Dialogue.Run (ExceptT.lift d : Action (Dialogue Q A) α).run turns (.ok a) := by
  have hdone : Dialogue.Run (.done (.ok a) : Dialogue Q A (Except Error α)) [] (.ok a) := .done _
  have hrun : Dialogue.Run (ExceptT.lift d : Action (Dialogue Q A) α).run (turns ++ []) (.ok a) :=
    Dialogue.Run.bind (f := fun a => .done (Except.ok a)) run hdone
  rw [List.append_nil] at hrun
  exact hrun

/-- A value that is worked out takes no turn. -/
theorem run_bind_ofExcept {value : Except Error α} {f : α → Action (Dialogue Q A) β} {a : α}
    {turns : List (Dialogue.Turn A)} {result : Except Error β} (hvalue : value = .ok a)
    (next : Dialogue.Run (f a).run turns result) :
    Dialogue.Run (Action.ofExcept value >>= f).run turns result := by
  rw [hvalue]
  exact next

/-- A run of one action after another is one of the first, and one of the other if the first yields
a value. -/
theorem exists_run_of_bind {x : Action (Dialogue Q A) α} {f : α → Action (Dialogue Q A) β}
    {turns : List (Dialogue.Turn A)} {result : Except Error β}
    (run : Dialogue.Run (x >>= f).run turns result) :
    ∃ first yielded rest, turns = first ++ rest ∧ Dialogue.Run x.run first yielded ∧
      match yielded with
      | .ok a => Dialogue.Run (f a).run rest result
      | .error e => rest = [] ∧ result = .error e := by
  obtain ⟨first, yielded, rest, rfl, hfirst, hrest⟩ := Dialogue.Run.exists_of_bind run
  refine ⟨first, yielded, rest, rfl, hfirst, ?_⟩
  rcases yielded with e | a
  · cases hrest
    exact ⟨rfl, rfl⟩
  · exact hrest

section Rules

variable {S : Type} (rules : Dialogue.Rules S Q A)

/-- An action obeys the rules if its dialogue does. -/
def Obeys (s : S) (action : Action (Dialogue Q A) α) (post : S → Except Error α → Prop) : Prop :=
  Dialogue.Obeys rules s action.run post

variable {rules} {s : S}

@[simp] theorem obeys_pure {a : α} {post : S → Except Error α → Prop} :
    (pure a : Action (Dialogue Q A) α).Obeys rules s post ↔ post s (.ok a) := Iff.rfl

@[simp] theorem obeys_throw {e : Error} {post : S → Except Error α → Prop} :
    (throw e : Action (Dialogue Q A) α).Obeys rules s post ↔ post s (.error e) := Iff.rfl

@[simp] theorem obeys_ofExcept {result : Except Error α} {post : S → Except Error α → Prop} :
    (ofExcept result : Action (Dialogue Q A) α).Obeys rules s post ↔ post s result := Iff.rfl

@[simp] theorem obeys_lift {d : Dialogue Q A α} {post : S → Except Error α → Prop} :
    Action.Obeys rules s (ExceptT.lift d) post ↔ d.Obeys rules s fun s a => post s (.ok a) :=
  Dialogue.obeys_bind

/-- **An action that fails ends its program**; else the program goes on with what it yields. -/
theorem obeys_bind {x : Action (Dialogue Q A) α} {f : α → Action (Dialogue Q A) β}
    {post : S → Except Error β → Prop} :
    (x >>= f).Obeys rules s post ↔ x.Obeys rules s fun s result =>
      match result with
      | .ok a => (f a).Obeys rules s post
      | .error e => post s (.error e) := by
  refine (Dialogue.obeys_bind (d := x.run)).trans (iff_of_eq (congrArg _ ?_))
  funext s result
  cases result <;> rfl

/-- A result that is worked out at the end may as well be worked out afterwards. -/
theorem obeys_bind_ofExcept {x : Action (Dialogue Q A) α} {f : α → Except Error β}
    {post : S → Except Error β → Prop} :
    (x >>= fun a => ofExcept (f a)).Obeys rules s post ↔
      x.Obeys rules s fun s result => post s (result >>= f) := by
  refine obeys_bind.trans (iff_of_eq (congrArg _ ?_))
  funext s result
  cases result <;> rfl

theorem Obeys.mono {x : Action (Dialogue Q A) α} {post post' : S → Except Error α → Prop}
    (h : x.Obeys rules s post) (himp : ∀ s result, post s result → post' s result) :
    x.Obeys rules s post' :=
  Dialogue.Obeys.mono h himp

/-- What holds at the end of an action if it yields a value; nothing is said of failures. -/
def Yielding (post : S → α → Prop) (s : S) : Except Error α → Prop
  | .ok a => post s a
  | .error _ => True

@[simp] theorem yielding_ok {post : S → α → Prop} {a : α} :
    Yielding post s (.ok a) ↔ post s a := Iff.rfl

@[simp] theorem yielding_error {post : S → α → Prop} {e : Error} :
    Yielding post s (.error e) := trivial

/-- Where failures do not matter, a step only has to say what it hands on. -/
theorem obeys_bind_yielding {x : Action (Dialogue Q A) α} {f : α → Action (Dialogue Q A) β}
    {post : S → β → Prop} :
    (x >>= f).Obeys rules s (Yielding post) ↔
      x.Obeys rules s (Yielding fun s a => (f a).Obeys rules s (Yielding post)) := by
  refine obeys_bind.trans (iff_of_eq (congrArg _ ?_))
  funext s result
  cases result <;> rfl

end Rules

end Action

end ProxyUpgrade
