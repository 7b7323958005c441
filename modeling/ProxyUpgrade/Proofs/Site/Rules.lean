import ProxyUpgrade.Proofs.Site.Ledger
/-!
# Rules of a site

How much can be relied on differs from case to case. All rules are *honest*: whatever is answered
is one of the answers that may be given in the state of the ledger (`Site.Honest`).

* `Site.lenient` – anything may fail, with or without having had its effect.
* `Site.dependable` – node and signer may fail; stores answer, and failures have no effect.
* `Site.steady` – anything may fail, but files stay as they are.
* `Site.calm` – everybody answers, and no transaction may be sent.
-/

namespace ProxyUpgrade.Site

variable (site : Site) (files : Path → Except Files.Fault String)

/-! ### What can be said of answers -/

/-- A collaborator has answered, instead of failing. -/
def Answered : (question : Question) → question.Answer → Prop
  | .exchange request, reply =>
    (∀ address, request = site.codeQuery address → ∃ bytes, site.codeIn reply = .ok bytes) ∧
      ∀ proxy, request = site.slotQuery proxy → ∃ address, site.slotIn reply = .ok address
  | .registered _, answer => ∃ address, answer = .ok address
  | .register .., answer => answer = .ok ()
  | .entries, answer => ∃ entries, answer = .ok entries
  | .recordAlias .., answer => ∃ group, answer = .ok group
  | .groupOfAddress _, answer => ∃ group, answer = .ok group
  | .groupOfCode _, answer => ∃ group, answer = .ok group
  | .groups, answer => ∃ groups, answer = .ok groups
  | _, _ => True

/-- Stores answer, and what is reported as a failure has had no effect. -/
def Dependable (s : Ledger) : (question : Question) → question.Answer → Ledger → Prop
  | .create .., answer, s' => reported answer = none → s' = s
  | .send _, answer, s' => (∃ e, answer = .error e) → s' = s
  | .exchange _, _, _ => True
  | question, answer, _ => site.Answered question answer

/-- Files do not change. -/
def Reading : (question : Question) → question.Answer → Prop
  | .read path, answer => answer = files path
  | _, _ => True

/-- Whether requests can be sent to the node at all. -/
def Reachable : Prop := Http.schemes.contains site.url.scheme = true

/-! ### Honest rules -/

/-- **Rules that are honest**: they permit every question but transactions, which they may permit,
and whatever is answered is one of the answers that may be given. If `answering` holds, nobody
fails. -/
structure Honest (rules : Dialogue.Rules Ledger Question Question.Answer) (answering : Prop) :
    Prop where
  permits : ∀ {s question}, question.isTransaction = false → rules.permits s question
  answers : ∀ {s question answer s'}, rules.answers s question answer s' →
    site.Answers s question answer s'
  answered : answering → ∀ {s question answer s'}, rules.answers s question answer s' →
    site.Answered question answer
  reachable : answering → site.Reachable

/-- The rules of a site where anything may fail. -/
def lenient : Dialogue.Rules Ledger Question Question.Answer where
  permits _ _ := True
  answers := site.Answers

theorem lenient_honest : site.Honest site.lenient False where
  permits _ := trivial
  answers h := h
  answered := False.elim
  reachable := False.elim

/-- The rules of a site where node and signer may fail. -/
def dependable : Dialogue.Rules Ledger Question Question.Answer where
  permits _ _ := True
  answers s question answer s' :=
    site.Answers s question answer s' ∧ site.Dependable s question answer s'

theorem dependable_honest : site.Honest site.dependable False where
  permits _ := trivial
  answers h := h.1
  answered := False.elim
  reachable := False.elim

/-- The rules of a site where anything may fail, except that files stay as they are and that there
never is code at the address zero. -/
def steady : Dialogue.Rules Ledger Question Question.Answer where
  permits _ _ := True
  answers s question answer s' :=
    site.Answers s question answer s' ∧ Reading files question answer ∧ s'.code .zero = []

theorem steady_honest : site.Honest (site.steady files) False where
  permits _ := trivial
  answers h := h.1
  answered := False.elim
  reachable := False.elim

/-- The rules of a site where everybody answers, and no transaction may be sent. -/
def calm : Dialogue.Rules Ledger Question Question.Answer where
  permits _ question := question.isTransaction = false
  answers s question answer s' :=
    site.Answers s question answer s' ∧ Reading files question answer ∧
      site.Answered question answer

theorem calm_honest (hreachable : site.Reachable) : site.Honest (site.calm files) True where
  permits h := h
  answers h := h.1
  answered _ _ _ _ _ h := h.2.2
  reachable _ := hreachable

end ProxyUpgrade.Site
