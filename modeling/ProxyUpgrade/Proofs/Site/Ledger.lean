import Mathlib.Logic.Function.Basic
import ProxyUpgrade.Proofs.Chain.Upgrade
import ProxyUpgrade.Proofs.Site.Basic
/-!
# The books of a site

What a deployment on a chain depends on, and what it leaves behind, is a `Ledger`: the code and the
implementations on the chain, the contracts ever created and the calls ever mined, the table of the
registry and the manifest of the history. `Site.Answers` says which answers the parts of a site may
give in the state of a ledger, and which ledger they lead to. It leaves room for every failure: a
node that cannot be heard, stores and transactions that fail with or without having had their
effect.

What is taken for granted of a chain is little: a contract is created at an address that had no
code, it has code then, and nothing else on the chain changes; a new proxy has the implementation
that its constructor was given; an upgrade changes the implementation of its target and nothing
else.
-/

namespace ProxyUpgrade

namespace Site

/-! ### Ledgers -/

/-- A contract that was created. -/
structure Creation where
  address : Address
  /-- The code it was created with. -/
  code : Bytes
  purpose : Purpose

/-- An upgrade that was mined. -/
structure Activation where
  proxy : Address
  implementation : Address

/-- The state of a chain, of a registry and of a history. -/
structure Ledger where
  /-- The code at each address. -/
  code : Address → Bytes
  /-- What each address keeps in the slot for the implementation of a proxy. -/
  slot : Address → Address
  /-- All contracts ever created, the last one first. -/
  created : List Creation
  /-- All upgrades ever mined, the last one first. -/
  activations : List Activation
  table : Registry.Table
  manifest : History.Manifest

namespace Ledger

/-- Nothing has happened yet. -/
def blank : Ledger := ⟨fun _ => [], fun _ => .zero, [], [], .empty, []⟩

/-- Whether there is code at an address. -/
def live (s : Ledger) (address : Address) : Bool := !(s.code address).isEmpty

/-- The proxies ever created. -/
def proxies (s : Ledger) : List Creation := s.created.filter (·.purpose.isProxy)

/-- The implementations ever created. -/
def implementations (s : Ledger) : List Creation := s.created.filter (!·.purpose.isProxy)

/-- A contract is created. -/
def create (s : Ledger) (creation : Creation) (runtime : Bytes) (slot : Address) : Ledger :=
  { s with
    code := Function.update s.code creation.address runtime
    slot := Function.update s.slot creation.address slot
    created := creation :: s.created }

/-- An upgrade is mined. -/
def activate (s : Ledger) (activation : Activation) : Ledger :=
  { s with
    slot := Function.update s.slot activation.proxy activation.implementation
    activations := activation :: s.activations }

/-- An address is put on record under a text. -/
def register (s : Ledger) (id : String) (address : Address) : Ledger :=
  { s with table := s.table.insert id address }

/-- An address is put on record with its code. -/
def recordAlias (s : Ledger) (now : Timestamp) (code : Hash) (address : Address) : Ledger :=
  { s with manifest := (s.manifest.record now code address).2 }

/-- **One creation leads to another ledger**, at an address that was free. -/
def Creates (s : Ledger) (creation : Creation) (s' : Ledger) : Prop :=
  s.code creation.address = [] ∧ ∃ runtime slot, runtime ≠ [] ∧
    (∀ implementation, creation.purpose = .proxy implementation → slot = implementation) ∧
    s' = s.create creation runtime slot

/-- **A call leads to another ledger**, if it is one that upgrades. -/
def Activates (s : Ledger) (call : Call) (s' : Ledger) : Prop :=
  ∃ proxy implementation data, call = .upgrade proxy implementation data ∧
    s' = s.activate ⟨proxy, implementation⟩

/-- **An upgrade of a proxy has been mined**, perhaps more than once. -/
def Upgraded (s : Ledger) (proxy implementation : Address) (s' : Ledger) : Prop :=
  ∃ activations, s' = { s with
    slot := Function.update s.slot proxy implementation
    activations := activations }

section Laws

variable {s s' : Ledger} {creation : Creation} {address other proxy implementation : Address}

theorem live_zero (h : s.code .zero = []) (hlive : s.live address = true) : address ≠ .zero := by
  rintro rfl
  simp [live, h] at hlive

theorem Creates.live (h : s.Creates creation s') : s'.live creation.address = true := by
  obtain ⟨-, runtime, slot, hruntime, -, rfl⟩ := h
  simpa [Ledger.live, create] using hruntime

theorem Creates.code_of_ne (h : s.Creates creation s') (hne : other ≠ creation.address) :
    s'.code other = s.code other := by
  obtain ⟨-, runtime, slot, -, -, rfl⟩ := h
  simp [create, hne]

theorem Creates.slot_of_ne (h : s.Creates creation s') (hne : other ≠ creation.address) :
    s'.slot other = s.slot other := by
  obtain ⟨-, runtime, slot, -, -, rfl⟩ := h
  simp [create, hne]

theorem Creates.live_of_ne (h : s.Creates creation s') (hne : other ≠ creation.address) :
    s'.live other = s.live other := by
  rw [Ledger.live, Ledger.live, h.code_of_ne hne]

/-- A contract is created where there was none. -/
theorem Creates.ne_of_live (h : s.Creates creation s')
    (hlive : s.live other = true) : other ≠ creation.address := by
  rintro rfl
  simp [Ledger.live, h.1] at hlive

/-- A new proxy has the implementation that its constructor was given. -/
theorem Creates.slot_proxy (h : s.Creates creation s')
    (hpurpose : creation.purpose = .proxy implementation) :
    s'.slot creation.address = implementation := by
  obtain ⟨-, runtime, slot, -, hslot, rfl⟩ := h
  simpa [create] using hslot implementation hpurpose

theorem Creates.created (h : s.Creates creation s') : s'.created = creation :: s.created := by
  obtain ⟨-, runtime, slot, -, -, rfl⟩ := h
  rfl

theorem Creates.activations (h : s.Creates creation s') : s'.activations = s.activations := by
  obtain ⟨-, runtime, slot, -, -, rfl⟩ := h
  rfl

theorem Creates.table (h : s.Creates creation s') : s'.table = s.table := by
  obtain ⟨-, runtime, slot, -, -, rfl⟩ := h
  rfl

theorem Creates.manifest (h : s.Creates creation s') :
    s'.manifest = s.manifest := by
  obtain ⟨-, runtime, slot, -, -, rfl⟩ := h
  rfl

theorem activates_upgrade {data : Bytes}
    (h : s.Activates (.upgrade proxy implementation data) s') :
    s' = s.activate ⟨proxy, implementation⟩ := by
  obtain ⟨proxy', implementation', data', hcall, rfl⟩ := h
  obtain ⟨rfl, rfl⟩ := Call.upgrade_inj hcall
  rfl

theorem upgraded_activate (s : Ledger) (proxy implementation : Address) :
    s.Upgraded proxy implementation (s.activate ⟨proxy, implementation⟩) :=
  ⟨_, rfl⟩

/-- The same upgrade once more makes no difference. -/
theorem Upgraded.activate (h : s.Upgraded proxy implementation s') :
    s.Upgraded proxy implementation (s'.activate ⟨proxy, implementation⟩) := by
  obtain ⟨activations, rfl⟩ := h
  exact ⟨⟨proxy, implementation⟩ :: activations, by simp [Ledger.activate]⟩

end Laws

end Ledger

/-! ### What a node says -/

variable (site : Site)

/-- A call of a method of the node. -/
def query (method : String) (args : List Json) : Http.Request :=
  ⟨site.url, .json (Node.document method args)⟩

/-- Asks for the code at an address. -/
def codeQuery (address : Address) : Http.Request :=
  site.query "eth_getCode" [address.toJson, Node.latest]

/-- Asks for the slot of a proxy. -/
def slotQuery (proxy : Address) : Http.Request :=
  site.query "eth_getStorageAt" [proxy.toJson, Node.implementationSlot.toJson, Node.latest]

/-- What came back, if anything did. -/
def arrived : Option Http.Reply → Except Http.Fault Http.Reply
  | some reply => .ok reply
  | none => .error (.noReply site.url)

/-- What is made of a reply. -/
def understood {α : Type} (method : String) (read : Json → Option α) (reply : Option Http.Reply) :
    Except Error α :=
  Node.heard method (site.arrived reply) >>= Node.formed method read

/-- The code that a reply says there is. -/
def codeIn (reply : Option Http.Reply) : Except Error Bytes :=
  site.understood "eth_getCode" Bytes.ofJson? reply

/-- The implementation that a reply says there is. -/
def slotIn (reply : Option Http.Reply) : Except Error Address :=
  (site.understood "eth_getStorageAt" Word.ofJson? reply).map fun word => .ofNat word.toNat

/-- **A reply is true**: what can be understood of it is what the chain holds. -/
structure Truthful (s : Ledger) (request : Http.Request) (reply : Option Http.Reply) : Prop where
  code : ∀ address bytes, request = site.codeQuery address → site.codeIn reply = .ok bytes →
    bytes = s.code address
  slot : ∀ proxy implementation, request = site.slotQuery proxy →
    site.slotIn reply = .ok implementation → implementation = s.slot proxy

/-! ### Answers -/

/-- The contract that a creation reports. -/
def reported (answer : Except Error Receipt) : Option Address := answer.toOption.bind (·.contract)

/-- What becomes of a creation, by the contract that is reported. Where none is, there may still be
one. -/
def Created (s : Ledger) (purpose : Purpose) (code : Bytes) (s' : Ledger) :
    (reported : Option Address) → Prop
  | some address => s.Creates ⟨address, code, purpose⟩ s'
  | none => s' = s ∨ ∃ address, s.Creates ⟨address, code, purpose⟩ s'

/-- What the answer of a store says about its ledger, if it is not a failure. -/
def Says {α : Type} (answer : Except Error α) (value : α) : Prop :=
  ∀ said, answer = .ok said → said = value

theorem says_ok {α : Type} (value : α) : Says (.ok value) value := fun _ h => (Except.ok.inj h).symm

/-- **The answers that may be given** in the state of a ledger, each with the ledger it leads to.
Anything may fail; what was to be changed may then have been changed or not. -/
def Answers (s : Ledger) : (question : Question) → question.Answer → Ledger → Prop
  | .exchange request, reply, s' => s' = s ∧ site.Truthful s request reply
  | .create purpose code, answer, s' =>
    Created s purpose code s' (reported answer)
  | .send call, answer, s' => s.Activates call s' ∨ (∃ e, answer = .error e) ∧ s' = s
  | .registered id, answer, s' => s' = s ∧ Says answer (s.table.get? id)
  | .register id address, answer, s' =>
    s' = s.register id address ∨ (∃ e, answer = .error e) ∧ s' = s
  | .entries, answer, s' => s' = s ∧ Says answer s.table.rows
  | .recordAlias code address, answer, s' =>
    (∃ now, s' = s.recordAlias now code address ∧
      Says answer (s.manifest.record now code address).1) ∨ (∃ e, answer = .error e) ∧ s' = s
  | .groupOfAddress address, answer, s' => s' = s ∧ Says answer (s.manifest.ofAddress? address)
  | .groupOfCode code, answer, s' => s' = s ∧ Says answer (s.manifest.ofCode? code)
  | .groups, answer, s' => s' = s ∧ Says answer s.manifest
  | _, _, s' => s' = s

section Creation

variable {site} {s s' : Ledger} {purpose : Purpose} {code : Bytes} {answer : Except Error Receipt}

/-- A contract that is reported has been created. -/
theorem creates_of_reported (h : site.Answers s (.create purpose code) answer s')
    {address : Address} (hreported : reported answer = some address) :
    s.Creates ⟨address, code, purpose⟩ s' := by
  change Created s purpose code s' (reported answer) at h
  rwa [hreported] at h

/-- One that is not reported may have been created. -/
theorem eq_or_creates_of_reported (h : site.Answers s (.create purpose code) answer s')
    (hreported : reported answer = none) :
    s' = s ∨ ∃ address, s.Creates ⟨address, code, purpose⟩ s' := by
  change Created s purpose code s' (reported answer) at h
  rwa [hreported] at h

end Creation

end Site

end ProxyUpgrade
