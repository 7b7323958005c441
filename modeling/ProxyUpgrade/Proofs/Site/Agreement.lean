import ProxyUpgrade.Proofs.History.Untimed
import ProxyUpgrade.Proofs.Site.Reads
/-!
# Ledgers that agree

Two deployments that do the same leave ledgers that may still differ: in the times at which
addresses were put on record, and in how often an upgrade was mined. Apart from that they agree
(`Site.Ledger.Agrees`), and what is looked up in one is what is looked up in the other.
-/

namespace ProxyUpgrade

namespace Site

/-! ### Ledgers -/

/-- **Two ledgers agree**: on the chain, on the registry, and on the addresses of the history. -/
structure Ledger.Agrees (s s' : Ledger) : Prop where
  code : s'.code = s.code
  slot : s'.slot = s.slot
  created : s'.created = s.created
  table : s'.table = s.table
  manifest : s'.manifest.untimed = s.manifest.untimed

namespace Ledger.Agrees

variable {s s' : Ledger}

theorem refl (s : Ledger) : s.Agrees s := ⟨rfl, rfl, rfl, rfl, rfl⟩

theorem live (h : s.Agrees s') (address : Address) : s'.live address = s.live address := by
  rw [Ledger.live, Ledger.live, h.code]

/-- It makes no difference when an address is recorded. -/
theorem recordAlias (s : Ledger) (now later : Timestamp) (code : Hash) (address : Address) :
    (s.recordAlias now code address).Agrees (s.recordAlias later code address) :=
  ⟨rfl, rfl, rfl, rfl, (History.Manifest.untimed_record rfl ..).2⟩

theorem upgraded {t t' : Ledger} {proxy implementation : Address} (h : s.Agrees s')
    (hupgraded : s.Upgraded proxy implementation t)
    (hupgraded' : s'.Upgraded proxy implementation t') : t.Agrees t' := by
  obtain ⟨activations, rfl⟩ := hupgraded
  obtain ⟨activations', rfl⟩ := hupgraded'
  refine ⟨h.code, ?_, h.created, h.table, h.manifest⟩
  dsimp only
  rw [h.slot]

/-- The group of a code has the same addresses. -/
theorem exists_group (h : s.Agrees s') {code : Hash} {group : History.Group}
    (hgroup : s.manifest.ofCode? code = some group) :
    ∃ other, s'.manifest.ofCode? code = some other ∧ other.untimed = group.untimed := by
  have hofCode := History.Manifest.ofCode?_untimed h.manifest code
  rw [hgroup, Option.map_some, Option.map_eq_some_iff] at hofCode
  exact hofCode

theorem onRecord (h : s.Agrees s') (code : Hash) (current : Option Address) :
    s'.onRecord code current = s.onRecord code current := by
  have hofCode := History.Manifest.ofCode?_untimed h.manifest code
  have hlive : s'.live = s.live := funext h.live
  rw [Ledger.onRecord, Ledger.onRecord, hlive]
  rcases hgroup : s.manifest.ofCode? code with - | group <;> rw [hgroup] at hofCode
  · rw [Option.map_eq_none_iff.mp hofCode]
  · obtain ⟨other, hother, huntimed⟩ := Option.map_eq_some_iff.mp hofCode
    have haddresses : other.addresses = group.addresses := congrArg Prod.snd huntimed
    have hhas : other.has = group.has := funext (History.Group.has_untimed huntimed)
    rw [hother, Option.bind_some, Option.bind_some, Node.Proxies.candidates,
      Node.Proxies.candidates, haddresses, hhas]

theorem same (h : s.Agrees s') (aliasing : Bool) (a b : Address) :
    s'.same aliasing a b = s.same aliasing a b := by
  rw [Ledger.same, Ledger.same, History.Manifest.any_untimed h.manifest]

end Ledger.Agrees

end Site

end ProxyUpgrade
