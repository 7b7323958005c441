import Mathlib.Data.List.Nodup
import ProxyUpgrade.Proofs.History.Manifest
/-!
# Groups that stay apart

The history lets an address be recorded under any number of codes, and then it belongs to several
groups and to be taken for the same is no equivalence. It is up to those who record to avoid this.
`History.Annals` keep, besides the manifest, what has been recorded so far and which addresses
creations have returned. They are in order (`History.Orderly`) as long as each address is recorded
under one code only, and then the groups are disjoint (`History.Orderly.disjoint`), and two
addresses share a group exactly if they were recorded under one code
(`History.Orderly.shares_iff`).
-/

namespace ProxyUpgrade.History

/-! ### What recording does to the groups -/

theorem Group.add_has_iff {group : Group} {now : Timestamp} {address member : Address} :
    (group.add now address).has member = true ↔ group.has member = true ∨ member = address := by
  refine ⟨fun h => (Group.has_of_add_has h).symm, ?_⟩
  rintro (h | rfl)
  · rw [Group.add]
    split
    · exact h
    · simp only [Group.has, Group.addresses, List.map_append, List.contains_iff_mem] at h ⊢
      exact List.mem_append_left _ h
  · exact group.add_has now member

namespace Manifest

variable {manifest : Manifest}

/-- **An address joins the group of its code**, and nothing else changes. -/
theorem exists_of_record (now : Timestamp) (code : Hash) (address : Address) (manifest : Manifest)
    (other : Hash) (member : Address) :
    (∃ group ∈ (manifest.record now code address).2, group.code = other ∧ group.has member = true) ↔
      (∃ group ∈ manifest, group.code = other ∧ group.has member = true) ∨
        other = code ∧ member = address := by
  induction manifest with
  | nil => simp [record, Group.has, Group.addresses, eq_comm (a := other)]
  | cons first rest ih =>
    rw [record]
    split
    next heq =>
      subst heq
      simp only [List.exists_mem_cons_iff, Group.add_code, Group.add_has_iff, and_or_left,
        or_right_comm, eq_comm (a := other)]
    next =>
      simp only [List.exists_mem_cons_iff, ih, or_assoc]

/-- A code that has a group keeps it, and one that has none is given one. -/
theorem codes_record (now : Timestamp) (code : Hash) (address : Address) (manifest : Manifest) :
    (manifest.record now code address).2.map (·.code) =
      if code ∈ manifest.map (·.code) then manifest.map (·.code)
      else manifest.map (·.code) ++ [code] := by
  induction manifest with
  | nil => rfl
  | cons first rest ih =>
    rw [record]
    split
    next heq => simp [heq]
    next hne =>
      rw [List.map_cons, ih]
      simp only [List.map_cons, List.mem_cons, eq_comm (a := code), hne, false_or]
      split <;> rfl

theorem nodup_codes_record (h : (manifest.map (·.code)).Nodup) (now : Timestamp) (code : Hash)
    (address : Address) : ((manifest.record now code address).2.map (·.code)).Nodup := by
  rw [codes_record]
  split
  · exact h
  next hnew => exact List.nodup_append.mpr ⟨h, List.nodup_singleton _, by simpa using hnew⟩

end Manifest

/-! ### Annals -/

/-- A manifest with its past. Nothing keeps them from being out of order: that they are not has to
be shown of those who record. -/
structure Annals where
  /-- The addresses that creations have returned. -/
  returned : List Address
  /-- What has been recorded, by code and address. -/
  recorded : List (Hash × Address)
  manifest : Manifest

namespace Annals

/-- Nothing has happened yet. -/
def empty : Annals := ⟨[], [], []⟩

/-- A creation returns an address. -/
def create (s : Annals) (address : Address) : Annals :=
  { s with returned := address :: s.returned }

/-- An address is recorded under a code. -/
def record (s : Annals) (now : Timestamp) (code : Hash) (address : Address) : Annals :=
  { s with
    recorded := (code, address) :: s.recorded
    manifest := (s.manifest.record now code address).2 }

/-- **An address may be recorded** if it comes from a creation, and under no other code than
before. -/
def MayRecord (s : Annals) (code : Hash) (address : Address) : Prop :=
  address ∈ s.returned ∧ ∀ other, (other, address) ∈ s.recorded → other = code

/-- **Two addresses were recorded under one code.** -/
def Share (s : Annals) (a b : Address) : Prop :=
  ∃ code, (code, a) ∈ s.recorded ∧ (code, b) ∈ s.recorded

end Annals

/-- **Annals that are in order**: codes have one group each, which holds what was recorded under
them, and addresses have one code each, and come from creations. -/
structure Orderly (s : Annals) : Prop where
  codes : (s.manifest.map (·.code)).Nodup
  members : ∀ code address, (∃ group ∈ s.manifest, group.code = code ∧ group.has address = true) ↔
    (code, address) ∈ s.recorded
  single : ∀ {code other : Hash} {address : Address}, (code, address) ∈ s.recorded →
    (other, address) ∈ s.recorded → code = other
  returned : ∀ {code : Hash} {address : Address}, (code, address) ∈ s.recorded →
    address ∈ s.returned

theorem orderly_empty : Orderly .empty where
  codes := List.nodup_nil
  members := by simp [Annals.empty]
  single h := absurd h List.not_mem_nil
  returned h := absurd h List.not_mem_nil

namespace Orderly

variable {s : Annals} (h : Orderly s) {code : Hash} {address a b : Address} {group : Group}
include h

theorem create (address : Address) : Orderly (s.create address) where
  codes := h.codes
  members := h.members
  single := h.single
  returned hrecorded := List.mem_cons_of_mem _ (h.returned hrecorded)

/-- **What may be recorded leaves the annals in order.** -/
theorem record (hmay : s.MayRecord code address) (now : Timestamp) :
    Orderly (s.record now code address) where
  codes := Manifest.nodup_codes_record h.codes now code address
  members other member := by
    rw [Annals.record, Manifest.exists_of_record, h.members]
    simp [or_comm]
  single := by
    intro other other' member hrecorded hrecorded'
    rcases List.mem_cons.mp hrecorded with heq | hold <;>
      rcases List.mem_cons.mp hrecorded' with heq' | hold'
    · cases heq
      cases heq'
      rfl
    · cases heq
      exact (hmay.2 other' hold').symm
    · cases heq'
      exact hmay.2 other hold
    · exact h.single hold hold'
  returned := by
    intro other member hrecorded
    rcases List.mem_cons.mp hrecorded with heq | hold
    · cases heq
      exact hmay.1
    · exact h.returned hold

/-! ### Disjoint groups -/

theorem mem_of_ofCode? (hgroup : s.manifest.ofCode? code = some group)
    (hhas : group.has address = true) : (code, address) ∈ s.recorded :=
  (h.members code address).mp
    ⟨group, Manifest.mem_of_ofCode? hgroup, Manifest.code_of_ofCode? hgroup, hhas⟩

/-- **No address belongs to two groups.** -/
theorem disjoint : s.manifest.Pairwise fun group other =>
    ∀ address, ¬ (group.has address = true ∧ other.has address = true) := by
  -- Two groups of one address would have one code, but codes have one group each.
  refine (List.pairwise_map.mp h.codes).imp_of_mem fun {group other} hgroup hother hne address => ?_
  rintro ⟨hhas, hhas'⟩
  exact hne (h.single ((h.members _ _).mp ⟨group, hgroup, rfl, hhas⟩)
    ((h.members _ _).mp ⟨other, hother, rfl, hhas'⟩))

/-- The groups that two addresses share. -/
theorem shares_iff : (∃ group ∈ s.manifest, group.has a = true ∧ group.has b = true) ↔
    s.Share a b := by
  constructor
  · rintro ⟨group, hgroup, ha, hb⟩
    exact ⟨group.code, (h.members _ _).mp ⟨group, hgroup, rfl, ha⟩,
      (h.members _ _).mp ⟨group, hgroup, rfl, hb⟩⟩
  · rintro ⟨code, ha, hb⟩
    obtain ⟨group, hgroup, hcode, ha⟩ := (h.members code a).mpr ha
    obtain ⟨other, hother, hcode', hb⟩ := (h.members code b).mpr hb
    obtain rfl := List.inj_on_of_nodup_map h.codes hgroup hother (hcode.trans hcode'.symm)
    exact ⟨group, hgroup, ha, hb⟩

/-- **An address is found in the group of all that share one with it.** -/
theorem ofAddress?_recorded (hrecorded : (code, a) ∈ s.recorded) :
    ∃ group, s.manifest.ofAddress? a = some group ∧
      ∀ b, group.has b = true ↔ s.Share a b := by
  obtain ⟨member, hmember, -, hhas⟩ := (h.members code a).mpr hrecorded
  obtain ⟨group, hgroup⟩ : ∃ group, s.manifest.ofAddress? a = some group :=
    Option.isSome_iff_exists.mp (List.find?_isSome.mpr ⟨member, hmember, hhas⟩)
  have hmem := List.mem_of_find?_eq_some hgroup
  have ha : group.has a = true := by simpa using List.find?_some hgroup
  have hcode : (group.code, a) ∈ s.recorded := (h.members _ _).mp ⟨group, hmem, rfl, ha⟩
  refine ⟨group, hgroup, fun b => ⟨fun hb => ?_, ?_⟩⟩
  · exact h.shares_iff.mp ⟨group, hmem, ha, hb⟩
  · rintro ⟨other, ha', hb⟩
    obtain rfl := h.single hcode ha'
    obtain ⟨group', hmem', hcode', hhas'⟩ := (h.members _ _).mpr hb
    obtain rfl := List.inj_on_of_nodup_map h.codes hmem' hmem hcode'
    exact hhas'

/-- **To be the same or to share a group is an equivalence.** -/
theorem equivalence : Equivalence fun a b => a = b ∨ s.Share a b where
  refl a := .inl rfl
  symm := by
    rintro a b (rfl | ⟨code, ha, hb⟩)
    · exact .inl rfl
    · exact .inr ⟨code, hb, ha⟩
  trans := by
    rintro a b c (rfl | ⟨code, ha, hb⟩) (rfl | ⟨other, hb', hc⟩)
    · exact .inl rfl
    · exact .inr ⟨other, hb', hc⟩
    · exact .inr ⟨code, ha, hb⟩
    · obtain rfl := h.single hb hb'
      exact .inr ⟨code, ha, hc⟩

end Orderly

end ProxyUpgrade.History
