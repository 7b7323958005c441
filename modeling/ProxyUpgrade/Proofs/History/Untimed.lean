import ProxyUpgrade.Proofs.History.Manifest
/-!
# Groups without their times

An alias is kept with the time when it was first seen. All else that a history says depends on codes
and addresses alone, and so do the groups that are found in it.
-/

namespace ProxyUpgrade.History

/-- What a group says, apart from times. -/
def Group.untimed (group : Group) : Hash × List Address := (group.code, group.addresses)

theorem Group.has_untimed {group other : Group} (h : other.untimed = group.untimed)
    (address : Address) : other.has address = group.has address := by
  rw [has, has, show other.addresses = group.addresses from congrArg Prod.snd h]

theorem Group.untimed_add {group other : Group} (h : other.untimed = group.untimed)
    (now later : Timestamp) (address : Address) :
    (other.add later address).untimed = (group.add now address).untimed := by
  obtain ⟨hcode, haddresses⟩ := Prod.mk.inj h
  rw [add, add, has_untimed h]
  split
  · exact h
  · obtain ⟨hcanonical, haliases⟩ := List.cons.inj haddresses
    simp [untimed, addresses, hcode, hcanonical, haliases]

/-- What a manifest says, apart from times. -/
def Manifest.untimed (manifest : Manifest) : List (Hash × List Address) :=
  manifest.map Group.untimed

/-- **When something is recorded only matters for its time.** -/
theorem Manifest.untimed_record {manifest other : Manifest} (h : other.untimed = manifest.untimed)
    (now later : Timestamp) (code : Hash) (address : Address) :
    (other.record later code address).1.untimed = (manifest.record now code address).1.untimed ∧
      (other.record later code address).2.untimed =
        (manifest.record now code address).2.untimed := by
  induction manifest generalizing other with
  | nil =>
    obtain rfl : other = [] := by simpa [untimed] using h
    exact ⟨rfl, rfl⟩
  | cons group rest ih =>
    obtain - | ⟨group', rest'⟩ := other
    · cases h
    obtain ⟨hgroup, hrest⟩ := List.cons.inj h
    have hcode : group'.code = group.code := congrArg Prod.fst hgroup
    rw [record, record, hcode]
    split
    · have hadd := Group.untimed_add hgroup now later address
      exact ⟨hadd, List.cons_eq_cons.mpr ⟨hadd, hrest⟩⟩
    · obtain ⟨hfound, hrecorded⟩ := ih hrest
      exact ⟨hfound, List.cons_eq_cons.mpr ⟨hgroup, hrecorded⟩⟩

theorem Manifest.ofCode?_untimed {manifest other : Manifest} (h : other.untimed = manifest.untimed)
    (code : Hash) : (other.ofCode? code).map Group.untimed =
      (manifest.ofCode? code).map Group.untimed := by
  have hfind (groups : Manifest) : (groups.ofCode? code).map Group.untimed =
      groups.untimed.find? fun group => group.1 = code := by
    rw [untimed, List.find?_map]
    rfl
  rw [hfind, hfind, h]

theorem Manifest.ofAddress?_untimed {manifest other : Manifest}
    (h : other.untimed = manifest.untimed) (address : Address) :
    (other.ofAddress? address).map Group.untimed =
      (manifest.ofAddress? address).map Group.untimed := by
  have hfind (groups : Manifest) : (groups.ofAddress? address).map Group.untimed =
      groups.untimed.find? fun group => group.2.contains address := by
    rw [untimed, List.find?_map]
    rfl
  rw [hfind, hfind, h]

/-- The same addresses may be shared. -/
theorem Manifest.any_untimed {manifest other : Manifest} (h : other.untimed = manifest.untimed)
    (a b : Address) : (other.any fun group => group.has a && group.has b) =
      manifest.any fun group => group.has a && group.has b := by
  have hany (groups : Manifest) : (groups.any fun group => group.has a && group.has b) =
      groups.untimed.any fun group => group.2.contains a && group.2.contains b := by
    rw [untimed, List.any_map]
    rfl
  rw [hany, hany, h]

end ProxyUpgrade.History
