import ProxyUpgrade.History.Group
/-!
# Groups of the history

Recording an address changes the group of its code and no other. If there is no group it starts one;
if the address belongs to the group already, nothing changes at all.
-/

namespace ProxyUpgrade.History

namespace Group

theorem has_canonical (group : Group) : group.has group.canonical = true := by
  simp [has, addresses]

theorem add_of_has {group : Group} {address : Address} (h : group.has address = true)
    (now : Timestamp) : group.add now address = group := by
  rw [add, if_pos h]

theorem add_has (group : Group) (now : Timestamp) (address : Address) :
    (group.add now address).has address = true := by
  rw [add]
  split
  next h => exact h
  next => simp [has, addresses]

/-- Nothing else joins a group. -/
theorem has_of_add_has {group : Group} {now : Timestamp} {address other : Address}
    (h : (group.add now address).has other = true) : other = address ∨ group.has other = true := by
  rw [add] at h
  split at h
  · exact .inr h
  · simpa [has, addresses, or_left_comm, or_comm] using h

@[simp] theorem add_code (group : Group) (now : Timestamp) (address : Address) :
    (group.add now address).code = group.code := by
  rw [add]
  split <;> rfl

end Group

namespace Manifest

variable {manifest : Manifest} {code other : Hash} {address : Address} {group : Group}

theorem ofCode?_cons (group : Group) (rest : Manifest) (code : Hash) :
    ofCode? (group :: rest) code = if group.code = code then some group else ofCode? rest code := by
  by_cases h : group.code = code <;> simp [ofCode?, h]

theorem code_of_ofCode? (h : ofCode? manifest code = some group) : group.code = code := by
  simpa using List.find?_some h

theorem mem_of_ofCode? (h : ofCode? manifest code = some group) : group ∈ manifest :=
  List.mem_of_find?_eq_some h

/-- The group that is given along is the one on record afterwards. -/
theorem ofCode?_record (now : Timestamp) (code : Hash) (address : Address) (manifest : Manifest) :
    ofCode? (manifest.record now code address).2 code =
      some (manifest.record now code address).1 := by
  induction manifest with
  | nil => simp [record, ofCode?]
  | cons group rest ih =>
    rw [record]
    split
    next h => rw [ofCode?_cons, if_pos (by simpa using h)]
    next h => simpa [ofCode?_cons, h] using ih

/-- A code that is on record keeps its group, with the address added to it. -/
theorem record_fst (h : ofCode? manifest code = some group) (now : Timestamp)
    (address : Address) : (manifest.record now code address).1 = group.add now address := by
  induction manifest with
  | nil => simp [ofCode?] at h
  | cons first rest ih =>
    rw [ofCode?_cons] at h
    rw [record]
    split
    next heq =>
      rw [if_pos heq, Option.some.injEq] at h
      rw [h]
    next hne => exact ih (by rwa [if_neg hne] at h)

/-- **A code that is new starts a group.** -/
theorem record_of_new (h : ofCode? manifest code = none) (now : Timestamp) (address : Address) :
    (manifest.record now code address).2 = manifest ++ [⟨code, address, []⟩] := by
  induction manifest with
  | nil => rfl
  | cons first rest ih =>
    rw [ofCode?_cons] at h
    rw [record]
    split
    next heq => simp [heq] at h
    next hne => simpa using ih (by rwa [if_neg hne] at h)

theorem record_fst_of_new (h : ofCode? manifest code = none) (now : Timestamp)
    (address : Address) : (manifest.record now code address).1 = ⟨code, address, []⟩ := by
  have hgroup := ofCode?_record now code address manifest
  rw [record_of_new h] at hgroup
  rw [ofCode?] at h hgroup
  rw [List.find?_append, h] at hgroup
  simpa using hgroup.symm

/-- **What is on record already changes nothing.** -/
theorem record_of_has (h : ofCode? manifest code = some group) (hhas : group.has address = true)
    (now : Timestamp) : (manifest.record now code address).2 = manifest := by
  induction manifest with
  | nil => simp [ofCode?] at h
  | cons first rest ih =>
    rw [ofCode?_cons] at h
    rw [record]
    split
    next heq =>
      rw [if_pos heq, Option.some.injEq] at h
      subst h
      rw [Group.add_of_has hhas]
    next hne => simpa using ih (by rwa [if_neg hne] at h)

/-- The address belongs to the group of its code afterwards. -/
theorem record_fst_has (now : Timestamp) (code : Hash) (address : Address)
    (manifest : Manifest) : (manifest.record now code address).1.has address = true := by
  induction manifest with
  | nil => simp [record, Group.has, Group.addresses]
  | cons first rest ih =>
    rw [record]
    split
    · exact first.add_has now address
    · exact ih

/-- Nothing else joins the group of a code. -/
theorem has_of_record_fst_has {now : Timestamp} {code : Hash} {address other : Address}
    (h : (manifest.record now code address).1.has other = true) :
    other = address ∨ ∃ group, ofCode? manifest code = some group ∧ group.has other = true := by
  rcases hgroup : ofCode? manifest code with - | group
  · induction manifest with
    | nil => exact .inl (by simpa [record, Group.has, Group.addresses] using h)
    | cons first rest ih =>
      rw [ofCode?_cons] at hgroup
      rw [record] at h
      split at h
      next heq => simp [heq] at hgroup
      next hne => exact (ih h (by rwa [if_neg hne] at hgroup)).imp_right (by simp)
  · rw [record_fst hgroup] at h
    exact (Group.has_of_add_has h).imp_right fun h => ⟨group, rfl, h⟩

end Manifest

end ProxyUpgrade.History
