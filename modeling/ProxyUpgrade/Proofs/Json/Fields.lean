import ProxyUpgrade.Json.Fields
/-!
# What is read in lists and fields

A list that was written item by item is read item by item, and whatever is found in a list or in a
field has been read, or stands for what is left out.
-/

namespace ProxyUpgrade.Json

variable {α : Type}

/-- Items that are read one by one are read as a list. -/
theorem list?_map {toJson : α → Json} {ofJson? : Json → Option α} {items : List α}
    (h : ∀ item ∈ items, ofJson? (toJson item) = some item) :
    list? ofJson? (.array (items.map toJson)) = some items := by
  rw [list?]
  induction items with
  | nil => rfl
  | cons item rest ih =>
    rw [List.map_cons, List.mapM_cons, h item List.mem_cons_self,
      ih fun item hitem => h item (List.mem_cons_of_mem _ hitem)]
    rfl

/-- What is not `null` is read as it is. -/
theorem nullable?_of_read {ofJson? : Json → Option α} {json : Json} {a : α}
    (hnull : ofJson? .null = none) (h : ofJson? json = some a) :
    json.nullable? ofJson? = some (some a) := by
  cases json with
  | null =>
    rw [hnull] at h
    cases h
  | _ => simp [nullable?, h]

/-- A value that may be `null` has been read, or there is none. -/
theorem exists_of_nullable? {ofJson? : Json → Option α} {json : Json} {a : α}
    (h : json.nullable? ofJson? = some (some a)) : ∃ json, ofJson? json = some a := by
  cases json with
  | null => cases h
  | _ =>
    obtain ⟨found, hfound, hsome⟩ := Option.map_eq_some_iff.mp h
    exact ⟨_, Option.some.inj hsome ▸ hfound⟩

/-- An object in which no name of a field occurs twice is read by the names. -/
theorem fields?_object {names : List String} {members : List (String × Json)}
    (h : distinct names members = true) :
    (object members).fields? names = some (.named members) := by
  rw [fields?, if_pos h]

namespace Fields

variable {fields : Fields} {name : String} {ofJson? : Json → Option α}

/-- What is found in a field that must be given has been read. -/
theorem exists_of_required {a : α} (h : fields.required name ofJson? = some a) :
    ∃ json, ofJson? json = some a := by
  obtain ⟨json, -, hread⟩ := Option.bind_eq_some_iff.mp h
  exact ⟨json, hread⟩

/-- A value found in a field that may be left out has been read. -/
theorem exists_of_optional {a : α} (h : fields.optional name ofJson? = some (some a)) :
    ∃ json, ofJson? json = some a := by
  unfold optional at h
  split at h
  next => exact exists_of_nullable? h
  next => cases h
  next => cases h

/-- A field that may be left out holds what was read, or stands for what is left out. -/
theorem defaulted_cases {default found : α}
    (h : fields.defaulted name default ofJson? = some found) :
    found = default ∨ ∃ json, ofJson? json = some found := by
  rw [defaulted] at h
  split at h
  next json _ => exact .inr ⟨json, h⟩
  next => exact .inl (Option.some.inj h).symm

end Fields

end ProxyUpgrade.Json
