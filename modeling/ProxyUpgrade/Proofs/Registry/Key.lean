import ProxyUpgrade.Registry.Key
/-!
# Keys and their texts

The registry keeps a key by its text, which is made of the parts of the key with a separator before
each part but the first. No part of a valid key contains a separator, so the first part ends where
the first separator is, and so on to the end of the text: of the valid keys, only one has a given
text (`Key.text_injective`).
-/

namespace ProxyUpgrade.Key

variable {key other : Key} {part part' id : String}

/-- A key that the registry takes: no part is empty, and none contains a colon or an at sign. -/
def Valid (key : Key) : Prop :=
  ∀ part ∈ key.parts, part.2 ≠ "" ∧ ':' ∉ part.2.toList ∧ '@' ∉ part.2.toList

theorem isPart_iff : isPart part = true ↔ part ≠ "" ∧ ':' ∉ part.toList ∧ '@' ∉ part.toList := by
  have hsep : (∀ c ∈ part.toList, isSeparator c = false) ↔
      ':' ∉ part.toList ∧ '@' ∉ part.toList := by
    constructor
    · exact fun h => ⟨fun hc => by simpa [isSeparator] using h _ hc,
        fun hc => by simpa [isSeparator] using h _ hc⟩
    · rintro ⟨hcolon, hat⟩ c hc
      have hc₁ : c ≠ ':' := fun heq => hcolon (heq ▸ hc)
      have hc₂ : c ≠ '@' := fun heq => hat (heq ▸ hc)
      simp [isSeparator, hc₁, hc₂]
  simp [isPart, ← hsep]

/-- **A key is kept by its text** if it is valid, and refused if not. -/
theorem id_eq_ok_iff : key.id = .ok id ↔ key.Valid ∧ key.text = id := by
  rw [Key.id]
  split
  next what part hfound =>
    have hpart : isPart part = false := by simpa using List.find?_some hfound
    simp only [reduceCtorEq, false_iff, not_and]
    intro hvalid
    rw [isPart_iff.mpr (hvalid _ (List.mem_of_find?_eq_some hfound))] at hpart
    cases hpart
  next hnone =>
    have hvalid : key.Valid := fun part hpart => isPart_iff.mp (by
      simpa using List.find?_eq_none.mp hnone part hpart)
    simp [hvalid]

theorem exists_id_iff : (∃ id, key.id = .ok id) ↔ key.Valid := by simp [id_eq_ok_iff]

/-! ### Taking a text apart -/

/-- What follows the artifact in the text of a key. -/
def ending (tags : List String) (instanceId : Option String) : List Char :=
  tags.flatMap (':' :: ·.toList) ++ (instanceId.elim [] ('@' :: ·.toList))

theorem toList_text (key : Key) :
    key.text.toList = key.name.artifact.toList ++ ending key.name.tags key.instanceId := by
  have hname : key.name.text.toList =
      key.name.artifact.toList ++ key.name.tags.flatMap (':' :: ·.toList) := by
    simp [LogicalName.text, List.flatMap_def, Function.comp_def]
  rw [text, ending]
  split <;> simp [*]

/-- What follows a part starts with a separator. -/
theorem takeWhile_ending (tags : List String) (instanceId : Option String) :
    (ending tags instanceId).takeWhile (!isSeparator ·) = [] := by
  cases tags <;> cases instanceId <;> simp [ending, isSeparator]

/-- **The first part of a text goes up to the first separator.** -/
theorem part_eq (hpart : isPart part = true) (hpart' : isPart part' = true)
    {tags tags' : List String} {instanceId instanceId' : Option String}
    (h : part.toList ++ ending tags instanceId = part'.toList ++ ending tags' instanceId') :
    part = part' ∧ ending tags instanceId = ending tags' instanceId' := by
  have htake : ∀ {part : String} {tags : List String} {instanceId : Option String},
      isPart part = true →
        (part.toList ++ ending tags instanceId).takeWhile (!isSeparator ·) = part.toList := by
    intro part tags instanceId hpart
    have hfree : ∀ c ∈ part.toList, (!isSeparator c) = true := by
      simp only [isPart, Bool.and_eq_true, Bool.not_eq_true', List.any_eq_false] at hpart
      simpa using hpart.2
    rw [List.takeWhile_append_of_pos hfree, takeWhile_ending, List.append_nil]
  have hsame : part = part' := by
    rw [← String.toList_inj, ← htake hpart, h, htake hpart']
  subst hsame
  exact ⟨rfl, List.append_cancel_left h⟩

/-- **Tags and the id are found again** behind the artifact. -/
theorem ending_injective {tags tags' : List String} {instanceId instanceId' : Option String}
    (htags : ∀ tag ∈ tags, isPart tag = true) (htags' : ∀ tag ∈ tags', isPart tag = true)
    (h : ending tags instanceId = ending tags' instanceId') :
    tags = tags' ∧ instanceId = instanceId' := by
  -- A tag comes after a colon, the id after an at sign, and with neither the text has ended.
  induction tags generalizing tags' with
  | nil =>
    cases tags' with
    | nil =>
      cases instanceId <;> cases instanceId' <;> simp_all [ending, String.toList_inj]
    | cons => cases instanceId <;> simp [ending] at h
  | cons tag tags ih =>
    cases tags' with
    | nil => cases instanceId' <;> simp [ending] at h
    | cons tag' tags' =>
      obtain ⟨htag, hrest⟩ := List.forall_mem_cons.mp htags
      obtain ⟨htag', hrest'⟩ := List.forall_mem_cons.mp htags'
      have hcut : tag.toList ++ ending tags instanceId =
          tag'.toList ++ ending tags' instanceId' := by
        simpa [ending] using h
      obtain ⟨rfl, hending⟩ := part_eq htag htag' hcut
      obtain ⟨rfl, rfl⟩ := ih hrest hrest' hending
      exact ⟨rfl, rfl⟩

/-- **Different valid keys have different texts.** -/
theorem text_injective (hkey : key.Valid) (hother : other.Valid) (h : key.text = other.text) :
    key = other := by
  have hparts : ∀ {key : Key}, key.Valid →
      isPart key.name.artifact = true ∧ ∀ tag ∈ key.name.tags, isPart tag = true := fun hvalid =>
    ⟨isPart_iff.mpr (hvalid ("artifact", _) (by simp [parts])), fun tag htag =>
      isPart_iff.mpr (hvalid ("tag", tag) (by simp [parts, htag]))⟩
  obtain ⟨⟨artifact, tags⟩, instanceId⟩ := key
  obtain ⟨⟨artifact', tags'⟩, instanceId'⟩ := other
  rw [← String.toList_inj, toList_text, toList_text] at h
  obtain ⟨hartifact, htags⟩ := hparts hkey
  obtain ⟨hartifact', htags'⟩ := hparts hother
  obtain ⟨rfl, hending⟩ := part_eq hartifact hartifact' h
  obtain ⟨rfl, rfl⟩ := ending_injective htags htags' hending
  rfl

/-- A text that the registry keeps a key by belongs to no other key. -/
theorem eq_of_id (hkey : key.id = .ok id) (hother : other.id = .ok id) : key = other := by
  obtain ⟨hvalid, htext⟩ := id_eq_ok_iff.mp hkey
  obtain ⟨hvalid', htext'⟩ := id_eq_ok_iff.mp hother
  exact text_injective hvalid hvalid' (htext.trans htext'.symm)

end ProxyUpgrade.Key
