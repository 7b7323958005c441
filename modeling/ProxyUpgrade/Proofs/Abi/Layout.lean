import ProxyUpgrade.Abi.Decode
import ProxyUpgrade.Proofs.Abi.Admits
/-!
# Where values lie in their encoding

A sequence is laid out in two parts: the places of its items, one after the other, and behind them
what the items have away from their places. What an item contributes is found from its place alone,
either there or where the word there points to (`Part.At`). That every item of a sequence is where
it should be (`Part.allAt_of_sequence`) is all that has to be known of the layout to read it.

A word can only point so far, so the encoding must not be too long. How long it is is bounded by the
size of the values (`Value.length_sequence_le`).
-/

namespace ProxyUpgrade.Abi

/-- How many numbers a word can hold. -/
def wordCount : Nat := 2 ^ 256

/-! ### Slices -/

section Slices

variable {frame bytes : Bytes} {start : Nat}

/-- What lies at a position is sliced out there. -/
theorem slice?_of_prefix (h : bytes <+: frame.drop start) :
    slice? frame start bytes.length = some bytes := by
  have htake : (frame.drop start).take bytes.length = bytes :=
    (List.prefix_iff_eq_take.mp h).symm
  simp [slice?, htake]

theorem length_word (n : Nat) : (word n).length = 32 := Bytes.length_ofNat 32 n

theorem wordAt?_of_prefix {n : Nat} (hn : n < wordCount) (h : word n <+: frame.drop start) :
    wordAt? frame start = some n := by
  have hbound : n < Nat.pow 256 32 := Nat.lt_of_lt_of_le hn (by decide)
  have hslice := slice?_of_prefix h
  rw [length_word] at hslice
  rw [wordAt?, hslice, Option.map_some, word, Bytes.toNat_ofNat hbound]

/-- Of two things that lie one after the other, the second one lies behind the first one. -/
theorem prefix_of_append (start : Nat) {first rest : Bytes}
    (h : first ++ rest <+: frame.drop start) :
    first <+: frame.drop start ∧ rest <+: frame.drop (start + first.length) := by
  obtain ⟨after, hafter⟩ := h
  refine ⟨⟨rest ++ after, by rw [← List.append_assoc, hafter]⟩, after, ?_⟩
  rw [← List.drop_drop, ← hafter, List.append_assoc, List.drop_left]

/-- A byte string lies behind its length. -/
theorem bytesAt?_of_prefix (hlength : bytes.length < wordCount)
    (h : word bytes.length ++ Bytes.padRight 32 bytes <+: frame) : bytesAt? frame = some bytes := by
  obtain ⟨hword, hpadded⟩ := prefix_of_append 0 h
  rw [length_word, Nat.zero_add] at hpadded
  have hbytes : bytes <+: frame.drop 32 := (List.prefix_append _ _).trans hpadded
  have hle : bytes.length ≤ frame.length := by
    have hdrop := hbytes.length_le
    rw [List.length_drop] at hdrop
    omega
  rw [bytesAt?, wordAt?_of_prefix hlength hword]
  simp [hle, slice?_of_prefix hbytes]

/-- A byte string that fits a word is filled up to one. -/
theorem length_padRight (hpos : 0 < bytes.length) (hle : bytes.length ≤ 32) :
    (Bytes.padRight 32 bytes).length = 32 := by
  rw [Bytes.padRight, List.length_append, List.length_replicate]
  omega

theorem length_padRight_le (bytes : Bytes) :
    (Bytes.padRight 32 bytes).length ≤ bytes.length + 31 := by
  rw [Bytes.padRight, List.length_append, List.length_replicate]
  omega

/-- What it was filled up with is left out again. -/
theorem leading?_padRight (bytes : Bytes) :
    leading? bytes.length (Bytes.padRight 32 bytes) = some bytes := by
  simp [leading?, Bytes.padRight]

end Slices

/-! ### Parts -/

namespace Part

/-- **What an item contributes is where it should be**, given its place. -/
def At (frame : Bytes) (place : Nat) : Part → Prop
  | inline bytes => bytes <+: frame.drop place
  | referenced bytes => ∃ distance < wordCount,
    word distance <+: frame.drop place ∧ bytes <+: frame.drop distance

/-- The same for items whose places follow each other. -/
def AllAt (frame : Bytes) : (place : Nat) → List Part → Prop
  | _, [] => True
  | place, part :: rest => part.At frame place ∧ AllAt frame (place + part.placeSize) rest

theorem length_places (distance : Nat) (parts : List Part) :
    (places distance parts).length = placesSize parts := by
  induction parts generalizing distance with
  | nil => rfl
  | cons part rest ih =>
    cases part with
    | inline bytes => rw [places, List.length_append, ih, placesSize, placeSize]
    | referenced bytes => rw [places, List.length_append, ih, placesSize, placeSize, length_word]

/-- The bytes that an item takes altogether. -/
def total (part : Part) : Nat := part.placeSize + part.trailing.length

/-- **A sequence is as long as its items take it.** -/
theorem length_sequence (parts : List Part) : (sequence parts).length = (parts.map total).sum := by
  rw [sequence, List.length_append, length_places]
  induction parts with
  | nil => rfl
  | cons part rest ih =>
    simp only [placesSize, List.flatMap_cons, List.length_append, List.map_cons, List.sum_cons,
      total] at ih ⊢
    omega

section Places

variable {frame : Bytes}

/-- Items are where they should be if their places lie at one position, and what follows the places
at another one, to which the first reference points. -/
theorem allAt_of_places {parts : List Part} {distance place : Nat}
    (hplaces : places distance parts <+: frame.drop place)
    (htrailing : parts.flatMap trailing <+: frame.drop distance)
    (hbound : distance + (parts.flatMap trailing).length < wordCount) :
    AllAt frame place parts := by
  induction parts generalizing distance place with
  | nil => trivial
  | cons part rest ih =>
    cases part with
    | inline bytes =>
      rw [places] at hplaces
      obtain ⟨hbytes, hrest⟩ := prefix_of_append _ hplaces
      exact ⟨hbytes, ih hrest htrailing hbound⟩
    | referenced bytes =>
      rw [places] at hplaces
      rw [List.flatMap_cons, trailing] at htrailing hbound
      rw [List.length_append] at hbound
      obtain ⟨hword, hrest⟩ := prefix_of_append _ hplaces
      obtain ⟨hbytes, hfollowing⟩ := prefix_of_append _ htrailing
      rw [length_word] at hrest
      exact ⟨⟨distance, by omega, hword, hbytes⟩, ih hrest hfollowing (by omega)⟩

/-- **In a sequence all items are where they should be.** -/
theorem allAt_of_sequence {parts : List Part} (h : sequence parts <+: frame)
    (hbound : (sequence parts).length < wordCount) : AllAt frame 0 parts := by
  obtain ⟨hplaces, htrailing⟩ := prefix_of_append 0 h
  rw [sequence, List.length_append, length_places] at hbound
  rw [length_places, Nat.zero_add] at htrailing
  exact allAt_of_places hplaces htrailing hbound

/-- Where no item is referenced, nothing follows the places. -/
theorem flatMap_trailing_eq_nil {parts : List Part} (hnone : parts.any isReferenced = false) :
    parts.flatMap trailing = [] := by
  rw [List.flatMap_eq_nil_iff]
  intro part hmem
  cases part with
  | inline => rfl
  | referenced =>
    rw [List.any_eq_false] at hnone
    exact absurd rfl (hnone _ hmem)

/-- **A sequence that is an item itself** lies in its place if nothing in it is referenced, and
where the word in its place points to otherwise. -/
theorem at_nested_cases {parts : List Part} {place : Nat} (h : (nested parts).At frame place)
    (hbound : (sequence parts).length < wordCount) :
    (parts.any isReferenced = true ∧ (nested parts).placeSize = 32 ∧
        ∃ distance, wordAt? frame place = some distance ∧ AllAt (frame.drop distance) 0 parts) ∨
      parts.any isReferenced = false ∧ (nested parts).placeSize = placesSize parts ∧
        AllAt frame place parts := by
  rw [nested] at h ⊢
  split at h
  next hany =>
    obtain ⟨distance, hdistance, hword, hsequence⟩ := h
    rw [if_pos hany]
    exact .inl ⟨hany, rfl, distance, wordAt?_of_prefix hdistance hword,
      allAt_of_sequence hsequence hbound⟩
  next hnone =>
    have hnone : parts.any isReferenced = false := by simpa using hnone
    have htrailing := flatMap_trailing_eq_nil hnone
    rw [if_neg (by simp [hnone])]
    obtain ⟨hplaces, -⟩ := prefix_of_append _ h
    rw [sequence, htrailing, List.append_nil, length_places] at hbound
    refine .inr ⟨hnone, ?_, allAt_of_places hplaces (htrailing ▸ List.nil_prefix) ?_⟩
    · rw [placeSize, sequence, htrailing, List.append_nil, length_places]
    · rw [htrailing]
      exact hbound

end Places

end Part

/-! ### Lengths -/

namespace Value

theorem parts_eq_map (items : List Value) : parts items = items.map part := by
  induction items with
  | nil => rfl
  | cons item rest ih => rw [parts, ih, List.map_cons]

/-- A sequence as an item takes a word more at most. -/
theorem total_nested_le (parts : List Part) :
    (Part.nested parts).total ≤ 32 + (Part.sequence parts).length := by
  rw [Part.nested]
  split
  · exact Nat.le_refl _
  · simp only [Part.total, Part.placeSize, Part.trailing, List.length_nil]
    omega

theorem total_ofBytes_le (bytes : Bytes) :
    (Part.ofBytes bytes).total ≤ 96 * (1 + bytes.length) := by
  have hpadded := length_padRight_le bytes
  simp only [Part.ofBytes, Part.total, Part.placeSize, Part.trailing, List.length_append,
    length_word]
  omega

/-- A sequence is no longer than its items are large. -/
theorem length_sequence_le_of_forall {items : List Value}
    (h : ∀ item ∈ items, item.part.total ≤ 96 * item.size) :
    (Part.sequence (parts items)).length ≤ 96 * sizes items := by
  rw [Part.length_sequence]
  induction items with
  | nil => exact Nat.le_refl _
  | cons item rest ih =>
    obtain ⟨hitem, hrest⟩ := List.forall_mem_cons.mp h
    have hsum := ih hrest
    simp only [parts, List.map_cons, List.sum_cons, sizes]
    omega

mutual

/-- **An encoding is no longer than its value is large**, up to a factor. What fits a word is known
to do so from its kind. -/
theorem total_part_le {kind : Kind} {value : Value} (h : kind.Admits value) :
    value.part.total ≤ 96 * value.size := by
  cases h with
  | bool | address | uint | int =>
    simp only [part, Part.total, Part.placeSize, Part.trailing, List.length_nil, size, length_word]
    omega
  | function hlength =>
    simp only [part, Part.total, Part.placeSize, Part.trailing, List.length_nil, size]
    rw [length_padRight (by omega) (by omega)]
    omega
  | fixedBytes hpos hle =>
    simp only [part, Part.total, Part.placeSize, Part.trailing, List.length_nil, size,
      length_padRight hpos hle]
    omega
  | string text => exact total_ofBytes_le _
  | bytes raw => exact total_ofBytes_le _
  | array hitems =>
    have hsequence := length_sequence_le_of_forall fun item hmem => total_part_le (hitems item hmem)
    simp only [part, Part.total, Part.placeSize, Part.trailing, List.length_append, length_word,
      size]
    omega
  | fixedArray hne hitems =>
    have hsequence := length_sequence_le_of_forall fun item hmem => total_part_le (hitems item hmem)
    rw [part, size]
    exact Nat.le_trans (total_nested_le _) (by omega)
  | tuple hitems =>
    have hsequence := length_sequence_le hitems
    rw [part, size]
    exact Nat.le_trans (total_nested_le _) (by omega)

/-- The same for a sequence. -/
theorem length_sequence_le {kinds : List Kind} {values : List Value}
    (h : Kind.AdmitsAll kinds values) :
    (Part.sequence (parts values)).length ≤ 96 * sizes values := by
  rw [Part.length_sequence]
  cases h with
  | nil => exact Nat.le_refl _
  | cons hvalue hvalues =>
    have htotal := total_part_le hvalue
    have hsequence := length_sequence_le hvalues
    rw [Part.length_sequence] at hsequence
    simp only [parts, List.map_cons, List.sum_cons, sizes]
    omega

end

end Value

end ProxyUpgrade.Abi
