import ProxyUpgrade.Proofs.Abi.Layout
import ProxyUpgrade.Proofs.Bytes.Text
/-!
# Encoded values are read back

Values are read back from their encoding by means of their kinds (`decode?_encode`). The reader
follows the kind, and from each place it finds what the value there contributes, in its place or by
reference. So it is shown of a value in any frame that has what it contributes where it should be
(`Kind.decode?_of_at`), and a whole encoding is such a frame.

The one thing in which kind and value have to agree is what is referenced: the reader sees from the
kind whether there is a reference, the writer from the value (`Kind.isReferenced_part`). They would
not for an array of a fixed length that is empty, but there is no such kind.
-/

namespace ProxyUpgrade.Abi

namespace Kind

/-! ### References -/

/-- Items of one kind are referenced all alike. -/
theorem any_isReferenced_parts {item : Kind} {items : List Value} (hne : items ≠ [])
    (h : ∀ value ∈ items, value.part.isReferenced = item.isDynamic) :
    (Value.parts items).any Part.isReferenced = item.isDynamic := by
  rw [Value.parts_eq_map, List.any_map]
  rcases hdynamic : item.isDynamic with - | -
  · rw [List.any_eq_false]
    intro value hmem
    simp [h value hmem, hdynamic]
  · obtain ⟨value, hmem⟩ := List.exists_mem_of_ne_nil items hne
    rw [List.any_eq_true]
    exact ⟨value, hmem, (h value hmem).trans hdynamic⟩

theorem isReferenced_nested (parts : List Part) :
    (Part.nested parts).isReferenced = parts.any Part.isReferenced := by
  rw [Part.nested]
  split
  next h => exact h.symm
  next h => exact (Bool.not_eq_true _ ▸ h).symm

mutual

/-- **A value is referenced if its kind is dynamic.** -/
theorem isReferenced_part {kind : Kind} {value : Value} (h : kind.Admits value) :
    value.part.isReferenced = kind.isDynamic := by
  cases h with
  | bool | address | function | string | bytes | fixedBytes | uint | int | array => rfl
  | fixedArray hne hitems =>
    rw [Value.part, isReferenced_nested, isDynamic]
    exact any_isReferenced_parts hne fun value hmem => isReferenced_part (hitems value hmem)
  | tuple hitems =>
    rw [Value.part, isReferenced_nested, isDynamic]
    exact any_isReferenced_all hitems

/-- The same for several values. -/
theorem any_isReferenced_all {kinds : List Kind} {values : List Value}
    (h : AdmitsAll kinds values) :
    (Value.parts values).any Part.isReferenced = anyDynamic kinds := by
  cases h with
  | nil => rfl
  | cons hvalue hvalues =>
    rw [Value.parts, List.any_cons, isReferenced_part hvalue, any_isReferenced_all hvalues,
      anyDynamic]

end

/-! ### Numbers -/

theorem toInt_word {n : Int} {bits : Nat} (hle : bits ≤ 256)
    (hfits : Bits.fitsSigned bits n = true) : (BitVec.ofInt 256 n).toInt = n := by
  have hcount : Bits.count (bits - 1) ≤ 2 ^ 255 := Nat.pow_le_pow_right (by decide) (by omega)
  simp only [Bits.fitsSigned, Bool.and_eq_true, decide_eq_true_eq, Int.ofNat_eq_natCast] at hfits
  rw [BitVec.toInt_ofInt]
  exact Int.bmod_eq_of_le_mul_two (by omega) (by omega)

/-- A number in two's complement is read back from its word. -/
theorem signed?_word {n : Int} {bits : Nat} (hle : bits ≤ 256)
    (hfits : Bits.fitsSigned bits n = true) :
    signed? bits (BitVec.ofInt 256 n).toNat = some n := by
  rw [signed?, BitVec.ofNat_toNat, BitVec.setWidth_eq, toInt_word hle hfits]
  simp [hfits]

theorem lt_wordCount_of_fits {n bits : Nat} (hle : bits ≤ 256) (hfits : Bits.fits bits n = true) :
    n < wordCount :=
  Nat.lt_of_lt_of_le (of_decide_eq_true hfits) (Nat.pow_le_pow_right (by decide) hle)

/-! ### Values in their place -/

/-- Bytes that fit a word are read back from one. -/
theorem leading?_of_prefix {frame raw : Bytes} {place : Nat} (hpos : 0 < raw.length)
    (hle : raw.length ≤ 32) (h : Bytes.padRight 32 raw <+: frame.drop place) :
    (slice? frame place 32).bind (leading? raw.length) = some raw := by
  have hslice := slice?_of_prefix h
  rw [length_padRight hpos hle] at hslice
  rw [hslice, Option.bind_some, leading?_padRight]

/-- Others are read back from where the word in their place points to. -/
theorem bytesAt?_of_at {frame raw : Bytes} {place : Nat} (hlength : raw.length < wordCount)
    (h : (Part.ofBytes raw).At frame place) :
    ∃ distance, wordAt? frame place = some distance ∧
      bytesAt? (frame.drop distance) = some raw := by
  obtain ⟨distance, hdistance, hword, hbytes⟩ := h
  exact ⟨distance, wordAt?_of_prefix hdistance hword, bytesAt?_of_prefix hlength hbytes⟩

/-- Items are read back one after the other. -/
theorem repeated_of_allAt (read : Nat → Option (Value × Nat)) {frame : Bytes} {items : List Value}
    (hread : ∀ item ∈ items, ∀ place, item.part.At frame place →
      read place = some (item, place + item.part.placeSize)) {place : Nat}
    (hat : Part.AllAt frame place (Value.parts items)) :
    repeated read items.length place =
      some (items, place + Part.placesSize (Value.parts items)) := by
  induction items generalizing place with
  | nil => rfl
  | cons item rest ih =>
    obtain ⟨hitem, hrest⟩ := List.forall_mem_cons.mp hread
    obtain ⟨hfirst, hothers⟩ := hat
    rw [List.length_cons, repeated, hitem place hfirst]
    simp only [Option.bind_eq_bind, Option.bind_some, ih hrest hothers, Option.pure_def,
      Value.parts, Part.placesSize, Nat.add_assoc]

mutual

/-- **A value is read back** from any frame that has it where it should be. -/
theorem decode?_of_at {kind : Kind} {value : Value} (h : kind.Admits value)
    (hsize : 96 * value.size < wordCount) {frame : Bytes} {place : Nat}
    (hat : value.part.At frame place) :
    kind.decode? frame place = some (value, place + value.part.placeSize) := by
  cases h with
  | bool b =>
    have hword : wordAt? frame place = some b.toNat :=
      wordAt?_of_prefix (Nat.lt_of_le_of_lt b.toNat_le (by decide)) hat
    cases b <;> simp [decode?, hword, Value.part, Part.placeSize, length_word]
  | address a =>
    have hbound : a.toNat < wordCount := Nat.lt_trans a.toNat_lt (by decide)
    have hfits : Bits.fits 160 a.toNat = true := decide_eq_true a.word.isLt
    have hback : Address.ofNat a.toNat = a := congrArg Address.mk (BitVec.ofNat_toNat 160 a.word)
    simp [decode?, wordAt?_of_prefix hbound hat, hfits, hback, Value.part, Part.placeSize,
      length_word]
  | @function raw hlength =>
    have hread := leading?_of_prefix (by omega) (by omega) hat
    rw [hlength] at hread
    simp only [decode?, Option.bind_eq_bind, Value.part, Part.placeSize]
    rw [← Option.bind_assoc, hread, length_padRight (by omega) (by omega)]
    rfl
  | string text =>
    rw [Value.size] at hsize
    obtain ⟨distance, hword, hbytes⟩ := bytesAt?_of_at (by omega) hat
    simp [decode?, hword, hbytes, Bytes.toText?_ofText, Value.part, Part.ofBytes, Part.placeSize]
  | bytes raw =>
    rw [Value.size] at hsize
    obtain ⟨distance, hword, hbytes⟩ := bytesAt?_of_at (by omega) hat
    simp [decode?, hword, hbytes, Value.part, Part.ofBytes, Part.placeSize]
  | @fixedBytes raw hpos hle =>
    have hread := leading?_of_prefix hpos hle hat
    simp only [decode?, Option.bind_eq_bind, Value.part, Part.placeSize]
    rw [← Option.bind_assoc, hread, length_padRight hpos hle]
    rfl
  | uint hle hfits =>
    simp [decode?, wordAt?_of_prefix (lt_wordCount_of_fits hle hfits) hat, hfits, Value.part,
      Part.placeSize, length_word]
  | int hle hfits =>
    have hword := wordAt?_of_prefix (BitVec.isLt _) hat
    simp only [decode?, hword, Option.bind_eq_bind, Option.bind_some, signed?_word hle hfits,
      Value.part, Part.placeSize, length_word]
    rfl
  | @array item items hitems =>
    rw [Value.size] at hsize
    have hcount := Value.length_le_sizes items
    have hlength := Value.length_sequence_le_of_forall fun item hmem =>
      Value.total_part_le (hitems item hmem)
    obtain ⟨distance, hdistance, hword, hbytes⟩ := hat
    obtain ⟨hcounted, hsequence⟩ := prefix_of_append 0 hbytes
    rw [length_word, Nat.zero_add] at hsequence
    have hrepeated := repeated_of_allAt (item.decode? ((frame.drop distance).drop 32))
      (fun value hmem place hat => decode?_of_at (hitems value hmem)
        (by have hle := Value.size_le_sizes hmem; omega) hat)
      (Part.allAt_of_sequence hsequence (by omega))
    simp only [decode?, wordAt?_of_prefix hdistance hword, wordAt?_of_prefix (by omega) hcounted,
      Option.bind_eq_bind, Option.bind_some, hrepeated, Value.part, Part.placeSize]
    rfl
  | @fixedArray item items hne hitems =>
    rw [Value.size] at hsize
    have hlength := Value.length_sequence_le_of_forall fun item hmem =>
      Value.total_part_le (hitems item hmem)
    have hdynamic := any_isReferenced_parts hne fun value hmem =>
      isReferenced_part (hitems value hmem)
    have hread {frame : Bytes} {place : Nat} (hall : Part.AllAt frame place (Value.parts items)) :
        repeated (item.decode? frame) items.length place =
          some (items, place + Part.placesSize (Value.parts items)) :=
      repeated_of_allAt _ (fun value hmem place hat => decode?_of_at (hitems value hmem)
        (by have hle := Value.size_le_sizes hmem; omega) hat) hall
    rw [Value.part] at hat ⊢
    rcases Part.at_nested_cases hat (by omega) with
      ⟨hany, hplace, distance, hword, hall⟩ | ⟨hnone, hplace, hall⟩
    · simp [decode?, ← hdynamic, hany, hword, hread hall, hplace]
    · simp [decode?, ← hdynamic, hnone, hread hall, hplace]
  | @tuple kinds items hitems =>
    rw [Value.size] at hsize
    have hlength := Value.length_sequence_le hitems
    have hdynamic := any_isReferenced_all hitems
    rw [Value.part] at hat ⊢
    rcases Part.at_nested_cases hat (by omega) with
      ⟨hany, hplace, distance, hword, hall⟩ | ⟨hnone, hplace, hall⟩
    · have hread := decodeAll?_of_allAt hitems (by omega) hall
      simp [decode?, ← hdynamic, hany, hword, hread, hplace]
    · have hread := decodeAll?_of_allAt hitems (by omega) hall
      simp [decode?, ← hdynamic, hnone, hread, hplace]

/-- The same for values whose places follow each other. -/
theorem decodeAll?_of_allAt {kinds : List Kind} {values : List Value} (h : AdmitsAll kinds values)
    (hsize : 96 * Value.sizes values < wordCount) {frame : Bytes} {place : Nat}
    (hat : Part.AllAt frame place (Value.parts values)) :
    decodeAll? kinds frame place =
      some (values, place + Part.placesSize (Value.parts values)) := by
  cases h with
  | nil => rfl
  | cons hvalue hvalues =>
    rw [Value.sizes] at hsize
    obtain ⟨hfirst, hrest⟩ := hat
    have hdecoded := decode?_of_at hvalue (by omega) hfirst
    have hothers := decodeAll?_of_allAt hvalues (by omega) hrest
    simp [decodeAll?, hdecoded, hothers, Value.parts, Part.placesSize, Nat.add_assoc]

end

end Kind

/-- **Values are read back from their encoding.** -/
theorem decode?_encode {kinds : List Kind} {values : List Value}
    (h : Kind.AdmitsAll kinds values) (hsize : 96 * Value.sizes values < wordCount) :
    decode? kinds (encode values) = some values := by
  have hlength := Value.length_sequence_le h
  have hat : Part.AllAt (encode values) 0 (Value.parts values) :=
    Part.allAt_of_sequence List.prefix_rfl (by omega)
  rw [decode?, Kind.decodeAll?_of_allAt h hsize hat, Option.map_some]

end ProxyUpgrade.Abi
