import Mathlib.Data.List.TakeDrop
import ProxyUpgrade.Proofs.Abi.Admits
import ProxyUpgrade.Proofs.Bytes.Text
/-!
# What is read of arguments

What is read as the name of a kind is a sound kind (`Kind.sound_of_ofText?`), and what is read as a
value of a sound kind is of that kind (`Value.admits_of_ofText?`). Nothing is made up while reading:
each item and each byte of a value was written with a character of its own, or with a fourth of one,
so that a text of moderate length is no value of an enormous size. That is not said of numbers,
which are bounded by their kind.
-/

namespace ProxyUpgrade.Abi

/-! ### Readers -/

/-- A reader leaves no more than it was given. -/
def Forward {α : Type} (read : Reader α) : Prop :=
  ∀ text value rest, read text = some (value, rest) → rest.length ≤ text.length

theorem length_dropWhile_le (p : Char → Bool) (text : List Char) :
    (text.dropWhile p).length ≤ text.length :=
  (List.dropWhile_suffix p).length_le

theorem length_skipBlanks_le (text : List Char) : (skipBlanks text).length ≤ text.length :=
  length_dropWhile_le _ text

/-- A character that is expected is taken. -/
theorem length_of_expect? {c : Char} {text rest : List Char} (h : expect? c text = some rest) :
    rest.length + 1 = text.length := by
  rcases text with - | ⟨d, text⟩
  · cases h
  · rw [expect?] at h
    split at h
    · cases h
      rfl
    · cases h

namespace Sequence

variable {α : Type} {item : Reader α}

theorem mem_of_more {fuel : Nat} {text : List Char} {value : α}
    (h : value ∈ (more item fuel text).1) : ∃ text rest, item text = some (value, rest) := by
  induction fuel generalizing text with
  | zero => simp [more] at h
  | succ fuel ih =>
    rw [more.eq_def] at h
    split at h
    next fuel' text' hfuel =>
      obtain rfl : fuel = fuel' := Nat.succ.inj hfuel
      split at h
      next first rest hfirst =>
        rcases List.mem_cons.mp h with rfl | h
        · exact ⟨_, _, hfirst⟩
        · exact ih h
      next => cases h
    next => cases h

/-- **All items of a sequence are read as items are.** -/
theorem mem_of_read? {opening closing : Char} {text rest : List Char} {values : List α}
    (h : read? opening closing item text = some (values, rest)) {value : α}
    (hmem : value ∈ values) : ∃ text rest, item text = some (value, rest) := by
  simp only [read?, Option.bind_eq_bind, Option.bind_eq_some_iff] at h
  obtain ⟨opened, -, h⟩ := h
  split at h
  next =>
    cases h
    cases hmem
  next =>
    simp only [Option.bind_eq_some_iff] at h
    obtain ⟨⟨first, after⟩, hfirst, rest', -, h⟩ := h
    cases h
    rcases List.mem_cons.mp hmem with rfl | hmem
    · exact ⟨_, _, hfirst⟩
    · exact mem_of_more hmem

theorem length_of_finish? {closing : Char} {text rest : List Char}
    (h : finish? closing text = some rest) : rest.length + 1 ≤ text.length := by
  rw [finish?.eq_def] at h
  split at h
  next text' =>
    have hlength := length_of_expect? h
    have hblanks := length_skipBlanks_le text'
    simp only [List.length_cons]
    omega
  next =>
    have hlength := length_of_expect? h
    have hblanks := length_skipBlanks_le text
    omega

section Sizes

variable {size : α → Nat} (hitem : ∀ text value rest, item text = some (value, rest) →
  size value + 4 * rest.length ≤ 4 * text.length + 1)
include hitem

/-- Each further item is paid for by its comma. -/
theorem sum_size_more (fuel : Nat) (text : List Char) :
    ((more item fuel text).1.map size).sum + 4 * (more item fuel text).2.length ≤
      4 * text.length := by
  induction fuel generalizing text with
  | zero => simp [more]
  | succ fuel ih =>
    rw [more.eq_def]
    split
    next fuel' text' hfuel =>
      obtain rfl : fuel = fuel' := Nat.succ.inj hfuel
      split
      next value rest hvalue =>
        have hsize := hitem _ _ _ hvalue
        have hsizes := ih rest
        have hblanks := length_skipBlanks_le text'
        simp only [List.map_cons, List.sum_cons, List.length_cons]
        omega
      next => simp
    next => simp

/-- **Brackets and commas pay for the items of a sequence.** -/
theorem sum_size_of_read? {opening closing : Char} {text rest : List Char} {values : List α}
    (h : read? opening closing item text = some (values, rest)) :
    (values.map size).sum + 4 * rest.length ≤ 4 * text.length := by
  simp only [read?, Option.bind_eq_bind, Option.bind_eq_some_iff] at h
  obtain ⟨opened, hopened, h⟩ := h
  have hopening := length_of_expect? hopened
  have hblanks := length_skipBlanks_le opened
  split at h
  next rest' hclosed =>
    cases h
    have hclosing := length_of_expect? hclosed
    simp only [List.map_nil, List.sum_nil]
    omega
  next =>
    simp only [Option.bind_eq_some_iff] at h
    obtain ⟨⟨value, after⟩, hvalue, rest', hfinish, h⟩ := h
    cases h
    have hsize := hitem _ _ _ hvalue
    have hsizes := sum_size_more hitem after.length after
    have hfinished : rest.length + 1 ≤ (more item after.length after).2.length :=
      length_of_finish? hfinish
    simp only [List.map_cons, List.sum_cons]
    omega

end Sizes

end Sequence

/-! ### Names of kinds -/

namespace Kind

theorem sound_of_elementary? {name : List Char} {kind : Kind} (h : elementary? name = some kind) :
    kind.Sound := by
  have hwidth {digits : List Char} {bits : Nat} (hbits : width? digits = some bits) :
      bits ≤ 256 := by
    obtain ⟨-, hbounds⟩ := Option.filter_eq_some_iff.mp hbits
    simp only [Bool.and_eq_true, decide_eq_true_eq] at hbounds
    exact hbounds.1.2
  rw [elementary?.eq_def] at h
  split at h
  case h_8 =>
    obtain ⟨size, hsize, rfl⟩ := Option.map_eq_some_iff.mp h
    obtain ⟨-, hbounds⟩ := Option.filter_eq_some_iff.mp hsize
    simp only [Bool.and_eq_true, decide_eq_true_eq] at hbounds
    exact .fixedBytes hbounds.1 hbounds.2
  case h_9 =>
    obtain ⟨bits, hbits, rfl⟩ := Option.map_eq_some_iff.mp h
    exact .uint (hwidth hbits)
  case h_10 =>
    obtain ⟨bits, hbits, rfl⟩ := Option.map_eq_some_iff.mp h
    exact .int (hwidth hbits)
  all_goals cases h
  · exact .bool
  · exact .address
  · exact .function
  · exact .string
  · exact .bytes
  · exact .uint (Nat.le_refl _)
  · exact .int (Nat.le_refl _)

theorem sound_of_root? {text rest : List Char} {kind : Kind}
    (h : root? text = some (kind, rest)) : kind.Sound := by
  simp only [root?, Option.bind_eq_bind, Option.bind_eq_some_iff] at h
  obtain ⟨⟨name, after⟩, -, h⟩ := h
  split at h
  next =>
    -- What a qualified name stands for has eight bits.
    split at h <;> cases h <;> exact .uint (by decide)
  next =>
    simp only [Option.bind_eq_some_iff] at h
    obtain ⟨kind', hkind, h⟩ := h
    cases h
    exact sound_of_elementary? hkind

theorem sound_arrays {kind : Kind} (hkind : kind.Sound) (fuel : Nat) (text : List Char) :
    (arrays kind fuel text).1.Sound := by
  induction fuel generalizing kind text with
  | zero => exact hkind
  | succ fuel ih =>
    rw [arrays.eq_def]
    dsimp only
    split
    next => exact ih (.array hkind) _
    next =>
      split
      next =>
        split
        next hbounds => exact ih (.fixedArray hbounds.1 hkind) _
        next => exact hkind
      next => exact hkind
    next => exact hkind

theorem sound_of_read? {fuel : Nat} {text rest : List Char} {kind : Kind}
    (h : read? fuel text = some (kind, rest)) : kind.Sound := by
  induction fuel generalizing text rest kind with
  | zero => cases h
  | succ fuel ih =>
    rw [read?] at h
    split at h
    next =>
      simp only [Option.bind_eq_bind, Option.bind_eq_some_iff] at h
      obtain ⟨⟨items, after⟩, hitems, root, hroot, h⟩ := h
      cases hroot
      have hkind : (arrays (tuple items) after.length after).1 = kind :=
        congrArg Prod.fst (Option.some.inj h)
      rw [← hkind]
      refine sound_arrays (.tuple (allSound_iff.mpr fun item hmem => ?_)) _ _
      obtain ⟨text', rest', hitem⟩ := Sequence.mem_of_read? hitems hmem
      exact ih hitem
    next =>
      simp only [Option.bind_eq_bind, Option.bind_eq_some_iff] at h
      obtain ⟨⟨root, after⟩, hroot, h⟩ := h
      have hkind : (arrays root after.length after).1 = kind :=
        congrArg Prod.fst (Option.some.inj h)
      rw [← hkind]
      exact sound_arrays (sound_of_root? hroot) _ _

/-- **What is read as the name of a kind is a sound kind.** -/
theorem sound_of_ofText? {text : List Char} {kind : Kind} (h : ofText? text = some kind) :
    kind.Sound := by
  rw [ofText?] at h
  split at h
  next hread =>
    cases h
    exact sound_of_read? hread
  next => cases h

/-- Short names are written out, and a name that is not built in stands for a small number. -/
example : (ofText? "tuple(uint,Mode.Kind)[2]".toList).map name = some "(uint256,uint8)[2]" := rfl

end Kind

namespace Value

/-! ### Numbers -/

theorem forward_digits? : Forward digits? := by
  intro text digits rest h
  rw [digits?] at h
  split at h
  · cases h
  · cases h
    exact length_dropWhile_le _ text

theorem forward_basedNumber? (base : Nat) : Forward (basedNumber? base) := by
  intro text n rest h
  rw [basedNumber?] at h
  split at h
  · cases h
  · simp only [Option.bind_eq_bind, Option.bind_eq_some_iff] at h
    obtain ⟨digits, -, fitting, -, h⟩ := h
    cases h
    exact length_dropWhile_le _ text

theorem forward_decimal : Forward whole?.decimal := by
  intro text n rest h
  simp only [whole?.decimal, Option.bind_eq_bind, Option.bind_eq_some_iff] at h
  obtain ⟨⟨digits, after⟩, hdigits, fitting, -, h⟩ := h
  cases h
  exact forward_digits? _ _ _ hdigits

theorem forward_whole? : Forward whole? := by
  intro text n rest h
  rw [whole?.eq_def] at h
  split at h
  next mark after =>
    have hbased {base : Nat} (h : basedNumber? base after = some (n, rest)) :
        rest.length ≤ ('0' :: mark :: after).length := by
      have hlength := forward_basedNumber? base _ _ _ h
      simp only [List.length_cons]
      omega
    split at h
    · exact hbased h
    split at h
    · exact hbased h
    split at h
    · exact hbased h
    · exact forward_decimal _ _ _ h
  next => exact forward_decimal _ _ _ h

theorem forward_fraction? : Forward fraction? := by
  intro text digits rest h
  rw [fraction?.eq_def] at h
  split at h
  next after =>
    have hlength := forward_digits? _ _ _ h
    simp only [List.length_cons]
    omega
  next =>
    cases h
    exact Nat.le_refl _

/-- A sign is passed over. -/
theorem length_unsigned_le {text rest : List Char} {negative : Bool}
    (h : (match text with
      | '-' :: rest => (true, rest)
      | '+' :: rest => (false, rest)
      | rest => (false, rest)) = (negative, rest)) : rest.length ≤ text.length := by
  split at h
  · cases h
    exact Nat.le_succ _
  · cases h
    exact Nat.le_succ _
  · cases h
    exact Nat.le_refl _

theorem forward_exponentDigits? : Forward exponentDigits? := by
  intro text n rest h
  rw [exponentDigits?.eq_def] at h
  split at h
  next negative unsigned hsign =>
    have hunsigned := length_unsigned_le hsign
    dsimp only at h
    split at h
    next after =>
      obtain ⟨zero, -, hzero⟩ := Option.map_eq_some_iff.mp h
      cases hzero
      rw [List.length_cons] at hunsigned
      omega
    next =>
      simp only [Option.bind_eq_bind, Option.bind_eq_some_iff] at h
      obtain ⟨⟨digits, after⟩, hdigits, m, -, signed, -, h⟩ := h
      cases h
      have hlength := forward_digits? _ _ _ hdigits
      dsimp only
      omega

theorem length_exponent_le (text : List Char) : (exponent text).2.length ≤ text.length := by
  rcases text with - | ⟨c, text⟩
  · exact Nat.le_refl _
  · rw [exponent]
    split
    · rcases hdigits : exponentDigits? text with - | ⟨n, rest⟩
      · exact Nat.le_refl _
      · have hlength := forward_exponentDigits? _ _ _ hdigits
        simp only [Option.getD_some, List.length_cons]
        omega
    · exact Nat.le_refl _

theorem length_unit_le (text : List Char) : (unit text).2.length ≤ text.length := by
  have hblanks := length_skipBlanks_le text
  rw [unit]
  split
  · dsimp only
    rw [List.length_drop]
    omega
  · exact hblanks

/-- What is read as a number of so many bits fits them. -/
theorem fits_of_readUint? {bits n : Nat} {text rest : List Char}
    (h : readUint? bits text = some (n, rest)) :
    Bits.fits bits n = true ∧ rest.length ≤ text.length := by
  simp only [readUint?, Option.bind_eq_bind, Option.bind_eq_some_iff] at h
  obtain ⟨⟨whole, afterWhole⟩, hwhole, ⟨digits, afterFraction⟩, hfraction, n', -, h⟩ := h
  dsimp only at h hfraction
  have hwholeLength := forward_whole? _ _ _ hwhole
  have hfractionLength := forward_fraction? _ _ _ hfraction
  have hexponentLength := length_exponent_le afterFraction
  have hunitLength := length_unit_le (exponent afterFraction).2
  split at h
  next hfits =>
    cases h
    exact ⟨hfits, by omega⟩
  next => cases h

theorem fits_of_readInt? {bits : Nat} {n : Int} {text rest : List Char}
    (h : readInt? bits text = some (n, rest)) :
    Bits.fitsSigned bits n = true ∧ rest.length ≤ text.length := by
  rw [readInt?.eq_def] at h
  split at h
  next negative unsigned hsign =>
    have hunsigned := length_unsigned_le hsign
    simp only [Option.bind_eq_bind, Option.bind_eq_some_iff] at h
    obtain ⟨⟨m, after⟩, hread, h⟩ := h
    have hlength := (fits_of_readUint? hread).2
    dsimp only at h
    generalize (if negative = true then -Int.ofNat m else Int.ofNat m) = signed at h
    split at h
    next hfits =>
      cases h
      exact ⟨hfits, by omega⟩
    next => cases h

/-! ### Byte strings and texts -/

/-- Each byte takes two digits. -/
theorem length_of_ofDigits? {digits : List Char} {raw : Bytes}
    (h : Hex.ofDigits? digits = some raw) : 2 * raw.length = digits.length := by
  induction digits using Hex.ofDigits?.induct generalizing raw with
  | case1 =>
    cases h
    rfl
  | case2 => cases h
  | case3 high low digits ih =>
    simp only [Hex.ofDigits?, Option.bind_eq_bind, Option.bind_eq_some_iff] at h
    obtain ⟨m, -, n, -, raw', hraw, h⟩ := h
    cases h
    have hlength := ih hraw
    simp only [List.length_cons]
    omega

theorem length_dropMark_le (text : List Char) : (Hex.dropMark text).length ≤ text.length := by
  rw [Hex.dropMark.eq_def]
  split
  · simp only [List.length_cons]
    omega
  · exact Nat.le_refl _

theorem length_of_readBytes? {text rest : List Char} {raw : Bytes}
    (h : readBytes? text = some (raw, rest)) : raw.length + rest.length ≤ text.length := by
  simp only [readBytes?, Option.bind_eq_bind, Option.bind_eq_some_iff] at h
  obtain ⟨raw', hraw, h⟩ := h
  cases h
  have hdigits := length_of_ofDigits? hraw
  have hmark := length_dropMark_le text
  have hsplit := congrArg List.length
    (List.takeWhile_append_dropWhile (p := isHexDigit) (l := Hex.dropMark text))
  rw [List.length_append] at hsplit
  omega

theorem length_of_readSized? {size : Nat} {text rest : List Char} {raw : Bytes}
    (h : readSized? size text = some (raw, rest)) :
    raw.length = size ∧ raw.length + rest.length ≤ text.length := by
  simp only [readSized?, Option.bind_eq_bind, Option.bind_eq_some_iff] at h
  obtain ⟨⟨raw', after⟩, hraw, h⟩ := h
  dsimp only at h
  split at h
  next hsize =>
    cases h
    exact ⟨hsize, length_of_readBytes? hraw⟩
  next => cases h

theorem length_of_readAnyBytes? {text rest : List Char} {raw : Bytes}
    (h : readAnyBytes? text = some (raw, rest)) : raw.length + rest.length ≤ text.length := by
  simp only [readAnyBytes?, Option.bind_eq_bind, Option.bind_eq_some_iff] at h
  obtain ⟨⟨raw', after⟩, hraw, h⟩ := h
  dsimp only at h
  split at h
  next => cases h
  next =>
    cases h
    exact length_of_readBytes? hraw

theorem forward_readBool? : Forward readBool? := by
  intro text b rest h
  rw [readBool?] at h
  split at h
  · cases h
    exact length_dropWhile_le _ text
  · cases h
    exact length_dropWhile_le _ text
  · cases h

/-- A character takes four bytes at most. -/
theorem length_ofText_le (text : List Char) :
    (Bytes.ofText (String.ofList text)).length ≤ 4 * text.length := by
  rw [Bytes.ofText_eq_flatMap, String.toList_ofList]
  induction text with
  | nil => exact Nat.le_refl _
  | cons c text ih =>
    have hc := c.utf8Size_le_four
    rw [List.flatMap_cons, List.length_append, String.length_utf8EncodeChar, List.length_cons]
    omega

theorem length_trimEnd_le (text : List Char) : (Text.trimEnd text).length ≤ text.length := by
  have hlength := length_dropWhile_le Text.isBlank text.reverse
  rw [List.length_reverse] at hlength
  rwa [Text.trimEnd, List.length_reverse]

/-- A text is no longer than what was written for it. -/
theorem length_of_readText? {closing : Option Char} {text rest : List Char} {s : String}
    (h : readText? closing text = some (s, rest)) :
    (Bytes.ofText s).length + 4 * rest.length ≤ 4 * text.length := by
  have hwhile (p : Char → Bool) (text : List Char) :
      (text.takeWhile p).length + (text.dropWhile p).length = text.length := by
    rw [← List.length_append, List.takeWhile_append_dropWhile]
  have htrimmed (inner : List Char) :
      (Bytes.ofText (String.ofList (Text.trimEnd inner))).length ≤ 4 * inner.length :=
    Nat.le_trans (length_ofText_le _) (Nat.mul_le_mul_left 4 (length_trimEnd_le inner))
  rw [readText?.eq_def] at h
  split at h
  · cases h
    simpa using length_ofText_le []
  next c text =>
    split at h
    · -- A text in quotes.
      simp only [Option.bind_eq_bind, Option.bind_eq_some_iff] at h
      obtain ⟨after, hafter, h⟩ := h
      cases h
      have hquoted := length_ofText_le (text.takeWhile (· != c))
      have hclosing := length_of_expect? hafter
      have hsplit := hwhile (· != c) text
      simp only [List.length_cons]
      omega
    · split at h
      · cases h
        simpa using htrimmed (c :: text)
      next closing =>
        dsimp only at h
        split at h
        · cases h
        · cases h
          have hinner := htrimmed ((c :: text).takeWhile fun d => d != ',' && d != closing)
          have hsplit := hwhile (fun d => d != ',' && d != closing) (c :: text)
          omega

/-! ### Values -/

mutual

/-- **What is read as a value of a sound kind is of that kind**, and its text has paid for it. -/
theorem admits_of_read? {closing : Option Char} {kind : Kind} (hkind : kind.Sound)
    {text rest : List Char} {value : Value} (h : read? closing kind text = some (value, rest)) :
    kind.Admits value ∧ value.size + 4 * rest.length ≤ 4 * text.length + 1 := by
  cases hkind with
  | bool =>
    simp only [read?, Option.map_eq_some_iff] at h
    obtain ⟨⟨b, after⟩, hread, h⟩ := h
    cases h
    have hlength := forward_readBool? _ _ _ hread
    exact ⟨.bool b, by simp only [size]; omega⟩
  | address =>
    simp only [read?, Option.map_eq_some_iff] at h
    obtain ⟨⟨raw, after⟩, hread, h⟩ := h
    cases h
    have hlength := length_of_readSized? hread
    exact ⟨.address _, by simp only [size]; omega⟩
  | function =>
    simp only [read?, Option.map_eq_some_iff] at h
    obtain ⟨⟨raw, after⟩, hread, h⟩ := h
    cases h
    have hlength := length_of_readSized? hread
    exact ⟨.function hlength.1, by simp only [size]; omega⟩
  | string =>
    simp only [read?, Option.map_eq_some_iff] at h
    obtain ⟨⟨s, after⟩, hread, h⟩ := h
    cases h
    have hlength := length_of_readText? hread
    exact ⟨.string s, by simp only [size]; omega⟩
  | bytes =>
    simp only [read?, Option.map_eq_some_iff] at h
    obtain ⟨⟨raw, after⟩, hread, h⟩ := h
    cases h
    have hlength := length_of_readAnyBytes? hread
    exact ⟨.bytes raw, by simp only [size]; omega⟩
  | fixedBytes hpos hle =>
    simp only [read?, Option.map_eq_some_iff] at h
    obtain ⟨⟨raw, after⟩, hread, h⟩ := h
    cases h
    obtain ⟨rfl, hlength⟩ := length_of_readSized? hread
    exact ⟨.fixedBytes hpos hle, by simp only [size]; omega⟩
  | uint hle =>
    simp only [read?, Option.map_eq_some_iff] at h
    obtain ⟨⟨n, after⟩, hread, h⟩ := h
    cases h
    have hfits := fits_of_readUint? hread
    exact ⟨.uint hle hfits.1, by simp only [size]; omega⟩
  | int hle =>
    simp only [read?, Option.map_eq_some_iff] at h
    obtain ⟨⟨n, after⟩, hread, h⟩ := h
    cases h
    have hfits := fits_of_readInt? hread
    exact ⟨.int hle hfits.1, by simp only [size]; omega⟩
  | array hitem =>
    simp only [read?, Option.map_eq_some_iff] at h
    obtain ⟨⟨items, after⟩, hread, h⟩ := h
    cases h
    have hsizes := Sequence.sum_size_of_read?
      (fun _ _ _ h => (admits_of_read? hitem h).2) hread
    refine ⟨.array fun value hmem => ?_, ?_⟩
    · obtain ⟨text', rest', hvalue⟩ := Sequence.mem_of_read? hread hmem
      exact (admits_of_read? hitem hvalue).1
    · rw [size, sizes_eq_sum]
      dsimp only
      omega
  | fixedArray hpos hitem =>
    simp only [read?, Option.bind_eq_bind, Option.bind_eq_some_iff] at h
    obtain ⟨⟨items, after⟩, hread, h⟩ := h
    dsimp only at h
    split at h
    next hlength =>
      cases h
      have hsizes := Sequence.sum_size_of_read?
        (fun _ _ _ h => (admits_of_read? hitem h).2) hread
      refine ⟨?_, ?_⟩
      · rw [← hlength]
        refine .fixedArray (List.ne_nil_of_length_pos (hlength ▸ hpos)) fun value hmem => ?_
        obtain ⟨text', rest', hvalue⟩ := Sequence.mem_of_read? hread hmem
        exact (admits_of_read? hitem hvalue).1
      · rw [size, sizes_eq_sum]
        omega
    next => cases h
  | tuple hitems =>
    simp only [read?, Option.bind_eq_bind, Option.bind_eq_some_iff] at h
    obtain ⟨opened, hopened, ⟨items, after⟩, hread, rest', hclosed, h⟩ := h
    cases h
    dsimp only at hclosed
    have hopening := length_of_expect? hopened
    have hclosing := length_of_expect? hclosed
    have hblanks := length_skipBlanks_le text
    have hblanks' := length_skipBlanks_le after
    obtain ⟨hadmits, hsizes⟩ := admitsAll_of_readItems? hitems hread
    refine ⟨.tuple hadmits, ?_⟩
    rw [Bool.toNat_true] at hsizes
    simp only [size]
    omega

/-- The same for the items of a tuple, of which all but the first are paid for by a comma. -/
theorem admitsAll_of_readItems? {first : Bool} {kinds : List Kind} (hkinds : Kind.AllSound kinds)
    {text rest : List Char} {values : List Value}
    (h : readItems? first kinds text = some (values, rest)) :
    Kind.AdmitsAll kinds values ∧
      sizes values + 4 * rest.length ≤ 4 * text.length + first.toNat := by
  cases hkinds with
  | nil =>
    cases h
    exact ⟨.nil, by simp only [sizes]; omega⟩
  | cons hkind hrest =>
    have hblanks := length_skipBlanks_le text
    rw [readItems?] at h
    rcases first with - | -
    · simp only [Bool.false_eq_true, if_false, Option.bind_eq_bind, Option.bind_eq_some_iff] at h
      obtain ⟨begun, hbegun, ⟨value, after⟩, hvalue, ⟨values', after'⟩, hvalues, h⟩ := h
      cases h
      have hcomma := length_of_expect? hbegun
      have hblanks' := length_skipBlanks_le begun
      obtain ⟨hadmits, hsize⟩ := admits_of_read? hkind hvalue
      obtain ⟨hadmitsAll, hsizes⟩ := admitsAll_of_readItems? hrest hvalues
      refine ⟨.cons hadmits hadmitsAll, ?_⟩
      simp only [sizes, Bool.toNat_false] at hsizes ⊢
      omega
    · simp only [if_true, Option.bind_eq_bind, Option.bind_some, Option.bind_eq_some_iff] at h
      obtain ⟨⟨value, after⟩, hvalue, ⟨values', after'⟩, hvalues, h⟩ := h
      cases h
      obtain ⟨hadmits, hsize⟩ := admits_of_read? hkind hvalue
      obtain ⟨hadmitsAll, hsizes⟩ := admitsAll_of_readItems? hrest hvalues
      refine ⟨.cons hadmits hadmitsAll, ?_⟩
      simp only [sizes, Bool.toNat_false, Bool.toNat_true] at hsizes ⊢
      omega

end

theorem admits_of_ofText? {kind : Kind} (hkind : kind.Sound) {text : List Char} {value : Value}
    (h : ofText? kind text = some value) :
    kind.Admits value ∧ value.size ≤ 4 * text.length + 1 := by
  rw [ofText?] at h
  split at h
  next hread =>
    cases h
    simpa using admits_of_read? hkind hread
  next => cases h

end Value

/-! ### Arguments -/

namespace Argument

/-- The kind that an argument is written with. -/
def kind? (text : String) : Option Kind := Kind.ofText? (text.toList.takeWhile (· != ':'))

theorem admits_of_ofText {text : String} {value : Value} (h : ofText text = .ok value) :
    ∃ kind, kind? text = some kind ∧ kind.Admits value ∧ value.size ≤ 4 * text.length := by
  rw [ofText] at h
  split at h
  next name rest hsplit =>
    rw [List.span_eq_takeWhile_dropWhile, Prod.mk.injEq] at hsplit
    obtain ⟨rfl, hrest⟩ := hsplit
    have hlength := length_dropWhile_le (· != ':') text.toList
    rw [hrest, String.length_toList, List.length_cons] at hlength
    rcases hkind : Kind.ofText? (text.toList.takeWhile (· != ':')) with - | kind
    · simp [hkind] at h
    rcases hvalue : Value.ofText? kind rest with - | value'
    · simp [hkind, hvalue] at h
    · obtain rfl : value' = value := by simpa [hkind, hvalue] using h
      obtain ⟨hadmits, hsize⟩ := Value.admits_of_ofText? (Kind.sound_of_ofText? hkind) hvalue
      exact ⟨kind, hkind, hadmits, by omega⟩
  next => cases h

/-- **Arguments that are read are of the kinds they are written with**, and no larger than they are
written. -/
theorem admitsAll_of_ofText {texts : List String} {values : List Value}
    (h : texts.map ofText = values.map .ok) :
    ∃ kinds, texts.map kind? = kinds.map some ∧ Kind.AdmitsAll kinds values ∧
      Value.sizes values ≤ 4 * (texts.map String.length).sum := by
  induction texts generalizing values with
  | nil =>
    obtain rfl : values = [] := by simpa using h.symm
    exact ⟨[], rfl, .nil, Nat.le_refl _⟩
  | cons text texts ih =>
    rcases values with - | ⟨value, values⟩
    · cases h
    · obtain ⟨htext, htexts⟩ := List.cons.inj h
      obtain ⟨kind, hkind, hadmits, hsize⟩ := admits_of_ofText htext
      obtain ⟨kinds, hkinds, hadmitsAll, hsizes⟩ := ih htexts
      refine ⟨kind :: kinds, ?_, .cons hadmits hadmitsAll, ?_⟩
      · rw [List.map_cons, List.map_cons, hkind, hkinds]
      · simp only [Value.sizes, List.map_cons, List.sum_cons]
        omega

end Argument

end ProxyUpgrade.Abi
