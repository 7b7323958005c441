import ProxyUpgrade.Proofs.Chain.Hash
/-!
# Addresses in messages

In a message, the case of each letter of an address is a bit of the hash of its digits. Whoever
reads the address does not look at the case, so the checksum changes nothing about what is read
(`Address.ofHex?_checksum`).
-/

namespace ProxyUpgrade

namespace Hex

theorem length_digits (bytes : Bytes) : (digits bytes).length = 2 * bytes.length := by
  simp [digits, List.length_flatMap, List.map_const', Nat.mul_comm]

/-- A digit has the same value in upper case. -/
theorem digitValue?_toUpper {bytes : Bytes} {c : Char} (h : c ∈ digits bytes) :
    digitValue? c.toUpper = digitValue? c := by
  have hall : ∀ n ∈ List.range 16, digitValue? (digit n).toUpper = digitValue? (digit n) := by
    decide
  obtain ⟨n, hn, rfl⟩ := exists_of_mem_digits h
  exact hall n (List.mem_range.mpr hn)

/-- What digits stand for is up to their values. -/
theorem ofDigits?_congr {text text' : List Char}
    (h : text.map digitValue? = text'.map digitValue?) : ofDigits? text = ofDigits? text' := by
  -- The induction takes two digits at a time, as the reader does.
  induction text using ofDigits?.induct generalizing text' with
  | case1 =>
    obtain rfl : text' = [] := by simpa using h.symm
    rfl
  | case2 c =>
    obtain ⟨c', rfl⟩ : ∃ c', text' = [c'] := by
      rw [← List.length_eq_one_iff, ← List.length_map digitValue?, ← h]
      rfl
    rfl
  | case3 high low rest ih =>
    rcases text' with - | ⟨high', - | ⟨low', rest'⟩⟩
    · simp at h
    · simp at h
    · simp only [List.map_cons, List.cons.injEq] at h
      obtain ⟨hhigh, hlow, hrest⟩ := h
      rw [ofDigits?, ofDigits?, hhigh, hlow, ih hrest]

/-- Digits in any case are read back, whatever marks the case of each. -/
theorem decode?_cased (bytes : Bytes) {marks : List Char}
    (h : (digits bytes).length ≤ marks.length) :
    decode? (String.ofList ('0' :: 'x' :: ((digits bytes).zip marks).map fun (c, mark) =>
      if mark < '8' then c else c.toUpper)) = some bytes := by
  have hvalues : (((digits bytes).zip marks).map fun (c, mark) =>
      if mark < '8' then c else c.toUpper).map digitValue? = (digits bytes).map digitValue? := by
    conv_rhs => rw [← List.map_fst_zip h]
    rw [List.map_map, List.map_map]
    refine List.map_congr_left fun ⟨c, mark⟩ hmem => ?_
    dsimp only [Function.comp_apply]
    split
    · rfl
    · exact digitValue?_toUpper (List.of_mem_zip hmem).1
  rw [decode?, String.toList_ofList]
  exact (ofDigits?_congr hvalues).trans (ofDigits?_digits bytes)

/-- Text in capitals is read as well. -/
theorem decode?_toUpper (bytes : Bytes) :
    decode? (String.ofList ('0' :: 'X' :: (digits bytes).map Char.toUpper)) = some bytes := by
  have hvalues : ((digits bytes).map Char.toUpper).map digitValue? =
      (digits bytes).map digitValue? := by
    rw [List.map_map]
    exact List.map_congr_left fun c hmem => digitValue?_toUpper hmem
  rw [decode?, String.toList_ofList]
  exact (ofDigits?_congr hvalues).trans (ofDigits?_digits bytes)

end Hex

/-- **The checksum is not read.** -/
theorem Address.ofHex?_checksum (a : Address) : ofHex? a.checksum = some a := by
  have hlength : (Hex.digits a.bytes).length ≤ (Hex.digits (Keccak.hash
      ((Hex.digits a.bytes).map fun c => UInt8.ofNat c.toNat))).length := by
    rw [Hex.length_digits, Hex.length_digits, Keccak.length_hash, bytes, Bytes.length_ofNat]
    decide
  have hdecoded : Hex.decode? a.checksum = some a.bytes := Hex.decode?_cased a.bytes hlength
  have hsize : a.bytes.length = 20 := Bytes.length_ofNat 20 _
  simp [ofHex?, Hex.decodeSized?, hdecoded, Option.filter, hsize, ofBytes_bytes]

end ProxyUpgrade
