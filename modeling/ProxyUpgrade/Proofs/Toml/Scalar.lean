import ProxyUpgrade.Proofs.Decimal.Digits
import ProxyUpgrade.Proofs.Toml.Quoted
import ProxyUpgrade.Toml.Parser
import ProxyUpgrade.Toml.Printer
/-!
# Values of TOML are read back

A truth value, an integer or a string, written at the end of a line, is read back, and no more than
it is (`value?_scalarChars`). Digits are not taken for a date, since what follows them is the end of
the line.
-/

namespace ProxyUpgrade.Toml

variable {c : Char} {text rest : List Char}

/-! ### Digits -/

theorem digits_append (h : ∀ c ∈ text, isDigit c = true) (rest : List Char) :
    digits isDigit (text ++ '\n' :: rest) = (text, '\n' :: rest) := by
  induction text with
  | nil =>
    rw [List.nil_append, digits]
    · rfl
    · simp
  | cons c text ih =>
    have hc : isDigit c = true := h c List.mem_cons_self
    have hne : c ≠ '_' := by
      rintro rfl
      cases hc
    rw [List.cons_append, digits, if_pos hc, ih fun c hc => h c (List.mem_cons_of_mem _ hc)]
    · simp [hne]

theorem digits?_append (h : ∀ c ∈ text, isDigit c = true) (hne : text ≠ []) (rest : List Char) :
    digits? isDigit (text ++ '\n' :: rest) = some (text, '\n' :: rest) := by
  obtain ⟨c, more, rfl⟩ := List.exists_cons_of_ne_nil hne
  rw [List.cons_append, digits?, if_pos (h c List.mem_cons_self),
    digits_append fun c hc => h c (List.mem_cons_of_mem _ hc)]

theorem foldl_value (text : List Char) (h : ∀ c ∈ text, isDigit c = true) (n : Nat) :
    text.foldl (fun acc c => acc * 10 +
      (if isDigit c then c.toNat - 48 else if 'a' ≤ c then c.toNat - 87 else c.toNat - 55)) n =
    text.foldl (fun acc c => acc * 10 + (c.toNat - 48)) n := by
  induction text generalizing n with
  | nil => rfl
  | cons c text ih =>
    rw [List.foldl_cons, List.foldl_cons, if_pos (h c List.mem_cons_self),
      ih fun c hc => h c (List.mem_cons_of_mem _ hc)]

theorem value_toDigits (n : Nat) : value 10 (Nat.toDigits 10 n) = n := by
  rw [value, foldl_value _ fun _ => Decimal.isDigit_of_mem_toDigits, Decimal.foldl_toDigits]

/-! ### Integers -/

theorem unsigned?_toDigits (negative : Bool) (n : Nat)
    (h : Bits.fitsSigned 64 (if negative then -Int.ofNat n else Int.ofNat n) = true)
    (rest : List Char) :
    unsigned? negative (Nat.toDigits 10 n ++ '\n' :: rest) =
      some (.integer (if negative then -Int.ofNat n else Int.ofNat n), '\n' :: rest) := by
  have hdigits : digits? isDigit (Nat.toDigits 10 n ++ '\n' :: rest) =
      some (Nat.toDigits 10 n, '\n' :: rest) :=
    digits?_append (fun _ => Decimal.isDigit_of_mem_toDigits) Nat.toDigits_ne_nil rest
  have hshort : ¬ ((Nat.toDigits 10 n).head? = some '0' ∧ 1 < (Nat.toDigits 10 n).length) := by
    rintro ⟨hzero, hlength⟩
    rw [Decimal.eq_zero_of_head?_toDigits hzero, Nat.toDigits_zero] at hlength
    exact absurd hlength (by decide)
  simp only [unsigned?, hdigits, Option.bind_eq_bind, Option.bind_some, if_neg hshort, fraction?,
    exponent?, value_toDigits, integer?, h, if_true]
  rfl

/-- What follows digits is seen before a date would have ended. -/
theorem head?_of_startsMoment (h : startsMoment text = true) :
    (text.dropWhile isDigit).head? = some ':' ∨ (text.dropWhile isDigit).head? = some '-' := by
  rw [startsMoment.eq_def] at h
  split at h
  · simp only [Bool.and_eq_true] at h
    exact .inl (by simp [List.dropWhile, h.1, h.2, show isDigit ':' = false from rfl])
  · simp only [List.all_cons, List.all_nil, Bool.and_eq_true, Bool.and_true] at h
    exact .inr (by simp [List.dropWhile, h, show isDigit '-' = false from rfl])
  · cases h

theorem isDigit_of_startsMoment (h : startsMoment (c :: rest) = true) : isDigit c = true := by
  rw [startsMoment.eq_def] at h
  split at h
  next heq =>
    cases heq
    simp only [Bool.and_eq_true] at h
    exact h.1
  next heq =>
    cases heq
    simp only [List.all_cons, Bool.and_eq_true] at h
    exact h.1
  next => cases h

theorem signed?_digit (hc : isDigit c = true) (negative : Bool) (rest : List Char) :
    signed? negative (c :: rest) = unsigned? negative (c :: rest) := by
  rw [signed?.eq_def]
  split
  next heq => cases heq; cases hc
  next heq => cases heq; cases hc
  next => rfl

/-- What starts with a digit has no sign, and no base unless a letter follows. -/
theorem number?_digit {d : Char} (hc : isDigit c = true) (hd : isDigit d = true ∨ d = '\n')
    (rest : List Char) : number? (c :: d :: rest) = unsigned? false (c :: d :: rest) := by
  rw [number?.eq_def]
  split
  next heq => cases heq; cases hc
  next heq => cases heq; cases hc
  next heq => cases heq; simp [isDigit] at hd
  next heq => cases heq; simp [isDigit] at hd
  next heq => cases heq; simp [isDigit] at hd
  next => exact signed?_digit hc false (d :: rest)

/-- What a number starts with: a digit, and another one or the end of the line. -/
theorem exists_toDigits (n : Nat) (rest : List Char) :
    ∃ c d tail, Nat.toDigits 10 n ++ '\n' :: rest = c :: d :: tail ∧ isDigit c = true ∧
      (isDigit d = true ∨ d = '\n') := by
  have hdigits : ∀ c ∈ Nat.toDigits 10 n, isDigit c = true :=
    fun _ => Decimal.isDigit_of_mem_toDigits
  have hne : Nat.toDigits 10 n ≠ [] := Nat.toDigits_ne_nil
  match hmatch : Nat.toDigits 10 n with
  | [] => exact absurd hmatch hne
  | [c] => exact ⟨c, '\n', rest, rfl, hdigits c (by simp [hmatch]), .inr rfl⟩
  | c :: d :: more =>
    exact ⟨c, d, _, rfl, hdigits c (by simp [hmatch]), .inl (hdigits d (by simp [hmatch]))⟩

/-- **An integer is read back.** -/
theorem number?_integerChars {n : Int} (h : Bits.fitsSigned 64 n = true) (rest : List Char) :
    number? (Json.integerChars n ++ '\n' :: rest) = some (.integer n, '\n' :: rest) := by
  obtain ⟨c, d, tail, heq, hc, hd⟩ := exists_toDigits n.natAbs rest
  rw [Json.integerChars]
  split
  next hneg =>
    have hvalue : -Int.ofNat n.natAbs = n := by
      simp only [Int.ofNat_eq_natCast]
      omega
    have hread := unsigned?_toDigits true n.natAbs (by rwa [if_pos rfl, hvalue]) rest
    rw [if_pos rfl, hvalue, heq] at hread
    rw [List.cons_append, heq]
    exact (signed?_digit hc true (d :: tail)).trans hread
  next hpos =>
    have hvalue : Int.ofNat n.natAbs = n := by
      simp only [Int.ofNat_eq_natCast]
      omega
    have hread := unsigned?_toDigits false n.natAbs
      (by rwa [if_neg Bool.false_ne_true, hvalue]) rest
    rw [if_neg Bool.false_ne_true, hvalue, heq] at hread
    rw [heq]
    exact (number?_digit hc hd tail).trans hread

/-! ### Values -/

/-- What starts like a number and not like a date is read as a number. -/
theorem value?_number (hc : isDigit c = true ∨ c = '-')
    (hmoment : startsMoment (c :: rest) = false) (depth : Nat) :
    value? (depth + 1) (c :: rest) = number? (c :: rest) := by
  have hscalar : scalar? (c :: rest) = number? (c :: rest) := by
    rw [scalar?.eq_def]
    split
    next heq => cases heq; simp [isDigit] at hc
    next heq => cases heq; simp [isDigit] at hc
    next => rw [if_neg (by simp [hmoment])]
  have hquote : ¬ (c = '"' ∨ c = apostrophe) := by
    rintro (rfl | rfl) <;> simp [isDigit, apostrophe] at hc
  rw [value?, if_neg hquote, hscalar]
  · rintro rfl
    simp [isDigit] at hc
  · rintro rfl
    simp [isDigit] at hc

/-- An integer is no date. -/
theorem startsMoment_integerChars (n : Int) (rest : List Char) :
    startsMoment (Json.integerChars n ++ '\n' :: rest) = false := by
  rw [Json.integerChars, Bool.eq_false_iff]
  intro h
  split at h
  next => cases isDigit_of_startsMoment h
  next =>
    have hdigits : ∀ c ∈ Nat.toDigits 10 n.natAbs, isDigit c = true :=
      fun _ => Decimal.isDigit_of_mem_toDigits
    have hend := head?_of_startsMoment h
    rw [List.dropWhile_append_of_pos hdigits] at hend
    simp [List.dropWhile, show isDigit '\n' = false from rfl] at hend

theorem exists_integerChars (n : Int) :
    ∃ c more, Json.integerChars n = c :: more ∧ (isDigit c = true ∨ c = '-') := by
  rw [Json.integerChars]
  split
  next => exact ⟨'-', _, rfl, .inr rfl⟩
  next =>
    obtain ⟨c, more, hdigits⟩ := List.exists_cons_of_ne_nil
      (Nat.toDigits_ne_nil (b := 10) (n := n.natAbs))
    exact ⟨c, more, hdigits, .inl (Decimal.isDigit_of_mem_toDigits (hdigits ▸ List.mem_cons_self))⟩

theorem exists_quote (text : List Char) :
    ∃ mark more, quote text = mark :: more ∧ (mark = '"' ∨ mark = apostrophe) := by
  rw [quote]
  split
  · split
    · exact ⟨_, _, rfl, .inr rfl⟩
    · split
      · exact ⟨_, _, rfl, .inr rfl⟩
      · exact ⟨_, _, rfl, .inr rfl⟩
  · split
    · exact ⟨_, _, rfl, .inl rfl⟩
    · exact ⟨_, _, rfl, .inl rfl⟩

/-- A value does not start with a blank. -/
theorem exists_scalarChars {json : Json} (h : scalarChars? json = some text) :
    ∃ c more, text = c :: more ∧ isWhite c = false := by
  rw [scalarChars?.eq_def] at h
  split at h
  next => exact ⟨_, _, (Option.some.inj h).symm, rfl⟩
  next => exact ⟨_, _, (Option.some.inj h).symm, rfl⟩
  next n =>
    rw [Option.ite_none_right_eq_some, Option.some.injEq] at h
    obtain ⟨c, more, heq, hc⟩ := exists_integerChars n
    refine ⟨c, more, h.2.symm.trans heq, Bool.eq_false_iff.mpr fun hwhite => ?_⟩
    simp only [isWhite, Bool.or_eq_true, decide_eq_true_eq] at hwhite
    rcases hwhite with rfl | rfl <;> simp [isDigit] at hc
  next string =>
    obtain ⟨mark, more, heq, rfl | rfl⟩ := exists_quote string.toList
    · exact ⟨_, more, (Option.some.inj h).symm.trans heq, rfl⟩
    · exact ⟨_, more, (Option.some.inj h).symm.trans heq, rfl⟩
  next => cases h

/-- **A value is read back** at the end of a line. -/
theorem value?_scalarChars {json : Json} (h : scalarChars? json = some text) (depth : Nat)
    (rest : List Char) : value? (depth + 1) (text ++ '\n' :: rest) = some (json, '\n' :: rest) := by
  rw [scalarChars?.eq_def] at h
  split at h
  next =>
    cases h
    rfl
  next =>
    cases h
    rfl
  next n =>
    rw [Option.ite_none_right_eq_some, Option.some.injEq] at h
    obtain ⟨hfits, rfl⟩ := h
    obtain ⟨c, more, heq, hc⟩ := exists_integerChars n
    have hmoment := startsMoment_integerChars n rest
    rw [← number?_integerChars hfits rest]
    rw [heq, List.cons_append] at hmoment ⊢
    exact value?_number hc hmoment depth
  next string =>
    cases h
    have hread := string?_quote string.toList rest
    obtain ⟨mark, more, heq, hmark⟩ := exists_quote string.toList
    rw [heq, List.cons_append] at hread ⊢
    rw [value?, if_pos hmark, hread]
    · simp
    · rintro rfl
      simp [apostrophe] at hmark
    · rintro rfl
      simp [apostrophe] at hmark
  next => cases h

end ProxyUpgrade.Toml
