import Mathlib.Data.List.TakeWhile
import ProxyUpgrade.Proofs.Decimal.Digits
import ProxyUpgrade.Time.Timestamp
/-!
# Points in time are read back

A point in time is read back from its text, down to the nanosecond (`Timestamp.ofText?_text`). The
proof goes through the text from left to right: numbers filled up with zeros
(`Timestamp.number?_padded`), the year with its sign, the fraction with as many digits as it needs.
-/

namespace ProxyUpgrade

namespace Timestamp

/-! ### Digits -/

theorem isDigit_iff {c : Char} : isDigit c = true ↔ 48 ≤ c.toNat ∧ c.toNat ≤ 57 := by
  rw [isDigit, Bool.and_eq_true, decide_eq_true_eq, decide_eq_true_eq, Char.le_def, Char.le_def,
    UInt32.le_iff_toNat_le, UInt32.le_iff_toNat_le]
  rfl

theorem isBlank_of_isDigit {c : Char} (h : isDigit c = true) : Text.isBlank c = false := by
  obtain ⟨hlow, hhigh⟩ := isDigit_iff.mp h
  simp only [Text.isBlank, Bool.or_eq_false_iff, Bool.and_eq_false_iff, decide_eq_false_iff_not]
  omega

theorem skip_digit {c : Char} (h : isDigit c = true) (rest : List Char) :
    skip (c :: rest) = c :: rest := by
  simp [skip, isBlank_of_isDigit h]

theorem toList_padded (width n : Nat) : (padded width n).toList =
    List.replicate (width - (Nat.toDigits 10 n).length) '0' ++ Nat.toDigits 10 n := by
  simp [padded]

theorem isDigit_of_mem_padded {width n : Nat} {c : Char} (h : c ∈ (padded width n).toList) :
    isDigit c = true := by
  rw [toList_padded, List.mem_append] at h
  rcases h with hzero | hdigit
  · rw [List.eq_of_mem_replicate hzero]
    decide
  · exact Decimal.isDigit_of_mem_toDigits hdigit

theorem digitsValue_padded (width n : Nat) : digitsValue (padded width n).toList = n := by
  have hzeros (k : Nat) :
      (List.replicate k '0').foldl (fun acc c => acc * 10 + (c.toNat - 48)) 0 = 0 := by
    induction k with
    | zero => rfl
    | succ k ih => exact ih
  rw [toList_padded, digitsValue, List.foldl_append, hzeros, Decimal.foldl_toDigits]

theorem length_padded {width n : Nat} (hwidth : 0 < width) (h : n < Nat.pow 10 width) :
    (padded width n).toList.length = width := by
  have hlength := (Nat.length_toDigits_le_iff (by decide : 1 < 10) hwidth).mpr h
  simp only [toList_padded, List.length_append, List.length_replicate]
  omega

theorem exists_padded (width n : Nat) :
    ∃ c rest, (padded width n).toList = c :: rest ∧ isDigit c = true := by
  have hne : (padded width n).toList ≠ [] := by
    simp [toList_padded, Nat.toDigits_ne_nil]
  obtain ⟨c, rest, hpadded⟩ := List.exists_cons_of_ne_nil hne
  exact ⟨c, rest, hpadded, isDigit_of_mem_padded (hpadded ▸ List.mem_cons_self)⟩

theorem skip_padded (width n : Nat) (rest : List Char) :
    skip ((padded width n).toList ++ rest) = (padded width n).toList ++ rest := by
  obtain ⟨c, more, hpadded, hc⟩ := exists_padded width n
  rw [hpadded, List.cons_append, skip_digit hc]

/-- The digits before something that does not start with one. -/
theorem takeWhile_padded (width n : Nat) (rest : List Char)
    (hrest : ∀ c ∈ rest.head?, isDigit c = false) :
    ((padded width n).toList ++ rest).takeWhile isDigit = (padded width n).toList ∧
      ((padded width n).toList ++ rest).dropWhile isDigit = rest := by
  have hdigits : ∀ d ∈ (padded width n).toList, isDigit d = true := fun d hd =>
    isDigit_of_mem_padded hd
  rw [List.takeWhile_append_of_pos hdigits, List.dropWhile_append_of_pos hdigits]
  cases rest with
  | nil => simp
  | cons c rest => simp [hrest c (by simp)]

theorem isEmpty_padded (width n : Nat) : (padded width n).toList.isEmpty = false := by
  obtain ⟨c, more, hpadded, -⟩ := exists_padded width n
  rw [hpadded]
  rfl

/-- **A number that fits its width is read back.** -/
theorem number?_padded {width n : Nat} (hwidth : 0 < width) (h : n < Nat.pow 10 width)
    (rest : List Char) : number? width ((padded width n).toList ++ rest) = some (n, rest) := by
  have hdigits : (((padded width n).toList ++ rest).take width).takeWhile isDigit =
      (padded width n).toList := by
    rw [List.take_left' (length_padded hwidth h)]
    simpa using (takeWhile_padded width n [] (by simp)).1
  simp [number?, skip_padded, hdigits, isEmpty_padded, digitsValue_padded]

/-! ### Reading back -/

theorem mark?_cons {mark : Char} (h : Text.isBlank mark = false) (rest : List Char) :
    mark? mark (mark :: rest) = some rest := by
  simp [mark?, skip, h]

/-- **A year is read back**, with its sign if it has one. -/
theorem year?_yearText (year : Int) (rest : List Char) :
    year? ((yearText year).toList ++ '-' :: rest) = some (year, '-' :: rest) := by
  rw [yearText]
  split
  next hrange =>
    have hfits : year.toNat < Nat.pow 10 4 := (Int.toNat_lt hrange.1).mpr (by simp; omega)
    obtain ⟨c, more, hpadded, hc⟩ := exists_padded 4 year.toNat
    have hunsigned : c ≠ '-' ∧ c ≠ '+' := by
      constructor <;> rintro rfl <;> cases hc
    have hread := number?_padded (by decide) hfits ('-' :: rest)
    rw [hpadded, List.cons_append] at hread
    rw [hpadded, List.cons_append, year?, skip_digit hc]
    simp [hunsigned, hread, hrange.1]
  next hrange =>
    obtain ⟨htake, hdrop⟩ := takeWhile_padded 4 year.natAbs ('-' :: rest)
      (by simp [isDigit])
    have hsign (sign : Char) (hblank : Text.isBlank sign = false) :
        skip (sign :: ((padded 4 year.natAbs).toList ++ '-' :: rest)) =
          sign :: ((padded 4 year.natAbs).toList ++ '-' :: rest) := by
      simp [skip, hblank]
    by_cases hneg : year < 0
    · have hyear : -Int.ofNat year.natAbs = year := by
        simp only [Int.ofNat_eq_natCast]
        omega
      have hminus := hsign '-' (by decide)
      have htext : "-".toList = ['-'] := by simp
      rw [if_pos hneg, String.toList_append, List.append_assoc, htext, List.singleton_append, year?,
        hminus]
      simp only [htake, hdrop, isEmpty_padded, digitsValue_padded, hyear]
      rfl
    · have hyear : Int.ofNat year.natAbs = year := by
        simp only [Int.ofNat_eq_natCast]
        omega
      have hplus := hsign '+' (by decide)
      have htext : "+".toList = ['+'] := by simp
      rw [if_neg hneg, String.toList_append, List.append_assoc, htext, List.singleton_append, year?,
        hplus]
      simp only [htake, hdrop, isEmpty_padded, digitsValue_padded]
      exact congrArg (fun year => some (year, '-' :: rest)) hyear

/-- A point and digits, and how many nanoseconds they stand for. -/
theorem fraction?_padded {width n : Nat} (hwidth : 0 < width) (hnine : width ≤ 9)
    (h : n < Nat.pow 10 width) (rest : List Char) :
    fraction? (("." ++ padded width n).toList ++ 'Z' :: rest) =
      some (n * Nat.pow 10 (9 - width), 'Z' :: rest) := by
  obtain ⟨htake, hdrop⟩ := takeWhile_padded width n ('Z' :: rest) (by simp [isDigit])
  have hlength := length_padded hwidth h
  have hused : (padded width n).toList.take 9 = (padded width n).toList :=
    List.take_of_length_le (by omega)
  have htext : ".".toList = ['.'] := by simp
  rw [String.toList_append, List.append_assoc, htext, List.singleton_append]
  simp only [fraction?, htake, hdrop, isEmpty_padded, hused, digitsValue_padded, hlength]
  rfl

/-- **A fraction is read back**, however many digits it needs. -/
theorem fraction?_fractionText {nanosecond : Nat} (h : nanosecond < 1000000000)
    (rest : List Char) :
    fraction? ((fractionText nanosecond).toList ++ 'Z' :: rest) =
      some (nanosecond, 'Z' :: rest) := by
  rw [fractionText]
  split
  next hzero =>
    rw [hzero]
    rfl
  next =>
    split
    next hmilli =>
      have hvalue : nanosecond / 1000000 * Nat.pow 10 (9 - 3) = nanosecond :=
        Nat.div_mul_cancel (Nat.dvd_of_mod_eq_zero hmilli)
      rw [fraction?_padded (by decide) (by decide) (by simp; omega), hvalue]
    next =>
      split
      next hmicro =>
        have hvalue : nanosecond / 1000 * Nat.pow 10 (9 - 6) = nanosecond :=
          Nat.div_mul_cancel (Nat.dvd_of_mod_eq_zero hmicro)
        rw [fraction?_padded (by decide) (by decide) (by simp; omega), hvalue]
      next =>
        rw [fraction?_padded (by decide) (by decide) (by simpa using h)]
        simp

theorem of?_eq (t : Timestamp) : of? t.date t.hour t.minute t.second t.nanosecond = some t :=
  dif_pos t.valid

/-- No time passes. -/
theorem shift_zero (t : Timestamp) : t.shift 0 = some t := by
  have hhour := t.valid.hour
  have hminute := t.valid.minute
  have hnonneg : ¬ Int.ofNat (60 * t.hour + t.minute) + 0 < 0 := by
    simp only [Int.ofNat_eq_natCast]
    omega
  have hday : ¬ (1440 : Int) ≤ Int.ofNat (60 * t.hour + t.minute) + 0 := by
    simp only [Int.ofNat_eq_natCast]
    omega
  have hrest :
      ((Int.ofNat (60 * t.hour + t.minute) + 0) % 1440).toNat = 60 * t.hour + t.minute := by
    simp only [Int.ofNat_eq_natCast]
    omega
  have hdiv : (60 * t.hour + t.minute) / 60 = t.hour := by omega
  have hmod : (60 * t.hour + t.minute) % 60 = t.minute := by omega
  simp only [shift, if_neg hnonneg, if_neg hday, hrest, hdiv, hmod, of?_eq]

theorem toList_text (t : Timestamp) : t.text.toList =
    (yearText t.date.year).toList ++ '-' :: ((padded 2 t.date.month).toList ++
      '-' :: ((padded 2 t.date.day).toList ++ 'T' :: ((padded 2 t.hour).toList ++
        ':' :: ((padded 2 t.minute).toList ++ ':' :: ((padded 2 t.second).toList ++
          ((fractionText t.nanosecond).toList ++ ['Z'])))))) := by
  simp [text]

/-- What is read goes on with what is left. -/
theorem step {α β : Type} {x : Option α} {a : α} {next : α → Option β} {b : β} (h : x = some a)
    (hnext : next a = some b) : x >>= next = some b := by
  rw [h]
  exact hnext

/-- **A point in time is read back from its text.** -/
theorem ofText?_text (t : Timestamp) : ofText? t.text = some t := by
  obtain ⟨-, hmonth, -, hday⟩ := t.date.valid
  obtain ⟨-, hhour, hminute, hsecond, hnanosecond⟩ := t.valid
  have hdays := (Date.daysIn_bounds t.date.year t.date.month).2
  have hnumber (n : Nat) (hn : n < 100) (rest : List Char) :
      number? 2 ((padded 2 n).toList ++ rest) = some (n, rest) :=
    number?_padded (by decide) hn rest
  rw [ofText?, toList_text]
  -- The text is gone through from left to right, as it is read.
  refine step (year?_yearText _ _) (step (mark?_cons (by decide) _) ?_)
  refine step (hnumber t.date.month (by omega) _) (step (mark?_cons (by decide) _) ?_)
  refine step (hnumber t.date.day (by omega) _) (step rfl ?_)
  refine step (hnumber t.hour (by omega) _) (step (mark?_cons (by decide) _) ?_)
  refine step (hnumber t.minute (by omega) _) (step (mark?_cons (by decide) _) ?_)
  refine step (hnumber t.second (by omega) _) (step (fraction?_fractionText hnanosecond _) ?_)
  refine step (a := (0, [])) rfl ((if_pos ⟨rfl, by decide⟩).trans ?_)
  exact step (dif_pos t.date.valid) (step t.of?_eq t.shift_zero)

end Timestamp

end ProxyUpgrade
