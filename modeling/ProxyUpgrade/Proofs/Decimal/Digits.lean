import Mathlib.Data.Nat.Digits.Defs
/-!
# Decimal digits

Numbers are written with `Nat.toDigits` and read back digit by digit, from the left. What is needed
of the digits is that they stand for the number, that they are digits, and that the first one is
zero for zero only.
-/

namespace ProxyUpgrade.Decimal

/-- **Digits stand for the number** that they were made from. -/
theorem foldl_toDigits (n : Nat) :
    (Nat.toDigits 10 n).foldl (fun acc c => acc * 10 + (c.toNat - 48)) 0 = n := by
  have hvalue : Nat.ofDigitChars 10 (Nat.toDigits 10 n) 0 = n := Nat.ofDigitChars_ten_toDigits
  simpa [Nat.ofDigitChars, Nat.mul_comm] using hvalue

theorem isDigit_of_mem_toDigits {n : Nat} {c : Char} (h : c ∈ Nat.toDigits 10 n) :
    ('0' ≤ c && c ≤ '9') = true := by
  have hdigit := Nat.isDigit_of_mem_toDigits (by decide) (by decide) h
  simpa [Char.isDigit, Char.le_def] using hdigit

theorem head?_digitChar {n : Nat} (h : n < 10) (hzero : Nat.digitChar n = '0') : n = 0 := by
  have hall : ∀ m ∈ List.range 10, Nat.digitChar m = '0' → m = 0 := by decide
  exact hall n (List.mem_range.mpr h) hzero

/-- **Only zero starts with a zero.** -/
theorem eq_zero_of_head?_toDigits {n : Nat} (h : (Nat.toDigits 10 n).head? = some '0') : n = 0 := by
  induction n using Nat.strong_induction_on with
  | _ n ih =>
    rw [Nat.toDigits_eq_if (by decide)] at h
    split at h
    next hlt => exact head?_digitChar hlt (by simpa using h)
    next hge =>
      obtain ⟨c, rest, hdigits⟩ := List.exists_cons_of_ne_nil (Nat.toDigits_ne_nil (b := 10)
        (n := n / 10))
      rw [hdigits] at h
      have hrest := ih (n / 10) (by omega) (by simpa [hdigits] using h)
      omega

end ProxyUpgrade.Decimal
