import ProxyUpgrade.Bytes.Basic
/-!
# Hexadecimal text

Byte strings are written with two lower-case digits a byte after the mark `0x`. Reading is more
tolerant: the mark may be missing, and mark and digits may have either case, but the number of
digits is even. Main statement: what is written is read back (`Hex.decode?_encode`).
-/

namespace ProxyUpgrade.Hex

/-- The lower-case digit of a value below 16. -/
def digit (n : Nat) : Char :=
  if n < 10 then Char.ofNat (48 + n) else Char.ofNat (87 + n)

/-- The value of a digit of either case. -/
def digitValue? (c : Char) : Option Nat :=
  if '0' ≤ c ∧ c ≤ '9' then some (c.toNat - 48)
  else if 'a' ≤ c ∧ c ≤ 'f' then some (c.toNat - 87)
  else if 'A' ≤ c ∧ c ≤ 'F' then some (c.toNat - 55)
  else none

theorem digitValue?_digit {n : Nat} (h : n < 16) : digitValue? (digit n) = some n := by
  have all : ∀ m ∈ List.range 16, digitValue? (digit m) = some m := by decide
  exact all n (List.mem_range.mpr h)

/-- The digits of a byte string, two for each byte. -/
def digits (bytes : Bytes) : List Char :=
  bytes.flatMap fun b => [digit (b.toNat / 16), digit (b.toNat % 16)]

theorem exists_of_mem_digits {bytes : Bytes} {c : Char} (h : c ∈ digits bytes) :
    ∃ n < 16, c = digit n := by
  obtain ⟨b, -, hc⟩ := List.mem_flatMap.mp h
  have hb : b.toNat < 256 := b.toNat_lt
  simp only [List.mem_cons, List.not_mem_nil, or_false] at hc
  rcases hc with rfl | rfl
  · exact ⟨_, by omega, rfl⟩
  · exact ⟨_, by omega, rfl⟩

/-- The byte string that an even number of digits stands for. -/
def ofDigits? : List Char → Option Bytes
  | [] => some []
  | [_] => none
  | hi :: lo :: rest => do
    let h ← digitValue? hi
    let l ← digitValue? lo
    let bytes ← ofDigits? rest
    pure (UInt8.ofNat (h * 16 + l) :: bytes)

/-- **Digits are read back.** -/
theorem ofDigits?_digits (bytes : Bytes) : ofDigits? (digits bytes) = some bytes := by
  induction bytes with
  | nil => rfl
  | cons b rest ih =>
    have hb : b.toNat < 256 := b.toNat_lt
    have h1 : digitValue? (digit (b.toNat / 16)) = some (b.toNat / 16) :=
      digitValue?_digit (by omega)
    have h2 : digitValue? (digit (b.toNat % 16)) = some (b.toNat % 16) :=
      digitValue?_digit (by omega)
    have h3 : UInt8.ofNat (b.toNat / 16 * 16 + b.toNat % 16) = b := by
      rw [show b.toNat / 16 * 16 + b.toNat % 16 = b.toNat by omega, UInt8.ofNat_toNat]
    have hd : digits (b :: rest) =
        digit (b.toNat / 16) :: digit (b.toNat % 16) :: digits rest := by simp [digits]
    simp only [hd, ofDigits?, h1, h2, ih, Option.bind_eq_bind, Option.bind_some,
      Option.pure_def, h3]

/-- Removes the mark `0x`, if the text starts with it. -/
def dropMark : List Char → List Char
  | '0' :: 'x' :: rest => rest
  | text => text

/-- The text of a byte string, without a mark. -/
def plain (bytes : Bytes) : String := String.ofList (digits bytes)

/-- The text of a byte string, after the mark `0x`. -/
def encode (bytes : Bytes) : String := String.ofList ('0' :: 'x' :: digits bytes)

/-- Removes the mark in either case, if the text starts with it. -/
def dropEitherMark : List Char → List Char
  | '0' :: 'X' :: rest => rest
  | text => dropMark text

/-- Reads a byte string, with or without the mark. -/
def decode? (text : String) : Option Bytes := ofDigits? (dropEitherMark text.toList)

/-- Reads a byte string of exactly `size` bytes. -/
def decodeSized? (size : Nat) (text : String) : Option Bytes :=
  (decode? text).filter (·.length == size)

/-- **What is written is read back.** -/
theorem decode?_encode (bytes : Bytes) : decode? (encode bytes) = some bytes := by
  simp [decode?, encode, dropEitherMark, dropMark, ofDigits?_digits]

end ProxyUpgrade.Hex
