import Mathlib.Algebra.GroupWithZero.Nat
import ProxyUpgrade.Abi.Argument
/-!
# Values of a kind

A value carries its structure and no kind, so that a value may be of several kinds: an empty array
is of every kind of arrays. `Kind.Admits` says which values a kind has. Its numbers have to be
within their bounds, as they are in every kind that has a name (`Kind.Sound`).

The size of a value counts what has to be encoded of it: items, and bytes.
-/

namespace ProxyUpgrade.Abi

namespace Kind

/-! ### Sound kinds -/

mutual

/-- The numbers in a kind are within their bounds. -/
inductive Sound : Kind → Prop
  | bool : Sound .bool
  | address : Sound .address
  | function : Sound .function
  | string : Sound .string
  | bytes : Sound .bytes
  | fixedBytes {size : Nat} (hpos : 0 < size) (hle : size ≤ 32) : Sound (.fixedBytes size)
  | uint {bits : Nat} (hle : bits ≤ 256) : Sound (.uint bits)
  | int {bits : Nat} (hle : bits ≤ 256) : Sound (.int bits)
  | array {item : Kind} (hitem : Sound item) : Sound (.array item)
  | fixedArray {item : Kind} {length : Nat} (hpos : 0 < length) (hitem : Sound item) :
    Sound (.fixedArray item length)
  | tuple {items : List Kind} (hitems : AllSound items) : Sound (.tuple items)

/-- The same for several kinds. -/
inductive AllSound : List Kind → Prop
  | nil : AllSound []
  | cons {kind : Kind} {rest : List Kind} (hkind : Sound kind) (hrest : AllSound rest) :
    AllSound (kind :: rest)

end

theorem allSound_iff {kinds : List Kind} : AllSound kinds ↔ ∀ kind ∈ kinds, kind.Sound := by
  induction kinds with
  | nil => simp [AllSound.nil]
  | cons kind rest ih =>
    rw [List.forall_mem_cons, ← ih]
    constructor
    · rintro (- | ⟨hkind, hrest⟩)
      exact ⟨hkind, hrest⟩
    · rintro ⟨hkind, hrest⟩
      exact .cons hkind hrest

/-! ### Values of a kind -/

mutual

/-- **A value is of a kind.** -/
inductive Admits : Kind → Value → Prop
  | bool (b : Bool) : Admits .bool (.bool b)
  | address (a : Address) : Admits .address (.address a)
  | function {raw : Bytes} (hlength : raw.length = 24) : Admits .function (.function raw)
  | string (text : String) : Admits .string (.string text)
  | bytes (raw : Bytes) : Admits .bytes (.bytes raw)
  | fixedBytes {raw : Bytes} (hpos : 0 < raw.length) (hle : raw.length ≤ 32) :
    Admits (.fixedBytes raw.length) (.fixedBytes raw)
  | uint {n bits : Nat} (hle : bits ≤ 256) (hfits : Bits.fits bits n = true) :
    Admits (.uint bits) (.uint n bits)
  | int {n : Int} {bits : Nat} (hle : bits ≤ 256) (hfits : Bits.fitsSigned bits n = true) :
    Admits (.int bits) (.int n bits)
  | array {item : Kind} {items : List Value} (hitems : ∀ value ∈ items, Admits item value) :
    Admits (.array item) (.array items)
  | fixedArray {item : Kind} {items : List Value} (hne : items ≠ [])
      (hitems : ∀ value ∈ items, Admits item value) :
    Admits (.fixedArray item items.length) (.fixedArray items)
  | tuple {kinds : List Kind} {items : List Value} (hitems : AdmitsAll kinds items) :
    Admits (.tuple kinds) (.tuple items)

/-- **Values are of a kind each.** -/
inductive AdmitsAll : List Kind → List Value → Prop
  | nil : AdmitsAll [] []
  | cons {kind : Kind} {kinds : List Kind} {value : Value} {values : List Value}
      (hvalue : Admits kind value) (hvalues : AdmitsAll kinds values) :
    AdmitsAll (kind :: kinds) (value :: values)

end

end Kind

/-! ### Sizes -/

namespace Value

mutual

/-- How much there is to encode of a value. -/
def size : Value → Nat
  | string text => 1 + (Bytes.ofText text).length
  | bytes raw => 1 + raw.length
  | array items | fixedArray items | tuple items => 1 + sizes items
  | _ => 1

/-- The same for several values. -/
def sizes : List Value → Nat
  | [] => 0
  | value :: rest => value.size + sizes rest

end

theorem sizes_eq_sum (values : List Value) : sizes values = (values.map size).sum := by
  induction values with
  | nil => rfl
  | cons value rest ih => simp [sizes, ih]

theorem size_pos (value : Value) : 0 < value.size := by
  cases value <;> simp only [size] <;> omega

theorem length_le_sizes (values : List Value) : values.length ≤ sizes values := by
  induction values with
  | nil => exact Nat.zero_le _
  | cons value rest ih =>
    have hpos := value.size_pos
    simp only [List.length_cons, sizes]
    omega

theorem size_le_sizes {value : Value} {values : List Value} (h : value ∈ values) :
    value.size ≤ sizes values := by
  induction values with
  | nil => cases h
  | cons first rest ih =>
    rw [sizes]
    rcases List.mem_cons.mp h with rfl | h
    · omega
    · have hrest := ih h
      omega

end Value

end ProxyUpgrade.Abi
