import ProxyUpgrade.Abi.Encode
import ProxyUpgrade.Proofs.Abi.Admits
/-!
# What the names of values tell

The signature of a function is made of the arguments that are at hand, and not of the kinds that its
author wrote. Two things are lost on the way. A value whose name depends on the items of an empty
array has no name (`Value.Nameless`). And a tuple of one item is told with a comma after the item,
which is not its canonical name (`Kind.told`). Nothing else is lost: the name of a value only
depends on its kind (`Value.typeName?_cases`), and a signature is the canonical one exactly if there
is no such tuple in the kinds (`toldSignature_eq_iff`).
-/

namespace ProxyUpgrade.Abi

namespace Kind

/-! ### Canonical names -/

theorem name_fixedBytes (size : Nat) : (fixedBytes size).name = "bytes" ++ toString size := by
  rw [Nat.toString_eq_ofList_toDigits]
  simp [name, nameChars, number, ← String.toList_inj]

theorem name_uint (bits : Nat) : (uint bits).name = "uint" ++ toString bits := by
  rw [Nat.toString_eq_ofList_toDigits]
  simp [name, nameChars, number, ← String.toList_inj]

theorem name_int (bits : Nat) : (int bits).name = "int" ++ toString bits := by
  rw [Nat.toString_eq_ofList_toDigits]
  simp [name, nameChars, number, ← String.toList_inj]

theorem name_array (item : Kind) : (array item).name = item.name ++ "[]" := by
  rw [name, nameChars, String.ofList_append]
  rfl

theorem name_fixedArray (item : Kind) (length : Nat) :
    (fixedArray item length).name = item.name ++ "[" ++ toString length ++ "]" := by
  rw [name, nameChars, Nat.toString_eq_ofList_toDigits]
  simp [name, number, ← String.toList_inj]

theorem moreChars_eq (rest : List Kind) (item : Kind) :
    item.nameChars ++ moreChars rest =
      (",".intercalate (item.name :: rest.map name)).toList := by
  induction rest generalizing item with
  | nil => simp [moreChars, name]
  | cons other rest ih =>
    rw [moreChars, List.map_cons, String.intercalate_cons_cons, List.cons_append, ih]
    simp [name]

theorem name_tuple (items : List Kind) :
    (tuple items).name = "(" ++ ",".intercalate (items.map name) ++ ")" := by
  rcases items with - | ⟨item, rest⟩
  · rfl
  · rw [name, nameChars, List.cons_append, List.cons_append, moreChars_eq]
    simp [← String.toList_inj]

/-! ### Names as values tell them -/

mutual

/-- **The name of a kind as its values tell it**: a comma follows the item of a tuple of one. -/
def told : Kind → String
  | array item => item.told ++ "[]"
  | fixedArray item length => item.told ++ "[" ++ toString length ++ "]"
  | tuple items =>
    "(" ++ ",".intercalate (toldAll items) ++ (if items.length = 1 then "," else "") ++ ")"
  | kind => kind.name

/-- The same for several kinds. -/
def toldAll : List Kind → List String
  | [] => []
  | kind :: rest => kind.told :: toldAll rest

end

mutual

/-- How many tuples of one item there are in a kind. -/
def singles : Kind → Nat
  | array item => item.singles
  | fixedArray item _ => item.singles
  | tuple items => singlesAll items + if items.length = 1 then 1 else 0
  | _ => 0

/-- The same for several kinds. -/
def singlesAll : List Kind → Nat
  | [] => 0
  | kind :: rest => kind.singles + singlesAll rest

end

theorem toldAll_eq_map (kinds : List Kind) : toldAll kinds = kinds.map told := by
  induction kinds with
  | nil => rfl
  | cons kind rest ih => rw [toldAll, ih, List.map_cons]

theorem length_intercalate (texts : List String) :
    (",".intercalate texts).length = (texts.map String.length).sum + (texts.length - 1) := by
  rcases texts with - | ⟨text, rest⟩
  · rfl
  · induction rest generalizing text with
    | nil => simp
    | cons other rest ih =>
      rw [String.intercalate_cons_cons, String.length_append, String.length_append, ih other]
      have hcomma : ",".length = 1 := rfl
      simp only [List.map_cons, List.sum_cons, List.length_cons]
      omega

mutual

/-- **Each tuple of one item makes the name longer by a comma.** -/
theorem length_told (kind : Kind) : kind.told.length = kind.name.length + kind.singles := by
  cases kind with
  | array item =>
    rw [told, name_array, singles, String.length_append, String.length_append, length_told item]
    omega
  | fixedArray item length =>
    simp only [told, name_fixedArray, singles, String.length_append, length_told item]
    omega
  | tuple items =>
    have hlengths := sum_length_told items
    simp only [told, name_tuple, singles, String.length_append, length_intercalate, toldAll_eq_map,
      List.length_map]
    split
    · have hcomma : ",".length = 1 := rfl
      omega
    · have hempty : "".length = 0 := rfl
      omega
  | _ => rfl

/-- The same for several kinds. -/
theorem sum_length_told (kinds : List Kind) :
    ((kinds.map told).map String.length).sum =
      ((kinds.map name).map String.length).sum + singlesAll kinds := by
  cases kinds with
  | nil => rfl
  | cons kind rest =>
    have hkind := length_told kind
    have hrest := sum_length_told rest
    simp only [List.map_cons, List.sum_cons, singlesAll]
    omega

end

mutual

/-- Without such a tuple the name is the canonical one. -/
theorem told_eq_name {kind : Kind} (h : kind.singles = 0) : kind.told = kind.name := by
  cases kind with
  | array item =>
    rw [singles] at h
    rw [told, name_array, told_eq_name h]
  | fixedArray item length =>
    rw [singles] at h
    rw [told, name_fixedArray, told_eq_name h]
  | tuple items =>
    rw [singles, Nat.add_eq_zero_iff] at h
    have hmany : ¬ items.length = 1 := by
      intro hone
      simp [hone] at h
    rw [told, name_tuple, toldAll_eq_map, map_told_eq h.1, if_neg hmany, String.append_empty]
  | _ => rfl

/-- The same for several kinds. -/
theorem map_told_eq {kinds : List Kind} (h : singlesAll kinds = 0) :
    kinds.map told = kinds.map name := by
  cases kinds with
  | nil => rfl
  | cons kind rest =>
    rw [singlesAll, Nat.add_eq_zero_iff] at h
    rw [List.map_cons, List.map_cons, told_eq_name h.1, map_told_eq h.2]

end

theorem singlesAll_eq_zero_iff {kinds : List Kind} :
    singlesAll kinds = 0 ↔ ∀ kind ∈ kinds, kind.singles = 0 := by
  induction kinds with
  | nil => simp [singlesAll]
  | cons kind rest ih => rw [singlesAll, Nat.add_eq_zero_iff, ih, List.forall_mem_cons]

end Kind

/-! ### Signatures -/

/-- **The canonical signature** of a function that takes arguments of the given kinds. -/
def canonicalSignature (name : String) (kinds : List Kind) : String :=
  name ++ "(" ++ ",".intercalate (kinds.map Kind.name) ++ ")"

/-- The signature as the arguments tell it. -/
def toldSignature (name : String) (kinds : List Kind) : String :=
  name ++ "(" ++ ",".intercalate (kinds.map Kind.told) ++ ")"

/-- **The signature that is told is the canonical one** exactly if there is no tuple of one item. -/
theorem toldSignature_eq_iff {name : String} {kinds : List Kind} :
    toldSignature name kinds = canonicalSignature name kinds ↔
      ∀ kind ∈ kinds, kind.singles = 0 := by
  rw [← Kind.singlesAll_eq_zero_iff]
  constructor
  · intro heq
    have hlength := congrArg String.length heq
    have hsum := Kind.sum_length_told kinds
    simp only [toldSignature, canonicalSignature, String.length_append, Kind.length_intercalate,
      List.length_map] at hlength
    omega
  · intro hnone
    rw [toldSignature, canonicalSignature, Kind.map_told_eq hnone]

/-! ### Values without a name -/

namespace Value

/-- **The name of a value depends on an empty array**: the value itself, or the first item of an
array, or any item of a tuple. -/
inductive Nameless : Value → Prop
  | empty : Nameless (.array [])
  | array {item : Value} {rest : List Value} (hitem : Nameless item) :
    Nameless (.array (item :: rest))
  | fixedArray {item : Value} {rest : List Value} (hitem : Nameless item) :
    Nameless (.fixedArray (item :: rest))
  | tuple {item : Value} {items : List Value} (hmem : item ∈ items) (hitem : Nameless item) :
    Nameless (.tuple items)

mutual

/-- **A value has the name of its kind**, or none. -/
theorem typeName?_cases {kind : Kind} {value : Value} (h : kind.Admits value) :
    value.Nameless ∧ value.typeName? = none ∨
      ¬ value.Nameless ∧ value.typeName? = some kind.told := by
  cases h with
  | bool | address | function | string | bytes =>
    exact .inr ⟨by rintro ⟨⟩, rfl⟩
  | fixedBytes => exact .inr ⟨by rintro ⟨⟩, congrArg some (Kind.name_fixedBytes _).symm⟩
  | uint => exact .inr ⟨by rintro ⟨⟩, congrArg some (Kind.name_uint _).symm⟩
  | int => exact .inr ⟨by rintro ⟨⟩, congrArg some (Kind.name_int _).symm⟩
  | @array item items hitems =>
    rcases items with - | ⟨first, rest⟩
    · exact .inl ⟨.empty, rfl⟩
    · rcases typeName?_cases (hitems first List.mem_cons_self) with
        ⟨hnameless, hname⟩ | ⟨hnamed, hname⟩
      · exact .inl ⟨.array hnameless, by rw [typeName?, firstName?, hname, Option.map_none]⟩
      · refine .inr ⟨?_, by rw [typeName?, firstName?, hname, Option.map_some, Kind.told]⟩
        rintro (- | hnameless)
        exact hnamed hnameless
  | @fixedArray item items hne hitems =>
    rcases items with - | ⟨first, rest⟩
    · exact absurd rfl hne
    · rcases typeName?_cases (hitems first List.mem_cons_self) with
        ⟨hnameless, hname⟩ | ⟨hnamed, hname⟩
      · exact .inl ⟨.fixedArray hnameless, by rw [typeName?, firstName?, hname, Option.map_none]⟩
      · refine .inr ⟨?_, by rw [typeName?, firstName?, hname, Option.map_some, Kind.told]⟩
        rintro (- | - | hnameless)
        exact hnamed hnameless
  | @tuple kinds items hitems =>
    rcases typeNames?_cases hitems with ⟨⟨item, hmem, hnameless⟩, hnames⟩ | ⟨hnamed, hnames⟩
    · exact .inl ⟨.tuple hmem hnameless, by rw [typeName?, hnames]; rfl⟩
    · refine .inr ⟨?_, ?_⟩
      · rintro (- | - | - | ⟨hmem, hnameless⟩)
        exact hnamed _ hmem hnameless
      · rw [typeName?, hnames, Kind.told, Kind.toldAll_eq_map]
        rcases kinds with - | ⟨kind, - | ⟨other, rest⟩⟩
        · rfl
        · simp [String.append_assoc]
        · simp

/-- The same for the items of a tuple. -/
theorem typeNames?_cases {kinds : List Kind} {values : List Value}
    (h : Kind.AdmitsAll kinds values) :
    (∃ value ∈ values, value.Nameless) ∧ typeNames? values = none ∨
      (∀ value ∈ values, ¬ value.Nameless) ∧ typeNames? values = some (kinds.map Kind.told) := by
  cases h with
  | nil => exact .inr ⟨fun _ hmem => absurd hmem List.not_mem_nil, rfl⟩
  | @cons kind kinds value values hvalue hvalues =>
    rcases typeName?_cases hvalue with ⟨hnameless, hname⟩ | ⟨hnamed, hname⟩
    · exact .inl ⟨⟨value, List.mem_cons_self, hnameless⟩, by rw [typeNames?, hname]; rfl⟩
    rcases typeNames?_cases hvalues with ⟨⟨item, hmem, hnameless⟩, hnames⟩ | ⟨hothers, hnames⟩
    · exact .inl ⟨⟨item, List.mem_cons_of_mem _ hmem, hnameless⟩, by
        rw [typeNames?, hname, hnames]; rfl⟩
    · exact .inr ⟨List.forall_mem_cons.mpr ⟨hnamed, hothers⟩, by
        rw [typeNames?, hname, hnames]; rfl⟩

end

end Value

/-- Arguments are named one after the other, as far as they have names. -/
theorem argumentNames_cases {kinds : List Kind} {values : List Value}
    (h : Kind.AdmitsAll kinds values) :
    (∃ value ∈ values, value.Nameless) ∧
        (∃ reason, argumentNames values = .error (.encoding reason)) ∨
      (∀ value ∈ values, ¬ value.Nameless) ∧ argumentNames values = .ok (kinds.map Kind.told) := by
  induction values generalizing kinds with
  | nil =>
    cases h
    exact .inr ⟨fun _ hmem => absurd hmem List.not_mem_nil, rfl⟩
  | cons value values ih =>
    obtain - | ⟨hvalue, hvalues⟩ := h
    rcases Value.typeName?_cases hvalue with ⟨hnameless, hname⟩ | ⟨hnamed, hname⟩
    · refine .inl ⟨⟨value, List.mem_cons_self, hnameless⟩,
        "argument " ++ value.describe ++ " has no ABI type", ?_⟩
      rw [argumentNames, hname]
    rcases ih hvalues with ⟨⟨other, hmem, hnameless⟩, reason, hnames⟩ | ⟨hothers, hnames⟩
    · refine .inl ⟨⟨other, List.mem_cons_of_mem _ hmem, hnameless⟩, reason, ?_⟩
      rw [argumentNames, hname, hnames]
      rfl
    · refine .inr ⟨List.forall_mem_cons.mpr ⟨hnamed, hothers⟩, ?_⟩
      rw [argumentNames, hname, hnames]
      rfl

/-- **The signature of arguments** can be made unless one of them has no name. -/
theorem signature_cases (name : String) {kinds : List Kind} {values : List Value}
    (h : Kind.AdmitsAll kinds values) :
    (∃ value ∈ values, value.Nameless) ∧
        (∃ reason, signature name values = .error (.encoding reason)) ∨
      (∀ value ∈ values, ¬ value.Nameless) ∧
        signature name values = .ok (toldSignature name kinds) := by
  rcases argumentNames_cases h with ⟨hnameless, reason, hnames⟩ | ⟨hnamed, hnames⟩
  · refine .inl ⟨hnameless, reason, ?_⟩
    rw [signature, hnames]
    rfl
  · refine .inr ⟨hnamed, ?_⟩
    rw [signature, hnames]
    rfl

end ProxyUpgrade.Abi
