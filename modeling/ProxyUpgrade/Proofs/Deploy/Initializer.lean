import ProxyUpgrade.Deploy.Artifact
import ProxyUpgrade.Proofs.Abi.Naming
import ProxyUpgrade.Proofs.Abi.Reading
import ProxyUpgrade.Proofs.Abi.RoundTrip
import ProxyUpgrade.Proofs.Chain.Keccak
import ProxyUpgrade.Proofs.Chain.Upgrade
/-!
# What a new proxy is called with

Arguments for the initializer of a proxy are written with their kinds, but only their values are
kept. If no signature is given, it is made of the values, and the call is right if that is the
signature of the kinds they were written with (`Deploy.initializer_told`). An argument that is an
empty array, or that depends on one for its name, is refused. A tuple of one item is not: the
function that is called then is another one, as its name has a comma too many
(`Deploy.single_misnamed`). What follows the selector is right in any case.
-/

namespace ProxyUpgrade.Deploy

open Abi

/-- What a proxy is called with, given the kinds of the arguments. -/
theorem initializerData_cases {kinds : List Kind} {values : List Value}
    (h : Kind.AdmitsAll kinds values) (hne : values ≠ []) :
    (∃ value ∈ values, value.Nameless) ∧
        (∃ reason, initializerData values none = .error (.encoding reason)) ∨
      (∀ value ∈ values, ¬ value.Nameless) ∧
        initializerData values none =
          .ok (calldata (toldSignature "initialize" kinds) values) := by
  have hsome : values.isEmpty = false := List.isEmpty_eq_false_iff.mpr hne
  rcases signature_cases "initialize" h with ⟨hnameless, reason, hsignature⟩ | ⟨hnamed, hsignature⟩
  · refine .inl ⟨hnameless, reason, ?_⟩
    rw [initializerData, hsome, hsignature]
    rfl
  · refine .inr ⟨hnamed, ?_⟩
    rw [initializerData, hsome, hsignature]
    rfl

/-- **What the initializer is called with**, for all arguments that can be read. Without arguments
that is nothing. It cannot be told if and only if an argument has no name. Otherwise the values
follow the selector, as they were written, and the selector is that of their kinds unless there is a
tuple of one item in them: then the signature is not the canonical one. -/
theorem initializer_told {texts : List String} {values : List Value}
    (hread : texts.map Argument.ofText = values.map .ok)
    (hsize : (texts.map String.length).sum < 2 ^ 64) :
    ∃ kinds, texts.map Argument.kind? = kinds.map some ∧
      (texts = [] → initializerData values none = .ok []) ∧
      (∀ e, initializerData values none = .error e → ∃ reason, e = .encoding reason) ∧
      ((∃ e, initializerData values none = .error e) ↔ ∃ value ∈ values, value.Nameless) ∧
      (∀ data, texts ≠ [] → initializerData values none = .ok data →
        data.take 4 = selector (toldSignature "initialize" kinds) ∧
          decode? kinds (data.drop 4) = some values) ∧
      (toldSignature "initialize" kinds = canonicalSignature "initialize" kinds ↔
        ∀ kind ∈ kinds, kind.singles = 0) := by
  obtain ⟨kinds, hkinds, hadmits, hsizes⟩ := Argument.admitsAll_of_ofText hread
  refine ⟨kinds, hkinds, ?_⟩
  have hbound : 96 * Value.sizes values < wordCount := by
    rw [wordCount]
    omega
  have hlength : texts.length = values.length := by simpa using congrArg List.length hread
  rcases values with - | ⟨value, rest⟩
  · obtain rfl : texts = [] := List.length_eq_zero_iff.mp hlength
    refine ⟨fun _ => rfl, ?_, ?_, fun _ h => absurd rfl h, toldSignature_eq_iff⟩
    · rintro e ⟨⟩
    · simp [initializerData]
  · have hne : texts ≠ [] := List.ne_nil_of_length_pos (by rw [hlength, List.length_cons]; omega)
    refine ⟨fun h => absurd h hne, ?_⟩
    rcases initializerData_cases hadmits (List.cons_ne_nil value rest) with
      ⟨hnameless, reason, hdata⟩ | ⟨hnamed, hdata⟩
    · rw [hdata]
      refine ⟨?_, ⟨fun _ => hnameless, fun _ => ⟨_, rfl⟩⟩, ?_, toldSignature_eq_iff⟩
      · rintro e ⟨⟩
        exact ⟨reason, rfl⟩
      · rintro data - ⟨⟩
    · rw [hdata]
      refine ⟨?_, iff_of_false (by simp) ?_, ?_, toldSignature_eq_iff⟩
      · rintro e ⟨⟩
      · rintro ⟨named, hmem, hnameless⟩
        exact hnamed named hmem hnameless
      · rintro data - ⟨⟩
        obtain ⟨hselector, hencoded⟩ := calldata_parts (toldSignature "initialize" kinds)
          (value :: rest)
        refine ⟨hselector, ?_⟩
        rw [hencoded]
        exact decode?_encode hadmits hbound

/-! A number, and a tuple with an array of arrays, of which the first one is not empty. -/

/-- How they are written. -/
def writtenTexts : List String := ["uint:7", "tuple(string,int8[][]):(hi,[[-1],[]])"]

/-- The kinds they are written with. -/
def writtenKinds : List Kind := [.uint 256, .tuple [.string, .array (.array (.int 8))]]

/-- What is read of them. -/
def writtenValues : List Value :=
  [.uint 7 256, .tuple [.string "hi", .array [.array [.int (-1) 8], .array []]]]

theorem initializer_told_nested :
    writtenTexts.map Argument.ofText = writtenValues.map .ok ∧
    (writtenTexts.map String.length).sum < 2 ^ 64 ∧
    ∃ data, initializerData writtenValues none = .ok data ∧
      data.take 4 = selector (canonicalSignature "initialize" writtenKinds) ∧
      decode? writtenKinds (data.drop 4) = some writtenValues := by
  have hread : writtenTexts.map Argument.ofText = writtenValues.map .ok := rfl
  have hsize : (writtenTexts.map String.length).sum < 2 ^ 64 := by decide
  obtain ⟨kinds, hkinds, -, -, -, hdata, hcanonical⟩ := initializer_told hread hsize
  have hwritten : writtenTexts.map Argument.kind? = writtenKinds.map some := rfl
  obtain rfl : writtenKinds = kinds :=
    (List.map_inj_right fun _ _ h => Option.some.inj h).mp (hwritten.symm.trans hkinds)
  have hcalled : initializerData writtenValues none =
      .ok (calldata "initialize(uint256,(string,int8[][]))" writtenValues) := rfl
  obtain ⟨hselector, hdecoded⟩ := hdata _ (List.cons_ne_nil _ _) hcalled
  have hnone : ∀ kind ∈ writtenKinds, kind.singles = 0 := by decide
  rw [hcanonical.mpr hnone] at hselector
  exact ⟨hread, hsize, _, hcalled, hselector, hdecoded⟩

/-! A tuple of one item. -/

theorem selector_single_told : selector "initialize((uint256,))" = [0xc8, 0x63, 0x2d, 0x51] := by
  rw [selector, Keccak.hash_eq_hashRows]
  decide +kernel

theorem selector_single_canonical :
    selector "initialize((uint256))" = [0x47, 0xe2, 0x5d, 0x93] := by
  rw [selector, Keccak.hash_eq_hashRows]
  decide +kernel

/-- **A tuple of one item is not called by its name.** -/
theorem single_misnamed : ∃ value data, Argument.ofText "(uint256):(1)" = .ok value ∧
    Argument.kind? "(uint256):(1)" = some (.tuple [.uint 256]) ∧
      initializerData [value] none = .ok data ∧
        data.take 4 ≠ selector (canonicalSignature "initialize" [.tuple [.uint 256]]) := by
  refine ⟨.tuple [.uint 1 256], calldata "initialize((uint256,))" [.tuple [.uint 1 256]], rfl, rfl,
    rfl, ?_⟩
  have hcanonical : canonicalSignature "initialize" [.tuple [.uint 256]] =
      "initialize((uint256))" := rfl
  rw [(calldata_parts _ _).1, hcanonical, selector_single_told, selector_single_canonical]
  decide

end ProxyUpgrade.Deploy
