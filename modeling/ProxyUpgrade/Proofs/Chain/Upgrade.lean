import ProxyUpgrade.Chain.Call
import ProxyUpgrade.Proofs.Abi.Layout
import ProxyUpgrade.Proofs.Chain.Hash
/-!
# Calls that upgrade

The call that points a proxy at an implementation carries both: its target is the proxy, and its
arguments are the implementation and what this is called with. They lie in four pieces
(`Call.addressAndBytes_eq`): a word for the implementation, one for where the data begins, one for
its length, and the data filled up to whole words. None of them is ambiguous, also where the length
does not fit its word: data with the same padding differ in length by less than a word
(`Abi.padRight_inj`). So whoever sees the call knows what it does.
-/

namespace ProxyUpgrade

/-! ### Selector and arguments -/

namespace Abi

theorem length_selector (signature : String) : (selector signature).length = 4 := by
  rw [selector, List.length_take, Keccak.length_hash]
  rfl

/-- The parts of a call are told apart by their lengths. -/
theorem calldata_parts (signature : String) (args : List Value) :
    (calldata signature args).take 4 = selector signature ∧
      (calldata signature args).drop 4 = encode args := by
  rw [calldata, ← length_selector signature]
  exact ⟨List.take_left, List.drop_left⟩

/-! ### Words and padding -/

/-- Words are the same for numbers that are so up to what a word can hold. -/
theorem mod_wordCount_of_word {m n : Nat} (h : word m = word n) :
    m % wordCount = n % wordCount := by
  have hnat := congrArg Bytes.toNat h
  rw [word, word, Bytes.toNat_ofNat_mod, Bytes.toNat_ofNat_mod] at hnat
  exact hnat

theorem word_injective {a b : Address} (h : word a.toNat = word b.toNat) : a = b := by
  have hbound (c : Address) : c.toNat < wordCount := Nat.lt_trans c.toNat_lt (by decide)
  have hnat := mod_wordCount_of_word h
  rw [Nat.mod_eq_of_lt (hbound a), Nat.mod_eq_of_lt (hbound b)] at hnat
  obtain ⟨a⟩ := a
  obtain ⟨b⟩ := b
  exact congrArg Address.mk (BitVec.eq_of_toNat_eq hnat)

/-- **Filled up to whole words, byte strings are told apart by the words of their lengths**,
whatever their lengths are. -/
theorem padRight_inj {bytes bytes' : Bytes} (hlength : word bytes.length = word bytes'.length)
    (hpadded : Bytes.padRight 32 bytes = Bytes.padRight 32 bytes') : bytes = bytes' := by
  have hmod : bytes.length % 2 ^ 256 = bytes'.length % 2 ^ 256 := mod_wordCount_of_word hlength
  have htotal := congrArg List.length hpadded
  simp only [Bytes.padRight, List.length_append, List.length_replicate] at htotal
  exact List.append_inj_left hpadded (by omega)

end Abi

/-! ### Upgrades -/

namespace Call

/-- **How the arguments of an upgrade are laid out.** -/
theorem addressAndBytes_eq (a : Address) (data : Bytes) :
    addressAndBytes a data = Abi.word a.toNat ++ (Abi.word 64 ++
      (Abi.word data.length ++ Bytes.padRight 32 data)) := by
  simp [addressAndBytes, Abi.encode, Abi.Value.parts, Abi.Value.part, Abi.Part.sequence,
    Abi.Part.places, Abi.Part.placesSize, Abi.Part.placeSize, Abi.Part.trailing, Abi.Part.ofBytes,
    Abi.length_word]

/-- **The arguments of an upgrade determine it**, for data of any length. -/
theorem addressAndBytes_inj {a a' : Address} {data data' : Bytes} :
    addressAndBytes a data = addressAndBytes a' data' ↔ a = a' ∧ data = data' := by
  constructor
  · intro h
    have hwords (m n : Nat) : (Abi.word m).length = (Abi.word n).length := by
      rw [Abi.length_word, Abi.length_word]
    rw [addressAndBytes_eq, addressAndBytes_eq] at h
    obtain ⟨haddress, hrest⟩ := List.append_inj h (hwords _ _)
    obtain ⟨hlength, hpadded⟩ := List.append_inj (List.append_cancel_left hrest) (hwords _ _)
    exact ⟨Abi.word_injective haddress, Abi.padRight_inj hlength hpadded⟩
  · rintro ⟨rfl, rfl⟩
    rfl

/-- **The arguments of an upgrade are read back**, if the length of the data fits its word. -/
theorem decode?_addressAndBytes (a : Address) {data : Bytes} (h : data.length < Abi.wordCount) :
    Abi.decode? [.address, .bytes] (addressAndBytes a data) = some [.address a, .bytes data] := by
  have hbound : a.toNat < Abi.wordCount := Nat.lt_trans a.toNat_lt (by decide)
  have hfits : Bits.fits 160 a.toNat = true := decide_eq_true a.word.isLt
  have hback : Address.ofNat a.toNat = a := congrArg Address.mk (BitVec.ofNat_toNat 160 a.word)
  have hlayout : addressAndBytes a data <+: (addressAndBytes a data).drop 0 := List.prefix_rfl
  rw [addressAndBytes_eq a data] at hlayout
  obtain ⟨haddress, hrest⟩ := Abi.prefix_of_append 0 hlayout
  obtain ⟨hplace, hbytes⟩ := Abi.prefix_of_append _ hrest
  rw [← addressAndBytes_eq a data] at haddress hplace hbytes
  simp only [Abi.length_word, Nat.zero_add] at hplace hbytes
  simp [Abi.decode?, Abi.Kind.decodeAll?, Abi.Kind.decode?, Abi.wordAt?_of_prefix hbound haddress,
    Abi.wordAt?_of_prefix (by decide) hplace, Abi.bytesAt?_of_prefix h hbytes, hfits, hback]

/-- **The call of an upgrade tells which proxy gets which implementation.** -/
theorem upgrade_inj {proxy proxy' implementation implementation' : Address}
    {data data' : Bytes}
    (h : upgrade proxy implementation data = upgrade proxy' implementation' data') :
    proxy = proxy' ∧ implementation = implementation' := by
  simp only [upgrade, ofEncoded, Call.mk.injEq, List.append_cancel_left_eq, and_true] at h
  exact ⟨h.1, (addressAndBytes_inj.mp h.2).1⟩

end Call

end ProxyUpgrade
