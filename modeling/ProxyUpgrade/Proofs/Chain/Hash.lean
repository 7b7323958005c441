import Mathlib.Data.List.Induction
import ProxyUpgrade.Chain.Address
/-!
# Hashes and what they are made of

A number that fits a width is determined by its bytes (`Bytes.ofNat_inj`), a byte string by its
length and its number (`Bytes.ofNat_toNat`). So a hash is determined by the 32 bytes that the sponge
yields (`Hash.bytes_keccak`), and two messages with one hash are the same message or a collision
(`Keccak.eq_or_collision`).
-/

namespace ProxyUpgrade

/-! ### Numbers and bytes -/

namespace Bytes

theorem ofNat_inj {width m n : Nat} (hm : m < Nat.pow 256 width) (hn : n < Nat.pow 256 width) :
    ofNat width m = ofNat width n ↔ m = n := by
  refine ⟨fun h => ?_, fun h => h ▸ rfl⟩
  have hnumber := congrArg toNat h
  rwa [toNat_ofNat hm, toNat_ofNat hn] at hnumber

/-- **A byte string is written again from its number**, if its length is known. -/
theorem ofNat_toNat (bytes : Bytes) : ofNat bytes.length (toNat bytes) = bytes := by
  induction bytes using List.reverseRecOn with
  | nil => rfl
  | append_singleton bytes b ih =>
    have hb : b.toNat < 256 := b.toNat_lt
    have hrest : (toNat bytes * 256 + b.toNat) / 256 = toNat bytes := by omega
    have hlast : UInt8.ofNat (toNat bytes * 256 + b.toNat) = b := by
      rw [← UInt8.toNat_inj, UInt8.toNat_ofNat']
      omega
    rw [List.length_append, List.length_singleton, toNat_append_singleton, ofNat, hrest, ih, hlast]

theorem toNat_lt (bytes : Bytes) : toNat bytes < Nat.pow 256 bytes.length := by
  have h := toNat_ofNat_mod bytes.length (toNat bytes)
  rw [ofNat_toNat] at h
  rw [h]
  exact Nat.mod_lt _ (Nat.pow_pos (by decide))

end Bytes

/-! ### Collisions -/

namespace Keccak

/-- **A collision**: two different messages with the same hash. -/
structure Collision (a b : Bytes) : Prop where
  differ : a ≠ b
  same : hash a = hash b

/-- A hash has 32 bytes. -/
theorem length_hash (message : Bytes) : (hash message).length = 32 := by
  have hlane (w : UInt64) : (laneBytes w).length = 8 := by simp [laneBytes]
  rw [hash, List.length_flatMap]
  simp [hlane, List.map_const']

end Keccak

/-- The bytes of a hash are what the sponge yields. -/
theorem Hash.bytes_keccak (message : Bytes) :
    (Hash.keccak message).bytes = Keccak.hash message := by
  have hlength := Keccak.length_hash message
  have hbound : Bytes.toNat (Keccak.hash message) < 2 ^ 256 := by
    have h := Bytes.toNat_lt (Keccak.hash message)
    rw [hlength] at h
    exact h
  have hnumber : (Hash.keccak message).word.toNat = Bytes.toNat (Keccak.hash message) := by
    simp only [Hash.keccak, Hash.ofBytes, Hash.ofNat, BitVec.toNat_ofNat, Nat.mod_eq_of_lt hbound]
  have hbytes := Bytes.ofNat_toNat (Keccak.hash message)
  rwa [hlength, ← hnumber] at hbytes

theorem Hash.length_bytes (h : Hash) : h.bytes.length = 32 := Bytes.length_ofNat 32 _

/-- **Messages with one hash are the same, or they collide.** -/
theorem Keccak.eq_or_collision {a b : Bytes} (h : Hash.keccak a = Hash.keccak b) :
    a = b ∨ Keccak.Collision a b := by
  by_cases heq : a = b
  · exact .inl heq
  · refine .inr ⟨heq, ?_⟩
    rw [← Hash.bytes_keccak, h, Hash.bytes_keccak]

end ProxyUpgrade
