import ProxyUpgrade.Proofs.Chain.Hash
import ProxyUpgrade.Wallet.Transaction
/-!
# What a signature binds

The hash that owners sign is made of hashes: of the domain, of the fields of the transaction, and,
among these, of the data. Everything else is laid out in words of 32 bytes, one for each field, so
nothing is lost before it is hashed. Two transactions with one signing hash are therefore the same
transaction for the same wallet on the same chain, or somewhere on the way two different byte
strings have been hashed to the same (`Wallet.Transaction.signingHash_binding`).
-/

namespace ProxyUpgrade.Wallet.Transaction

/-! ### Words -/

theorem word_append_inj {m n : Nat} {rest rest' : Bytes} :
    word m ++ rest = word n ++ rest' ↔ word m = word n ∧ rest = rest' := by
  refine ⟨fun h => List.append_inj h ?_, fun h => by rw [h.1, h.2]⟩
  rw [word, word, Bytes.length_ofNat, Bytes.length_ofNat]

/-- Bits that fit a word are determined by it. -/
theorem word_toNat_inj {width : Nat} (hwidth : width ≤ 256) {a b : BitVec width} :
    word a.toNat = word b.toNat ↔ a = b := by
  have hbound (c : BitVec width) : c.toNat < Nat.pow 256 32 :=
    Nat.lt_of_lt_of_le c.isLt (Nat.pow_le_pow_right (by decide) hwidth)
  rw [word, word, Bytes.ofNat_inj (hbound a) (hbound b), BitVec.toNat_inj]

theorem word_address_inj {a b : Address} : word a.toNat = word b.toNat ↔ a = b := by
  obtain ⟨a⟩ := a
  obtain ⟨b⟩ := b
  rw [Address.toNat, Address.toNat, word_toNat_inj (by decide), Address.mk.injEq]

theorem word_operation_inj {a b : Operation} : word a.number = word b.number ↔ a = b := by
  cases a <;> cases b <;> decide

/-- The bytes of a hash are a word. -/
theorem hash_bytes_inj {a b : Hash} : a.bytes = b.bytes ↔ a = b := by
  obtain ⟨a⟩ := a
  obtain ⟨b⟩ := b
  exact (word_toNat_inj (Nat.le_refl 256)).trans (Iff.symm (by rw [Hash.mk.injEq]))

/-! ### Layouts -/

variable {t t' : Transaction} {chain chain' : BitVec 64} {wallet wallet' : Address}

/-- **The fields are in the layout**, the data by its hash. -/
theorem eq_of_encoded (h : t.encoded = t'.encoded) :
    Hash.keccak t.data = Hash.keccak t'.data ∧ { t with data := t'.data } = t' := by
  have hword (hash : Hash) : hash.bytes = word hash.word.toNat := rfl
  simp only [encoded, hword, List.append_assoc, word_append_inj, word_address_inj,
    word_operation_inj, word_toNat_inj (Nat.le_refl 256), word_toNat_inj (show 64 ≤ 256 by decide)]
    at h
  obtain ⟨-, htarget, hvalue, hdata, hoperation, hsafe, hbase, hprice, htoken, hreceiver, hnonce⟩ :=
    h
  refine ⟨congrArg Hash.mk hdata, ?_⟩
  rw [htarget, hvalue, hoperation, hsafe, hbase, hprice, htoken, hreceiver, hnonce]

theorem eq_of_encodedDomain (h : encodedDomain chain wallet = encodedDomain chain' wallet') :
    chain = chain' ∧ wallet = wallet' := by
  simp only [encodedDomain, List.append_assoc, word_append_inj, word_address_inj,
    word_toNat_inj (show 64 ≤ 256 by decide)] at h
  exact h.2

/-- A digest holds the hashes of the domain and of the fields. -/
theorem hashes_of_digest (h : t.digest chain wallet = t'.digest chain' wallet') :
    Hash.keccak (encodedDomain chain wallet) = Hash.keccak (encodedDomain chain' wallet') ∧
      Hash.keccak t.encoded = Hash.keccak t'.encoded := by
  simp only [digest, List.cons_append, List.cons.injEq, true_and] at h
  obtain ⟨hdomain, hfields⟩ := List.append_inj h (by simp only [Hash.length_bytes])
  exact ⟨hash_bytes_inj.mp hdomain, hash_bytes_inj.mp hfields⟩

theorem length_digest (t : Transaction) (chain : BitVec 64) (wallet : Address) :
    (t.digest chain wallet).length = 66 := by
  simp [digest, Hash.length_bytes]

/-! ### What is bound -/

/-- The byte strings that are hashed on the way to a signing hash: the data, the fields, the domain
and the digest. -/
def hashed (t : Transaction) (chain : BitVec 64) (wallet : Address) : List Bytes :=
  [t.data, t.encoded, encodedDomain chain wallet, t.digest chain wallet]

/-- **A signing hash binds the transaction, the chain and the wallet.** Where it is the same for
others, one of the four byte strings that are hashed collides with its counterpart; the last of
these has 66 bytes. -/
theorem signingHash_binding (t t' : Transaction) (chain chain' : BitVec 64)
    (wallet wallet' : Address) (h : t.signingHash chain wallet = t'.signingHash chain' wallet') :
    ((t.digest chain wallet).length = 66 ∧ (t'.digest chain' wallet').length = 66) ∧
      ((t = t' ∧ chain = chain' ∧ wallet = wallet') ∨
        ∃ pair ∈ (t.hashed chain wallet).zip (t'.hashed chain' wallet'),
          Keccak.Collision pair.1 pair.2) := by
  refine ⟨⟨length_digest _ _ _, length_digest _ _ _⟩, ?_⟩
  -- From the outside in: what is hashed is the same, or it collides.
  rcases Keccak.eq_or_collision h with hdigest | hcollision
  swap
  · exact .inr ⟨(t.digest chain wallet, t'.digest chain' wallet'), by simp [hashed], hcollision⟩
  obtain ⟨hdomain, hfields⟩ := hashes_of_digest hdigest
  rcases Keccak.eq_or_collision hdomain with hdomain | hcollision
  swap
  · exact .inr ⟨(encodedDomain chain wallet, encodedDomain chain' wallet'), by simp [hashed],
      hcollision⟩
  rcases Keccak.eq_or_collision hfields with hfields | hcollision
  swap
  · exact .inr ⟨(t.encoded, t'.encoded), by simp [hashed], hcollision⟩
  obtain ⟨hdata, hsame⟩ := eq_of_encoded hfields
  rcases Keccak.eq_or_collision hdata with hdata | hcollision
  swap
  · exact .inr ⟨(t.data, t'.data), by simp [hashed], hcollision⟩
  rw [← hdata] at hsame
  exact .inl ⟨hsame, eq_of_encodedDomain hdomain⟩

/-! The transaction of a call, and the same transaction field by field. -/

/-- A call. -/
def boundCall : Call := ⟨⟨1⟩, [1, 2, 3, 4], "stub()", 5⟩

/-- Its transaction, field by field. -/
def boundTransaction : Transaction := ⟨⟨1⟩, 5, [1, 2, 3, 4], .call, 0, 0, 0, .zero, .zero, 7⟩

theorem signingHash_binding_call :
    boundTransaction.signingHash 1 ⟨2⟩ = (ofCall boundCall 7).signingHash 1 ⟨2⟩ ∧
      ((boundTransaction.digest 1 ⟨2⟩).length = 66 ∧
        ((ofCall boundCall 7).digest 1 ⟨2⟩).length = 66) ∧
      ((boundTransaction = ofCall boundCall 7 ∧ (1 : BitVec 64) = 1 ∧ (⟨2⟩ : Address) = ⟨2⟩) ∨
        ∃ pair ∈ (boundTransaction.hashed 1 ⟨2⟩).zip ((ofCall boundCall 7).hashed 1 ⟨2⟩),
          Keccak.Collision pair.1 pair.2) :=
  ⟨rfl, signingHash_binding boundTransaction (ofCall boundCall 7) 1 1 ⟨2⟩ ⟨2⟩ rfl⟩

end ProxyUpgrade.Wallet.Transaction
