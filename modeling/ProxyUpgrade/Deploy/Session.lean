import ProxyUpgrade.Deploy.Record
/-!
# Sessions

A session collects the records of several calls, one for each proxy: a later record of a proxy takes
the place of an earlier one. Records are kept in the order of their proxies' addresses. Sessions are
merged as if the records of the second had been inserted into the first.
-/

namespace ProxyUpgrade

/-- Records of different proxies, in the order of the proxies' addresses. -/
@[ext] structure Session where
  records : List Record
  /-- The order leaves no proxy with two records. -/
  ordered : records.Pairwise fun record next => record.proxy.toNat < next.proxy.toNat
  deriving DecidableEq

namespace Session

/-- The session without records. -/
def empty : Session := ⟨[], .nil⟩

/-- Puts a record in its place among sorted ones. -/
def insertRecord (record : Record) : List Record → List Record
  | [] => [record]
  | other :: rest =>
    if record.proxy.toNat < other.proxy.toNat then record :: other :: rest
    else if record.proxy = other.proxy then record :: rest
    else other :: insertRecord record rest

theorem eq_or_mem_of_mem_insertRecord {record found : Record} {records : List Record}
    (h : found ∈ insertRecord record records) : found = record ∨ found ∈ records := by
  induction records with
  | nil => exact .inl (List.mem_singleton.mp h)
  | cons first rest ih =>
    rw [insertRecord] at h
    split at h
    · exact List.mem_cons.mp h
    split at h
    · exact (List.mem_cons.mp h).imp_right (List.mem_cons_of_mem _)
    · rcases List.mem_cons.mp h with rfl | hrest
      · exact .inr List.mem_cons_self
      · exact (ih hrest).imp_right (List.mem_cons_of_mem _)

/-- **Inserting a record keeps the order.** -/
theorem ordered_insertRecord {records : List Record}
    (h : records.Pairwise fun record next => record.proxy.toNat < next.proxy.toNat)
    (record : Record) : (insertRecord record records).Pairwise
      fun record next => record.proxy.toNat < next.proxy.toNat := by
  induction records with
  | nil => exact List.pairwise_singleton _ _
  | cons first rest ih =>
    obtain ⟨hfirst, hrest⟩ := List.pairwise_cons.mp h
    rw [insertRecord]
    split
    next hlt =>
      refine List.pairwise_cons.mpr ⟨fun found hfound => ?_, h⟩
      rcases List.mem_cons.mp hfound with rfl | hmem
      · exact hlt
      · exact Nat.lt_trans hlt (hfirst found hmem)
    next hnot =>
      split
      next heq =>
        exact List.pairwise_cons.mpr ⟨fun found hfound => heq ▸ hfirst found hfound, hrest⟩
      next hne =>
        refine List.pairwise_cons.mpr ⟨fun found hfound => ?_, ih hrest⟩
        rcases eq_or_mem_of_mem_insertRecord hfound with rfl | hmem
        · have hword : first.proxy.toNat ≠ found.proxy.toNat := fun heq =>
            hne (Address.toNat_inj.mp heq).symm
          omega
        · exact hfirst found hmem

/-- The session with a record added to it. -/
def insert (session : Session) (record : Record) : Session :=
  ⟨insertRecord record session.records, ordered_insertRecord session.ordered record⟩

/-- The session with the records of another one added to it. -/
def merge (session other : Session) : Session := other.records.foldl insert session

/-- The records whose activation still waits for the owners of a wallet. -/
def pending (session : Session) : List Record := session.records.filter (·.isPending)

/-- The record of a proxy. -/
def get? (session : Session) (proxy : Address) : Option Record :=
  session.records.find? (·.proxy = proxy)

end Session

end ProxyUpgrade
