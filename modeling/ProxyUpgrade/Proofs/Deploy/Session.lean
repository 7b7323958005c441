import Mathlib.Data.List.Sort
import ProxyUpgrade.Deploy.Session
/-!
# What sessions collect

A session is built up from the empty one by inserting records and by merging in other sessions that
were built up in the same way (`Session.Assembly`). However that is done, what is left is the
session of all the records inserted, one after another, into one (`Session.Assembly.build_eq`): for
each proxy the last record, in the order of the proxies (`Session.collected`).

A session, being in this order, is determined by the record that it has for each proxy
(`Session.ext_of_get?`), so it is enough to know which record that is. Inserting a record changes it
for the record's own proxy (`Session.get?_insert`), and merging prefers the second session
(`Session.get?_merge`).
-/

namespace ProxyUpgrade

namespace Session

variable {session other : Session} {record : Record} {proxy : Address}

/-! ### One record more -/

theorem find?_cons_proxy (record : Record) (rest : List Record) (proxy : Address) :
    (record :: rest).find? (·.proxy = proxy) =
      if proxy = record.proxy then some record else rest.find? (·.proxy = proxy) := by
  by_cases h : proxy = record.proxy
  · simp [h]
  · simp [h, Ne.symm h]

/-- **A session has the record that was added last**, and for other proxies what it had. -/
theorem get?_insert (session : Session) (record : Record) (proxy : Address) :
    (session.insert record).get? proxy =
      if proxy = record.proxy then some record else session.get? proxy := by
  simp only [insert, get?]
  induction session.records with
  | nil => exact find?_cons_proxy record [] proxy
  | cons other rest ih =>
    rw [insertRecord]
    split
    · exact find?_cons_proxy record (other :: rest) proxy
    split
    next _ heq =>
      -- The record takes the place of another one of the same proxy.
      rw [find?_cons_proxy, find?_cons_proxy, ← heq]
      split <;> rfl
    next _ hne =>
      rw [find?_cons_proxy, find?_cons_proxy, ih]
      by_cases hother : proxy = other.proxy
      · have hrecord : proxy ≠ record.proxy := fun h => hne (h ▸ hother)
        rw [if_pos hother, if_neg hrecord, if_pos hother]
      · rw [if_neg hother, if_neg hother]

/-- **Where a record goes in a session depends on its proxy only.** -/
theorem exists_insert (session : Session) (record : Record) :
    ∃ before after, ∀ other : Record, other.proxy = record.proxy →
      (session.insert other).records = before ++ other :: after := by
  simp only [insert]
  induction session.records with
  | nil => exact ⟨[], [], fun _ _ => rfl⟩
  | cons first rest ih =>
    obtain ⟨before, after, ih⟩ := ih
    by_cases hlt : record.proxy.toNat < first.proxy.toNat
    · refine ⟨[], first :: rest, fun other hother => ?_⟩
      rw [insertRecord, hother, if_pos hlt]
      rfl
    by_cases heq : record.proxy = first.proxy
    · refine ⟨[], rest, fun other hother => ?_⟩
      rw [insertRecord, hother, if_neg hlt, if_pos heq]
      rfl
    · refine ⟨first :: before, after, fun other hother => ?_⟩
      rw [insertRecord, hother, if_neg hlt, if_neg heq, ih other hother]
      rfl

/-! ### The record of a proxy -/

/-- **The record of a proxy is the only one that is listed for it.** -/
theorem get?_eq_some_iff :
    session.get? proxy = some record ↔ record ∈ session.records ∧ record.proxy = proxy := by
  obtain ⟨records, hordered⟩ := session
  simp only [get?]
  induction records with
  | nil => simp
  | cons first rest ih =>
    obtain ⟨hfirst, hrest⟩ := List.pairwise_cons.mp hordered
    rw [find?_cons_proxy]
    split
    next heq =>
      constructor
      · rintro ⟨⟩
        exact ⟨List.mem_cons_self, heq.symm⟩
      · rintro ⟨hmem, rfl⟩
        rcases List.mem_cons.mp hmem with rfl | hmem
        · rfl
        -- No record behind the first one has its proxy.
        · have hlt := hfirst record hmem
          rw [heq] at hlt
          omega
    next hne =>
      rw [ih hrest, List.mem_cons]
      refine and_congr_left fun hproxy => ⟨.inr, fun hmem => hmem.resolve_left ?_⟩
      rintro rfl
      exact hne hproxy.symm

/-- **What is found for each proxy makes a session.** -/
theorem ext_of_get? (h : ∀ proxy, session.get? proxy = other.get? proxy) : session = other := by
  have hmem : ∀ record, record ∈ session.records ↔ record ∈ other.records := fun record => by
    have hiff : session.get? record.proxy = some record ↔ _ := get?_eq_some_iff
    rw [h, get?_eq_some_iff] at hiff
    simpa using hiff.symm
  have : Std.Irrefl fun record next : Record => record.proxy.toNat < next.proxy.toNat :=
    ⟨fun _ => Nat.lt_irrefl _⟩
  exact Session.ext (session.ordered.eq_of_mem_iff other.ordered hmem)

/-! ### Records one after another -/

/-- The session of records that are inserted one after another. -/
def of (records : List Record) : Session := records.foldl insert empty

/-- The last of some records that is one of a proxy. -/
def last? (records : List Record) (proxy : Address) : Option Record :=
  records.reverse.find? (·.proxy = proxy)

theorem last?_append (records more : List Record) (proxy : Address) :
    last? (records ++ more) proxy = (last? more proxy).or (last? records proxy) := by
  rw [last?, List.reverse_append, List.find?_append]
  rfl

theorem last?_eq_some_iff {records : List Record} : last? records proxy = some record ↔
    record.proxy = proxy ∧ ∃ before after, records = before ++ record :: after ∧
      ∀ later ∈ after, later.proxy ≠ proxy := by
  rw [last?, List.find?_eq_some_iff_append]
  simp only [decide_eq_true_eq, Bool.not_eq_true', decide_eq_false_iff_not]
  refine and_congr_right fun _ => ⟨?_, ?_⟩
  · rintro ⟨after, before, hsplit, hafter⟩
    refine ⟨before.reverse, after.reverse, ?_, fun later hlater =>
      hafter later (List.mem_reverse.mp hlater)⟩
    simpa using congrArg List.reverse hsplit
  · rintro ⟨before, after, rfl, hafter⟩
    exact ⟨after.reverse, before.reverse, by simp, fun later hlater =>
      hafter later (List.mem_reverse.mp hlater)⟩

/-- A proxy that one of the records is of has a last one. -/
theorem exists_last? {records : List Record} (h : ∃ found ∈ records, found.proxy = proxy) :
    ∃ record ∈ records, record.proxy = proxy ∧ last? records proxy = some record := by
  obtain ⟨found, hmem, hproxy⟩ := h
  have hsome : (last? records proxy).isSome = true :=
    List.find?_isSome.mpr ⟨found, List.mem_reverse.mpr hmem, by simpa using hproxy⟩
  obtain ⟨record, hrecord⟩ := Option.isSome_iff_exists.mp hsome
  obtain ⟨hproxy', before, after, rfl, -⟩ := last?_eq_some_iff.mp hrecord
  exact ⟨record, by simp, hproxy', hrecord⟩

/-- **Of records inserted one after another, the last one of a proxy is found.** -/
theorem get?_foldl (records : List Record) (session : Session) (proxy : Address) :
    (records.foldl insert session).get? proxy = (last? records proxy).or (session.get? proxy) := by
  induction records generalizing session with
  | nil => rfl
  | cons record rest ih =>
    have hfirst : last? [record] proxy = if proxy = record.proxy then some record else none :=
      find?_cons_proxy record [] proxy
    rw [List.foldl_cons, ih, get?_insert, ← List.singleton_append, last?_append, hfirst]
    split <;> simp

/-- In a session no record comes before another one of its proxy. -/
theorem last?_records (session : Session) (proxy : Address) :
    last? session.records proxy = session.get? proxy := by
  refine Option.ext fun record => ?_
  rw [last?_eq_some_iff, get?_eq_some_iff]
  constructor
  · rintro ⟨hproxy, before, after, hsplit, -⟩
    exact ⟨by simp [hsplit], hproxy⟩
  · rintro ⟨hmem, rfl⟩
    obtain ⟨before, after, hsplit⟩ := List.append_of_mem hmem
    refine ⟨rfl, before, after, hsplit, fun later hlater hproxy => ?_⟩
    have hordered := session.ordered
    rw [hsplit] at hordered
    have hlt := (List.pairwise_cons.mp (List.pairwise_append.mp hordered).2.1).1 later hlater
    rw [hproxy] at hlt
    exact Nat.lt_irrefl _ hlt

/-- **What is found in a merged session** is what the second one has, else what the first has. -/
theorem get?_merge (session other : Session) (proxy : Address) :
    (session.merge other).get? proxy = (other.get? proxy).or (session.get? proxy) := by
  rw [merge, get?_foldl, last?_records]

theorem get?_of (records : List Record) (proxy : Address) :
    (of records).get? proxy = last? records proxy := by
  rw [of, get?_foldl]
  exact Option.or_none

/-- **Merging sessions puts their records together**, those of the second behind those of the first.
-/
theorem merge_of (records more : List Record) :
    (of records).merge (of more) = of (records ++ more) := by
  refine ext_of_get? fun proxy => ?_
  rw [get?_merge, get?_of, get?_of, get?_of, last?_append]

/-- Sessions are merged one after another. -/
theorem foldl_merge_of (before : List Record) (parts : List (List Record)) :
    (parts.map of).foldl merge (of before) = of (before ++ parts.flatten) := by
  induction parts generalizing before with
  | nil => simp
  | cons part parts ih =>
    rw [List.map_cons, List.foldl_cons, merge_of, ih, List.flatten_cons, List.append_assoc]

/-! ### Sessions that are built up -/

/-- How a session is built up: it is empty at first, records are inserted, and other sessions are
merged into it. -/
inductive Assembly where
  | empty
  | insert (assembly : Assembly) (record : Record)
  | merge (first second : Assembly)

namespace Assembly

/-- The session that is built up. -/
def build : Assembly → Session
  | empty => .empty
  | insert assembly record => assembly.build.insert record
  | merge first second => first.build.merge second.build

/-- All records that are inserted, session after session. -/
def records : Assembly → List Record
  | empty => []
  | insert assembly record => assembly.records ++ [record]
  | merge first second => first.records ++ second.records

/-- **However a session is built up, it is that of its records**, inserted one after another. -/
theorem build_eq (assembly : Assembly) : assembly.build = of assembly.records := by
  induction assembly with
  | empty => rfl
  | insert assembly record ih => rw [build, ih, records, of, of, List.foldl_append]; rfl
  | merge first second ihFirst ihSecond => rw [build, ihFirst, ihSecond, merge_of, records]

end Assembly

/-- **What a session of records shows of them.** -/
structure Collects (session : Session) (records : List Record) : Prop where
  /-- It is the session in which they are inserted one after another. -/
  one : session = of records
  /-- They are listed in the order of their proxies. -/
  ascending : session.records.Pairwise fun record next => record.proxy.toNat < next.proxy.toNat
  /-- Those are listed that no later record of the same proxy follows. -/
  listed : ∀ record, record ∈ session.records ↔ ∃ before after,
    records = before ++ record :: after ∧ ∀ later ∈ after, later.proxy ≠ record.proxy
  /-- Every proxy that was inserted has exactly one of them. -/
  single : ∀ record ∈ records, ∃! found, found ∈ session.records ∧ found.proxy = record.proxy
  /-- They are found under their own proxies. -/
  found : ∀ proxy record, session.get? proxy = some record ↔
    record ∈ session.records ∧ record.proxy = proxy
  /-- Those that wait for owners of a wallet are the proposed ones, in the same order. -/
  pending : session.pending.Sublist session.records ∧ ∀ record, record ∈ session.pending ↔
    record ∈ session.records ∧ ∃ wallet hash, record.activation = some (.proposed wallet hash)
  /-- A proposal does not wait any more when a later record of its proxy has been inserted. -/
  superseded : ∀ before record after, records = before ++ record :: after →
    (∃ later ∈ after, later.proxy = record.proxy) → record ∉ after → record ∉ session.pending

theorem isPending_iff : record.isPending = true ↔
    ∃ wallet hash, record.activation = some (.proposed wallet hash) := by
  obtain ⟨name, instanceId, proxy, implementation, status, verified, activation⟩ := record
  rcases activation with - | receipt | ⟨wallet, hash⟩ <;>
    simp [Record.isPending, Route.Outcome.isPending]

theorem mem_pending_iff : record ∈ session.pending ↔
    record ∈ session.records ∧ ∃ wallet hash, record.activation = some (.proposed wallet hash) := by
  rw [Session.pending, List.mem_filter, isPending_iff]

theorem mem_records_of {records : List Record} : record ∈ (of records).records ↔ ∃ before after,
    records = before ++ record :: after ∧ ∀ later ∈ after, later.proxy ≠ record.proxy := by
  have hget : (of records).get? record.proxy = some record ↔ _ := get?_eq_some_iff
  rw [get?_of, last?_eq_some_iff] at hget
  simpa using hget.symm

/-- A record is not listed once there is a later one of its proxy. -/
theorem not_mem_of_later {before after : List Record}
    (hlater : ∃ later ∈ after, later.proxy = record.proxy) (hnot : record ∉ after) :
    record ∉ (of (before ++ record :: after)).records := by
  obtain ⟨last, hmem, -, hlast⟩ := exists_last? hlater
  intro hlisted
  have hget := get?_eq_some_iff.mpr ⟨hlisted, rfl⟩
  rw [get?_of, ← List.singleton_append, ← List.append_assoc, last?_append, hlast] at hget
  exact hnot (Option.some.inj hget ▸ hmem)

theorem existsUnique_of_mem {records : List Record} (h : record ∈ records) :
    ∃! found, found ∈ (of records).records ∧ found.proxy = record.proxy := by
  obtain ⟨last, -, -, hlast⟩ := exists_last? ⟨record, h, rfl⟩
  rw [← get?_of] at hlast
  refine ⟨last, get?_eq_some_iff.mp hlast, fun other hother => ?_⟩
  have hget := get?_eq_some_iff.mpr hother
  exact Option.some.inj (hget.symm.trans hlast)

theorem collects_of (records : List Record) : Collects (of records) records where
  one := rfl
  ascending := (of records).ordered
  listed _ := mem_records_of
  single _ := existsUnique_of_mem
  found _ _ := get?_eq_some_iff
  pending := ⟨List.filter_sublist, fun _ => mem_pending_iff⟩
  superseded := by
    rintro before record after rfl hlater hnot hpending
    exact not_mem_of_later hlater hnot (mem_pending_iff.mp hpending).1

/-- **Sessions collect records however they are built up and merged**: what is left is the session
of all the records, inserted one after another into one. So sessions may be merged in any grouping,
and merging in the empty one changes nothing. -/
theorem collected :
    (∀ assembly : Assembly, Collects assembly.build assembly.records) ∧
    (∀ parts : List (List Record), (parts.map of).foldl merge empty = of parts.flatten) ∧
    (∀ first second third : Assembly, (first.build.merge second.build).merge third.build =
      first.build.merge (second.build.merge third.build)) ∧
    ∀ assembly : Assembly, empty.merge assembly.build = assembly.build ∧
      assembly.build.merge empty = assembly.build := by
  refine ⟨fun assembly => ?_, foldl_merge_of [], fun first second third => ?_, fun assembly => ?_⟩
  · rw [assembly.build_eq]
    exact collects_of assembly.records
  · simp only [Assembly.build_eq, merge_of, List.append_assoc]
  · rw [assembly.build_eq]
    exact ⟨merge_of [] assembly.records, rfl⟩

end Session

end ProxyUpgrade
