import ProxyUpgrade.Proofs.History.Annals
import ProxyUpgrade.Proofs.History.Calls
import ProxyUpgrade.Proofs.History.Growth
/-!
# What the history tells

The history is written by recording one address with one code at a time, and what it tells is
determined by the pairs that were recorded, in their order (`History.Manifest.Tells`): there is a
group for each code, in the order in which the codes came up first, and it holds the addresses that
were recorded with the code, in the order in which they came up first. The canonical address is
the first of them. One more pair adds an address, or a group, or nothing
(`History.Manifest.Tells.record`), so this is so after any calls, in each store that keeps a
manifest (`History.Opening.Keeps.chronicles`).

A store in a file gives the same replies as one in memory, up to times, wherever a file can be made
(`History.histories_agree`). Where none can be made it cannot be written, and under a path with the
extension of its lock it cannot be read any more (`History.record_fails_in_file`).
-/

namespace ProxyUpgrade.History

open Document

/-! ### First occurrences -/

section First

variable {α : Type} [DecidableEq α]

/-- The last item is a first occurrence, or is left out. -/
theorem eraseDups_concat (items : List α) (item : α) : (items ++ [item]).eraseDups =
    if item ∈ items then items.eraseDups else items.eraseDups ++ [item] := by
  rw [List.eraseDups_append]
  split
  next hmem => simp [List.removeAll, hmem]
  next hnew => simp [List.removeAll, hnew, List.eraseDups_cons]

theorem nodup_eraseDups (items : List α) : items.eraseDups.Nodup := by
  induction items using List.reverseRecOn with
  | nil => exact List.nodup_nil
  | append_singleton items item ih =>
    rw [eraseDups_concat]
    split
    · exact ih
    next hnew =>
      refine List.nodup_append.mpr ⟨ih, List.nodup_singleton _, fun other hother item' hitem' => ?_⟩
      rintro rfl
      exact hnew (List.mem_singleton.mp hitem' ▸ List.mem_eraseDups.mp hother)

end First

/-! ### What was recorded -/

/-- The pair that a call records, if it does. -/
def Timed.pair? (timed : Timed) : Option (Hash × Address) :=
  match timed.call with
  | .record code address => some (code, address)
  | _ => none

/-- The pairs that calls record, in their order. -/
def pairs (calls : List Timed) : List (Hash × Address) := calls.filterMap Timed.pair?

/-- The codes that were recorded, in the order in which they came up first. -/
def codes (pairs : List (Hash × Address)) : List Hash := (pairs.map (·.1)).eraseDups

/-- The addresses that were recorded with a code, in the order in which they came up first. -/
def under (code : Hash) (pairs : List (Hash × Address)) : List Address :=
  ((pairs.filter (·.1 = code)).map (·.2)).eraseDups

section Pairs

variable {pairs : List (Hash × Address)} {code other : Hash} {address : Address}

theorem mem_under : address ∈ under code pairs ↔ (code, address) ∈ pairs := by
  simp [under, List.mem_eraseDups]

theorem mem_codes : code ∈ codes pairs ↔ ∃ address, (code, address) ∈ pairs := by
  simp [codes, List.mem_eraseDups]

theorem codes_concat (pairs : List (Hash × Address)) (code : Hash) (address : Address) :
    codes (pairs ++ [(code, address)]) =
      if code ∈ codes pairs then codes pairs else codes pairs ++ [code] := by
  simp only [codes, List.map_append, List.map_cons, List.map_nil, eraseDups_concat,
    List.mem_eraseDups]

/-- One more address is one of those that were recorded, or comes after them. -/
theorem under_concat_self (pairs : List (Hash × Address)) (code : Hash) (address : Address) :
    under code (pairs ++ [(code, address)]) =
      if address ∈ under code pairs then under code pairs else under code pairs ++ [address] := by
  simp only [under, List.filter_append, List.map_append, List.filter_cons, decide_true, if_true,
    List.filter_nil, List.map_cons, List.map_nil, eraseDups_concat, List.mem_eraseDups]

theorem under_concat_of_ne (h : code ≠ other) (pairs : List (Hash × Address)) (address : Address) :
    under other (pairs ++ [(code, address)]) = under other pairs := by
  simp [under, h]

end Pairs

/-! ### Manifests that tell it -/

theorem Group.addresses_add (group : Group) (now : Timestamp) (address : Address) :
    (group.add now address).addresses =
      if address ∈ group.addresses then group.addresses else group.addresses ++ [address] := by
  by_cases hmem : address ∈ group.addresses
  · rw [add_of_has (by simpa [has] using hmem), if_pos hmem]
  · rw [add, if_neg (by simpa [has] using hmem), if_neg hmem]
    simp [addresses]

namespace Manifest

variable {manifest : Manifest} {pairs : List (Hash × Address)}

/-- All other groups stay. -/
theorem mem_record (h : (manifest.map (·.code)).Nodup) {now : Timestamp} {code : Hash}
    {address : Address} {group : Group} (hgroup : group ∈ (manifest.record now code address).2) :
    group ∈ manifest ∧ group.code ≠ code ∨ group = (manifest.record now code address).1 := by
  induction manifest with
  | nil => exact .inr (List.mem_singleton.mp hgroup)
  | cons first rest ih =>
    obtain ⟨hfirst, hrest⟩ := List.nodup_cons.mp h
    rw [record] at hgroup ⊢
    split at hgroup
    next heq =>
      rw [if_pos heq]
      rcases List.mem_cons.mp hgroup with rfl | hmem
      · exact .inr rfl
      · refine .inl ⟨List.mem_cons_of_mem _ hmem, ?_⟩
        exact fun hcode => hfirst (List.mem_map.mpr ⟨group, hmem, hcode.trans heq.symm⟩)
    next hne =>
      rw [if_neg hne]
      rcases List.mem_cons.mp hgroup with rfl | hmem
      · exact .inl ⟨List.mem_cons_self, hne⟩
      · exact (ih hrest hmem).imp_left fun h => ⟨List.mem_cons_of_mem _ h.1, h.2⟩

/-- **A manifest tells what was recorded**: there is a group for each code, in the order in which
they came up first, and it has the addresses that were recorded with it, in the order in which they
came up first. -/
structure Tells (manifest : Manifest) (pairs : List (Hash × Address)) : Prop where
  codes : manifest.map (·.code) = codes pairs
  addresses : ∀ group ∈ manifest, group.addresses = under group.code pairs

theorem Tells.nodup (h : manifest.Tells pairs) : (manifest.map (·.code)).Nodup :=
  h.codes ▸ nodup_eraseDups _

theorem Tells.has_iff (h : manifest.Tells pairs) {group : Group} (hgroup : group ∈ manifest)
    {address : Address} : group.has address = true ↔ (group.code, address) ∈ pairs := by
  rw [Group.has, List.contains_iff_mem, h.addresses group hgroup, mem_under]

theorem Tells.ofCode?_eq_none (h : manifest.Tells pairs) {code : Hash} :
    manifest.ofCode? code = none ↔ ∀ address, (code, address) ∉ pairs := by
  have hcode : manifest.ofCode? code = none ↔ code ∉ manifest.map (·.code) := by simp [ofCode?]
  rw [hcode, h.codes, mem_codes, not_exists]

/-- **One more pair** is told by the manifest in which it has been recorded. -/
theorem Tells.record (h : manifest.Tells pairs) (now : Timestamp) (code : Hash)
    (address : Address) :
    (manifest.record now code address).2.Tells (pairs ++ [(code, address)]) where
  codes := by rw [codes_record, codes_concat, h.codes]
  addresses := by
    intro group hgroup
    rcases mem_record h.nodup hgroup with ⟨hmem, hne⟩ | rfl
    · rw [under_concat_of_ne hne.symm, h.addresses group hmem]
    rcases hfound : manifest.ofCode? code with - | found
    -- The code is new, or it has a group that the address joins.
    · have hunder : under code pairs = [] := List.eq_nil_iff_forall_not_mem.mpr fun other hother =>
        h.ofCode?_eq_none.mp hfound other (mem_under.mp hother)
      rw [record_fst_of_new hfound, under_concat_self, hunder]
      rfl
    · have hcode := code_of_ofCode? hfound
      rw [record_fst hfound, Group.addresses_add, Group.add_code, hcode, under_concat_self,
        h.addresses found (mem_of_ofCode? hfound), hcode]

/-- What calls have recorded is told after them. -/
theorem tells_after (calls : List Timed) : (after [] calls).Tells (History.pairs calls) := by
  induction calls using List.reverseRecOn with
  | nil => exact ⟨rfl, by simp [after]⟩
  | append_singleton calls timed ih =>
    obtain ⟨call, time⟩ := timed
    have hafter : after [] (calls ++ [⟨call, time⟩]) =
        (after [] calls).next ⟨call, time⟩ := List.foldl_append
    have hpairs : History.pairs (calls ++ [⟨call, time⟩]) =
        History.pairs calls ++ History.pairs [⟨call, time⟩] := List.filterMap_append
    rw [hafter, hpairs]
    cases call with
    | record code address => exact ih.record time code address
    | _ => exact (List.append_nil (History.pairs calls)).symm ▸ ih

theorem grows_after (manifest : Manifest) (calls : List Timed) :
    manifest.Grows (manifest.after calls) := by
  induction calls generalizing manifest with
  | nil => exact .refl manifest
  | cons timed calls ih =>
    refine .trans ?_ (ih (manifest.next timed))
    obtain ⟨call, time⟩ := timed
    cases call with
    | record code address => exact grows_record time code address manifest
    | _ => exact .refl manifest

/-- A pair that was recorded once is not recorded again. -/
theorem Tells.record_of_mem (h : manifest.Tells pairs) {code : Hash} {address : Address}
    (hmem : (code, address) ∈ pairs) (now : Timestamp) :
    (manifest.record now code address).2 = manifest := by
  rcases hfound : manifest.ofCode? code with - | group
  · exact absurd hmem (h.ofCode?_eq_none.mp hfound address)
  · have hcode := code_of_ofCode? hfound
    exact record_of_has hfound
      ((h.has_iff (mem_of_ofCode? hfound)).mpr (by rwa [hcode])) now

end Manifest

/-! ### Stores that tell it -/

/-- What a call returns after others. -/
def replyAfter {σ : Type} (store : Opening σ) (calls : List Timed) (start : σ) (timed : Timed) :
    Reply Group :=
  (answer store (after store calls start) timed).1

/-- **A store is a chronicle**: after any calls it tells what they have recorded, as `told` has it.
-/
structure Chronicles {σ : Type} (store : Opening σ) (start : σ) (told : List Timed → Manifest) :
    Prop where
  /-- There is one group for each code, in the order in which they came up first. -/
  codes : ∀ calls, (told calls).map (·.code) = codes (pairs calls) ∧
    ((told calls).map (·.code)).Nodup
  /-- It has each address once, in the order in which they came up first, the canonical one before
  the aliases. -/
  addresses : ∀ calls, ∀ group ∈ told calls,
    group.canonical :: group.aliases.map (·.address) = under group.code (pairs calls) ∧
      (under group.code (pairs calls)).Nodup
  /-- All groups are listed. -/
  groups : ∀ calls time,
    replyAfter store calls start ⟨.groups, time⟩ = .listed (.ok (told calls))
  /-- The group of a code has exactly the addresses that were recorded with it. -/
  ofCode : ∀ calls code time, ∃ found,
    replyAfter store calls start ⟨.ofCode code, time⟩ = .found (.ok found) ∧
      (∀ group, found = some group → group ∈ told calls ∧ group.code = code) ∧
      ∀ address, (∃ group, found = some group ∧ group.has address = true) ↔
        (code, address) ∈ pairs calls
  /-- The group of an address is the first one that has it. -/
  ofAddress : ∀ calls address time,
    replyAfter store calls start ⟨.ofAddress address, time⟩ =
      .found (.ok ((told calls).find? (·.has address)))
  /-- What is recorded returns the group that it has joined. -/
  record : ∀ calls code address time, ∃ group,
    replyAfter store calls start ⟨.record code address, time⟩ = .recorded (.ok group) ∧
      (told (calls ++ [⟨.record code address, time⟩])).ofCode? code = some group
  /-- Nothing is ever removed. -/
  grows : ∀ calls more, (told calls).Grows (told (calls ++ more))
  /-- Recording a pair again changes nothing, and no time either. -/
  again : ∀ calls code address time, (code, address) ∈ pairs calls →
    told (calls ++ [⟨.record code address, time⟩]) = told calls

/-- **A store that keeps a manifest is a chronicle.** -/
theorem Opening.Keeps.chronicles {σ : Type} {store : Opening σ} {holds : σ → Manifest → Prop}
    {start : σ} (h : store.Keeps holds) (hstart : holds start []) :
    Chronicles store start (Manifest.after []) := by
  have hreply (calls : List Timed) (timed : Timed) :
      replyAfter store calls start timed = (Manifest.after [] calls).reply timed := by
    obtain ⟨s', hanswer, -⟩ := answer_eq h (holds_after h hstart calls) timed
    rw [replyAfter, hanswer]
  have hafter (calls more : List Timed) : Manifest.after [] (calls ++ more) =
      (Manifest.after [] calls).after more := List.foldl_append
  have htells := Manifest.tells_after
  constructor
  case codes => exact fun calls => ⟨(htells calls).codes, (htells calls).nodup⟩
  case addresses =>
    exact fun calls group hgroup => ⟨(htells calls).addresses group hgroup, nodup_eraseDups _⟩
  case groups => exact fun calls time => hreply calls _
  case ofCode =>
    intro calls code time
    refine ⟨(Manifest.after [] calls).ofCode? code, hreply calls _, fun group hgroup =>
      ⟨Manifest.mem_of_ofCode? hgroup, Manifest.code_of_ofCode? hgroup⟩, fun address => ?_⟩
    constructor
    · rintro ⟨group, hgroup, hhas⟩
      rw [(htells calls).has_iff (Manifest.mem_of_ofCode? hgroup)] at hhas
      rwa [Manifest.code_of_ofCode? hgroup] at hhas
    · intro hmem
      rcases hgroup : (Manifest.after [] calls).ofCode? code with - | group
      · exact absurd hmem ((htells calls).ofCode?_eq_none.mp hgroup address)
      · refine ⟨group, rfl, ?_⟩
        rw [(htells calls).has_iff (Manifest.mem_of_ofCode? hgroup)]
        rwa [Manifest.code_of_ofCode? hgroup]
  case ofAddress => exact fun calls address time => hreply calls _
  case record =>
    intro calls code address time
    refine ⟨_, hreply calls _, ?_⟩
    rw [hafter]
    exact Manifest.ofCode?_record time code address (Manifest.after [] calls)
  case grows =>
    intro calls more
    rw [hafter]
    exact Manifest.grows_after _ more
  case again =>
    intro calls code address time hmem
    rw [hafter]
    exact (htells calls).record_of_mem hmem time

/-- **A history in a file gives the same replies as one in memory**, up to times, and both are
chronicles, of the same groups where calls are made at the same moments. -/
theorem histories_agree (tree : Files.Tree) (path : Path) (hlock : path.extension? ≠ some "lock")
    (hpath : Creatable path tree) :
    (∀ calls later : List Timed, later.map (·.call) = calls.map (·.call) →
      (replies (.file path) later tree).map (Reply.map Group.untimed) =
        (replies .memory calls []).map (Reply.map Group.untimed)) ∧
    ∃ told, Chronicles (.file path) tree told ∧ Chronicles .memory [] told := by
  have hfile := keeps_file hlock
  have hstart : Holds Store.format path tree [] := hpath.holds Store.format
  refine ⟨fun calls later hcalls => ?_, _, hfile.chronicles hstart, keeps_memory.chronicles rfl⟩
  rw [replies_eq hfile hstart, replies_eq keeps_memory rfl]
  exact Manifest.replies_untimed rfl hcalls

/-- A call at the first moment of 1970. -/
def Call.early (call : Call) : Timed :=
  ⟨call, .epoch⟩

theorem creatable_history : Creatable "history.json" Files.Tree.empty :=
  ⟨_, rfl,
    { named := by decide
      document := ⟨by decide, ["history.json"], rfl, by decide, rfl⟩
      fresh := ⟨by decide, ["history.tmp"], rfl, by decide, rfl⟩
      lock := ⟨by decide, ["history.lock"], rfl, by decide, rfl⟩ },
    by rintro names content ⟨⟩⟩

/-- An address that was recorded with two codes belongs to the older group. -/
theorem histories_agree_fresh :
    Path.extension? "history.json" ≠ some "lock" ∧ Creatable "history.json" Files.Tree.empty ∧
    (replies (.file "history.json")
        [Call.early (.record ⟨7⟩ ⟨1⟩), Call.early (.record ⟨8⟩ ⟨2⟩), Call.early (.record ⟨7⟩ ⟨2⟩),
          Call.early (.ofAddress ⟨2⟩), Call.early .groups] Files.Tree.empty).map
        (Reply.map Group.untimed) =
      [.recorded (.ok (⟨7⟩, [⟨1⟩])), .recorded (.ok (⟨8⟩, [⟨2⟩])),
        .recorded (.ok (⟨7⟩, [⟨1⟩, ⟨2⟩])), .found (.ok (some (⟨7⟩, [⟨1⟩, ⟨2⟩]))),
        .listed (.ok [(⟨7⟩, [⟨1⟩, ⟨2⟩]), (⟨8⟩, [⟨2⟩])])] := by
  obtain ⟨hagree, -⟩ :=
    histories_agree Files.Tree.empty "history.json" (by decide) creatable_history
  exact ⟨by decide, creatable_history, (hagree _ _ rfl).trans rfl⟩

/-- **Not every path will do.** Neither below a file nor under the name of its own lock is there a
history to begin with; there a store in memory records what one in a file does not. -/
theorem record_fails_in_file :
    let record := Call.early (.record ⟨7⟩ ⟨1⟩)
    let blocked : Files.Tree := ⟨[(["a"], .file [])], by decide⟩
    replies .memory [record] [] = [.recorded (.ok ⟨⟨7⟩, ⟨1⟩, []⟩)] ∧
      (blocked.find "a/history.json").isOk = false ∧
      (∃ e, replies (.file "a/history.json") [record] blocked = [.recorded (.error e)]) ∧
      (Files.Tree.empty.find "history.lock").isOk = false ∧
      ∃ e, replies (.file "history.lock") [record] Files.Tree.empty = [.recorded (.error e)] :=
  ⟨rfl, rfl, ⟨_, rfl⟩, rfl, _, rfl⟩

end ProxyUpgrade.History
