import ProxyUpgrade.Config.File
import ProxyUpgrade.Proofs.Files.Apart
import ProxyUpgrade.Proofs.History.Chronicle
import ProxyUpgrade.Proofs.Registry.WriteOnce
/-!
# The two stores of a configuration

A configuration names a file for the registry and one for the history, and calls are made on the two
in any order (`Config.replies`). The stores are independent (`Config.Independent`) if neither shows
what was done to the other: each answers as if the calls on it were the only ones, and the registry
keeps what was saved.

They are if their documents are apart, and only then (`Config.independent_iff_apart`). Both
directions are about whole runs. If the documents are apart, each of them stands while the other is
changed, so that a run leaves what its two parts leave (`Config.both_after`). If they are not, two
or three calls bring it to light: one store cannot be written to once the other has been, or what
was written to it is gone.

No configuration is refused because its documents are not apart (`Config.proxies_lost`).
-/

namespace ProxyUpgrade.Config

open ProxyUpgrade.Action ProxyUpgrade.Document Files

/-- A call on the registry or on the history. -/
abbrev Call : Type := Registry.Call ⊕ History.Timed

/-- What it returns. -/
abbrev Reply : Type := Registry.Reply ⊕ History.Reply History.Group

variable (config : Config)

/-- The registry of a configuration. -/
abbrev registry : Registry.Store (StateM Tree) := .file held config.registryPath

/-- The history of a configuration. -/
abbrev history : History.Opening Tree := .file config.historyPath

/-- What a call returns in a tree, and the tree that it leaves. -/
def answer (tree : Tree) : Call → Reply × Tree
  | .inl call => (Registry.answer config.registry tree call).map .inl id
  | .inr timed => (History.answer config.history tree timed).map .inr id

/-- The tree that calls leave. -/
def after (calls : List Call) (tree : Tree) : Tree :=
  calls.foldl (fun tree call => (config.answer tree call).2) tree

/-- What calls made one after another return. -/
def replies : List Call → Tree → List Reply
  | [], _ => []
  | call :: calls, tree =>
    (config.answer tree call).1 :: replies calls (config.answer tree call).2

/-- **The stores of a configuration are independent** in what is done from some tree on. -/
structure Independent (tree : Tree) : Prop where
  /-- The registry answers as if there were no other calls than those on it. -/
  registry : ∀ calls, (config.replies calls tree).filterMap Sum.getLeft? =
    Registry.replies config.registry (calls.filterMap Sum.getLeft?) tree
  /-- So does the history. -/
  history : ∀ calls, (config.replies calls tree).filterMap Sum.getRight? =
    History.replies config.history (calls.filterMap Sum.getRight?) tree
  /-- A proxy that was saved is found, whatever calls are made then. -/
  kept : ∀ calls more key address,
    (config.answer (config.after calls tree) (.inl (.save key address))).1 =
      .inl (.saved (.ok ())) →
    (config.answer (config.after (calls ++ .inl (.save key address) :: more) tree)
      (.inl (.find key))).1 = .inl (.found (.ok (some address)))

variable {config} {tree tree' : Tree}

theorem replies_inl (call : Registry.Call) (calls : List Call) (tree : Tree) :
    config.replies (.inl call :: calls) tree =
      .inl (Registry.answer config.registry tree call).1 ::
        config.replies calls (Registry.answer config.registry tree call).2 := rfl

theorem replies_inr (timed : History.Timed) (calls : List Call) (tree : Tree) :
    config.replies (.inr timed :: calls) tree =
      .inr (History.answer config.history tree timed).1 ::
        config.replies calls (History.answer config.history tree timed).2 := rfl

theorem after_append (calls more : List Call) (tree : Tree) :
    config.after (calls ++ more) tree = config.after more (config.after calls tree) :=
  List.foldl_append

/-! ### Stores that are apart -/

/-- A table and a manifest stand at the two paths of a configuration. -/
def Both (config : Config) (tree : Tree) (table : Registry.Table)
    (manifest : History.Manifest) : Prop :=
  Stands Registry.Table.format config.registryPath tree table ∧
    Stands History.Store.format config.historyPath tree manifest

section Apart

variable (hregistry : config.registryPath.extension? ≠ some "lock")
  (hhistory : config.historyPath.extension? ≠ some "lock")
  (hapart : Apart config.registryPath config.historyPath)
  {table : Registry.Table} {manifest : History.Manifest}

include hregistry hapart in
theorem keeps_registry (manifest : History.Manifest) :
    config.registry.Keeps fun tree table => Both config tree table manifest :=
  Registry.keeps_of_kept (kept_stands Registry.Table.faithful hregistry
    fun hroom hfootprint hthere => hthere.beside hapart hroom hfootprint)

include hhistory hapart in
theorem keeps_history (table : Registry.Table) :
    config.history.Keeps fun tree manifest => Both config tree table manifest := by
  have hkept : Kept History.Store.format config.historyPath
      fun tree manifest => Stands History.Store.format config.historyPath tree manifest ∧
        Stands Registry.Table.format config.registryPath tree table :=
    kept_stands History.Manifest.faithful hhistory
      fun hroom hfootprint hthere => hthere.beside hapart.symm hroom hfootprint
  simpa only [Both, and_comm] using History.keeps_of_kept hkept

include hregistry hhistory hapart

/-- The tree that calls leave has the table and the manifest that those on either leave. -/
theorem both_after (hboth : Both config tree table manifest) (calls : List Call) :
    Both config (config.after calls tree) (table.after (calls.filterMap Sum.getLeft?))
      (manifest.after (calls.filterMap Sum.getRight?)) := by
  induction calls generalizing tree table manifest with
  | nil => exact hboth
  | cons call calls ih =>
    cases call with
    | inl call =>
      obtain ⟨tree', hanswer, hboth'⟩ :=
        Registry.answer_eq (keeps_registry hregistry hapart manifest) hboth call
      have htree : (config.answer tree (.inl call)).2 = tree' := congrArg Prod.snd hanswer
      rw [after, List.foldl_cons, htree]
      exact ih hboth'
    | inr timed =>
      obtain ⟨tree', hanswer, hboth'⟩ :=
        History.answer_eq (keeps_history hhistory hapart table) hboth timed
      have htree : (config.answer tree (.inr timed)).2 = tree' := congrArg Prod.snd hanswer
      rw [after, List.foldl_cons, htree]
      exact ih hboth'

/-- **Either store answers as one that has the calls on it only.** -/
theorem replies_apart {σ : Type} {store : Registry.Store (StateM σ)}
    {holds : σ → Registry.Table → Prop} (hstore : store.Keeps holds) {s : σ} (hs : holds s table)
    (hboth : Both config tree table manifest) (calls : List Call) :
    (config.replies calls tree).filterMap Sum.getLeft? =
        Registry.replies store (calls.filterMap Sum.getLeft?) s ∧
      (config.replies calls tree).filterMap Sum.getRight? =
        manifest.replies (calls.filterMap Sum.getRight?) := by
  induction calls generalizing tree table manifest s with
  | nil => exact ⟨rfl, rfl⟩
  | cons call calls ih =>
    cases call with
    | inl call =>
      obtain ⟨tree', hanswer, hboth'⟩ :=
        Registry.answer_eq (keeps_registry hregistry hapart manifest) hboth call
      obtain ⟨s', hsame, hs'⟩ := Registry.answer_eq hstore hs call
      obtain ⟨hleft, hright⟩ := ih hs' hboth'
      rw [replies_inl, hanswer]
      refine ⟨?_, hright⟩
      change table.reply call :: _ = Registry.replies store (call :: _) s
      rw [Registry.replies, hsame, hleft]
    | inr timed =>
      obtain ⟨tree', hanswer, hboth'⟩ :=
        History.answer_eq (keeps_history hhistory hapart table) hboth timed
      obtain ⟨hleft, hright⟩ := ih hs hboth'
      rw [replies_inr, hanswer]
      exact ⟨hleft, congrArg _ hright⟩

/-- **A proxy that was saved is found**, whatever calls are made then. -/
theorem found_after_save {key : Key} {address : Address} (hboth : Both config tree table manifest)
    (hsaved : (config.answer tree (.inl (.save key address))).1 = .inl (.saved (.ok ())))
    (more : List Call) :
    (config.answer (config.after (.inl (.save key address) :: more) tree)
      (.inl (.find key))).1 = .inl (.found (.ok (some address))) := by
  obtain ⟨tree', hanswer, hboth'⟩ :=
    Registry.answer_eq (keeps_registry hregistry hapart manifest) hboth (.save key address)
  rw [answer, hanswer] at hsaved
  obtain ⟨table', hsave⟩ : ∃ table', table.save key address = .ok table' := by
    rcases hsave : table.save key address with e | table'
    · rw [Registry.Table.reply, hsave] at hsaved
      cases hsaved
    · exact ⟨table', rfl⟩
  obtain ⟨id, hid, -⟩ := Registry.Table.save_eq_ok_iff.mp hsave
  have hget : table'.get? id = some address :=
    (Registry.Table.get?_of_save hsave).mpr (.inr ⟨hid, rfl⟩)
  rw [Registry.Table.next_save hsave] at hboth'
  have htree : config.after (.inl (.save key address) :: more) tree = config.after more tree' := by
    rw [after, List.foldl_cons, answer, hanswer]
    rfl
  obtain ⟨tree'', hfound, -⟩ := Registry.answer_eq (keeps_registry hregistry hapart _)
    (both_after hregistry hhistory hapart hboth' more) (.find key)
  rw [htree, answer, hfound, Registry.Table.reply, hid, Except.map, Registry.Table.get?_after hget]
  rfl

/-- **Stores whose documents are apart are independent**, from a tree on in which both can be
made. -/
theorem independent_of_apart (hcreatable : Creatable config.registryPath tree)
    (hcreatable' : Creatable config.historyPath tree) : Independent config tree := by
  have hboth : Both config tree .empty [] :=
    ⟨hcreatable.vacant.stands Registry.Table.format, hcreatable'.vacant.stands History.Store.format⟩
  have hreplies := replies_apart hregistry hhistory hapart (Registry.keeps_file hregistry)
    (hcreatable.holds Registry.Table.format) hboth
  refine ⟨fun calls => (hreplies calls).1, fun calls => ?_, fun calls more key address hsaved => ?_⟩
  · rw [(hreplies calls).2]
    exact (History.replies_eq (History.keeps_file hhistory)
      (hcreatable'.holds History.Store.format) _).symm
  · rw [after_append]
    exact found_after_save hregistry hhistory hapart
      (both_after hregistry hhistory hapart hboth calls) hsaved more

end Apart

/-! ### Stores that are not -/

section Necessity

variable {key : Key} {id : String} {code : Hash} {address : Address} {time : Timestamp}
  (hid : key.id = .ok id)

include hid in
theorem answer_find : Registry.answer config.registry tree (.find key) =
    (.found ((loaded Registry.Table.format config.registryPath tree).map (·.get? id)), tree) := by
  rw [Registry.answer, Registry.proxyAddress, hid, onState_bind_ok (onState_ofExcept _ tree),
    Registry.file_get_onState]
  rfl

theorem answer_entries : Registry.answer config.registry tree .entries =
    (.listed ((loaded Registry.Table.format config.registryPath tree).map (·.rows)), tree) :=
  congrArg (Prod.map _ _) (Registry.file_entries_onState config.registryPath tree)

include hid in
/-- A proxy is saved in a registry that has none yet. -/
theorem answer_save (hregistry : config.registryPath.extension? ≠ some "lock")
    (hvacant : Vacant config.registryPath tree) (address : Address) :
    ∃ tree', Registry.answer config.registry tree (.save key address) =
        (.saved (.ok ()), tree') ∧
      Stands Registry.Table.format config.registryPath tree' (.insert id address .empty) ∧
      Footprint config.registryPath
        (.ofText (Registry.Table.insert id address .empty).toJson.pretty) tree tree' := by
  have hstands := hvacant.stands Registry.Table.format
  obtain ⟨tree', hset, hstands', hfootprint⟩ := hstands.update Registry.Table.faithful hregistry
    fun table => ((), table.insert id address)
  have hget : (config.registry.get id).onState tree = (.ok none, tree) := by
    rw [Registry.file_get_onState, hstands.loaded_eq]
    rfl
  have hsave : (Registry.saveProxy config.registry key address).onState tree = (.ok (), tree') := by
    rw [Registry.saveProxy, hid]
    exact (onState_bind_ok rfl _).trans ((onState_bind_ok hget _).trans hset)
  refine ⟨tree', ?_, hstands', hfootprint⟩
  rw [Registry.answer, hsave]
  rfl

/-- An address is recorded in a history that has none yet. -/
theorem answer_record (hhistory : config.historyPath.extension? ≠ some "lock")
    (hvacant : Vacant config.historyPath tree) (code : Hash) (address : Address) :
    ∃ tree', History.answer config.history tree ⟨.record code address, time⟩ =
        (.recorded (.ok ⟨code, address, []⟩), tree') ∧
      Stands History.Store.format config.historyPath tree' [⟨code, address, []⟩] ∧
      Footprint config.historyPath
        (.ofText (History.Manifest.toJson [⟨code, address, []⟩]).pretty) tree tree' := by
  obtain ⟨tree', hupdate, hstands, hfootprint⟩ :=
    (hvacant.stands History.Store.format).update History.Manifest.faithful hhistory
      fun manifest => manifest.record time code address
  have hrecord : ((config.history time).record code address).onState tree = _ :=
    (onState_bind_ok rfl _).trans hupdate
  refine ⟨tree', ?_, hstands, hfootprint⟩
  rw [History.answer, hrecord]
  rfl

include hid in
/-- A registry that is stuck refuses some proxy: all of them, or one of two different ones. -/
theorem answer_save_of_stuck (h : Stuck Registry.Table.format config.registryPath tree) :
    ∃ address e, (Registry.answer config.registry tree (.save key address)).1 =
      .saved (.error e) := by
  obtain ⟨address, e, he⟩ : ∃ address e,
      ((Registry.saveProxy config.registry key address).onState tree).1 = .error e := by
    simp only [Registry.saveProxy, hid, onState_bind, onState_ofExcept, Registry.file_get_onState]
    rcases loaded Registry.Table.format config.registryPath tree with e | table
    · exact ⟨⟨0⟩, e, rfl⟩
    simp only [Except.map]
    rcases table.get? id with - | existing
    · obtain ⟨e, he⟩ := h _ fun table => ((), table.insert id ⟨0⟩)
      exact ⟨⟨0⟩, e, he⟩
    -- One of any two proxies is not the one on record.
    · obtain ⟨address, hne⟩ : ∃ address : Address, existing ≠ address := by
        by_cases hzero : existing = ⟨0⟩
        · exact ⟨⟨1⟩, by simp [hzero]⟩
        · exact ⟨⟨0⟩, hzero⟩
      exact ⟨address, _, by simp only [hne, if_false]; rfl⟩
  exact ⟨address, e, by rw [Registry.answer, Prod.map_fst, he]⟩

/-- A history that is stuck refuses every address. -/
theorem answer_record_of_stuck (h : Stuck History.Store.format config.historyPath tree)
    (code : Hash) (address : Address) :
    ∃ e, (History.answer config.history tree ⟨.record code address, time⟩).1 =
      .recorded (.error e) := by
  obtain ⟨e, he⟩ := h _ fun manifest => manifest.record time code address
  have hrecord : (((config.history time).record code address).onState tree).1 = .error e :=
    (congrArg Prod.fst (onState_bind_ok rfl _)).trans he
  exact ⟨e, by rw [History.answer, Prod.map_fst, hrecord]⟩

/-- A manifest is not read as a table. -/
theorem ofJson?_manifest (manifest : History.Manifest) :
    (Json.parse? manifest.toJson.pretty).bind Registry.Table.format.ofJson? = none := by
  rw [Json.parse?_pretty (History.Manifest.isExact_toJson manifest), Option.bind_some]
  have hgroups : Address.ofJson? (.array (manifest.map History.Group.toJson)) = none := by
    cases manifest <;>
      simp [Address.ofJson?, Bytes.sizedOfJson?, Bytes.ofJson?, History.Group.toJson, Json.byte?]
  simp [Registry.Table.format, Registry.Table.ofJson?_object, History.Manifest.toJson,
    Registry.Table.addMember?, hgroups]

namespace Independent

variable (h : Independent config tree) (hregistry : config.registryPath.extension? ≠ some "lock")
  (hhistory : config.historyPath.extension? ≠ some "lock")
  (hvacant : Vacant config.registryPath tree) (hvacant' : Vacant config.historyPath tree)

include h

include hregistry hvacant hid in
/-- The registry is not stuck after a call on the history. -/
theorem not_stuck_registry (timed : History.Timed) :
    ¬Stuck Registry.Table.format config.registryPath
      (History.answer config.history tree timed).2 := by
  intro hstuck
  obtain ⟨address, e, hfails⟩ := answer_save_of_stuck hid hstuck
  obtain ⟨saved, hsave, -⟩ := answer_save hid hregistry hvacant address
  have hreplies := h.registry [.inr timed, .inl (.save key address)]
  rw [replies_inr, replies_inl, hfails] at hreplies
  have hsaved : [Registry.Reply.saved (.error e)] =
      [(Registry.answer config.registry tree (.save key address)).1] := hreplies
  rw [hsave] at hsaved
  cases hsaved

include hhistory hvacant' in
/-- The history is not stuck after a call on the registry. -/
theorem not_stuck_history (call : Registry.Call) :
    ¬Stuck History.Store.format config.historyPath
      (Registry.answer config.registry tree call).2 := by
  intro hstuck
  obtain ⟨e, hfails⟩ := answer_record_of_stuck hstuck ⟨0⟩ ⟨0⟩
  obtain ⟨recorded, hrecord, -⟩ := answer_record hhistory hvacant' ⟨0⟩ ⟨0⟩
  have hreplies := h.history [.inl call, .inr ⟨.record ⟨0⟩ ⟨0⟩, .epoch⟩]
  rw [replies_inl, replies_inr, hfails] at hreplies
  have hrecorded : [History.Reply.recorded (.error e)] =
      [(History.answer config.history tree ⟨.record ⟨0⟩ ⟨0⟩, .epoch⟩).1] := hreplies
  rw [hrecord] at hrecorded
  cases hrecorded

/-- A proxy that was saved is not lost by a call on the history. -/
theorem not_lost_registry {saved : Tree}
    (hsave : Registry.answer config.registry tree (.save key address) = (.saved (.ok ()), saved))
    (hstands : Stands Registry.Table.format config.registryPath saved (.insert id address .empty))
    (timed : History.Timed) :
    loaded Registry.Table.format config.registryPath
      (History.answer config.history saved timed).2 ≠ .ok .empty := by
  intro hlost
  have hreplies : _ = Registry.replies config.registry [.save key address, .entries] tree :=
    h.registry [.inl (.save key address), .inr timed, .inl .entries]
  rw [replies_inl, hsave, Registry.replies, hsave] at hreplies
  have hlisted : [(Registry.answer config.registry (History.answer config.history saved timed).2
      .entries).1] = [(Registry.answer config.registry saved .entries).1] :=
    (List.cons.inj hreplies).2
  rw [answer_entries, answer_entries, hlost, hstands.loaded_eq] at hlisted
  cases hlisted

/-- An address that was recorded is not lost by a call on the registry. -/
theorem not_lost_history {recorded : Tree} {group : History.Group}
    (hrecord : History.answer config.history tree ⟨.record code address, time⟩ =
      (.recorded (.ok group), recorded))
    (hstands : Stands History.Store.format config.historyPath recorded [group])
    (call : Registry.Call) :
    loaded History.Store.format config.historyPath
      (Registry.answer config.registry recorded call).2 ≠ .ok [] := by
  intro hlost
  have hreplies : _ = History.replies config.history
      [⟨.record code address, time⟩, ⟨.groups, time⟩] tree :=
    h.history [.inr ⟨.record code address, time⟩, .inl call, .inr ⟨.groups, time⟩]
  rw [replies_inr, hrecord, History.replies, hrecord] at hreplies
  have hlisted : [History.Reply.listed (loaded History.Store.format config.historyPath
      (Registry.answer config.registry recorded call).2)] =
      [.listed (loaded History.Store.format config.historyPath recorded)] :=
    (List.cons.inj hreplies).2
  rw [hlost, hstands.loaded_eq] at hlisted
  cases hlisted

include hregistry hhistory hvacant hvacant' hid in
/-- **Stores that are independent have documents that are apart.** -/
theorem apart : Apart config.registryPath config.historyPath := by
  obtain ⟨saved, hsave, hsavedStands, hsaved⟩ := answer_save hid hregistry hvacant ⟨0⟩
  obtain ⟨recorded, hrecord, hrecordedStands, hrecorded⟩ :=
    answer_record hhistory hvacant' ⟨0⟩ ⟨0⟩
  have hfree := h.not_stuck_registry hid hregistry hvacant ⟨.record ⟨0⟩ ⟨0⟩, .epoch⟩
  have hfree' := h.not_stuck_history hhistory hvacant' (.save key ⟨0⟩)
  rw [hrecord] at hfree
  rw [hsave] at hfree'
  -- Neither is in the way of the other, so there is room for either once the other is changed.
  have hway : ∀ place ∈ places config.registryPath, place ∉ config.historyPath.way :=
    fun place hplace hway =>
      hfree (stuck_of_way hvacant.room.named hrecorded hplace hway Registry.Table.format)
  have hway' : ∀ place ∈ places config.historyPath, place ∉ config.registryPath.way :=
    fun place hplace hway =>
      hfree' (stuck_of_way hvacant'.room.named hsaved hplace hway History.Store.format)
  have hroom := hvacant.room.beside hrecorded hway' hway
  have hroom' := hvacant'.room.beside hsaved hway hway'
  have hne : config.registryPath.place ≠ config.historyPath.place := fun heq => by
    refine hfree (stuck_of_text hroom hregistry ?_ (ofJson?_manifest [⟨⟨0⟩, ⟨0⟩, []⟩]))
    rw [heq, hrecorded.here]
  have hlock : config.registryPath.place ≠ (lockPath config.historyPath).place := fun heq =>
    hfree (stuck_of_lock hroom hregistry hrecorded hvacant.none heq Registry.Table.format)
  have hlock' : config.historyPath.place ≠ (lockPath config.registryPath).place := fun heq =>
    hfree' (stuck_of_lock hroom' hhistory hsaved hvacant'.none heq History.Store.format)
  have hfresh : config.registryPath.place ≠ (freshPath config.historyPath).place := fun heq => by
    have hlater := hvacant'.beside hroom' hsaved (hway' _ List.mem_cons_self) hne.symm hlock'
    obtain ⟨both, hboth, -, hfootprint⟩ := answer_record hhistory hlater ⟨0⟩ ⟨0⟩
    have hkept := h.not_lost_registry hsave hsavedStands ⟨.record ⟨0⟩ ⟨0⟩, .epoch⟩
    rw [hboth] at hkept
    exact hkept (loaded_of_lost hvacant.room.named hfootprint hne heq Registry.Table.format)
  have hfresh' : config.historyPath.place ≠ (freshPath config.registryPath).place := fun heq => by
    have hlater := hvacant.beside hroom hrecorded (hway _ List.mem_cons_self) hne hlock
    obtain ⟨both, hboth, -, hfootprint⟩ := answer_save hid hregistry hlater ⟨0⟩
    have hkept := h.not_lost_history hrecord hrecordedStands (.save key ⟨0⟩)
    rw [hboth] at hkept
    exact hkept (loaded_of_lost hvacant'.room.named hfootprint hne.symm heq History.Store.format)
  exact ⟨⟨by simp [places, hne.symm, hfresh', hlock'], hway⟩,
    ⟨by simp [places, hne, hfresh, hlock], hway'⟩⟩

end Independent

end Necessity

/-! ### Stores in one file -/

/-- A table is read as a manifest without groups, unless a row has the name of the groups. -/
theorem ofJson?_table {table : Registry.Table} (h : ∀ row ∈ table.rows, row.id ≠ "groups") :
    History.Manifest.ofJson? table.toJson = some [] := by
  have hfilter : (table.rows.map fun row => (row.id, row.address.toJson)).filter
      (·.1 == "groups") = [] := by
    simpa [List.filter_eq_nil_iff] using h
  have hlookup : (table.rows.map fun row => (row.id, row.address.toJson)).lookup "groups" =
      none := by
    refine List.lookup_eq_none_iff.mpr fun member hmember => ?_
    obtain ⟨row, hrow, rfl⟩ := List.mem_map.mp hmember
    simpa using (h row hrow).symm
  simp [History.Manifest.ofJson?, Registry.Table.toJson, Json.fields?, Json.distinct, hfilter,
    Json.Fields.defaulted, Json.Fields.get?, hlookup]

/-- **A history in the file of the registry takes its place**: once anything is recorded there is no
table any more. -/
theorem answer_record_over (hsame : config.historyPath = config.registryPath)
    (hregistry : config.registryPath.extension? ≠ some "lock") {table : Registry.Table}
    (hstands : Stands Registry.Table.format config.registryPath tree table)
    (hfile : tree.get? config.registryPath.place = some (.file (.ofText table.toJson.pretty)))
    (hplain : ∀ row ∈ table.rows, row.id ≠ "groups") (code : Hash) (address : Address)
    (time : Timestamp) :
    ∃ tree', History.answer config.history tree ⟨.record code address, time⟩ =
        (.recorded (.ok ⟨code, address, []⟩), tree') ∧
      loaded Registry.Table.format config.registryPath tree' = .error
        (.storage ("failed to parse " ++ config.registryPath ++ ": " ++ unreadable)) := by
  have hfind := hstands.find_eq hfile
  have hexact : table.toJson.IsExact := Registry.Table.faithful.exact table
  have hempty : Stands History.Store.format config.registryPath tree [] :=
    ⟨hstands.room, .inr ⟨⟨_, hfind⟩, (loaded_of_text hfind _).trans (understood_eq_ok_iff.mpr
      ⟨_, Json.parse?_pretty hexact, ofJson?_table hplain⟩)⟩⟩
  obtain ⟨tree', hupdate, hstands', hfootprint⟩ :=
    hempty.update History.Manifest.faithful hregistry
      fun manifest => manifest.record time code address
  have hrecord : ((config.history time).record code address).onState tree =
      (.ok ⟨code, address, []⟩, tree') := by
    refine (onState_bind_ok rfl _).trans ?_
    rw [hsame]
    exact hupdate
  have hloaded : loaded Registry.Table.format config.registryPath tree' =
      understood Registry.Table.format config.registryPath
        (History.Manifest.toJson [⟨code, address, []⟩]).pretty :=
    loaded_of_text (hstands'.find_eq hfootprint.here) Registry.Table.format
  refine ⟨tree', ?_, ?_⟩
  · rw [History.answer, hrecord]
    rfl
  · rw [hloaded, understood, ofJson?_manifest]

/-- The key of a single contract. -/
def box : Key := ⟨⟨"Box", []⟩, none⟩

theorem id_box : box.id = .ok "Box" := rfl

/-- **The stores of a configuration are independent if and only if their documents are apart**, from
a tree on in which both documents can be made and none is. -/
theorem independent_iff_apart (config : Config) (tree : Tree)
    (hregistry : config.registryPath.extension? ≠ some "lock")
    (hhistory : config.historyPath.extension? ≠ some "lock")
    (hcreatable : Creatable config.registryPath tree)
    (hcreatable' : Creatable config.historyPath tree) :
    Independent config tree ↔ Apart config.registryPath config.historyPath :=
  ⟨fun h => h.apart id_box hregistry hhistory hcreatable.vacant hcreatable'.vacant,
    fun hapart => independent_of_apart hregistry hhistory hapart hcreatable hcreatable'⟩

theorem creatable_registry : Creatable standard.registryPath Tree.empty :=
  ⟨⟨[(["deployments"], .directory)], by decide⟩, rfl,
    { named := by decide
      document := ⟨by decide, ["deployments", "registry.json"], rfl, by decide, rfl⟩
      fresh := ⟨by decide, ["deployments", "registry.tmp"], rfl, by decide, rfl⟩
      lock := ⟨by decide, ["deployments", "registry.lock"], rfl, by decide, rfl⟩ },
    by rintro names content ⟨⟩⟩

theorem creatable_history : Creatable standard.historyPath Tree.empty :=
  ⟨⟨[(["deployments"], .directory)], by decide⟩, rfl,
    { named := by decide
      document := ⟨by decide, ["deployments", "history.json"], rfl, by decide, rfl⟩
      fresh := ⟨by decide, ["deployments", "history.tmp"], rfl, by decide, rfl⟩
      lock := ⟨by decide, ["deployments", "history.lock"], rfl, by decide, rfl⟩ },
    by rintro names content ⟨⟩⟩

/-- The stores of the standard configuration are independent. -/
theorem independent_standard :
    standard.registryPath.extension? ≠ some "lock" ∧ standard.historyPath.extension? ≠ some "lock" ∧
    Creatable standard.registryPath Tree.empty ∧ Creatable standard.historyPath Tree.empty ∧
    Independent standard Tree.empty :=
  ⟨by decide, by decide, creatable_registry, creatable_history,
    (independent_iff_apart standard Tree.empty (by decide) (by decide) creatable_registry
      creatable_history).mpr (by decide)⟩

/-- The standard configuration with one file for both stores. -/
def oneFile : Config := { standard with historyPath := standard.registryPath }

/-- **A valid configuration may lose what is in the registry**: a proxy is saved, found and listed;
then an address is recorded in the history, and no proxy is found or listed any more. -/
theorem proxies_lost :
    oneFile.validate = .ok () ∧ (Tree.empty.find oneFile.registryPath).isOk = false ∧
    (Tree.empty.find oneFile.historyPath).isOk = false ∧
    ∃ e, oneFile.replies [.inl (.save box ⟨1⟩), .inl (.find box), .inl .entries,
        .inr (History.Call.early (.record ⟨7⟩ ⟨2⟩)), .inl (.find box), .inl .entries] Tree.empty =
      [.inl (.saved (.ok ())), .inl (.found (.ok (some ⟨1⟩))), .inl (.listed (.ok [⟨"Box", ⟨1⟩⟩])),
        .inr (.recorded (.ok ⟨⟨7⟩, ⟨2⟩, []⟩)), .inl (.found (.error e)),
        .inl (.listed (.error e))] := by
  have hlock : oneFile.registryPath.extension? ≠ some "lock" := by decide
  have hvacant : Vacant oneFile.registryPath Tree.empty := creatable_registry.vacant
  obtain ⟨saved, hsave, hstands, hfootprint⟩ := answer_save id_box hlock hvacant ⟨1⟩
  obtain ⟨recorded, hrecord, hlost⟩ := answer_record_over rfl hlock hstands hfootprint.here
    (by decide) ⟨7⟩ ⟨2⟩ .epoch
  have hover : History.answer oneFile.history saved (History.Call.early (.record ⟨7⟩ ⟨2⟩)) =
      (.recorded (.ok ⟨⟨7⟩, ⟨2⟩, []⟩), recorded) := hrecord
  refine ⟨by decide +kernel, rfl, rfl,
    .storage ("failed to parse " ++ oneFile.registryPath ++ ": " ++ unreadable), ?_⟩
  simp only [replies_inl, replies_inr, hsave, answer_find id_box, answer_entries, hover,
    hstands.loaded_eq, hlost]
  rfl

end ProxyUpgrade.Config
