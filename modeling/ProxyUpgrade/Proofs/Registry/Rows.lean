import Mathlib.Data.String.Basic
import ProxyUpgrade.Proofs.Registry.Calls
import ProxyUpgrade.Proofs.Registry.Key
/-!
# One row for each key

The text of a key is its parts put together again: the artifact and the tags with colons between
them, and the id behind an at sign. As no part of a valid key contains either, cutting the text at
the at sign and what stands before it at the colons gives the parts back (`Key.ofText_text`). So
the row of a key is the row of no other key, and what is saved for one is never found for another
(`Store.Keeps.find_after_save`). The two together are `Key.id_faithful`.
-/

namespace ProxyUpgrade

/-! ### Cutting a text at a character -/

namespace Key

/-- The pieces of a text before, between and behind the places where a character stands. -/
def pieces (c : Char) (text : String) : List String :=
  (text.split c).toList.map fun piece => piece.copy

/-- The key that a text is of: what is behind the at sign is the id, and what is before it is the
artifact and, each behind a colon, the tags. -/
def ofText (text : String) : Key :=
  let halves := pieces '@' text
  let names := pieces ':' (halves.headD "")
  { name := { artifact := names.headD "", tags := names.tail }
    instanceId := halves.tail.head? }

/-- Texts that a character stands between are found again. -/
theorem pieces_intercalate {c : Char} {first : String} {rest : List String}
    (h : ∀ part ∈ first :: rest, c ∉ part.toList) :
    pieces c ((String.singleton c).intercalate (first :: rest)) = first :: rest := by
  rw [pieces, String.toList_split_intercalate h, if_neg (List.cons_ne_nil _ _)]

end Key

/-- The text of a name is its artifact and its tags, with colons between them. -/
theorem LogicalName.text_eq (name : LogicalName) :
    name.text = (String.singleton ':').intercalate (name.artifact :: name.tags) := by
  have htags : ∀ (artifact : String) (tags : List String),
      artifact ++ String.join (tags.map (":" ++ ·)) =
        (String.singleton ':').intercalate (artifact :: tags) := by
    intro artifact tags
    induction tags generalizing artifact with
    | nil => simp
    | cons tag tags ih =>
      rw [String.intercalate_cons_cons, ← ih tag, List.map_cons, String.join_cons]
      simp [String.append_assoc]
  exact htags name.artifact name.tags

namespace Key

variable {key other : Key} {id : String}

/-- The text of a key is its name and, where it has one, its id, with an at sign between them. -/
theorem text_eq (key : Key) :
    key.text = (String.singleton '@').intercalate (key.name.text :: key.instanceId.toList) := by
  obtain ⟨name, instanceId⟩ := key
  cases instanceId with
  | none => simp [text]
  | some id => rw [text, Option.toList_some, String.intercalate_cons_cons]; simp

/-- A key is valid if its artifact, each of its tags and its id are not empty and contain neither a
colon nor an at sign. -/
theorem valid_iff : key.Valid ↔ ∀ part : String,
    part = key.name.artifact ∨ part ∈ key.name.tags ∨ key.instanceId = some part →
      part ≠ "" ∧ ':' ∉ part.toList ∧ '@' ∉ part.toList := by
  have hparts : ∀ part : String, (∃ what, (what, part) ∈ key.parts) ↔
      part = key.name.artifact ∨ part ∈ key.name.tags ∨ key.instanceId = some part := by
    intro part
    simp only [parts, List.mem_append, List.mem_cons, List.mem_map, Option.mem_toList,
      Option.map_eq_some_iff, Prod.mk.injEq]
    constructor
    · rintro ⟨what, (⟨-, hartifact⟩ | ⟨tag, htag, -, rfl⟩) | ⟨id, hid, -, rfl⟩⟩
      exacts [.inl hartifact, .inr (.inl htag), .inr (.inr hid)]
    · rintro (hartifact | htag | hid)
      exacts [⟨_, .inl (.inl ⟨rfl, hartifact⟩)⟩, ⟨_, .inl (.inr ⟨part, htag, rfl, rfl⟩)⟩,
        ⟨_, .inr ⟨part, hid, rfl, rfl⟩⟩]
  constructor
  · intro hvalid part hpart
    obtain ⟨what, hmem⟩ := (hparts part).mpr hpart
    exact hvalid _ hmem
  · exact fun h part hmem => h part.2 ((hparts part.2).mp ⟨part.1, hmem⟩)

/-- **A valid key is read back** from its text. -/
theorem ofText_text (hvalid : key.Valid) : ofText key.text = key := by
  rw [valid_iff] at hvalid
  have hname : '@' ∉ key.name.text.toList := by
    have htext := toList_text ⟨key.name, none⟩
    simp only [text, ending, Option.elim_none, List.append_nil] at htext
    rw [htext, List.mem_append, List.mem_flatMap, not_or]
    refine ⟨(hvalid _ (.inl rfl)).2.2, ?_⟩
    rintro ⟨tag, htag, hat⟩
    exact (hvalid tag (.inr (.inl htag))).2.2 (by simpa using hat)
  have hhalves : pieces '@' key.text = key.name.text :: key.instanceId.toList := by
    rw [text_eq]
    refine pieces_intercalate fun half hhalf => ?_
    rcases List.mem_cons.mp hhalf with rfl | hid
    · exact hname
    · exact (hvalid half (.inr (.inr (Option.mem_toList.mp hid)))).2.2
  have hnames : pieces ':' key.name.text = key.name.artifact :: key.name.tags := by
    rw [LogicalName.text_eq]
    refine pieces_intercalate fun part hpart => ?_
    rcases List.mem_cons.mp hpart with hartifact | htag
    · exact (hvalid part (.inl hartifact)).2.1
    · exact (hvalid part (.inr (.inl htag))).2.1
  rw [ofText, hhalves]
  simp only [List.headD_cons, List.tail_cons, hnames]
  rcases key with ⟨name, - | id⟩ <;> rfl

end Key

/-! ### Rows of other keys -/

namespace Registry

variable {σ : Type} {store : Store (StateM σ)} {holds : σ → Table → Prop} {s : σ} {table : Table}
  {key other : Key}

/-- Saving a proxy for a key leaves what is found for any other. -/
theorem Table.reply_find_of_ne (hne : other ≠ key) (table : Table) (address : Address) :
    (table.next (.save key address)).reply (.find other) = table.reply (.find other) := by
  rcases hsave : table.save key address with e | table'
  · rw [next, hsave]
  rw [next_save hsave]
  obtain ⟨id, hid, ⟨-, rfl⟩ | ⟨-, rfl⟩⟩ := save_eq_ok_iff.mp hsave
  · rfl
  simp only [reply]
  rcases hother : other.id with e | id'
  · rfl
  have hids : id' ≠ id := fun heq => hne (Key.eq_of_id (heq ▸ hother) hid)
  simp [Except.map, get?_insert_of_ne hids]

/-- **What is saved for a key is not found for another**, in any store that keeps a table. -/
theorem Store.Keeps.find_after_save (h : store.Keeps holds) (hs : holds s table)
    (hne : other ≠ key) (address : Address) :
    (answer store (answer store s (.save key address)).2 (.find other)).1 =
      (answer store s (.find other)).1 := by
  obtain ⟨s₁, hsave, hs₁⟩ := answer_eq h hs (.save key address)
  obtain ⟨s₂, hfind, -⟩ := answer_eq h hs₁ (.find other)
  obtain ⟨s₃, hbefore, -⟩ := answer_eq h hs (.find other)
  rw [hsave, hfind, hbefore]
  exact Table.reply_find_of_ne hne table address

end Registry

/-- **The text of a key stands for that key alone.** A key has one exactly if its artifact, its
tags and its id are not empty and free of the separators; cutting the text at the separators gives
the key back, so that no other key has it; and whatever is saved for the key, in any store that
keeps a table, what is found for any other key stays. -/
theorem Key.id_faithful (key : Key) :
    ((∃ id, key.id = .ok id) ↔ ∀ part : String,
      part = key.name.artifact ∨ part ∈ key.name.tags ∨ key.instanceId = some part →
        part ≠ "" ∧ ':' ∉ part.toList ∧ '@' ∉ part.toList) ∧
    (∀ id, key.id = .ok id → ofText id = key ∧ ∀ other : Key, other.id = .ok id → other = key) ∧
    ∀ {σ : Type} (store : Registry.Store (StateM σ)) (holds : σ → Registry.Table → Prop),
      store.Keeps holds → ∀ s table, holds s table → ∀ other ≠ key, ∀ address,
        (Registry.answer store (Registry.answer store s (.save key address)).2 (.find other)).1 =
          (Registry.answer store s (.find other)).1 := by
  refine ⟨exists_id_iff.trans valid_iff, fun id hid => ⟨?_, fun other hother =>
    eq_of_id hother hid⟩, fun store holds hkeeps s table hs other hne address =>
      hkeeps.find_after_save hs hne address⟩
  obtain ⟨hvalid, rfl⟩ := id_eq_ok_iff.mp hid
  exact ofText_text hvalid

/-- Two variants of one contract, that differ in a tag. -/
theorem Key.id_faithful_tagged :
    let key : Key := ⟨⟨"Vault", ["eu", "v2"]⟩, some "main"⟩
    let other : Key := ⟨⟨"Vault", ["eu"]⟩, some "main"⟩
    let store := Registry.Store.memory Cell.state
    key.id = .ok "Vault:eu:v2@main" ∧ ofText "Vault:eu:v2@main" = key ∧
      other.id ≠ .ok "Vault:eu:v2@main" ∧
      (Registry.answer store (Registry.answer store .empty (.save key ⟨7⟩)).2 (.find other)).1 =
        (Registry.answer store .empty (.find other)).1 := by
  intro key other store
  have hid : key.id = .ok "Vault:eu:v2@main" :=
    id_eq_ok_iff.mpr ⟨by simp [key, Valid, parts], by decide⟩
  have hne : other ≠ key := by decide
  obtain ⟨-, hread, hfound⟩ := id_faithful key
  refine ⟨hid, (hread _ hid).1, fun hother => hne ((hread _ hid).2 other hother), ?_⟩
  exact hfound store _ Registry.keeps_memory .empty .empty rfl other hne ⟨7⟩

end ProxyUpgrade
