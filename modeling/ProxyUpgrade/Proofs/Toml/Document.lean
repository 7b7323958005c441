import Mathlib.Data.List.Nodup
import ProxyUpgrade.Proofs.Toml.Scalar
/-!
# Documents of TOML are read back

A document that the writer takes is read back, up to the order of its members: those that are tables
come last, and those without a value are gone (`parse?_print?`). This needs the names in it to stand
for themselves and no name to occur twice (`Named`).

The reader goes line by line, and what it has read when a line begins determines what it makes of
the rest (`Reads`). Each line adds one member to the table that the last heading has started
(`Place.draft_give`), or starts a table.
-/

namespace ProxyUpgrade.Toml

variable {name : String} {json : Json} {text rest : List Char}

/-! ### Names -/

/-- A name that stands for itself. -/
structure Bare (name : String) : Prop where
  nonempty : name.toList ≠ []
  bare : ∀ c ∈ name.toList, isBare c = true

/-- Whether a name stands for itself. -/
def isBareName (name : String) : Bool := !name.toList.isEmpty && name.toList.all isBare

theorem bare_of_isBareName (h : isBareName name = true) : Bare name := by
  rw [isBareName, Bool.and_eq_true, Bool.not_eq_true', List.isEmpty_eq_false_iff,
    List.all_eq_true] at h
  exact ⟨h.1, h.2⟩

/-- The names of a table stand for themselves, and each occurs once. -/
structure Named (members : List (String × Json)) : Prop where
  bare : ∀ member ∈ members, Bare member.1
  nodup : (members.map Prod.fst).Nodup

theorem Named.of_names {members : List (String × Json)} {names : List String}
    (hnames : members.map Prod.fst = names) (hbare : names.all isBareName = true)
    (hnodup : names.Nodup) : Named members where
  bare _ hmember := bare_of_isBareName
    (List.all_eq_true.mp hbare _ (hnames ▸ List.mem_map_of_mem hmember))
  nodup := hnames ▸ hnodup

/-- What a name starts with is no blank and no mark. -/
theorem Bare.exists_cons (h : Bare name) :
    ∃ c more, name.toList = c :: more ∧ isBare c = true := by
  obtain ⟨c, more, hname⟩ := List.exists_cons_of_ne_nil h.nonempty
  exact ⟨c, more, hname, h.bare c (hname ▸ List.mem_cons_self)⟩

theorem skip_of_isBare {c : Char} (h : isBare c = true) : skip (c :: rest) = c :: rest := by
  have hwhite : isWhite c = false := by
    rw [Bool.eq_false_iff]
    intro hwhite
    simp only [isWhite, Bool.or_eq_true, decide_eq_true_eq] at hwhite
    rcases hwhite with rfl | rfl <;> cases h
  simp [skip, List.dropWhile, hwhite]

theorem Bare.skip (h : Bare name) (rest : List Char) :
    skip (name.toList ++ rest) = name.toList ++ rest := by
  obtain ⟨c, more, hname, hc⟩ := h.exists_cons
  rw [hname]
  exact skip_of_isBare hc

theorem Bare.simpleKey? (h : Bare name) {d : Char} (hd : isBare d = false) (rest : List Char) :
    simpleKey? (name.toList ++ d :: rest) = some (name.toList, d :: rest) := by
  obtain ⟨c, more, hname, hc⟩ := h.exists_cons
  have hquote : ¬ (c = '"' ∨ c = apostrophe) := by
    rintro (rfl | rfl) <;> cases hc
  have htake : (name.toList ++ d :: rest).takeWhile isBare = name.toList := by
    rw [List.takeWhile_append_of_pos h.bare]
    simp [List.takeWhile, hd]
  have hdrop : (name.toList ++ d :: rest).dropWhile isBare = d :: rest := by
    rw [List.dropWhile_append_of_pos h.bare]
    simp [List.dropWhile, hd]
  have hread : Reader.some isBare (name.toList ++ d :: rest) = some (name.toList, d :: rest) := by
    simp only [Reader.some, htake, hdrop]
    rw [if_neg (by simpa using h.nonempty)]
  rw [hname, List.cons_append] at hread ⊢
  rw [Toml.simpleKey?, if_neg hquote, hread]

/-- **A name is read**, if what follows it is no further part. -/
theorem Bare.splitKey? (h : Bare name) {d : Char} (hd : isBare d = false)
    (hpoint : (Toml.skip (d :: rest)).head? ≠ some '.') :
    splitKey? (name.toList ++ d :: rest) = some (([], name), Toml.skip (d :: rest)) := by
  rw [Toml.splitKey?, key?, h.skip, h.simpleKey? hd]
  simp only [Option.bind_eq_bind, Option.bind_some]
  split
  next heq => simp [heq] at hpoint
  next => simp

/-! ### Tables -/

namespace Members

variable {members : Members}

theorem put_of_lookup (h : members.lookup name = none) (node : Node) :
    members.put name node = members ++ [(name, node)] := by
  induction members with
  | nil => rfl
  | cons member members ih =>
    rw [List.lookup_cons] at h
    split at h
    · cases h
    next hne =>
      rw [put, if_neg (ne_of_beq_false hne).symm, ih h]
      rfl

theorem lookup_append_self (h : members.lookup name = none) (node : Node) :
    List.lookup name (members ++ [(name, node)]) = some node := by
  simp [List.lookup_append, h]

theorem lookup_append_of_ne {other : String} (h : members.lookup other = none) (hne : other ≠ name)
    (node : Node) : List.lookup other (members ++ [(name, node)]) = none := by
  simp [List.lookup_append, h, List.lookup_cons, beq_false_of_ne hne]

theorem put_append_self (h : members.lookup name = none) (node other : Node) :
    put name other (members ++ [(name, node)]) = members ++ [(name, other)] := by
  induction members with
  | nil => simp [put]
  | cons member members ih =>
    rw [List.lookup_cons] at h
    split at h
    · cases h
    next hne =>
      rw [List.cons_append, put, if_neg (ne_of_beq_false hne).symm, ih h]
      rfl

end Members

/-- The table that lines belong to: the document itself, or one that a heading has started after
other members. -/
inductive Place where
  | top
  | under (before : Members) (name : String)

namespace Place

/-- A draft in which the table that lines belong to has some members. -/
def draft : Place → Members → Draft
  | top, inner => ⟨inner, []⟩
  | under before name, inner => ⟨before ++ [(name, .table .headed inner)], [name]⟩

/-- The heading is the first one of its name. -/
def Fresh : Place → Prop
  | top => True
  | under before name => before.lookup name = none

/-- **A member is added** to the table that lines belong to. -/
theorem draft_give {place : Place} {inner : Members} (hplace : place.Fresh)
    (hname : inner.lookup name = none) (json : Json) :
    (place.draft inner).members.under (place.draft inner).heading (·.give [] name json) =
      some (place.draft (inner ++ [(name, .value json)])).members := by
  have hgive : inner.give [] name json = some (inner ++ [(name, .value json)]) := by
    simp [Members.give, Members.change, hname, Members.put_of_lookup hname]
  cases place with
  | top => exact hgive
  | under before heading =>
    have hlookup := Members.lookup_append_self hplace (.table .headed inner)
    have hput := Members.put_append_self hplace (.table .headed inner)
      (.table .headed (inner ++ [(name, .value json)]))
    simp only [draft, Members.under, Members.change, hlookup, hgive, Option.bind_eq_bind,
      Option.bind_some, hput, Option.pure_def, Bool.false_eq_true, false_and, if_false]

theorem draft_heading (place : Place) (inner more : Members) :
    (place.draft inner).heading = (place.draft more).heading := by
  cases place <;> rfl

end Place

/-! ### Lines -/

/-- **What the reader makes of the rest of a document** when a line begins. -/
def Reads (draft : Draft) (text : List Char) (members : Members) : Prop :=
  ∀ fuel, text.length < fuel → (lines fuel draft text).map Draft.members = some members

theorem reads_end (draft : Draft) : Reads draft [] draft.members := by
  intro fuel hfuel
  obtain ⟨fuel, rfl⟩ := Nat.exists_eq_succ_of_ne_zero (Nat.ne_of_gt hfuel)
  rfl

/-- A line is read, and then the next one. -/
theorem Reads.line {draft draft' : Draft} {line : List Char} {members : Members}
    (hline : content? draft (skip (line ++ '\n' :: rest)) = some (draft', '\n' :: rest))
    (h : Reads draft' rest members) : Reads draft (line ++ '\n' :: rest) members := by
  intro fuel hfuel
  simp only [List.length_append, List.length_cons] at hfuel
  obtain ⟨fuel, rfl⟩ := Nat.exists_eq_succ_of_ne_zero (by omega : fuel ≠ 0)
  rw [lines, hline]
  exact h fuel (by omega)

/-! ### Members -/

/-- Whether a member has a value. -/
def hasValue : String × Json → Bool
  | (_, .null) => false
  | _ => true

/-- Members as the reader keeps them: those that have a value. -/
def values (members : List (String × Json)) : Members :=
  (members.filter hasValue).map fun (name, json) => (name, .value json)

theorem memberLines?_cons {member : String × Json} {members : List (String × Json)}
    (h : memberLines? (member :: members) = some text) :
    ∃ line more, memberLine? member = some line ∧ memberLines? members = some more ∧
      text = line ++ more := by
  simp only [memberLines?, List.mapM_cons, Option.bind_eq_bind, Option.pure_def,
    Option.map_eq_some_iff, Option.bind_eq_some_iff, Option.some.injEq] at h ⊢
  obtain ⟨_, ⟨line, hline, lines, hlines, rfl⟩, rfl⟩ := h
  exact ⟨line, lines.flatten, hline, ⟨lines, hlines, rfl⟩, rfl⟩

theorem memberLine?_cases {member : String × Json} {line : List Char}
    (h : memberLine? member = some line) :
    (hasValue member = false ∧ line = []) ∨
      (hasValue member = true ∧ ∃ text, scalarChars? member.2 = some text ∧
        line = member.1.toList ++ ' ' :: '=' :: ' ' :: text ++ ['\n']) := by
  obtain ⟨name, json⟩ := member
  rw [memberLine?.eq_def] at h
  split at h
  next heq =>
    cases heq
    exact .inl ⟨rfl, (Option.some.inj h).symm⟩
  next hnull heq =>
    cases heq
    obtain ⟨text, htext, rfl⟩ := Option.map_eq_some_iff.mp h
    refine .inr ⟨?_, text, htext, rfl⟩
    rw [hasValue.eq_def]
    split
    next heq => cases heq; exact absurd rfl hnull
    next => rfl

/-- A name, an equals sign and a value are read. -/
theorem pair?_member (hbare : Bare name) (hvalue : scalarChars? json = some text)
    (rest : List Char) :
    pair? (value? maxDepth) (name.toList ++ ' ' :: '=' :: ' ' :: text ++ '\n' :: rest) =
      some ((([], name), json), '\n' :: rest) := by
  have hkey : splitKey? (name.toList ++ ' ' :: '=' :: ' ' :: (text ++ '\n' :: rest)) =
      some (([], name), '=' :: ' ' :: (text ++ '\n' :: rest)) :=
    hbare.splitKey? rfl (by simp [skip, List.dropWhile, isWhite])
  have hskip : skip (' ' :: (text ++ '\n' :: rest)) = text ++ '\n' :: rest := by
    obtain ⟨c, more, rfl, hc⟩ := exists_scalarChars hvalue
    simp [skip, List.dropWhile, hc, show isWhite ' ' = true from rfl]
  have hread : value? maxDepth (text ++ '\n' :: rest) = some (json, '\n' :: rest) :=
    value?_scalarChars hvalue 79 rest
  rw [List.append_assoc, List.cons_append, List.cons_append, List.cons_append]
  simp only [pair?, hkey, hskip, hread, Option.bind_eq_bind, Option.bind_some, Option.pure_def]

/-- What starts with a name is a member. -/
theorem content?_of_bare {c : Char} (h : isBare c = true) (draft : Draft) (rest : List Char) :
    content? draft (c :: rest) = (do
      let (((path, name), json), rest) ← pair? (value? maxDepth) (c :: rest)
      let members ← draft.members.under draft.heading (·.give path name json)
      pure (⟨members, draft.heading⟩, rest)) := by
  have hline : ¬ ((c :: rest).isEmpty = true ∨ (c :: rest).head? = some '#' ∨
      (newLine? (c :: rest)).isSome = true) := by
    rintro (hempty | hcomment | hline)
    · cases hempty
    · cases hcomment
      cases h
    · rw [newLine?.eq_def] at hline
      split at hline
      next heq => cases heq; cases h
      next heq => cases heq; cases h
      next => cases hline
  rw [content?, if_neg hline]
  rintro rest' ⟨⟩
  cases h

theorem content?_member {place : Place} {inner : Members} (hbare : Bare name)
    (hplace : place.Fresh) (hname : inner.lookup name = none)
    (hvalue : scalarChars? json = some text) (rest : List Char) :
    content? (place.draft inner)
        (skip (name.toList ++ ' ' :: '=' :: ' ' :: text ++ '\n' :: rest)) =
      some (place.draft (inner ++ [(name, .value json)]), '\n' :: rest) := by
  have hpair := pair?_member hbare hvalue rest
  have hskip := hbare.skip (' ' :: '=' :: ' ' :: text ++ '\n' :: rest)
  rw [← List.append_assoc] at hskip
  obtain ⟨c, more, hcons, hc⟩ := hbare.exists_cons
  rw [hskip]
  rw [hcons, List.cons_append, List.cons_append] at hpair ⊢
  rw [content?_of_bare hc, hpair]
  simp only [Option.bind_eq_bind, Option.bind_some, Place.draft_give hplace hname,
    Option.pure_def]
  rw [Place.draft_heading place inner (inner ++ [(name, .value json)])]

/-- **The members of a table are read.** -/
theorem reads_memberLines (place : Place) (hplace : place.Fresh) {inner result : Members}
    {members : List (String × Json)}
    (hlines : memberLines? members = some text) (hnamed : Named members)
    (hfresh : ∀ member ∈ members, inner.lookup member.1 = none)
    (h : Reads (place.draft (inner ++ values members)) rest result) :
    Reads (place.draft inner) (text ++ rest) result := by
  induction members generalizing inner text with
  | nil =>
    obtain rfl : [] = text := by simpa [memberLines?] using hlines
    simpa [values] using h
  | cons member members ih =>
    obtain ⟨line, more, hline, hmore, rfl⟩ := memberLines?_cons hlines
    have hnamed' : Named members :=
      ⟨fun other hother => hnamed.bare other (List.mem_cons_of_mem _ hother),
        (List.nodup_cons.mp hnamed.nodup).2⟩
    rcases memberLine?_cases hline with ⟨hnone, rfl⟩ | ⟨hsome, value, hvalue, rfl⟩
    · refine ih hmore hnamed' (fun other hother => hfresh other (.tail _ hother)) ?_
      simpa [values, hnone] using h
    · have hcontent := content?_member (hnamed.bare member (.head _)) hplace
        (hfresh member (.head _)) hvalue (more ++ rest)
      have hothers : ∀ other ∈ members,
          List.lookup other.1 (inner ++ [(member.1, Node.value member.2)]) = none :=
        fun other hother => Members.lookup_append_of_ne (hfresh other (.tail _ hother))
          (fun heq => (List.nodup_cons.mp hnamed.nodup).1 (List.mem_map.mpr ⟨other, hother, heq⟩))
          (.value member.2)
      rw [List.append_assoc, List.append_assoc]
      refine Reads.line hcontent (ih hmore hnamed' hothers ?_)
      simpa [values, hsome] using h

/-! ### Tables -/

/-- A table as the reader keeps it. -/
def headed : String × Json → String × Node
  | (name, .object members) => (name, .table .headed (values members))
  | (name, json) => (name, .value json)

theorem content?_heading {draft : Draft} (hbare : Bare name)
    (hname : draft.members.lookup name = none) (rest : List Char) :
    content? draft (skip ('[' :: name.toList ++ [']'] ++ '\n' :: rest)) =
      some ((Place.under draft.members name).draft [], '\n' :: rest) := by
  have hkey : splitKey? (name.toList ++ ']' :: '\n' :: rest) =
      some (([], name), ']' :: '\n' :: rest) :=
    hbare.splitKey? rfl (by simp [skip, List.dropWhile, isWhite])
  have hhead : draft.members.head [] name =
      some (draft.members ++ [(name, .table .headed [])]) := by
    simp [Members.head, Members.change, hname, Members.put_of_lookup hname]
  obtain ⟨c, more, hcons, hc⟩ := hbare.exists_cons
  have hheading : heading? draft (name.toList ++ ']' :: '\n' :: rest) =
      some ((Place.under draft.members name).draft [], '\n' :: rest) := by
    rw [hcons, List.cons_append] at hkey ⊢
    rw [heading?, hkey]
    · simp [hhead, Reader.word?, Place.draft]
    · rintro rest' ⟨⟩
      cases hc
  simpa [skip, List.dropWhile, isWhite, content?] using hheading

/-- **A table is read.** -/
theorem reads_table {draft : Draft} {result : Members} {table : String × Json}
    (htable : table? table = some text) (hbare : Bare table.1)
    (hnamed : ∀ members, table.2 = .object members → Named members)
    (hname : draft.members.lookup table.1 = none)
    (h : ∀ heading, Reads ⟨draft.members ++ [headed table], heading⟩ rest result) :
    Reads draft (text ++ rest) result := by
  rw [table?.eq_def] at htable
  split at htable
  next name members =>
    obtain ⟨lines, hlines, rfl⟩ := Option.map_eq_some_iff.mp htable
    have hblank : content? draft (skip ([] ++ '\n' :: ('[' :: name.toList ++ [']'] ++
        '\n' :: (lines ++ rest)))) = some (draft, '\n' :: ('[' :: name.toList ++ [']'] ++
        '\n' :: (lines ++ rest))) := rfl
    have hread := Reads.line hblank (Reads.line (content?_heading hbare hname (lines ++ rest))
      (reads_memberLines (.under draft.members name) hname hlines (hnamed members rfl)
        (fun _ _ => rfl) (h [name])))
    simpa using hread
  next => cases htable

/-- **Tables are read** one after the other. -/
theorem reads_tables (draft : Draft) {tables : List (String × Json)} {texts : List (List Char)}
    (htexts : tables.mapM table? = some texts) (hnamed : Named tables)
    (hinner : ∀ table ∈ tables, ∀ members, table.2 = .object members → Named members)
    (hfresh : ∀ table ∈ tables, draft.members.lookup table.1 = none) :
    Reads draft texts.flatten (draft.members ++ tables.map headed) := by
  induction tables generalizing texts draft with
  | nil =>
    obtain rfl : [] = texts := by simpa using htexts
    simpa using reads_end draft
  | cons table tables ih =>
    simp only [List.mapM_cons, Option.bind_eq_bind, Option.pure_def, Option.bind_eq_some_iff,
      Option.some.injEq] at htexts
    obtain ⟨text, htext, more, hmore, rfl⟩ := htexts
    obtain ⟨hnew, hnodup⟩ := List.nodup_cons.mp hnamed.nodup
    refine reads_table htext (hnamed.bare table (.head _)) (hinner table (.head _))
      (hfresh table (.head _)) fun heading => ?_
    have hothers : ∀ other ∈ tables,
        List.lookup other.1 (draft.members ++ [headed table]) = none := by
      intro other hother
      have hne : other.1 ≠ table.1 := fun heq => hnew (List.mem_map.mpr ⟨other, hother, heq⟩)
      have hlookup := hfresh other (.tail _ hother)
      obtain ⟨name, json⟩ := table
      cases json <;> exact Members.lookup_append_of_ne hlookup hne _
    have hread := ih ⟨draft.members ++ [headed table], heading⟩ hmore
      ⟨fun other hother => hnamed.bare other (.tail _ hother), hnodup⟩
      (fun other hother => hinner other (.tail _ hother)) hothers
    simpa using hread

/-! ### Documents -/

/-- The names of a document and of its tables stand for themselves, and none is given twice. -/
structure Regular (members : List (String × Json)) : Prop where
  named : Named members
  tables : ∀ member ∈ members, ∀ inner, member.2 = .object inner → Named inner

/-- A table without the members that have no value. -/
def pruned : Json → Json
  | .object members => .object (members.filter hasValue)
  | json => json

/-- **A document as it is read back**: the members that are no tables first, and all without those
that have no value. -/
def arranged (members : List (String × Json)) : List (String × Json) :=
  (members.filter (!isTable ·)).filter hasValue ++
    (members.filter isTable).map fun (name, json) => (name, pruned json)

theorem membersToJson_eq_map (members : Members) :
    Node.membersToJson members = members.map fun (name, node) => (name, node.toJson) := by
  induction members with
  | nil => rfl
  | cons member members ih =>
    obtain ⟨name, node⟩ := member
    rw [Node.membersToJson, ih]
    rfl

theorem membersToJson_values (members : List (String × Json)) :
    Node.membersToJson (values members) = members.filter hasValue := by
  rw [membersToJson_eq_map, values, List.map_map]
  exact List.map_id _

theorem toJson_headed (table : String × Json) :
    (headed table).2.toJson = pruned table.2 ∧ (headed table).1 = table.1 := by
  obtain ⟨name, json⟩ := table
  cases json with
  | object members => exact ⟨congrArg Json.object (membersToJson_values members), rfl⟩
  | _ => exact ⟨rfl, rfl⟩

theorem toJson_arranged (members : List (String × Json)) :
    Members.toJson (values (members.filter (!isTable ·)) ++ (members.filter isTable).map headed) =
      .object (arranged members) := by
  rw [Members.toJson, membersToJson_eq_map, List.map_append, ← membersToJson_eq_map,
    membersToJson_values, List.map_map, arranged]
  congr 2
  refine List.map_congr_left fun table _ => ?_
  obtain ⟨hjson, hname⟩ := toJson_headed table
  exact Prod.ext hname hjson

/-! ### Documents that can be written -/

/-- A value that is no list or table, and whose number can be written. -/
inductive Plain : Json → Prop
  | null : Plain .null
  | bool (b : Bool) : Plain (.bool b)
  | integer (n : Int) (h : Bits.fitsSigned 64 n = true) : Plain (.integer n)
  | string (text : String) : Plain (.string text)

theorem Plain.exists_memberLine (h : Plain json) (name : String) :
    ∃ line, memberLine? (name, json) = some line := by
  cases h with
  | null => exact ⟨_, rfl⟩
  | bool b => cases b <;> exact ⟨_, rfl⟩
  | integer n h => simp [memberLine?, scalarChars?, h]
  | string text => exact ⟨_, rfl⟩

theorem exists_mapM {α β : Type} {f : α → Option β} {list : List α}
    (h : ∀ a ∈ list, ∃ b, f a = some b) : ∃ found, list.mapM f = some found := by
  induction list with
  | nil => exact ⟨[], rfl⟩
  | cons a list ih =>
    obtain ⟨b, hb⟩ := h a (.head _)
    obtain ⟨found, hfound⟩ := ih fun a ha => h a (.tail _ ha)
    exact ⟨b :: found, by simp [hb, hfound]⟩

theorem exists_memberLines {members : List (String × Json)}
    (h : ∀ member ∈ members, Plain member.2) : ∃ text, memberLines? members = some text := by
  obtain ⟨found, hfound⟩ := exists_mapM fun member hmember =>
    (h member hmember).exists_memberLine member.1
  exact ⟨found.flatten, by rw [memberLines?, hfound, Option.map_some]⟩

/-- **A document is written** if its members are plain values and tables of such. -/
theorem exists_print? {members : List (String × Json)}
    (hscalars : ∀ member ∈ members, isTable member = false → Plain member.2)
    (htables : ∀ member ∈ members, ∀ inner, member.2 = .object inner →
      ∀ entry ∈ inner, Plain entry.2) : ∃ text, print? members = some text := by
  obtain ⟨lines, hlines⟩ : ∃ lines, memberLines? (members.filter (!isTable ·)) = some lines := by
    refine exists_memberLines fun member hmember => ?_
    obtain ⟨hmember, hscalar⟩ := List.mem_filter.mp hmember
    exact hscalars member hmember (by simpa using hscalar)
  obtain ⟨texts, htexts⟩ : ∃ texts, (members.filter isTable).mapM table? = some texts := by
    refine exists_mapM fun member hmember => ?_
    obtain ⟨hmember, htable⟩ := List.mem_filter.mp hmember
    obtain ⟨name, json⟩ := member
    cases json with
    | object inner =>
      obtain ⟨inside, hinside⟩ := exists_memberLines (htables _ hmember inner rfl)
      exact ⟨_, by rw [table?, hinside, Option.map_some]⟩
    | _ => cases htable
  exact ⟨String.ofList (lines ++ texts.flatten), by simp [print?, hlines, htexts]⟩

/-! ### What is read back -/

theorem Named.filter {members : List (String × Json)} (h : Named members)
    (kind : String × Json → Bool) : Named (members.filter kind) where
  bare member hmember := h.bare member (List.mem_filter.mp hmember |>.1)
  nodup := h.nodup.sublist (List.filter_sublist.map Prod.fst)

/-! ### What a document starts with -/

theorem head?_memberLines {members : List (String × Json)} (hnamed : Named members)
    (hlines : memberLines? members = some text) {c : Char} (h : text.head? = some c) :
    isBare c = true := by
  induction members generalizing text with
  | nil =>
    obtain rfl : [] = text := by simpa [memberLines?] using hlines
    cases h
  | cons member members ih =>
    obtain ⟨line, more, hline, hmore, rfl⟩ := memberLines?_cons hlines
    rcases memberLine?_cases hline with ⟨-, rfl⟩ | ⟨-, value, -, rfl⟩
    · exact ih ⟨fun other hother => hnamed.bare other (.tail _ hother),
        (List.nodup_cons.mp hnamed.nodup).2⟩ hmore h
    · obtain ⟨d, rest, hname, hd⟩ := (hnamed.bare member (.head _)).exists_cons
      rw [hname] at h
      cases h
      exact hd

theorem head?_tables {tables : List (String × Json)} {texts : List (List Char)}
    (htexts : tables.mapM table? = some texts) {c : Char} (h : texts.flatten.head? = some c) :
    c = '\n' := by
  cases tables with
  | nil =>
    obtain rfl : [] = texts := by simpa using htexts
    cases h
  | cons table tables =>
    simp only [List.mapM_cons, Option.bind_eq_bind, Option.pure_def, Option.bind_eq_some_iff,
      Option.some.injEq] at htexts
    obtain ⟨text, htext, more, -, rfl⟩ := htexts
    rw [table?.eq_def] at htext
    split at htext
    next =>
      obtain ⟨lines, -, rfl⟩ := Option.map_eq_some_iff.mp htext
      cases h
      rfl
    next => cases htext

/-- A document without a mark of the order of bytes is read line by line. -/
theorem parse?_of_reads {members : Members} (hmark : ∀ c, text.head? = some c → c.toNat ≠ 0xfeff)
    (h : Reads ⟨[], []⟩ text members) : parse? (String.ofList text) = some members.toJson := by
  obtain ⟨draft, hdraft, rfl⟩ :=
    Option.map_eq_some_iff.mp (h (text.length + 1) (Nat.lt_succ_self _))
  cases text with
  | nil =>
    rw [List.length_nil] at hdraft
    simp [parse?, hdraft]
  | cons c rest =>
    rw [List.length_cons] at hdraft
    simp [parse?, hmark c rfl, hdraft]

/-- **A document is read back.** -/
theorem parse?_print? {members : List (String × Json)} (hregular : Regular members)
    {text : String} (h : print? members = some text) :
    parse? text = some (.object (arranged members)) := by
  simp only [print?, Option.bind_eq_bind, Option.pure_def, Option.bind_eq_some_iff,
    Option.some.injEq] at h
  obtain ⟨lines, hlines, texts, htexts, rfl⟩ := h
  have hscalars := hregular.named.filter (!isTable ·)
  have htables := hregular.named.filter isTable
  have hapart : ∀ table ∈ members.filter isTable,
      List.lookup table.1 (values (members.filter (!isTable ·))) = none := by
    intro table htable
    rw [List.lookup_eq_none_iff]
    intro found hfound
    obtain ⟨member, hmember, rfl⟩ := List.mem_map.mp hfound
    obtain ⟨hmember, hscalar⟩ := List.mem_filter.mp (List.mem_filter.mp hmember).1
    obtain ⟨htable, his⟩ := List.mem_filter.mp htable
    refine bne_iff_ne.mpr fun heq => ?_
    rw [List.inj_on_of_nodup_map hregular.named.nodup htable hmember heq] at his
    simp [his] at hscalar
  have hread : Reads ⟨[], []⟩ (lines ++ texts.flatten)
      (values (members.filter (!isTable ·)) ++ (members.filter isTable).map headed) :=
    reads_memberLines .top trivial hlines hscalars (fun _ _ => rfl)
      (reads_tables ⟨values (members.filter (!isTable ·)), []⟩ htexts htables
        (fun table htable => hregular.tables table (List.mem_filter.mp htable).1) hapart)
  have hmark : ∀ c, (lines ++ texts.flatten).head? = some c → c.toNat ≠ 0xfeff := by
    intro c hhead hc
    have hchar : c = Char.ofNat 0xfeff := by rw [← hc, Char.ofNat_toNat]
    rw [List.head?_append, Option.or_eq_some_iff] at hhead
    rcases hhead with hline | ⟨-, htable⟩
    · have hbare := head?_memberLines hscalars hlines hline
      rw [hchar] at hbare
      cases hbare
    · have hline := head?_tables htexts htable
      rw [hchar] at hline
      cases hline
  rw [parse?_of_reads hmark hread, toJson_arranged]

end ProxyUpgrade.Toml
