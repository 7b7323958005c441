import ProxyUpgrade.Json.Printer
import ProxyUpgrade.Proofs.Decimal.Digits
/-!
# Documents are read back

Either text of a document, the compact and the indented one, is read back as the document
(`Json.parse?_text`), as long as nothing in it is written as something else: no number that is kept
as a double, and nothing that was unreadable (`Json.IsExact`). Strings may hold any characters. The
two layouts differ only in the blanks between tokens (`Json.Layout.gap`), which the reader skips, so
one proof does for both.

The reader is bounded by the length of the text, so the statement about it also says how much of
that bound a document needs (`Json.weight`), and that its text is long enough.
-/

namespace ProxyUpgrade.Json

/-! ### Documents that are written as they are -/

mutual

/-- Nothing in a document is written as something else. -/
def IsExact : Json → Prop
  | decimal .. | unreadable => False
  | array items => AreExact items
  | object members => HasExact members
  | null | bool _ | integer _ | string _ => True

/-- The same for items. -/
def AreExact : List Json → Prop
  | [] => True
  | item :: rest => IsExact item ∧ AreExact rest

/-- The same for members. -/
def HasExact : List (String × Json) → Prop
  | [] => True
  | (_, json) :: rest => IsExact json ∧ HasExact rest

end

mutual

/-- What the reader needs of its bound for a document. -/
def weight : Json → Nat
  | array items => 1 + weightItems items
  | object members => 1 + weightMembers members
  | _ => 1

/-- The same for items. -/
def weightItems : List Json → Nat
  | [] => 0
  | item :: rest => 1 + weight item + weightItems rest

/-- The same for members. -/
def weightMembers : List (String × Json) → Nat
  | [] => 0
  | (_, json) :: rest => 1 + weight json + weightMembers rest

end

theorem areExact_iff {items : List Json} : AreExact items ↔ ∀ item ∈ items, item.IsExact := by
  induction items with
  | nil => simp [AreExact]
  | cons item rest ih => simp [AreExact, ih]

theorem hasExact_iff {members : List (String × Json)} :
    HasExact members ↔ ∀ member ∈ members, member.2.IsExact := by
  induction members with
  | nil => simp [HasExact]
  | cons member rest ih => simp [HasExact, ih]

/-! ### Layouts -/

/-- How a document is laid out. -/
inductive Layout where
  /-- Without any blank. -/
  | compact
  /-- Indented, each item and member on a line of its own. -/
  | indented

namespace Layout

/-- The text of a document on a line of a given indentation. -/
def chars : Layout → Nat → Json → List Char
  | compact, _ => compactChars
  | indented, indent => prettyChars indent

/-- Further items. -/
def itemsChars : Layout → Nat → List Json → List Char
  | compact, _ => compactItems
  | indented, indent => prettyItems indent

/-- Further members. -/
def membersChars : Layout → Nat → List (String × Json) → List Char
  | compact, _ => compactMembers
  | indented, indent => prettyMembers indent

/-- What is between tokens where a line may end. -/
def gap : Layout → Nat → List Char
  | compact, _ => []
  | indented, indent => newLine indent

/-- What is between a colon and a value. -/
def space : Layout → List Char
  | compact => []
  | indented => [' ']

/-- The text of a document. -/
def text : Layout → Json → String
  | compact => Json.compact
  | indented => Json.pretty

variable (layout : Layout) (indent : Nat)

theorem toList_text (json : Json) : (layout.text json).toList = layout.chars 0 json := by
  cases layout <;> simp [text, chars, Json.compact, pretty]

/-- What has no parts is written in one way. -/
theorem chars_eq_compact {json : Json} (harray : ∀ item more, json ≠ array (item :: more))
    (hobject : ∀ member more, json ≠ object (member :: more)) :
    layout.chars indent json = compactChars json := by
  rcases layout
  · rfl
  rcases json with - | b | n | ⟨negative, mantissa, exponent⟩ | text | (- | ⟨item, more⟩) |
    (- | ⟨member, more⟩) | -
  all_goals first
    | exact absurd rfl (harray _ _)
    | exact absurd rfl (hobject _ _)
    | simp [chars, prettyChars, compactChars]

theorem chars_array (item : Json) (more : List Json) :
    layout.chars indent (array (item :: more)) = '[' :: (layout.gap (indent + 1) ++
      (layout.chars (indent + 1) item ++ (layout.itemsChars (indent + 1) more ++
        (layout.gap indent ++ [']'])))) := by
  cases layout <;> simp [chars, itemsChars, gap, prettyChars, compactChars]

theorem chars_object (name : String) (json : Json) (more : List (String × Json)) :
    layout.chars indent (object ((name, json) :: more)) = '\x7b' :: (layout.gap (indent + 1) ++
      (quote name ++ ':' :: (layout.space ++ (layout.chars (indent + 1) json ++
        (layout.membersChars (indent + 1) more ++ (layout.gap indent ++ ['\x7d'])))))) := by
  cases layout <;> simp [chars, membersChars, gap, space, prettyChars, compactChars]

theorem itemsChars_nil : layout.itemsChars indent [] = [] := by
  cases layout <;> rfl

theorem itemsChars_cons (item : Json) (more : List Json) :
    layout.itemsChars indent (item :: more) = ',' :: (layout.gap indent ++
      (layout.chars indent item ++ layout.itemsChars indent more)) := by
  cases layout <;> simp [chars, itemsChars, gap, prettyItems, compactItems]

theorem membersChars_nil : layout.membersChars indent [] = [] := by
  cases layout <;> rfl

theorem membersChars_cons (name : String) (json : Json) (more : List (String × Json)) :
    layout.membersChars indent ((name, json) :: more) = ',' :: (layout.gap indent ++
      (quote name ++ ':' :: (layout.space ++ (layout.chars indent json ++
        layout.membersChars indent more)))) := by
  cases layout <;> simp [chars, membersChars, gap, space, prettyMembers, compactMembers]

end Layout

/-! ### Strings -/

/-- Control characters are read back from their digits. -/
theorem unit?_controlDigits {n : Nat} (h : n < 32) :
    ∃ a b, controlDigits n = [a, b] ∧ unit? '0' '0' a b = some n := by
  have hall : ∀ m ∈ List.range 32, unit? '0' '0' (Char.ofNat (48 + m / 16))
      (if m % 16 < 10 then Char.ofNat (48 + m % 16) else Char.ofNat (87 + m % 16)) = some m := by
    decide
  exact ⟨_, _, rfl, hall n (List.mem_range.mpr h)⟩

/-- **One character is read back**, whichever way it is written. -/
theorem stringTail_escapeChar (c : Char) (text : List Char) :
    stringTail (escapeChar c ++ text) =
      (stringTail text).map fun (pieces, after) => (.char c :: pieces, after) := by
  by_cases hletter : c ∈ ['"', '\\', '\x08', '\x0c', '\n', '\r', '\t']
  · have hread : ∃ d, escapeChar c = ['\\', d] ∧ d ≠ 'u' ∧ escape? d = some c := by
      simp only [List.mem_cons, List.not_mem_nil, or_false] at hletter
      rcases hletter with rfl | rfl | rfl | rfl | rfl | rfl | rfl <;> exact ⟨_, rfl, by decide, rfl⟩
    obtain ⟨d, hescape, hne, hd⟩ := hread
    rcases htail : stringTail text with - | ⟨pieces, after⟩
    · simp [hescape, stringTail, hne, hd, htail]
    · simp [hescape, stringTail, hne, hd, htail]
  simp only [List.mem_cons, List.not_mem_nil, or_false, not_or] at hletter
  obtain ⟨hquote, hslash, hb, hf, hn, hr, ht⟩ := hletter
  by_cases hcontrol : c.toNat < 0x20
  · obtain ⟨a, b, hdigits, hunit⟩ := unit?_controlDigits hcontrol
    have hpiece : Piece.ofUnit c.toNat = .char c := by
      rw [Piece.ofUnit, if_neg (by omega), Char.ofNat_toNat]
    have hescape : escapeChar c = ['\\', 'u', '0', '0', a, b] := by
      simp [escapeChar, hquote, hslash, hb, hf, hn, hr, ht, hcontrol, hdigits]
    rcases htail : stringTail text with - | ⟨pieces, after⟩
    · simp [hescape, stringTail, hunit, htail]
    · simp [hescape, stringTail, hunit, hpiece, htail]
  · have hescape : escapeChar c = [c] := by
      simp [escapeChar, hquote, hslash, hb, hf, hn, hr, ht, hcontrol]
    have hplain : ¬ (c.toNat < 0x20 ∨ c = '\\') := by simp [hslash, hcontrol]
    rw [hescape, List.singleton_append, stringTail, if_neg hplain]
    · rcases stringTail text with - | ⟨pieces, after⟩ <;> rfl
    · simpa using hquote
    · simp [hslash]
    · simp [hslash]

theorem stringTail_escape (text rest : List Char) :
    stringTail (text.flatMap escapeChar ++ '"' :: rest) = some (text.map .char, rest) := by
  induction text with
  | nil => rfl
  | cons c text ih =>
    rw [List.flatMap_cons, List.append_assoc, stringTail_escapeChar, ih]
    rfl

theorem wholeText?_char (text : List Char) :
    wholeText? (text.map .char) = some (String.ofList text) := by
  have hchars : wholeChars? (text.map .char) = some text := by
    induction text with
    | nil => rfl
    | cons c text ih => simp [wholeChars?, ih]
  simp [wholeText?, hchars]

/-! ### Blanks -/

theorem skip_cons {c : Char} (h : isSpace c = false) (rest : List Char) :
    skip (c :: rest) = c :: rest := by
  simp [skip, h]

theorem skip_space (rest : List Char) : skip (' ' :: rest) = skip rest := rfl

theorem skip_newLine (indent : Nat) (rest : List Char) :
    skip (newLine indent ++ rest) = skip rest := by
  have hspaces (n : Nat) : skip (List.replicate n ' ' ++ rest) = skip rest := by
    induction n with
    | zero => rfl
    | succ n ih =>
      rw [List.replicate_succ, List.cons_append, skip_space]
      exact ih
  exact hspaces (2 * indent)

theorem skip_gap (layout : Layout) (indent : Nat) (rest : List Char) :
    skip (layout.gap indent ++ rest) = skip rest := by
  cases layout
  · rfl
  · exact skip_newLine indent rest

/-- A value may be preceded by blanks. -/
theorem value_of_skip {text text' : List Char} (h : skip text = skip text') (fuel : Nat) :
    value fuel text = value fuel text' := by
  cases fuel with
  | zero => rw [value, value]
  | succ fuel => rw [value, value, h]

/-! ### Numbers -/

/-- A text in which no number goes on. -/
def Ends (text : List Char) : Prop :=
  ∀ c ∈ text.head?, isDigit c = false ∧ c ≠ '.' ∧ c ≠ 'e' ∧ c ≠ 'E'

theorem takeWhile_digits {digits rest : List Char} (h : ∀ c ∈ digits, isDigit c = true)
    (hrest : Ends rest) : (digits ++ rest).takeWhile isDigit = digits := by
  rw [List.takeWhile_append_of_pos h]
  cases rest with
  | nil => simp
  | cons c rest => simp [(hrest c (by simp)).1]

theorem dropWhile_digits {digits rest : List Char} (h : ∀ c ∈ digits, isDigit c = true)
    (hrest : Ends rest) : (digits ++ rest).dropWhile isDigit = rest := by
  rw [List.dropWhile_append_of_pos h]
  cases rest with
  | nil => rfl
  | cons c rest => simp [(hrest c (by simp)).1]

theorem fractionPart?_ends {rest : List Char} (h : Ends rest) :
    fractionPart? rest = some (none, rest) := by
  cases rest with
  | nil => rfl
  | cons c rest =>
    have hc := (h c (by simp)).2.1
    rw [fractionPart?]
    simpa using hc

theorem exponentPart?_ends {rest : List Char} (h : Ends rest) :
    exponentPart? rest = some (none, rest) := by
  cases rest with
  | nil => rfl
  | cons c rest =>
    obtain ⟨-, -, he, hE⟩ := h c (by simp)
    simp [exponentPart?, he, hE]

/-- **Digits are read back**, whatever the sign before them. -/
theorem unsigned_toDigits (negative : Bool) (n : Nat) (hsign : negative = true → n ≠ 0)
    {rest : List Char} (hrest : Ends rest) :
    unsigned negative (Nat.toDigits 10 n ++ rest) =
      some (integer (if negative then -Int.ofNat n else Int.ofNat n), rest) := by
  have hdigits : ∀ c ∈ Nat.toDigits 10 n, isDigit c = true := fun c hc =>
    Decimal.isDigit_of_mem_toDigits hc
  have hlong : ¬ ((Nat.toDigits 10 n).isEmpty ∨
      (Nat.toDigits 10 n).head? = some '0' ∧ 1 < (Nat.toDigits 10 n).length) := by
    rintro (hempty | ⟨hzero, hlength⟩)
    · exact Nat.toDigits_ne_nil (List.isEmpty_iff.mp hempty)
    · rw [Decimal.eq_zero_of_head?_toDigits hzero, Nat.toDigits_zero] at hlength
      exact absurd hlength (by decide)
  have hvalue : digitsValue (Nat.toDigits 10 n) = n := Decimal.foldl_toDigits n
  have hnonzero : ¬ (negative = true ∧ n = 0) := fun h => hsign h.1 h.2
  simp only [unsigned, takeWhile_digits hdigits hrest, dropWhile_digits hdigits hrest,
    fractionPart?_ends hrest, exponentPart?_ends hrest, hvalue, if_neg hlong, if_neg hnonzero,
    Option.bind_eq_bind, Option.bind_some]
  rfl

theorem isSpace_of_isDigit {c : Char} (h : isDigit c = true) : isSpace c = false := by
  by_contra hspace
  simp only [Bool.not_eq_false, isSpace, Bool.or_eq_true, decide_eq_true_eq] at hspace
  rcases hspace with ((rfl | rfl) | rfl) | rfl <;> exact absurd h (by decide)

/-- A value that starts with a digit is a number. -/
theorem value_digit {c : Char} (h : isDigit c = true) (fuel : Nat) (rest : List Char) :
    value (fuel + 1) (c :: rest) = unsigned false (c :: rest) := by
  rw [value, skip_cons (isSpace_of_isDigit h)]
  split
  all_goals first
    | rfl
    | next heq => cases heq; exact absurd h (by decide)
    | next heq => cases heq

theorem value_integer (n : Int) (fuel : Nat) {rest : List Char} (hrest : Ends rest) :
    value (fuel + 1) (integerChars n ++ rest) = some (integer n, rest) := by
  rw [integerChars]
  split
  next hneg =>
    have hread := unsigned_toDigits true n.natAbs (by omega) hrest
    have hvalue : -Int.ofNat n.natAbs = n := by
      simp only [Int.ofNat_eq_natCast]
      omega
    rw [if_pos rfl, hvalue] at hread
    rw [List.cons_append, value, skip_cons (by rfl)]
    exact hread
  next hpos =>
    have hread := unsigned_toDigits false n.natAbs (by simp) hrest
    have hvalue : Int.ofNat n.natAbs = n := by
      simp only [Int.ofNat_eq_natCast]
      omega
    rw [if_neg Bool.false_ne_true, hvalue] at hread
    obtain ⟨c, more, hdigits⟩ := List.exists_cons_of_ne_nil
      (Nat.toDigits_ne_nil (b := 10) (n := n.natAbs))
    have hc : isDigit c = true :=
      Decimal.isDigit_of_mem_toDigits (n := n.natAbs) (hdigits ▸ List.mem_cons_self)
    rw [hdigits] at hread ⊢
    rw [List.cons_append, value_digit hc]
    exact hread

/-! ### Whole documents -/

theorem ends_nil : Ends [] := by simp [Ends]

theorem ends_cons {c : Char} (h : isDigit c = false ∧ c ≠ '.' ∧ c ≠ 'e' ∧ c ≠ 'E')
    (rest : List Char) : Ends (c :: rest) := by
  simpa [Ends] using h

/-- Where a line may end, no number goes on. -/
theorem ends_gap (layout : Layout) (indent : Nat) {c : Char}
    (h : isDigit c = false ∧ c ≠ '.' ∧ c ≠ 'e' ∧ c ≠ 'E') (rest : List Char) :
    Ends (layout.gap indent ++ c :: rest) := by
  cases layout
  · exact ends_cons h rest
  · exact ends_cons (by decide) _

/-- A document starts with no blank and no closing bracket. -/
theorem head_chars (layout : Layout) {json : Json} (h : json.IsExact) (indent : Nat) :
    ∃ c rest, layout.chars indent json = c :: rest ∧ isSpace c = false ∧ c ≠ ']' := by
  cases json with
  | array items =>
    cases items with
    | nil => exact ⟨_, _, layout.chars_eq_compact indent (by simp) (by simp), rfl, by decide⟩
    | cons item more => exact ⟨_, _, layout.chars_array indent item more, rfl, by decide⟩
  | object members =>
    cases members with
    | nil => exact ⟨_, _, layout.chars_eq_compact indent (by simp) (by simp), rfl, by decide⟩
    | cons member more => exact ⟨_, _, layout.chars_object indent _ _ more, rfl, by decide⟩
  | decimal negative mantissa exponent => exact h.elim
  | unreadable => exact h.elim
  | integer n =>
    obtain ⟨c, more, hdigits⟩ := List.exists_cons_of_ne_nil
      (Nat.toDigits_ne_nil (b := 10) (n := n.natAbs))
    have hc : isDigit c = true :=
      Decimal.isDigit_of_mem_toDigits (n := n.natAbs) (hdigits ▸ List.mem_cons_self)
    rw [layout.chars_eq_compact indent (by simp) (by simp), compactChars, integerChars]
    split
    · exact ⟨_, _, rfl, rfl, by decide⟩
    · refine ⟨c, more, hdigits, isSpace_of_isDigit hc, ?_⟩
      rintro rfl
      exact absurd hc (by decide)
  | bool b =>
    rw [layout.chars_eq_compact indent (by simp) (by simp)]
    cases b <;> exact ⟨_, _, rfl, rfl, by decide⟩
  | null | string text =>
    exact ⟨_, _, layout.chars_eq_compact indent (by simp) (by simp), rfl, by decide⟩

/-- An item is read, and a comma leads on to the next. -/
theorem items_step {fuel : Nat} {text rest next after : List Char} {item : Json} {more : List Json}
    (hitem : value fuel text = some (item, rest)) (hcomma : skip rest = ',' :: next)
    (hmore : items fuel next = some (more, after)) :
    items (fuel + 1) text = some (item :: more, after) := by
  simp [items, hitem, hcomma, hmore]

/-- The last item is read. -/
theorem items_end {fuel : Nat} {text rest after : List Char} {item : Json}
    (hitem : value fuel text = some (item, rest)) (hbracket : skip rest = ']' :: after) :
    items (fuel + 1) text = some ([item], after) := by
  simp [items, hitem, hbracket]

/-- A member is read, and a comma leads on to the next. -/
theorem members_step {fuel : Nat} {text body rest next after : List Char} {name : String}
    {json : Json} {more : List (Option String × Json)}
    (hname : skip text = quote name ++ ':' :: body) (hjson : value fuel body = some (json, rest))
    (hcomma : skip rest = ',' :: next) (hmore : members fuel next = some (more, after)) :
    members (fuel + 1) text = some ((some name, json) :: more, after) := by
  rw [quote, List.append_assoc, List.cons_append] at hname
  have hread := stringTail_escape name.toList (':' :: body)
  have hcolon : skip (':' :: body) = ':' :: body := skip_cons (by rfl) body
  simp only [members, hname, List.singleton_append, hread, Option.bind_eq_bind, Option.bind_some,
    hcolon, hjson, hcomma, hmore, wholeText?_char, String.ofList_toList]
  rfl

/-- The last member is read. -/
theorem members_end {fuel : Nat} {text body rest after : List Char} {name : String} {json : Json}
    (hname : skip text = quote name ++ ':' :: body) (hjson : value fuel body = some (json, rest))
    (hbrace : skip rest = '\x7d' :: after) :
    members (fuel + 1) text = some ([(some name, json)], after) := by
  rw [quote, List.append_assoc, List.cons_append] at hname
  have hread := stringTail_escape name.toList (':' :: body)
  have hcolon : skip (':' :: body) = ':' :: body := skip_cons (by rfl) body
  simp only [members, hname, List.singleton_append, hread, Option.bind_eq_bind, Option.bind_some,
    hcolon, hjson, hbrace, wholeText?_char, String.ofList_toList]
  rfl

theorem ofMembers_some (members : List (String × Json)) :
    ofMembers (members.map (Prod.map some id)) = object members := by
  have hmap : (members.map (Prod.map some id)).mapM
      (fun member : Option String × Json => member.1.map (·, member.2)) = some members := by
    induction members with
    | nil => rfl
    | cons member rest ih => simp [List.mapM_cons, ih]
  rw [ofMembers]
  split
  next found hfound => rw [Option.some.inj (hfound.symm.trans hmap)]
  next hnone => cases hnone.symm.trans hmap

theorem value_string (text : String) (fuel : Nat) (rest : List Char) :
    value (fuel + 1) (quote text ++ rest) = some (string text, rest) := by
  have hread := stringTail_escape text.toList rest
  rw [quote, List.append_assoc, List.cons_append, value, skip_cons (by rfl)]
  simp only [List.singleton_append, hread, Option.bind_eq_bind, Option.bind_some, wholeText?_char,
    String.ofList_toList]
  rfl

/-- An array whose items are read is read. -/
theorem value_array {fuel : Nat} {text after : List Char} {items : List Json}
    (hopen : ∀ rest, skip text ≠ ']' :: rest)
    (hitems : Json.items fuel text = some (items, after)) :
    value (fuel + 1) ('[' :: text) = some (array items, after) := by
  have hbracket : isSpace '[' = false := rfl
  simp only [value, skip_cons hbracket, hitems]
  rfl

/-- An object whose members are read is read. -/
theorem value_object {fuel : Nat} {text after : List Char} (members : List (String × Json))
    (hopen : ∀ rest, skip text ≠ '\x7d' :: rest)
    (hmembers : Json.members fuel text =
      some (members.map (Prod.map some id), after)) :
    value (fuel + 1) ('\x7b' :: text) = some (object members, after) := by
  have hbrace : isSpace '\x7b' = false := rfl
  simp only [value, skip_cons hbrace, hmembers, Option.bind_eq_bind, Option.bind_some,
    ofMembers_some]
  rfl

mutual

/-- **A document is read back**, whatever follows its text. -/
theorem value_chars (layout : Layout) (json : Json) (h : json.IsExact) (indent fuel : Nat)
    (rest : List Char) (hfuel : weight json ≤ fuel) (hrest : Ends rest) :
    value fuel (layout.chars indent json ++ rest) = some (json, rest) := by
  have hpos : 0 < weight json := by cases json <;> simp [weight]
  obtain ⟨fuel, rfl⟩ := Nat.exists_eq_add_one.mpr (hpos.trans_le hfuel)
  cases json with
  | array items =>
    cases items with
    | nil =>
      rw [layout.chars_eq_compact indent (by simp) (by simp)]
      rfl
    | cons item more =>
      rw [weight] at hfuel
      have hitems := items_chars layout item more h.1 h.2 (indent + 1) indent fuel rest (by omega)
      obtain ⟨c, tail, hc, hspace, hne⟩ := head_chars layout h.1 (indent + 1)
      have hopen := value_array ?_ hitems
      · simpa [layout.chars_array] using hopen
      · intro rest'
        rw [skip_gap, hc, List.cons_append, skip_cons hspace]
        simp [hne]
  | object members =>
    cases members with
    | nil =>
      rw [layout.chars_eq_compact indent (by simp) (by simp)]
      rfl
    | cons member more =>
      cases member with
      | mk name json =>
        rw [weight] at hfuel
        have hmembers := members_chars layout name json more h.1 h.2 (indent + 1) indent fuel rest
          (by omega)
        have hopen := value_object ((name, json) :: more) ?_ hmembers
        · simpa [layout.chars_object] using hopen
        · intro rest'
          rw [skip_gap, quote, List.append_assoc, List.cons_append, skip_cons (by rfl)]
          simp
  | decimal negative mantissa exponent => exact h.elim
  | unreadable => exact h.elim
  | null =>
    rw [layout.chars_eq_compact indent (by simp) (by simp)]
    rfl
  | bool b =>
    rw [layout.chars_eq_compact indent (by simp) (by simp)]
    cases b <;> rfl
  | integer n =>
    rw [layout.chars_eq_compact indent (by simp) (by simp)]
    simpa [compactChars] using value_integer n fuel hrest
  | string text =>
    rw [layout.chars_eq_compact indent (by simp) (by simp)]
    simpa [compactChars] using value_string text fuel rest
termination_by sizeOf json

/-- The items of an array are read back. -/
theorem items_chars (layout : Layout) (item : Json) (more : List Json) (h : item.IsExact)
    (hmore : AreExact more) (indent outer fuel : Nat) (rest : List Char)
    (hfuel : weightItems (item :: more) ≤ fuel) :
    items fuel (layout.gap indent ++ (layout.chars indent item ++ (layout.itemsChars indent more ++
      (layout.gap outer ++ ']' :: rest)))) = some (item :: more, rest) := by
  rw [weightItems] at hfuel
  obtain ⟨fuel, rfl⟩ := Nat.exists_eq_add_one.mpr (show 0 < fuel by omega)
  cases more with
  | nil =>
    have hitem := value_chars layout item h indent fuel (layout.gap outer ++ ']' :: rest) (by omega)
      (ends_gap layout outer (by decide) _)
    rw [← value_of_skip (skip_gap layout indent _)] at hitem
    rw [layout.itemsChars_nil, List.nil_append]
    exact items_end hitem (skip_gap layout outer _)
  | cons next more =>
    have hitem := value_chars layout item h indent fuel (layout.itemsChars indent (next :: more) ++
      (layout.gap outer ++ ']' :: rest)) (by omega)
      (layout.itemsChars_cons indent next more ▸ ends_cons (by decide) _)
    rw [← value_of_skip (skip_gap layout indent _)] at hitem
    have hnext := items_chars layout next more hmore.1 hmore.2 indent outer fuel rest (by omega)
    rw [layout.itemsChars_cons] at hitem ⊢
    refine items_step hitem (skip_cons (by rfl) _) ?_
    simpa using hnext
termination_by sizeOf (item :: more)

/-- The members of an object are read back. -/
theorem members_chars (layout : Layout) (name : String) (json : Json)
    (more : List (String × Json)) (h : json.IsExact) (hmore : HasExact more)
    (indent outer fuel : Nat) (rest : List Char)
    (hfuel : weightMembers ((name, json) :: more) ≤ fuel) :
    members fuel (layout.gap indent ++ (quote name ++ ':' :: (layout.space ++
      (layout.chars indent json ++ (layout.membersChars indent more ++
        (layout.gap outer ++ '\x7d' :: rest)))))) =
          some (((name, json) :: more).map (Prod.map some id), rest) := by
  rw [weightMembers] at hfuel
  obtain ⟨fuel, rfl⟩ := Nat.exists_eq_add_one.mpr (show 0 < fuel by omega)
  have hname (body : List Char) :
      skip (layout.gap indent ++ (quote name ++ ':' :: body)) = quote name ++ ':' :: body := by
    rw [skip_gap, quote, List.append_assoc, List.cons_append, skip_cons (by rfl)]
  have hspace (body : List Char) : skip (layout.space ++ body) = skip body := by
    cases layout <;> rfl
  cases more with
  | nil =>
    have hjson := value_chars layout json h indent fuel (layout.gap outer ++ '\x7d' :: rest)
      (by omega) (ends_gap layout outer (by decide) _)
    rw [← value_of_skip (hspace _)] at hjson
    rw [layout.membersChars_nil, List.nil_append]
    exact members_end (hname _) hjson (skip_gap layout outer _)
  | cons next more =>
    cases next with
    | mk name' json' =>
      have hjson := value_chars layout json h indent fuel
        (layout.membersChars indent ((name', json') :: more) ++
          (layout.gap outer ++ '\x7d' :: rest))
        (by omega) (layout.membersChars_cons indent name' json' more ▸ ends_cons (by decide) _)
      rw [← value_of_skip (hspace _)] at hjson
      have hnext := members_chars layout name' json' more hmore.1 hmore.2 indent outer fuel rest
        (by omega)
      rw [layout.membersChars_cons] at hjson ⊢
      refine members_step (hname _) hjson (skip_cons (by rfl) _) ?_
      simpa using hnext
termination_by sizeOf ((name, json) :: more)

end

/-! ### The bound suffices -/

mutual

theorem weight_le (layout : Layout) (json : Json) (h : json.IsExact) (indent : Nat) :
    weight json ≤ 2 * (layout.chars indent json).length := by
  cases json with
  | array items =>
    cases items with
    | nil =>
      rw [layout.chars_eq_compact indent (by simp) (by simp)]
      simp [weight, weightItems, compactChars]
    | cons item more =>
      have hitem := weight_le layout item h.1 (indent + 1)
      have hmore := weightItems_le layout more h.2 (indent + 1)
      simp only [weight, weightItems, layout.chars_array, List.length_append, List.length_cons]
      omega
  | object members =>
    cases members with
    | nil =>
      rw [layout.chars_eq_compact indent (by simp) (by simp)]
      simp [weight, weightMembers, compactChars]
    | cons member more =>
      cases member with
      | mk name json =>
        have hjson := weight_le layout json h.1 (indent + 1)
        have hmore := weightMembers_le layout more h.2 (indent + 1)
        simp only [weight, weightMembers, layout.chars_object, List.length_append,
          List.length_cons]
        omega
  | decimal negative mantissa exponent => exact h.elim
  | unreadable => exact h.elim
  | null | bool _ | integer _ | string _ =>
    obtain ⟨c, rest, hc, -⟩ := head_chars layout h indent
    rw [hc, weight, List.length_cons]
    all_goals first
      | omega
      | simp
termination_by sizeOf json

theorem weightItems_le (layout : Layout) (items : List Json) (h : AreExact items) (indent : Nat) :
    weightItems items ≤ 2 * (layout.itemsChars indent items).length := by
  cases items with
  | nil => simp [weightItems]
  | cons item more =>
    have hitem := weight_le layout item h.1 indent
    have hmore := weightItems_le layout more h.2 indent
    simp only [weightItems, layout.itemsChars_cons, List.length_append, List.length_cons]
    omega
termination_by sizeOf items

theorem weightMembers_le (layout : Layout) (members : List (String × Json)) (h : HasExact members)
    (indent : Nat) : weightMembers members ≤ 2 * (layout.membersChars indent members).length := by
  cases members with
  | nil => simp [weightMembers]
  | cons member more =>
    cases member with
    | mk name json =>
      have hjson := weight_le layout json h.1 indent
      have hmore := weightMembers_le layout more h.2 indent
      simp only [weightMembers, layout.membersChars_cons, List.length_append, List.length_cons]
      omega
termination_by sizeOf members

end

/-- **Either text of a document is read back as the document.** -/
theorem parse?_text (layout : Layout) {json : Json} (h : json.IsExact) :
    parse? (layout.text json) = some json := by
  have hfuel : weight json ≤ 2 * (layout.chars 0 json).length + 2 := by
    have := weight_le layout json h 0
    omega
  have hvalue := value_chars layout json h 0 _ [] hfuel ends_nil
  rw [List.append_nil] at hvalue
  rw [parse?, layout.toList_text, hvalue]
  rfl

/-- The indented text of a document is read back as the document. -/
theorem parse?_pretty {json : Json} (h : json.IsExact) : parse? json.pretty = some json :=
  parse?_text .indented h

end ProxyUpgrade.Json
