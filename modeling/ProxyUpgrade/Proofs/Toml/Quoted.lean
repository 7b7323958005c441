import ProxyUpgrade.Toml.Quoted
/-!
# Strings of TOML are read back

The writer chooses between five ways to mark a string. Whichever it takes, the reader finds the same
string between the marks (`string?_quote`): every character is read back from what is written for
it, and nothing before the last mark is taken for one.
-/

namespace ProxyUpgrade.Toml

variable {c : Char} {text rest : List Char}

/-- A character that stands for itself does not end a line. -/
theorem ne_of_isPlain (h : isPlain c = true) : c ≠ '\n' ∧ c ≠ '\r' := by
  constructor <;> rintro rfl <;> cases h

/-! ### Escapes -/

/-- A control character is found by its number in hexadecimal digits. -/
theorem numbered?_hexDigit (h : c.toNat < 0x80) :
    numbered? ['0', '0', hexDigit (c.toNat / 16), hexDigit (c.toNat % 16)] = some c := by
  have hall : ∀ n < 0x80, numbered? ['0', '0', hexDigit (n / 16), hexDigit (n % 16)] =
      some (Char.ofNat n) := by decide +kernel
  rw [hall c.toNat h, Char.ofNat_toNat]

/-- The letters that are written after a backslash. -/
def letters : List Char := ['b', 't', 'n', 'f', 'r', '"', '\\']

/-- **What is written for a character**: a backslash and a letter, its number, or the character
itself, which then is no mark. -/
theorem escapeChar_cases (c : Char) :
    (∃ letter ∈ letters, escapeChar c = ['\\', letter] ∧ escape? letter = some c) ∨
    (escapeChar c = ['\\', 'u', '0', '0', hexDigit (c.toNat / 16), hexDigit (c.toNat % 16)] ∧
      c.toNat < 0x80) ∨
    (escapeChar c = [c] ∧ c ≠ '"' ∧ c ≠ '\\' ∧ isPlain c = true) := by
  have hletter {special : Char} (letter : Char) (hmem : letter ∈ letters)
      (hescape : escape? letter = some special) (hwritten : escapeChar special = ['\\', letter])
      (h : c = special) : ∃ letter ∈ letters, escapeChar c = ['\\', letter] ∧
        escape? letter = some c := h ▸ ⟨letter, hmem, hwritten, hescape⟩
  by_cases hb : c = '\x08'
  · exact .inl (hletter 'b' (by decide) rfl rfl hb)
  by_cases ht : c = '\t'
  · exact .inl (hletter 't' (by decide) rfl rfl ht)
  by_cases hn : c = '\n'
  · exact .inl (hletter 'n' (by decide) rfl rfl hn)
  by_cases hf : c = '\x0c'
  · exact .inl (hletter 'f' (by decide) rfl rfl hf)
  by_cases hr : c = '\r'
  · exact .inl (hletter 'r' (by decide) rfl rfl hr)
  by_cases hq : c = '"'
  · exact .inl (hletter '"' (by decide) rfl rfl hq)
  by_cases hs : c = '\\'
  · exact .inl (hletter '\\' (by decide) rfl rfl hs)
  by_cases hcontrol : c.toNat < 0x20 ∨ c.toNat = 0x7f
  · exact .inr (.inl ⟨by simp only [escapeChar, hb, ht, hn, hf, hr, hq, hs, hcontrol, if_true,
      if_false], by omega⟩)
  · refine .inr (.inr ⟨by simp only [escapeChar, hb, ht, hn, hf, hr, hq, hs, hcontrol, if_false],
      hq, hs, ?_⟩)
    simp only [isPlain, Bool.or_eq_true, Bool.and_eq_true, decide_eq_true_eq]
    omega

/-! ### Between double quotes -/

theorem basicTail_escapeChar (c : Char) (rest : List Char) :
    basicTail (escapeChar c ++ rest) = after c (basicTail rest) := by
  rcases escapeChar_cases c with ⟨letter, hmem, hwritten, hescape⟩ | ⟨hwritten, hcontrol⟩ |
    ⟨hwritten, hquote, hslash, hplain⟩
  · have hstep : basicTail ('\\' :: letter :: rest) =
        (escape? letter).bind fun e => after e (basicTail rest) := by
      simp only [letters, List.mem_cons, List.not_mem_nil, or_false] at hmem
      rcases hmem with rfl | rfl | rfl | rfl | rfl | rfl | rfl <;> rfl
    rw [hwritten]
    exact hstep.trans (by rw [hescape, Option.bind_some])
  · rw [hwritten]
    change (numbered? _).bind _ = _
    rw [numbered?_hexDigit hcontrol, Option.bind_some]
    rfl
  · rw [hwritten, List.singleton_append, basicTail] <;> simp [hquote, hslash, hplain]

theorem basicTail_flatMap (text rest : List Char) :
    basicTail (text.flatMap escapeChar ++ '"' :: rest) = some (text, rest) := by
  induction text with
  | nil => rfl
  | cons c text ih =>
    rw [List.flatMap_cons, List.append_assoc, basicTail_escapeChar, ih]
    rfl

theorem basicLines_escapeInLines (c : Char) (rest : List Char) :
    basicLines false (escapeInLines c ++ rest) = after c (basicLines false rest) := by
  rw [escapeInLines]
  split
  next h =>
    subst h
    rfl
  next hline =>
    rcases escapeChar_cases c with ⟨letter, hmem, hwritten, hescape⟩ | ⟨hwritten, hcontrol⟩ |
      ⟨hwritten, hquote, hslash, hplain⟩
    · have hstep : basicLines false ('\\' :: letter :: rest) =
          (escape? letter).bind fun e => after e (basicLines false rest) := by
        simp only [letters, List.mem_cons, List.not_mem_nil, or_false] at hmem
        rcases hmem with rfl | rfl | rfl | rfl | rfl | rfl | rfl <;> rfl
      rw [hwritten]
      exact hstep.trans (by rw [hescape, Option.bind_some])
    · rw [hwritten]
      change (numbered? _).bind _ = _
      rw [numbered?_hexDigit hcontrol, Option.bind_some]
      rfl
    · rw [hwritten, List.singleton_append, basicLines] <;>
        simp [hquote, hslash, hplain, hline, (ne_of_isPlain hplain).2]

theorem closing_of_line (mark : Char) (h : mark ≠ '\n') (rest : List Char) :
    closing mark ('\n' :: rest) = ([], '\n' :: rest) := by
  cases rest <;> simp [closing, h.symm]

theorem basicLines_flatMap (text rest : List Char) :
    basicLines false (text.flatMap escapeInLines ++ basicMark ++ '\n' :: rest) =
      some (text, '\n' :: rest) := by
  induction text with
  | nil => exact congrArg some (closing_of_line '"' (by decide) rest)
  | cons c text ih =>
    rw [List.flatMap_cons, List.append_assoc, List.append_assoc, basicLines_escapeInLines,
      ← List.append_assoc, ih]
    rfl

/-! ### Between single quotes -/

theorem literalTail_append (hplain : ∀ c ∈ text, isPlain c = true) (hquote : apostrophe ∉ text)
    (rest : List Char) : literalTail (text ++ apostrophe :: rest) = some (text, rest) := by
  induction text with
  | nil => rfl
  | cons c text ih =>
    rw [List.cons_append, literalTail, if_neg (fun h : c = apostrophe => hquote (h ▸ .head _)),
      if_pos (hplain c List.mem_cons_self),
      ih (fun c hc => hplain c (List.mem_cons_of_mem _ hc)) (fun h => hquote (.tail _ h))]
    rfl

/-- Whether a text can stand between threefold single quotes. -/
structure Literal (text : List Char) : Prop where
  plain : ∀ c ∈ text, c = '\n' ∨ isPlain c = true
  single : hasTriple text = false
  open_ : text.getLast? ≠ some apostrophe

theorem Literal.tail (h : Literal (c :: text)) : Literal text where
  plain c hc := h.plain c (List.mem_cons_of_mem _ hc)
  single := by
    have h := h.single
    rw [hasTriple, Bool.or_eq_false_iff] at h
    exact h.2
  open_ := by
    cases text with
    | nil => simp
    | cons d text => simpa using h.open_

/-- No threefold mark starts within the text, nor does one start in it and end in the mark. -/
theorem Literal.not_isPrefixOf (h : Literal (apostrophe :: text)) (rest : List Char) :
    [apostrophe, apostrophe].isPrefixOf (text ++ literalMark ++ rest) = false := by
  have hsingle := h.single
  have hopen := h.open_
  match text with
  | [] => simp at hopen
  | [d] =>
    have hd : d ≠ apostrophe := by simpa using hopen
    simp [List.isPrefixOf, Ne.symm hd]
  | d :: e :: text =>
    rw [hasTriple, Bool.or_eq_false_iff] at hsingle
    simpa [List.isPrefixOf] using hsingle.1

theorem literalLines_append (h : Literal text) (rest : List Char) :
    literalLines (text ++ literalMark ++ '\n' :: rest) = some (text, '\n' :: rest) := by
  induction text with
  | nil => exact congrArg some (closing_of_line apostrophe (by decide) rest)
  | cons c text ih =>
    have ih := ih h.tail
    rcases h.plain c List.mem_cons_self with rfl | hplain
    · change after '\n' (literalLines (text ++ literalMark ++ '\n' :: rest)) = _
      rw [ih]
      rfl
    · have hmark : ¬ (c = apostrophe ∧
          [apostrophe, apostrophe].isPrefixOf (text ++ literalMark ++ '\n' :: rest) = true) := by
        rintro ⟨rfl, hprefix⟩
        rw [h.not_isPrefixOf] at hprefix
        cases hprefix
      obtain ⟨hline, hreturn⟩ := ne_of_isPlain hplain
      rw [List.cons_append, List.cons_append, literalLines, if_neg hmark, if_pos hplain, ih]
      · rfl
      · simp [hreturn]
      · exact hline

theorem literal_of_isLiteral (h : isLiteral text = true) :
    Literal text ∧ ∃ c ∈ text, c = '"' ∨ c = '\\' := by
  simp only [isLiteral, Bool.and_eq_true, Bool.or_eq_true, List.contains_iff_mem,
    List.all_eq_true, decide_eq_true_eq, Bool.not_eq_true', bne_iff_ne] at h
  obtain ⟨⟨⟨hspecial, hplain⟩, hsingle⟩, hopen⟩ := h
  refine ⟨⟨hplain, hsingle, hopen⟩, ?_⟩
  rcases hspecial with hquote | hslash
  · exact ⟨'"', hquote, .inl rfl⟩
  · exact ⟨'\\', hslash, .inr rfl⟩

/-! ### Strings with their marks -/

/-- A mark that does not stand three times in a row is one of a string on one line. -/
theorem string?_of_not_isPrefixOf (h : [c, c].isPrefixOf rest = false) :
    string? (c :: rest) = lineString? (c :: rest) := by
  match rest with
  | [] => rfl
  | [_] => rfl
  | a :: b :: rest =>
    have hne : ¬ (c = a ∧ c = b) := by simpa [List.isPrefixOf] using h
    rw [string?, if_neg (by rintro ⟨rfl, rfl, rfl⟩; exact hne ⟨rfl, rfl⟩),
      if_neg (by rintro ⟨rfl, rfl, rfl⟩; exact hne ⟨rfl, rfl⟩)]

/-- What is written for a text does not start like a threefold mark. -/
theorem not_isPrefixOf_flatMap (text rest : List Char) :
    ['"', '"'].isPrefixOf (text.flatMap escapeChar ++ '"' :: '\n' :: rest) = false := by
  cases text with
  | nil => simp [List.isPrefixOf]
  | cons c text =>
    rw [List.flatMap_cons]
    rcases escapeChar_cases c with ⟨letter, -, hwritten, -⟩ | ⟨hwritten, -⟩ | ⟨hwritten, hquote, -⟩
    · simp [hwritten, List.isPrefixOf]
    · simp [hwritten, List.isPrefixOf]
    · simp [hwritten, List.isPrefixOf, Ne.symm hquote]

theorem dropLineFeed_cons (hline : c ≠ '\n') (hreturn : c ≠ '\r') :
    dropLineFeed (c :: rest) = c :: rest := by
  rw [dropLineFeed]
  · simp [hline]
  · simp [hreturn]

/-- **A string is read back from what is written for it.** -/
theorem string?_quote (text rest : List Char) :
    string? (quote text ++ '\n' :: rest) = some (text, '\n' :: rest) := by
  rw [quote]
  split
  next hliteral =>
    obtain ⟨hliteral, special, hmem, hspecial⟩ := literal_of_isLiteral hliteral
    split
    next => exact literalLines_append hliteral rest
    next hline =>
      have hline : '\n' ∉ text := by simpa using hline
      have hplain : ∀ c ∈ text, isPlain c = true := fun c hc =>
        (hliteral.plain c hc).resolve_left fun h => hline (h ▸ hc)
      -- The text is not empty, so that it is seen where it starts.
      cases text with
      | nil => cases hmem
      | cons c text =>
        obtain ⟨hc, hreturn⟩ := ne_of_isPlain (hplain c List.mem_cons_self)
        split
        next =>
          change literalLines (dropLineFeed (c :: text ++ literalMark ++ '\n' :: rest)) = _
          rw [List.cons_append, List.cons_append, dropLineFeed_cons hc hreturn]
          exact literalLines_append hliteral rest
        next hquote =>
          have hquote : apostrophe ∉ c :: text := by simpa using hquote
          have hfirst : apostrophe ≠ c := fun h => hquote (h ▸ .head _)
          rw [List.append_assoc, List.cons_append, List.singleton_append,
            string?_of_not_isPrefixOf (by simp [List.isPrefixOf, hfirst])]
          exact literalTail_append hplain hquote ('\n' :: rest)
  next =>
    split
    next => exact basicLines_flatMap text rest
    next =>
      rw [List.cons_append, List.cons_append, List.append_assoc, List.singleton_append,
        string?_of_not_isPrefixOf (not_isPrefixOf_flatMap text rest)]
      exact basicTail_flatMap text ('\n' :: rest)

end ProxyUpgrade.Toml
