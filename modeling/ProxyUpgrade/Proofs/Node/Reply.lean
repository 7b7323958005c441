import ProxyUpgrade.Node.Basic
import ProxyUpgrade.Proofs.Chain.Json
import ProxyUpgrade.Proofs.Json.RoundTrip
/-!
# Replies of a node

Whatever code or slot a chain holds, there is a reply by which a node says so: a document whose
result is the value in hexadecimal. That it is understood goes through three readers: the text as a
document (`Json.parse?_result`), its result as digits (`Hex.decode?_encode`), the digits as a number
(`Quantity.ofText?_encode`).
-/

namespace ProxyUpgrade

/-! ### Plain strings -/

namespace Json

/-- A character that stands for itself in a string. -/
def IsPlain (c : Char) : Prop := c ≠ '"' ∧ c ≠ '\\' ∧ 32 ≤ c.toNat

instance (c : Char) : Decidable (IsPlain c) :=
  inferInstanceAs (Decidable (c ≠ '"' ∧ c ≠ '\\' ∧ 32 ≤ c.toNat))

theorem escapeChar_plain {c : Char} (h : IsPlain c) : escapeChar c = [c] := by
  obtain ⟨hquote, hslash, hcontrol⟩ := h
  have hcontrols : ∀ d ∈ ['\x08', '\x0c', '\n', '\r', '\t'], c ≠ d := by
    rintro d hd rfl
    revert hcontrol
    simp only [List.mem_cons, List.not_mem_nil, or_false] at hd
    rcases hd with rfl | rfl | rfl | rfl | rfl <;> decide
  simp only [List.mem_cons, List.not_mem_nil, or_false, forall_eq_or_imp, forall_eq] at hcontrols
  have hlow : ¬ c.toNat < 0x20 := by omega
  simp [escapeChar, hquote, hslash, hcontrols, hlow]

theorem quote_plain {text : List Char} (h : ∀ c ∈ text, IsPlain c) :
    quote (String.ofList text) = '"' :: (text ++ ['"']) := by
  have hescape : text.flatMap escapeChar = text := by
    induction text with
    | nil => rfl
    | cons c text ih =>
      rw [List.flatMap_cons, escapeChar_plain (h c List.mem_cons_self),
        ih fun c hc => h c (List.mem_cons_of_mem _ hc)]
      rfl
  rw [quote, String.toList_ofList, hescape]
  rfl

/-- The text of a document whose result is a plain string. -/
def resultText (text : List Char) : List Char :=
  ['{', '"', 'r', 'e', 's', 'u', 'l', 't', '"', ':', '"'] ++ text ++ ['"', '}']

theorem value_result {text : List Char} (h : ∀ c ∈ text, IsPlain c) (fuel : Nat) :
    value (fuel + 3) (resultText text) =
      some (object [("result", string (String.ofList text))], []) := by
  have htext : resultText text =
      '{' :: (quote "result" ++ ':' :: (quote (String.ofList text) ++ ['}'])) := by
    have hname : quote "result" = '"' :: ("result".toList ++ ['"']) := by decide
    rw [quote_plain h, hname]
    simp [resultText]
  have hskip (rest : List Char) : skip (quote "result" ++ rest) = quote "result" ++ rest :=
    skip_cons (by rfl) _
  rw [htext]
  refine value_object _ (fun rest => ?_) ?_
  · rw [hskip]
    simp [quote]
  · exact members_end (hskip _) (value_string _ _ _) (skip_cons (by rfl) _)

theorem parse?_result {text : List Char} (h : ∀ c ∈ text, IsPlain c) :
    parse? (String.ofList (resultText text)) =
      some (object [("result", string (String.ofList text))]) := by
  have hfuel : 2 * (resultText text).length + 2 = 2 * text.length + 25 + 3 := by
    simp [resultText]
    omega
  rw [parse?, String.toList_ofList, hfuel, value_result h]
  rfl

theorem parsePlain?_result {text : List Char} (h : ∀ c ∈ text, IsPlain c) :
    parsePlain? (String.ofList (resultText text)) =
      some (object [("result", string (String.ofList text))]) := by
  rw [parsePlain?, parse?_result h]
  simp [plain?, maxDepth, plainWithin?, plainMembers?, insertMember]

end Json

theorem Hex.isPlain_digits (bytes : Bytes) : ∀ c ∈ Hex.digits bytes, Json.IsPlain c := by
  have hall : ∀ n ∈ List.range 16, Json.IsPlain (Hex.digit n) := by decide
  intro c hc
  obtain ⟨n, hn, rfl⟩ := exists_of_mem_digits hc
  exact hall n (List.mem_range.mpr hn)

/-! ### Replies -/

namespace Node

/-- The reply that has some bytes for its result. -/
def replyOf (bytes : Bytes) : Http.Reply :=
  ⟨200, "OK", String.ofList (Json.resultText ('0' :: 'x' :: Hex.digits bytes)), true⟩

/-- **The result is heard.** -/
theorem heard_replyOf (method : String) (bytes : Bytes) :
    heard method (.ok (replyOf bytes)) = .ok bytes.toJson := by
  have hplain : ∀ c ∈ '0' :: 'x' :: Hex.digits bytes, Json.IsPlain c := by
    simpa using ⟨by decide, by decide, Hex.isPlain_digits bytes⟩
  have hreply : (replyOf bytes).plain? = some (.object [("result", bytes.toJson)]) :=
    Json.parsePlain?_result hplain
  simp [heard, hreply, resultOf, Json.member?, List.lookup_cons]

/-- Bytes are understood. -/
theorem formed_bytes (method : String) (bytes : Bytes) :
    formed method Bytes.ofJson? bytes.toJson = .ok bytes := by
  simp [formed, Bytes.ofJson?_toJson]

/-- A word is understood from its bytes. -/
theorem formed_word (method : String) (address : Address) :
    formed method Word.ofJson? (Bytes.toJson address.bytes) =
      .ok (BitVec.ofNat 256 address.toNat) := by
  have hvalue : Bytes.toNat address.bytes = address.toNat := Bytes.toNat_ofNat address.toNat_lt
  have hbound : Bytes.toNat address.bytes < Bits.count 256 := by
    rw [hvalue]
    exact Nat.lt_trans address.toNat_lt (by decide)
  simp [formed, Bytes.toJson, Word.ofJson?, Quantity.ofJson?, Quantity.ofText?_encode hbound,
    hvalue]

end Node

end ProxyUpgrade
