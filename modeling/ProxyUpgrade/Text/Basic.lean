/-!
# Characters and texts

What reading and showing texts is made of.

* `Text.isBlank` – the white space of Unicode, which is what is trimmed from the ends of a text.
* `Text.inRanges` – a property of characters is kept as the array of its code-point ranges in
  ascending order, and a character is looked up by halving the array.
* `Reader` – a reader takes something from the front of a text and leaves the rest, or finds that
  the text does not start with it.
-/

namespace ProxyUpgrade

namespace Text

/-! ### Blanks -/

/-- Whether a character is white space. -/
def isBlank (c : Char) : Bool :=
  let n := c.toNat
  n = 0x20 || (0x09 ≤ n && n ≤ 0x0d) || n = 0x85 || n = 0xa0 || n = 0x1680 ||
    (0x2000 ≤ n && n ≤ 0x200a) || n = 0x2028 || n = 0x2029 || n = 0x202f || n = 0x205f || n = 0x3000

/-- A text without the blanks at its end. -/
def trimEnd (text : List Char) : List Char :=
  (text.reverse.dropWhile isBlank).reverse

/-- A text without the blanks at its ends. -/
def trim (text : List Char) : List Char := trimEnd (text.dropWhile isBlank)

/-! ### Sets of characters -/

/-- Looks for a range that holds `n` between two places of the table. -/
def inRangesFrom (table : Array (Nat × Nat)) (n low high : Nat) : Bool :=
  if low < high then
    let middle := (low + high) / 2
    match table[middle]? with
    | none => false
    | some (first, last) =>
      if n < first then inRangesFrom table n low middle
      else if last < n then inRangesFrom table n (middle + 1) high
      else true
  else false
termination_by high - low
decreasing_by all_goals omega

/-- Whether some range of an ascending table holds the character. -/
def inRanges (table : Array (Nat × Nat)) (c : Char) : Bool :=
  inRangesFrom table c.toNat 0 table.size

end Text

/-! ### Readers -/

/-- Takes something from the front of a text, and leaves the rest. -/
abbrev Reader (α : Type) : Type := List Char → Option (α × List Char)

namespace Reader

/-- The longest front of a text whose characters are of a kind; at least one is needed. -/
def some (kind : Char → Bool) : Reader (List Char) := fun text =>
  let front := text.takeWhile kind
  if front.isEmpty then Option.none else Option.some (front, text.dropWhile kind)

/-- The text after a word that it has to start with. -/
def word? (word : List Char) (text : List Char) : Option (List Char) :=
  if word.isPrefixOf text then Option.some (text.drop word.length) else Option.none

end Reader

end ProxyUpgrade
