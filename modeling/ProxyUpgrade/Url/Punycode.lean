/-!
# Punycode

A label of a host name that has characters beyond ASCII is written with ASCII characters only: first
its ASCII characters, then, after a hyphen, one number for each other character, which says where
the next higher character goes. Numbers are written in base 36 with the least digit first; a
threshold that adapts as one goes along says which digit is the last.
-/

namespace ProxyUpgrade.Url.Punycode

/-- The digit of a value below 36. -/
def digit (n : Nat) : Char := if n < 26 then Char.ofNat (97 + n) else Char.ofNat (22 + n)

/-- The value of a digit. -/
def digitValue? (c : Char) : Option Nat :=
  if 'a' ≤ c ∧ c ≤ 'z' then some (c.toNat - 97)
  else if '0' ≤ c ∧ c ≤ '9' then some (c.toNat - 22)
  else none

/-- Brings a difference below 456 by dividing by 35, and counts the divisions in steps of 36. -/
def settle : (fuel : Nat) → (delta k : Nat) → Nat × Nat
  | 0, delta, k => (delta, k)
  | fuel + 1, delta, k => if 455 < delta then settle fuel (delta / 35) (k + 36) else (delta, k)

/-- The bias for the next number, after one that was worth `delta`. -/
def adapt (delta count : Nat) (first : Bool) : Nat :=
  let delta := if first then delta / 700 else delta / 2
  let delta := delta + delta / count
  let (delta, k) := settle 64 delta 0
  k + 36 * delta / (delta + 38)

/-- The threshold of the digit at a position. -/
def threshold (k bias : Nat) : Nat := if k ≤ bias then 1 else min 26 (k - bias)

/-- The digits of a number. -/
def number : (fuel : Nat) → (n k bias : Nat) → List Char
  | 0, n, _, _ => [digit (n % 36)]
  | fuel + 1, n, k, bias =>
    let t := threshold k bias
    if n < t then [digit n]
    else digit (t + (n - t) % (36 - t)) :: number fuel ((n - t) / (36 - t)) (k + 36) bias

/-- What is kept between two numbers of a label. -/
structure Progress where
  delta : Nat
  bias : Nat
  /-- How many characters are in place. -/
  placed : Nat
  first : Bool
  text : List Char

/-- Goes over the label once for the character `next`: lower ones are counted, equal ones written.
-/
def round (next : Nat) (p : Progress) (c : Char) : Progress :=
  if c.toNat < next then { p with delta := p.delta + 1 }
  else if c.toNat = next then
    { delta := 0, bias := adapt p.delta (p.placed + 1) p.first, placed := p.placed + 1,
      first := false, text := p.text ++ number 32 p.delta 36 p.bias }
  else p

/-- Writes the characters of a label from the code point `from` on. -/
def rounds (label : List Char) : (fuel : Nat) → (start : Nat) → Progress → Progress
  | 0, _, p => p
  | fuel + 1, start, p =>
    match (label.map Char.toNat).filter (start ≤ ·) with
    | [] => p
    | n :: rest =>
      let next := rest.foldl min n
      let p := { p with delta := p.delta + (next - start) * (p.placed + 1) }
      let p := label.foldl (round next) p
      rounds label fuel (next + 1) { p with delta := p.delta + 1 }

/-- A label in ASCII, without a mark in front. -/
def encode (label : List Char) : List Char :=
  let basic := label.filter (·.toNat < 128)
  let start := if basic.isEmpty then [] else basic ++ ['-']
  (rounds label label.length 128 ⟨0, 72, basic.length, true, start⟩).text

/-- Reads one number: its value and what follows. -/
def readNumber? : (fuel : Nat) → (bias k weight : Nat) → List Char → Option (Nat × List Char)
  | 0, _, _, _, _ => none
  | fuel + 1, bias, k, weight, text => do
    match text with
    | [] => none
    | c :: rest =>
      let d ← digitValue? c
      let t := threshold k bias
      if d < t then pure (d * weight, rest)
      else
        let (n, rest) ← readNumber? fuel bias (k + 36) (weight * (36 - t)) rest
        pure (d * weight + n, rest)

/-- Inserts the characters that numbers stand for. -/
def insert? : (fuel : Nat) → (code place bias : Nat) → (label : List Char) → List Char →
    Option (List Char)
  | _, _, _, _, label, [] => some label
  | 0, _, _, _, _, _ => none
  | fuel + 1, code, place, bias, label, text => do
    let (n, rest) ← readNumber? text.length bias 36 1 text
    let size := label.length + 1
    let code := code + (place + n) / size
    let spot := (place + n) % size
    if 0x10ffff < code ∨ (0xd800 ≤ code ∧ code < 0xe000) then none
    else
      let label := label.take spot ++ Char.ofNat code :: label.drop spot
      insert? fuel code (spot + 1) (adapt n size (place == 0)) label rest

/-- The label that an ASCII label stands for. -/
def decode? (text : List Char) : Option (List Char) :=
  let tail := (text.reverse.takeWhile (· != '-')).reverse
  let basic := text.take (text.length - tail.length - 1)
  if basic.any (128 ≤ ·.toNat) then none
  else insert? text.length 128 0 72 basic tail

end ProxyUpgrade.Url.Punycode
