/-!
# The shortest decimal of a binary fraction

A double-precision number is `m * 2 ^ q`. The decimals that round to it fill an interval around it,
whose ends belong to it when `m` is even. Among the decimals with the fewest digits in that interval
the nearest to the number is chosen; of two equally near ones the one with the even last digit.
All arithmetic is exact, on natural numbers.
-/

namespace ProxyUpgrade.Decimal

/-- A positive finite number `mantissa * 2 ^ exponent` of 53 bits of precision. -/
structure Binary where
  mantissa : Nat
  exponent : Int
  /-- Whether the neighbour below is only half as far away as the one above. -/
  narrowBelow : Bool

/-- Twice the number and the ends of its interval, all over a common denominator. -/
structure Scaled where
  low : Nat
  value : Nat
  high : Nat
  denominator : Nat
  closed : Bool

/-- The interval of numbers that round to a binary fraction. -/
def Binary.interval (b : Binary) : Scaled :=
  -- quarter units, so that the midpoints to both neighbours are whole
  let four := 4 * b.mantissa
  let below := if b.narrowBelow then 1 else 2
  let up := Nat.pow 2 b.exponent.toNat
  let down := Nat.pow 2 (-b.exponent).toNat
  ⟨(four - below) * up, four * up, (four + 2) * up, 4 * down, b.mantissa % 2 = 0⟩

/-- Whether the decimal `n * 10 ^ e` lies in the interval. -/
def Scaled.holds (s : Scaled) (n : Nat) (e : Int) : Bool :=
  let left := n * Nat.pow 10 e.toNat * s.denominator
  let scale := Nat.pow 10 (-e).toNat
  if s.closed then s.low * scale ≤ left && left ≤ s.high * scale
  else s.low * scale < left && left < s.high * scale

/-- The largest multiple of `10 ^ e` that is not above the number, divided by that power. -/
def Scaled.floor (s : Scaled) (e : Int) : Nat :=
  s.value * Nat.pow 10 (-e).toNat / (s.denominator * Nat.pow 10 e.toNat)

/-- How far the decimal `n * 10 ^ e` is from the number, up to a factor that depends on `e` only. -/
def Scaled.distance (s : Scaled) (n : Nat) (e : Int) : Nat :=
  let left := n * Nat.pow 10 e.toNat * s.denominator
  let right := s.value * Nat.pow 10 (-e).toNat
  (left - right) + (right - left)

/-- The nearest decimal of the grid `10 ^ e` in the interval, if there is one. -/
def Scaled.nearest? (s : Scaled) (e : Int) : Option Nat :=
  let n := s.floor e
  match s.holds n e && 0 < n, s.holds (n + 1) e with
  | false, false => none
  | true, false => some n
  | false, true => some (n + 1)
  | true, true =>
    let below := s.distance n e
    let above := s.distance (n + 1) e
    if below < above then some n
    else if above < below then some (n + 1)
    else some (if n % 2 = 0 then n else n + 1)

/-- How many places behind the point are zero, at most `fuel` of them being looked at. -/
def Scaled.zeros (s : Scaled) : (fuel : Nat) → (found : Nat) → Nat
  | 0, found => found
  | fuel + 1, found =>
    if s.floor (-(found + 1 : Int)) = 0 then s.zeros fuel (found + 1) else found

/-- The position of the first digit: the largest `e` with `10 ^ e` not above the number. -/
def Scaled.magnitude (s : Scaled) : Int :=
  if s.denominator ≤ s.value then Int.ofNat ((Nat.toDigits 10 (s.floor 0)).length - 1)
  else -Int.ofNat (s.zeros 400 0 + 1)

/-- The shortest decimal of the interval as digits and the power of ten of the last one. -/
def Scaled.shortest (s : Scaled) : Nat × Int :=
  let top := s.magnitude
  let hit := (List.range 18).findSome? fun places =>
    let e := top + 1 - Int.ofNat places
    (s.nearest? e).map (·, e)
  hit.getD (s.floor 0, 0)

/-- The first bit of the mantissa of a double, which is not written. -/
def implicitBit : Nat := Nat.pow 2 52

/-- The parts of a positive finite double. -/
def Binary.ofFloat (f : Float) : Binary :=
  let bits := f.toBits.toNat
  let fraction := bits % implicitBit
  let biased := bits / implicitBit % 2048
  if biased = 0 then ⟨fraction, -1074, false⟩
  else ⟨implicitBit + fraction, Int.ofNat biased - 1075, fraction = 0 && 1 < biased⟩

/-- The digits of the shortest decimal of a positive finite double, without zeros at the end, and
the power of ten of the last one. -/
def shortest (f : Float) : List Char × Int :=
  let (n, e) := (Binary.ofFloat f).interval.shortest
  let digits := Nat.toDigits 10 n
  let zeros := (digits.reverse.takeWhile (· = '0')).length
  (digits.take (digits.length - zeros), e + Int.ofNat zeros)

end ProxyUpgrade.Decimal
