import ProxyUpgrade.Text.Basic
/-!
# Points in time

A point in time is kept as its calendar date and time of day in Universal Time, down to the
nanosecond; the second 60 is a leap second. It is written with `T` between date and time, a `Z` at
the end, and no fraction or one of 3, 6 or 9 digits. Reading takes any offset from Universal Time,
a space in place of `T`, and blanks before any number.
-/

namespace ProxyUpgrade

/-- Whether a year has a 29th of February. -/
def Date.isLeap (year : Int) : Bool := year % 4 = 0 && (year % 100 ≠ 0 || year % 400 = 0)

/-- The number of days of a month. -/
def Date.daysIn (year : Int) (month : Nat) : Nat :=
  match month with
  | 2 => if isLeap year then 29 else 28
  | 4 | 6 | 9 | 11 => 30
  | _ => 31

/-- Month and day exist in a year. -/
class Date.Valid (year : Int) (month day : Nat) : Prop where
  month_pos : 1 ≤ month
  month_le : month ≤ 12
  day_pos : 1 ≤ day
  day_le : day ≤ daysIn year month

/-- A date of the calendar that is in use, extended to all years. -/
structure Date where
  year : Int
  month : Nat
  day : Nat
  [valid : Date.Valid year month day]
  deriving DecidableEq, Repr

namespace Date

instance (year : Int) (month day : Nat) : Decidable (Valid year month day) :=
  decidable_of_decidable_of_iff (p := 1 ≤ month ∧ month ≤ 12 ∧ 1 ≤ day ∧ day ≤ daysIn year month)
    ⟨fun ⟨hpos, hle, hday, hday'⟩ => ⟨hpos, hle, hday, hday'⟩,
      fun ⟨hpos, hle, hday, hday'⟩ => ⟨hpos, hle, hday, hday'⟩⟩

/-- The date of a year, a month and a day, if it exists. -/
def of? (year : Int) (month day : Nat) : Option Date :=
  if h : Valid year month day then some { year, month, day, valid := h } else none

theorem daysIn_bounds (year : Int) (month : Nat) :
    28 ≤ daysIn year month ∧ daysIn year month ≤ 31 := by
  unfold daysIn
  split
  · cases isLeap year <;> decide
  all_goals decide

theorem valid_first {year : Int} {month : Nat} (hpos : 1 ≤ month) (hle : month ≤ 12) :
    Valid year month 1 :=
  ⟨hpos, hle, Nat.le_refl 1, Nat.le_trans (by decide) (daysIn_bounds year month).1⟩

theorem valid_last {year : Int} {month : Nat} (hpos : 1 ≤ month) (hle : month ≤ 12) :
    Valid year month (daysIn year month) :=
  ⟨hpos, hle, Nat.le_trans (by decide) (daysIn_bounds year month).1, Nat.le_refl _⟩

/-- The next day. -/
def next (d : Date) : Date :=
  if hday : d.day < daysIn d.year d.month then
    { d with day := d.day + 1, valid := ⟨d.valid.month_pos, d.valid.month_le, by omega, hday⟩ }
  else if hmonth : d.month < 12 then
    { year := d.year, month := d.month + 1, day := 1, valid := valid_first (by omega) hmonth }
  else { year := d.year + 1, month := 1, day := 1, valid := valid_first (by decide) (by decide) }

/-- The day before. -/
def previous (d : Date) : Date :=
  have hle := d.valid.month_le
  if hday : 1 < d.day then
    have hlast := d.valid.day_le
    { d with
      day := d.day - 1, valid := ⟨d.valid.month_pos, hle, by omega, by omega⟩ }
  else if hmonth : 1 < d.month then
    { year := d.year, month := d.month - 1, day := daysIn d.year (d.month - 1)
      valid := valid_last (by omega) (by omega) }
  else
    { year := d.year - 1, month := 12, day := 31, valid := valid_last (by decide) (by decide) }

/-- The date a number of days after the first of January 1970. -/
def ofUnixDays? (days : Int) : Option Date :=
  let z := days + 719468
  let era := z / 146097
  let doe := (z % 146097).toNat
  let yoe := (doe - doe / 1460 + doe / 36524 - doe / 146096) / 365
  let doy := doe - (365 * yoe + yoe / 4 - yoe / 100)
  let mp := (5 * doy + 2) / 153
  let month := if mp < 10 then mp + 3 else mp - 9
  let year := Int.ofNat yoe + era * 400
  of? (if month ≤ 2 then year + 1 else year) month (doy - (153 * mp + 2) / 5 + 1)

end Date

/-- The years a point in time may lie in. -/
def Timestamp.yearInRange (year : Int) : Bool := -262143 ≤ year && year ≤ 262142

/-- A time of day exists, and the year may be one of a point in time. -/
class Timestamp.Valid (year : Int) (hour minute second nanosecond : Nat) : Prop where
  year : yearInRange year = true
  hour : hour < 24
  minute : minute < 60
  second : second ≤ 60
  nanosecond : nanosecond < 1000000000

/-- A point in time, in Universal Time. -/
structure Timestamp where
  date : Date
  hour : Nat
  minute : Nat
  second : Nat
  nanosecond : Nat
  [valid : Timestamp.Valid date.year hour minute second nanosecond]
  deriving DecidableEq, Repr

/-! The first day that times are counted from, and the last day of all. -/

instance : Date.Valid 1970 1 1 := by decide

instance : Date.Valid 262142 12 31 := by decide

namespace Timestamp

instance (year : Int) (hour minute second nanosecond : Nat) :
    Decidable (Valid year hour minute second nanosecond) :=
  decidable_of_decidable_of_iff (p := yearInRange year = true ∧ hour < 24 ∧ minute < 60 ∧
      second ≤ 60 ∧ nanosecond < 1000000000)
    ⟨fun ⟨hyear, hhour, hminute, hsecond, hnano⟩ => ⟨hyear, hhour, hminute, hsecond, hnano⟩,
      fun ⟨hyear, hhour, hminute, hsecond, hnano⟩ => ⟨hyear, hhour, hminute, hsecond, hnano⟩⟩

instance : Valid 1970 0 0 0 0 := by decide

instance : Valid 262142 23 59 59 999999999 := by decide

/-- The point that times are counted from. -/
def epoch : Timestamp := ⟨⟨1970, 1, 1⟩, 0, 0, 0, 0⟩

instance : Inhabited Timestamp := ⟨epoch⟩

/-- The point in time of a date and a time of day, if it exists. -/
def of? (date : Date) (hour minute second nanosecond : Nat) : Option Timestamp :=
  if h : Valid date.year hour minute second nanosecond then
    some { date, hour, minute, second, nanosecond, valid := h }
  else none

/-- The point a number of seconds and nanoseconds after the start of 1970. -/
def ofUnix? (seconds : Int) (nanosecond : Nat) : Option Timestamp := do
  let rest := (seconds % 86400).toNat
  of? (← Date.ofUnixDays? (seconds / 86400)) (rest / 3600) (rest / 60 % 60) (rest % 60) nanosecond

/-- The digits of a number, filled up with zeros on the left. -/
def padded (width n : Nat) : String :=
  let digits := Nat.toDigits 10 n
  String.ofList (List.replicate (width - digits.length) '0' ++ digits)

/-- The text of a year: four digits, or a sign and at least four outside 0 to 9999. -/
def yearText (year : Int) : String :=
  if 0 ≤ year ∧ year ≤ 9999 then padded 4 year.toNat
  else (if year < 0 then "-" else "+") ++ padded 4 year.natAbs

/-- The fraction of a second, after a point, in thousands of the finest unit needed. -/
def fractionText (nanosecond : Nat) : String :=
  if nanosecond = 0 then ""
  else if nanosecond % 1000000 = 0 then "." ++ padded 3 (nanosecond / 1000000)
  else if nanosecond % 1000 = 0 then "." ++ padded 6 (nanosecond / 1000)
  else "." ++ padded 9 nanosecond

/-- The text of a point in time. -/
def text (t : Timestamp) : String :=
  yearText t.date.year ++ "-" ++ padded 2 t.date.month ++ "-" ++ padded 2 t.date.day ++ "T" ++
    padded 2 t.hour ++ ":" ++ padded 2 t.minute ++ ":" ++ padded 2 t.second ++
    fractionText t.nanosecond ++ "Z"

/-! ### Reading -/

/-- A digit. -/
def isDigit (c : Char) : Bool := '0' ≤ c && c ≤ '9'

/-- The number that digits stand for. -/
def digitsValue (digits : List Char) : Nat :=
  digits.foldl (fun acc c => acc * 10 + (c.toNat - 48)) 0

/-- Drops blanks. -/
def skip (text : List Char) : List Char := text.dropWhile Text.isBlank

/-- A number of at least one and at most `width` digits, after blanks. -/
def number? (width : Nat) (text : List Char) : Option (Nat × List Char) :=
  let text := skip text
  let digits := (text.take width).takeWhile isDigit
  if digits.isEmpty then none else some (digitsValue digits, text.drop digits.length)

/-- A year: up to four digits, or a sign and any number of them. -/
def year? (text : List Char) : Option (Int × List Char) :=
  match skip text with
  | '-' :: rest =>
    let digits := rest.takeWhile isDigit
    if digits.isEmpty then none else some (-Int.ofNat (digitsValue digits), rest.dropWhile isDigit)
  | '+' :: rest =>
    let digits := rest.takeWhile isDigit
    if digits.isEmpty then none else some (digitsValue digits, rest.dropWhile isDigit)
  | rest => (number? 4 rest).map fun (n, rest) => (Int.ofNat n, rest)

/-- The text after a mark, which blanks may precede. -/
def mark? (mark : Char) (text : List Char) : Option (List Char) :=
  match skip text with
  | c :: rest => if c = mark then some rest else none
  | [] => none

/-- The nanoseconds of a fraction of a second, if a point follows; digits after the ninth are
dropped. -/
def fraction? : List Char → Option (Nat × List Char)
  | '.' :: rest =>
    let digits := rest.takeWhile isDigit
    let used := digits.take 9
    if digits.isEmpty then none
    else some (digitsValue used * Nat.pow 10 (9 - used.length), rest.dropWhile isDigit)
  | rest => some (0, rest)

/-- The minutes east of Universal Time: `Z`, `UTC`, or a sign, two digits of hours and two of
minutes. -/
def offset? (text : List Char) : Option (Int × List Char) :=
  match text with
  | 'Z' :: rest => some (0, rest)
  | 'z' :: rest => some (0, rest)
  | u :: t :: c :: rest =>
    if u.toUpper = 'U' ∧ t.toUpper = 'T' ∧ c.toUpper = 'C' then some (0, rest)
    else if (u = '+' ∨ u = '-' ∨ u = '−') ∧ isDigit t ∧ isDigit c then
      match rest.dropWhile fun x => x = ':' || Text.isBlank x with
      | m :: n :: rest =>
        if '0' ≤ m ∧ m ≤ '5' ∧ isDigit n then
          let minutes := Int.ofNat (60 * digitsValue [t, c] + digitsValue [m, n])
          some (if u = '+' then minutes else -minutes, rest)
        else none
      | _ => none
    else none
  | _ => none

/-- Moves a point in time by minutes, less than a day, as far as the years go. -/
def shift (t : Timestamp) (minutes : Int) : Option Timestamp :=
  let total := Int.ofNat (60 * t.hour + t.minute) + minutes
  let date := if total < 0 then t.date.previous else if 1440 ≤ total then t.date.next else t.date
  let rest := (total % 1440).toNat
  of? date (rest / 60) (rest % 60) t.second t.nanosecond

/-- Reads a point in time. -/
def ofText? (text : String) : Option Timestamp := do
  let (year, rest) ← year? text.toList
  let (month, rest) ← number? 2 (← mark? '-' rest)
  let (day, rest) ← number? 2 (← mark? '-' rest)
  let rest ← match rest with
    | c :: rest => if c = 'T' ∨ c = 't' ∨ c = ' ' then some rest else none
    | [] => none
  let (hour, rest) ← number? 2 rest
  let (minute, rest) ← number? 2 (← mark? ':' rest)
  let (second, rest) ← number? 2 (← mark? ':' rest)
  let (nanosecond, rest) ← fraction? rest
  let (offset, rest) ← offset? (skip rest)
  if (skip rest).isEmpty ∧ offset.natAbs < 1440 then
    (← of? (← Date.of? year month day) hour minute second nanosecond).shift (-offset)
  else none

end Timestamp

end ProxyUpgrade
