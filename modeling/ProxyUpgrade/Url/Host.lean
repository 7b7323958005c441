import ProxyUpgrade.Bytes.Basic
import ProxyUpgrade.Url.Domain
/-!
# Hosts

A host is a domain name or a network address. A name whose last label is a number is read as an
address of 32 bits in up to four parts, each in base ten, eight (after `0`) or sixteen (after `0x`),
the last of which fills all bytes that are left. An address of 128 bits stands in brackets, as eight
groups of which the longest run of zeros is left out.
-/

namespace ProxyUpgrade.Url

/-- Why a text is no address of the web. -/
inductive Fault where
  | noScheme
  | emptyHost
  | domain
  | port
  | ipv4
  | ipv6
  | hostCharacter
  | solidBase
  deriving DecidableEq

/-- The sentence shown for a fault. -/
def Fault.message : Fault → String
  | noScheme => "relative URL without a base"
  | emptyHost => "empty host"
  | domain => "invalid international domain name"
  | port => "invalid port number"
  | ipv4 => "invalid IPv4 address"
  | ipv6 => "invalid IPv6 address"
  | hostCharacter => "invalid domain character"
  | solidBase => "relative URL with a cannot-be-a-base base"

namespace Host

/-! ### Addresses of 32 bits -/

/-- The value of digits of a base; an empty text is zero. -/
def number? (base : Nat) (digits : List Char) : Option Nat :=
  digits.foldlM (fun acc c => do
    let d ← digitValue? (UInt8.ofNat c.toNat)
    if d < base ∧ c.toNat < 128 then pure (acc * base + d) else none) 0

/-- The value of one part of an address. -/
def part? : List Char → Option Nat
  | [] => none
  | '0' :: c :: rest =>
    if c = 'x' ∨ c = 'X' then number? 16 rest else number? 8 (c :: rest)
  | digits => number? 10 digits

/-- The labels of a name, without an empty one at the end. -/
def parts (name : List Char) : List (List Char) :=
  let labels := Domain.labels name
  if 1 < labels.length ∧ labels.getLast? = some [] then labels.dropLast else labels

/-- Whether a name ends in a number. -/
def endsInNumber (name : List Char) : Bool :=
  match (parts name).getLast? with
  | some last =>
    (!last.isEmpty && last.all Char.isDigit) ||
      (match last with
        | '0' :: c :: _ => (c = 'x' || c = 'X') && (part? last).isSome
        | _ => false)
  | none => false

/-- The number of an address in parts. -/
def ofParts? (numbers : List Nat) : Option Nat :=
  match numbers.reverse with
  | [] => none
  | last :: front =>
    if numbers.length ≤ 4 ∧ front.all (· < 256) ∧ last < Nat.pow 256 (5 - numbers.length) then
      let before := front.reverse.foldl (fun acc n => acc * 256 + n) 0
      some (before * Nat.pow 256 (5 - numbers.length) + last)
    else none

/-- Four numbers with points between them. -/
def ipv4Text (n : Nat) : List Char :=
  ['.'].intercalate ((Bytes.ofNat 4 n).map fun b => Nat.toDigits 10 b.toNat)

/-- Reads an address of 32 bits. -/
def ipv4 (name : List Char) : Except Fault (List Char) :=
  match (parts name).mapM part? with
  | some numbers =>
    match ofParts? numbers with
    | some n => .ok (ipv4Text n)
    | none => .error .ipv4
  | none => .error .ipv4

/-! ### Addresses of 128 bits -/

/-- A number of four bytes at the end of an address of 128 bits: exactly four parts in base ten
without leading zeros. -/
def trailingIpv4? (text : List Char) : Option Nat := do
  let numbers ← (Domain.labels text).mapM fun digits =>
    if digits.isEmpty ∨ 3 < digits.length ∨ !digits.all Char.isDigit ∨
      (1 < digits.length ∧ digits.head? = some '0') then none
    else number? 10 digits
  if numbers.length = 4 ∧ numbers.all (· < 256) then
    pure (numbers.foldl (fun acc n => acc * 256 + n) 0)
  else none

/-- The pieces of a text between colons. -/
def groups : List Char → List (List Char)
  | [] => [[]]
  | c :: rest =>
    if c = ':' then [] :: groups rest
    else match groups rest with
      | [] => [[c]]
      | group :: more => (c :: group) :: more

/-- The groups of a text without a gap; the last may be an address of 32 bits. -/
def run? (text : List Char) : Option (List Nat) :=
  if text.isEmpty then some []
  else go (groups text)
where
  /-- Reads group after group. -/
  go : List (List Char) → Option (List Nat)
    | [] => some []
    | group :: rest =>
      if rest.isEmpty ∧ group.contains '.' then
        (trailingIpv4? group).map fun n => [n / 65536, n % 65536]
      else if group.isEmpty ∨ 4 < group.length then none
      else do pure ((← number? 16 group) :: (← go rest))

/-- The parts of a text around the first double colon. -/
def splitGap : List Char → List Char × Option (List Char)
  | ':' :: ':' :: rest => ([], some rest)
  | c :: rest =>
    let (before, after) := splitGap rest
    (c :: before, after)
  | [] => ([], none)

/-- The eight groups of an address. -/
def ipv6Groups? (text : List Char) : Option (List Nat) :=
  match splitGap text with
  | (text, none) => (run? text).filter (·.length == 8)
  | (before, some after) => do
    if before.contains '.' then none
    else
      let before ← run? before
      let after ← run? after
      let found := before.length + after.length
      if found < 8 then pure (before ++ List.replicate (8 - found) 0 ++ after) else none

/-- The length of the run of zeros in front of a list. -/
def zeros (groups : List Nat) : Nat := (groups.takeWhile (· == 0)).length

/-- Where the first longest run of at least two zeros starts, and its length. -/
def longestGap (groups : List Nat) : Nat × Nat :=
  (List.range groups.length).foldl (fun best i =>
    let n := zeros (groups.drop i)
    if best.2 < n then (i, n) else best) (0, 1)

/-- Groups with colons between them. -/
def groupsText (groups : List Nat) : List Char :=
  [':'].intercalate (groups.map (Nat.toDigits 16 ·))

/-- The text of an address of 128 bits. -/
def ipv6Text (groups : List Nat) : List Char :=
  let (start, size) := longestGap groups
  if size < 2 then groupsText groups
  else groupsText (groups.take start) ++ [':', ':'] ++ groupsText (groups.drop (start + size))

/-- Reads an address of 128 bits, after the opening bracket. -/
def ipv6 (text : List Char) : Except Fault (List Char) :=
  match text.reverse with
  | ']' :: inner =>
    match ipv6Groups? inner.reverse with
    | some groups => .ok ('[' :: ipv6Text groups ++ [']'])
    | none => .error .ipv6
  | _ => .error .ipv6

/-! ### Hosts -/

/-- The text of bytes; what is no text becomes a replacement character, which no host can have. -/
def lossyText (bytes : Bytes) : List Char :=
  match bytes.toText? with
  | some text => text.toList
  | none => [Char.ofNat 0xfffd]

/-- Reads the host of a special scheme. -/
def special (text : List Char) : Except Fault (List Char) :=
  match text with
  | '[' :: rest => ipv6 rest
  | text =>
    match Domain.toAscii? (lossyText (percentDecode (Bytes.ofText (String.ofList text)))) with
    | none => .error .domain
    | some name =>
      if name.isEmpty then .error .emptyHost
      else if endsInNumber name then ipv4 name
      else .ok name

/-- Whether no host of any scheme can have a character. -/
def isForbidden (c : Char) : Bool :=
  ['\x00', '\t', '\n', '\r', ' ', '#', '/', ':', '<', '>', '?', '@', '[', '\\', ']', '^',
    '|'].contains c

/-- Reads the host of any other scheme. -/
def ordinary (text : List Char) : Except Fault (List Char) :=
  match text with
  | '[' :: rest => ipv6 rest
  | text =>
    if text.any isForbidden then .error .hostCharacter
    else .ok (percentEncode ByteSet.controls text)

end Host

end ProxyUpgrade.Url
