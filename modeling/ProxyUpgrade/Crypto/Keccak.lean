import ProxyUpgrade.Bytes.Basic
/-!
# Keccak-256

The hash of the chain: the sponge over the permutation with 24 rounds, with a rate of 136 bytes,
the padding that starts with the byte 1 and ends with the bit of weight 128, and 32 bytes of
output. A state is a vector of 25 lanes, the lane at column `x` and row `y` standing at `x + 5 * y`.
-/

namespace ProxyUpgrade.Keccak

/-- The 25 lanes of the sponge. -/
abbrev State := Vector UInt64 25

/-- The lane at column `x` and row `y`, both taken modulo five. -/
def lane (s : State) (x y : Nat) : UInt64 :=
  s.get ⟨x % 5 + 5 * (y % 5), by omega⟩

/-- Rotates a word left by `n` bits. -/
def rotateLeft (w : UInt64) (n : Nat) : UInt64 :=
  if n % 64 = 0 then w
  else (w <<< UInt64.ofNat (n % 64)) ||| (w >>> UInt64.ofNat (64 - n % 64))

/-- The constants added in the 24 rounds. -/
def roundConstants : List UInt64 :=
  [0x0000000000000001, 0x0000000000008082, 0x800000000000808A, 0x8000000080008000,
   0x000000000000808B, 0x0000000080000001, 0x8000000080008081, 0x8000000000008009,
   0x000000000000008A, 0x0000000000000088, 0x0000000080008009, 0x000000008000000A,
   0x000000008000808B, 0x800000000000008B, 0x8000000000008089, 0x8000000000008003,
   0x8000000000008002, 0x8000000000000080, 0x000000000000800A, 0x800000008000000A,
   0x8000000080008081, 0x8000000000008080, 0x0000000080000001, 0x8000000080008008]

/-- The rotation of the lane at each place. -/
def offsets : Vector Nat 25 :=
  #v[0, 1, 62, 28, 27, 36, 44, 6, 55, 20, 3, 10, 43, 25, 39, 41, 45, 15, 21, 8, 18, 2, 61, 56, 14]

/-- Adds to each lane the parities of two neighbouring columns. -/
def theta (s : State) : State :=
  let parity : Vector UInt64 5 := Vector.ofFn fun x =>
    lane s x 0 ^^^ lane s x 1 ^^^ lane s x 2 ^^^ lane s x 3 ^^^ lane s x 4
  let column : Vector UInt64 5 := Vector.ofFn fun x =>
    parity.get ⟨(x.val + 4) % 5, by omega⟩ ^^^
      rotateLeft (parity.get ⟨(x.val + 1) % 5, by omega⟩) 1
  Vector.ofFn fun i => s[i] ^^^ column.get ⟨i.val % 5, by omega⟩

/-- Rotates each lane by its offset and moves it to its new place. -/
def rhoPi (s : State) : State :=
  Vector.ofFn fun i =>
    let x := i.val % 5
    let y := i.val / 5
    let source := (x + 3 * y) % 5 + 5 * x
    rotateLeft (s.get ⟨source, by omega⟩) (offsets.get ⟨source, by omega⟩)

/-- Combines each lane with the two to its right. -/
def chi (s : State) : State :=
  Vector.ofFn fun i =>
    let x := i.val % 5
    let y := i.val / 5
    s[i] ^^^ ((~~~ lane s (x + 1) y) &&& lane s (x + 2) y)

/-- One round, with its constant. -/
def round (s : State) (constant : UInt64) : State :=
  let t := chi (rhoPi (theta s))
  t.set 0 (t[0] ^^^ constant)

/-- The permutation of the sponge. -/
def permute (s : State) : State := roundConstants.foldl round s

/-- The word of at most eight bytes, least significant first. -/
def littleEndian (bytes : Bytes) : UInt64 :=
  bytes.foldr (fun b acc => (acc <<< 8) ||| b.toUInt64) 0

/-- Adds a block to the state and permutes. -/
def absorb (s : State) (block : Bytes) : State :=
  let words := ((Bytes.pieces 7 block).map littleEndian).toArray
  permute (Vector.ofFn fun i => s[i] ^^^ words.getD i 0)

/-- The message filled up to a multiple of the rate. -/
def pad (message : Bytes) : Bytes :=
  let missing := 136 - message.length % 136
  if missing = 1 then message ++ [0x81]
  else message ++ 0x01 :: List.replicate (missing - 2) 0 ++ [0x80]

/-- The eight bytes of a lane, least significant first. -/
def laneBytes (w : UInt64) : Bytes :=
  (List.range 8).map fun i => (w >>> UInt64.ofNat (8 * i)).toUInt8

/-- The Keccak-256 hash of a message, 32 bytes. -/
def hash (message : Bytes) : Bytes :=
  let final := (Bytes.pieces 135 (pad message)).foldl absorb (Vector.replicate 25 0)
  (final.toList.take 4).flatMap laneBytes

end ProxyUpgrade.Keccak
