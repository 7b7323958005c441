import ProxyUpgrade.Abi.Encode
import ProxyUpgrade.Bytes.Basic
/-!
# Reading encoded contract values

The counterpart of `Abi.encode`: given the kinds of the arguments, a byte string is read back into
values. A sequence is read in its *frame*, the bytes from its start on, since references count from
there. Words that no value of the kind has are refused.
-/

namespace ProxyUpgrade.Abi

/-- So many bytes from a position on. -/
def slice? (frame : Bytes) (start size : Nat) : Option Bytes :=
  let bytes := (frame.drop start).take size
  if bytes.length = size then some bytes else none

/-- The number of the word at a position. -/
def wordAt? (frame : Bytes) (start : Nat) : Option Nat := (slice? frame start 32).map Bytes.toNat

/-- A byte string whose length is at the start of the frame. -/
def bytesAt? (frame : Bytes) : Option Bytes := do
  let size ← wordAt? frame 0
  if size ≤ frame.length then slice? frame 32 size else none

/-- The first bytes of a word of which all others are zero. -/
def leading? (size : Nat) (bytes : Bytes) : Option Bytes :=
  if (bytes.drop size).all (· == 0) then some (bytes.take size) else none

/-- The signed number of so many bits that a word stands for. -/
def signed? (bits : Nat) (n : Nat) : Option Int :=
  let value := (BitVec.ofNat 256 n).toInt
  if Bits.fitsSigned bits value then some value else none

/-- Reads so many items with one reader, which also says where the next item has its place. -/
def repeated (read : Nat → Option (Value × Nat)) :
    (count : Nat) → (place : Nat) → Option (List Value × Nat)
  | 0, place => some ([], place)
  | count + 1, place => do
    let (item, place) ← read place
    let (rest, place) ← repeated read count place
    pure (item :: rest, place)

namespace Kind

mutual

/-- Reads the value that has its place at a position of the frame, and says where the next place is.
-/
def decode? : Kind → (frame : Bytes) → (place : Nat) → Option (Value × Nat)
  | bool, frame, place => do
    let n ← wordAt? frame place
    if n ≤ 1 then pure (.bool (n == 1), place + 32) else none
  | address, frame, place => do
    let n ← wordAt? frame place
    if Bits.fits 160 n then pure (.address (Address.ofNat n), place + 32) else none
  | function, frame, place => do
    let raw ← leading? 24 (← slice? frame place 32)
    pure (.function raw, place + 32)
  | string, frame, place => do
    let raw ← bytesAt? (frame.drop (← wordAt? frame place))
    let text ← Bytes.toText? raw
    pure (.string text, place + 32)
  | bytes, frame, place => do
    let raw ← bytesAt? (frame.drop (← wordAt? frame place))
    pure (.bytes raw, place + 32)
  | fixedBytes size, frame, place => do
    let raw ← leading? size (← slice? frame place 32)
    pure (.fixedBytes raw, place + 32)
  | uint bits, frame, place => do
    let n ← wordAt? frame place
    if Bits.fits bits n then pure (.uint n bits, place + 32) else none
  | int bits, frame, place => do
    let n ← signed? bits (← wordAt? frame place)
    pure (.int n bits, place + 32)
  | array item, frame, place => do
    let inner := frame.drop (← wordAt? frame place)
    let count ← wordAt? inner 0
    let (items, _) ← repeated (item.decode? (inner.drop 32)) count 0
    pure (.array items, place + 32)
  | fixedArray item length, frame, place =>
    if item.isDynamic then do
      let inner := frame.drop (← wordAt? frame place)
      let (items, _) ← repeated (item.decode? inner) length 0
      pure (.fixedArray items, place + 32)
    else do
      let (items, place) ← repeated (item.decode? frame) length place
      pure (.fixedArray items, place)
  | tuple items, frame, place =>
    if anyDynamic items then do
      let inner := frame.drop (← wordAt? frame place)
      let (values, _) ← decodeAll? items inner 0
      pure (.tuple values, place + 32)
    else do
      let (values, place) ← decodeAll? items frame place
      pure (.tuple values, place)

/-- Reads values of the given kinds from consecutive places. -/
def decodeAll? : List Kind → (frame : Bytes) → (place : Nat) → Option (List Value × Nat)
  | [], _, place => some ([], place)
  | kind :: rest, frame, place => do
    let (value, place) ← kind.decode? frame place
    let (values, place) ← decodeAll? rest frame place
    pure (value :: values, place)

end

end Kind

/-- Reads the arguments of a function that takes values of the given kinds. -/
def decode? (kinds : List Kind) (bytes : Bytes) : Option (List Value) :=
  (Kind.decodeAll? kinds bytes 0).map (·.1)

end ProxyUpgrade.Abi
