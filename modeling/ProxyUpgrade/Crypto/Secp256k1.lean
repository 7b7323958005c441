import ProxyUpgrade.Crypto.Sha256
/-!
# Signing on the curve secp256k1

Points of `y² = x³ + 7` over the prime field, in projective coordinates that postpone the division
to the end, and the signature scheme over them. The secret number of a signature is drawn
deterministically from the key and the hash, so signing is a function; of the two signatures that
go with a secret number the one with the smaller `s` is given.
-/

namespace ProxyUpgrade.Secp256k1

/-- The characteristic of the field. -/
def fieldPrime : Nat := 0xfffffffffffffffffffffffffffffffffffffffffffffffffffffffefffffc2f

/-- The order of the group. -/
def order : Nat := 0xfffffffffffffffffffffffffffffffebaaedce6af48a03bbfd25e8cd0364141

/-- The power `b ^ e` modulo `m`. -/
def powMod (m b e : Nat) : Nat :=
  if e = 0 then 1 % m
  else
    let half := powMod m (b * b % m) (e / 2)
    if e % 2 = 0 then half else b * half % m
termination_by e
decreasing_by omega

/-- The inverse modulo a prime. -/
def invMod (p n : Nat) : Nat := powMod p (n % p) (p - 2)

/-- A point `(x / z², y / z³)`; `z = 0` is the point at infinity. -/
structure Point where
  x : Nat
  y : Nat
  z : Nat

namespace Point

/-- The point at infinity. -/
def infinity : Point := ⟨1, 1, 0⟩

/-- The generator of the group. -/
def generator : Point :=
  ⟨0x79be667ef9dcbbac55a06295ce870b07029bfcdb2dce28d959f2815b16f81798,
   0x483ada7726a3c4655da4fbfc0e1108a8fd17b448a68554199c47d08ffb10d4b8, 1⟩

/-- Difference in the field. -/
def sub (a b : Nat) : Nat := (a + (fieldPrime - b % fieldPrime)) % fieldPrime

/-- The double of a point. -/
def double (p : Point) : Point :=
  if p.z = 0 then p
  else
    let m (a b : Nat) : Nat := a * b % fieldPrime
    let yy := m p.y p.y
    let s := m 4 (m p.x yy)
    let t := m 3 (m p.x p.x)
    let x := sub (m t t) (m 2 s)
    ⟨x, sub (m t (sub s x)) (m 8 (m yy yy)), m 2 (m p.y p.z)⟩

/-- The sum of two points. -/
def add (p q : Point) : Point :=
  if p.z = 0 then q
  else if q.z = 0 then p
  else
    let m (a b : Nat) : Nat := a * b % fieldPrime
    let pz := m p.z p.z
    let qz := m q.z q.z
    let u1 := m p.x qz
    let u2 := m q.x pz
    let s1 := m p.y (m qz q.z)
    let s2 := m q.y (m pz p.z)
    if u1 = u2 then
      if s1 = s2 then p.double else infinity
    else
      let h := sub u2 u1
      let r := sub s2 s1
      let hh := m h h
      let hhh := m h hh
      let v := m u1 hh
      let x := sub (sub (m r r) hhh) (m 2 v)
      ⟨x, sub (m r (sub v x)) (m s1 hhh), m h (m p.z q.z)⟩

/-- The multiple `k` of a point. -/
def multiple (k : Nat) (p : Point) : Point :=
  if k = 0 then infinity
  else
    let half := multiple (k / 2) p.double
    if k % 2 = 0 then half else add p half
termination_by k
decreasing_by omega

/-- The coordinates of a finite point. -/
def coordinates (p : Point) : Nat × Nat :=
  let i := invMod fieldPrime p.z
  let ii := i * i % fieldPrime
  (p.x * ii % fieldPrime, p.y * (ii * i % fieldPrime) % fieldPrime)

end Point

/-- A secret key: a number between 1 and the order of the group. -/
structure Key where
  secret : Nat
  pos : 0 < secret
  lt : secret < order

/-- The key that 32 bytes stand for, unless they are zero or too large. -/
def Key.ofNat? (n : Nat) : Option Key :=
  if h : 0 < n ∧ n < order then some ⟨n, h.1, h.2⟩ else none

/-- The 64 bytes of the public key's coordinates. -/
def Key.publicBytes (key : Key) : Bytes :=
  let (x, y) := (Point.generator.multiple key.secret).coordinates
  Bytes.ofNat 32 x ++ Bytes.ofNat 32 y

/-- The two numbers of a signature, and whether the point behind `r` has an odd ordinate. -/
structure Signature where
  r : Nat
  s : Nat
  odd : Bool
  deriving DecidableEq, Repr

/-- The state of the deterministic generator of secret numbers. -/
structure Generator where
  key : Bytes
  value : Bytes

/-- Mixes a mark and further material into the generator. -/
def Generator.mix (g : Generator) (mark : UInt8) (material : Bytes) : Generator :=
  let key := Sha256.hmac g.key (g.value ++ mark :: material)
  ⟨key, Sha256.hmac key g.value⟩

/-- The generator seeded with a key and a hash. -/
def Generator.seeded (key : Key) (hash : Nat) : Generator :=
  let material := Bytes.ofNat 32 key.secret ++ Bytes.ofNat 32 (hash % order)
  (Generator.mk (List.replicate 32 0) (List.replicate 32 1)).mix 0 material |>.mix 1 material

/-- The first number between 1 and the order among the next `tries` of the generator. -/
def Generator.next? : (tries : Nat) → Generator → Option Nat
  | 0, _ => none
  | tries + 1, g =>
    let value := Sha256.hmac g.key g.value
    let k := Bytes.toNat value
    if 0 < k ∧ k < order then some k
    else Generator.next? tries ((Generator.mk g.key value).mix 0 [])

/-- The signature of a hash. There is none only if the generator yields no usable number, which
no key and hash are known to bring about. -/
def Key.sign? (key : Key) (hash : Nat) : Option Signature := do
  let k ← (Generator.seeded key hash).next? 256
  let (x, y) := (Point.generator.multiple k).coordinates
  let r := x % order
  let s := invMod order k * ((hash % order + r * key.secret) % order) % order
  if r = 0 ∨ s = 0 then none
  else if s ≤ order / 2 then some ⟨r, s, y % 2 = 1⟩
  else some ⟨r, order - s, y % 2 = 0⟩

/-- The 65 bytes of a signature: `r`, `s`, and 27 or 28. -/
def Signature.bytes (sig : Signature) : Bytes :=
  Bytes.ofNat 32 sig.r ++ Bytes.ofNat 32 sig.s ++ [if sig.odd then 28 else 27]

end ProxyUpgrade.Secp256k1
