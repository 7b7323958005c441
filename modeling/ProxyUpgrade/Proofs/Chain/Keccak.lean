import ProxyUpgrade.Chain.Address
/-!
# Keccak-256, row by row

Within a proof it takes long to evaluate a hash if lanes are found by their places, as they are in
`Keccak.hash`. It is faster on a list of the rows, where a step takes all lanes at once. A round on
the rows is a round on the state (`Keccak.rows_round`), so that the hash is the same
(`Keccak.hash_eq_hashRows`).
-/

namespace ProxyUpgrade.Keccak

/-- The lanes of a state, row by row. -/
abbrev Rows : Type := List (List UInt64)

/-- The rows of a state. -/
def rows (s : State) : Rows := [0, 1, 2, 3, 4].map fun y => [0, 1, 2, 3, 4].map fun x => lane s x y

/-! ### One round -/

/-- Adds to each row what the parities of the columns come to. -/
def thetaRows : Rows → Rows
  | [] => []
  | first :: rest =>
    match rest.foldl (List.zipWith (· ^^^ ·)) first with
    | [a, b, c, d, e] =>
      (first :: rest).map fun row => row.zipWith (· ^^^ ·) [e ^^^ rotateLeft b 1,
        a ^^^ rotateLeft c 1, b ^^^ rotateLeft d 1, c ^^^ rotateLeft e 1, d ^^^ rotateLeft a 1]
    | _ => []

/-- Rotates the lanes and moves them to their new places. -/
def rhoPiRows : Rows → Rows
  | [[a₀, a₁, a₂, a₃, a₄], [b₀, b₁, b₂, b₃, b₄], [c₀, c₁, c₂, c₃, c₄], [d₀, d₁, d₂, d₃, d₄],
      [e₀, e₁, e₂, e₃, e₄]] =>
    [[a₀, rotateLeft b₁ 44, rotateLeft c₂ 43, rotateLeft d₃ 21, rotateLeft e₄ 14],
      [rotateLeft a₃ 28, rotateLeft b₄ 20, rotateLeft c₀ 3, rotateLeft d₁ 45, rotateLeft e₂ 61],
      [rotateLeft a₁ 1, rotateLeft b₂ 6, rotateLeft c₃ 25, rotateLeft d₄ 8, rotateLeft e₀ 18],
      [rotateLeft a₄ 27, rotateLeft b₀ 36, rotateLeft c₁ 10, rotateLeft d₂ 15, rotateLeft e₃ 56],
      [rotateLeft a₂ 62, rotateLeft b₃ 55, rotateLeft c₄ 39, rotateLeft d₀ 41, rotateLeft e₁ 2]]
  | _ => []

/-- Combines each lane of a row with the two to its right. -/
def chiRow : List UInt64 → List UInt64
  | [a, b, c, d, e] => [a ^^^ (~~~b &&& c), b ^^^ (~~~c &&& d), c ^^^ (~~~d &&& e),
      d ^^^ (~~~e &&& a), e ^^^ (~~~a &&& b)]
  | _ => []

/-- Adds a constant to the first lane. -/
def addConstant (constant : UInt64) : Rows → Rows
  | (lane :: row) :: rest => ((lane ^^^ constant) :: row) :: rest
  | _ => []

def roundRows (lanes : Rows) (constant : UInt64) : Rows :=
  addConstant constant ((rhoPiRows (thetaRows lanes)).map chiRow)

theorem get_mk {α : Type} {n i : Nat} (v : Vector α n) (h : i < n) : v.get ⟨i, h⟩ = v[i] := rfl

theorem rows_theta (s : State) : rows (theta s) = thetaRows (rows s) := by
  simp [rows, theta, thetaRows, lane, get_mk]

theorem rows_rhoPi (s : State) : rows (rhoPi s) = rhoPiRows (rows s) := by
  simp [rows, rhoPi, rhoPiRows, lane, offsets, rotateLeft, get_mk]

theorem rows_chi (s : State) : rows (chi s) = (rows s).map chiRow := by
  simp [rows, chi, chiRow, lane, get_mk]

/-- **A round on the rows is a round.** -/
theorem rows_round (s : State) (constant : UInt64) :
    rows (round s constant) = roundRows (rows s) constant := by
  have hconstant : rows (round s constant) =
      addConstant constant (rows (chi (rhoPi (theta s)))) := by
    simp [rows, round, lane, addConstant, get_mk]
  rw [hconstant, rows_chi, rows_rhoPi, rows_theta, roundRows]

/-! ### The sponge -/

/-- Adds a block to the rows and permutes. -/
def absorbRows (lanes : Rows) (block : Bytes) : Rows :=
  let words := ((Bytes.pieces 7 block).map littleEndian).toArray
  roundConstants.foldl roundRows
    (lanes.zipWith (List.zipWith (· ^^^ ·)) (rows (Vector.ofFn fun i => words.getD i 0)))

/-- The hash of a message, with the lanes in rows. -/
def hashRows (message : Bytes) : Bytes :=
  let final := (Bytes.pieces 135 (pad message)).foldl absorbRows (rows (Vector.replicate 25 0))
  (final.flatten.take 4).flatMap laneBytes

theorem rows_permute (s : State) : rows (permute s) = roundConstants.foldl roundRows (rows s) :=
  (List.foldl_hom rows fun s constant => (rows_round s constant).symm).symm

theorem rows_absorb (s : State) (block : Bytes) :
    rows (absorb s block) = absorbRows (rows s) block := by
  rw [absorb, rows_permute, absorbRows]
  refine congrArg (roundConstants.foldl roundRows) ?_
  simp [rows, lane, get_mk]

/-- The first lanes are those of the first row. -/
theorem take_flatten_rows (s : State) : (rows s).flatten.take 4 = s.toList.take 4 := by
  refine List.ext_getElem (by simp [rows]) fun i _ hi => ?_
  have hcases : i = 0 ∨ i = 1 ∨ i = 2 ∨ i = 3 := by
    rw [List.length_take] at hi
    omega
  rw [List.getElem_take, List.getElem_take, Vector.getElem_toList]
  rcases hcases with rfl | rfl | rfl | rfl <;> rfl

/-- **The hash can be evaluated row by row.** -/
theorem hash_eq_hashRows (message : Bytes) : hash message = hashRows message := by
  have hfinal : rows ((Bytes.pieces 135 (pad message)).foldl absorb (Vector.replicate 25 0)) =
      (Bytes.pieces 135 (pad message)).foldl absorbRows (rows (Vector.replicate 25 0)) :=
    (List.foldl_hom rows fun s block => (rows_absorb s block).symm).symm
  rw [hash, hashRows, ← hfinal, take_flatten_rows]

end ProxyUpgrade.Keccak
