import Elements.Data.MerkleLevels
import Mathlib.Data.Nat.Pairing

/-!
# The Merkle root of a block

`ComputeMerkleRoot` of `consensus/merkle.cpp` builds the tree of a block's
transaction hashes level by level: while more than one hash is left, an odd
last hash is duplicated and each pair is hashed as one 64-byte block
(`SHA256D64`).  The hash is a parameter `Hash`; the code's is the double
SHA-256 of the two children's 64 bytes, and `zero` is `uint256()`.

When asked, it also reports whether some pass hashed two equal siblings
(`*mutated`).  The duplication of an odd last hash lets a second list of
transactions, with the last ones repeated, have the same root (CVE-2012-2459);
the flag is the defence.  Without a collision of the hash, two different
nonempty lists of one tree height with the same root are told apart by the
flag of one of them (`ComputeMerkleRoot_mutated`).
-/

namespace Elements

open MerkleLevels

variable {D : Type} (Hash : D → D → D)

/-- `SHA256D64(out, in, blocks)` over the hashes: each pair of adjacent hashes,
one 64-byte block, hashed. -/
def SHA256D64 : List D → List D
  | a :: b :: rest => Hash a b :: SHA256D64 rest
  | _ => []

/-- One pass of the loop of `ComputeMerkleRoot`: with an odd number of hashes
the last one is pushed again, then the pairs are hashed. -/
def MerklePass (hashes : List D) : List D :=
  SHA256D64 Hash (if hashes.length % 2 = 1 then hashes ++ hashes.getLast?.toList else hashes)

/-- The mutation check of one pass: `hashes[pos] == hashes[pos + 1]` for some
even `pos` with `pos + 1 < hashes.size()`. -/
def MerkleMutation [DecidableEq D] (hashes : List D) : Bool :=
  (List.range (hashes.length / 2)).any fun i => hashes[2 * i]? == hashes[2 * i + 1]?

/-- `while (hashes.size() > 1)`, for at most `fuel` passes; the flag is
`mutation`. -/
def ComputeMerkleRootLoop [DecidableEq D] : Nat → List D → Bool → List D × Bool
  | 0, hashes, mutation => (hashes, mutation)
  | fuel + 1, hashes, mutation =>
    if hashes.length > 1 then
      ComputeMerkleRootLoop fuel (MerklePass Hash hashes) (mutation || MerkleMutation hashes)
    else (hashes, mutation)

/-- `ComputeMerkleRoot(hashes, mutated)`: the root, `uint256()` for no hashes,
and `*mutated`.  A pass at least halves the number of hashes, so as many
passes as hashes are enough. -/
def ComputeMerkleRoot [DecidableEq D] (zero : D) (hashes : List D) : D × Bool :=
  let r := ComputeMerkleRootLoop Hash hashes.length hashes false
  (if r.1.length = 0 then zero else r.1.getD 0 zero, r.2)

/-! ## One pass -/

section Pass

variable {Hash}

theorem SHA256D64_eq_up (l : List D) :
    SHA256D64 Hash (if l.length % 2 = 1 then l ++ l.getLast?.toList else l) = up Hash l := by
  induction l using up.induct with
  | case1 => rfl
  | case2 a => rfl
  | case3 a b rest ih =>
    have hpar : (a :: b :: rest).length % 2 = rest.length % 2 := by simp; omega
    rw [hpar, up, ← ih]
    by_cases hodd : rest.length % 2 = 1
    · -- the last of `a :: b :: rest` is that of `rest`, which has one
      have hne : rest ≠ [] := by rintro rfl; simp at hodd
      rw [if_pos hodd, if_pos hodd, List.getLast?_cons_cons, List.getLast?_cons]
      obtain ⟨x, xs, rfl⟩ := List.exists_cons_of_ne_nil hne
      rfl
    · rw [if_neg hodd, if_neg hodd]
      rfl

theorem MerklePass_eq (hashes : List D) : MerklePass Hash hashes = up Hash hashes :=
  SHA256D64_eq_up hashes

theorem MerkleMutation_iff [DecidableEq D] (hashes : List D) :
    MerkleMutation hashes = true ↔ SiblingsEqual hashes := by
  rw [MerkleMutation, List.any_eq_true]
  constructor
  · rintro ⟨i, hi, heq⟩
    rw [List.mem_range] at hi
    exact ⟨i, by omega, beq_iff_eq.mp heq⟩
  · rintro ⟨i, hi, heq⟩
    exact ⟨i, List.mem_range.mpr (by omega), beq_iff_eq.mpr heq⟩

end Pass

/-! ## The loop -/

section Loop

variable {Hash} [DecidableEq D]

/-- The mutation flag over the first `k` levels above `l`. -/
def MutatedBelow (Hash : D → D → D) (l : List D) (k : Nat) : Bool :=
  (List.range k).any fun j => MerkleMutation (level Hash l j)

theorem MutatedBelow_succ (l : List D) (k : Nat) :
    MutatedBelow Hash l (k + 1) = (MerkleMutation l || MutatedBelow Hash (up Hash l) k) := by
  simp only [MutatedBelow, List.range_succ_eq_map, List.any_cons, List.any_map, level_zero,
    Function.comp_def, level_succ']

theorem MutatedBelow_iff (l : List D) (k : Nat) :
    MutatedBelow Hash l k = true ↔ ∃ j < k, SiblingsEqual (level Hash l j) := by
  simp only [MutatedBelow, List.any_eq_true, List.mem_range, MerkleMutation_iff]

theorem ComputeMerkleRootLoop_eq (fuel : Nat) (l : List D) (mutation : Bool)
    (hfuel : height l.length ≤ fuel) :
    ComputeMerkleRootLoop Hash fuel l mutation =
      (level Hash l (height l.length), mutation || MutatedBelow Hash l (height l.length)) := by
  induction fuel generalizing l mutation with
  | zero =>
    rw [Nat.le_zero.mp hfuel]
    simp [ComputeMerkleRootLoop, MutatedBelow]
  | succ fuel ih =>
    by_cases hl : 1 < l.length
    · -- one pass is one level up, with one level less to go
      have hup := @height_length_up D Hash l hl
      rw [ComputeMerkleRootLoop, if_pos hl, MerklePass_eq, ih _ _ (by omega), ← hup, level_succ',
        MutatedBelow_succ, Bool.or_assoc]
    · have hzero : height l.length = 0 := Nat.clog_of_right_le_one (by omega) 2
      rw [ComputeMerkleRootLoop, if_neg hl, hzero]
      simp [MutatedBelow]

theorem ComputeMerkleRoot_eq (zero : D) {l : List D} (hl : l ≠ []) :
    ComputeMerkleRoot Hash zero l =
      ((level Hash l (height l.length)).getD 0 zero, MutatedBelow Hash l (height l.length)) := by
  rw [ComputeMerkleRoot, ComputeMerkleRootLoop_eq _ _ _ (height_le_self _), level_height zero hl]
  simp

end Loop

/-- Without a collision of the hash, two different nonempty lists of
transactions with one tree height and one root cannot both pass the mutation
check: the duplicated last hash of one is repeated in the other, and one of
their passes hashes two equal siblings. -/
theorem ComputeMerkleRoot_mutated [DecidableEq D] (zero : D) {L L' : List D} (hL : L ≠ []) (hL' : L' ≠ [])
    (hheight : height L.length = height L'.length)
    (hroot : (ComputeMerkleRoot Hash zero L).1 = (ComputeMerkleRoot Hash zero L').1) (hne : L ≠ L') :
    (ComputeMerkleRoot Hash zero L).2 = true ∨ (ComputeMerkleRoot Hash zero L').2 = true ∨ Collision Hash := by
  by_cases hc : Collision Hash
  · exact .inr (.inr hc)
  rw [ComputeMerkleRoot_eq zero hL, ComputeMerkleRoot_eq zero hL'] at hroot ⊢
  dsimp only at hroot ⊢
  have hlevel : level Hash L (height L.length) = level Hash L' (height L.length) := by
    rw [level_height zero hL, hroot, hheight, ← level_height zero hL']
  rcases eq_or_siblingsEqual_of_level_eq hc hlevel with heq | ⟨j, hj, hs | hs⟩
  · exact absurd heq hne
  · exact .inl ((MutatedBelow_iff L _).mpr ⟨j, hj, hs⟩)
  · exact .inr (.inl ((MutatedBelow_iff L' _).mpr ⟨j, hheight ▸ hj, hs⟩))

/-- `[1, 2, 3]` and `[1, 2, 3, 3]` have one root under `Nat.pair`; the second
hashes its last two hashes together. -/
theorem ComputeMerkleRoot_mutated_repeated :
    ([1, 2, 3] : List Nat) ≠ [] ∧ ([1, 2, 3, 3] : List Nat) ≠ [] ∧
      height [1, 2, 3].length = height [1, 2, 3, 3].length ∧
      (ComputeMerkleRoot Nat.pair 0 [1, 2, 3]).1 = (ComputeMerkleRoot Nat.pair 0 [1, 2, 3, 3]).1 ∧
      ([1, 2, 3] : List Nat) ≠ [1, 2, 3, 3] ∧
      ((ComputeMerkleRoot Nat.pair 0 [1, 2, 3]).2 = true ∨ (ComputeMerkleRoot Nat.pair 0 [1, 2, 3, 3]).2 = true ∨
        Collision Nat.pair) :=
  ⟨by decide, by decide, by decide, by decide, by decide,
    ComputeMerkleRoot_mutated _ 0 (by decide) (by decide) (by decide) (by decide) (by decide)⟩

end Elements
