import Elements.Crypto.Hashes
import Elements.Crypto.Sha256
import Elements.Data.BinaryCounter

/-!
# The fast Merkle root

`ComputeFastMerkleRoot` of `primitives/txwitness.cpp`, the Merkle tree Elements
uses for witness and parameter commitments.  It keeps one pending subtree hash
per level, in `inner`, and folds a new leaf into the subtrees whose level bit
becomes zero when the leaf count is incremented; a final sweep combines the
pending hashes along the rightmost branch.  An odd node is carried up a level
without being hashed.

The count is a `uint32_t`, so its increments wrap modulo `2 ^ 32`.  The loops
over levels test `count & (1 << level)`, which is undefined once `level`
reaches 32: the model fails there (`none`).

The root is the recursive tree `BinaryCounter.splitRoot`, which splits a list
at the largest power of two below its length (`ComputeFastMerkleRoot_eq_splitRoot`),
for up to `2 ^ 31` leaves.  For every longer list the count wraps to zero,
in the final sweep or in the leaf loop, and the next loop shifts past 31
(`ComputeFastMerkleRoot_eq_none`).
-/

namespace Elements

open BinaryCounter

/-- `MerkleHash_Sha256Midstate`: the SHA-256 compression of the two children,
read off without padding. -/
def MerkleHash_Sha256Midstate (left right : Uint256) : Uint256 :=
  ⟨((CSHA256.new.Write left.data).Write right.data).Midstate, length_Midstate _⟩

/-- `for (; !(count & (1 << level)); level++) temp = node(inner[level], temp)`:
combine the new subtree with the pending ones below the lowest set bit.  The
fuel is never what stops it: a climb given at least the levels left below 32
reaches the undefined shift first. -/
def FastMerkleClimb (node : Uint256 -> Uint256 -> Uint256) (inner : Nat -> Uint256)
    (count : Nat) : Nat -> Nat -> Uint256 -> Option (Nat × Uint256)
  | fuel, level, temp =>
      if 32 ≤ level then none
      else if count.testBit level then some (level, temp)
      else match fuel with
        | 0 => none
        | fuel + 1 => FastMerkleClimb node inner count fuel (level + 1) (node (inner level) temp)

/-- The leaf loop: each leaf increments `count` and is stored, combined, at the
level of the lowest set bit of the new count. -/
def FastMerkleLeaves (node : Uint256 -> Uint256 -> Uint256) :
    List Uint256 -> Nat -> (Nat -> Uint256) -> Option (Nat × (Nat -> Uint256))
  | [], count, inner => some (count, inner)
  | hash :: hashes, count, inner => do
      let count := (count + 1) % 2 ^ 32
      let climbed ← FastMerkleClimb node inner count 32 0 hash
      FastMerkleLeaves node hashes count (Function.update inner climbed.1 climbed.2)

/-- `while (!(count & (1 << level))) level++`. -/
def FastMerkleSkip (count : Nat) : Nat -> Nat -> Option Nat
  | fuel, level =>
      if 32 ≤ level then none
      else if count.testBit level then some level
      else match fuel with
        | 0 => none
        | fuel + 1 => FastMerkleSkip count fuel (level + 1)

/-- The final sweep: while `count` is not a power of two at `level`, pretend a
sibling at `level` exists and combine the pending hashes above it.  Each turn
raises `level`, which a successful climb leaves below 32, so 32 turns are
never used up. -/
def FastMerkleSweep (node : Uint256 -> Uint256 -> Uint256) (inner : Nat -> Uint256) :
    Nat -> Nat -> Nat -> Uint256 -> Option Uint256
  | fuel, count, level, result =>
      if count = 2 ^ level then some result
      else match fuel with
        | 0 => none
        | fuel + 1 => do
          let count := (count + 2 ^ level) % 2 ^ 32
          let climbed ← FastMerkleClimb node inner count 32 (level + 1) result
          FastMerkleSweep node inner fuel count climbed.1 climbed.2

def ComputeFastMerkleRoot (node : Uint256 -> Uint256 -> Uint256) (hashes : List Uint256) :
    Option Uint256 :=
  if hashes.isEmpty then some (BaseBlob.zero 32)
  else do
    let leaves ← FastMerkleLeaves node hashes 0 (fun _ => BaseBlob.zero 32)
    let level ← FastMerkleSkip leaves.1 32 0
    FastMerkleSweep node leaves.2 32 leaves.1 level (leaves.2 level)

theorem ComputeFastMerkleRoot_of_leaves (node : Uint256 -> Uint256 -> Uint256)
    {hashes : List Uint256} (hne : hashes ≠ []) {count : Nat} {inner : Nat -> Uint256}
    (hleaves : FastMerkleLeaves node hashes 0 (fun _ => BaseBlob.zero 32) = some (count, inner)) :
    ComputeFastMerkleRoot node hashes =
      (FastMerkleSkip count 32 0).bind fun level => FastMerkleSweep node inner 32 count level (inner level) := by
  simp only [ComputeFastMerkleRoot, List.isEmpty_iff, hne, if_false, hleaves]
  rfl

theorem FastMerkleClimb_of_mod_eq_zero (node : Uint256 -> Uint256 -> Uint256)
    (inner : Nat -> Uint256) {count : Nat} (hcount : count % 2 ^ 32 = 0) (fuel level : Nat)
    (temp : Uint256) : FastMerkleClimb node inner count fuel level temp = none := by
  have hbit : ∀ level, ¬32 ≤ level -> count.testBit level = false := fun _ hlt =>
    testBit_eq_false_of_mod_two_pow_eq_zero hcount (Nat.lt_of_not_le hlt)
  induction fuel generalizing level temp with
  | zero =>
    rw [FastMerkleClimb]
    by_cases hge : 32 ≤ level
    · rw [if_pos hge]
    · rw [if_neg hge, hbit level hge]
      rfl
  | succ fuel ih =>
    rw [FastMerkleClimb]
    by_cases hge : 32 ≤ level
    · rw [if_pos hge]
    · rw [if_neg hge, hbit level hge]
      exact ih _ _

/-!
## The tree the loops build

`PendingRoots` is the invariant of the leaf loop: after the leaves `done`,
each set bit `ℓ` of the count holds the root of the `2 ^ ℓ` leaves of its
aligned block.  The final sweep then folds these onto the rightmost branch,
which is the recursive split of `BinaryCounter.splitRoot` at the largest power
of two below the length.
-/

section Tree

variable (node : Uint256 -> Uint256 -> Uint256)

/-- After the leaves `done`, `inner ℓ` is the root of the block of bit `ℓ`. -/
def PendingRoots (done : List Uint256) (inner : Nat -> Uint256) : Prop :=
  ∀ ℓ, done.length.testBit ℓ = true ->
    inner ℓ = splitRoot node (BaseBlob.zero 32)
      ((done.drop (done.length / 2 ^ (ℓ + 1) * 2 ^ (ℓ + 1))).take (2 ^ ℓ))

variable {node}

theorem lt_32_of_mod_two_pow {count level : Nat} (hlevel : count % 2 ^ level = 0)
    (hcount : count % 2 ^ 32 ≠ 0) : level < 32 := by
  by_contra hge
  exact mod_two_pow_ne_zero_of_le (Nat.le_of_not_lt hge) hcount hlevel

theorem FastMerkleClimb_spec (inner : Nat -> Uint256) (count : Nat)
    (P : Nat -> Uint256 -> Prop)
    (hstep : ∀ ℓ temp, count % 2 ^ (ℓ + 1) = 0 -> P ℓ temp -> P (ℓ + 1) (node (inner ℓ) temp))
    (hcount : count % 2 ^ 32 ≠ 0) (fuel level : Nat) (temp : Uint256)
    (hlevel : count % 2 ^ level = 0) (hfuel : 32 ≤ level + fuel) (hP : P level temp) :
    ∃ L r, FastMerkleClimb node inner count fuel level temp = some (L, r) ∧
      count.testBit L = true ∧ count % 2 ^ L = 0 ∧ level ≤ L ∧ P L r := by
  have hlt := lt_32_of_mod_two_pow hlevel hcount
  induction fuel generalizing level temp with
  | zero => omega
  | succ fuel ih =>
    rw [FastMerkleClimb, if_neg (Nat.not_le.mpr hlt)]
    cases hbit : count.testBit level with
    | true => exact ⟨level, temp, rfl, hbit, hlevel, Nat.le_refl _, hP⟩
    | false =>
      have hnext := mod_two_pow_succ_of_testBit_false hlevel hbit
      obtain ⟨L, r, hclimb, hL, hmod, hle, hr⟩ := ih (level + 1) (node (inner level) temp)
        hnext (by omega) (hstep level temp hnext hP) (lt_32_of_mod_two_pow hnext hcount)
      exact ⟨L, r, hclimb, hL, hmod, by omega, hr⟩

theorem FastMerkleSkip_spec (count : Nat) (hcount : count % 2 ^ 32 ≠ 0) (fuel level : Nat)
    (hlevel : count % 2 ^ level = 0) (hfuel : 32 ≤ level + fuel) :
    ∃ L, FastMerkleSkip count fuel level = some L ∧ count.testBit L = true ∧ count % 2 ^ L = 0 := by
  have hlt := lt_32_of_mod_two_pow hlevel hcount
  induction fuel generalizing level with
  | zero => omega
  | succ fuel ih =>
    rw [FastMerkleSkip, if_neg (Nat.not_le.mpr hlt)]
    cases hbit : count.testBit level with
    | true => exact ⟨level, rfl, hbit, hlevel⟩
    | false =>
      have hnext := mod_two_pow_succ_of_testBit_false hlevel hbit
      exact ih (level + 1) hnext (by omega) (lt_32_of_mod_two_pow hnext hcount)

theorem take_drop_append_of_le (done rest : List Uint256) (k w : Nat)
    (h : k + w ≤ done.length) : ((done ++ rest).drop k).take w = (done.drop k).take w := by
  rw [List.drop_append_of_le_length (by omega), List.take_append_of_le_length (by
    rw [List.length_drop]; omega)]

theorem PendingRoots_nil : PendingRoots node [] (fun _ => BaseBlob.zero 32) := by
  intro ℓ hℓ
  simp at hℓ

theorem PendingRoots_step (done : List Uint256) (inner : Nat -> Uint256) (x : Uint256)
    (hinv : PendingRoots node done inner) (hroom : done.length + 1 < 2 ^ 32) :
    ∃ L r, FastMerkleClimb node inner (done.length + 1) 32 0 x = some (L, r) ∧
      PendingRoots node (done ++ [x]) (Function.update inner L r) := by
  let P : Nat -> Uint256 -> Prop := fun ℓ temp =>
    temp = splitRoot node (BaseBlob.zero 32) ((done ++ [x]).drop (done.length + 1 - 2 ^ ℓ))
  have hlen : (done ++ [x]).length = done.length + 1 := by simp
  have hstep : ∀ ℓ temp, (done.length + 1) % 2 ^ (ℓ + 1) = 0 -> P ℓ temp ->
      P (ℓ + 1) (node (inner ℓ) temp) := by
    intro ℓ temp hs hP
    have hbit : done.length.testBit ℓ = true := testBit_of_succ_mod_eq_zero hs (Nat.lt_succ_self ℓ)
    have hpos := Nat.two_pow_pos ℓ
    have hge : 2 ^ (ℓ + 1) ≤ done.length + 1 :=
      Nat.le_of_dvd (Nat.succ_pos _) (Nat.dvd_of_mod_eq_zero hs)
    have hbase : done.length / 2 ^ (ℓ + 1) * 2 ^ (ℓ + 1) = done.length + 1 - 2 ^ (ℓ + 1) := by
      rw [block_base_eq_sub_mod, mod_two_pow_of_succ_mod_eq_zero hs]
      omega
    have hpow : 2 ^ (ℓ + 1) = 2 ^ ℓ + 2 ^ ℓ := by rw [Nat.pow_succ]; omega
    have hsplit := splitRoot_split node (BaseBlob.zero 32)
      ((done ++ [x]).drop (done.length + 1 - 2 ^ (ℓ + 1))) ℓ
      (by rw [List.length_drop, hlen]; omega) (by rw [List.length_drop, hlen]; omega)
    show node (inner ℓ) temp = _
    rw [hsplit, hinv ℓ hbit, hbase, hP, List.drop_drop,
      take_drop_append_of_le done [x] _ _ (by omega)]
    congr 3
    omega
  have hcount : (done.length + 1) % 2 ^ 32 ≠ 0 := by
    rw [Nat.mod_eq_of_lt hroom]
    omega
  have hstart : P 0 x := by
    show x = _
    rw [Nat.pow_zero, Nat.add_sub_cancel, List.drop_left, splitRoot_singleton]
  obtain ⟨L, r, hclimb, hL, hmod, -, hr⟩ :=
    FastMerkleClimb_spec inner (done.length + 1) P hstep hcount 32 0 x (Nat.mod_one _) (by omega) hstart
  refine ⟨L, r, hclimb, ?_⟩
  intro ℓ hℓ
  rw [hlen] at hℓ ⊢
  by_cases hℓL : ℓ = L
  · -- the block stored at the stopping bit is the last `2 ^ L` leaves
    subst hℓL
    have hlow := mod_two_pow_succ_of_testBit_true hmod hL
    have hpos := Nat.two_pow_pos ℓ
    rw [Function.update_self, hr, block_base_eq_sub_mod, hlow, List.take_of_length_le (by
      rw [List.length_drop, hlen]; omega)]
  · -- above the stopping bit, the count's bits and blocks are those before the leaf
    have hlt : L < ℓ := by
      rcases Nat.lt_or_gt_of_ne hℓL with h | h
      · rw [testBit_eq_false_of_mod_two_pow_eq_zero hmod h] at hℓ
        exact absurd hℓ (by decide)
      · exact h
    have hold : done.length.testBit ℓ = true := by
      rw [← testBit_pred_of_lt hmod hL hlt] at hℓ
      simpa using hℓ
    have hquot : (done.length + 1) / 2 ^ (ℓ + 1) = done.length / 2 ^ (ℓ + 1) := by
      rw [← pred_div_two_pow hmod hL (by omega : L < ℓ + 1), Nat.add_sub_cancel]
    rw [Function.update_of_ne hℓL, hinv ℓ hold, hquot,
      take_drop_append_of_le done [x] _ _ (block_end_le hold)]

theorem FastMerkleLeaves_spec (hashes done : List Uint256) (inner : Nat -> Uint256)
    (hinv : PendingRoots node done inner) (hroom : done.length + hashes.length < 2 ^ 32) :
    ∃ inner', FastMerkleLeaves node hashes done.length inner =
        some (done.length + hashes.length, inner') ∧ PendingRoots node (done ++ hashes) inner' := by
  induction hashes generalizing done inner with
  | nil => exact ⟨inner, rfl, by simpa using hinv⟩
  | cons x hashes ih =>
    rw [List.length_cons] at hroom
    have hlen : (done ++ [x]).length = done.length + 1 := by simp
    have hcount : (done.length + 1) % 2 ^ 32 = done.length + 1 := Nat.mod_eq_of_lt (by omega)
    obtain ⟨L, r, hclimb, hstep⟩ := PendingRoots_step done inner x hinv (by omega)
    obtain ⟨inner', hrest, hinv'⟩ := ih (done ++ [x]) _ hstep (by rw [hlen]; omega)
    rw [hlen] at hrest
    rw [List.append_assoc, List.singleton_append] at hinv'
    refine ⟨inner', ?_, hinv'⟩
    simp only [FastMerkleLeaves, hcount, hclimb, Option.bind_eq_bind, Option.bind_some]
    rw [hrest, List.length_cons, Nat.add_comm hashes.length, Nat.add_assoc]

/-- At the top of the sweep's loop, at `level`: the count is the number of
leaves with the bits up to `level` replaced by the one bit `level`, leaves
remain below that bit, and the result is the root of the leaves from the
start of the block of `level` on. -/
structure SweepAt (node : Uint256 -> Uint256 -> Uint256) (hashes : List Uint256) (count level : Nat) (result : Uint256) : Prop where
  count_eq : count = hashes.length / 2 ^ (level + 1) * 2 ^ (level + 1) + 2 ^ level
  pending : hashes.length % 2 ^ (level + 1) ≠ 0
  result_eq : result = splitRoot node (BaseBlob.zero 32)
    (hashes.drop (hashes.length / 2 ^ (level + 1) * 2 ^ (level + 1)))

theorem SweepAt_start (hashes : List Uint256) (inner : Nat -> Uint256) (level : Nat)
    (hinv : PendingRoots node hashes inner) (hbit : hashes.length.testBit level = true)
    (hmod : hashes.length % 2 ^ level = 0) :
    SweepAt node hashes hashes.length level (inner level) := by
  have hlow := mod_two_pow_succ_of_testBit_true hmod hbit
  have hsplit := Nat.mod_add_div hashes.length (2 ^ (level + 1))
  have hpos := Nat.two_pow_pos level
  refine ⟨?_, by omega, ?_⟩
  · rw [hlow, Nat.mul_comm] at hsplit
    omega
  · rw [hinv level hbit, List.take_of_length_le (by
      rw [List.length_drop, block_base_eq_sub_mod, hlow]; omega)]

theorem SweepAt_step (hashes : List Uint256) (inner : Nat -> Uint256) (count level : Nat)
    (result : Uint256) (hinv : PendingRoots node hashes inner)
    (hat : SweepAt node hashes count level result) (hne : count ≠ 2 ^ level)
    (hsize : hashes.length ≤ 2 ^ 31) :
    ∃ level' result', FastMerkleClimb node inner ((count + 2 ^ level) % 2 ^ 32) 32 (level + 1)
        result = some (level', result') ∧ level < level' ∧
      SweepAt node hashes ((count + 2 ^ level) % 2 ^ 32) level' result' := by
  obtain ⟨hcount, hpending, hresult⟩ := hat
  set n := hashes.length with hn
  set q := n / 2 ^ (level + 1) with hq
  have hp := Nat.two_pow_pos (level + 1)
  have hpow : 2 ^ (level + 1) = 2 ^ level + 2 ^ level := by rw [Nat.pow_succ]; omega
  have hsplit := Nat.mod_add_div n (2 ^ (level + 1))
  rw [← hq] at hsplit
  have hrem := Nat.mod_lt n hp
  have hq_pos : 0 < q := by
    rcases Nat.eq_zero_or_pos q with h | h
    · rw [h, Nat.zero_mul, Nat.zero_add] at hcount
      exact absurd hcount hne
    · exact h
  have hqp : 2 ^ (level + 1) ≤ q * 2 ^ (level + 1) := Nat.le_mul_of_pos_left _ hq_pos
  have hcarry : count + 2 ^ level = (q + 1) * 2 ^ (level + 1) := by
    rw [hcount, Nat.add_mul, Nat.one_mul]
    omega
  have hlt32 : (q + 1) * 2 ^ (level + 1) < 2 ^ 32 := by
    have hn_split : n % 2 ^ (level + 1) + q * 2 ^ (level + 1) = n := by
      rw [Nat.mul_comm q]; exact hsplit
    have hpend : 0 < n % 2 ^ (level + 1) := Nat.pos_of_ne_zero hpending
    have h32 : (2 : Nat) ^ 32 = 2 ^ 31 + 2 ^ 31 := by norm_num
    rw [Nat.add_mul, Nat.one_mul]
    omega
  have hwrap : (count + 2 ^ level) % 2 ^ 32 = (q + 1) * 2 ^ (level + 1) := by
    rw [hcarry, Nat.mod_eq_of_lt hlt32]
  rw [hwrap]
  let P : Nat -> Uint256 -> Prop := fun ℓ temp =>
    level + 1 ≤ ℓ ∧ temp = splitRoot node (BaseBlob.zero 32) (hashes.drop (n / 2 ^ ℓ * 2 ^ ℓ))
  have hstep : ∀ ℓ temp, (q + 1) * 2 ^ (level + 1) % 2 ^ (ℓ + 1) = 0 -> P ℓ temp ->
      P (ℓ + 1) (node (inner ℓ) temp) := by
    rintro ℓ temp hc ⟨hℓ, htemp⟩
    obtain ⟨t, rfl⟩ : ∃ t, ℓ = t + (level + 1) := ⟨ℓ - (level + 1), by omega⟩
    have hq1 : (q + 1) % 2 ^ (t + 1) = 0 := by
      rw [show t + (level + 1) + 1 = (t + 1) + (level + 1) by omega, mul_two_pow_mod] at hc
      exact (Nat.mul_eq_zero.mp hc).resolve_right (Nat.pos_iff_ne_zero.mp hp)
    have hbit : n.testBit (t + (level + 1)) = true := by
      rw [← Nat.testBit_div_two_pow, ← hq]
      exact testBit_of_succ_mod_eq_zero hq1 (Nat.lt_succ_self t)
    have hpend : n % 2 ^ (t + (level + 1)) ≠ 0 :=
      mod_two_pow_ne_zero_of_le (by omega) hpending
    have hpos := Nat.two_pow_pos (t + (level + 1))
    have hbase := block_base_of_testBit hbit
    have hmodlt := Nat.mod_lt n hpos
    have hlen : (hashes.drop (n / 2 ^ (t + (level + 1) + 1) * 2 ^ (t + (level + 1) + 1))).length =
        2 ^ (t + (level + 1)) + n % 2 ^ (t + (level + 1)) := by
      rw [List.length_drop, ← hn]
      have hsub := block_base_eq_sub_mod n (t + (level + 1))
      have := Nat.mod_le n (2 ^ (t + (level + 1)))
      omega
    have hsplit := splitRoot_split node (BaseBlob.zero 32)
      (hashes.drop (n / 2 ^ (t + (level + 1) + 1) * 2 ^ (t + (level + 1) + 1))) (t + (level + 1))
      (by rw [hlen]; omega) (by rw [hlen, Nat.pow_succ]; omega)
    refine ⟨by omega, ?_⟩
    rw [hsplit, hinv _ hbit, List.drop_drop, htemp, hbase, Nat.add_comm]
  have hstart : P (level + 1) result := ⟨Nat.le_refl _, hresult⟩
  have hcount : (q + 1) * 2 ^ (level + 1) % 2 ^ 32 ≠ 0 := by
    rw [Nat.mod_eq_of_lt hlt32]
    exact Nat.ne_of_gt (Nat.mul_pos (Nat.succ_pos q) hp)
  obtain ⟨L, r, hclimb, hL, hmod, hle, -, hr⟩ := FastMerkleClimb_spec inner
    ((q + 1) * 2 ^ (level + 1)) P hstep hcount 32 (level + 1) result
    (by rw [Nat.mul_mod_left]) (by omega) hstart
  obtain ⟨t, rfl⟩ : ∃ t, L = t + (level + 1) := ⟨L - (level + 1), by omega⟩
  have hq1_mod : (q + 1) % 2 ^ t = 0 := by
    rw [mul_two_pow_mod] at hmod
    exact (Nat.mul_eq_zero.mp hmod).resolve_right (Nat.pos_iff_ne_zero.mp hp)
  have hq1_bit : (q + 1).testBit t = true := by rwa [testBit_mul_two_pow] at hL
  have hzero : n.testBit (t + (level + 1)) = false := by
    rw [← Nat.testBit_div_two_pow, ← hq]
    simpa using testBit_pred_self hq1_mod hq1_bit
  refine ⟨t + (level + 1), r, hclimb, by omega, ⟨?_, ?_, ?_⟩⟩
  · have hlow := mod_two_pow_succ_of_testBit_true hmod hL
    have hdiv := Nat.mod_add_div ((q + 1) * 2 ^ (level + 1)) (2 ^ (t + (level + 1) + 1))
    have hquot : (q + 1) * 2 ^ (level + 1) / 2 ^ (t + (level + 1) + 1) =
        n / 2 ^ (t + (level + 1) + 1) := by
      rw [show t + (level + 1) + 1 = (t + 1) + (level + 1) by omega, mul_two_pow_div,
        ← pred_div_two_pow hq1_mod hq1_bit (Nat.lt_succ_self t), Nat.add_sub_cancel, hq,
        Nat.div_div_eq_div_mul, ← Nat.pow_add, Nat.add_comm (level + 1)]
    rw [hlow, hquot, Nat.mul_comm] at hdiv
    rw [← hn]
    omega
  · exact mod_two_pow_ne_zero_of_le (by omega) hpending
  · rw [hr, block_base_of_testBit_false hzero]

theorem FastMerkleSweep_spec (hashes : List Uint256) (inner : Nat -> Uint256)
    (hinv : PendingRoots node hashes inner) (hsize : hashes.length ≤ 2 ^ 31) (fuel : Nat) :
    ∀ count level result, SweepAt node hashes count level result ->
      hashes.length < 2 ^ (level + 1 + fuel) ->
      FastMerkleSweep node inner fuel count level result =
        some (splitRoot node (BaseBlob.zero 32) hashes) := by
  induction fuel with
  | zero =>
    intro count level result hat hlt
    have hzero : hashes.length / 2 ^ (level + 1) = 0 := Nat.div_eq_of_lt hlt
    have hdone : count = 2 ^ level := by rw [hat.count_eq, hzero, Nat.zero_mul, Nat.zero_add]
    rw [FastMerkleSweep, if_pos hdone, hat.result_eq, hzero, Nat.zero_mul, List.drop_zero]
  | succ fuel ih =>
    intro count level result hat hlt
    by_cases hdone : count = 2 ^ level
    · -- the count is one bit: no leaves remain above `level`
      have hzero : hashes.length / 2 ^ (level + 1) = 0 := by
        have hc := hat.count_eq
        rw [hdone] at hc
        have hp := Nat.two_pow_pos (level + 1)
        rcases Nat.eq_zero_or_pos (hashes.length / 2 ^ (level + 1)) with h | h
        · exact h
        · have := Nat.le_mul_of_pos_left (2 ^ (level + 1)) h
          omega
      rw [FastMerkleSweep, if_pos hdone, hat.result_eq, hzero, Nat.zero_mul, List.drop_zero]
    · obtain ⟨level', result', hclimb, hlt', hat'⟩ :=
        SweepAt_step hashes inner count level result hinv hat hdone hsize
      rw [FastMerkleSweep, if_neg hdone]
      simp only [hclimb, Option.bind_eq_bind, Option.bind_some]
      exact ih _ _ _ hat' (Nat.lt_of_lt_of_le hlt (Nat.pow_le_pow_right (by decide) (by omega)))

/-- `ComputeFastMerkleRoot` is the recursive split of the leaves at the
largest power of two below their number, for up to `2 ^ 31` leaves. -/
theorem ComputeFastMerkleRoot_eq_splitRoot (hashes : List Uint256) (hne : hashes ≠ [])
    (hsize : hashes.length ≤ 2 ^ 31) :
    ComputeFastMerkleRoot node hashes = some (splitRoot node (BaseBlob.zero 32) hashes) := by
  have hpos : 0 < hashes.length := List.length_pos_iff.mpr hne
  obtain ⟨inner, hleaves, hinv⟩ := FastMerkleLeaves_spec hashes [] (fun _ => BaseBlob.zero 32)
    PendingRoots_nil (by simp only [List.length_nil, Nat.zero_add]; omega)
  simp only [List.length_nil, Nat.zero_add, List.nil_append] at hleaves hinv
  obtain ⟨level, hskip, hbit, hmod⟩ := FastMerkleSkip_spec hashes.length (by
    rw [Nat.mod_eq_of_lt (by omega)]; omega) 32 0 (Nat.mod_one _) (by omega)
  rw [ComputeFastMerkleRoot_of_leaves node hne hleaves, hskip, Option.bind_some]
  apply FastMerkleSweep_spec hashes _ hinv hsize 32
  · exact SweepAt_start hashes _ _ hinv hbit hmod
  · exact Nat.lt_of_le_of_lt hsize (Nat.pow_lt_pow_right (by decide) (by omega))

theorem ComputeFastMerkleRoot_pair (node : Uint256 -> Uint256 -> Uint256) (a b : Uint256) :
    ComputeFastMerkleRoot node [a, b] = some (node a b) := by
  rw [ComputeFastMerkleRoot_eq_splitRoot [a, b] (by simp) (by simp),
    splitRoot_split node _ [a, b] 0 (by simp) (by simp)]
  simp only [Nat.pow_zero, List.take_one, List.head?_cons, Option.toList_some, List.drop_one,
    List.tail_cons, splitRoot_singleton]

end Tree

/-- The fast Merkle root of Elements: the zero hash for no leaves, and the
recursive unbalanced tree of midstate nodes for up to `2 ^ 31` leaves. -/
theorem ComputeFastMerkleRoot_unbalanced (H : Hashes) :
    ComputeFastMerkleRoot H.MerkleHash_Sha256Midstate [] = some (BaseBlob.zero 32) ∧
    ∀ hashes : List Uint256, hashes ≠ [] -> hashes.length ≤ 2 ^ 31 ->
      ComputeFastMerkleRoot H.MerkleHash_Sha256Midstate hashes =
        some (splitRoot H.MerkleHash_Sha256Midstate (BaseBlob.zero 32) hashes) := by
  constructor
  · rfl
  · intro hashes hne hsize
    exact ComputeFastMerkleRoot_eq_splitRoot hashes hne hsize

theorem ComputeFastMerkleRoot_unbalanced_three :
    ComputeFastMerkleRoot (⟨fun _ => BaseBlob.zero 32, fun _ => BaseBlob.zero 32,
        fun _ => BaseBlob.zero 20, fun left _ => left⟩ : Hashes).MerkleHash_Sha256Midstate
        [BaseBlob.zero 32, BaseBlob.zero 32, BaseBlob.zero 32] =
      some (splitRoot (fun left _ => left) (BaseBlob.zero 32)
        [BaseBlob.zero 32, BaseBlob.zero 32, BaseBlob.zero 32]) :=
  (ComputeFastMerkleRoot_unbalanced ⟨fun _ => BaseBlob.zero 32, fun _ => BaseBlob.zero 32,
    fun _ => BaseBlob.zero 20, fun left _ => left⟩).2 _ (by simp) (by simp)

/-!
## The callers

`block.cpp` and `issuance.cpp` take roots of two or three leaves, far below
the undefined shift.
-/

theorem ComputeFastMerkleRoot_isSome (node : Uint256 -> Uint256 -> Uint256) (hashes : List Uint256)
    (hsize : hashes.length ≤ 2 ^ 31) : (ComputeFastMerkleRoot node hashes).isSome := by
  cases hashes with
  | nil => rfl
  | cons x xs =>
    rw [ComputeFastMerkleRoot_eq_splitRoot _ (List.cons_ne_nil x xs) hsize]
    rfl

/-- `ComputeFastMerkleRoot` on at most `2 ^ 31` leaves, where it has a result. -/
def FastMerkleRoot (node : Uint256 -> Uint256 -> Uint256) (hashes : List Uint256)
    (hsize : hashes.length ≤ 2 ^ 31) : Uint256 :=
  (ComputeFastMerkleRoot node hashes).get (ComputeFastMerkleRoot_isSome node hashes hsize)

theorem FastMerkleRoot_pair (node : Uint256 -> Uint256 -> Uint256) (a b : Uint256)
    (hsize : [a, b].length ≤ 2 ^ 31) : FastMerkleRoot node [a, b] hsize = node a b :=
  Option.get_of_eq_some _ (ComputeFastMerkleRoot_pair node a b)

/-!
## Above `2 ^ 31` leaves

Bit 31 of a count between `2 ^ 31` and `2 ^ 32` stays set through the sweep,
so the count never becomes one bit; the carry climbs until it reaches
`2 ^ 32`, which the `uint32_t` holds as zero, and the climb after it finds no
set bit below 32.  From `2 ^ 32` leaves on, the leaf loop's own count wraps.
-/

section Wrap

variable {node : Uint256 -> Uint256 -> Uint256}

theorem lt_31_of_two_pow_31_lt {count level : Nat} (hmod : count % 2 ^ level = 0)
    (hhigh : 2 ^ 31 < count) (hcount : count < 2 ^ 32) : level < 31 := by
  have h32 := lt_32_of_mod_two_pow hmod (by rw [Nat.mod_eq_of_lt hcount]; omega)
  by_contra hge
  obtain rfl : level = 31 := by omega
  omega

/-- From a set bit of a count between `2 ^ 31` and `2 ^ 32`, the sweep has no
result. -/
theorem FastMerkleSweep_eq_none (inner : Nat -> Uint256) (fuel : Nat) :
    ∀ count level result, count.testBit level = true -> count % 2 ^ level = 0 ->
      2 ^ 31 < count -> count < 2 ^ 32 -> FastMerkleSweep node inner fuel count level result = none := by
  induction fuel with
  | zero =>
    intro count level result _ hmod hhigh hcount
    have hlt := Nat.pow_lt_pow_right (by decide : 1 < 2) (lt_31_of_two_pow_31_lt hmod hhigh hcount)
    have hne : count ≠ 2 ^ level := by omega
    rw [FastMerkleSweep, if_neg hne]
  | succ fuel ih =>
    intro count level result hbit hmod hhigh hcount
    have h31 := lt_31_of_two_pow_31_lt hmod hhigh hcount
    have hlt := Nat.pow_lt_pow_right (by decide : 1 < 2) h31
    have hne : count ≠ 2 ^ level := by omega
    rw [FastMerkleSweep, if_neg hne]
    have hpow : 2 ^ (level + 1) = 2 ^ level + 2 ^ level := by rw [Nat.pow_succ]; omega
    have hdvd : 2 ^ (level + 1) ∣ count + 2 ^ level := by
      rw [Nat.dvd_iff_mod_eq_zero, Nat.add_mod, mod_two_pow_succ_of_testBit_true hmod hbit,
        Nat.mod_eq_of_lt (show 2 ^ level < 2 ^ (level + 1) by omega), ← hpow, Nat.mod_self]
    have hle : count + 2 ^ level ≤ 2 ^ 32 :=
      Nat.le_of_lt_add_of_dvd (by omega) hdvd (Nat.pow_dvd_pow 2 (by omega))
    rcases Nat.lt_or_eq_of_le hle with hlt32 | hwrap
    · -- the carry stops at a set bit below 31, and bit 31 is still set
      have hc : (count + 2 ^ level) % 2 ^ 32 = count + 2 ^ level := Nat.mod_eq_of_lt hlt32
      obtain ⟨L, r, hclimb, hL, hmodL, -, -⟩ := @FastMerkleClimb_spec node inner (count + 2 ^ level)
        (fun _ _ => True) (fun _ _ _ _ => trivial) (by rw [hc]; omega) 32 (level + 1) result
        (Nat.mod_eq_zero_of_dvd hdvd) (by omega) trivial
      simp only [hc, hclimb, Option.bind_eq_bind, Option.bind_some]
      exact ih _ _ _ hL hmodL (by omega) hlt32
    · -- the carry reaches `2 ^ 32`, which wraps to zero
      have hc : (count + 2 ^ level) % 2 ^ 32 = 0 := by rw [hwrap, Nat.mod_self]
      simp only [hc, FastMerkleClimb_of_mod_eq_zero node inner (Nat.zero_mod _),
        Option.bind_eq_bind, Option.bind_none]

theorem FastMerkleLeaves_append (xs ys : List Uint256) (count : Nat) (inner : Nat -> Uint256) :
    FastMerkleLeaves node (xs ++ ys) count inner =
      (FastMerkleLeaves node xs count inner).bind fun leaves =>
        FastMerkleLeaves node ys leaves.1 leaves.2 := by
  induction xs generalizing count inner with
  | nil => rfl
  | cons x xs ih =>
    simp only [List.cons_append, FastMerkleLeaves, Option.bind_eq_bind, ih, Option.bind_assoc]

/-- Above `2 ^ 31` leaves `ComputeFastMerkleRoot` has no result, whatever the
node: below `2 ^ 32` leaves the sweep's carry wraps the count, and from
`2 ^ 32` on the leaf loop's increment does. -/
theorem ComputeFastMerkleRoot_eq_none (node : Uint256 -> Uint256 -> Uint256) (hashes : List Uint256)
    (hsize : 2 ^ 31 < hashes.length) : ComputeFastMerkleRoot node hashes = none := by
  have hne : hashes ≠ [] := List.ne_nil_of_length_pos (by omega)
  by_cases hlt : hashes.length < 2 ^ 32
  · obtain ⟨inner, hleaves, -⟩ := FastMerkleLeaves_spec hashes [] (fun _ => BaseBlob.zero 32)
      PendingRoots_nil (by simpa using hlt)
    simp only [List.length_nil, Nat.zero_add] at hleaves
    obtain ⟨level, hskip, hbit, hmod⟩ := FastMerkleSkip_spec hashes.length
      (by rw [Nat.mod_eq_of_lt hlt]; omega) 32 0 (Nat.mod_one _) (by omega)
    rw [ComputeFastMerkleRoot_of_leaves node hne hleaves, hskip, Option.bind_some]
    exact FastMerkleSweep_eq_none inner 32 _ _ _ hbit hmod hsize hlt
  · -- the leaves before the one that brings the count to `2 ^ 32`
    have hfirst : (hashes.take (2 ^ 32 - 1)).length = 2 ^ 32 - 1 := by
      rw [List.length_take]
      omega
    obtain ⟨inner, hleaves, -⟩ := FastMerkleLeaves_spec (hashes.take (2 ^ 32 - 1)) []
      (fun _ => BaseBlob.zero 32) (@PendingRoots_nil node) (by rw [hfirst]; decide)
    simp only [List.length_nil, Nat.zero_add, hfirst] at hleaves
    obtain ⟨x, rest, hrest⟩ : ∃ x rest, hashes.drop (2 ^ 32 - 1) = x :: rest :=
      List.exists_cons_of_ne_nil (by rw [← List.length_pos_iff, List.length_drop]; omega)
    have hwrap : (2 ^ 32 - 1 + 1) % 2 ^ 32 = 0 := by decide
    have hnone : FastMerkleLeaves node hashes 0 (fun _ => BaseBlob.zero 32) = none := by
      rw [← List.take_append_drop (2 ^ 32 - 1) hashes, hrest, FastMerkleLeaves_append, hleaves,
        Option.bind_some]
      simp only [FastMerkleLeaves, hwrap, FastMerkleClimb_of_mod_eq_zero node _ (Nat.zero_mod _),
        Option.bind_eq_bind, Option.bind_none]
    simp only [ComputeFastMerkleRoot, List.isEmpty_iff, hne, if_false, hnone]
    rfl

end Wrap

/-- Over `2 ^ 31 + 1` leaves, with the SHA-256 midstate as the node,
`ComputeFastMerkleRoot` has no result: its sweep shifts by 32. -/
theorem ComputeFastMerkleRoot_undefined_above_two_pow_31 :
    (List.replicate (2 ^ 31 + 1) (BaseBlob.zero 32 : Uint256)).length < 2 ^ 32 ∧
      ComputeFastMerkleRoot MerkleHash_Sha256Midstate
        (List.replicate (2 ^ 31 + 1) (BaseBlob.zero 32)) = none := by
  have hlen : (List.replicate (2 ^ 31 + 1) (BaseBlob.zero 32 : Uint256)).length = 2 ^ 31 + 1 :=
    List.length_replicate
  exact ⟨by rw [hlen]; decide, ComputeFastMerkleRoot_eq_none _ _ (by rw [hlen]; decide)⟩

end Elements
