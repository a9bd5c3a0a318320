import Mathlib.Data.Nat.Bitwise
import Mathlib.Data.List.TakeDrop
import Mathlib.Tactic.Ring

/-!
# A binary counter of pending subtrees

A Merkle root computed in one pass keeps, for each set bit `h` of the number
of leaves read, the root of one aligned block of `2 ^ h` leaves: the block
that starts at the count with its bits up to `h` cleared.  Reading a leaf adds
one to the count; the ones below its lowest zero bit become zeros, their
blocks merge into one at that bit, and the bits above do not change.  The
first section states those facts about numbers, on remainders `x % 2 ^ h`,
which is how the loops that climb the levels see them.

The second section is the tree such a pass builds, stated by recursion: the
root of a list is the node of the root of its first `2 ^ j` elements and the
root of the rest, where `2 ^ j` is the largest power of two below its length.
An odd subtree is carried up unhashed, so the tree is unbalanced on its right
edge.
-/

namespace BinaryCounter

/-!
## Bits of a counter
-/

theorem mod_two_pow_succ_of_testBit_false {x h : Nat} (hmod : x % 2 ^ h = 0)
    (hbit : x.testBit h = false) : x % 2 ^ (h + 1) = 0 := by
  rw [Nat.testBit_eq_decide_div_mod_eq] at hbit
  have hparity : x / 2 ^ h % 2 = 0 := by
    have := Nat.mod_lt (x / 2 ^ h) (by decide : 0 < 2)
    have := of_decide_eq_false hbit
    omega
  rw [Nat.pow_succ, Nat.mod_mul, hmod, hparity, Nat.mul_zero]

theorem mod_two_pow_succ_of_testBit_true {x h : Nat} (hmod : x % 2 ^ h = 0)
    (hbit : x.testBit h = true) : x % 2 ^ (h + 1) = 2 ^ h := by
  rw [Nat.testBit_eq_decide_div_mod_eq] at hbit
  rw [Nat.pow_succ, Nat.mod_mul, hmod, of_decide_eq_true hbit]
  omega

theorem mod_two_pow_ne_zero_of_le {x h k : Nat} (hle : h ≤ k) (hmod : x % 2 ^ h ≠ 0) :
    x % 2 ^ k ≠ 0 := by
  intro hzero
  apply hmod
  have hdvd : 2 ^ h ∣ x := Nat.dvd_trans (Nat.pow_dvd_pow 2 hle) (Nat.dvd_of_mod_eq_zero hzero)
  exact Nat.mod_eq_zero_of_dvd hdvd

theorem testBit_eq_false_of_mod_two_pow_eq_zero {x h j : Nat} (hmod : x % 2 ^ h = 0)
    (hj : j < h) : x.testBit j = false := by
  have hbit := congrArg (fun y => y.testBit j) hmod
  simpa only [Nat.testBit_mod_two_pow, hj, decide_true, Bool.true_and, Nat.zero_testBit]
    using hbit

theorem mod_two_pow_of_succ_mod_eq_zero {x h : Nat} (hmod : (x + 1) % 2 ^ h = 0) :
    x % 2 ^ h = 2 ^ h - 1 := by
  have hlt := Nat.mod_lt x (Nat.two_pow_pos h)
  rw [Nat.add_mod] at hmod
  -- `x % 2 ^ h + 1 % 2 ^ h` is a multiple of `2 ^ h` below `2 ^ (h + 1)`
  rcases Nat.eq_zero_or_pos h with rfl | hh
  · omega
  · have hone : 1 % 2 ^ h = 1 := Nat.mod_eq_of_lt (Nat.one_lt_two_pow (by omega))
    rw [hone] at hmod
    rcases Nat.lt_or_eq_of_le (show x % 2 ^ h + 1 ≤ 2 ^ h from hlt) with hlt' | heq
    · rw [Nat.mod_eq_of_lt hlt'] at hmod
      omega
    · omega

theorem testBit_of_succ_mod_eq_zero {x h j : Nat} (hmod : (x + 1) % 2 ^ h = 0) (hj : j < h) :
    x.testBit j = true := by
  have hbit := congrArg (fun y => y.testBit j) (mod_two_pow_of_succ_mod_eq_zero hmod)
  simp only [Nat.testBit_mod_two_pow, Nat.testBit_two_pow_sub_one, hj, decide_true,
    Bool.true_and] at hbit
  exact hbit

theorem pred_div_two_pow {s L h : Nat} (hmod : s % 2 ^ L = 0) (hbit : s.testBit L = true)
    (hh : L < h) : (s - 1) / 2 ^ h = s / 2 ^ h := by
  have hlow : s % 2 ^ (L + 1) = 2 ^ L := mod_two_pow_succ_of_testBit_true hmod hbit
  have hpos := Nat.two_pow_pos L
  have hrem : 0 < s % 2 ^ h := by
    have hne := @mod_two_pow_ne_zero_of_le s (L + 1) h (by omega) (by omega)
    omega
  have hsplit := Nat.mod_add_div s (2 ^ h)
  have hpos' := Nat.two_pow_pos h
  apply Nat.div_eq_of_lt_le
  · have := Nat.div_mul_le_self s (2 ^ h)
    rw [Nat.mul_comm] at hsplit
    omega
  · have := Nat.mod_lt s hpos'
    rw [Nat.add_mul, Nat.one_mul]
    rw [Nat.mul_comm] at hsplit
    omega

theorem testBit_pred_self {s L : Nat} (hmod : s % 2 ^ L = 0) (hbit : s.testBit L = true) :
    (s - 1).testBit L = false := by
  have hlow : s % 2 ^ (L + 1) = 2 ^ L := mod_two_pow_succ_of_testBit_true hmod hbit
  have hpos := Nat.two_pow_pos L
  have hpred : (s - 1) % 2 ^ (L + 1) = 2 ^ L - 1 := by
    have hsplit := Nat.mod_add_div s (2 ^ (L + 1))
    rw [hlow] at hsplit
    rw [← hsplit, show 2 ^ L + 2 ^ (L + 1) * (s / 2 ^ (L + 1)) - 1 =
        (2 ^ L - 1) + 2 ^ (L + 1) * (s / 2 ^ (L + 1)) by omega, Nat.add_mul_mod_self_left,
      Nat.mod_eq_of_lt (by rw [Nat.pow_succ]; omega)]
  have hbit' := congrArg (fun y => y.testBit L) hpred
  simpa only [Nat.testBit_mod_two_pow, Nat.lt_succ_self, decide_true, Bool.true_and,
    Nat.testBit_two_pow_sub_one, Nat.lt_irrefl, decide_false] using hbit'

theorem testBit_pred_of_lt {s L h : Nat} (hmod : s % 2 ^ L = 0) (hbit : s.testBit L = true)
    (hh : L < h) : (s - 1).testBit h = s.testBit h := by
  rw [Nat.testBit_eq_decide_div_mod_eq, Nat.testBit_eq_decide_div_mod_eq,
    pred_div_two_pow hmod hbit hh]

theorem block_base_step (x h : Nat) :
    x / 2 ^ h * 2 ^ h = x / 2 ^ (h + 1) * 2 ^ (h + 1) + x / 2 ^ h % 2 * 2 ^ h := by
  have hquot : x / 2 ^ (h + 1) = x / 2 ^ h / 2 := by
    rw [Nat.pow_succ, Nat.div_div_eq_div_mul]
  have hsplit := Nat.mod_add_div (x / 2 ^ h) 2
  rw [hquot, Nat.pow_succ]
  calc x / 2 ^ h * 2 ^ h
      = (x / 2 ^ h % 2 + 2 * (x / 2 ^ h / 2)) * 2 ^ h := by rw [hsplit]
    _ = x / 2 ^ h / 2 * (2 ^ h * 2) + x / 2 ^ h % 2 * 2 ^ h := by ring

theorem block_base_of_testBit {x h : Nat} (hbit : x.testBit h = true) :
    x / 2 ^ h * 2 ^ h = x / 2 ^ (h + 1) * 2 ^ (h + 1) + 2 ^ h := by
  rw [Nat.testBit_eq_decide_div_mod_eq] at hbit
  rw [block_base_step, of_decide_eq_true hbit, Nat.one_mul]

theorem block_base_of_testBit_false {x h : Nat} (hbit : x.testBit h = false) :
    x / 2 ^ h * 2 ^ h = x / 2 ^ (h + 1) * 2 ^ (h + 1) := by
  rw [Nat.testBit_eq_decide_div_mod_eq] at hbit
  have hparity : x / 2 ^ h % 2 = 0 := by
    have := Nat.mod_lt (x / 2 ^ h) (by decide : 0 < 2)
    have := of_decide_eq_false hbit
    omega
  rw [block_base_step, hparity, Nat.zero_mul, Nat.add_zero]

theorem block_end_le {x h : Nat} (hbit : x.testBit h = true) :
    x / 2 ^ (h + 1) * 2 ^ (h + 1) + 2 ^ h ≤ x := by
  rw [← block_base_of_testBit hbit]
  exact Nat.div_mul_le_self x (2 ^ h)

theorem block_base_eq_sub_mod (x h : Nat) : x / 2 ^ h * 2 ^ h = x - x % 2 ^ h := by
  have := Nat.mod_add_div x (2 ^ h)
  rw [Nat.mul_comm] at this
  omega

/-!
## Bits of a shifted counter

The final sweep of a one-pass root counts in units of `2 ^ k`: its count is
`a * 2 ^ k`, whose bits from `k` on are those of `a`.
-/

theorem mul_two_pow_mod (a i k : Nat) : a * 2 ^ k % 2 ^ (i + k) = a % 2 ^ i * 2 ^ k := by
  rw [Nat.pow_add, Nat.mul_mod_mul_right]

theorem mul_two_pow_div (a i k : Nat) : a * 2 ^ k / 2 ^ (i + k) = a / 2 ^ i := by
  rw [Nat.pow_add, Nat.mul_comm (2 ^ i), ← Nat.div_div_eq_div_mul,
    Nat.mul_div_cancel _ (Nat.two_pow_pos k)]

theorem testBit_mul_two_pow (a i k : Nat) : (a * 2 ^ k).testBit (i + k) = a.testBit i := by
  rw [← Nat.testBit_div_two_pow, Nat.mul_div_cancel _ (Nat.two_pow_pos k)]

/-!
## The unbalanced tree of a one-pass Merkle root
-/

section SplitRoot

variable {α : Type} (node : α -> α -> α) (empty : α)

/-- The root of a list: its only element, or the node of the root of the first
`2 ^ j` elements and the root of the rest, for the largest power of two
`2 ^ j` below the length. -/
def splitRoot : List α -> α
  | [] => empty
  | [a] => a
  | a :: b :: rest =>
    node (splitRoot ((a :: b :: rest).take (2 ^ Nat.log2 (rest.length + 1))))
      (splitRoot ((a :: b :: rest).drop (2 ^ Nat.log2 (rest.length + 1))))
termination_by l => l.length
decreasing_by
  all_goals
    have hle := Nat.log2_self_le (show rest.length + 1 ≠ 0 by omega)
    have hpos := Nat.two_pow_pos (Nat.log2 (rest.length + 1))
    simp only [List.length_take, List.length_drop, List.length_cons]
    omega

@[simp] theorem splitRoot_nil : splitRoot node empty [] = empty := by
  rw [splitRoot]

@[simp] theorem splitRoot_singleton (a : α) : splitRoot node empty [a] = a := by
  rw [splitRoot]

theorem splitRoot_split (l : List α) (j : Nat) (hlt : 2 ^ j < l.length)
    (hle : l.length ≤ 2 ^ (j + 1)) :
    splitRoot node empty l =
      node (splitRoot node empty (l.take (2 ^ j))) (splitRoot node empty (l.drop (2 ^ j))) := by
  match l, hlt, hle with
  | [], hlt, _ => exact absurd hlt (Nat.not_lt_zero _)
  | [a], hlt, _ =>
    rw [List.length_singleton] at hlt
    exact absurd hlt (Nat.not_lt.mpr Nat.one_le_two_pow)
  | a :: b :: rest, hlt, hle =>
    have hlog : Nat.log2 (rest.length + 1) = j := by
      rw [Nat.log2_eq_iff (by omega)]
      simp only [List.length_cons] at hlt hle
      omega
    rw [splitRoot, hlog]

end SplitRoot

end BinaryCounter
