import Mathlib.Data.Nat.Digits.Defs
import Mathlib.Data.Nat.Size

/-!
# Numbers kept in limbs

A multi-word integer keeps a number as a list of `w`-bit words, its limbs,
least significant first; the list denotes `Nat.ofDigits (2 ^ w)` of their
values.  Its loops work limb by limb: a shift ORs pieces of every limb into
one or two others, a carry loop writes one limb and passes the excess on, a
scan from the top looks for the highest set bit, and a division sets one bit
of its quotient at a time.

The lemmas here turn each of those views into a statement about the number.
Bit `b` of the number is bit `b % w` of limb `b / w` (`testBit_ofDigits`), so
two lists of limbs denote the same number when they agree bit by bit.  A
number with `n` limbs is below `2 ^ (w * n)`, and its size is fixed by its
top nonzero limb (`size_ofDigits_append`).  Setting a clear bit adds its
weight (`or_two_pow_eq_add`).
-/

namespace Limbs

open Nat

variable {w : Nat}

/-! ## Bits of a number in limbs -/

/-- Bit `b` of the number is bit `b % w` of its limb `b / w`; past the last
limb every bit is clear. -/
theorem testBit_ofDigits (hw : 0 < w) {ds : List Nat} (hds : ∀ d ∈ ds, d < 2 ^ w) (b : Nat) :
    (ofDigits (2 ^ w) ds).testBit b = (ds.getD (b / w) 0).testBit (b % w) := by
  induction ds generalizing b with
  | nil => simp
  | cons d ds ih =>
    have hd : d < 2 ^ w := hds d List.mem_cons_self
    rw [ofDigits_cons, Nat.add_comm, testBit_two_pow_mul_add _ hd]
    by_cases hb : b < w
    · rw [if_pos hb, Nat.div_eq_of_lt hb, Nat.mod_eq_of_lt hb, List.getD_cons_zero]
    · -- a bit above the lowest limb is a bit of the rest, `w` places lower
      have hle : w ≤ b := Nat.le_of_not_lt hb
      rw [if_neg hb, ih (fun x hx => hds x (List.mem_cons_of_mem _ hx)), Nat.div_eq_sub_div hw hle,
        List.getD_cons_succ, ← Nat.mod_eq_sub_mod hle]

theorem ofDigits_lt (hw : 0 < w) {ds : List Nat} (hds : ∀ d ∈ ds, d < 2 ^ w) :
    ofDigits (2 ^ w) ds < 2 ^ (w * ds.length) := by
  rw [Nat.pow_mul]
  exact ofDigits_lt_base_pow_length (Nat.one_lt_two_pow (Nat.pos_iff_ne_zero.mp hw)) hds

theorem carry_mod_two_pow (L n m : Nat) :
    n % 2 ^ w + 2 ^ w * ((n / 2 ^ w + m) % 2 ^ (w * L)) = (n + 2 ^ w * m) % 2 ^ (w * L + w) := by
  rw [Nat.pow_add, Nat.mul_comm (2 ^ (w * L)), Nat.mod_mul, Nat.add_mul_mod_self_left,
    Nat.add_mul_div_left _ _ (Nat.two_pow_pos w)]

/-! ## The size of a number in limbs -/

theorem size_eq_of_lt_of_le {n k : Nat} (hk : 0 < k) (hlt : n < 2 ^ k) (hle : 2 ^ (k - 1) ≤ n) :
    size n = k := by
  apply Nat.le_antisymm (size_le.mpr hlt)
  have : k - 1 < size n := lt_size.mpr hle
  omega

/-- With a nonzero top limb `d` over `ds`, the number has the bits of `ds`
and those of `d` above them. -/
theorem size_ofDigits_append (hw : 0 < w) {ds : List Nat} (hds : ∀ d ∈ ds, d < 2 ^ w) {d : Nat}
    (hd : 0 < d) : size (ofDigits (2 ^ w) (ds ++ [d])) = w * ds.length + size d := by
  have hlow := ofDigits_lt hw hds
  have hsd : 0 < size d := size_pos.mpr hd
  have hdlt : d < 2 ^ size d := lt_size_self d
  have hdge : 2 ^ (size d - 1) ≤ d := lt_size.mp (by omega)
  have hval : ofDigits (2 ^ w) (ds ++ [d]) = ofDigits (2 ^ w) ds + 2 ^ (w * ds.length) * d := by
    rw [ofDigits_append, ofDigits_singleton, Nat.pow_mul]
  rw [hval]
  apply size_eq_of_lt_of_le (by omega)
  · -- below the next power of two: the low limbs add less than one unit of `d`
    calc ofDigits (2 ^ w) ds + 2 ^ (w * ds.length) * d
        < 2 ^ (w * ds.length) * (d + 1) := by rw [Nat.mul_succ]; omega
      _ ≤ 2 ^ (w * ds.length) * 2 ^ size d := Nat.mul_le_mul_left _ hdlt
      _ = 2 ^ (w * ds.length + size d) := (Nat.pow_add _ _ _).symm
  · calc 2 ^ (w * ds.length + size d - 1)
        = 2 ^ (w * ds.length) * 2 ^ (size d - 1) := by rw [← Nat.pow_add]; congr 1; omega
      _ ≤ 2 ^ (w * ds.length) * d := Nat.mul_le_mul_left _ hdge
      _ ≤ _ := Nat.le_add_left _ _

/-! ## Setting one bit -/

theorem mod_two_pow_succ_lt {n m : Nat} (h : n.testBit m = false) : n % 2 ^ (m + 1) < 2 ^ m := by
  have hlt : n % 2 ^ (m + 1) < 2 ^ (m + 1) := Nat.mod_lt _ (Nat.two_pow_pos _)
  have hbit : (n % 2 ^ (m + 1)).testBit m = false := by
    rw [testBit_mod_two_pow, h, Bool.and_false]
  by_contra hge
  obtain ⟨x, hx⟩ : ∃ x, n % 2 ^ (m + 1) = 2 ^ m + x := ⟨_, (Nat.add_sub_of_le (Nat.le_of_not_lt hge)).symm⟩
  have hxlt : x < 2 ^ m := by rw [Nat.pow_succ] at hlt; omega
  rw [hx, testBit_two_pow_add_eq, testBit_lt_two_pow hxlt] at hbit
  exact absurd hbit (by decide)

theorem testBit_eq_decide_le {n k : Nat} (h : n < 2 ^ (k + 1)) : n.testBit k = decide (2 ^ k ≤ n) := by
  by_cases hle : 2 ^ k ≤ n
  · obtain ⟨r, rfl⟩ : ∃ r, n = 2 ^ k + r := ⟨n - 2 ^ k, (Nat.add_sub_of_le hle).symm⟩
    have hr : r < 2 ^ k := by rw [Nat.pow_succ] at h; omega
    rw [testBit_two_pow_add_eq, testBit_lt_two_pow hr, decide_eq_true hle]
    rfl
  · rw [testBit_lt_two_pow (Nat.lt_of_not_le hle), decide_eq_false hle]

/-- Setting a clear bit adds its weight. -/
theorem or_two_pow_eq_add {n m : Nat} (h : n.testBit m = false) : n ||| 2 ^ m = n + 2 ^ m := by
  have hsplit := (Nat.div_add_mod n (2 ^ (m + 1))).symm
  have hlow := mod_two_pow_succ_lt h
  apply Nat.eq_of_testBit_eq
  intro j
  rw [testBit_or, testBit_two_pow]
  rcases Nat.lt_trichotomy j m with hj | rfl | hj
  · rw [Nat.add_comm, testBit_two_pow_add_gt hj]
    simp [Nat.ne_of_gt hj]
  · rw [Nat.add_comm, testBit_two_pow_add_eq, h]
    simp
  · -- above `m` nothing carries: both sides read the bits of `n / 2 ^ (m + 1)`
    have hsum : n + 2 ^ m = 2 ^ (m + 1) * (n / 2 ^ (m + 1)) + (n % 2 ^ (m + 1) + 2 ^ m) := by omega
    have hpow : 2 ^ (m + 1) = 2 ^ m * 2 := Nat.pow_succ 2 m
    have hlt : n % 2 ^ (m + 1) + 2 ^ m < 2 ^ (m + 1) := by omega
    have hlt' : n % 2 ^ (m + 1) < 2 ^ (m + 1) := by omega
    rw [hsum, testBit_two_pow_mul_add _ hlt, if_neg (by omega)]
    conv_lhs => rw [hsplit, testBit_two_pow_mul_add _ hlt', if_neg (by omega)]
    simp [Nat.ne_of_lt hj]

/-! ## Lists updated in place -/

theorem getD_modify {α : Type} (l : List α) (n : Nat) (f : α → α) (i : Nat) (d : α) :
    (l.modify n f).getD i d = if n = i ∧ i < l.length then f (l.getD i d) else l.getD i d := by
  rw [List.getD_eq_getElem?_getD, List.getElem?_modify, List.getD_eq_getElem?_getD]
  by_cases hi : i < l.length
  · rw [List.getElem?_eq_getElem hi]
    by_cases hn : n = i <;> simp [hn, hi]
  · rw [List.getElem?_eq_none (by omega)]
    simp [hi]

end Limbs
