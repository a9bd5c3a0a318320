import Mathlib.Data.Nat.Bitwise
import Elements.Codec.Radix

/-!
# Checksums by an xor-linear step

A checksum that folds `c ↦ g c ^^^ v` over a string of symbols, with `g`
linear for xor, computes the remainder of a polynomial over a field of
characteristic two; the `PolyMod` of bech32 over GF(32) is of this form.  Two
facts carry a round trip.  The fold from a start `a ^^^ b` splits into `g`
iterated on `a` and the fold from `b` (`foldl_step_xor`).  Where `g` is a
plain shift on small values, the fold reads the string as a number
(`foldl_step_of_shifts`).  Together they show that appending the digits of
`g^[n] P ^^^ K` to a string whose fold is `P` makes the fold `K`
(`foldl_step_checksum`), and that no other string of that length does
(`eq_digitsBE_of_foldl_step`).
-/

namespace Codec

namespace XorChecksum

variable (g : Nat -> Nat)

/-- One step of the checksum: `g` of the accumulator, plus the next symbol. -/
def step (c v : Nat) : Nat := g c ^^^ v

/-- `g` is linear for xor. -/
def XorLinear : Prop := ∀ a b, g (a ^^^ b) = g a ^^^ g b

/-- Below `2 ^ m`, `g` shifts left by the symbol width `w`. -/
def ShiftsBelow (w m : Nat) : Prop := ∀ c, c < 2 ^ m -> g c = c <<< w

variable {g}

theorem shiftLeft_xor_of_lt {w v : Nat} (hv : v < 2 ^ w) (a : Nat) :
    a <<< w ^^^ v = a <<< w + v := by
  rw [Nat.shiftLeft_add_eq_or_of_lt hv]
  apply Nat.eq_of_testBit_eq
  intro i
  rw [Nat.testBit_xor, Nat.testBit_or]
  by_cases hi : i < w
  · have hlow : (a <<< w).testBit i = false := by
      simp [Nat.testBit_shiftLeft, Nat.not_le.mpr hi]
    simp [hlow]
  · have hhigh : v.testBit i = false :=
      Nat.testBit_lt_two_pow (Nat.lt_of_lt_of_le hv (Nat.pow_le_pow_right (by decide) (by omega)))
    simp [hhigh]

theorem foldl_step_xor (hg : XorLinear g) (vs : List Nat) (a b : Nat) :
    vs.foldl (step g) (a ^^^ b) = g^[vs.length] a ^^^ vs.foldl (step g) b := by
  induction vs generalizing a b with
  | nil => rfl
  | cons v vs ih =>
    simp only [List.foldl_cons, List.length_cons, step]
    rw [hg, Nat.xor_assoc, ih, Function.iterate_succ_apply]

theorem foldl_step_replicate_zero (n c : Nat) :
    (List.replicate n 0).foldl (step g) c = g^[n] c := by
  induction n generalizing c with
  | zero => rfl
  | succ n ih =>
    rw [List.replicate_succ, List.foldl_cons, step, Nat.xor_zero, ih,
      Function.iterate_succ_apply]

theorem foldl_step_lt {k : Nat} (hg : ∀ c, c < 2 ^ k -> g c < 2 ^ k) (vs : List Nat)
    (hvs : ∀ v ∈ vs, v < 2 ^ k) (c : Nat) (hc : c < 2 ^ k) : vs.foldl (step g) c < 2 ^ k := by
  induction vs generalizing c with
  | nil => exact hc
  | cons v vs ih =>
    rw [List.foldl_cons]
    exact ih (fun x hx => hvs x (by simp [hx])) _
      (Nat.xor_lt_two_pow (hg c hc) (hvs v (by simp)))

/-- Where the accumulator stays below `2 ^ m`, the fold is Horner's rule in
base `2 ^ w`: the bound on the final value bounds every accumulator, which is
a prefix of it. -/
theorem foldl_step_of_shifts {w m : Nat} (hs : ShiftsBelow g w m) (vs : List Nat)
    (hvs : ∀ v ∈ vs, v < 2 ^ w) (c : Nat)
    (hbound : c * 2 ^ (w * vs.length) + ofDigitsBE (2 ^ w) vs < 2 ^ (m + w)) :
    vs.foldl (step g) c = c * 2 ^ (w * vs.length) + ofDigitsBE (2 ^ w) vs := by
  induction vs generalizing c with
  | nil => simp
  | cons v vs ih =>
    have hv : v < 2 ^ w := hvs v (by simp)
    have hvalue : c * 2 ^ (w * (v :: vs).length) + ofDigitsBE (2 ^ w) (v :: vs) =
        (c * 2 ^ w + v) * 2 ^ (w * vs.length) + ofDigitsBE (2 ^ w) vs := by
      rw [ofDigitsBE_cons, List.length_cons, Nat.mul_succ, Nat.pow_add, ← Nat.pow_mul]
      ring
    have hc : c < 2 ^ m := by
      have hle : c * 2 ^ w ≤ c * 2 ^ (w * (v :: vs).length) :=
        Nat.mul_le_mul_left c (Nat.pow_le_pow_right (by decide) (by simp [Nat.mul_succ]))
      rw [Nat.pow_add] at hbound
      exact Nat.lt_of_mul_lt_mul_right (Nat.lt_of_le_of_lt hle (by omega))
    have hstep : step g c v = c * 2 ^ w + v := by
      rw [step, hs c hc, shiftLeft_xor_of_lt hv, Nat.shiftLeft_eq]
    rw [List.foldl_cons, hstep, hvalue]
    exact ih (fun x hx => hvs x (by simp [hx])) _ (by rw [← hvalue]; exact hbound)

/-- Appending the `n + 1` digits of `g^[n + 1] P ^^^ K` to a string whose fold
is `P` makes the fold `K`. -/
theorem foldl_step_checksum {w n : Nat} (hg : XorLinear g) (hs : ShiftsBelow g w (w * n))
    (P K : Nat) (hmod : g^[n + 1] P ^^^ K < 2 ^ (w * (n + 1))) :
    (digitsBE w (n + 1) (g^[n + 1] P ^^^ K)).foldl (step g) P = K := by
  have hdigits : ofDigitsBE (2 ^ w) (digitsBE w (n + 1) (g^[n + 1] P ^^^ K)) =
      g^[n + 1] P ^^^ K := by
    rw [ofDigitsBE_digitsBE, Nat.mod_eq_of_lt hmod]
  have hzero : (digitsBE w (n + 1) (g^[n + 1] P ^^^ K)).foldl (step g) 0 =
      g^[n + 1] P ^^^ K := by
    rw [foldl_step_of_shifts hs _ (digitsBE_lt w (n + 1) _) 0 (by
        rw [Nat.zero_mul, Nat.zero_add, hdigits, ← Nat.mul_succ]; exact hmod),
      Nat.zero_mul, Nat.zero_add, hdigits]
  calc (digitsBE w (n + 1) (g^[n + 1] P ^^^ K)).foldl (step g) P
      = (digitsBE w (n + 1) (g^[n + 1] P ^^^ K)).foldl (step g) (P ^^^ 0) := by
        rw [Nat.xor_zero]
    _ = g^[n + 1] P ^^^ (g^[n + 1] P ^^^ K) := by
        rw [foldl_step_xor hg, length_digitsBE, hzero]
    _ = K := by rw [← Nat.xor_assoc, Nat.xor_self, Nat.zero_xor]

/-- The converse: the only `n + 1` symbols that bring the fold from `P` to `K`
are the digits of `g^[n + 1] P ^^^ K`, so a checksum is unique. -/
theorem eq_digitsBE_of_foldl_step {w n : Nat} (hw : 0 < w) (hg : XorLinear g)
    (hs : ShiftsBelow g w (w * n)) (vs : List Nat) (hlen : vs.length = n + 1)
    (hvs : ∀ v ∈ vs, v < 2 ^ w) (P K : Nat) (h : vs.foldl (step g) P = K) :
    vs = digitsBE w (n + 1) (g^[n + 1] P ^^^ K) := by
  have hb : 1 < 2 ^ w := Nat.one_lt_two_pow (Nat.pos_iff_ne_zero.mp hw)
  have hlt : ofDigitsBE (2 ^ w) vs < 2 ^ (w * (n + 1)) := by
    rw [Nat.pow_mul, ← hlen]
    exact ofDigitsBE_lt hb hvs
  have hzero : vs.foldl (step g) 0 = ofDigitsBE (2 ^ w) vs := by
    have hfold := foldl_step_of_shifts hs vs hvs 0 (by
      rw [Nat.zero_mul, Nat.zero_add, ← Nat.mul_succ]; exact hlt)
    rwa [Nat.zero_mul, Nat.zero_add] at hfold
  have hvalue : ofDigitsBE (2 ^ w) vs = g^[n + 1] P ^^^ K := by
    have hsplit : vs.foldl (step g) (P ^^^ 0) = g^[n + 1] P ^^^ ofDigitsBE (2 ^ w) vs := by
      rw [foldl_step_xor hg, hlen, hzero]
    rw [Nat.xor_zero, h] at hsplit
    rw [hsplit, ← Nat.xor_assoc, Nat.xor_self, Nat.zero_xor]
  apply ofDigitsBE_inj hb (by rw [hlen, length_digitsBE]) hvs (digitsBE_lt w (n + 1) _)
  rw [ofDigitsBE_digitsBE, ← hvalue, Nat.mod_eq_of_lt hlt]

end XorChecksum

end Codec
