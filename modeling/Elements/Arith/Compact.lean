import Elements.Arith.BaseUint

/-!
# The compact form of a target

A proof-of-work target travels in a block header as a 32-bit "compact" word,
a floating-point number in base 256 (`arith_uint256.h`): the top byte is the
exponent, the number of bytes of the number, bit 23 a sign and the low 23 bits
the mantissa, which stands for `mantissa * 256 ^ (exponent - 3)`
(`CompactValue`).

`SetCompact` reads a compact word into an `arith_uint256`, cutting the number
to 256 bits, and reports whether it is negative and whether it overflowed.
Both flags are exact: the overflow flag is set precisely when the number
needs more than 256 bits (`SetCompact_overflow_iff`), however the three
comparisons of the source split the exponents.  `GetCompact` writes a number
back: it keeps the top bytes of the number that fit a mantissa below `2 ^ 23`
and drops the rest, so that reading it back gives the number rounded down to
those bytes (`SetCompact_GetCompact`).
-/

namespace Elements

open Nat

/-- The number a compact word stands for, before it is cut to 256 bits:
the mantissa times `256 ^ (exponent - 3)`, rounded down for an exponent below
3.  The sign bit is not part of it. -/
def CompactValue (nCompact : UInt32) : Nat :=
  let nSize := (nCompact >>> 24).toNat
  let mantissa := (nCompact &&& 0x007fffff).toNat
  if nSize ≤ 3 then mantissa / 256 ^ (3 - nSize) else mantissa * 256 ^ (nSize - 3)

/-- `c` is the compact form of `N`: it has no sign and stands for `N` with
the bytes below `256 ^ e` cleared, `e` the fewest whose removal leaves fewer
than 23 bits above them. -/
def IsCompactOf (N : Nat) (c : UInt32) : Prop :=
  c.toNat.testBit 23 = false ∧
    ∃ e, CompactValue c = N / 256 ^ e * 256 ^ e ∧ N / 256 ^ e < 2 ^ 23 ∧ (e = 0 ∨ 2 ^ 23 ≤ N / 256 ^ (e - 1))

theorem IsCompactOf.value_le {N : Nat} {c : UInt32} (h : IsCompactOf N c) : CompactValue c ≤ N := by
  obtain ⟨-, e, hvalue, -⟩ := h
  rw [hvalue]
  exact Nat.div_mul_le_self _ _

namespace arith_uint256

/-- `SetCompact(nCompact, pfNegative, pfOverflow)`: the number it sets,
`*pfNegative` and `*pfOverflow`. -/
def SetCompact (nCompact : UInt32) : arith_uint256 × Bool × Bool :=
  let nSize := (nCompact >>> 24).toNat
  let nWord := nCompact &&& 0x007fffff
  -- with three bytes or fewer the mantissa is moved down into place,
  -- otherwise the number is shifted up
  let nWord := if nSize ≤ 3 then nWord >>> UInt32.ofNat (8 * (3 - nSize)) else nWord
  let bn := if nSize ≤ 3 then base_uint.ofUInt64 8 nWord.toUInt64
    else (base_uint.ofUInt64 8 nWord.toUInt64).ShiftLeft (8 * (nSize - 3))
  (bn, nWord != 0 && nCompact &&& 0x00800000 != 0,
    nWord != 0 && (decide (nSize > 34) || decide (nWord > 0xff) && decide (nSize > 33) ||
      decide (nWord > 0xffff) && decide (nSize > 32)))

/-! ## The fields of a compact word -/

theorem toNat_exponent (c : UInt32) : (c >>> 24).toNat = c.toNat / 2 ^ 24 := by
  rw [UInt32.toNat_shiftRight, show (24 : UInt32).toNat % 32 = 24 from rfl, Nat.shiftRight_eq_div_pow]

theorem toNat_mantissa (c : UInt32) : (c &&& 0x007fffff).toNat = c.toNat % 2 ^ 23 := by
  rw [UInt32.toNat_and, show (0x007fffff : UInt32).toNat = 2 ^ 23 - 1 from rfl, Nat.and_two_pow_sub_one_eq_mod]

theorem sign_ne_zero (c : UInt32) : (c &&& 0x00800000 != 0) = c.toNat.testBit 23 := by
  have hval : (c &&& 0x00800000).toNat = (c.toNat.testBit 23).toNat * 2 ^ 23 := by
    rw [UInt32.toNat_and, show (0x00800000 : UInt32).toNat = 2 ^ 23 from rfl, Nat.and_two_pow]
  cases h : c.toNat.testBit 23 with
  | false =>
    rw [h] at hval
    rw [show c &&& 0x00800000 = 0 from UInt32.toNat_inj.mp (by rw [hval]; rfl)]
    rfl
  | true =>
    rw [h] at hval
    have hne : c &&& 0x00800000 ≠ 0 := fun h0 => by rw [h0] at hval; simp at hval
    simpa using hne

theorem mantissa_lt (c : UInt32) : (c &&& 0x007fffff).toNat < 2 ^ 23 := by
  rw [toNat_mantissa]
  exact Nat.mod_lt _ (by norm_num)

theorem pow256_eq (k : Nat) : 256 ^ k = 2 ^ (8 * k) := by
  rw [Nat.pow_mul]

/-! ## Reading a compact word -/

section SetCompact

variable (c : UInt32)

theorem toNat_SetCompact : (SetCompact c).1.toNat = CompactValue c % 2 ^ 256 := by
  have hm := mantissa_lt c
  simp only [SetCompact, CompactValue]
  split_ifs with hs
  · rw [base_uint.toNat_ofUInt64 6, UInt32.toNat_toUInt64, UInt32.toNat_shiftRight,
      base_uint.toNat_ofNat_of_lt (by omega), Nat.mod_eq_of_lt (by omega), Nat.shiftRight_eq_div_pow,
      ← pow256_eq, Nat.mod_eq_of_lt]
    exact Nat.lt_of_le_of_lt (Nat.div_le_self _ _) (by omega)
  · rw [base_uint.toNat_ShiftLeft, base_uint.toNat_ofUInt64 6, UInt32.toNat_toUInt64, ← pow256_eq]

theorem SetCompact_negative_iff :
    (SetCompact c).2.1 = true ↔ CompactValue c ≠ 0 ∧ c.toNat.testBit 23 = true := by
  have hm := mantissa_lt c
  simp only [SetCompact, CompactValue, Bool.and_eq_true, bne_iff_ne, sign_ne_zero]
  split_ifs with hs
  · rw [Ne, ← UInt32.toNat_inj, UInt32.toNat_shiftRight, base_uint.toNat_ofNat_of_lt (by omega),
      Nat.mod_eq_of_lt (by omega), Nat.shiftRight_eq_div_pow, ← pow256_eq, UInt32.toNat_zero]
  · rw [Ne, ← UInt32.toNat_inj, UInt32.toNat_zero, Nat.mul_ne_zero_iff]
    simp

/-- `*pfOverflow` is set precisely when the number needs more than 256 bits. -/
theorem SetCompact_overflow_iff : (SetCompact c).2.2 = true ↔ 2 ^ 256 ≤ CompactValue c := by
  have hm := mantissa_lt c
  simp only [SetCompact, CompactValue]
  split_ifs with hs
  · -- three bytes or fewer never overflow
    have hsmall : (c &&& 0x007fffff).toNat / 256 ^ (3 - (c >>> 24).toNat) < 2 ^ 256 :=
      Nat.lt_of_le_of_lt (Nat.div_le_self _ _) (by omega)
    have h34 : ¬ (c >>> 24).toNat > 34 := by omega
    have h33 : ¬ (c >>> 24).toNat > 33 := by omega
    have h32 : ¬ (c >>> 24).toNat > 32 := by omega
    simp only [h34, h33, h32, decide_false, Bool.and_false, Bool.or_false, Bool.false_eq_true, false_iff]
    omega
  · simp only [Bool.and_eq_true, bne_iff_ne, Bool.or_eq_true, decide_eq_true_eq, Ne, ← UInt32.toNat_inj,
      UInt32.toNat_zero, UInt32.lt_iff_toNat_lt, show (0xff : UInt32).toNat = 255 from rfl,
      show (0xffff : UInt32).toNat = 65535 from rfl]
    generalize (c &&& 0x007fffff).toNat = m at hm ⊢
    generalize hsize : (c >>> 24).toNat = s at hs ⊢
    -- the three comparisons cut the exponents at 32, 33 and 34
    rcases Nat.lt_or_ge s 33 with h32 | h33
    · have hlt : m * 256 ^ (s - 3) < 2 ^ 256 := calc
        m * 256 ^ (s - 3) ≤ m * 256 ^ 29 := Nat.mul_le_mul_left _ (Nat.pow_le_pow_right (by norm_num) (by omega))
        _ < 2 ^ 23 * 256 ^ 29 := Nat.mul_lt_mul_of_pos_right hm (by positivity)
        _ ≤ 2 ^ 256 := by norm_num
      constructor
      · rintro ⟨-, h | ⟨-, h⟩ | ⟨-, h⟩⟩ <;> omega
      · intro h
        omega
    · rcases Nat.lt_or_ge s 35 with h34 | h35
      · obtain rfl | rfl : s = 33 ∨ s = 34 := by omega
        · norm_num
          omega
        · norm_num
          omega
      · have hpow : 2 ^ 256 ≤ 256 ^ (s - 3) := by
          rw [pow256_eq]
          exact Nat.pow_le_pow_right (by norm_num) (by omega)
        constructor
        · rintro ⟨hm0, -⟩
          exact Nat.le_trans hpow (Nat.le_mul_of_pos_left _ (Nat.pos_of_ne_zero hm0))
        · intro h
          refine ⟨fun hm0 => ?_, .inl (by omega)⟩
          rw [hm0, Nat.zero_mul] at h
          exact absurd h (Nat.not_le.mpr (Nat.two_pow_pos 256))

end SetCompact

/-! ## Writing a compact word -/

/-- The mantissa `GetCompact` starts from: the number moved so that its top
byte, byte `nSize - 1`, lands in bits 16 to 23. -/
def GetCompactWord (x : arith_uint256) (nSize : Nat) : UInt32 :=
  if nSize ≤ 3 then (x.GetLow64 <<< UInt64.ofNat (8 * (3 - nSize))).toUInt32
  else (x.ShiftRight (8 * (nSize - 3))).GetLow64.toUInt32

/-- `GetCompact(fNegative)`; `none` where one of its assertions fails. -/
def GetCompact (x : arith_uint256) (fNegative : Bool) : Option UInt32 :=
  let nSize := (x.bits + 7) / 8
  let nCompact := GetCompactWord x nSize
  -- the 0x00800000 bit denotes the sign: a mantissa that has it set is
  -- divided by 256 and the exponent increased
  let signBit := nCompact &&& 0x00800000 != 0
  let nCompact := if signBit then nCompact >>> 8 else nCompact
  let nSize := if signBit then nSize + 1 else nSize
  if nCompact &&& ~~~0x007fffff = 0 ∧ nSize < 256 then
    let nCompact := nCompact ||| UInt32.ofNat nSize <<< 24
    some (nCompact ||| if fNegative && nCompact &&& 0x007fffff != 0 then 0x00800000 else 0)
  else none

section GetCompact

variable (x : arith_uint256)

theorem lt_bytes : x.toNat < 2 ^ (8 * ((size x.toNat + 7) / 8)) :=
  Nat.lt_of_lt_of_le (lt_size_self _) (Nat.pow_le_pow_right (by norm_num) (by omega))

theorem bytes_le (hB : 0 < (size x.toNat + 7) / 8) : 2 ^ (8 * ((size x.toNat + 7) / 8 - 1)) ≤ x.toNat := by
  have hs : 0 < size x.toNat := by omega
  exact Nat.le_trans (Nat.pow_le_pow_right (by norm_num) (by omega))
    (lt_size.mp (show size x.toNat - 1 < size x.toNat by omega))

theorem bytes_le_32 : (size x.toNat + 7) / 8 ≤ 32 := by
  have := size_le.mpr x.toNat_lt
  omega

theorem toNat_GetCompactWord :
    (GetCompactWord x ((size x.toNat + 7) / 8)).toNat =
      if (size x.toNat + 7) / 8 ≤ 3 then x.toNat * 256 ^ (3 - (size x.toNat + 7) / 8)
      else x.toNat / 256 ^ ((size x.toNat + 7) / 8 - 3) := by
  have hlt := lt_bytes x
  generalize (size x.toNat + 7) / 8 = B at hlt ⊢
  rw [GetCompactWord]
  split_ifs with hB
  · -- the whole number fits three bytes and is moved up
    have hfit : x.toNat * 2 ^ (8 * (3 - B)) < 2 ^ 24 := calc
      x.toNat * 2 ^ (8 * (3 - B)) < 2 ^ (8 * B) * 2 ^ (8 * (3 - B)) :=
        Nat.mul_lt_mul_of_pos_right hlt (Nat.two_pow_pos _)
      _ = 2 ^ 24 := by rw [← Nat.pow_add]; congr 1; omega
    have hx64 : x.toNat % 2 ^ 64 = x.toNat := Nat.mod_eq_of_lt (Nat.lt_of_lt_of_le hlt
      (Nat.pow_le_pow_right (by norm_num) (by omega)))
    rw [UInt64.toNat_toUInt32, UInt64.toNat_shiftLeft, base_uint.toNat_GetLow64, hx64, UInt64.toNat_ofNat',
      Nat.mod_eq_of_lt (show 8 * (3 - B) < 2 ^ 64 by omega), Nat.mod_eq_of_lt (show 8 * (3 - B) < 64 by omega),
      Nat.shiftLeft_eq, pow256_eq, Nat.mod_eq_of_lt (show x.toNat * 2 ^ (8 * (3 - B)) < 2 ^ 64 by omega),
      Nat.mod_eq_of_lt (show x.toNat * 2 ^ (8 * (3 - B)) < 2 ^ 32 by omega)]
  · -- the number is moved down, dropping its low bytes
    have hfit : x.toNat / 2 ^ (8 * (B - 3)) < 2 ^ 24 := by
      rw [Nat.div_lt_iff_lt_mul (Nat.two_pow_pos _), ← Nat.pow_add]
      exact Nat.lt_of_lt_of_le hlt (Nat.pow_le_pow_right (by norm_num) (by omega))
    rw [UInt64.toNat_toUInt32, base_uint.toNat_GetLow64, base_uint.toNat_ShiftRight, pow256_eq,
      Nat.mod_eq_of_lt (show x.toNat / 2 ^ (8 * (B - 3)) < 2 ^ 64 by omega),
      Nat.mod_eq_of_lt (show x.toNat / 2 ^ (8 * (B - 3)) < 2 ^ 32 by omega)]

theorem compact_fields {w : UInt32} (hw : w.toNat < 2 ^ 23) {B : Nat} (hB : B < 256) :
    ((w ||| UInt32.ofNat B <<< 24) >>> 24).toNat = B ∧ ((w ||| UInt32.ofNat B <<< 24) &&& 0x007fffff).toNat = w.toNat ∧
      (w ||| UInt32.ofNat B <<< 24).toNat.testBit 23 = false := by
  have hval : (w ||| UInt32.ofNat B <<< 24).toNat = 2 ^ 24 * B + w.toNat := by
    rw [UInt32.toNat_or, UInt32.toNat_shiftLeft, UInt32.toNat_ofNat', show (24 : UInt32).toNat % 32 = 24 from rfl,
      Nat.mod_eq_of_lt (show B < 2 ^ 32 by omega), Nat.mod_eq_of_lt (by rw [Nat.shiftLeft_eq]; omega), Nat.lor_comm,
      ← Nat.shiftLeft_add_eq_or_of_lt (show w.toNat < 2 ^ 24 by omega), Nat.shiftLeft_eq, Nat.mul_comm]
  refine ⟨?_, ?_, ?_⟩
  · rw [toNat_exponent, hval]
    omega
  · rw [toNat_mantissa, hval]
    omega
  · rw [hval, testBit_two_pow_mul_add _ (show w.toNat < 2 ^ 24 by omega), if_pos (by norm_num)]
    exact testBit_lt_two_pow hw

theorem and_not_mantissa {w : UInt32} (hw : w.toNat < 2 ^ 23) : w &&& ~~~0x007fffff = 0 := by
  have hmask : w = w &&& 0x007fffff := UInt32.toNat_inj.mp (by rw [toNat_mantissa, Nat.mod_eq_of_lt hw])
  rw [hmask, UInt32.and_assoc, UInt32.and_not_self, UInt32.and_zero]

theorem start_lt {N B M0 : Nat} (hM0 : M0 = if B ≤ 3 then N * 256 ^ (3 - B) else N / 256 ^ (B - 3))
    (hlt : N < 2 ^ (8 * B)) : M0 < 2 ^ 24 := by
  split_ifs at hM0 with hB
  · rw [hM0, pow256_eq]
    calc N * 2 ^ (8 * (3 - B)) < 2 ^ (8 * B) * 2 ^ (8 * (3 - B)) := Nat.mul_lt_mul_of_pos_right hlt (by positivity)
      _ = 2 ^ 24 := by rw [← Nat.pow_add]; congr 1; omega
  · rw [hM0, pow256_eq, Nat.div_lt_iff_lt_mul (by positivity), ← Nat.pow_add]
    exact Nat.lt_of_lt_of_le hlt (Nat.pow_le_pow_right (by norm_num) (by omega))

theorem compact_rounding {N B M0 : Nat} (hM0 : M0 = if B ≤ 3 then N * 256 ^ (3 - B) else N / 256 ^ (B - 3))
    (hlt : N < 2 ^ (8 * B)) (hge : 0 < B → 2 ^ (8 * (B - 1)) ≤ N) :
    let M := if 2 ^ 23 ≤ M0 then M0 / 256 else M0
    let B' := if 2 ^ 23 ≤ M0 then B + 1 else B
    M < 2 ^ 23 ∧ (if B' ≤ 3 then M / 256 ^ (3 - B') else M * 256 ^ (B' - 3)) = N / 256 ^ (B' - 3) * 256 ^ (B' - 3) ∧
      N / 256 ^ (B' - 3) < 2 ^ 23 ∧ (B' - 3 = 0 ∨ 2 ^ 23 ≤ N / 256 ^ (B' - 3 - 1)) := by
  intro M B'
  have hM0lt := start_lt hM0 hlt
  by_cases hB : B ≤ 3
  · rw [if_pos hB] at hM0
    have hNle : N ≤ M0 := hM0 ▸ Nat.le_mul_of_pos_right _ (by positivity)
    by_cases hadj : 2 ^ 23 ≤ M0
    · by_cases hB2 : B ≤ 2
      · -- the whole number still fits: the mantissa loses a zero byte only
        have hdiv : M0 / 256 = N * 256 ^ (2 - B) := by
          rw [hM0, show 3 - B = 2 - B + 1 by omega, Nat.pow_succ, ← Nat.mul_assoc, Nat.mul_div_cancel _ (by norm_num)]
        have hN : N < 2 ^ 16 := Nat.lt_of_lt_of_le hlt (Nat.pow_le_pow_right (by norm_num) (by omega))
        simp only [M, B', if_pos hadj, if_pos (show B + 1 ≤ 3 by omega), hdiv, show B + 1 - 3 = 0 by omega,
          show 3 - (B + 1) = 2 - B by omega, Nat.pow_zero, Nat.div_one, Nat.mul_one]
        refine ⟨by omega, Nat.mul_div_cancel _ (by positivity), by omega, .inl trivial⟩
      · -- three bytes with the sign bit set: the low byte goes
        have hB3 : B = 3 := by omega
        subst hB3
        simp only [Nat.sub_self, Nat.pow_zero, Nat.mul_one] at hM0
        subst hM0
        simp only [M, B', if_pos hadj, if_neg (show ¬ 3 + 1 ≤ 3 by omega), show 3 + 1 - 3 = 1 by omega,
          Nat.pow_one, Nat.sub_self, Nat.pow_zero, Nat.div_one]
        exact ⟨by omega, trivial, by omega, .inr hadj⟩
    · simp only [M, B', if_neg hadj, if_pos hB, show B - 3 = 0 by omega, Nat.pow_zero, Nat.div_one, Nat.mul_one]
      rw [hM0, Nat.mul_div_cancel _ (by positivity)]
      exact ⟨by omega, rfl, by omega, .inl trivial⟩
  · rw [if_neg hB] at hM0
    have hN := hge (by omega)
    by_cases hadj : 2 ^ 23 ≤ M0
    · -- the sign bit is set: one byte more is dropped
      have hdiv : M0 / 256 = N / 256 ^ (B - 2) := by
        rw [hM0, Nat.div_div_eq_div_mul, ← Nat.pow_succ, show (B - 3).succ = B - 2 by omega]
      simp only [M, B', if_pos hadj, if_neg (show ¬ B + 1 ≤ 3 by omega), show B + 1 - 3 = B - 2 by omega,
        show B - 2 - 1 = B - 3 by omega, hdiv]
      refine ⟨by omega, trivial, by omega, .inr (hM0 ▸ hadj)⟩
    · simp only [M, B', if_neg hadj, if_neg hB]
      refine ⟨by omega, by rw [hM0], by omega, .inr ?_⟩
      rw [Nat.le_div_iff_mul_le (by positivity), pow256_eq, ← Nat.pow_add]
      exact Nat.le_trans (Nat.pow_le_pow_right (by norm_num) (by omega)) hN

theorem GetCompact_false_eq :
    ∃ w : UInt32,
      w.toNat = (if 2 ^ 23 ≤ (GetCompactWord x ((size x.toNat + 7) / 8)).toNat then
        (GetCompactWord x ((size x.toNat + 7) / 8)).toNat / 256 else (GetCompactWord x ((size x.toNat + 7) / 8)).toNat) ∧
      x.GetCompact false = some (w ||| UInt32.ofNat (if 2 ^ 23 ≤ (GetCompactWord x ((size x.toNat + 7) / 8)).toNat then
        (size x.toNat + 7) / 8 + 1 else (size x.toNat + 7) / 8) <<< 24) := by
  have hB := bytes_le_32 x
  have hword := toNat_GetCompactWord x
  obtain ⟨hM, -⟩ := compact_rounding hword (lt_bytes x) (bytes_le x)
  have hw0lt := start_lt hword (lt_bytes x)
  generalize hw0 : GetCompactWord x ((size x.toNat + 7) / 8) = w0 at hword hM hw0lt ⊢
  have hsign : (w0 &&& 0x00800000 != 0) = decide (2 ^ 23 ≤ w0.toNat) := by
    rw [sign_ne_zero, Limbs.testBit_eq_decide_le hw0lt]
  simp only [GetCompact, base_uint.bits_eq, hw0, hsign, decide_eq_true_eq, Bool.false_and, Bool.false_eq_true,
    if_false, UInt32.or_zero]
  by_cases hadj : 2 ^ 23 ≤ w0.toNat
  · -- the mantissa reached the sign bit and moved one byte down
    have hshift : (w0 >>> 8).toNat = w0.toNat / 256 := by
      rw [UInt32.toNat_shiftRight, show (8 : UInt32).toNat % 32 = 8 from rfl, Nat.shiftRight_eq_div_pow]
    simp only [if_pos hadj] at hM ⊢
    rw [if_pos ⟨and_not_mantissa (by omega), by omega⟩]
    exact ⟨_, hshift, rfl⟩
  · simp only [if_neg hadj] at hM ⊢
    rw [if_pos ⟨and_not_mantissa hM, by omega⟩]
    exact ⟨_, rfl, rfl⟩

theorem GetCompact_spec (x : arith_uint256) : ∃ c, x.GetCompact false = some c ∧ IsCompactOf x.toNat c := by
  have hB := bytes_le_32 x
  obtain ⟨hM, hval, hlow, hmin⟩ := compact_rounding (toNat_GetCompactWord x) (lt_bytes x) (bytes_le x)
  obtain ⟨w, hw, hget⟩ := GetCompact_false_eq x
  generalize (GetCompactWord x ((size x.toNat + 7) / 8)).toNat = M0 at hM hval hlow hmin hw hget
  generalize hM' : (if 2 ^ 23 ≤ M0 then M0 / 256 else M0) = M at hM hval hw
  generalize hB' : (if 2 ^ 23 ≤ M0 then (size x.toNat + 7) / 8 + 1 else (size x.toNat + 7) / 8) = B' at hval hlow hmin hget
  have hB'lt : B' < 256 := by
    rw [← hB']
    split_ifs <;> omega
  obtain ⟨hexp, hmant, hsign⟩ := compact_fields (show w.toNat < 2 ^ 23 by omega) hB'lt
  refine ⟨_, hget, hsign, B' - 3, ?_, hlow, hmin⟩
  simp only [CompactValue, hexp, hmant, hw]
  exact hval

/-- `GetCompact` followed by `SetCompact` rounds the number down to its top
bytes: it clears the bytes below `256 ^ e`, `e` the fewest whose removal
leaves a mantissa below `2 ^ 23`, and reports neither a negative number nor an
overflow. -/
theorem SetCompact_GetCompact (x : arith_uint256) :
    ∃ c, x.GetCompact false = some c ∧ ∃ e,
      (SetCompact c).1.toNat = x.toNat / 256 ^ e * 256 ^ e ∧ (SetCompact c).2 = (false, false) ∧
        x.toNat / 256 ^ e < 2 ^ 23 ∧ (e = 0 ∨ 2 ^ 23 ≤ x.toNat / 256 ^ (e - 1)) := by
  obtain ⟨c, hget, hsign, e, hvalue, hlow, hmin⟩ := GetCompact_spec x
  have hfits : CompactValue c < 2 ^ 256 :=
    hvalue ▸ Nat.lt_of_le_of_lt (Nat.div_mul_le_self _ _) x.toNat_lt
  refine ⟨c, hget, e, ?_, ?_, hlow, hmin⟩
  · rw [toNat_SetCompact, Nat.mod_eq_of_lt hfits, hvalue]
  · have hneg : (SetCompact c).2.1 = false := by
      rw [Bool.eq_false_iff, Ne, SetCompact_negative_iff, hsign]
      simp
    have hover : (SetCompact c).2.2 = false := by
      rw [Bool.eq_false_iff, Ne, SetCompact_overflow_iff]
      omega
    exact Prod.ext hneg hover

end GetCompact

end arith_uint256

end Elements
