import Elements.Data.Limbs
import Elements.Serialize

/-!
# Unsigned big integers

`base_uint<BITS>` of `arith_uint256.{h,cpp}` keeps a number in `WIDTH = BITS / 32`
limbs of 32 bits, least significant first, and computes with loops over
them: shifts that OR the pieces of each limb into one or two others, carry
loops for addition and multiplication by a word, a scan from the top for the
comparison and for `bits()`, and a shift-and-subtract loop for the division.
`arith_uint256` is `base_uint<256>`, the type of proof-of-work targets.

Each loop is modelled as the source writes it, and each comes with the number
it computes, read through `toNat`: the operations are those of the naturals
modulo `2 ^ (32 * WIDTH)`, and the division is exact (`toNat_Div`).
-/

namespace Elements

open Nat Limbs

/-- `base_uint<BITS>`: its `WIDTH = BITS / 32` limbs `pn`, least significant
first. -/
structure base_uint (WIDTH : Nat) where
  pn : List UInt32
  length_pn : pn.length = WIDTH
deriving DecidableEq, Repr

abbrev arith_uint256 := base_uint 8

namespace base_uint

/-! ## The number a list of limbs denotes -/

/-- The number a list of 32-bit limbs denotes, least significant first. -/
def value (pn : List UInt32) : Nat := ofDigits (2 ^ 32) (pn.map UInt32.toNat)

def toNat {WIDTH : Nat} (a : base_uint WIDTH) : Nat := value a.pn

@[simp] theorem value_nil : value [] = 0 := rfl

@[simp] theorem value_cons (x : UInt32) (xs : List UInt32) :
    value (x :: xs) = x.toNat + 2 ^ 32 * value xs := by
  simp [value, ofDigits_cons]

theorem value_append (xs ys : List UInt32) :
    value (xs ++ ys) = value xs + 2 ^ (32 * xs.length) * value ys := by
  rw [value, List.map_append, ofDigits_append, List.length_map, Nat.pow_mul]
  rfl

theorem limbs_lt (pn : List UInt32) : ∀ d ∈ pn.map UInt32.toNat, d < 2 ^ 32 := by
  intro d hd
  obtain ⟨x, _, rfl⟩ := List.mem_map.mp hd
  exact x.toNat_lt

theorem value_lt (pn : List UInt32) : value pn < 2 ^ (32 * pn.length) := by
  have h := ofDigits_lt (by norm_num) (limbs_lt pn)
  rwa [List.length_map] at h

theorem toNat_lt {WIDTH : Nat} (a : base_uint WIDTH) : a.toNat < 2 ^ (32 * WIDTH) := by
  have h := value_lt a.pn
  rwa [a.length_pn] at h

theorem testBit_value (pn : List UInt32) (b : Nat) :
    (value pn).testBit b = (pn.getD (b / 32) 0).toNat.testBit (b % 32) := by
  rw [value, testBit_ofDigits (by norm_num) (limbs_lt pn), ← UInt32.toNat_zero, List.getD_map]

theorem testBit_getD (pn : List UInt32) (i : Nat) {r : Nat} (hr : r < 32) :
    (pn.getD i 0).toNat.testBit r = (value pn).testBit (32 * i + r) := by
  rw [testBit_value]
  congr 3 <;> omega

theorem testBit_limb_of_le (x : UInt32) {r : Nat} (hr : 32 ≤ r) : x.toNat.testBit r = false :=
  testBit_lt_two_pow (Nat.lt_of_lt_of_le x.toNat_lt (Nat.pow_le_pow_right (by norm_num) hr))

/-! ## Shifts of a limb -/

theorem toNat_ofNat_of_lt {s : Nat} (hs : s < 32) : (UInt32.ofNat s).toNat = s := by
  rw [UInt32.toNat_ofNat']
  omega

theorem testBit_shiftLeft_limb (x : UInt32) {s t : Nat} (hs : s < 32) (ht : t < 32) :
    (x <<< UInt32.ofNat s).toNat.testBit t = (decide (s ≤ t) && x.toNat.testBit (t - s)) := by
  rw [UInt32.toNat_shiftLeft, toNat_ofNat_of_lt hs, Nat.mod_eq_of_lt hs, testBit_mod_two_pow,
    decide_eq_true ht, Bool.true_and, testBit_shiftLeft]

theorem testBit_shiftRight_limb (x : UInt32) {s : Nat} (hs : s < 32) (t : Nat) :
    (x >>> UInt32.ofNat s).toNat.testBit t = x.toNat.testBit (s + t) := by
  rw [UInt32.toNat_shiftRight, toNat_ofNat_of_lt hs, Nat.mod_eq_of_lt hs, testBit_shiftRight]

/-! ## Shifting left -/

section ShiftLeft

variable (WIDTH : Nat)

/-- Iteration `i` of the loop of `operator<<=(shift)`, with `k = shift / 32`
whole limbs and `s = shift % 32` bits: the high bits of `a.pn[i]` go into
limb `i + k + 1`, the low ones into limb `i + k`. -/
def ShiftLeftStep (a : List UInt32) (k s : Nat) (pn : List UInt32) (i : Nat) : List UInt32 :=
  let pn := if i + k + 1 < WIDTH ∧ s ≠ 0 then pn.modify (i + k + 1) (· ||| a.getD i 0 >>> UInt32.ofNat (32 - s))
    else pn
  if i + k < WIDTH then pn.modify (i + k) (· ||| a.getD i 0 <<< UInt32.ofNat s) else pn

/-- The first `n` iterations, from the cleared limbs. -/
def ShiftLeftRun (a : List UInt32) (k s n : Nat) : List UInt32 :=
  (List.range n).foldl (ShiftLeftStep WIDTH a k s) (List.replicate WIDTH 0)

theorem ShiftLeftRun_succ (a : List UInt32) (k s n : Nat) :
    ShiftLeftRun WIDTH a k s (n + 1) = ShiftLeftStep WIDTH a k s (ShiftLeftRun WIDTH a k s n) n := by
  rw [ShiftLeftRun, List.range_succ, List.foldl_append, List.foldl_cons, List.foldl_nil]
  rfl

theorem length_ShiftLeftRun (a : List UInt32) (k s n : Nat) : (ShiftLeftRun WIDTH a k s n).length = WIDTH := by
  induction n with
  | zero => simp [ShiftLeftRun]
  | succ n ih =>
    rw [ShiftLeftRun_succ, ShiftLeftStep]
    split_ifs <;> simp [ih]

end ShiftLeft

/-- `operator<<=(shift)`. -/
def ShiftLeft {WIDTH : Nat} (a : base_uint WIDTH) (shift : Nat) : base_uint WIDTH :=
  ⟨ShiftLeftRun WIDTH a.pn (shift / 32) (shift % 32) WIDTH, length_ShiftLeftRun WIDTH _ _ _ _⟩

section ShiftLeftSpec

variable {WIDTH : Nat} {a : List UInt32} {k s : Nat}

theorem getD_ShiftLeftStep {pn : List UInt32} (hlen : pn.length = WIDTH) (i : Nat) {j : Nat} (hj : j < WIDTH) :
    (ShiftLeftStep WIDTH a k s pn i).getD j 0 =
      (pn.getD j 0 ||| if i + k + 1 = j ∧ s ≠ 0 then a.getD i 0 >>> UInt32.ofNat (32 - s) else 0) |||
        if i + k = j then a.getD i 0 <<< UInt32.ofNat s else 0 := by
  simp only [ShiftLeftStep]
  split_ifs <;> simp_all

theorem testBit_ShiftLeftStep {pn : List UInt32} (hlen : pn.length = WIDTH) (hs : s < 32) (i : Nat)
    {j t : Nat} (hj : j < WIDTH) (ht : t < 32) :
    ((ShiftLeftStep WIDTH a k s pn i).getD j 0).toNat.testBit t =
      ((pn.getD j 0).toNat.testBit t ||
        (decide (32 * k + s ≤ 32 * j + t) && decide ((32 * j + t - (32 * k + s)) / 32 = i) &&
          (value a).testBit (32 * j + t - (32 * k + s)))) := by
  rw [getD_ShiftLeftStep hlen i hj, UInt32.toNat_or, UInt32.toNat_or, testBit_or, testBit_or, Bool.or_assoc]
  congr 1
  by_cases hlo : i + k = j
  · -- limb `i + k` takes the low `32 - s` bits of `a.pn[i]`, shifted up by `s`
    subst hlo
    rw [if_neg (by omega), if_pos rfl, testBit_shiftLeft_limb _ hs ht]
    by_cases hst : s ≤ t
    · have hpos : 32 * (i + k) + t - (32 * k + s) = 32 * i + (t - s) := by omega
      rw [hpos, ← testBit_getD _ _ (by omega)]
      simp [hst, show 32 * k + s ≤ 32 * (i + k) + t by omega, show (32 * i + (t - s)) / 32 = i by omega]
    · -- the bit comes from limb `i - 1`, or from below the shift
      by_cases h1 : 32 * k + s ≤ 32 * (i + k) + t
      · simp [hst, h1, show (32 * (i + k) + t - (32 * k + s)) / 32 ≠ i by omega]
      · simp [hst, h1]
  · rw [if_neg hlo]
    by_cases hhi : i + k + 1 = j ∧ s ≠ 0
    · -- limb `i + k + 1` takes the high `s` bits of `a.pn[i]`
      obtain ⟨rfl, hs0⟩ := hhi
      rw [if_pos ⟨rfl, hs0⟩, testBit_shiftRight_limb _ (by omega)]
      by_cases hts : t < s
      · have hpos : 32 * (i + k + 1) + t - (32 * k + s) = 32 * i + (32 - s + t) := by omega
        rw [hpos, testBit_getD _ _ (by omega)]
        simp [show 32 * k + s ≤ 32 * (i + k + 1) + t by omega, show (32 * i + (32 - s + t)) / 32 = i by omega]
      · rw [testBit_limb_of_le _ (by omega)]
        simp [show (32 * (i + k + 1) + t - (32 * k + s)) / 32 ≠ i by omega]
    · -- no bit of limb `i` lands in any other limb
      rw [if_neg hhi]
      have hidx : ¬ (32 * k + s ≤ 32 * j + t ∧ (32 * j + t - (32 * k + s)) / 32 = i) := by
        intro ⟨h1, h2⟩
        by_cases hst : s ≤ t
        · omega
        · exact hhi ⟨by omega, by omega⟩
      by_cases h1 : 32 * k + s ≤ 32 * j + t
      · simp [h1, show (32 * j + t - (32 * k + s)) / 32 ≠ i from fun h => hidx ⟨h1, h⟩]
      · simp [h1]

theorem testBit_ShiftLeftRun (hs : s < 32) (n : Nat) {j t : Nat} (hj : j < WIDTH) (ht : t < 32) :
    ((ShiftLeftRun WIDTH a k s n).getD j 0).toNat.testBit t =
      (decide (32 * k + s ≤ 32 * j + t) && decide ((32 * j + t - (32 * k + s)) / 32 < n) &&
        (value a).testBit (32 * j + t - (32 * k + s))) := by
  induction n with
  | zero => simp [ShiftLeftRun]
  | succ n ih =>
    rw [ShiftLeftRun_succ, testBit_ShiftLeftStep (length_ShiftLeftRun _ _ _ _ _) hs n hj ht, ih]
    by_cases h1 : 32 * k + s ≤ 32 * j + t
    · by_cases h2 : (32 * j + t - (32 * k + s)) / 32 < n
      · simp [h1, h2, show (32 * j + t - (32 * k + s)) / 32 < n + 1 by omega]
      · by_cases h3 : (32 * j + t - (32 * k + s)) / 32 = n
        · simp [h1, h3]
        · simp [h1, h2, h3, show ¬ (32 * j + t - (32 * k + s)) / 32 < n + 1 by omega]
    · simp [h1]

end ShiftLeftSpec

theorem toNat_ShiftLeft {WIDTH : Nat} (a : base_uint WIDTH) (shift : Nat) :
    (a.ShiftLeft shift).toNat = a.toNat * 2 ^ shift % 2 ^ (32 * WIDTH) := by
  apply Nat.eq_of_testBit_eq
  intro b
  rw [toNat, testBit_value, testBit_mod_two_pow, testBit_mul_two_pow]
  by_cases hb : b < 32 * WIDTH
  · rw [ShiftLeft, testBit_ShiftLeftRun (Nat.mod_lt _ (by norm_num)) _ (by omega) (Nat.mod_lt _ (by norm_num))]
    have hsplit : 32 * (shift / 32) + shift % 32 = shift := Nat.div_add_mod shift 32
    have hpos : 32 * (b / 32) + b % 32 = b := Nat.div_add_mod b 32
    rw [hsplit, hpos]
    by_cases hsb : shift ≤ b
    · simp [hb, hsb, toNat, show (b - shift) / 32 < WIDTH by omega]
    · simp [hsb]
  · have hlen := length_ShiftLeftRun WIDTH a.pn (shift / 32) (shift % 32) WIDTH
    rw [List.getD_eq_default _ _ (by rw [ShiftLeft, hlen]; omega)]
    simp [hb]

/-! ## Shifting right -/

section ShiftRight

variable (WIDTH : Nat)

/-- Iteration `i` of the loop of `operator>>=(shift)`: the low bits of
`a.pn[i]` go into limb `i - k - 1`, the high ones into limb `i - k`, where
those are limbs. -/
def ShiftRightStep (a : List UInt32) (k s : Nat) (pn : List UInt32) (i : Nat) : List UInt32 :=
  let pn := if k + 1 ≤ i ∧ s ≠ 0 then pn.modify (i - k - 1) (· ||| a.getD i 0 <<< UInt32.ofNat (32 - s)) else pn
  if k ≤ i then pn.modify (i - k) (· ||| a.getD i 0 >>> UInt32.ofNat s) else pn

def ShiftRightRun (a : List UInt32) (k s n : Nat) : List UInt32 :=
  (List.range n).foldl (ShiftRightStep a k s) (List.replicate WIDTH 0)

theorem ShiftRightRun_succ (a : List UInt32) (k s n : Nat) :
    ShiftRightRun WIDTH a k s (n + 1) = ShiftRightStep a k s (ShiftRightRun WIDTH a k s n) n := by
  rw [ShiftRightRun, List.range_succ, List.foldl_append, List.foldl_cons, List.foldl_nil]
  rfl

theorem length_ShiftRightRun (a : List UInt32) (k s n : Nat) : (ShiftRightRun WIDTH a k s n).length = WIDTH := by
  induction n with
  | zero => simp [ShiftRightRun]
  | succ n ih =>
    rw [ShiftRightRun_succ, ShiftRightStep]
    split_ifs <;> simp [ih]

end ShiftRight

/-- `operator>>=(shift)`. -/
def ShiftRight {WIDTH : Nat} (a : base_uint WIDTH) (shift : Nat) : base_uint WIDTH :=
  ⟨ShiftRightRun WIDTH a.pn (shift / 32) (shift % 32) WIDTH, length_ShiftRightRun WIDTH _ _ _ _⟩

section ShiftRightSpec

variable {WIDTH : Nat} {a : List UInt32} {k s : Nat}

theorem getD_ShiftRightStep {pn : List UInt32} (i : Nat) {j : Nat} (hj : j < pn.length) :
    (ShiftRightStep a k s pn i).getD j 0 =
      (pn.getD j 0 ||| if i = j + k + 1 ∧ s ≠ 0 then a.getD i 0 <<< UInt32.ofNat (32 - s) else 0) |||
        if i = j + k then a.getD i 0 >>> UInt32.ofNat s else 0 := by
  have hinner : (if k + 1 ≤ i ∧ s ≠ 0 then pn.modify (i - k - 1) (· ||| a.getD i 0 <<< UInt32.ofNat (32 - s))
      else pn).getD j 0 =
      (pn.getD j 0 ||| if i = j + k + 1 ∧ s ≠ 0 then a.getD i 0 <<< UInt32.ofNat (32 - s) else 0) := by
    by_cases h : i = j + k + 1 ∧ s ≠ 0
    · rw [if_pos ⟨by omega, h.2⟩, if_pos h, getD_modify, if_pos ⟨by omega, hj⟩]
    · rw [if_neg h, UInt32.or_zero]
      split_ifs
      · rw [getD_modify, if_neg (by omega)]
      · rfl
  have hlen : (if k + 1 ≤ i ∧ s ≠ 0 then pn.modify (i - k - 1) (· ||| a.getD i 0 <<< UInt32.ofNat (32 - s))
      else pn).length = pn.length := by
    split_ifs <;> simp
  simp only [ShiftRightStep]
  generalize (if k + 1 ≤ i ∧ s ≠ 0 then pn.modify (i - k - 1) (· ||| a.getD i 0 <<< UInt32.ofNat (32 - s))
    else pn) = inner at hinner hlen ⊢
  by_cases h : i = j + k
  · rw [if_pos (by omega), if_pos h, getD_modify, if_pos ⟨by omega, by rw [hlen]; exact hj⟩, hinner]
  · rw [if_neg h, UInt32.or_zero, ← hinner]
    split_ifs
    · rw [getD_modify, if_neg (by omega)]
    · rfl

theorem testBit_ShiftRightStep {pn : List UInt32} (hs : s < 32) (i : Nat) {j t : Nat} (hj : j < pn.length)
    (ht : t < 32) :
    ((ShiftRightStep a k s pn i).getD j 0).toNat.testBit t =
      ((pn.getD j 0).toNat.testBit t ||
        (decide ((32 * j + t + (32 * k + s)) / 32 = i) && (value a).testBit (32 * j + t + (32 * k + s)))) := by
  rw [getD_ShiftRightStep i hj, UInt32.toNat_or, UInt32.toNat_or, testBit_or, testBit_or, Bool.or_assoc]
  congr 1
  by_cases hlo : i = j + k
  · -- limb `j + k` gives its high `32 - s` bits
    subst hlo
    rw [if_neg (by omega), if_pos rfl, testBit_shiftRight_limb _ hs]
    by_cases hst : s + t < 32
    · rw [testBit_getD _ _ hst]
      simp [show (32 * j + t + (32 * k + s)) / 32 = j + k by omega, show 32 * (j + k) + (s + t) =
        32 * j + t + (32 * k + s) by omega]
    · rw [testBit_limb_of_le _ (show 32 ≤ s + t by omega)]
      simp [show (32 * j + t + (32 * k + s)) / 32 ≠ j + k by omega]
  · rw [if_neg hlo]
    by_cases hhi : i = j + k + 1 ∧ s ≠ 0
    · -- limb `j + k + 1` gives its low `s` bits, at the top of limb `j`
      obtain ⟨rfl, hs0⟩ := hhi
      rw [if_pos ⟨rfl, hs0⟩, testBit_shiftLeft_limb _ (by omega) ht]
      by_cases hts : 32 - s ≤ t
      · rw [testBit_getD _ _ (by omega)]
        simp [hts, show (32 * j + t + (32 * k + s)) / 32 = j + k + 1 by omega,
          show 32 * (j + k + 1) + (t - (32 - s)) = 32 * j + t + (32 * k + s) by omega]
      · simp [hts, show (32 * j + t + (32 * k + s)) / 32 ≠ j + k + 1 by omega]
    · -- no bit of limb `i` lands in any other limb
      rw [if_neg hhi]
      have hidx : (32 * j + t + (32 * k + s)) / 32 ≠ i := by
        intro h
        by_cases hst : s + t < 32
        · omega
        · exact hhi ⟨by omega, by omega⟩
      simp [hidx]

theorem testBit_ShiftRightRun (hs : s < 32) (n : Nat) {j t : Nat} (hj : j < WIDTH) (ht : t < 32) :
    ((ShiftRightRun WIDTH a k s n).getD j 0).toNat.testBit t =
      (decide ((32 * j + t + (32 * k + s)) / 32 < n) && (value a).testBit (32 * j + t + (32 * k + s))) := by
  induction n with
  | zero => simp [ShiftRightRun]
  | succ n ih =>
    rw [ShiftRightRun_succ, testBit_ShiftRightStep hs n (by rw [length_ShiftRightRun]; exact hj) ht, ih]
    by_cases h2 : (32 * j + t + (32 * k + s)) / 32 < n
    · simp [h2, show (32 * j + t + (32 * k + s)) / 32 < n + 1 by omega]
    · by_cases h3 : (32 * j + t + (32 * k + s)) / 32 = n
      · simp [h3]
      · simp [h2, h3, show ¬ (32 * j + t + (32 * k + s)) / 32 < n + 1 by omega]

end ShiftRightSpec

theorem toNat_ShiftRight {WIDTH : Nat} (a : base_uint WIDTH) (shift : Nat) :
    (a.ShiftRight shift).toNat = a.toNat / 2 ^ shift := by
  apply Nat.eq_of_testBit_eq
  intro b
  have hbits : ∀ c, 32 * WIDTH ≤ c → a.toNat.testBit c = false := fun c hc =>
    testBit_lt_two_pow (Nat.lt_of_lt_of_le a.toNat_lt (Nat.pow_le_pow_right (by norm_num) hc))
  rw [toNat, testBit_value, testBit_div_two_pow]
  by_cases hb : b < 32 * WIDTH
  · rw [ShiftRight, testBit_ShiftRightRun (Nat.mod_lt _ (by norm_num)) _ (by omega) (Nat.mod_lt _ (by norm_num))]
    have hsplit : 32 * (shift / 32) + shift % 32 = shift := Nat.div_add_mod shift 32
    have hpos : 32 * (b / 32) + b % 32 = b := Nat.div_add_mod b 32
    rw [hsplit, hpos]
    by_cases hin : (b + shift) / 32 < WIDTH
    · simp [hin, toNat]
    · -- the bit it would read lies past the top limb of `a`
      have hout : a.toNat.testBit (b + shift) = false := hbits _ (by omega)
      rw [hout]
      simp only [Bool.and_eq_false_iff, decide_eq_false_iff_not]
      exact .inl hin
  · have hlen := length_ShiftRightRun WIDTH a.pn (shift / 32) (shift % 32) WIDTH
    rw [List.getD_eq_default _ _ (by rw [ShiftRight, hlen]; omega), hbits _ (by omega)]
    simp

/-! ## Carry loops -/

theorem toNat_lowWord (n : UInt64) : (n &&& 0xffffffff).toUInt32.toNat = n.toNat % 2 ^ 32 := by
  rw [UInt64.toNat_toUInt32, UInt64.toNat_and, show (0xffffffff : UInt64).toNat = 2 ^ 32 - 1 from rfl,
    Nat.and_two_pow_sub_one_eq_mod, Nat.mod_mod]

theorem toNat_highWord (n : UInt64) : (n >>> 32).toNat = n.toNat / 2 ^ 32 := by
  rw [UInt64.toNat_shiftRight, show (32 : UInt64).toNat % 64 = 32 from rfl, Nat.shiftRight_eq_div_pow]

/-- The loop of `operator*=(uint32_t b32)`: each limb becomes the low word of
`carry + b32 * pn[i]` and the high word is carried. -/
def MulWordLoop (b32 : UInt32) : UInt64 → List UInt32 → List UInt32
  | _, [] => []
  | carry, x :: xs =>
    let n := carry + b32.toUInt64 * x.toUInt64
    (n &&& 0xffffffff).toUInt32 :: MulWordLoop b32 (n >>> 32) xs

theorem length_MulWordLoop (b32 : UInt32) (carry : UInt64) (xs : List UInt32) :
    (MulWordLoop b32 carry xs).length = xs.length := by
  induction xs generalizing carry with
  | nil => rfl
  | cons x xs ih => simp [MulWordLoop, ih]

theorem toNat_mulWordSum (b32 x : UInt32) {carry : UInt64} (hc : carry.toNat < 2 ^ 32) :
    (carry + b32.toUInt64 * x.toUInt64).toNat = carry.toNat + b32.toNat * x.toNat := by
  have hb := b32.toNat_lt
  have hx := x.toNat_lt
  have hprod : b32.toNat * x.toNat ≤ (2 ^ 32 - 1) * (2 ^ 32 - 1) := Nat.mul_le_mul (by omega) (by omega)
  rw [UInt64.toNat_add, UInt64.toNat_mul, UInt32.toNat_toUInt64, UInt32.toNat_toUInt64,
    Nat.mod_eq_of_lt (by omega), Nat.mod_eq_of_lt (by omega)]

theorem value_MulWordLoop (b32 : UInt32) (xs : List UInt32) {carry : UInt64} (hc : carry.toNat < 2 ^ 32) :
    value (MulWordLoop b32 carry xs) = (carry.toNat + b32.toNat * value xs) % 2 ^ (32 * xs.length) := by
  induction xs generalizing carry with
  | nil => simp [MulWordLoop, Nat.mod_one]
  | cons x xs ih =>
    have hn := toNat_mulWordSum b32 x hc
    have hnext : ((carry + b32.toUInt64 * x.toUInt64) >>> 32).toNat < 2 ^ 32 := by
      have hb := b32.toNat_lt
      have hx := x.toNat_lt
      have hprod : b32.toNat * x.toNat ≤ (2 ^ 32 - 1) * (2 ^ 32 - 1) := Nat.mul_le_mul (by omega) (by omega)
      rw [toNat_highWord, hn]
      omega
    simp only [MulWordLoop, value_cons, List.length_cons]
    rw [ih hnext, toNat_lowWord, toNat_highWord, hn, Nat.mul_succ, carry_mod_two_pow]
    congr 1
    ring

/-- The loop of `operator+=`: each limb becomes the low word of
`carry + pn[i] + b.pn[i]` and the high word is carried. -/
def AddLoop : UInt64 → List UInt32 → List UInt32 → List UInt32
  | carry, x :: xs, y :: ys =>
    let n := carry + x.toUInt64 + y.toUInt64
    (n &&& 0xffffffff).toUInt32 :: AddLoop (n >>> 32) xs ys
  | _, _, _ => []

theorem length_AddLoop (carry : UInt64) {xs ys : List UInt32} (h : xs.length = ys.length) :
    (AddLoop carry xs ys).length = xs.length := by
  induction xs generalizing carry ys with
  | nil => simp [AddLoop]
  | cons x xs ih =>
    cases ys with
    | nil => simp at h
    | cons y ys => simp [AddLoop, ih _ (by simpa using h)]

theorem value_AddLoop {xs ys : List UInt32} (h : xs.length = ys.length) {carry : UInt64}
    (hc : carry.toNat < 2 ^ 32) :
    value (AddLoop carry xs ys) = (carry.toNat + value xs + value ys) % 2 ^ (32 * xs.length) := by
  induction xs generalizing carry ys with
  | nil => simp [AddLoop, Nat.mod_one]
  | cons x xs ih =>
    cases ys with
    | nil => simp at h
    | cons y ys =>
      have hx := x.toNat_lt
      have hy := y.toNat_lt
      have hn : (carry + x.toUInt64 + y.toUInt64).toNat = carry.toNat + x.toNat + y.toNat := by
        rw [UInt64.toNat_add, UInt64.toNat_add, UInt32.toNat_toUInt64, UInt32.toNat_toUInt64,
          Nat.mod_eq_of_lt (by omega), Nat.mod_eq_of_lt (by omega)]
      have hnext : ((carry + x.toUInt64 + y.toUInt64) >>> 32).toNat < 2 ^ 32 := by
        rw [toNat_highWord, hn]
        omega
      simp only [AddLoop, value_cons, List.length_cons]
      rw [ih (by simpa using h) hnext, toNat_lowWord, toNat_highWord, hn, Nat.mul_succ, Nat.add_assoc (_ / _),
        carry_mod_two_pow]
      congr 1
      ring

/-- `operator*=(uint32_t)`. -/
def MulWord {WIDTH : Nat} (a : base_uint WIDTH) (b32 : UInt32) : base_uint WIDTH :=
  ⟨MulWordLoop b32 0 a.pn, (length_MulWordLoop b32 0 a.pn).trans a.length_pn⟩

/-- `operator+=`. -/
def Add {WIDTH : Nat} (a b : base_uint WIDTH) : base_uint WIDTH :=
  ⟨AddLoop 0 a.pn b.pn, (length_AddLoop 0 (a.length_pn.trans b.length_pn.symm)).trans a.length_pn⟩

/-- `operator~`: every limb complemented. -/
def Not {WIDTH : Nat} (a : base_uint WIDTH) : base_uint WIDTH :=
  ⟨a.pn.map (~~~ ·), (List.length_map _).trans a.length_pn⟩

/-- The loop of `operator++`: `while (i < WIDTH && ++pn[i] == 0) i++;`. -/
def IncLoop : List UInt32 → List UInt32
  | [] => []
  | x :: xs => if x + 1 = 0 then 0 :: IncLoop xs else (x + 1) :: xs

theorem length_IncLoop (xs : List UInt32) : (IncLoop xs).length = xs.length := by
  induction xs with
  | nil => rfl
  | cons x xs ih => by_cases h : x + 1 = 0 <;> simp [IncLoop, h, ih]

/-- `operator++`. -/
def Inc {WIDTH : Nat} (a : base_uint WIDTH) : base_uint WIDTH :=
  ⟨IncLoop a.pn, (length_IncLoop a.pn).trans a.length_pn⟩

/-- Unary `operator-`: the complement, plus one. -/
def Neg {WIDTH : Nat} (a : base_uint WIDTH) : base_uint WIDTH := a.Not.Inc

/-- `operator-=`: `*this += -b`. -/
def Sub {WIDTH : Nat} (a b : base_uint WIDTH) : base_uint WIDTH := a.Add b.Neg

theorem toNat_MulWord {WIDTH : Nat} (a : base_uint WIDTH) (b32 : UInt32) :
    (a.MulWord b32).toNat = a.toNat * b32.toNat % 2 ^ (32 * WIDTH) := by
  rw [toNat, MulWord, value_MulWordLoop _ _ (by decide), a.length_pn, toNat, UInt64.toNat_zero, Nat.zero_add,
    Nat.mul_comm]

theorem toNat_Add {WIDTH : Nat} (a b : base_uint WIDTH) :
    (a.Add b).toNat = (a.toNat + b.toNat) % 2 ^ (32 * WIDTH) := by
  rw [toNat, Add, value_AddLoop (a.length_pn.trans b.length_pn.symm) (by decide), a.length_pn,
    UInt64.toNat_zero, Nat.zero_add]
  rfl

theorem value_map_not (xs : List UInt32) : value (xs.map (~~~ ·)) = 2 ^ (32 * xs.length) - 1 - value xs := by
  induction xs with
  | nil => rfl
  | cons x xs ih =>
    have hx := x.toNat_lt
    have hlt := value_lt xs
    have hpow : 2 ^ (32 * (xs.length + 1)) = 2 ^ 32 * 2 ^ (32 * xs.length) := by
      rw [Nat.mul_succ, Nat.pow_add, Nat.mul_comm]
    simp only [List.map_cons, value_cons, ih, UInt32.toNat_not, List.length_cons, hpow,
      show UInt32.size = 2 ^ 32 from rfl]
    have hmul : 2 ^ 32 * (2 ^ (32 * xs.length) - 1 - value xs) =
        2 ^ 32 * 2 ^ (32 * xs.length) - 2 ^ 32 - 2 ^ 32 * value xs := by
      rw [Nat.mul_sub, Nat.mul_sub, Nat.mul_one]
    rw [hmul]
    have hle : 2 ^ 32 * (value xs + 1) ≤ 2 ^ 32 * 2 ^ (32 * xs.length) := Nat.mul_le_mul_left _ hlt
    rw [Nat.mul_succ] at hle
    omega

theorem toNat_Not {WIDTH : Nat} (a : base_uint WIDTH) : a.Not.toNat = 2 ^ (32 * WIDTH) - 1 - a.toNat := by
  rw [toNat, Not, value_map_not, a.length_pn]
  rfl

theorem value_IncLoop (xs : List UInt32) : value (IncLoop xs) = (value xs + 1) % 2 ^ (32 * xs.length) := by
  induction xs with
  | nil => simp [IncLoop]
  | cons x xs ih =>
    have hx := x.toNat_lt
    have hlt := value_lt xs
    have hpow : 2 ^ (32 * (xs.length + 1)) = 2 ^ 32 * 2 ^ (32 * xs.length) := by
      rw [Nat.mul_succ, Nat.pow_add, Nat.mul_comm]
    by_cases hwrap : x + 1 = 0
    · -- the limb wraps to zero and the increment moves on
      have hmax : x.toNat = 2 ^ 32 - 1 := by
        have h := congrArg UInt32.toNat hwrap
        rw [UInt32.toNat_add, UInt32.toNat_one, UInt32.toNat_zero] at h
        omega
      simp only [IncLoop, if_pos hwrap, value_cons, UInt32.toNat_zero, Nat.zero_add, ih, List.length_cons, hpow,
        hmax]
      rw [show 2 ^ 32 - 1 + 2 ^ 32 * value xs + 1 = 2 ^ 32 * (value xs + 1) by omega, Nat.mul_mod_mul_left]
    · have hsmall : x.toNat + 1 < 2 ^ 32 := by
        have hne : x.toNat ≠ 2 ^ 32 - 1 := fun h => hwrap (UInt32.toNat_inj.mp (by
          rw [UInt32.toNat_add, UInt32.toNat_one, h, UInt32.toNat_zero]
          decide))
        omega
      simp only [IncLoop, if_neg hwrap, value_cons, List.length_cons, hpow]
      rw [UInt32.toNat_add, UInt32.toNat_one, Nat.mod_eq_of_lt hsmall, Nat.mod_eq_of_lt]
      · omega
      · -- no carry out of this limb
        have hle : 2 ^ 32 * (value xs + 1) ≤ 2 ^ 32 * 2 ^ (32 * xs.length) := Nat.mul_le_mul_left _ hlt
        rw [Nat.mul_succ] at hle
        omega

theorem toNat_Inc {WIDTH : Nat} (a : base_uint WIDTH) : a.Inc.toNat = (a.toNat + 1) % 2 ^ (32 * WIDTH) := by
  rw [toNat, Inc, value_IncLoop, a.length_pn]
  rfl

theorem toNat_Neg {WIDTH : Nat} (a : base_uint WIDTH) : a.Neg.toNat = (2 ^ (32 * WIDTH) - a.toNat) % 2 ^ (32 * WIDTH) := by
  have hlt := a.toNat_lt
  rw [Neg, toNat_Inc, toNat_Not]
  congr 1
  omega

theorem toNat_Sub {WIDTH : Nat} (a b : base_uint WIDTH) :
    (a.Sub b).toNat = (a.toNat + (2 ^ (32 * WIDTH) - b.toNat)) % 2 ^ (32 * WIDTH) := by
  rw [Sub, toNat_Add, toNat_Neg, Nat.add_mod_mod]

theorem toNat_Sub_of_le {WIDTH : Nat} {a b : base_uint WIDTH} (h : b.toNat ≤ a.toNat) :
    (a.Sub b).toNat = a.toNat - b.toNat := by
  have hlt := a.toNat_lt
  rw [toNat_Sub, show a.toNat + (2 ^ (32 * WIDTH) - b.toNat) = a.toNat - b.toNat + 2 ^ (32 * WIDTH) by omega,
    Nat.add_mod_right, Nat.mod_eq_of_lt (by omega)]

/-! ## Words in and out -/

theorem value_replicate_zero (n : Nat) : value (List.replicate n 0) = 0 := by
  induction n with
  | zero => rfl
  | succ n ih => simp [List.replicate_succ, ih]

/-- `base_uint(uint64_t b)` and `operator=(uint64_t b)`: the low word of `b`,
its high word, and zeros. -/
def ofUInt64 (WIDTH : Nat) (b : UInt64) : base_uint WIDTH :=
  ⟨(List.range WIDTH).map fun i => if i = 0 then b.toUInt32 else if i = 1 then (b >>> 32).toUInt32 else 0,
    (List.length_map _).trans List.length_range⟩

theorem ofUInt64_pn (n : Nat) (b : UInt64) :
    (ofUInt64 (n + 2) b).pn = b.toUInt32 :: (b >>> 32).toUInt32 :: List.replicate n 0 := by
  simp only [ofUInt64, List.range_succ_eq_map, List.map_cons, List.map_map]
  congr 2
  apply List.ext_getElem (by simp)
  intro i h1 h2
  simp

theorem toNat_ofUInt64 (n : Nat) (b : UInt64) : (ofUInt64 (n + 2) b).toNat = b.toNat := by
  have hb := b.toNat_lt
  rw [toNat, ofUInt64_pn, value_cons, value_cons, value_replicate_zero, UInt64.toNat_toUInt32,
    UInt64.toNat_toUInt32, toNat_highWord]
  omega

/-- `GetLow64`: `pn[0] | (uint64_t)pn[1] << 32`. -/
def GetLow64 {WIDTH : Nat} (a : base_uint WIDTH) : UInt64 :=
  (a.pn.getD 0 0).toUInt64 ||| (a.pn.getD 1 0).toUInt64 <<< 32

theorem toNat_GetLow64 {WIDTH : Nat} (a : base_uint WIDTH) : a.GetLow64.toNat = a.toNat % 2 ^ 64 := by
  have hword : ∀ x y : UInt32, (x.toUInt64 ||| y.toUInt64 <<< 32).toNat = x.toNat + 2 ^ 32 * y.toNat := by
    intro x y
    have hx := x.toNat_lt
    have hy := y.toNat_lt
    rw [UInt64.toNat_or, UInt64.toNat_shiftLeft, UInt32.toNat_toUInt64, UInt32.toNat_toUInt64,
      show (32 : UInt64).toNat % 64 = 32 from rfl, Nat.mod_eq_of_lt (by rw [Nat.shiftLeft_eq]; omega),
      Nat.lor_comm, ← Nat.shiftLeft_add_eq_or_of_lt hx, Nat.shiftLeft_eq]
    omega
  rw [GetLow64, hword, toNat]
  rcases a with ⟨_ | ⟨x, _ | ⟨y, rest⟩⟩, _⟩
  · rfl
  · have hx := x.toNat_lt
    simp only [List.getD_cons_zero, List.getD_cons_succ, List.getD_nil, value_cons, value_nil, UInt32.toNat_zero]
    omega
  · have hx := x.toNat_lt
    have hy := y.toNat_lt
    simp only [List.getD_cons_zero, List.getD_cons_succ, value_cons]
    omega

/-! ## Comparisons -/

theorem value_take_succ (l : List UInt32) (n : Nat) :
    value (l.take (n + 1)) = value (l.take n) + 2 ^ (32 * n) * (l.getD n 0).toNat := by
  rw [List.take_add_one, value_append, List.getD_eq_getElem?_getD]
  cases h : l[n]? with
  | none => simp
  | some x =>
    have hn : n < l.length := (List.getElem?_eq_some_iff.mp h).1
    simp [List.length_take, Nat.min_eq_left (Nat.le_of_lt hn)]

theorem take_pn {WIDTH : Nat} (a : base_uint WIDTH) : a.pn.take WIDTH = a.pn :=
  List.take_of_length_le (Nat.le_of_eq a.length_pn)

theorem value_take_lt (l : List UInt32) (n : Nat) : value (l.take n) < 2 ^ (32 * n) :=
  Nat.lt_of_lt_of_le (value_lt _) (Nat.pow_le_pow_right (by norm_num) (by simp))

/-- The loop of `CompareTo`, from limb `i - 1` down: the first limb in which
the two differ decides. -/
def CompareToLoop (a b : List UInt32) : Nat → Int
  | 0 => 0
  | i + 1 => if a.getD i 0 < b.getD i 0 then -1 else if a.getD i 0 > b.getD i 0 then 1 else CompareToLoop a b i

def CompareTo {WIDTH : Nat} (a b : base_uint WIDTH) : Int := CompareToLoop a.pn b.pn WIDTH

theorem lt_of_limb_lt {A B P x y : Nat} (hA : A < P) (hxy : x < y) : A + P * x < B + P * y := by
  have h := Nat.mul_le_mul_left P (Nat.succ_le_of_lt hxy)
  rw [Nat.mul_succ] at h
  omega

theorem CompareToLoop_eq (a b : List UInt32) (n : Nat) :
    CompareToLoop a b n =
      if value (a.take n) < value (b.take n) then -1 else if value (a.take n) = value (b.take n) then 0 else 1 := by
  induction n with
  | zero => simp [CompareToLoop]
  | succ n ih =>
    have hA := value_take_lt a n
    have hB := value_take_lt b n
    rw [CompareToLoop, value_take_succ, value_take_succ]
    by_cases hlt : a.getD n 0 < b.getD n 0
    · have h := lt_of_limb_lt (B := value (b.take n)) hA (UInt32.lt_iff_toNat_lt.mp hlt)
      rw [if_pos hlt, if_pos h]
    · by_cases hgt : a.getD n 0 > b.getD n 0
      · have h := lt_of_limb_lt (B := value (a.take n)) hB (UInt32.lt_iff_toNat_lt.mp hgt)
        rw [if_neg hlt, if_pos hgt, if_neg (by omega), if_neg (by omega)]
      · -- equal limbs: the limbs below decide
        have heq : (a.getD n 0).toNat = (b.getD n 0).toNat := by
          rw [UInt32.lt_iff_toNat_lt] at hlt
          rw [gt_iff_lt, UInt32.lt_iff_toNat_lt] at hgt
          omega
        rw [if_neg hlt, if_neg hgt, ih, heq]
        by_cases h1 : value (a.take n) < value (b.take n)
        · rw [if_pos h1, if_pos (by omega)]
        · by_cases h2 : value (a.take n) = value (b.take n)
          · rw [if_neg h1, if_pos h2, if_neg (by omega), if_pos (by omega)]
          · rw [if_neg h1, if_neg h2, if_neg (by omega), if_neg (by omega)]

theorem CompareTo_eq {WIDTH : Nat} (a b : base_uint WIDTH) :
    a.CompareTo b = if a.toNat < b.toNat then -1 else if a.toNat = b.toNat then 0 else 1 := by
  rw [CompareTo, CompareToLoop_eq, take_pn, take_pn]
  rfl

theorem CompareTo_pos_iff {WIDTH : Nat} (a b : base_uint WIDTH) : a.CompareTo b > 0 ↔ b.toNat < a.toNat := by
  rw [CompareTo_eq]
  split_ifs <;> simp <;> omega

theorem CompareTo_nonneg_iff {WIDTH : Nat} (a b : base_uint WIDTH) : a.CompareTo b ≥ 0 ↔ b.toNat ≤ a.toNat := by
  rw [CompareTo_eq]
  split_ifs <;> simp <;> omega

/-- `EqualTo(uint64_t b)`: the limbs from 2 up are zero, then limb 1 and limb
0 are the high and low words of `b`. -/
def EqualTo {WIDTH : Nat} (a : base_uint WIDTH) (b : UInt64) : Bool :=
  ((List.range (WIDTH - 2)).all fun i => a.pn.getD (i + 2) 0 == 0) &&
    (a.pn.getD 1 0).toUInt64 == b >>> 32 && (a.pn.getD 0 0).toUInt64 == b &&& 0xffffffff

theorem value_eq_zero_iff (l : List UInt32) : value l = 0 ↔ ∀ x ∈ l, x = 0 := by
  induction l with
  | nil => simp
  | cons x xs ih =>
    rw [value_cons, List.forall_mem_cons, ← ih, ← UInt32.toNat_inj, UInt32.toNat_zero]
    constructor
    · intro h
      constructor <;> omega
    · rintro ⟨h1, h2⟩
      rw [h1, h2, Nat.mul_zero]

theorem all_getD_eq_zero_iff (l : List UInt32) :
    ((List.range l.length).all fun i => l.getD i 0 == 0) = true ↔ ∀ x ∈ l, x = 0 := by
  rw [List.all_eq_true]
  constructor
  · intro h x hx
    obtain ⟨i, hi, rfl⟩ := List.getElem_of_mem hx
    have := h i (List.mem_range.mpr hi)
    rw [List.getD_eq_getElem _ _ hi] at this
    simpa using this
  · intro h i hi
    rw [List.getD_eq_getElem _ _ (List.mem_range.mp hi), h _ (List.getElem_mem _)]
    rfl

theorem EqualTo_iff (n : Nat) (a : base_uint (n + 2)) (b : UInt64) : a.EqualTo b = true ↔ a.toNat = b.toNat := by
  obtain ⟨pn, hlen⟩ := a
  rcases pn with _ | ⟨x, _ | ⟨y, rest⟩⟩
  · simp at hlen
  · simp at hlen
  have hrest : rest.length = n := by simpa using hlen
  have hx := x.toNat_lt
  have hy := y.toNat_lt
  have hb := b.toNat_lt
  have hzero := all_getD_eq_zero_iff rest
  have hlow : ((x.toUInt64 == b &&& 0xffffffff) = true) ↔ x.toNat = b.toNat % 2 ^ 32 := by
    rw [beq_iff_eq, ← UInt64.toNat_inj, UInt32.toNat_toUInt64, UInt64.toNat_and,
      show (0xffffffff : UInt64).toNat = 2 ^ 32 - 1 from rfl, Nat.and_two_pow_sub_one_eq_mod]
  have hhigh : ((y.toUInt64 == b >>> 32) = true) ↔ y.toNat = b.toNat / 2 ^ 32 := by
    rw [beq_iff_eq, ← UInt64.toNat_inj, UInt32.toNat_toUInt64, toNat_highWord]
  simp only [EqualTo, toNat, value_cons, Nat.add_sub_cancel, ← hrest, List.getD_cons_succ, List.getD_cons_zero,
    Bool.and_eq_true, hzero, hlow, hhigh, ← value_eq_zero_iff]
  have hR := value_lt rest
  omega

/-! ## The highest set bit -/

theorem and_one_shiftLeft_ne_zero (x : UInt32) {n : Nat} (hn : n < 32) :
    (x &&& 1 <<< UInt32.ofNat n ≠ 0) ↔ x.toNat.testBit n = true := by
  have hval : (x &&& 1 <<< UInt32.ofNat n).toNat = (x.toNat.testBit n).toNat * 2 ^ n := by
    rw [UInt32.toNat_and, UInt32.toNat_shiftLeft, toNat_ofNat_of_lt hn, Nat.mod_eq_of_lt hn, UInt32.toNat_one,
      Nat.one_shiftLeft, Nat.mod_eq_of_lt (Nat.pow_lt_pow_right (by norm_num) hn), Nat.and_two_pow]
  rw [Ne, ← UInt32.toNat_inj, hval, UInt32.toNat_zero]
  cases x.toNat.testBit n <;> simp

/-- The inner loop of `bits()` over a nonzero limb, from bit `nbits` down to
bit 1: the number of bits up to the first set one found, or 1. -/
def bitsInLimb (x : UInt32) : Nat → Nat
  | 0 => 1
  | nbits + 1 => if x &&& 1 <<< UInt32.ofNat (nbits + 1) ≠ 0 then nbits + 2 else bitsInLimb x nbits

/-- The outer loop of `bits()`, from limb `pos - 1` down to the first nonzero
one. -/
def bitsLoop (pn : List UInt32) : Nat → Nat
  | 0 => 0
  | pos + 1 => if pn.getD pos 0 ≠ 0 then 32 * pos + bitsInLimb (pn.getD pos 0) 31 else bitsLoop pn pos

/-- `bits()`: the position of the highest set bit plus one, or zero. -/
def bits {WIDTH : Nat} (a : base_uint WIDTH) : Nat := bitsLoop a.pn WIDTH

theorem bitsInLimb_eq (x : UInt32) (n : Nat) (hn : n < 32) (hpos : 0 < x.toNat) (hlt : x.toNat < 2 ^ (n + 1)) :
    bitsInLimb x n = size x.toNat := by
  induction n with
  | zero =>
    have hone : x.toNat = 1 := by omega
    rw [bitsInLimb, hone]
    rfl
  | succ n ih =>
    rw [bitsInLimb]
    by_cases hbit : x.toNat.testBit (n + 1) = true
    · rw [if_pos ((and_one_shiftLeft_ne_zero x hn).mpr hbit)]
      exact (size_eq_of_lt_of_le (by omega) hlt (ge_two_pow_of_testBit hbit)).symm
    · -- bit `n + 1` is clear, so the limb lies below it
      have hclear : x.toNat.testBit (n + 1) = false := by simpa using hbit
      rw [if_neg (fun h => hbit ((and_one_shiftLeft_ne_zero x hn).mp h))]
      apply ih (by omega)
      have h := mod_two_pow_succ_lt hclear
      rwa [Nat.mod_eq_of_lt hlt] at h

theorem bitsLoop_eq (pn : List UInt32) (n : Nat) : bitsLoop pn n = size (value (pn.take n)) := by
  induction n with
  | zero => simp [bitsLoop]
  | succ n ih =>
    rw [bitsLoop]
    by_cases hx : pn.getD n 0 = 0
    · rw [if_neg (by simpa using hx), ih, value_take_succ, hx, UInt32.toNat_zero, Nat.mul_zero, Nat.add_zero]
    · -- the top nonzero limb and the limbs below it fix the size
      have hn : n < pn.length := by
        by_contra h
        exact hx (List.getD_eq_default _ _ (by omega))
      have hpos : 0 < (pn.getD n 0).toNat := by
        rw [Nat.pos_iff_ne_zero, Ne, ← UInt32.toNat_zero, UInt32.toNat_inj]
        exact hx
      have htake : (pn.take (n + 1)).map UInt32.toNat = (pn.take n).map UInt32.toNat ++ [(pn.getD n 0).toNat] := by
        rw [List.take_add_one, List.getElem?_eq_getElem hn, List.getD_eq_getElem _ _ hn, List.map_append]
        rfl
      rw [if_pos hx, value, htake, size_ofDigits_append (by norm_num) (limbs_lt _) hpos, List.length_map,
        List.length_take, Nat.min_eq_left (Nat.le_of_lt hn), bitsInLimb_eq _ 31 (by norm_num) hpos (UInt32.toNat_lt _)]

theorem bits_eq {WIDTH : Nat} (a : base_uint WIDTH) : a.bits = size a.toNat := by
  rw [bits, bitsLoop_eq, take_pn]
  rfl

/-! ## Division -/

/-- `pn[shift / 32] |= (1 << (shift & 31))`, as the division sets a bit of
its quotient. -/
def SetBit {WIDTH : Nat} (a : base_uint WIDTH) (shift : Nat) : base_uint WIDTH :=
  ⟨a.pn.modify (shift / 32) (· ||| 1 <<< UInt32.ofNat (shift &&& 31)), (List.length_modify ..).trans a.length_pn⟩

theorem toNat_SetBit {WIDTH : Nat} (a : base_uint WIDTH) {shift : Nat} (hshift : shift < 32 * WIDTH)
    (hclear : a.toNat.testBit shift = false) : (a.SetBit shift).toNat = a.toNat + 2 ^ shift := by
  rw [← or_two_pow_eq_add hclear]
  apply Nat.eq_of_testBit_eq
  intro b
  have hmask : shift &&& 31 = shift % 32 := Nat.and_two_pow_sub_one_eq_mod shift 5
  rw [toNat, testBit_value, SetBit, getD_modify, a.length_pn, testBit_or, testBit_two_pow, toNat, testBit_value]
  by_cases hlimb : shift / 32 = b / 32 ∧ b / 32 < WIDTH
  · -- the limb that holds bit `shift`
    have hbit : (1 <<< UInt32.ofNat (shift &&& 31) : UInt32).toNat = 2 ^ (shift % 32) := by
      rw [UInt32.toNat_shiftLeft, hmask, toNat_ofNat_of_lt (Nat.mod_lt _ (by norm_num)), Nat.mod_mod,
        UInt32.toNat_one, Nat.one_shiftLeft, Nat.mod_eq_of_lt (Nat.pow_lt_pow_right (by norm_num)
        (Nat.mod_lt _ (by norm_num)))]
    rw [if_pos hlimb, UInt32.toNat_or, testBit_or, hbit, testBit_two_pow]
    congr 1
    simp only [decide_eq_decide]
    omega
  · rw [if_neg hlimb]
    have hne : shift ≠ b := by
      intro h
      exact hlimb ⟨by rw [h], by omega⟩
    simp [hne]

/-- The loop of `operator/=`, run for `shift = n - 1` down to `0`: where the
shifted divisor fits, it is subtracted and bit `shift` of the quotient set;
then the divisor moves one place down. -/
def DivLoop {WIDTH : Nat} : Nat → base_uint WIDTH → base_uint WIDTH → base_uint WIDTH → base_uint WIDTH
  | 0, _, _, quot => quot
  | shift + 1, num, div, quot =>
    if num.CompareTo div ≥ 0 then DivLoop shift (num.Sub div) (div.ShiftRight 1) (quot.SetBit shift)
    else DivLoop shift num (div.ShiftRight 1) quot

/-- `operator/=`: `uint_error("Division by zero")` for a zero divisor; a
quotient of zero when the divisor has more bits; otherwise the divisor is
aligned with the dividend and `DivLoop` runs once for every bit of the
difference and once more. -/
def Div {WIDTH : Nat} (a b : base_uint WIDTH) : Except String (base_uint WIDTH) :=
  let num_bits := a.bits
  let div_bits := b.bits
  if div_bits = 0 then .error "Division by zero"
  else if div_bits > num_bits then .ok (ofUInt64 WIDTH 0)
  else
    let shift := num_bits - div_bits
    .ok (DivLoop (shift + 1) a (b.ShiftLeft shift) (ofUInt64 WIDTH 0))

/-- What `DivLoop` keeps, with `n` iterations to go, for the division of `N` by
`D`: the divisor is `D` shifted by `n - 1`, the quotient so far has no bit
below `n`, and what is left of the dividend is below the divisor shifted by
`n`. -/
structure DivInv {WIDTH : Nat} (N D n : Nat) (num div quot : base_uint WIDTH) : Prop where
  div_eq : 0 < n → div.toNat = D * 2 ^ (n - 1)
  split : N = num.toNat + D * quot.toNat
  num_lt : num.toNat < D * 2 ^ n
  quot_low : quot.toNat % 2 ^ n = 0

theorem DivLoop_eq {WIDTH : Nat} {N D : Nat} (n : Nat) (hn : n ≤ 32 * WIDTH) {num div quot : base_uint WIDTH}
    (hinv : DivInv N D n num div quot) : (DivLoop n num div quot).toNat = N / D := by
  induction n generalizing num div quot with
  | zero =>
    rw [DivLoop, hinv.split]
    have hlt := hinv.num_lt
    rw [Nat.pow_zero, Nat.mul_one] at hlt
    rw [Nat.add_mul_div_left _ _ (by omega), Nat.div_eq_of_lt hlt, Nat.zero_add]
  | succ n ih =>
    have hdiv := hinv.div_eq (Nat.succ_pos n)
    rw [Nat.add_sub_cancel] at hdiv
    have hnext : (div.ShiftRight 1).toNat = D * 2 ^ (n - 1) ∨ n = 0 := by
      rcases Nat.eq_zero_or_pos n with h | h
      · exact .inr h
      · left
        obtain ⟨m, rfl⟩ := Nat.exists_eq_add_one_of_ne_zero (Nat.pos_iff_ne_zero.mp h)
        rw [toNat_ShiftRight, hdiv, Nat.add_sub_cancel, Nat.pow_succ, ← Nat.mul_assoc, Nat.pow_one,
          Nat.mul_div_cancel _ (by norm_num)]
    have hlow : quot.toNat % 2 ^ n = 0 :=
      Nat.mod_eq_zero_of_dvd (Nat.dvd_trans (Nat.pow_dvd_pow 2 (Nat.le_succ n)) (Nat.dvd_of_mod_eq_zero hinv.quot_low))
    have hdivnext : 0 < n → (div.ShiftRight 1).toNat = D * 2 ^ (n - 1) := fun h => hnext.resolve_right (by omega)
    have hnum := hinv.num_lt
    rw [Nat.pow_succ, ← Nat.mul_assoc] at hnum
    rw [DivLoop]
    by_cases hge : num.CompareTo div ≥ 0
    · -- the shifted divisor fits: subtract it and set bit `n` of the quotient
      rw [if_pos hge]
      rw [CompareTo_nonneg_iff, hdiv] at hge
      have hclear : quot.toNat.testBit n = false := by
        have h := congrArg (fun x => x.testBit n) hinv.quot_low
        simpa only [Nat.testBit_mod_two_pow, Nat.zero_testBit, Nat.lt_succ_self, decide_true, Bool.true_and]
          using h
      apply ih (by omega)
      refine ⟨hdivnext, ?_, ?_, ?_⟩
      · rw [toNat_Sub_of_le (by rw [hdiv]; exact hge), toNat_SetBit _ (by omega) hclear, hinv.split, hdiv]
        rw [Nat.mul_add]
        omega
      · rw [toNat_Sub_of_le (by rw [hdiv]; exact hge), hdiv]
        omega
      · rw [toNat_SetBit _ (by omega) hclear, Nat.add_mod_right, hlow]
    · rw [if_neg hge]
      rw [CompareTo_nonneg_iff, hdiv] at hge
      exact ih (by omega) ⟨hdivnext, hinv.split, by omega, hlow⟩

theorem toNat_ofUInt64_zero (WIDTH : Nat) : (ofUInt64 WIDTH 0).toNat = 0 := by
  rw [toNat, value_eq_zero_iff]
  intro x hx
  obtain ⟨i, -, rfl⟩ := List.mem_map.mp hx
  split_ifs <;> rfl

/-- `operator/=` by a nonzero divisor returns the quotient rounded down. -/
theorem toNat_Div {WIDTH : Nat} (a b : base_uint WIDTH) (hb : 0 < b.toNat) :
    ∃ q, a.Div b = .ok q ∧ q.toNat = a.toNat / b.toNat := by
  have hsizeb : 0 < size b.toNat := size_pos.mpr hb
  have hDge : 2 ^ (size b.toNat - 1) ≤ b.toNat := lt_size.mp (by omega)
  have hNlt : a.toNat < 2 ^ size a.toNat := lt_size_self _
  have hsizea : size a.toNat ≤ 32 * WIDTH := size_le.mpr a.toNat_lt
  rw [Div, bits_eq, bits_eq, if_neg (by omega)]
  by_cases hgt : size b.toNat > size a.toNat
  · -- the divisor has more bits than the dividend
    rw [if_pos hgt]
    refine ⟨_, rfl, ?_⟩
    have hlt : a.toNat < b.toNat :=
      Nat.lt_of_lt_of_le hNlt (Nat.le_trans (Nat.pow_le_pow_right (by norm_num) (by omega)) hDge)
    rw [toNat_ofUInt64_zero, Nat.div_eq_of_lt hlt]
  · rw [if_neg hgt]
    refine ⟨_, rfl, DivLoop_eq _ (by omega) ⟨fun _ => ?_, ?_, ?_, ?_⟩⟩
    · -- the aligned divisor does not pass the top limb
      rw [Nat.add_sub_cancel, toNat_ShiftLeft, Nat.mod_eq_of_lt]
      calc b.toNat * 2 ^ (size a.toNat - size b.toNat)
          < 2 ^ size b.toNat * 2 ^ (size a.toNat - size b.toNat) :=
            Nat.mul_lt_mul_of_pos_right (lt_size_self _) (Nat.two_pow_pos _)
        _ = 2 ^ size a.toNat := by rw [← Nat.pow_add]; congr 1; omega
        _ ≤ 2 ^ (32 * WIDTH) := Nat.pow_le_pow_right (by norm_num) hsizea
    · rw [toNat_ofUInt64_zero, Nat.mul_zero, Nat.add_zero]
    · calc a.toNat < 2 ^ size a.toNat := hNlt
        _ = 2 ^ (size b.toNat - 1) * 2 ^ (size a.toNat - size b.toNat + 1) := by
          rw [← Nat.pow_add]; congr 1; omega
        _ ≤ b.toNat * 2 ^ (size a.toNat - size b.toNat + 1) := Nat.mul_le_mul_right _ hDge
    · rw [toNat_ofUInt64_zero, Nat.zero_mod]

end base_uint

/-! ## From a `uint256` -/

open Codec

/-- `ReadLE32` of `crypto/common.h`: the little-endian word of the first four
bytes. -/
def ReadLE32 (ptr : List UInt8) : UInt32 := UInt32.ofNat (decodeLE (ptr.take 4))

/-- `UintToArith256`: limb `x` is `ReadLE32` of bytes `4 * x` to `4 * x + 3`. -/
def UintToArith256 (a : Uint256) : arith_uint256 :=
  ⟨(List.range 8).map fun x => ReadLE32 (a.data.drop (x * 4)), (List.length_map _).trans List.length_range⟩

theorem toNat_ReadLE32 (ptr : List UInt8) : (ReadLE32 ptr).toNat = decodeLE (ptr.take 4) := by
  have hlt := decodeLE_lt (ptr.take 4)
  have hlen : (ptr.take 4).length ≤ 4 := by simp
  have hle : 256 ^ (ptr.take 4).length ≤ 2 ^ 32 :=
    Nat.le_trans (Nat.pow_le_pow_right (by norm_num) hlen) (by norm_num)
  rw [ReadLE32, UInt32.toNat_ofNat', Nat.mod_eq_of_lt (by omega)]

theorem value_ReadLE32_words (n : Nat) (bytes : List UInt8) (hlen : bytes.length = 4 * n) :
    base_uint.value ((List.range n).map fun x => ReadLE32 (bytes.drop (x * 4))) = decodeLE bytes := by
  induction n generalizing bytes with
  | zero =>
    rw [List.eq_nil_of_length_eq_zero hlen]
    rfl
  | succ n ih =>
    have hrest : (bytes.drop 4).length = 4 * n := by rw [List.length_drop]; omega
    have hdrop : ∀ x, bytes.drop ((x + 1) * 4) = (bytes.drop 4).drop (x * 4) := fun x => by
      rw [List.drop_drop]
      congr 1
      ring
    have hsplit := decodeLE_append (bytes.take 4) (bytes.drop 4)
    rw [List.take_append_drop, List.length_take, Nat.min_eq_left (by omega)] at hsplit
    rw [List.range_succ_eq_map, List.map_cons, List.map_map, base_uint.value_cons, Nat.zero_mul, List.drop_zero,
      toNat_ReadLE32, hsplit]
    simp only [Function.comp_def, Nat.succ_eq_add_one, hdrop]
    rw [ih _ hrest]
    rfl

theorem toNat_UintToArith256 (a : Uint256) : (UintToArith256 a).toNat = decodeLE a.data :=
  value_ReadLE32_words 8 a.data a.length_data

end Elements
