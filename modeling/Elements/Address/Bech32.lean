import Elements.Codec.XorChecksum
import Elements.Data.ExceptFold

/-!
# Bech32 and blech32

bech32.cpp and blech32.cpp write a human-readable part and a string of 5-bit
values as `hrp ++ "1" ++ symbols`, the symbols ending in a checksum: the
remainder of a polynomial over GF(32), computed by `PolyMod`, that brings the
remainder of the whole string to one of two constants, one per encoding.
blech32, the format of Elements' confidential addresses, is bech32 with a
checksum of 12 symbols instead of 6, another generator, other constants and a
limit of 1000 characters instead of 90.  The two files are one code here,
`Base32Code`, whose record holds the values in which they differ and the facts
about those values the round trip needs; each file keeps its functions under
its own names.

`PolyMod` folds a step that is linear for xor and a plain shift on small
values, so the checksum theorem of `Codec.XorChecksum` applies
(`Base32Code.PolyMod_checksum`).  From it, `Decode` of `Encode` returns the
encoding, the HRP and the values, for an HRP of printable characters with no
upper case and a string within the length limit (`Base32Code.Decode_Encode`).
Conversely a string `Decode` accepts is `Encode` of what it returns, in lower
case (`Base32Code.Encode_Decode`): the checksum of `checksum_size` symbols is
unique (`Base32Code.eq_CreateChecksum`).
-/

namespace Elements

open Codec Codec.XorChecksum

/-- `CHARSET`: the symbol of each 5-bit value. -/
def CHARSET : List Char := "qpzry9x8gf2tvdw0s3jn54khce6mua7l".toList

/-- `CHARSET_REV`: the value of each ASCII character, `-1` if it is no symbol. -/
def CHARSET_REV : List Int :=
  [-1, -1, -1, -1, -1, -1, -1, -1, -1, -1, -1, -1, -1, -1, -1, -1,
   -1, -1, -1, -1, -1, -1, -1, -1, -1, -1, -1, -1, -1, -1, -1, -1,
   -1, -1, -1, -1, -1, -1, -1, -1, -1, -1, -1, -1, -1, -1, -1, -1,
   15, -1, 10, 17, 21, 20, 26, 30,  7,  5, -1, -1, -1, -1, -1, -1,
   -1, 29, -1, 24, 13, 25,  9,  8, 23, -1, 18, 22, 31, 27, 19, -1,
    1,  0,  3, 16, 11, 28, 12, 14,  6,  4,  2, -1, -1, -1, -1, -1,
   -1, 29, -1, 24, 13, 25,  9,  8, 23, -1, 18, 22, 31, 27, 19, -1,
    1,  0,  3, 16, 11, 28, 12, 14,  6,  4,  2, -1, -1, -1, -1, -1]

def LowerCase (c : Char) : Char :=
  if 'A' ≤ c ∧ c ≤ 'Z' then Char.ofNat (c.toNat - 'A'.toNat + 'a'.toNat) else c

/-- `ExpandHRP`: the high bits of each character, a zero, then the low bits. -/
def ExpandHRP (hrp : List Char) : List Nat :=
  hrp.map (fun c => c.toNat >>> 5) ++ [0] ++ hrp.map (fun c => c.toNat &&& 0x1f)

/-- `std::string::rfind`: the position of the last occurrence of `c`. -/
def rfind (str : List Char) (c : Char) : Option Nat :=
  (str.reverse.findIdx? (· == c)).map (fun k => str.length - 1 - k)

/-- One turn of the first loop of `Decode`: note a lower or an upper case
letter, or fail at a character outside `33..126` that is no letter. -/
def CaseScanStep (case : Bool × Bool) (c : Char) : Option (Bool × Bool) :=
  if 'a' ≤ c ∧ c ≤ 'z' then some (true, case.2)
  else if 'A' ≤ c ∧ c ≤ 'Z' then some (case.1, true)
  else if c.toNat < 33 ∨ c.toNat > 126 then none
  else some case

/-- The first loop of `Decode`: whether a lower and an upper case letter occur. -/
def CaseScan (str : List Char) : Option (Bool × Bool) :=
  str.foldlM CaseScanStep (false, false)

/-- The value of a symbol, `none` where `CHARSET_REV` has `-1`. -/
def SymbolValue (c : Char) : Option Nat :=
  let rev := CHARSET_REV.getD c.toNat (-1)
  if rev = -1 then none else some rev.toNat

/-- `DecodeResult`: the encoding found, `INVALID` on failure, the HRP and the
values without the checksum. -/
structure DecodeResult (Encoding : Type) where
  encoding : Encoding
  hrp : List Char
  data : List Nat
deriving DecidableEq, Repr

/-- The values in which blech32 differs from bech32, with the facts about them
that make the checksum work: the top of the accumulator is the one symbol
above `top_shift`, the generator and the constants fit the checksum, and the
two encodings have different constants. -/
structure Base32Code (Encoding : Type) where
  /-- The shift of `uint8_t c0 = c >> 25`. -/
  top_shift : Nat
  /-- The mask of `c = ((c & 0x1ffffff) << 5) ^ v_i`. -/
  low_mask : Nat
  /-- The values `PolyMod` adds for the bits of `c0`, lowest bit first. -/
  generator : List Nat
  checksum_size : Nat
  /-- The longest string `Decode` accepts. -/
  max_size : Nat
  EncodingConstant : Encoding -> Nat
  INVALID : Encoding
  plain : Encoding
  modified : Encoding
  top_shift_add : top_shift + 5 = 5 * checksum_size
  low_mask_eq : low_mask = 2 ^ top_shift - 1
  generator_lt : ∀ k ∈ generator, k < 2 ^ (5 * checksum_size)
  plain_lt : EncodingConstant plain < 2 ^ (5 * checksum_size)
  modified_lt : EncodingConstant modified < 2 ^ (5 * checksum_size)
  constants_ne : EncodingConstant plain ≠ EncodingConstant modified
  plain_ne : plain ≠ INVALID
  modified_ne : modified ≠ INVALID

namespace Base32Code

variable {Encoding : Type} [DecidableEq Encoding] (code : Base32Code Encoding)

/-- `if (c0 & 2^n) c ^= k;` for the `n`-th value `k` of the generator. -/
def AddGenerator (c0 c : Nat) (gen : Nat × Nat) : Nat :=
  if c0 &&& 2 ^ gen.2 ≠ 0 then c ^^^ gen.1 else c

def PolyModStep (c v_i : Nat) : Nat :=
  let c0 := (c >>> code.top_shift) % 256
  let c := ((c &&& code.low_mask) <<< 5) ^^^ v_i
  code.generator.zipIdx.foldl (AddGenerator c0) c

def PolyMod (v : List Nat) : Nat := v.foldl code.PolyModStep 1

def VerifyChecksum (hrp : List Char) (values : List Nat) : Encoding :=
  let check := code.PolyMod (ExpandHRP hrp ++ values)
  if check = code.EncodingConstant code.plain then code.plain
  else if check = code.EncodingConstant code.modified then code.modified
  else code.INVALID

def CreateChecksum (encoding : Encoding) (hrp : List Char) (values : List Nat) : List Nat :=
  let enc := ExpandHRP hrp ++ values ++ List.replicate code.checksum_size 0
  let mod := code.PolyMod enc ^^^ code.EncodingConstant encoding
  (List.range code.checksum_size).map
    (fun i => (mod >>> (5 * (code.checksum_size - 1 - i))) &&& 31)

/-- `Encode`.  The assertion that `hrp` has no upper case letter is left to
the callers: the round trip assumes it. -/
def Encode (encoding : Encoding) (hrp : List Char) (values : List Nat) : List Char :=
  let checksum := code.CreateChecksum encoding hrp values
  let combined := values ++ checksum
  hrp ++ ['1'] ++ combined.map (fun c => CHARSET.getD c ' ')

def Decode (str : List Char) : DecodeResult Encoding :=
  let failed : DecodeResult Encoding := ⟨code.INVALID, [], []⟩
  match CaseScan str with
  | none => failed
  | some (lower, upper) =>
    if lower && upper then failed
    else
      match rfind str '1' with
      | none => failed
      | some pos =>
        if str.length > code.max_size ∨ pos = 0 ∨ pos + code.checksum_size + 1 > str.length then
          failed
        else
          match (str.drop (pos + 1)).mapM SymbolValue with
          | none => failed
          | some values =>
            let hrp := (str.take pos).map LowerCase
            let result := code.VerifyChecksum hrp values
            if result = code.INVALID then failed
            else ⟨result, hrp, values.take (values.length - code.checksum_size)⟩

end Base32Code

namespace bech32

inductive Encoding
  | INVALID
  | BECH32
  | BECH32M
deriving DecidableEq, Repr

def EncodingConstant (encoding : Encoding) : Nat :=
  if encoding = .BECH32 then 1 else 0x2bc830a3

def code : Base32Code Encoding where
  top_shift := 25
  low_mask := 0x1ffffff
  generator := [0x3b6a57b2, 0x26508e6d, 0x1ea119fa, 0x3d4233dd, 0x2a1462b3]
  checksum_size := 6
  max_size := 90
  EncodingConstant := EncodingConstant
  INVALID := .INVALID
  plain := .BECH32
  modified := .BECH32M
  top_shift_add := by decide
  low_mask_eq := by decide
  generator_lt := by decide
  plain_lt := by decide
  modified_lt := by decide
  constants_ne := by decide
  plain_ne := by decide
  modified_ne := by decide

def PolyMod (v : List Nat) : Nat := code.PolyMod v

def VerifyChecksum (hrp : List Char) (values : List Nat) : Encoding :=
  code.VerifyChecksum hrp values

def CreateChecksum (encoding : Encoding) (hrp : List Char) (values : List Nat) : List Nat :=
  code.CreateChecksum encoding hrp values

def Encode (encoding : Encoding) (hrp : List Char) (values : List Nat) : List Char :=
  code.Encode encoding hrp values

def Decode (str : List Char) : DecodeResult Encoding := code.Decode str

end bech32

namespace blech32

inductive Encoding
  | INVALID
  | BLECH32
  | BLECH32M
deriving DecidableEq, Repr

def EncodingConstant (encoding : Encoding) : Nat :=
  if encoding = .BLECH32 then 1 else 0x455972a3350f7a1

def code : Base32Code Encoding where
  top_shift := 55
  low_mask := 0x7fffffffffffff
  generator := [0x7d52fba40bd886, 0x5e8dbf1a03950c, 0x1c3a3c74072a18, 0x385d72fa0e5139,
    0x7093e5a608865b]
  checksum_size := 12
  max_size := 1000
  EncodingConstant := EncodingConstant
  INVALID := .INVALID
  plain := .BLECH32
  modified := .BLECH32M
  top_shift_add := by decide
  low_mask_eq := by decide
  generator_lt := by decide
  plain_lt := by decide
  modified_lt := by decide
  constants_ne := by decide
  plain_ne := by decide
  modified_ne := by decide

def PolyMod (v : List Nat) : Nat := code.PolyMod v

def VerifyChecksum (hrp : List Char) (values : List Nat) : Encoding :=
  code.VerifyChecksum hrp values

def CreateChecksum (encoding : Encoding) (hrp : List Char) (values : List Nat) : List Nat :=
  code.CreateChecksum encoding hrp values

def Encode (encoding : Encoding) (hrp : List Char) (values : List Nat) : List Char :=
  code.Encode encoding hrp values

def Decode (str : List Char) : DecodeResult Encoding := code.Decode str

end blech32

/-!
## `PolyMod` is an xor-linear checksum
-/

namespace Base32Code

variable {Encoding : Type} (code : Base32Code Encoding)

theorem AddGenerator_eq (c0 c : Nat) (gen : Nat × Nat) :
    AddGenerator c0 c gen = c ^^^ (if c0.testBit gen.2 then gen.1 else 0) := by
  have hbit : c0 &&& 2 ^ gen.2 ≠ 0 ↔ c0.testBit gen.2 = true := by
    rw [Nat.and_two_pow]
    cases c0.testBit gen.2 <;> simp
  by_cases h : c0.testBit gen.2 = true
  · simp [AddGenerator, hbit.mpr h, h]
  · simp [AddGenerator, mt hbit.mp h, h]

theorem foldl_AddGenerator_xor (c0 : Nat) (gens : List (Nat × Nat)) (a b : Nat) :
    gens.foldl (AddGenerator c0) (a ^^^ b) = a ^^^ gens.foldl (AddGenerator c0) b := by
  induction gens generalizing b with
  | nil => rfl
  | cons gen gens ih => rw [List.foldl_cons, List.foldl_cons, AddGenerator_eq, AddGenerator_eq,
      Nat.xor_assoc, ih]

theorem foldl_AddGenerator_linear (x y : Nat) (gens : List (Nat × Nat)) (a b : Nat) :
    gens.foldl (AddGenerator (x ^^^ y)) (a ^^^ b) =
      gens.foldl (AddGenerator x) a ^^^ gens.foldl (AddGenerator y) b := by
  induction gens generalizing a b with
  | nil => rfl
  | cons gen gens ih =>
    have hselect : (a ^^^ b) ^^^ (if (x ^^^ y).testBit gen.2 then gen.1 else 0) =
        (a ^^^ (if x.testBit gen.2 then gen.1 else 0)) ^^^
          (b ^^^ (if y.testBit gen.2 then gen.1 else 0)) := by
      rw [Nat.testBit_xor]
      cases x.testBit gen.2 <;> cases y.testBit gen.2 <;>
        simp only [Bool.xor_false, Bool.xor_true, Bool.not_true, Bool.not_false, if_true,
          Bool.false_eq_true, if_false, Nat.xor_zero, Nat.xor_left_comm, Nat.xor_comm,
          Nat.xor_self]
    rw [List.foldl_cons, List.foldl_cons, List.foldl_cons, AddGenerator_eq, AddGenerator_eq,
      AddGenerator_eq, hselect, ih]

theorem foldl_AddGenerator_zero (gens : List (Nat × Nat)) (c : Nat) :
    gens.foldl (AddGenerator 0) c = c := by
  induction gens generalizing c with
  | nil => rfl
  | cons gen gens ih => rw [List.foldl_cons, AddGenerator_eq, Nat.zero_testBit]; simpa using ih c

theorem foldl_AddGenerator_lt {k : Nat} (c0 : Nat) (gens : List (Nat × Nat))
    (hgens : ∀ gen ∈ gens, gen.1 < 2 ^ k) (c : Nat) (hc : c < 2 ^ k) :
    gens.foldl (AddGenerator c0) c < 2 ^ k := by
  induction gens generalizing c with
  | nil => exact hc
  | cons gen gens ih =>
    rw [List.foldl_cons, AddGenerator_eq]
    refine ih (fun g hg => hgens g (by simp [hg])) _ (Nat.xor_lt_two_pow hc ?_)
    split
    · exact hgens gen (by simp)
    · exact Nat.two_pow_pos k

/-- `PolyMod`'s step on a zero symbol: multiply by `x` modulo the generator. -/
def Shift (c : Nat) : Nat := code.PolyModStep c 0

theorem PolyModStep_eq_step : code.PolyModStep = step code.Shift := by
  funext c v
  simp only [Shift, PolyModStep, step, Nat.xor_zero]
  rw [Nat.xor_comm _ v, foldl_AddGenerator_xor, Nat.xor_comm]

theorem Shift_xorLinear : XorLinear code.Shift := by
  intro a b
  simp only [Shift, PolyModStep, Nat.xor_zero]
  have htop : (a ^^^ b) >>> code.top_shift % 256 =
      (a >>> code.top_shift % 256) ^^^ (b >>> code.top_shift % 256) := by
    rw [Nat.shiftRight_xor_distrib, show (256 : Nat) = 2 ^ 8 by norm_num, Nat.xor_mod_two_pow]
  rw [htop, Nat.and_xor_distrib_right, Nat.shiftLeft_xor_distrib, foldl_AddGenerator_linear]

theorem Shift_shiftsBelow : ShiftsBelow code.Shift 5 code.top_shift := by
  intro c hc
  have htop : c >>> code.top_shift % 256 = 0 := by
    rw [Nat.shiftRight_eq_div_pow, Nat.div_eq_of_lt hc, Nat.zero_mod]
  simp only [Shift, PolyModStep, Nat.xor_zero, htop, foldl_AddGenerator_zero, code.low_mask_eq,
    Nat.and_two_pow_sub_one_of_lt_two_pow hc]

theorem Shift_lt (c : Nat) : code.Shift c < 2 ^ (5 * code.checksum_size) := by
  simp only [Shift, PolyModStep, Nat.xor_zero]
  apply foldl_AddGenerator_lt
  · intro gen hgen
    exact code.generator_lt gen.1 (List.fst_mem_of_mem_zipIdx hgen)
  · rw [code.low_mask_eq, Nat.and_two_pow_sub_one_eq_mod, Nat.shiftLeft_eq, ← code.top_shift_add,
      Nat.pow_add]
    exact Nat.mul_lt_mul_of_pos_right (Nat.mod_lt _ (Nat.two_pow_pos _)) (by norm_num)

theorem iterate_Shift_lt (n c : Nat) (hc : c < 2 ^ (5 * code.checksum_size)) :
    code.Shift^[n] c < 2 ^ (5 * code.checksum_size) := by
  induction n with
  | zero => exact hc
  | succ n ih => rw [Function.iterate_succ_apply']; exact code.Shift_lt _

theorem PolyMod_eq (v : List Nat) : code.PolyMod v = v.foldl (step code.Shift) 1 := by
  rw [PolyMod, PolyModStep_eq_step]

theorem PolyMod_lt (v : List Nat) (hv : ∀ x ∈ v, x < 32) :
    code.PolyMod v < 2 ^ (5 * code.checksum_size) := by
  have hsize : 32 ≤ 2 ^ (5 * code.checksum_size) := by
    rw [show (32 : Nat) = 2 ^ 5 by norm_num]
    exact Nat.pow_le_pow_right (by norm_num) (by have := code.top_shift_add; omega)
  rw [PolyMod_eq]
  exact foldl_step_lt (fun c _ => code.Shift_lt c) v (fun x hx => Nat.lt_of_lt_of_le (hv x hx) hsize) 1
    (Nat.lt_of_lt_of_le (by norm_num) hsize)

theorem CreateChecksum_eq (encoding : Encoding) (hrp : List Char) (values : List Nat) :
    code.CreateChecksum encoding hrp values =
      digitsBE 5 code.checksum_size
        (code.Shift^[code.checksum_size] (code.PolyMod (ExpandHRP hrp ++ values)) ^^^
          code.EncodingConstant encoding) := by
  rw [CreateChecksum, digitsBE]
  simp only [PolyMod_eq, List.foldl_append, foldl_step_replicate_zero]
  rfl

/-- The checksum brings `PolyMod` of the expanded HRP, the values and the
checksum to the constant of the encoding. -/
theorem PolyMod_checksum (encoding : Encoding)
    (henc : encoding = code.plain ∨ encoding = code.modified) (hrp : List Char)
    (values : List Nat) (hvalues : ∀ v ∈ ExpandHRP hrp ++ values, v < 32) :
    code.PolyMod (ExpandHRP hrp ++ values ++ code.CreateChecksum encoding hrp values) =
      code.EncodingConstant encoding := by
  obtain ⟨n, hn⟩ : ∃ n, code.checksum_size = n + 1 :=
    ⟨code.checksum_size - 1, by have := code.top_shift_add; omega⟩
  have hshift : code.top_shift = 5 * n := by have := code.top_shift_add; omega
  have hconst : code.EncodingConstant encoding < 2 ^ (5 * code.checksum_size) := by
    rcases henc with rfl | rfl
    · exact code.plain_lt
    · exact code.modified_lt
  have hs := code.Shift_shiftsBelow
  rw [hshift] at hs
  have hiter := code.iterate_Shift_lt code.checksum_size _ (code.PolyMod_lt _ hvalues)
  rw [CreateChecksum_eq, PolyMod_eq, List.foldl_append, ← PolyMod_eq]
  rw [hn] at hiter hconst ⊢
  exact foldl_step_checksum code.Shift_xorLinear hs _ _ (Nat.xor_lt_two_pow hiter hconst)

/-- The checksum is the only string of `checksum_size` symbols that brings
`PolyMod` to the constant of the encoding. -/
theorem eq_CreateChecksum (encoding : Encoding) (hrp : List Char) (values checksum : List Nat)
    (hlen : checksum.length = code.checksum_size) (hchecksum : ∀ v ∈ checksum, v < 32)
    (hpoly : code.PolyMod (ExpandHRP hrp ++ values ++ checksum) = code.EncodingConstant encoding) :
    checksum = code.CreateChecksum encoding hrp values := by
  obtain ⟨n, hn⟩ : ∃ n, code.checksum_size = n + 1 :=
    ⟨code.checksum_size - 1, by have := code.top_shift_add; omega⟩
  have hshift : code.top_shift = 5 * n := by have := code.top_shift_add; omega
  have hs := code.Shift_shiftsBelow
  rw [hshift] at hs
  rw [PolyMod_eq, List.foldl_append, ← PolyMod_eq] at hpoly
  rw [CreateChecksum_eq, hn]
  exact eq_digitsBE_of_foldl_step (by decide) code.Shift_xorLinear hs checksum (hlen.trans hn)
    hchecksum _ _ hpoly

theorem PolyMod_of_VerifyChecksum (hrp : List Char) (values : List Nat)
    (h : code.VerifyChecksum hrp values ≠ code.INVALID) :
    code.PolyMod (ExpandHRP hrp ++ values) =
      code.EncodingConstant (code.VerifyChecksum hrp values) := by
  simp only [VerifyChecksum] at h ⊢
  split_ifs at h ⊢ with hplain hmodified
  · exact hplain
  · exact hmodified
  · exact absurd rfl h

end Base32Code

/-!
## Reading the string back
-/

/-- A character an HRP may hold for the round trip: printable ASCII that is no
upper case letter. -/
def HrpChar (c : Char) : Prop := 33 ≤ c.toNat ∧ c.toNat ≤ 126 ∧ ¬('A' ≤ c ∧ c ≤ 'Z')

instance : DecidablePred HrpChar := fun _ => inferInstanceAs (Decidable (_ ∧ _ ∧ _))

theorem hrpChar_of_all (str : List Char) (h : str.all (fun c => decide (HrpChar c)) = true) :
    ∀ c ∈ str, HrpChar c :=
  fun c hc => of_decide_eq_true (List.all_eq_true.mp h c hc)

theorem CHARSET_hrpChar : ∀ c ∈ CHARSET, HrpChar c := hrpChar_of_all CHARSET (by decide)

theorem one_not_mem_CHARSET : '1' ∉ CHARSET := by decide

theorem getD_CHARSET_mem (v : Nat) (hv : v < 32) : CHARSET.getD v ' ' ∈ CHARSET := by
  have hall : ∀ i : Fin 32, CHARSET.getD i ' ' ∈ CHARSET := by decide
  exact hall ⟨v, hv⟩

theorem SymbolValue_CHARSET (v : Nat) (hv : v < 32) : SymbolValue (CHARSET.getD v ' ') = some v := by
  have hall : ∀ i : Fin 32, SymbolValue (CHARSET.getD i ' ') = some i := by decide
  exact hall ⟨v, hv⟩

theorem mapM_SymbolValue (values : List Nat) (hvalues : ∀ v ∈ values, v < 32) :
    (values.map (fun c => CHARSET.getD c ' ')).mapM SymbolValue = some values := by
  induction values with
  | nil => rfl
  | cons v values ih =>
    rw [List.map_cons, List.mapM_cons, SymbolValue_CHARSET v (hvalues v (by simp)),
      ih (fun x hx => hvalues x (by simp [hx]))]
    rfl

theorem LowerCase_of_hrpChar (c : Char) (h : HrpChar c) : LowerCase c = c := by
  simp [LowerCase, h.2.2]

theorem foldlM_CaseScanStep (str : List Char) (h : ∀ c ∈ str, HrpChar c) (lower : Bool) :
    ∃ lower', str.foldlM CaseScanStep (lower, false) = some (lower', false) := by
  induction str generalizing lower with
  | nil => exact ⟨lower, rfl⟩
  | cons c str ih =>
    have hc := h c (by simp)
    have hstep : ∃ l, CaseScanStep (lower, false) c = some (l, false) := by
      by_cases hlow : 'a' ≤ c ∧ c ≤ 'z'
      · exact ⟨true, by simp [CaseScanStep, hlow]⟩
      · have hrange : ¬(c.toNat < 33 ∨ c.toNat > 126) := by have := hc.1; have := hc.2.1; omega
        exact ⟨lower, by simp only [CaseScanStep, hlow, hc.2.2, hrange, if_false]⟩
    obtain ⟨l, hl⟩ := hstep
    obtain ⟨l', hl'⟩ := ih (fun x hx => h x (by simp [hx])) l
    exact ⟨l', by rw [List.foldlM_cons, hl]; exact hl'⟩

theorem CaseScan_of_hrpChar (str : List Char) (h : ∀ c ∈ str, HrpChar c) :
    ∃ lower, CaseScan str = some (lower, false) :=
  foldlM_CaseScanStep str h false

theorem rfind_eq_some (str : List Char) (c : Char) (pos : Nat) (h : rfind str c = some pos) :
    str = str.take pos ++ c :: str.drop (pos + 1) := by
  obtain ⟨k, hk, rfl⟩ := Option.map_eq_some_iff.mp h
  obtain ⟨hlt, hc, -⟩ := List.findIdx?_eq_some_iff_getElem.mp hk
  rw [List.length_reverse] at hlt
  have hpos : str.length - 1 - k < str.length := by omega
  have hget : str[str.length - 1 - k] = c := by
    rw [← List.getElem_reverse (by rw [List.length_reverse]; exact hlt)]
    simpa using hc
  conv_lhs => rw [← List.take_append_drop (str.length - 1 - k) str]
  rw [List.drop_eq_getElem_cons hpos, hget]

theorem SymbolValue_eq_some (c : Char) (v : Nat) (h : SymbolValue c = some v) :
    v < 32 ∧ CHARSET.getD v ' ' = LowerCase c := by
  -- `CHARSET_REV` has an entry for each ASCII character only
  have hascii : c.toNat < 128 := by
    by_contra hc
    have hnone : CHARSET_REV.getD c.toNat (-1) = -1 :=
      List.getD_eq_default _ _ (by simp only [CHARSET_REV, List.length_cons, List.length_nil]; omega)
    simp only [SymbolValue, hnone, if_true, reduceCtorEq] at h
  have hall : ∀ i : Fin 128, ∀ v, SymbolValue (Char.ofNat i) = some v →
      v < 32 ∧ CHARSET.getD v ' ' = LowerCase (Char.ofNat i) := by decide
  have hc := hall ⟨c.toNat, hascii⟩ v
  simp only [Char.ofNat_toNat] at hc
  exact hc h

theorem mapM_SymbolValue_eq_some (str : List Char) (values : List Nat)
    (h : str.mapM SymbolValue = some values) :
    (∀ v ∈ values, v < 32) ∧ values.map (fun c => CHARSET.getD c ' ') = str.map LowerCase := by
  induction str generalizing values with
  | nil =>
    simp only [List.mapM_nil, Option.pure_def, Option.some.injEq] at h
    subst h
    exact ⟨fun _ hv => absurd hv List.not_mem_nil, rfl⟩
  | cons c str ih =>
    obtain ⟨v, vs, hv, hvs, rfl⟩ := ExceptFold.mapM_cons_eq_some h
    obtain ⟨hlt, hsym⟩ := SymbolValue_eq_some c v hv
    obtain ⟨hlts, hsyms⟩ := ih vs hvs
    refine ⟨fun x hx => ?_, by rw [List.map_cons, List.map_cons, hsym, hsyms]⟩
    rcases List.mem_cons.mp hx with rfl | hx
    · exact hlt
    · exact hlts x hx

theorem rfind_append_cons (pre post : List Char) (c : Char) (h : c ∉ post) :
    rfind (pre ++ c :: post) c = some pre.length := by
  have hnone : post.reverse.findIdx? (· == c) = none := by
    rw [List.findIdx?_eq_none_iff]
    intro x hx
    have hxc : x ≠ c := fun hxc => h (hxc ▸ List.mem_reverse.mp hx)
    simpa using hxc
  simp only [rfind, List.reverse_append, List.reverse_cons, List.append_assoc, List.singleton_append,
    List.findIdx?_append, hnone, List.findIdx?_cons, beq_self_eq_true, if_true, Option.map_some,
    Option.none_or, List.length_append, List.length_cons, List.length_reverse]
  congr 1
  omega

namespace Base32Code

variable {Encoding : Type} (code : Base32Code Encoding)

/-- `Decode` reads back what `Encode` wrote: the encoding, the HRP and the
values, for a non-empty HRP of printable characters with no upper case and a
string within the length limit. -/
theorem Decode_Encode [DecidableEq Encoding] (encoding : Encoding)
    (henc : encoding = code.plain ∨ encoding = code.modified) (hrp : List Char)
    (hhrp_ne : hrp ≠ []) (hhrp : ∀ c ∈ hrp, HrpChar c) (values : List Nat)
    (hvalues : ∀ v ∈ values, v < 32)
    (hsize : hrp.length + 1 + values.length + code.checksum_size ≤ code.max_size) :
    code.Decode (code.Encode encoding hrp values) = ⟨encoding, hrp, values⟩ := by
  have hexpand : ∀ v ∈ ExpandHRP hrp ++ values, v < 32 := by
    intro v hv
    simp only [ExpandHRP, List.mem_append, List.mem_map, List.mem_singleton] at hv
    rcases hv with ((⟨c, hc, rfl⟩ | rfl) | ⟨c, hc, rfl⟩) | hv
    · rw [Nat.shiftRight_eq_div_pow]
      have := (hhrp c hc).2.1
      omega
    · decide
    · exact Nat.lt_of_le_of_lt Nat.and_le_right (by decide)
    · exact hvalues v hv
  have hpoly := code.PolyMod_checksum encoding henc hrp values hexpand
  have hchecksum_lt : ∀ v ∈ code.CreateChecksum encoding hrp values, v < 32 := by
    rw [CreateChecksum_eq]
    exact digitsBE_lt 5 _ _
  have hchecksum_len : (code.CreateChecksum encoding hrp values).length = code.checksum_size := by
    rw [CreateChecksum_eq, length_digitsBE]
  have hstr : code.Encode encoding hrp values =
      hrp ++ '1' :: (values ++ code.CreateChecksum encoding hrp values).map
        (fun c => CHARSET.getD c ' ') := by
    simp [Encode]
  generalize code.CreateChecksum encoding hrp values = checksum at hpoly hchecksum_lt hchecksum_len hstr
  have hcombined : ∀ v ∈ values ++ checksum, v < 32 := by
    intro v hv
    rcases List.mem_append.mp hv with hv | hv
    · exact hvalues v hv
    · exact hchecksum_lt v hv
  generalize hsymbols : (values ++ checksum).map (fun c => CHARSET.getD c ' ') = symbols at hstr
  have hsym_mem : ∀ c ∈ symbols, c ∈ CHARSET := by
    rw [← hsymbols]
    intro c hc
    obtain ⟨v, hv, rfl⟩ := List.mem_map.mp hc
    exact getD_CHARSET_mem v (hcombined v hv)
  have hsym_len : symbols.length = values.length + code.checksum_size := by
    rw [← hsymbols, List.length_map, List.length_append, hchecksum_len]
  obtain ⟨lower, hcase⟩ := CaseScan_of_hrpChar (hrp ++ '1' :: symbols) (by
    intro c hc
    rcases List.mem_append.mp hc with hc | hc
    · exact hhrp c hc
    · rcases List.mem_cons.mp hc with rfl | hc
      · decide
      · exact CHARSET_hrpChar c (hsym_mem c hc))
  have hrf : rfind (hrp ++ '1' :: symbols) '1' = some hrp.length :=
    rfind_append_cons hrp symbols '1' (fun h => one_not_mem_CHARSET (hsym_mem '1' h))
  have hlen : (hrp ++ '1' :: symbols).length = hrp.length + 1 + symbols.length := by
    simp only [List.length_append, List.length_cons]
    omega
  have hpos : ¬((hrp ++ '1' :: symbols).length > code.max_size ∨ hrp.length = 0 ∨
      hrp.length + code.checksum_size + 1 > (hrp ++ '1' :: symbols).length) := by
    have hne : hrp.length ≠ 0 := fun h0 => hhrp_ne (List.length_eq_zero_iff.mp h0)
    rw [hlen, hsym_len]
    omega
  have hdrop : (hrp ++ '1' :: symbols).drop (hrp.length + 1) = symbols := by
    rw [List.drop_append, List.drop_of_length_le (by omega), List.nil_append,
      show hrp.length + 1 - hrp.length = 1 by omega, List.drop_one, List.tail_cons]
  have hvalues' : symbols.mapM SymbolValue = some (values ++ checksum) := by
    rw [← hsymbols]
    exact mapM_SymbolValue _ hcombined
  have htake : hrp.map LowerCase = hrp := by
    conv_rhs => rw [← List.map_id hrp]
    exact List.map_congr_left (fun c hc => LowerCase_of_hrpChar c (hhrp c hc))
  have hverify : code.VerifyChecksum hrp (values ++ checksum) = encoding := by
    rw [VerifyChecksum]
    simp only [← List.append_assoc, hpoly]
    rcases henc with rfl | rfl
    · simp
    · simp [Ne.symm code.constants_ne]
  have hvalid : encoding ≠ code.INVALID := by
    rcases henc with rfl | rfl
    · exact code.plain_ne
    · exact code.modified_ne
  rw [hstr]
  simp only [Decode, hcase, Bool.and_false, Bool.false_eq_true, if_false, hrf]
  rw [if_neg hpos, hdrop, hvalues']
  simp only [htake, hverify, hvalid, if_false, List.length_append, hchecksum_len,
    Nat.add_sub_cancel, List.take_left' rfl]

theorem Decode_eq_of_ne_INVALID [DecidableEq Encoding] (str : List Char)
    (h : (code.Decode str).encoding ≠ code.INVALID) :
    ∃ pos values, rfind str '1' = some pos ∧ pos + code.checksum_size + 1 ≤ str.length ∧
      (str.drop (pos + 1)).mapM SymbolValue = some values ∧
      code.VerifyChecksum ((str.take pos).map LowerCase) values ≠ code.INVALID ∧
      code.Decode str = ⟨code.VerifyChecksum ((str.take pos).map LowerCase) values,
        (str.take pos).map LowerCase, values.take (values.length - code.checksum_size)⟩ := by
  -- every failed check returns `INVALID`, which `h` excludes
  simp only [Decode] at h ⊢
  split at h
  · exact absurd rfl h
  · split_ifs at h with hcase
    · exact absurd rfl h
    · split at h
      · exact absurd rfl h
      · rename_i pos hrf
        split_ifs at h with hsize
        · exact absurd rfl h
        · split at h
          · exact absurd rfl h
          · rename_i values hvalues
            split_ifs at h with hverify
            · exact absurd rfl h
            · refine ⟨pos, values, hrf, by omega, hvalues, hverify, ?_⟩
              simp only [hcase, hsize, hverify, Bool.false_eq_true, if_false]

/-- `Encode` of what `Decode` accepts writes the string back in lower case. -/
theorem Encode_Decode [DecidableEq Encoding] (str : List Char)
    (h : (code.Decode str).encoding ≠ code.INVALID) :
    code.Encode (code.Decode str).encoding (code.Decode str).hrp (code.Decode str).data =
      str.map LowerCase := by
  obtain ⟨pos, values, hrf, hroom, hvalues, hverify, hdecode⟩ := code.Decode_eq_of_ne_INVALID str h
  obtain ⟨hlt, hsymbols⟩ := mapM_SymbolValue_eq_some _ values hvalues
  have hlen : values.length = str.length - (pos + 1) := by
    rw [← List.length_map (fun c => CHARSET.getD c ' '), hsymbols, List.length_map,
      List.length_drop]
  rw [hdecode]
  generalize hrp_def : (str.take pos).map LowerCase = hrp at hverify
  generalize henc : code.VerifyChecksum hrp values = encoding at hverify
  have hsplit := List.take_append_drop (values.length - code.checksum_size) values
  have hchecksum : values.drop (values.length - code.checksum_size) =
      code.CreateChecksum encoding hrp (values.take (values.length - code.checksum_size)) := by
    apply code.eq_CreateChecksum
    · rw [List.length_drop]; omega
    · exact fun v hv => hlt v (List.mem_of_mem_drop hv)
    · rw [List.append_assoc, hsplit, ← henc]
      exact code.PolyMod_of_VerifyChecksum hrp values (henc ▸ hverify)
  have hstr := rfind_eq_some str '1' pos hrf
  simp only [Encode]
  rw [← hchecksum, hsplit, hsymbols, ← hrp_def]
  conv_rhs => rw [hstr]
  simp [LowerCase]

end Base32Code

/-!
## blech32 is a code

Both directions at once: `Decode` inverts `Encode` on every non-empty HRP
of printable characters with no upper case, and every string `Decode`
accepts is `Encode` of what it returns, up to case.
-/

namespace blech32

theorem Decode_Encode_inverse :
    (∀ encoding : Encoding, (encoding = .BLECH32 ∨ encoding = .BLECH32M) →
      ∀ hrp : List Char, hrp ≠ [] → (∀ c ∈ hrp, HrpChar c) →
      ∀ values : List Nat, (∀ v ∈ values, v < 32) →
      hrp.length + 1 + values.length + 12 ≤ 1000 →
      Decode (Encode encoding hrp values) = ⟨encoding, hrp, values⟩) ∧
    (∀ str : List Char, (Decode str).encoding ≠ .INVALID →
      Encode (Decode str).encoding (Decode str).hrp (Decode str).data = str.map LowerCase) := by
  constructor
  · intro encoding henc hrp hne hhrp values hvalues hsize
    exact code.Decode_Encode encoding henc hrp hne hhrp values hvalues hsize
  · intro str h
    exact code.Encode_Decode str h

theorem Decode_Encode_inverse_el :
    Decode (Encode .BLECH32M "el".toList [0, 1, 2, 31]) = ⟨.BLECH32M, "el".toList, [0, 1, 2, 31]⟩ ∧
    Encode (Decode "EL1QPZL40HUDPSPHR5A".toList).encoding (Decode "EL1QPZL40HUDPSPHR5A".toList).hrp
      (Decode "EL1QPZL40HUDPSPHR5A".toList).data = "el1qpzl40hudpsphr5a".toList :=
  ⟨Decode_Encode_inverse.1 .BLECH32M (Or.inr rfl) "el".toList (by decide)
      (hrpChar_of_all _ (by decide)) [0, 1, 2, 31] (by decide) (by decide),
    (Decode_Encode_inverse.2 "EL1QPZL40HUDPSPHR5A".toList (by decide +kernel)).trans
      (by decide)⟩

/-- With an empty HRP the string starts with its separator, which `Decode`
refuses, so the round trip needs a non-empty HRP. -/
theorem Decode_Encode_empty_hrp :
    Decode (Encode .BLECH32 [] []) = ⟨.INVALID, [], []⟩ := by
  decide

end blech32

end Elements
