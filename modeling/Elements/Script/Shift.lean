import Elements.Script.Script
import Elements.Codec.Bits

/-!
# The bit-shift opcodes

`OP_RSHIFT` and `OP_LSHIFT` of `EvalScript`, which Elements enables again.  The
second item from the top is read as an unsigned little-endian number and the
top item, a `CScriptNum`, as the shift.  Whole bytes are dropped or inserted
first; the remaining `bits < 8` are shifted by a loop that carries them from
byte to byte through a 16-bit temporary, and the zero bytes on top are popped.

The loops are the source's.  Each of their steps is a sum of two disjoint bit
ranges (`RShiftStep_eq`, `LShiftStep_eq`), so each loop computes the shifted
number (`RShiftLoop_spec`, `LShiftLoop_spec`), and the opcodes leave its
minimal encoding `minimalLE` (`EvalRShift_eq`, `EvalLShift_eq`).
-/

namespace Elements

open Codec Codec.Bits

/-!
## The loops
-/

/-- `temp = (vch2[i] << (8 - bits)) | ((temp << 8) & 0xff00)`, into the
`uint16_t` temporary. -/
def RShiftStep (bits temp : Nat) (b : UInt8) : Nat :=
  ((b.toNat <<< (8 - bits)) ||| ((temp <<< 8) &&& 0xff00)) % 2 ^ 16

/-- The loop `for (i = vch2.size() - 1; i >= 0; --i)` of `OP_RSHIFT`, over the
bytes from `i` up: the last `temp` and the bytes written, `(temp & 0xff00) >> 8`
each.  The bytes above `i` run first. -/
def RShiftLoop (bits : Nat) : List UInt8 → Nat × List UInt8
  | [] => (0, [])
  | b :: rest =>
    match RShiftLoop bits rest with
    | (temp, out) =>
      (RShiftStep bits temp b, UInt8.ofNat ((RShiftStep bits temp b &&& 0xff00) >>> 8) :: out)

/-- `temp = (vch2[i] << bits) | (temp >> 8)`, into the `uint16_t` temporary. -/
def LShiftStep (bits temp : Nat) (b : UInt8) : Nat :=
  ((b.toNat <<< bits) ||| (temp >>> 8)) % 2 ^ 16

/-- The loop `for (i = 0; i < vch2.size(); ++i)` of `OP_LSHIFT` from `temp`: the
bytes written, `temp & 0xff` each. -/
def LShiftLoop (bits : Nat) : Nat → List UInt8 → List UInt8
  | _, [] => []
  | temp, b :: rest =>
    UInt8.ofNat (LShiftStep bits temp b &&& 0xff) :: LShiftLoop bits (LShiftStep bits temp b) rest

/-- `while (!vch2.empty() && vch2.back() == 0) vch2.pop_back();` -/
def PopTrailingZeros (vch : valtype) : valtype :=
  (vch.reverse.dropWhile (· == 0)).reverse

/-!
### What the loops compute

A step adds two disjoint ranges of bits: those of the byte, moved up, and
those carried over from the byte before.
-/

section Loops

variable {bits : Nat}

/-- A step of `OP_RSHIFT`'s loop: the byte moved up by `8 - bits`, and above it
the low `bits` of the byte above, carried in `temp`'s low byte. -/
theorem RShiftStep_eq (hbits : bits < 8) (b : UInt8) {temp c : Nat} (hc : c < 2 ^ bits)
    (htemp : temp % 256 = c * 2 ^ (8 - bits)) :
    RShiftStep bits temp b = b.toNat * 2 ^ (8 - bits) + c * 2 ^ (16 - bits) := by
  have hb : b.toNat < 256 := UInt8.toNat_lt b
  have hpow : 2 ^ (8 - bits) * 256 = 2 ^ (16 - bits) := by
    rw [show (256 : Nat) = 2 ^ 8 from rfl, ← Nat.pow_add]
    congr 1
    omega
  have hcarry : (temp <<< 8) &&& 0xff00 = c <<< (16 - bits) := by
    rw [and_0xff00, Nat.shiftLeft_eq, Nat.shiftLeft_eq, show (2 : Nat) ^ 8 = 256 from rfl,
      Nat.mul_div_cancel _ (by norm_num), htemp, Nat.mul_assoc, hpow]
  have hlow : b.toNat <<< (8 - bits) < 2 ^ (16 - bits) := by
    rw [Nat.shiftLeft_eq, ← hpow, Nat.mul_comm (2 ^ (8 - bits))]
    exact Nat.mul_lt_mul_of_pos_right hb (Nat.two_pow_pos _)
  unfold RShiftStep
  rw [hcarry, or_shiftLeft_eq_add hlow, Nat.shiftLeft_eq]
  apply Nat.mod_eq_of_lt
  interval_cases bits <;> norm_num at hc ⊢ <;> omega

/-- The loop of `OP_RSHIFT` writes the number shifted right by `bits`, and
leaves in `temp`'s low byte the bits it shifted out, moved to the top. -/
theorem RShiftLoop_spec (hbits : bits < 8) (v : List UInt8) :
    decodeLE (RShiftLoop bits v).2 = decodeLE v / 2 ^ bits ∧
      (RShiftLoop bits v).1 % 256 = decodeLE v % 2 ^ bits * 2 ^ (8 - bits) := by
  induction v with
  | nil => simp [RShiftLoop, decodeLE]
  | cons b rest ih =>
    rcases hloop : RShiftLoop bits rest with ⟨temp, out⟩
    rw [hloop] at ih
    obtain ⟨hout, htemp⟩ := ih
    have hstep := RShiftStep_eq hbits b (Nat.mod_lt (decodeLE rest) (Nat.two_pow_pos bits)) htemp
    have hb : b.toNat < 256 := UInt8.toNat_lt b
    simp only [RShiftLoop, hloop]
    have hbyte : (UInt8.ofNat ((RShiftStep bits temp b &&& 0xff00) >>> 8)).toNat =
        RShiftStep bits temp b / 256 % 256 := by
      rw [UInt8.toNat_ofNat', and_0xff00, Nat.shiftRight_eq_div_pow,
        show (2 : Nat) ^ 8 = 256 from rfl]
      omega
    show (UInt8.ofNat _).toNat + 256 * decodeLE out = (b.toNat + 256 * decodeLE rest) / 2 ^ bits ∧
      RShiftStep bits temp b % 256 = (b.toNat + 256 * decodeLE rest) % 2 ^ bits * 2 ^ (8 - bits)
    rw [hbyte, hout, hstep]
    interval_cases bits <;> norm_num <;> omega

/-- A step of `OP_LSHIFT`'s loop: the byte moved up by `bits`, and below it the
top `bits` of the byte below, carried in `temp`'s high byte. -/
theorem LShiftStep_eq (hbits : bits < 8) (b : UInt8) {temp : Nat} (hc : temp / 256 < 2 ^ bits) :
    LShiftStep bits temp b = b.toNat * 2 ^ bits + temp / 256 := by
  have hb : b.toNat < 256 := UInt8.toNat_lt b
  have hcarry : temp >>> 8 < 2 ^ bits := by
    rw [Nat.shiftRight_eq_div_pow]
    exact hc
  unfold LShiftStep
  rw [Nat.or_comm, or_shiftLeft_eq_add hcarry, Nat.shiftRight_eq_div_pow,
    show (2 : Nat) ^ 8 = 256 from rfl, Nat.add_comm]
  apply Nat.mod_eq_of_lt
  interval_cases bits <;> norm_num at hc ⊢ <;> omega

/-- The loop of `OP_LSHIFT` writes the number shifted left by `bits`, with the
bits carried in below, as far as its bytes reach. -/
theorem LShiftLoop_spec (hbits : bits < 8) (v : List UInt8) {temp : Nat} (hc : temp / 256 < 2 ^ bits) :
    decodeLE (LShiftLoop bits temp v) = (decodeLE v * 2 ^ bits + temp / 256) % 256 ^ v.length := by
  induction v generalizing temp with
  | nil => simp [LShiftLoop, decodeLE, Nat.mod_one]
  | cons b rest ih =>
    have hb : b.toNat < 256 := UInt8.toNat_lt b
    have hstep := LShiftStep_eq hbits b hc
    have hc' : LShiftStep bits temp b / 256 < 2 ^ bits := by
      rw [hstep]
      interval_cases bits <;> norm_num at hc ⊢ <;> omega
    have hbyte : (UInt8.ofNat (LShiftStep bits temp b &&& 0xff)).toNat = LShiftStep bits temp b % 256 := by
      rw [UInt8.toNat_ofNat', and_0xff]
      omega
    show (UInt8.ofNat _).toNat + 256 * decodeLE (LShiftLoop bits _ rest) =
      ((b.toNat + 256 * decodeLE rest) * 2 ^ bits + temp / 256) % 256 ^ (rest.length + 1)
    rw [hbyte, ih hc', Nat.pow_succ, Nat.mul_comm (256 ^ rest.length) 256, Nat.mod_mul, hstep]
    have hsplit : (b.toNat + 256 * decodeLE rest) * 2 ^ bits + temp / 256 =
        (b.toNat * 2 ^ bits + temp / 256) + 256 * (decodeLE rest * 2 ^ bits) := by ring
    rw [hsplit, Nat.add_mul_mod_self_left, Nat.add_mul_div_left _ _ (by norm_num : 0 < 256),
      Nat.add_comm (decodeLE rest * 2 ^ bits)]

end Loops

/-!
## The opcodes
-/

/-- The case `OP_RSHIFT` of `EvalScript`; a `scriptnum_error` is caught as
`SCRIPT_ERR_UNKNOWN_ERROR`. -/
def EvalRShift (fRequireMinimal : Bool) (stack : List valtype) : Except ScriptError (List valtype) :=
  match stack with
  | top :: vch1 :: rest =>
    match CScriptNum.ofVch top fRequireMinimal nDefaultMaxNumSize with
    | .error _ => throw .UNKNOWN_ERROR
    | .ok bn =>
      if bn < 0 then throw .UNKNOWN_ERROR
      else if (CScriptNum.getint bn).toNat / 8 ≥ vch1.length then pure (vchZero :: rest)
      else
        pure (PopTrailingZeros (RShiftLoop ((CScriptNum.getint bn).toNat % 8)
          (vch1.drop ((CScriptNum.getint bn).toNat / 8))).2 :: rest)
  | _ => throw .INVALID_STACK_OPERATION

/-- The case `OP_LSHIFT` of `EvalScript`. -/
def EvalLShift (fRequireMinimal : Bool) (stack : List valtype) : Except ScriptError (List valtype) :=
  match stack with
  | top :: vch1 :: rest =>
    match CScriptNum.ofVch top fRequireMinimal nDefaultMaxNumSize with
    | .error _ => throw .UNKNOWN_ERROR
    | .ok bn =>
      if bn < 0 then throw .INVALID_STACK_OPERATION
      else if vch1.length + (CScriptNum.getint bn).toNat / 8 +
          (if (CScriptNum.getint bn).toNat % 8 ≠ 0 then 1 else 0) > MAX_SCRIPT_ELEMENT_SIZE then
        throw .INVALID_STACK_OPERATION
      else
        pure (PopTrailingZeros (LShiftLoop ((CScriptNum.getint bn).toNat % 8) 0
          (List.replicate ((CScriptNum.getint bn).toNat / 8) 0 ++ vch1 ++ [0])) :: rest)
  | _ => throw .INVALID_STACK_OPERATION

example : EvalRShift true [[4], [0x34, 0x12]] = .ok [[0x23, 0x01]] := rfl

example : EvalLShift true [[4], [0x34, 0x12]] = .ok [[0x40, 0x23, 0x01]] := rfl

/-!
## The shift count

A `CScriptNum` has at most four bytes, so it is below `2 ^ 31` and `getint`
passes a non-negative one through unclamped.  The shift splits into whole
bytes and the bits left over: `2 ^ n = 256 ^ (n / 8) * 2 ^ (n % 8)`.
-/

theorem toNat_lt_128_of_and_0x80 {b : UInt8} (h : b &&& 0x80 = 0) : b.toNat < 128 := by
  have hb : b.toNat < 256 := UInt8.toNat_lt b
  have hand : b.toNat &&& 2 ^ 7 = 0 := by
    have := congrArg UInt8.toNat h
    simpa [UInt8.toNat_and] using this
  rw [Nat.and_two_pow] at hand
  have hbit : b.toNat.testBit 7 = false := by
    cases hb7 : b.toNat.testBit 7 <;> simp_all
  rw [Nat.testBit_eq_decide_div_mod_eq] at hbit
  simp only [decide_eq_false_iff_not] at hbit
  omega

theorem CScriptNum.set_vch_lt {vch : valtype} (hlen : vch.length ≤ 4) :
    CScriptNum.set_vch vch < 2 ^ 31 := by
  unfold CScriptNum.set_vch
  cases hlast : vch.getLast? with
  | none => norm_num
  | some last =>
    dsimp only
    by_cases hsign : last &&& 0x80 ≠ 0
    · rw [if_pos hsign]
      omega
    · rw [if_neg hsign]
      have hhigh := toNat_lt_128_of_and_0x80 (not_not.mp hsign)
      obtain ⟨init, rfl⟩ := List.getLast?_eq_some_iff.mp hlast
      have hinit := decodeLE_lt init
      have hlen' : init.length ≤ 3 := by
        simp only [List.length_append, List.length_singleton] at hlen
        omega
      have hpow : 256 ^ init.length ≤ 256 ^ 3 := Nat.pow_le_pow_right (by norm_num) hlen'
      have htop : 256 ^ init.length * last.toNat ≤ 256 ^ init.length * 127 :=
        Nat.mul_le_mul_left _ (by omega)
      have hlast' : decodeLE [last] = last.toNat := by simp [decodeLE]
      rw [decodeLE_append, hlast']
      omega

theorem CScriptNum.ofVch_eq_ok {vch : valtype} {fRequireMinimal : Bool} {nMaxNumSize : Nat}
    {n : Int} (h : CScriptNum.ofVch vch fRequireMinimal nMaxNumSize = .ok n) :
    vch.length ≤ nMaxNumSize ∧ CScriptNum.set_vch vch = n := by
  unfold CScriptNum.ofVch at h
  split_ifs at h with hlen hmin
  cases h
  exact ⟨by omega, rfl⟩

/-- `getint` of a non-negative shift count is the count. -/
theorem CScriptNum.getint_of_ofVch {vch : valtype} {fRequireMinimal : Bool} {n : Int}
    (hn : CScriptNum.ofVch vch fRequireMinimal nDefaultMaxNumSize = .ok n) (hpos : 0 ≤ n) :
    CScriptNum.getint n = n := by
  obtain ⟨hlen, rfl⟩ := CScriptNum.ofVch_eq_ok hn
  have hlt := CScriptNum.set_vch_lt hlen
  unfold CScriptNum.getint
  rw [if_neg (by omega), if_neg (by omega)]

theorem two_pow_eq_bytes_bits (n : Nat) : 2 ^ n = 256 ^ (n / 8) * 2 ^ (n % 8) := by
  rw [show (256 : Nat) = 2 ^ 8 from rfl, ← Nat.pow_mul, ← Nat.pow_add, Nat.div_add_mod]

theorem PopTrailingZeros_eq (vch : valtype) : PopTrailingZeros vch = minimalLE (decodeLE vch) :=
  dropTrailingZeros_eq_minimalLE vch

theorem decodeLE_shift_padding (k : Nat) (vch : valtype) :
    decodeLE (List.replicate k 0 ++ vch ++ [0]) = decodeLE vch * 256 ^ k := by
  have hzeros : ∀ b ∈ List.replicate k (0 : UInt8), b = 0 := fun _ hb => List.eq_of_mem_replicate hb
  rw [decodeLE_append_zeros _ [0] (by simp), decodeLE_append, (decodeLE_eq_zero_iff _).mpr hzeros,
    List.length_replicate, Nat.zero_add, Nat.mul_comm]

/-!
## What the opcodes compute
-/

/-- `OP_RSHIFT` by a non-negative count leaves the minimal encoding of the item
shifted right. -/
theorem EvalRShift_eq (fRequireMinimal : Bool) (top vch1 : valtype) (rest : List valtype)
    {n : Int} (hn : CScriptNum.ofVch top fRequireMinimal nDefaultMaxNumSize = .ok n) (hpos : 0 ≤ n) :
    EvalRShift fRequireMinimal (top :: vch1 :: rest) =
      .ok (minimalLE (decodeLE vch1 / 2 ^ n.toNat) :: rest) := by
  have hbits : n.toNat % 8 < 8 := Nat.mod_lt _ (by norm_num)
  simp only [EvalRShift, hn, CScriptNum.getint_of_ofVch hn hpos]
  rw [if_neg (not_lt.mpr hpos)]
  by_cases hfull : n.toNat / 8 ≥ vch1.length
  · -- every byte is shifted out, and `vchZero` is the encoding of zero
    rw [if_pos hfull]
    have hlt : decodeLE vch1 < 2 ^ n.toNat :=
      calc decodeLE vch1 < 256 ^ vch1.length := decodeLE_lt vch1
        _ ≤ 256 ^ (n.toNat / 8) := Nat.pow_le_pow_right (by norm_num) hfull
        _ ≤ 2 ^ n.toNat := by
          rw [two_pow_eq_bytes_bits n.toNat]
          exact Nat.le_mul_of_pos_right _ (Nat.two_pow_pos _)
    rw [Nat.div_eq_of_lt hlt]
    rfl
  · rw [if_neg hfull, PopTrailingZeros_eq, (RShiftLoop_spec hbits _).1, decodeLE_drop,
      Nat.div_div_eq_div_mul, ← two_pow_eq_bytes_bits]
    rfl

/-- `OP_LSHIFT` by a non-negative count leaves the minimal encoding of the item
shifted left when the shifted bytes fit in an element, and fails otherwise. -/
theorem EvalLShift_eq (fRequireMinimal : Bool) (top vch1 : valtype) (rest : List valtype)
    {n : Int} (hn : CScriptNum.ofVch top fRequireMinimal nDefaultMaxNumSize = .ok n) (hpos : 0 ≤ n) :
    EvalLShift fRequireMinimal (top :: vch1 :: rest) =
      if vch1.length + n.toNat / 8 + (if n.toNat % 8 ≠ 0 then 1 else 0) ≤ MAX_SCRIPT_ELEMENT_SIZE then
        .ok (minimalLE (decodeLE vch1 * 2 ^ n.toNat) :: rest)
      else .error .INVALID_STACK_OPERATION := by
  have hbits : n.toNat % 8 < 8 := Nat.mod_lt _ (by norm_num)
  simp only [EvalLShift, hn, CScriptNum.getint_of_ofVch hn hpos]
  rw [if_neg (not_lt.mpr hpos)]
  by_cases hfit : vch1.length + n.toNat / 8 + (if n.toNat % 8 ≠ 0 then 1 else 0) ≤
      MAX_SCRIPT_ELEMENT_SIZE
  · rw [if_neg (not_lt.mpr hfit), if_pos hfit, PopTrailingZeros_eq,
      LShiftLoop_spec hbits _ (by simp), decodeLE_shift_padding]
    have hshift : decodeLE vch1 * 256 ^ (n.toNat / 8) * 2 ^ (n.toNat % 8) =
        decodeLE vch1 * 2 ^ n.toNat := by
      rw [Nat.mul_assoc, ← two_pow_eq_bytes_bits]
    have hlt : decodeLE vch1 * 2 ^ n.toNat <
        256 ^ (List.replicate (n.toNat / 8) (0 : UInt8) ++ vch1 ++ [0]).length := by
      have hbitsPow : 2 ^ (n.toNat % 8) < 256 := by
        interval_cases (n.toNat % 8) <;> norm_num
      have hcount : 2 ^ n.toNat < 256 ^ (n.toNat / 8 + 1) := by
        rw [two_pow_eq_bytes_bits n.toNat, Nat.pow_succ]
        exact Nat.mul_lt_mul_of_pos_left hbitsPow (Nat.pow_pos (by norm_num))
      have hlen : (List.replicate (n.toNat / 8) (0 : UInt8) ++ vch1 ++ [0]).length =
          vch1.length + (n.toNat / 8 + 1) := by
        simp only [List.length_append, List.length_replicate, List.length_singleton]
        omega
      rw [hlen, Nat.pow_add]
      exact Nat.mul_lt_mul'' (decodeLE_lt vch1) hcount
    rw [Nat.zero_div, Nat.add_zero, hshift, Nat.mod_eq_of_lt hlt]
    rfl
  · rw [if_pos (not_le.mp hfit), if_neg hfit]
    rfl

/-- The shift opcodes are arithmetic shifts of unsigned little-endian numbers:
for any non-negative count that `CScriptNum` accepts, `OP_RSHIFT` divides by
`2 ^ n`, and `OP_LSHIFT` multiplies by it when the shifted bytes fit in an
element and fails otherwise.  Both leave the minimal encoding. -/
theorem EvalShift_unsigned_little_endian (fRequireMinimal : Bool) (top v : valtype)
    (rest : List valtype) {n : Int}
    (hn : CScriptNum.ofVch top fRequireMinimal nDefaultMaxNumSize = .ok n) (hpos : 0 ≤ n) :
    EvalRShift fRequireMinimal (top :: v :: rest) =
        .ok (minimalLE (decodeLE v / 2 ^ n.toNat) :: rest) ∧
      (v.length + n.toNat / 8 + (if n.toNat % 8 ≠ 0 then 1 else 0) ≤ MAX_SCRIPT_ELEMENT_SIZE →
        EvalLShift fRequireMinimal (top :: v :: rest) =
          .ok (minimalLE (decodeLE v * 2 ^ n.toNat) :: rest)) ∧
      (MAX_SCRIPT_ELEMENT_SIZE < v.length + n.toNat / 8 + (if n.toNat % 8 ≠ 0 then 1 else 0) →
        EvalLShift fRequireMinimal (top :: v :: rest) = .error .INVALID_STACK_OPERATION) := by
  refine ⟨EvalRShift_eq fRequireMinimal top v rest hn hpos, ?_, ?_⟩
  · intro hfit
    rw [EvalLShift_eq fRequireMinimal top v rest hn hpos, if_pos hfit]
  · intro hover
    rw [EvalLShift_eq fRequireMinimal top v rest hn hpos, if_neg (not_le.mpr hover)]

/-- Shifting `0x1234` by four bits, minimal encodings required. -/
theorem EvalShift_unsigned_little_endian_0x1234 :
    CScriptNum.ofVch [4] true nDefaultMaxNumSize = .ok 4 ∧ (0 : Int) ≤ 4 ∧
      (EvalRShift true [[4], [0x34, 0x12]] = .ok [minimalLE (decodeLE [0x34, 0x12] / 2 ^ 4)] ∧
      ([0x34, 0x12].length + 4 / 8 + (if 4 % 8 ≠ 0 then 1 else 0) ≤ MAX_SCRIPT_ELEMENT_SIZE →
        EvalLShift true [[4], [0x34, 0x12]] = .ok [minimalLE (decodeLE [0x34, 0x12] * 2 ^ 4)]) ∧
      (MAX_SCRIPT_ELEMENT_SIZE < [0x34, 0x12].length + 4 / 8 + (if 4 % 8 ≠ 0 then 1 else 0) →
        EvalLShift true [[4], [0x34, 0x12]] = .error .INVALID_STACK_OPERATION)) :=
  ⟨rfl, by decide, EvalShift_unsigned_little_endian true [4] [0x34, 0x12] [] rfl (by decide)⟩

/-- `OP_RSHIFT` undoes `OP_LSHIFT` by the same count on a minimally encoded
item that the left shift does not overflow. -/
theorem EvalRShift_EvalLShift (fRequireMinimal : Bool) (top v : valtype) (rest : List valtype)
    {n : Int} (hn : CScriptNum.ofVch top fRequireMinimal nDefaultMaxNumSize = .ok n) (hpos : 0 ≤ n)
    (hminimal : v.getLast? ≠ some 0)
    (hfit : v.length + n.toNat / 8 + (if n.toNat % 8 ≠ 0 then 1 else 0) ≤ MAX_SCRIPT_ELEMENT_SIZE) :
    ∃ w, EvalLShift fRequireMinimal (top :: v :: rest) = .ok (w :: rest) ∧
      EvalRShift fRequireMinimal (top :: w :: rest) = .ok (v :: rest) := by
  refine ⟨minimalLE (decodeLE v * 2 ^ n.toNat), ?_, ?_⟩
  · rw [EvalLShift_eq fRequireMinimal top v rest hn hpos, if_pos hfit]
  · rw [EvalRShift_eq fRequireMinimal top _ rest hn hpos, decodeLE_minimalLE,
      Nat.mul_div_cancel _ (Nat.two_pow_pos _), minimalLE_decodeLE hminimal]

theorem EvalRShift_EvalLShift_0x1234 :
    CScriptNum.ofVch [4] true nDefaultMaxNumSize = .ok 4 ∧ (0 : Int) ≤ 4 ∧
      [0x34, 0x12].getLast? ≠ some (0 : UInt8) ∧
      [0x34, 0x12].length + 4 / 8 + (if 4 % 8 ≠ 0 then 1 else 0) ≤ MAX_SCRIPT_ELEMENT_SIZE ∧
      ∃ w, EvalLShift true [[4], [0x34, 0x12]] = .ok [w] ∧ EvalRShift true [[4], w] = .ok [[0x34, 0x12]] :=
  ⟨rfl, by decide, by decide, by decide,
    EvalRShift_EvalLShift true [4] [0x34, 0x12] [] rfl (by decide) (by decide) (by decide)⟩

end Elements
