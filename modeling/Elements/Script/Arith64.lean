import Elements.Script.Script
import Elements.Data.TwosComplement

/-!
# The 64-bit arithmetic opcodes

`OP_ADD64` to `OP_GREATERTHANOREQUAL64` and `OP_NEG64` of `EvalScript`, with
`read_le8_signed` and `push8_le`.  An operand is an 8-byte element read as a
little-endian two's-complement `int64_t`.  Every `int64_t` operation of these
cases, those of the overflow guards included, is a checked operation of
`TwosComplement`, so a case that never returns `none` performs no signed
overflow.

Each guard is exact: it fails precisely when the exact result is not an
`int64_t` (`Add64Overflows_eq`, `Sub64Overflows_eq`, `Mul64Overflows_eq`).  The
multiplication guard divides the bound by an operand, so its four sign cases
go through the truncating-division lemmas of `TwosComplement`.  `OP_DIV64`
corrects C++'s truncating quotient and remainder to the Euclidean ones.
-/

namespace Elements

open Codec TwosComplement

/-- `std::numeric_limits<int64_t>::min()` and `max()`. -/
def INT64_MIN : Int := -2 ^ 63
def INT64_MAX : Int := 2 ^ 63 - 1

/-- An `int64_t` operation whose exact result is `x`. -/
def int64 (x : Int) : Option Int := checked (2 ^ 63) x

/-- `ReadLE64`: the `uint64_t` of the first 8 bytes, little-endian. -/
def ReadLE64 (ptr : List UInt8) : UInt64 := UInt64.ofNat (decodeLE (ptr.take 8))

/-- `cast_signed64`: the two's-complement reading, shifted so that no `int64_t`
operation overflows. -/
def cast_signed64 (v : UInt64) : Int :=
  if 2 ^ 63 ≤ v.toNat then ((v.toNat - 2 ^ 63 : Nat) : Int) + INT64_MIN else v.toNat

def read_le8_signed (ptr : List UInt8) : Int := cast_signed64 (ReadLE64 ptr)

/-- An `int64_t` passed as the `uint64_t` of `push8_le`: modulo `2 ^ 64`. -/
def uint64_of_int64 (x : Int) : UInt64 := UInt64.ofNat (toWord (2 ^ 63) x)

/-- `push8_le`: the 8 little-endian bytes of `v`, on top. -/
def push8_le (stack : List valtype) (v : UInt64) : List valtype := encodeLE 8 v.toNat :: stack

/-- `(a > 0 && b > MAX - a) || (a < 0 && b < MIN - a)`. -/
def Add64Overflows (a b : Int) : Option Bool :=
  scOr (scAnd (decide (0 < a)) ((int64 (INT64_MAX - a)).map fun m => decide (m < b)))
    (scAnd (decide (a < 0)) ((int64 (INT64_MIN - a)).map fun m => decide (b < m)))

/-- `(b > 0 && a < MIN + b) || (b < 0 && a > MAX + b)`. -/
def Sub64Overflows (a b : Int) : Option Bool :=
  scOr (scAnd (decide (0 < b)) ((int64 (INT64_MIN + b)).map fun m => decide (a < m)))
    (scAnd (decide (b < 0)) ((int64 (INT64_MAX + b)).map fun m => decide (m < a)))

/-- `(a > 0 && b > 0 && a > MAX / b) || (a > 0 && b < 0 && b < MIN / a) ||
(a < 0 && b > 0 && a < MIN / b) || (a < 0 && b < 0 && b < MAX / a)`. -/
def Mul64Overflows (a b : Int) : Option Bool :=
  scOr
    (scOr
      (scOr
        (scAnd (decide (0 < a) && decide (0 < b))
          ((checkedDiv (2 ^ 63) INT64_MAX b).map fun m => decide (m < a)))
        (scAnd (decide (0 < a) && decide (b < 0))
          ((checkedDiv (2 ^ 63) INT64_MIN a).map fun m => decide (b < m))))
      (scAnd (decide (a < 0) && decide (0 < b))
        ((checkedDiv (2 ^ 63) INT64_MIN b).map fun m => decide (a < m))))
    (scAnd (decide (a < 0) && decide (b < 0))
      ((checkedDiv (2 ^ 63) INT64_MAX a).map fun m => decide (b < m)))

/-- The remainder and quotient of `OP_DIV64`: C++'s `a % b` and `a / b`, moved
by one divisor where the remainder is negative. -/
def Div64 (a b : Int) : Option (Int × Int) :=
  (checkedMod (2 ^ 63) a b).bind fun r =>
    (checkedDiv (2 ^ 63) a b).bind fun q =>
      if r < 0 ∧ 0 < b then
        (int64 (r + b)).bind fun r' => (int64 (q - 1)).map fun q' => (r', q')
      else if r < 0 ∧ b < 0 then
        (int64 (r - b)).bind fun r' => (int64 (q + 1)).map fun q' => (r', q')
      else some (r, q)

/-- The result of an overflow-checked operation: on overflow the operands stay
and false goes on top; otherwise the result replaces them, with true. -/
def PushChecked (stack rest : List valtype) (overflow : Option Bool) (result : Int) :
    Option (Except ScriptError (List valtype)) :=
  overflow.bind fun o =>
    if o then some (.ok (vchFalse :: stack))
    else (int64 result).map fun s => .ok (vchTrue :: push8_le rest (uint64_of_int64 s))

/-- `(cond) ? vchTrue : vchFalse`. -/
def vchBool (cond : Bool) : valtype := if cond then vchTrue else vchFalse

/-- The case of `EvalScript` for `OP_ADD64` to `OP_GREATERTHANOREQUAL64`. -/
def EvalArith64 (opcode : opcodetype) (sigversion : SigVersion) (stack : List valtype) :
    Option (Except ScriptError (List valtype)) :=
  if PreTapscript sigversion then some (.error .BAD_OPCODE) else
  match stack with
  | vchb :: vcha :: rest =>
    if vchb.length ≠ 8 ∨ vcha.length ≠ 8 then some (.error .EXPECTED_8BYTES) else
    let b := read_le8_signed vchb
    let a := read_le8_signed vcha
    if opcode = OP_ADD64 then PushChecked stack rest (Add64Overflows a b) (a + b)
    else if opcode = OP_SUB64 then PushChecked stack rest (Sub64Overflows a b) (a - b)
    else if opcode = OP_MUL64 then PushChecked stack rest (Mul64Overflows a b) (a * b)
    else if opcode = OP_DIV64 then
      if b = 0 ∨ (b = -1 ∧ a = INT64_MIN) then some (.ok (vchFalse :: stack))
      else (Div64 a b).map fun (r, q) =>
        .ok (vchTrue :: push8_le (push8_le rest (uint64_of_int64 r)) (uint64_of_int64 q))
    else if opcode = OP_LESSTHAN64 then some (.ok (vchBool (decide (a < b)) :: rest))
    else if opcode = OP_LESSTHANOREQUAL64 then some (.ok (vchBool (decide (a ≤ b)) :: rest))
    else if opcode = OP_GREATERTHAN64 then some (.ok (vchBool (decide (a > b)) :: rest))
    else if opcode = OP_GREATERTHANOREQUAL64 then some (.ok (vchBool (decide (a ≥ b)) :: rest))
    -- `assert(!"invalid opcode")`
    else none
  | _ => some (.error .INVALID_STACK_OPERATION)

/-- The case of `EvalScript` for `OP_NEG64`. -/
def EvalNeg64 (sigversion : SigVersion) (stack : List valtype) :
    Option (Except ScriptError (List valtype)) :=
  if PreTapscript sigversion then some (.error .BAD_OPCODE) else
  match stack with
  | vcha :: rest =>
    if vcha.length ≠ 8 then some (.error .EXPECTED_8BYTES) else
    let a := read_le8_signed vcha
    if a = INT64_MIN then some (.ok (vchFalse :: stack))
    else (int64 (-a)).map fun n => .ok (vchTrue :: push8_le rest (uint64_of_int64 n))
  | [] => some (.error .INVALID_STACK_OPERATION)

/-!
## Reading and writing 8-byte operands
-/

/-- `c` is the 8-byte little-endian two's-complement encoding of `x`. -/
def EncodesLE8 (c : valtype) (x : Int) : Prop := c.length = 8 ∧ read_le8_signed c = x

theorem cast_signed64_eq (v : UInt64) : cast_signed64 v = ofWord (2 ^ 63) v.toNat := by
  unfold cast_signed64 ofWord INT64_MIN
  split <;> omega

theorem read_le8_signed_inRange (ptr : List UInt8) : InRange (2 ^ 63) (read_le8_signed ptr) := by
  rw [read_le8_signed, cast_signed64_eq]
  exact ofWord_inRange (by have := (ReadLE64 ptr).toNat_lt; omega)

theorem push8_le_encodes {x : Int} (hx : InRange (2 ^ 63) x) (rest : List valtype) :
    ∃ c, EncodesLE8 c x ∧ push8_le rest (uint64_of_int64 x) = c :: rest := by
  refine ⟨_, ⟨length_encodeLE 8 _, ?_⟩, rfl⟩
  have hword : toWord (2 ^ 63) x < 2 ^ 64 := toWord_lt (by decide) x
  have hnat : (uint64_of_int64 x).toNat = toWord (2 ^ 63) x := by
    rw [uint64_of_int64, UInt64.toNat_ofNat', Nat.mod_eq_of_lt hword]
  rw [read_le8_signed, cast_signed64_eq, ReadLE64, List.take_of_length_le (by simp),
    decodeLE_encodeLE, hnat, Nat.mod_eq_of_lt (by simpa using hword), UInt64.toNat_ofNat',
    Nat.mod_eq_of_lt hword, ofWord_toWord hx]

/-!
## The overflow guards

Each guard evaluates to whether the exact result overflows.  The bounds it
computes are defined exactly on the side of `&&` where they are evaluated.
-/

section Guards

variable {a b : Int}

theorem Add64Overflows_eq (ha : InRange (2 ^ 63) a) (hb : InRange (2 ^ 63) b) :
    Add64Overflows a b = some (decide ¬InRange (2 ^ 63) (a + b)) := by
  unfold InRange at ha hb
  unfold Add64Overflows
  by_cases hpos : 0 < a
  · have hmax : int64 (INT64_MAX - a) = some (INT64_MAX - a) :=
      checked_of_inRange (by unfold InRange INT64_MAX; omega)
    simp only [hmax, hpos, Int.not_lt.mpr (Int.le_of_lt hpos), decide_true, decide_false,
      scAnd_true, scAnd_false, Option.map_some, scOr_some, Bool.or_false, Option.some.injEq,
      decide_eq_decide]
    unfold InRange INT64_MAX
    omega
  · by_cases hneg : a < 0
    · have hmin : int64 (INT64_MIN - a) = some (INT64_MIN - a) :=
        checked_of_inRange (by unfold InRange INT64_MIN; omega)
      simp only [hmin, hpos, hneg, decide_true, decide_false, scAnd_true, scAnd_false,
        Option.map_some, scOr_some, Bool.false_or, Option.some.injEq, decide_eq_decide]
      unfold InRange INT64_MIN
      omega
    · have hr : InRange (2 ^ 63) (a + b) := by unfold InRange; omega
      simp only [hpos, hneg, hr, decide_false, scAnd_false, scOr_some, Bool.or_false,
        not_true_eq_false]

theorem Sub64Overflows_eq (ha : InRange (2 ^ 63) a) (hb : InRange (2 ^ 63) b) :
    Sub64Overflows a b = some (decide ¬InRange (2 ^ 63) (a - b)) := by
  unfold InRange at ha hb
  unfold Sub64Overflows
  by_cases hpos : 0 < b
  · have hmin : int64 (INT64_MIN + b) = some (INT64_MIN + b) :=
      checked_of_inRange (by unfold InRange INT64_MIN; omega)
    simp only [hmin, hpos, Int.not_lt.mpr (Int.le_of_lt hpos), decide_true, decide_false,
      scAnd_true, scAnd_false, Option.map_some, scOr_some, Bool.or_false, Option.some.injEq,
      decide_eq_decide]
    unfold InRange INT64_MIN
    omega
  · by_cases hneg : b < 0
    · have hmax : int64 (INT64_MAX + b) = some (INT64_MAX + b) :=
        checked_of_inRange (by unfold InRange INT64_MAX; omega)
      simp only [hmax, hpos, hneg, decide_true, decide_false, scAnd_true, scAnd_false,
        Option.map_some, scOr_some, Bool.false_or, Option.some.injEq, decide_eq_decide]
      unfold InRange INT64_MAX
      omega
    · have hr : InRange (2 ^ 63) (a - b) := by unfold InRange; omega
      simp only [hpos, hneg, hr, decide_false, scAnd_false, scOr_some, Bool.or_false,
        not_true_eq_false]

theorem checkedDiv_bound {x c : Int} (hx : x = INT64_MAX ∨ x = INT64_MIN) (hc : InRange (2 ^ 63) c)
    (hc0 : c ≠ 0) (hc1 : x = INT64_MIN → 0 < c) :
    checkedDiv (2 ^ 63) x c = some (x.tdiv c) := by
  have hxr : InRange (2 ^ 63) x := by
    unfold InRange
    rcases hx with rfl | rfl <;> decide
  unfold checkedDiv
  rw [if_neg hc0, checked_of_inRange (tdiv_inRange hxr hc0 ?_)]
  rintro ⟨hmin, rfl⟩
  have := hc1 (by unfold INT64_MIN; omega)
  omega

theorem Mul64Overflows_eq (ha : InRange (2 ^ 63) a) (hb : InRange (2 ^ 63) b) :
    Mul64Overflows a b = some (decide ¬InRange (2 ^ 63) (a * b)) := by
  have hmax : (0 : Int) ≤ INT64_MAX := by decide
  have hmin : INT64_MIN ≤ 0 := by decide
  unfold Mul64Overflows
  -- one conjunct of the guard is live for each signs of the operands
  rcases Int.lt_trichotomy a 0 with ha0 | rfl | ha0 <;>
    rcases Int.lt_trichotomy b 0 with hb0 | rfl | hb0
  · -- both negative: `b < MAX / a` bounds the positive product
    have hp : 0 < a * b := Int.mul_pos_of_neg_of_neg ha0 hb0
    simp only [checkedDiv_bound (Or.inl rfl) ha (by omega) (by unfold INT64_MAX; omega), ha0, hb0,
      Int.not_lt.mpr (Int.le_of_lt ha0), Int.not_lt.mpr (Int.le_of_lt hb0), decide_true,
      decide_false, Bool.and_false, Bool.and_true, scAnd_true, scAnd_false,
      Option.map_some, scOr_some, Bool.false_or, Option.some.injEq, decide_eq_decide]
    rw [lt_tdiv_neg_iff_lt_mul hmax ha0, Int.mul_comm b a]
    unfold InRange INT64_MAX
    omega
  · simp [InRange, scAnd, scOr]
  · -- `a < MIN / b` bounds the negative product
    have hp : a * b < 0 := Int.mul_neg_of_neg_of_pos ha0 hb0
    simp only [checkedDiv_bound (Or.inr rfl) hb (by omega) (fun _ => hb0), ha0, hb0,
      Int.not_lt.mpr (Int.le_of_lt ha0), Int.not_lt.mpr (Int.le_of_lt hb0), decide_true,
      decide_false, Bool.and_false, Bool.and_true, scAnd_true, scAnd_false,
      Option.map_some, scOr_some, Bool.false_or, Bool.or_false, Option.some.injEq,
      decide_eq_decide]
    rw [lt_tdiv_iff_mul_lt hmin hb0]
    unfold InRange INT64_MIN
    omega
  · simp [InRange, scAnd, scOr]
  · simp [InRange, scAnd, scOr]
  · simp [InRange, scAnd, scOr]
  · -- `b < MIN / a` bounds the negative product
    have hp : a * b < 0 := Int.mul_neg_of_pos_of_neg ha0 hb0
    simp only [checkedDiv_bound (Or.inr rfl) ha (by omega) (fun _ => ha0), ha0, hb0,
      Int.not_lt.mpr (Int.le_of_lt ha0), Int.not_lt.mpr (Int.le_of_lt hb0), decide_true,
      decide_false, Bool.and_false, Bool.and_true, scAnd_true, scAnd_false,
      Option.map_some, scOr_some, Bool.false_or, Bool.or_false, Option.some.injEq,
      decide_eq_decide]
    rw [lt_tdiv_iff_mul_lt hmin ha0, Int.mul_comm b a]
    unfold InRange INT64_MIN
    omega
  · simp [InRange, scAnd, scOr]
  · -- both positive: `a > MAX / b` bounds the positive product
    have hp : 0 < a * b := Int.mul_pos ha0 hb0
    simp only [checkedDiv_bound (Or.inl rfl) hb (by omega) (fun _ => hb0), ha0, hb0,
      Int.not_lt.mpr (Int.le_of_lt ha0), Int.not_lt.mpr (Int.le_of_lt hb0), decide_true,
      decide_false, Bool.and_false, Bool.and_true, scAnd_true, scAnd_false,
      Option.map_some, scOr_some, Bool.or_false, Option.some.injEq, decide_eq_decide]
    rw [tdiv_lt_iff_lt_mul hmax hb0]
    unfold InRange INT64_MAX
    omega

end Guards

/-!
## Division

C++ rounds the quotient towards zero, so a negative dividend leaves a negative
remainder.  Such a remainder is not zero, so the divisor has magnitude at least
two, the quotient at most half the range, and moving both by one divisor stays
in range.
-/

section Division

variable {a b : Int}

theorem Div64_spec (ha : InRange (2 ^ 63) a) (hb : InRange (2 ^ 63) b) (hb0 : b ≠ 0)
    (hx : ¬(b = -1 ∧ a = INT64_MIN)) :
    ∃ r q, Div64 a b = some (r, q) ∧ InRange (2 ^ 63) r ∧ InRange (2 ^ 63) q ∧
      a = q * b + r ∧ 0 ≤ r ∧ r < b.natAbs := by
  have hq : InRange (2 ^ 63) (a.tdiv b) :=
    tdiv_inRange ha hb0 (fun ⟨h1, h2⟩ => hx ⟨h2, by unfold INT64_MIN; omega⟩)
  have hdiv : checkedDiv (2 ^ 63) a b = some (a.tdiv b) := by
    unfold checkedDiv
    rw [if_neg hb0, checked_of_inRange hq]
  have hmod : checkedMod (2 ^ 63) a b = some (a.tmod b) := by
    rw [checkedMod, hdiv]
    rfl
  have hdef : a.tmod b = a - b * a.tdiv b := Int.tmod_def a b
  have hlt : (a.tmod b).natAbs < b.natAbs := natAbs_tmod_lt hb0
  have hhalf : a.tmod b ≠ 0 → (a.tdiv b).natAbs ≤ 2 ^ 62 := by
    intro hr
    have h2 : 2 ≤ b.natAbs := by omega
    have hle : (a.tdiv b).natAbs ≤ a.natAbs / 2 := by
      rw [Int.natAbs_tdiv]
      exact Nat.div_le_div_left h2 (by decide)
    unfold InRange at ha
    omega
  unfold InRange at hb
  unfold Div64
  rw [hmod, Option.bind_some, hdiv, Option.bind_some]
  unfold InRange at hq ⊢
  by_cases hpos : a.tmod b < 0 ∧ 0 < b
  · have hq2 := hhalf (by omega)
    rw [if_pos hpos, int64, checked_of_inRange (by unfold InRange; omega), Option.bind_some, int64,
      checked_of_inRange (by unfold InRange; omega), Option.map_some]
    refine ⟨_, _, rfl, by omega, by omega, ?_, by omega, by omega⟩
    rw [hdef]
    ring
  · by_cases hneg : a.tmod b < 0 ∧ b < 0
    · have hq2 := hhalf (by omega)
      rw [if_neg hpos, if_pos hneg, int64, checked_of_inRange (by unfold InRange; omega),
        Option.bind_some, int64, checked_of_inRange (by unfold InRange; omega), Option.map_some]
      refine ⟨_, _, rfl, by omega, by omega, ?_, by omega, by omega⟩
      rw [hdef]
      ring
    · -- the remainder is already non-negative
      rw [if_neg hpos, if_neg hneg]
      have hr : InRange (2 ^ 63) (a.tmod b) := by unfold InRange; omega
      refine ⟨_, _, rfl, hr, hq, ?_, by omega, by omega⟩
      rw [hdef]
      ring

end Division

/-!
## The opcodes
-/

/-- What `OP_ADD64`, `OP_SUB64` and `OP_MUL64` promise for the exact result `x`
of operands `vcha`, `vchb` above `rest`: the encoding of `x` and true in their
place when `x` is an `int64_t`, and otherwise the operands left and false on
top. -/
def Arith64Result (x : Int) (vchb vcha : valtype) (rest : List valtype)
    (res : Option (Except ScriptError (List valtype))) : Prop :=
  (InRange (2 ^ 63) x → ∃ c, EncodesLE8 c x ∧ res = some (.ok (vchTrue :: c :: rest))) ∧
    (¬InRange (2 ^ 63) x → res = some (.ok (vchFalse :: vchb :: vcha :: rest)))

/-- What `OP_DIV64` promises: the Euclidean remainder and quotient, the
quotient on top, and true; or, for a zero divisor or `MIN / -1`, the operands
left and false. -/
def Div64Result (a b : Int) (vchb vcha : valtype) (rest : List valtype)
    (res : Option (Except ScriptError (List valtype))) : Prop :=
  (b = 0 ∨ (a = INT64_MIN ∧ b = -1) → res = some (.ok (vchFalse :: vchb :: vcha :: rest))) ∧
    (¬(b = 0 ∨ (a = INT64_MIN ∧ b = -1)) →
      ∃ cq cr q r, EncodesLE8 cq q ∧ EncodesLE8 cr r ∧ a = q * b + r ∧ 0 ≤ r ∧ r < b.natAbs ∧
        res = some (.ok (vchTrue :: cq :: cr :: rest)))

/-- What `OP_NEG64` promises: `-a` and true in place of the operand, or, for
`a = MIN`, the operand left and false. -/
def Neg64Result (a : Int) (vcha : valtype) (rest : List valtype)
    (res : Option (Except ScriptError (List valtype))) : Prop :=
  (a = INT64_MIN → res = some (.ok (vchFalse :: vcha :: rest))) ∧
    (a ≠ INT64_MIN → ∃ c, EncodesLE8 c (-a) ∧ res = some (.ok (vchTrue :: c :: rest)))

section Opcodes

variable {vcha vchb : valtype} {rest : List valtype}

theorem PushChecked_spec {x : Int} :
    Arith64Result x vchb vcha rest
      (PushChecked (vchb :: vcha :: rest) rest (some (decide ¬InRange (2 ^ 63) x)) x) := by
  constructor
  · intro hx
    obtain ⟨c, hc, hpush⟩ := push8_le_encodes hx rest
    refine ⟨c, hc, ?_⟩
    have hno : (decide ¬InRange (2 ^ 63) x) = false := decide_eq_false (not_not.mpr hx)
    rw [PushChecked, Option.bind_some, hno, if_neg Bool.false_ne_true, int64,
      checked_of_inRange hx, Option.map_some, hpush]
  · intro hx
    rw [PushChecked, Option.bind_some, decide_eq_true hx, if_pos rfl]

theorem EvalArith64_of_length (hb : vchb.length = 8) (ha : vcha.length = 8) (opcode : opcodetype) :
    EvalArith64 opcode .TAPSCRIPT (vchb :: vcha :: rest) =
      let b := read_le8_signed vchb
      let a := read_le8_signed vcha
      if opcode = OP_ADD64 then PushChecked (vchb :: vcha :: rest) rest (Add64Overflows a b) (a + b)
      else if opcode = OP_SUB64 then
        PushChecked (vchb :: vcha :: rest) rest (Sub64Overflows a b) (a - b)
      else if opcode = OP_MUL64 then
        PushChecked (vchb :: vcha :: rest) rest (Mul64Overflows a b) (a * b)
      else if opcode = OP_DIV64 then
        if b = 0 ∨ (b = -1 ∧ a = INT64_MIN) then some (.ok (vchFalse :: vchb :: vcha :: rest))
        else (Div64 a b).map fun (r, q) =>
          .ok (vchTrue :: push8_le (push8_le rest (uint64_of_int64 r)) (uint64_of_int64 q))
      else if opcode = OP_LESSTHAN64 then some (.ok (vchBool (decide (a < b)) :: rest))
      else if opcode = OP_LESSTHANOREQUAL64 then some (.ok (vchBool (decide (a ≤ b)) :: rest))
      else if opcode = OP_GREATERTHAN64 then some (.ok (vchBool (decide (a > b)) :: rest))
      else if opcode = OP_GREATERTHANOREQUAL64 then
        some (.ok (vchBool (decide (a ≥ b)) :: rest))
      else none := by
  simp [EvalArith64, PreTapscript, ha, hb]

theorem EvalArith64_ADD64 (hb : vchb.length = 8) (ha : vcha.length = 8) :
    Arith64Result (read_le8_signed vcha + read_le8_signed vchb) vchb vcha rest
      (EvalArith64 OP_ADD64 .TAPSCRIPT (vchb :: vcha :: rest)) := by
  rw [EvalArith64_of_length hb ha]
  dsimp only
  rw [if_pos rfl, Add64Overflows_eq (read_le8_signed_inRange vcha) (read_le8_signed_inRange vchb)]
  exact PushChecked_spec

theorem EvalArith64_SUB64 (hb : vchb.length = 8) (ha : vcha.length = 8) :
    Arith64Result (read_le8_signed vcha - read_le8_signed vchb) vchb vcha rest
      (EvalArith64 OP_SUB64 .TAPSCRIPT (vchb :: vcha :: rest)) := by
  rw [EvalArith64_of_length hb ha]
  dsimp only
  rw [if_neg (show OP_SUB64 ≠ OP_ADD64 by decide), if_pos rfl]
  rw [Sub64Overflows_eq (read_le8_signed_inRange vcha) (read_le8_signed_inRange vchb)]
  exact PushChecked_spec

theorem EvalArith64_MUL64 (hb : vchb.length = 8) (ha : vcha.length = 8) :
    Arith64Result (read_le8_signed vcha * read_le8_signed vchb) vchb vcha rest
      (EvalArith64 OP_MUL64 .TAPSCRIPT (vchb :: vcha :: rest)) := by
  rw [EvalArith64_of_length hb ha]
  dsimp only
  rw [if_neg (show OP_MUL64 ≠ OP_ADD64 by decide), if_neg (show OP_MUL64 ≠ OP_SUB64 by decide),
    if_pos rfl]
  rw [Mul64Overflows_eq (read_le8_signed_inRange vcha) (read_le8_signed_inRange vchb)]
  exact PushChecked_spec

theorem EvalArith64_DIV64 (hb : vchb.length = 8) (ha : vcha.length = 8) :
    Div64Result (read_le8_signed vcha) (read_le8_signed vchb) vchb vcha rest
      (EvalArith64 OP_DIV64 .TAPSCRIPT (vchb :: vcha :: rest)) := by
  rw [EvalArith64_of_length hb ha]
  dsimp only
  rw [if_neg (show OP_DIV64 ≠ OP_ADD64 by decide), if_neg (show OP_DIV64 ≠ OP_SUB64 by decide),
    if_neg (show OP_DIV64 ≠ OP_MUL64 by decide), if_pos rfl]
  constructor
  · intro hfail
    rw [if_pos (by omega)]
  · intro hok
    rw [if_neg (by omega)]
    obtain ⟨r, q, hdiv, hr, hq, hsum, hnn, hlt⟩ := Div64_spec (read_le8_signed_inRange vcha)
      (read_le8_signed_inRange vchb) (by omega) (by omega)
    obtain ⟨cr, hcr, hpushr⟩ := push8_le_encodes hr rest
    obtain ⟨cq, hcq, hpushq⟩ := push8_le_encodes hq (cr :: rest)
    refine ⟨cq, cr, q, r, hcq, hcr, hsum, hnn, hlt, ?_⟩
    rw [hdiv, Option.map_some, hpushr, hpushq]

theorem EvalNeg64_spec (ha : vcha.length = 8) :
    Neg64Result (read_le8_signed vcha) vcha rest (EvalNeg64 .TAPSCRIPT (vcha :: rest)) := by
  have hcase : EvalNeg64 .TAPSCRIPT (vcha :: rest) =
      if read_le8_signed vcha = INT64_MIN then some (.ok (vchFalse :: vcha :: rest))
      else (int64 (-read_le8_signed vcha)).map fun n =>
        .ok (vchTrue :: push8_le rest (uint64_of_int64 n)) := by
    simp [EvalNeg64, PreTapscript, ha]
  rw [hcase]
  constructor
  · intro hmin
    rw [if_pos hmin]
  · intro hmin
    -- only `MIN` has no negation in range
    have hneg : InRange (2 ^ 63) (-read_le8_signed vcha) := by
      have := read_le8_signed_inRange vcha
      unfold InRange INT64_MIN at *
      omega
    obtain ⟨c, hc, hpush⟩ := push8_le_encodes hneg rest
    refine ⟨c, hc, ?_⟩
    rw [if_neg hmin, int64, checked_of_inRange hneg, Option.map_some, hpush]

end Opcodes

theorem EvalArith64_exact (vcha vchb : valtype) (rest : List valtype) (ha : vcha.length = 8)
    (hb : vchb.length = 8) :
    Arith64Result (read_le8_signed vcha + read_le8_signed vchb) vchb vcha rest
        (EvalArith64 OP_ADD64 .TAPSCRIPT (vchb :: vcha :: rest)) ∧
      Arith64Result (read_le8_signed vcha - read_le8_signed vchb) vchb vcha rest
        (EvalArith64 OP_SUB64 .TAPSCRIPT (vchb :: vcha :: rest)) ∧
      Arith64Result (read_le8_signed vcha * read_le8_signed vchb) vchb vcha rest
        (EvalArith64 OP_MUL64 .TAPSCRIPT (vchb :: vcha :: rest)) ∧
      Div64Result (read_le8_signed vcha) (read_le8_signed vchb) vchb vcha rest
        (EvalArith64 OP_DIV64 .TAPSCRIPT (vchb :: vcha :: rest)) ∧
      Neg64Result (read_le8_signed vcha) vcha rest (EvalNeg64 .TAPSCRIPT (vcha :: rest)) :=
  ⟨EvalArith64_ADD64 hb ha, EvalArith64_SUB64 hb ha, EvalArith64_MUL64 hb ha,
    EvalArith64_DIV64 hb ha, EvalNeg64_spec ha⟩

/-- `MAX + 1` overflows: the operands stay and false goes on top. -/
example : EvalArith64 OP_ADD64 .TAPSCRIPT [encodeLE 8 1, encodeLE 8 (2 ^ 63 - 1)] =
    some (.ok [vchFalse, encodeLE 8 1, encodeLE 8 (2 ^ 63 - 1)]) := by
  rfl

/-- `-7 / 2` is `-4` with remainder `1`. -/
example : EvalArith64 OP_DIV64 .TAPSCRIPT [encodeLE 8 2, encodeLE 8 (2 ^ 64 - 7)] =
    some (.ok [vchTrue, encodeLE 8 (2 ^ 64 - 4), encodeLE 8 1]) := by
  rfl

/-- `MIN` and `-1`, the operands at the edge of every guard. -/
theorem EvalArith64_exact_min_neg_one :
    (encodeLE 8 (2 ^ 63)).length = 8 ∧ (encodeLE 8 (2 ^ 64 - 1)).length = 8 ∧
      Arith64Result (read_le8_signed (encodeLE 8 (2 ^ 63)) + read_le8_signed (encodeLE 8 (2 ^ 64 - 1)))
          (encodeLE 8 (2 ^ 64 - 1)) (encodeLE 8 (2 ^ 63)) []
          (EvalArith64 OP_ADD64 .TAPSCRIPT [encodeLE 8 (2 ^ 64 - 1), encodeLE 8 (2 ^ 63)]) ∧
      Arith64Result (read_le8_signed (encodeLE 8 (2 ^ 63)) - read_le8_signed (encodeLE 8 (2 ^ 64 - 1)))
          (encodeLE 8 (2 ^ 64 - 1)) (encodeLE 8 (2 ^ 63)) []
          (EvalArith64 OP_SUB64 .TAPSCRIPT [encodeLE 8 (2 ^ 64 - 1), encodeLE 8 (2 ^ 63)]) ∧
      Arith64Result (read_le8_signed (encodeLE 8 (2 ^ 63)) * read_le8_signed (encodeLE 8 (2 ^ 64 - 1)))
          (encodeLE 8 (2 ^ 64 - 1)) (encodeLE 8 (2 ^ 63)) []
          (EvalArith64 OP_MUL64 .TAPSCRIPT [encodeLE 8 (2 ^ 64 - 1), encodeLE 8 (2 ^ 63)]) ∧
      Div64Result (read_le8_signed (encodeLE 8 (2 ^ 63))) (read_le8_signed (encodeLE 8 (2 ^ 64 - 1)))
          (encodeLE 8 (2 ^ 64 - 1)) (encodeLE 8 (2 ^ 63)) []
          (EvalArith64 OP_DIV64 .TAPSCRIPT [encodeLE 8 (2 ^ 64 - 1), encodeLE 8 (2 ^ 63)]) ∧
      Neg64Result (read_le8_signed (encodeLE 8 (2 ^ 63))) (encodeLE 8 (2 ^ 63)) []
          (EvalNeg64 .TAPSCRIPT [encodeLE 8 (2 ^ 63)]) :=
  ⟨length_encodeLE 8 _, length_encodeLE 8 _,
    EvalArith64_exact (encodeLE 8 (2 ^ 63)) (encodeLE 8 (2 ^ 64 - 1)) [] (length_encodeLE 8 _)
      (length_encodeLE 8 _)⟩

end Elements
