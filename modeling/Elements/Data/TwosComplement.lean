import Mathlib.Data.Int.Init
import Mathlib.Tactic.Ring

/-!
# Signed machine integers in two's complement

A signed machine type of half-range `h` holds the integers `[-h, h)`; its
words are the naturals below `2 * h`, read by `ofWord` and written by
`toWord`.  Signed overflow is undefined behaviour in C and C++: an operation
whose exact result leaves the range has no defined result, so `checked` returns
`none` there and a program built from checked operations is free of overflow
exactly when it never returns `none`.  `&&` and `||` evaluate their right side
only when the left one does not decide (`scAnd`, `scOr`), which is what keeps a
guard such as `a > 0 && b > MAX - a` defined.

The division lemmas turn the guards C programs write with truncating division
(`MAX / b`, `MIN / a`) into bounds on the exact product, and give the
remainder's bound that a Euclidean correction relies on.
-/

namespace TwosComplement

/-- The integers `[-h, h)` of a signed type of half-range `h`. -/
def InRange (h : Nat) (x : Int) : Prop := -(h : Int) ≤ x ∧ x < h

instance (h : Nat) (x : Int) : Decidable (InRange h x) :=
  inferInstanceAs (Decidable (_ ∧ _))

/-- The result of a signed operation whose exact value is `x`: undefined where
`x` overflows. -/
def checked (h : Nat) (x : Int) : Option Int := if InRange h x then some x else none

/-- `a / b`, truncating: undefined for a zero divisor or a quotient that
overflows. -/
def checkedDiv (h : Nat) (a b : Int) : Option Int :=
  if b = 0 then none else checked h (a.tdiv b)

/-- `a % b`, with the sign of `a`: undefined where `a / b` is. -/
def checkedMod (h : Nat) (a b : Int) : Option Int :=
  (checkedDiv h a b).map fun _ => a.tmod b

/-- `p && q`: `q` is evaluated only when `p` holds. -/
def scAnd (p : Bool) (q : Option Bool) : Option Bool := if p then q else some false

/-- `p || q`: `q` is evaluated only when `p` fails. -/
def scOr (p q : Option Bool) : Option Bool := p.bind fun b => if b then some true else q

def ofWord (h : Nat) (v : Nat) : Int := if h ≤ v then (v : Int) - 2 * h else v

def toWord (h : Nat) (x : Int) : Nat := (x % (2 * h : Nat)).toNat

variable {h : Nat}

@[simp] theorem checked_eq_some_iff {x y : Int} : checked h x = some y ↔ InRange h x ∧ x = y := by
  unfold checked
  split <;> simp [*]

theorem checked_of_inRange {x : Int} (hx : InRange h x) : checked h x = some x := by
  simp [checked, hx]

@[simp] theorem scAnd_true (q : Option Bool) : scAnd true q = q := rfl

@[simp] theorem scAnd_false (q : Option Bool) : scAnd false q = some false := rfl

@[simp] theorem scOr_some_true (q : Option Bool) : scOr (some true) q = some true := rfl

@[simp] theorem scOr_some_false (q : Option Bool) : scOr (some false) q = q := rfl

@[simp] theorem scOr_some (p q : Bool) : scOr (some p) (some q) = some (p || q) := by
  cases p <;> rfl

theorem ofWord_inRange {v : Nat} (hv : v < 2 * h) : InRange h (ofWord h v) := by
  unfold ofWord InRange
  split <;> omega

theorem toWord_lt (hpos : 0 < h) (x : Int) : toWord h x < 2 * h := by
  unfold toWord
  have hlt := Int.emod_lt_of_pos x (b := ((2 * h : Nat) : Int)) (by omega)
  have hnn := Int.emod_nonneg x (b := ((2 * h : Nat) : Int)) (by omega)
  omega

theorem emod_of_neg {x : Int} (hlo : -(2 * h : Int) ≤ x) (hneg : x < 0) :
    x % ((2 * h : Nat) : Int) = x + 2 * h := by
  have hshift : x % ((2 * h : Nat) : Int) = (x + 1 * ((2 * h : Nat) : Int)) % ((2 * h : Nat) : Int) :=
    (Int.add_mul_emod_self_right x 1 _).symm
  rw [hshift, Int.emod_eq_of_lt (by omega) (by omega)]
  push_cast
  ring

theorem ofWord_toWord {x : Int} (hx : InRange h x) : ofWord h (toWord h x) = x := by
  unfold InRange at hx
  unfold ofWord toWord
  -- the word is `x` itself or `x + 2h`, as `x` is non-negative or not
  by_cases hnn : 0 ≤ x
  · rw [Int.emod_eq_of_lt hnn (by omega)]
    split <;> omega
  · rw [emod_of_neg (by omega) (by omega)]
    split <;> omega

/-!
## Truncating division
-/

theorem tdiv_inRange {a b : Int} (ha : InRange h a) (hb : b ≠ 0) (hx : ¬(a = -h ∧ b = -1)) :
    InRange h (a.tdiv b) := by
  unfold InRange at *
  have hn := Int.natAbs_tdiv_le_natAbs a b
  by_cases hb1 : b = -1
  · subst hb1
    rw [Int.tdiv_neg, Int.tdiv_one]
    omega
  by_cases hb2 : b = 1
  · subst hb2
    rw [Int.tdiv_one]
    exact ha
  have hhalf : (a.tdiv b).natAbs ≤ a.natAbs / 2 := by
    rw [Int.natAbs_tdiv]
    exact Nat.div_le_div_left (by omega) (by decide)
  omega

theorem natAbs_tmod_lt {a b : Int} (hb : b ≠ 0) : (a.tmod b).natAbs < b.natAbs := by
  rw [Int.natAbs_tmod]
  exact Nat.mod_lt _ (Int.natAbs_pos.mpr hb)

theorem tdiv_lt_iff_lt_mul {m c x : Int} (hm : 0 ≤ m) (hc : 0 < c) :
    m.tdiv c < x ↔ m < x * c := by
  rw [Int.tdiv_eq_ediv_of_nonneg hm]
  exact Int.ediv_lt_iff_lt_mul hc

theorem lt_tdiv_iff_mul_lt {n c x : Int} (hn : n ≤ 0) (hc : 0 < c) :
    x < n.tdiv c ↔ x * c < n := by
  have hq : n.tdiv c = -((-n) / c) := by
    rw [← Int.tdiv_eq_ediv_of_nonneg (by omega), Int.neg_tdiv, Int.neg_neg]
  rw [hq]
  have hiff := Int.ediv_lt_iff_lt_mul (a := -n) (b := -x) hc
  constructor
  · intro hlt
    have := hiff.mp (by omega)
    rw [Int.neg_mul] at this
    omega
  · intro hlt
    have := hiff.mpr (by rw [Int.neg_mul]; omega)
    omega

theorem lt_tdiv_neg_iff_lt_mul {m c x : Int} (hm : 0 ≤ m) (hc : c < 0) :
    x < m.tdiv c ↔ m < x * c := by
  have hq : m.tdiv c = -(m.tdiv (-c)) := by rw [Int.tdiv_neg, Int.neg_neg]
  rw [hq]
  have hiff := tdiv_lt_iff_lt_mul (x := -x) hm (by omega : 0 < -c)
  rw [Int.neg_mul_neg] at hiff
  omega

end TwosComplement
