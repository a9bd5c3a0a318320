import Mathlib.Data.Nat.Digits.Lemmas

/-!
# Digit strings, most significant first

Address encodings write numbers most significant digit first: `ConvertBits`
regroups the bits of a byte string into 5-bit symbols, a checksum is written
as its 5-bit groups, and Base58 writes the base-58 digits of the number a byte
string denotes.  The value of such a string is Mathlib's `Nat.ofDigits` of the
reversed string, so bounds and uniqueness come from there.

Two ways of producing digits are used: the `n` groups of `w` bits of a number
(`digitsBE`), which keeps leading zeros, and the canonical digits of a number
padded with zeros to a width (`Nat.digitsAppend`), which is what a carry loop
over a fixed buffer leaves behind.
-/

namespace Codec

/-- The number whose base-`b` digits, most significant first, are `ds`. -/
def ofDigitsBE (b : Nat) (ds : List Nat) : Nat := Nat.ofDigits b ds.reverse

@[simp] theorem ofDigitsBE_nil (b : Nat) : ofDigitsBE b [] = 0 := rfl

theorem ofDigitsBE_append (b : Nat) (xs ys : List Nat) :
    ofDigitsBE b (xs ++ ys) = ofDigitsBE b xs * b ^ ys.length + ofDigitsBE b ys := by
  rw [ofDigitsBE, List.reverse_append, Nat.ofDigits_append, List.length_reverse]
  simp only [ofDigitsBE]
  ring

theorem ofDigitsBE_append_singleton (b : Nat) (xs : List Nat) (d : Nat) :
    ofDigitsBE b (xs ++ [d]) = ofDigitsBE b xs * b + d := by
  rw [ofDigitsBE_append]
  simp [ofDigitsBE]

theorem ofDigitsBE_cons (b d : Nat) (ds : List Nat) :
    ofDigitsBE b (d :: ds) = d * b ^ ds.length + ofDigitsBE b ds := by
  have happ := ofDigitsBE_append b [d] ds
  simpa [ofDigitsBE] using happ

theorem ofDigitsBE_lt {b : Nat} (hb : 1 < b) {ds : List Nat} (h : ∀ d ∈ ds, d < b) :
    ofDigitsBE b ds < b ^ ds.length := by
  rw [ofDigitsBE, ← List.length_reverse]
  exact Nat.ofDigits_lt_base_pow_length hb (by simpa using h)

theorem ofDigitsBE_inj {b : Nat} (hb : 1 < b) {xs ys : List Nat} (hlen : xs.length = ys.length)
    (hxs : ∀ d ∈ xs, d < b) (hys : ∀ d ∈ ys, d < b) (h : ofDigitsBE b xs = ofDigitsBE b ys) :
    xs = ys := by
  have hrev : xs.reverse = ys.reverse :=
    Nat.ofDigits_inj_of_len_eq hb (by simpa using hlen) (by simpa using hxs)
      (by simpa using hys) h
  exact List.reverse_inj.mp hrev

/-!
## Canonical digits

The canonical digits of `n`, most significant first, have no leading zero;
a digit string without one is the canonical string of its value.
-/

/-- The `n` lowest groups of `w` bits of `x`, most significant first: group `i`
is `x` shifted right by `w * (n - 1 - i)` and masked to `w` bits. -/
def digitsBE (w n x : Nat) : List Nat :=
  (List.range n).map (fun i => (x >>> (w * (n - 1 - i))) &&& (2 ^ w - 1))

@[simp] theorem length_digitsBE (w n x : Nat) : (digitsBE w n x).length = n := by
  simp [digitsBE]

theorem digitsBE_succ (w n x : Nat) :
    digitsBE w (n + 1) x = ((x >>> (w * n)) &&& (2 ^ w - 1)) :: digitsBE w n x := by
  rw [digitsBE, List.range_succ_eq_map, List.map_cons, List.map_map, digitsBE]
  congr 2
  funext i
  simp only [Function.comp, Nat.succ_eq_add_one]
  congr 3
  omega

theorem digitsBE_lt (w n x : Nat) : ∀ d ∈ digitsBE w n x, d < 2 ^ w := by
  intro d hd
  simp only [digitsBE, List.mem_map] at hd
  obtain ⟨i, -, rfl⟩ := hd
  rw [Nat.and_two_pow_sub_one_eq_mod]
  exact Nat.mod_lt _ (Nat.two_pow_pos w)

theorem ofDigitsBE_digitsBE (w n x : Nat) :
    ofDigitsBE (2 ^ w) (digitsBE w n x) = x % 2 ^ (w * n) := by
  induction n with
  | zero => simp [digitsBE, Nat.mod_one]
  | succ n ih =>
    rw [digitsBE_succ, ofDigitsBE_cons, ih, length_digitsBE, Nat.and_two_pow_sub_one_eq_mod,
      Nat.shiftRight_eq_div_pow, ← Nat.pow_mul, Nat.mul_succ, Nat.pow_add, Nat.mod_mul]
    ring

end Codec
