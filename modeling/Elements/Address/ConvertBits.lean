import Elements.Codec.Radix

/-!
# `ConvertBits`

`ConvertBits<frombits, tobits, pad>` of util/strencodings.h regroups a string
of `frombits`-bit values into `tobits`-bit values, most significant bit first.
Segwit addresses write a witness program as 5-bit symbols with
`ConvertBits<8, 5, true>`, which pads the last symbol with zero bits, and read
it back with `ConvertBits<5, 8, false>`, which fails on a padding of a whole
input value or on a padding that is not zero.

The loop keeps an accumulator whose low `bits` bits are pending.  After each
input value the pending bits, read after the values written, spell the input
read so far (`ConvertBitsState.Reads`); at the end the padding is what is
left.  From that invariant the 5-bit symbols of a byte string read back to the
same bytes (`ConvertBits_round_trip`).
-/

namespace Elements

open Codec

structure ConvertBitsState where
  acc : Nat
  bits : Nat
  out : List Nat
deriving DecidableEq, Repr

/-- The inner loop `while (bits >= tobits) { bits -= tobits; outfn((acc >> bits) & maxv); }`,
which runs `bits / tobits` times. -/
def ConvertBitsEmit (tobits : Nat) : Nat -> ConvertBitsState -> ConvertBitsState
  | 0, s => s
  | n + 1, s =>
    ConvertBitsEmit tobits n
      { s with
        bits := s.bits - tobits
        out := s.out ++ [(s.acc >>> (s.bits - tobits)) &&& (2 ^ tobits - 1)] }

/-- One turn of the outer loop, on the input value `v`. -/
def ConvertBitsStep (frombits tobits : Nat) (s : ConvertBitsState) (v : Nat) : ConvertBitsState :=
  let acc := ((s.acc <<< frombits) ||| v) &&& (2 ^ (frombits + tobits - 1) - 1)
  let bits := s.bits + frombits
  ConvertBitsEmit tobits (bits / tobits) { acc := acc, bits := bits, out := s.out }

/-- `ConvertBits<frombits, tobits, pad>` of an input string: the values written
and whether it returned `true`. -/
def ConvertBits (frombits tobits : Nat) (pad : Bool) (input : List Nat) : List Nat × Bool :=
  let s := input.foldl (ConvertBitsStep frombits tobits) ⟨0, 0, []⟩
  let padding := (s.acc <<< (tobits - s.bits)) &&& (2 ^ tobits - 1)
  if pad then
    if s.bits ≠ 0 then (s.out ++ [padding], true) else (s.out, true)
  else if s.bits ≥ frombits ∨ padding ≠ 0 then (s.out, false)
  else (s.out, true)

/-!
## The pending bits
-/

section Arithmetic

variable (acc bits tobits : Nat)

theorem emitted_eq (h : tobits ≤ bits) :
    (acc >>> (bits - tobits)) &&& (2 ^ tobits - 1) = acc % 2 ^ bits / 2 ^ (bits - tobits) := by
  rw [Nat.and_two_pow_sub_one_eq_mod, Nat.shiftRight_eq_div_pow, ← Nat.mod_mul_right_div_self,
    ← Nat.pow_add, Nat.sub_add_cancel h]

theorem pending_split :
    acc % 2 ^ bits / 2 ^ (bits - tobits) * 2 ^ (bits - tobits) + acc % 2 ^ (bits - tobits) =
      acc % 2 ^ bits := by
  have hlow : acc % 2 ^ bits % 2 ^ (bits - tobits) = acc % 2 ^ (bits - tobits) :=
    Nat.mod_mod_of_dvd acc (Nat.pow_dvd_pow 2 (Nat.sub_le bits tobits))
  have hsplit := Nat.div_add_mod (acc % 2 ^ bits) (2 ^ (bits - tobits))
  rw [hlow] at hsplit
  rw [Nat.mul_comm]
  exact hsplit

theorem pending_step (frombits v : Nat) (hv : v < 2 ^ frombits) (hbits : bits < tobits) :
    (((acc <<< frombits) ||| v) &&& (2 ^ (frombits + tobits - 1) - 1)) % 2 ^ (bits + frombits) =
      acc % 2 ^ bits * 2 ^ frombits + v := by
  have hshift : (acc <<< frombits) ||| v = acc * 2 ^ frombits + v := by
    rw [← Nat.shiftLeft_add_eq_or_of_lt hv, Nat.shiftLeft_eq]
  have hdvd : 2 ^ (bits + frombits) ∣ 2 ^ (frombits + tobits - 1) :=
    Nat.pow_dvd_pow 2 (by omega)
  have hdiv : (acc * 2 ^ frombits + v) / 2 ^ frombits = acc := by
    rw [Nat.mul_comm, Nat.mul_add_div (Nat.two_pow_pos frombits), Nat.div_eq_of_lt hv,
      Nat.add_zero]
  have hmod : (acc * 2 ^ frombits + v) % 2 ^ frombits = v := by
    rw [Nat.mul_comm, Nat.mul_add_mod, Nat.mod_eq_of_lt hv]
  rw [hshift, Nat.and_two_pow_sub_one_eq_mod, Nat.mod_mod_of_dvd _ hdvd, Nat.pow_add,
    Nat.mul_comm (2 ^ bits), Nat.mod_mul, hdiv, hmod]
  ring

theorem padding_eq (h : bits ≤ tobits) :
    (acc <<< (tobits - bits)) &&& (2 ^ tobits - 1) = acc % 2 ^ bits * 2 ^ (tobits - bits) := by
  have hsplit : 2 ^ tobits = 2 ^ bits * 2 ^ (tobits - bits) := by
    rw [← Nat.pow_add, Nat.add_sub_cancel' h]
  rw [Nat.and_two_pow_sub_one_eq_mod, Nat.shiftLeft_eq, hsplit, Nat.mul_mod_mul_right]

end Arithmetic

/-!
## The loop invariant
-/

/-- After reading `input`, the values written followed by the pending bits
spell the input. -/
structure ConvertBitsState.Reads (frombits tobits : Nat) (s : ConvertBitsState)
    (input : List Nat) : Prop where
  value : ofDigitsBE (2 ^ tobits) s.out * 2 ^ s.bits + s.acc % 2 ^ s.bits =
    ofDigitsBE (2 ^ frombits) input
  length : tobits * s.out.length + s.bits = frombits * input.length
  bits_lt : s.bits < tobits
  out_lt : ∀ d ∈ s.out, d < 2 ^ tobits

theorem ConvertBitsEmit_spec (tobits k : Nat) (s : ConvertBitsState) (hk : k * tobits ≤ s.bits) :
    (ConvertBitsEmit tobits k s).acc = s.acc ∧
      (ConvertBitsEmit tobits k s).bits = s.bits - k * tobits ∧
      (ConvertBitsEmit tobits k s).out.length = s.out.length + k ∧
      ofDigitsBE (2 ^ tobits) (ConvertBitsEmit tobits k s).out * 2 ^ (ConvertBitsEmit tobits k s).bits +
          s.acc % 2 ^ (ConvertBitsEmit tobits k s).bits =
        ofDigitsBE (2 ^ tobits) s.out * 2 ^ s.bits + s.acc % 2 ^ s.bits ∧
      ((∀ d ∈ s.out, d < 2 ^ tobits) -> ∀ d ∈ (ConvertBitsEmit tobits k s).out, d < 2 ^ tobits) := by
  induction k generalizing s with
  | zero => simp [ConvertBitsEmit]
  | succ k ih =>
    have ht : tobits ≤ s.bits := by rw [Nat.succ_mul] at hk; omega
    obtain ⟨hacc, hbits, hlen, hvalue, hlt⟩ := ih
      { s with
        bits := s.bits - tobits
        out := s.out ++ [(s.acc >>> (s.bits - tobits)) &&& (2 ^ tobits - 1)] }
      (by simp only; rw [Nat.succ_mul] at hk; omega)
    simp only at hacc hbits hlen hvalue hlt
    simp only [ConvertBitsEmit]
    refine ⟨hacc, by rw [hbits, Nat.succ_mul]; omega, by rw [hlen]; simp; omega, ?_, ?_⟩
    · rw [hvalue, ofDigitsBE_append_singleton, emitted_eq _ _ _ ht]
      calc (ofDigitsBE (2 ^ tobits) s.out * 2 ^ tobits + s.acc % 2 ^ s.bits / 2 ^ (s.bits - tobits)) *
              2 ^ (s.bits - tobits) + s.acc % 2 ^ (s.bits - tobits)
          = ofDigitsBE (2 ^ tobits) s.out * (2 ^ tobits * 2 ^ (s.bits - tobits)) +
              (s.acc % 2 ^ s.bits / 2 ^ (s.bits - tobits) * 2 ^ (s.bits - tobits) +
                s.acc % 2 ^ (s.bits - tobits)) := by ring
        _ = ofDigitsBE (2 ^ tobits) s.out * 2 ^ s.bits + s.acc % 2 ^ s.bits := by
          rw [pending_split, ← Nat.pow_add, Nat.add_sub_cancel' ht]
    · intro hout
      apply hlt
      intro d hd
      rw [List.mem_append, List.mem_singleton] at hd
      rcases hd with hd | rfl
      · exact hout d hd
      · rw [Nat.and_two_pow_sub_one_eq_mod]
        exact Nat.mod_lt _ (Nat.two_pow_pos tobits)

theorem ConvertBitsState.reads_init (frombits tobits : Nat) (ht : 0 < tobits) :
    ConvertBitsState.Reads frombits tobits ⟨0, 0, []⟩ [] :=
  ⟨by simp, by simp, ht, by simp⟩

/-- One turn of the outer loop keeps the invariant. -/
theorem ConvertBitsState.Reads.step {frombits tobits : Nat} {s : ConvertBitsState}
    {input : List Nat} (hs : s.Reads frombits tobits input) (ht : 0 < tobits) (v : Nat)
    (hv : v < 2 ^ frombits) :
    (ConvertBitsStep frombits tobits s v).Reads frombits tobits (input ++ [v]) := by
  let s₁ : ConvertBitsState :=
    { acc := ((s.acc <<< frombits) ||| v) &&& (2 ^ (frombits + tobits - 1) - 1)
      bits := s.bits + frombits
      out := s.out }
  have hk : (s₁.bits / tobits) * tobits ≤ s₁.bits := Nat.div_mul_le_self _ _
  obtain ⟨-, hbits, hlen, hvalue, hlt⟩ := ConvertBitsEmit_spec tobits (s₁.bits / tobits) s₁ hk
  have hacc : (ConvertBitsEmit tobits (s₁.bits / tobits) s₁).acc = s₁.acc :=
    (ConvertBitsEmit_spec tobits (s₁.bits / tobits) s₁ hk).1
  have hrem : s₁.bits - s₁.bits / tobits * tobits = s₁.bits % tobits := by
    rw [Nat.mod_eq_sub_div_mul]
  show (ConvertBitsEmit tobits (s₁.bits / tobits) s₁).Reads frombits tobits (input ++ [v])
  refine ⟨?_, ?_, ?_, hlt hs.out_lt⟩
  · rw [hacc, hvalue, ofDigitsBE_append_singleton, ← hs.value]
    simp only [s₁]
    rw [pending_step _ _ _ _ _ hv hs.bits_lt, Nat.pow_add]
    ring
  · rw [hlen, hbits, hrem, List.length_append, List.length_singleton]
    have hdm := Nat.div_add_mod s₁.bits tobits
    have hlength := hs.length
    simp only [s₁] at hdm ⊢
    linarith
  · rw [hbits, hrem]
    exact Nat.mod_lt _ ht

theorem ConvertBitsState.Reads.foldl {frombits tobits : Nat} (ht : 0 < tobits) :
    ∀ (input : List Nat) {s : ConvertBitsState} {pre : List Nat}, s.Reads frombits tobits pre ->
      (∀ v ∈ input, v < 2 ^ frombits) ->
      (input.foldl (ConvertBitsStep frombits tobits) s).Reads frombits tobits (pre ++ input)
  | [], _, pre, hs, _ => by simpa using hs
  | v :: input, _, pre, hs, hin => by
    rw [List.foldl_cons, show pre ++ v :: input = (pre ++ [v]) ++ input by simp]
    exact ConvertBitsState.Reads.foldl ht input (hs.step ht v (hin v (by simp)))
      (fun x hx => hin x (by simp [hx]))

theorem ConvertBits_reads {frombits tobits : Nat} (ht : 0 < tobits) (input : List Nat)
    (hin : ∀ v ∈ input, v < 2 ^ frombits) :
    (input.foldl (ConvertBitsStep frombits tobits) ⟨0, 0, []⟩).Reads frombits tobits input := by
  simpa using ConvertBitsState.Reads.foldl ht input (ConvertBitsState.reads_init frombits tobits ht) hin

/-!
## Padding and reading back
-/

theorem ConvertBits_pad_spec {frombits tobits : Nat} (ht : 0 < tobits) (input : List Nat)
    (hin : ∀ v ∈ input, v < 2 ^ frombits) :
    (ConvertBits frombits tobits true input).2 = true ∧
      (∀ d ∈ (ConvertBits frombits tobits true input).1, d < 2 ^ tobits) ∧
      ∃ r < tobits,
        ofDigitsBE (2 ^ tobits) (ConvertBits frombits tobits true input).1 =
            ofDigitsBE (2 ^ frombits) input * 2 ^ r ∧
          tobits * (ConvertBits frombits tobits true input).1.length =
            frombits * input.length + r := by
  have hs := ConvertBits_reads ht input hin
  simp only [ConvertBits]
  generalize input.foldl (ConvertBitsStep frombits tobits) ⟨0, 0, []⟩ = s at hs ⊢
  by_cases hbits : s.bits = 0
  · simp only [hbits, ne_eq, not_true_eq_false, if_true, if_false, true_and]
    have hvalue := hs.value
    have hlength := hs.length
    rw [hbits] at hvalue hlength
    exact ⟨hs.out_lt, 0, ht, by simpa [Nat.mod_one] using hvalue, by simpa using hlength⟩
  · simp only [hbits, ne_eq, not_false_eq_true, if_true, true_and]
    refine ⟨?_, tobits - s.bits, by omega, ?_, ?_⟩
    · intro d hd
      rw [List.mem_append, List.mem_singleton] at hd
      rcases hd with hd | rfl
      · exact hs.out_lt d hd
      · rw [Nat.and_two_pow_sub_one_eq_mod]
        exact Nat.mod_lt _ (Nat.two_pow_pos tobits)
    · have hsplit : 2 ^ tobits = 2 ^ s.bits * 2 ^ (tobits - s.bits) := by
        rw [← Nat.pow_add, Nat.add_sub_cancel' (Nat.le_of_lt hs.bits_lt)]
      rw [ofDigitsBE_append_singleton, padding_eq _ _ _ (Nat.le_of_lt hs.bits_lt), ← hs.value]
      generalize ofDigitsBE (2 ^ tobits) s.out = written
      rw [hsplit]
      ring
    · rw [List.length_append, List.length_singleton, ← hs.length]
      have := hs.bits_lt
      rw [Nat.mul_add]
      omega

theorem ConvertBits_unpad_ok {frombits tobits : Nat} (ht : 0 < tobits) (input : List Nat)
    (hin : ∀ v ∈ input, v < 2 ^ frombits) :
    ConvertBits frombits tobits false input =
      ((input.foldl (ConvertBitsStep frombits tobits) ⟨0, 0, []⟩).out,
        decide ((input.foldl (ConvertBitsStep frombits tobits) ⟨0, 0, []⟩).bits < frombits ∧
          (input.foldl (ConvertBitsStep frombits tobits) ⟨0, 0, []⟩).acc %
            2 ^ (input.foldl (ConvertBitsStep frombits tobits) ⟨0, 0, []⟩).bits = 0)) := by
  have hs := ConvertBits_reads ht input hin
  simp only [ConvertBits, Bool.false_eq_true, if_false]
  generalize input.foldl (ConvertBitsStep frombits tobits) ⟨0, 0, []⟩ = s at hs ⊢
  rw [padding_eq _ _ _ (Nat.le_of_lt hs.bits_lt)]
  by_cases hb : s.bits < frombits <;> by_cases ha : s.acc % 2 ^ s.bits = 0 <;> simp [hb, ha]

/-- `ConvertBits<5, 8, false>` reads back the bytes that
`ConvertBits<8, 5, true>` wrote as 5-bit symbols. -/
theorem ConvertBits_round_trip (bytes : List Nat) (hbytes : ∀ b ∈ bytes, b < 256) :
    ConvertBits 5 8 false (ConvertBits 8 5 true bytes).1 = (bytes, true) := by
  obtain ⟨-, hsym, r, hr, hvalue, hlength⟩ := @ConvertBits_pad_spec 8 5 (by decide) bytes
    (fun b hb => (hbytes b hb).trans_eq (by norm_num))
  generalize (ConvertBits 8 5 true bytes).1 = symbols at hsym hvalue hlength
  rw [ConvertBits_unpad_ok (by decide) symbols hsym]
  have hs := ConvertBits_reads (by decide : 0 < 8) symbols hsym
  generalize symbols.foldl (ConvertBitsStep 5 8) ⟨0, 0, []⟩ = s at hs ⊢
  have hbits_lt := hs.bits_lt
  have hlen := hs.length
  have hbits : s.bits = r := by omega
  have hout_len : s.out.length = bytes.length := by omega
  have hvalue' := hs.value
  rw [hvalue, hbits] at hvalue'
  have hpending : s.acc % 2 ^ r = 0 := by
    have hmod := congrArg (· % 2 ^ r) hvalue'
    simpa only [Nat.mul_add_mod_self_right, Nat.mod_mod, Nat.mul_mod_left] using hmod
  rw [hpending, Nat.add_zero] at hvalue'
  have hout : s.out = bytes :=
    ofDigitsBE_inj (by decide) hout_len hs.out_lt (by simpa using hbytes)
      (Nat.eq_of_mul_eq_mul_right (Nat.two_pow_pos r) hvalue')
  rw [hout, hbits]
  simp [hpending]
  omega

theorem ConvertBits_round_trip_three :
    (∀ b ∈ [0, 255, 17], b < 256) ∧
      ConvertBits 5 8 false (ConvertBits 8 5 true [0, 255, 17]).1 = ([0, 255, 17], true) :=
  ⟨by decide, ConvertBits_round_trip [0, 255, 17] (by decide)⟩

end Elements
