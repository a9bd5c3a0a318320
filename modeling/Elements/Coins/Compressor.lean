import Elements.Coins
import Elements.Dynafed
import Elements.Crypto.Secp
import Elements.Primitives.TransactionCodec
import Elements.Primitives.Amount

/-!
# Compressed outputs in the coins database

A coin keeps its output in the compact form of `compressor.h`:
`TxOutCompression` writes the value through `AmountCompression`, the asset
through `AssetCompression` and the script through `ScriptCompression`, and
leaves the nonce out.  In Elements mode an explicit value is written as a
type byte `0` and the `VARINT` of `CompressAmount`, any other value as a type
byte `1` and its commitment; six script templates are written as one byte and
their 20 or 32 bytes of payload, every other script as the `VARINT` of its
size plus six and its bytes.

Reading back what was written gives the output again, with its nonce null
(`TxOutCompression_inverts`): `DecompressAmount` undoes `CompressAmount` on
every amount of the money range (`DecompressAmount_CompressAmount`), and
`DecompressScript` rebuilds every script that `CompressScript` shortens
(`DecompressScript_CompressScript`).  An uncompressed key is stored as its `x`
and the parity of its `y`, and rebuilt by libsecp256k1; what that needs of the
curve is `EcPubkey.Lawful`.
-/

namespace Elements

open Codec Codec.Decoder Codec.Bits

/-!
## `VARINT`

The `MSB base-128` encoding of `serialize.h`: seven bits a byte, the high
bit set on every byte but the last, and one subtracted before each further
byte, so that every number has exactly one encoding.
-/

def varIntTooLarge : String := "ReadVarInt(): size too large"

/-- The loop of `WriteVarInt` filling `tmp[len]` upwards, `more` when
`len ≠ 0`.  Each turn divides by 128, so `n + 1` turns are always enough. -/
def WriteVarIntLoop : Nat → Nat → Bool → List UInt8
  | 0, _, _ => []
  | fuel + 1, n, more =>
    let b := UInt8.ofNat ((n &&& 0x7F) ||| (if more then 0x80 else 0x00))
    if n ≤ 0x7F then [b] else b :: WriteVarIntLoop fuel ((n >>> 7) - 1) true

/-- `WriteVarInt`: `tmp` is written from its last byte down to `tmp[0]`. -/
def WriteVarInt (n : Nat) : List UInt8 := (WriteVarIntLoop (n + 1) n false).reverse

/-- The loop of `ReadVarInt` for a type whose largest value is `max`, having
read `n` so far; each turn takes one byte, as `ser_readdata8`. -/
def ReadVarIntLoop (max : Nat) : Nat → List UInt8 → Except String (Nat × List UInt8)
  | _, [] => .error endOfData
  | n, chData :: rest =>
    if n > max >>> 7 then .error varIntTooLarge
    else
      let n := (n <<< 7) ||| (chData.toNat &&& 0x7F)
      if chData &&& 0x80 ≠ 0 then
        if n = max then .error varIntTooLarge else ReadVarIntLoop max (n + 1) rest
      else .ok (n, rest)

/-- `ReadVarInt` into an unsigned `w`-bit integer. -/
def ReadVarInt (w : Nat) : Decoder Nat := ReadVarIntLoop (2 ^ w - 1) 0

theorem varIntByte_toNat (n : Nat) (more : Bool) :
    (UInt8.ofNat ((n &&& 0x7F) ||| (if more then 0x80 else 0x00))).toNat =
      n % 128 + (if more then 128 else 0) := by
  have hlow : n &&& 0x7F < 2 ^ 7 := by
    rw [and_0x7f]
    omega
  have hor : (n &&& 0x7F) ||| (if more then 0x80 else 0x00) = n % 128 + (if more then 128 else 0) := by
    cases more with
    | false => simp [and_0x7f]
    | true =>
      rw [if_pos rfl, show (0x80 : Nat) = 1 <<< 7 from rfl, or_shiftLeft_eq_add hlow, and_0x7f]
      simp
  rw [UInt8.toNat_ofNat', hor]
  split <;> omega

theorem ReadVarIntLoop_cons {max n : Nat} (more : Bool) (hn : n ≤ max)
    (hmore : more = true → n < max) (rest : List UInt8) :
    ReadVarIntLoop max (n / 128) (UInt8.ofNat ((n &&& 0x7F) ||| (if more then 0x80 else 0x00)) :: rest) =
      if more then ReadVarIntLoop max (n + 1) rest else .ok (n, rest) := by
  have hbyte := varIntByte_toNat n more
  generalize UInt8.ofNat ((n &&& 0x7F) ||| (if more then 0x80 else 0x00)) = b at hbyte ⊢
  have hacc : ¬(n / 128 > max >>> 7) := by
    rw [Nat.shiftRight_eq_div_pow]
    exact Nat.not_lt.mpr (Nat.div_le_div_right hn)
  have hvalue : ((n / 128) <<< 7) ||| (b.toNat &&& 0x7F) = n := by
    have hlow : n % 128 < 2 ^ 7 := by omega
    rw [and_0x7f, hbyte, Nat.or_comm, show (n % 128 + if more = true then 128 else 0) % 128 = n % 128 by
      split <;> omega, or_shiftLeft_eq_add hlow]
    omega
  have hflag : b &&& 0x80 = 0 ↔ more = false := by
    rw [uint8_and_0x80_eq_zero_iff, hbyte]
    cases more with
    | false => simp; omega
    | true => simp
  simp only [ReadVarIntLoop, if_neg hacc, hvalue]
  cases more with
  | false => simp [hflag.mpr rfl]
  | true =>
    have hset : ¬(b &&& 0x80 = 0) := fun h => by cases hflag.mp h
    simp [hset, Nat.ne_of_lt (hmore rfl)]

theorem ReadVarIntLoop_WriteVarIntLoop {max fuel n : Nat} (more : Bool) (hfuel : n < fuel)
    (hn : n ≤ max) (hmore : more = true → n < max) (rest : List UInt8) :
    ReadVarIntLoop max 0 ((WriteVarIntLoop fuel n more).reverse ++ rest) =
      if more then ReadVarIntLoop max (n + 1) rest else .ok (n, rest) := by
  induction fuel generalizing n more rest with
  | zero => omega
  | succ fuel ih =>
    by_cases hsmall : n ≤ 0x7F
    · -- one byte, read with nothing above it
      have htop : n / 128 = 0 := by omega
      simp only [WriteVarIntLoop, if_pos hsmall, List.reverse_singleton, List.singleton_append]
      have hread := ReadVarIntLoop_cons more hn hmore rest
      rwa [htop] at hread
    · -- the bytes above read as `n / 128 - 1`, and the carry makes it `n / 128`
      have hnext : (n >>> 7) - 1 + 1 = n / 128 := by
        rw [Nat.shiftRight_eq_div_pow]
        omega
      simp only [WriteVarIntLoop, if_neg hsmall, List.reverse_cons, List.append_assoc,
        List.singleton_append]
      rw [ih true (by rw [Nat.shiftRight_eq_div_pow]; omega) (by rw [Nat.shiftRight_eq_div_pow]; omega)
        (fun _ => by rw [Nat.shiftRight_eq_div_pow]; omega), if_pos rfl, hnext]
      exact ReadVarIntLoop_cons more hn hmore rest

theorem ReadVarInt_WriteVarInt {w n : Nat} (hn : n < 2 ^ w) (rest : List UInt8) :
    ReadVarInt w (WriteVarInt n ++ rest) = .ok (n, rest) := by
  unfold ReadVarInt WriteVarInt
  rw [ReadVarIntLoop_WriteVarIntLoop false (Nat.lt_succ_self n) (by omega) (fun h => by cases h)]
  rfl

theorem WriteVarInt_of_le {n : Nat} (hn : n ≤ 0x7F) : WriteVarInt n = [UInt8.ofNat n] := by
  have hbyte : (n &&& 0x7F) ||| (if false = true then 0x80 else 0x00) = n := by
    simp only [Bool.false_eq_true, if_false, Nat.or_zero, and_0x7f]
    omega
  simp only [WriteVarInt, WriteVarIntLoop, if_pos hn, hbyte, List.reverse_singleton]

theorem WriteVarIntLoop_fuel {fuel fuel' n : Nat} (more : Bool) (hfuel : n < fuel) (hfuel' : n < fuel') :
    WriteVarIntLoop fuel n more = WriteVarIntLoop fuel' n more := by
  induction fuel generalizing fuel' n more with
  | zero => omega
  | succ fuel ih =>
    obtain ⟨fuel', rfl⟩ : ∃ f, fuel' = f + 1 := ⟨fuel' - 1, by omega⟩
    simp only [WriteVarIntLoop]
    split
    · rfl
    · rw [@ih fuel' (n >>> 7 - 1) true (by rw [Nat.shiftRight_eq_div_pow]; omega)
        (by rw [Nat.shiftRight_eq_div_pow]; omega)]

theorem WriteVarIntLoop_reverse {fuel n : Nat} (more : Bool) (hfuel : n < fuel) :
    (WriteVarIntLoop fuel n more).reverse =
      (WriteVarIntLoop (n / 128) (n / 128 - 1) true).reverse ++
        [UInt8.ofNat ((n &&& 0x7F) ||| (if more then 0x80 else 0x00))] := by
  obtain ⟨fuel, rfl⟩ : ∃ f, fuel = f + 1 := ⟨fuel - 1, by omega⟩
  simp only [WriteVarIntLoop]
  split
  · have htop : n / 128 = 0 := by omega
    simp [htop, WriteVarIntLoop]
  · have hnext : n >>> 7 - 1 = n / 128 - 1 := by
      rw [Nat.shiftRight_eq_div_pow]
    rw [List.reverse_cons, hnext, WriteVarIntLoop_fuel true (by omega) (show n / 128 - 1 < n / 128 by omega)]

theorem varIntAcc_eq (a : Nat) (c : UInt8) : (a <<< 7) ||| (c.toNat &&& 0x7F) = a * 128 + c.toNat % 128 := by
  have hlow : c.toNat % 128 < 2 ^ 7 := by omega
  rw [and_0x7f, Nat.or_comm, or_shiftLeft_eq_add hlow]
  omega

theorem varIntByte_of_read {a : Nat} (c : UInt8) (more : Bool) (hflag : c &&& 0x80 = 0 ↔ more = false) :
    UInt8.ofNat (((a * 128 + c.toNat % 128) &&& 0x7F) ||| (if more then 0x80 else 0x00)) = c := by
  apply UInt8.toNat_inj.mp
  rw [varIntByte_toNat]
  have hc := UInt8.toNat_lt c
  rw [uint8_and_0x80_eq_zero_iff] at hflag
  cases more with
  | false => simp at hflag ⊢; omega
  | true => simp at hflag ⊢; omega

theorem ReadVarIntLoop_sound {max a n : Nat} {bytes rest : List UInt8}
    (hmax : max >>> 7 * 128 + 127 ≤ max) (ha : a ≤ max) (h : ReadVarIntLoop max a bytes = .ok (n, rest)) :
    n ≤ max ∧ (WriteVarIntLoop a (a - 1) true).reverse ++ bytes = WriteVarInt n ++ rest := by
  induction bytes generalizing a with
  | nil => simp [ReadVarIntLoop] at h
  | cons c bytes ih =>
    simp only [ReadVarIntLoop, varIntAcc_eq] at h
    have hm : (a * 128 + c.toNat % 128) / 128 = a := by omega
    have htop_eq (more : Bool) (hflag : c &&& 0x80 = 0 ↔ more = false) :
        (WriteVarIntLoop (a * 128 + c.toNat % 128 + 1) (a * 128 + c.toNat % 128) more).reverse =
          (WriteVarIntLoop a (a - 1) true).reverse ++ [c] := by
      rw [WriteVarIntLoop_reverse more (Nat.lt_succ_self _), hm, varIntByte_of_read c more hflag]
    split_ifs at h with hacc hset hmax'
    · -- a set high bit: the reader goes on from one past what it read
      obtain ⟨hn, heq⟩ := ih (by omega) h
      refine ⟨hn, ?_⟩
      have hflag : c &&& 0x80 = 0 ↔ true = false := by simpa using hset
      rw [← heq, Nat.add_sub_cancel, htop_eq true hflag, List.append_assoc, List.singleton_append]
    · -- a clear high bit: the byte is the last of the encoding
      simp only [Except.ok.injEq, Prod.mk.injEq] at h
      obtain ⟨rfl, rfl⟩ := h
      have hflag : c &&& 0x80 = 0 ↔ false = false := by simpa using hset
      rw [Nat.shiftRight_eq_div_pow] at hacc hmax
      refine ⟨by omega, ?_⟩
      rw [WriteVarInt, htop_eq false hflag, List.append_assoc, List.singleton_append]

/-- `VARINT` decoding into a type of at least seven bits is exactly the
inverse of encoding: it accepts the encoding of every number of the type, and
only that. -/
theorem ReadVarInt_eq_ok_iff {w n : Nat} (hw : 7 ≤ w) {bytes rest : List UInt8} :
    ReadVarInt w bytes = .ok (n, rest) ↔ n < 2 ^ w ∧ bytes = WriteVarInt n ++ rest := by
  constructor
  · intro h
    have hpow : 2 ^ w = 2 ^ (w - 7) * 128 := by
      rw [← Nat.pow_sub_mul_pow 2 hw]
    have hpos : 0 < 2 ^ (w - 7) := Nat.pow_pos (by norm_num)
    have hmax : (2 ^ w - 1) >>> 7 * 128 + 127 ≤ 2 ^ w - 1 := by
      rw [Nat.shiftRight_eq_div_pow, hpow]
      omega
    obtain ⟨hn, heq⟩ := ReadVarIntLoop_sound hmax (Nat.zero_le _) h
    exact ⟨by omega, by simpa [WriteVarIntLoop] using heq⟩
  · rintro ⟨hn, rfl⟩
    exact ReadVarInt_WriteVarInt hn rest

theorem ReadVarInt_eq_ok_iff_two_bytes :
    7 ≤ 64 ∧ (ReadVarInt 64 [0x80, 0x00] = .ok (128, []) ↔ 128 < 2 ^ 64 ∧ [0x80, 0x00] = WriteVarInt 128 ++ []) :=
  ⟨by decide, ReadVarInt_eq_ok_iff (by decide)⟩

/-!
## Amounts
-/

/-- The loop `while (((n % 10) == 0) && e < 9) { n /= 10; e++; }`; it turns
at most nine times. -/
def CompressAmountLoop : Nat → UInt64 → Nat → UInt64 × Nat
  | 0, n, e => (n, e)
  | fuel + 1, n, e =>
    if n % 10 = 0 ∧ e < 9 then CompressAmountLoop fuel (n / 10) (e + 1) else (n, e)

/-- `CompressAmount`: the amount divided by its largest power of ten `10 ^ e`
up to `10 ^ 9`, with its last digit `d` split off when `e < 9`; `none` is the
`assert(d >= 1 && d <= 9)`. -/
def CompressAmount (n : UInt64) : Option UInt64 :=
  if n = 0 then some 0
  else
    let (n, e) := CompressAmountLoop 9 n 0
    if e < 9 then
      let d := n % 10
      if ¬(1 ≤ d ∧ d ≤ 9) then none
      else
        let n := n / 10
        some (1 + (n * 9 + d - 1) * 10 + UInt64.ofNat e)
    else some (1 + (n - 1) * 10 + 9)

/-- The loop `while (e) { n *= 10; e--; }`. -/
def DecompressAmountLoop : Nat → UInt64 → UInt64
  | 0, n => n
  | e + 1, n => DecompressAmountLoop e (n * 10)

def DecompressAmount (x : UInt64) : UInt64 :=
  if x = 0 then 0
  else
    let x := x - 1
    let e := x % 10
    let x := x / 10
    let n :=
      if e < 9 then
        let d := x % 9 + 1
        let x := x / 9
        x * 10 + d
      else x + 1
    DecompressAmountLoop e.toNat n

/-!
### The amount round trip

Every amount `n > 0` is `m * 10 ^ e` for the `e ≤ 9` the loop finds;
`CompressAmount` stores `m` and `e` in one number, without wrapping on the
money range, and `DecompressAmount` takes them apart again.
-/

theorem CompressAmountLoop_spec (fuel : Nat) (n : UInt64) (e : Nat) (hfuel : e + fuel = 9) :
    n.toNat = (CompressAmountLoop fuel n e).1.toNat * 10 ^ ((CompressAmountLoop fuel n e).2 - e) ∧
      e ≤ (CompressAmountLoop fuel n e).2 ∧ (CompressAmountLoop fuel n e).2 ≤ 9 ∧
      ((CompressAmountLoop fuel n e).2 < 9 → (CompressAmountLoop fuel n e).1.toNat % 10 ≠ 0) := by
  induction fuel generalizing n e with
  | zero =>
    have he : e = 9 := by omega
    subst he
    simp [CompressAmountLoop]
  | succ fuel ih =>
    have hmod : n % 10 = 0 ↔ n.toNat % 10 = 0 := by
      rw [UInt64.ext_iff, UInt64.toNat_mod]
      rfl
    by_cases hstep : n % 10 = 0 ∧ e < 9
    · rw [CompressAmountLoop, if_pos hstep]
      obtain ⟨hn, hle, h9, hlast⟩ := ih (n / 10) (e + 1) (by omega)
      generalize CompressAmountLoop fuel (n / 10) (e + 1) = r at hn hle h9 hlast ⊢
      refine ⟨?_, by omega, h9, hlast⟩
      have hdiv : n.toNat = n.toNat / 10 * 10 := by
        have := hmod.mp hstep.1
        omega
      have hpow : 10 ^ (r.2 - e) = 10 ^ (r.2 - (e + 1)) * 10 := by
        rw [← Nat.pow_succ]
        congr 1
        omega
      rw [UInt64.toNat_div] at hn
      rw [hdiv, show n.toNat / 10 = n.toNat / (10 : UInt64).toNat from rfl, hn, hpow, Nat.mul_assoc]
    · rw [CompressAmountLoop, if_neg hstep]
      refine ⟨by simp, le_refl e, by omega, fun he hzero => hstep ⟨hmod.mpr hzero, he⟩⟩

theorem DecompressAmountLoop_toNat (e : Nat) (n : UInt64) (hfit : n.toNat * 10 ^ e < 2 ^ 64) :
    (DecompressAmountLoop e n).toNat = n.toNat * 10 ^ e := by
  induction e generalizing n with
  | zero => simp [DecompressAmountLoop]
  | succ e ih =>
    have hten : (n * 10).toNat = n.toNat * 10 := by
      rw [UInt64.toNat_mul]
      apply Nat.mod_eq_of_lt
      rw [Nat.pow_succ', ← Nat.mul_assoc] at hfit
      show n.toNat * 10 < 2 ^ 64
      calc n.toNat * 10 ≤ n.toNat * 10 * 10 ^ e := Nat.le_mul_of_pos_right _ (Nat.pow_pos (by norm_num))
        _ < 2 ^ 64 := hfit
    rw [DecompressAmountLoop, ih (n * 10) (by rw [hten, Nat.mul_assoc, ← Nat.pow_succ']; exact hfit),
      hten, Nat.mul_assoc, ← Nat.pow_succ']

theorem CompressAmount_toNat {n : UInt64} (hn0 : n ≠ 0) (hn : n.toNat ≤ 2100000000000000) :
    ∃ m e c, n.toNat = m * 10 ^ e ∧ e ≤ 9 ∧ (e < 9 → m % 10 ≠ 0) ∧ CompressAmount n = some c ∧
      c.toNat = if e < 9 then 1 + (m / 10 * 9 + m % 10 - 1) * 10 + e else 1 + (m - 1) * 10 + 9 := by
  obtain ⟨hsplit, -, h9, hlast⟩ := CompressAmountLoop_spec 9 n 0 rfl
  generalize hloop : CompressAmountLoop 9 n 0 = r at hsplit h9 hlast
  obtain ⟨m, e⟩ := r
  simp only [Nat.sub_zero] at hsplit h9 hlast
  have hpos : 0 < n.toNat := by
    rcases Nat.eq_zero_or_pos n.toNat with h | h
    · exact absurd (UInt64.toNat_inj.mp (by rw [h]; rfl)) hn0
    · exact h
  have hm : m.toNat ≤ n.toNat := by
    rw [hsplit]
    exact Nat.le_mul_of_pos_right _ (Nat.pow_pos (by norm_num))
  have hm0 : 0 < m.toNat := by
    rcases Nat.eq_zero_or_pos m.toNat with h | h
    · rw [hsplit, h, Nat.zero_mul] at hpos
      exact absurd hpos (lt_irrefl 0)
    · exact h
  refine ⟨m.toNat, e, ?_⟩
  unfold CompressAmount
  rw [if_neg hn0, hloop]
  by_cases he : e < 9
  · -- the last digit `d` is between 1 and 9
    have hd : (m % 10).toNat = m.toNat % 10 := UInt64.toNat_mod m 10
    have hdigit : 1 ≤ m % 10 ∧ m % 10 ≤ 9 := by
      rw [UInt64.le_iff_toNat_le, UInt64.le_iff_toNat_le, hd]
      have := hlast he
      exact ⟨by show 1 ≤ m.toNat % 10; omega, by show m.toNat % 10 ≤ 9; omega⟩
    refine ⟨1 + (m / 10 * 9 + m % 10 - 1) * 10 + UInt64.ofNat e, hsplit, h9, hlast, ?_, ?_⟩
    · simp only [if_pos he, hdigit, not_true_eq_false, and_self, if_false]
    · simp only [if_pos he, UInt64.toNat_add, UInt64.toNat_mul, UInt64.toNat_sub, UInt64.toNat_div,
        UInt64.toNat_mod, UInt64.toNat_ofNat', UInt64.reduceToNat]
      omega
  · have he9 : e = 9 := by omega
    refine ⟨1 + (m - 1) * 10 + 9, hsplit, h9, hlast, by simp only [if_neg he], ?_⟩
    simp only [if_neg he, UInt64.toNat_add, UInt64.toNat_mul, UInt64.toNat_sub, UInt64.reduceToNat]
    omega

/-- `DecompressAmount` undoes `CompressAmount` on the money range. -/
theorem DecompressAmount_CompressAmount {n : UInt64} (hn : n.toNat ≤ 2100000000000000) :
    ∃ c, CompressAmount n = some c ∧ DecompressAmount c = n := by
  by_cases hn0 : n = 0
  · subst hn0
    exact ⟨0, rfl, rfl⟩
  obtain ⟨m, e, c, hsplit, h9, hlast, hc, hcval⟩ := CompressAmount_toNat hn0 hn
  refine ⟨c, hc, ?_⟩
  have hmul : m * 10 ^ e < 2 ^ 64 := by omega
  have hm0 : 0 < m := by
    rcases Nat.eq_zero_or_pos m with h | h
    · rw [h, Nat.zero_mul] at hsplit
      exact absurd (UInt64.toNat_inj.mp (hsplit.trans rfl)) hn0
    · exact h
  have hc1 : 1 ≤ c := by
    rw [UInt64.le_iff_toNat_le]
    show 1 ≤ c.toNat
    split at hcval <;> omega
  have hc0 : c ≠ 0 := fun h => absurd (h ▸ hc1) (by decide)
  have hsub : (c - 1).toNat = c.toNat - 1 := UInt64.toNat_sub_of_le c 1 hc1
  have hcbound : c.toNat < 2 ^ 64 := UInt64.toNat_lt c
  unfold DecompressAmount
  rw [if_neg hc0]
  dsimp only
  apply UInt64.toNat_inj.mp
  by_cases he : e < 9
  · rw [if_pos he] at hcval
    have hdigit := hlast he
    have hlt : (c - 1) % 10 < 9 := by
      rw [UInt64.lt_iff_toNat_lt, UInt64.toNat_mod, hsub]
      show (c.toNat - 1) % 10 < 9
      omega
    have he' : ((c - 1) % 10).toNat = e := by
      rw [UInt64.toNat_mod, hsub]
      show (c.toNat - 1) % 10 = e
      omega
    have hm : ((c - 1) / 10 / 9 * 10 + ((c - 1) / 10 % 9 + 1)).toNat = m := by
      simp only [UInt64.toNat_add, UInt64.toNat_mul, UInt64.toNat_div, UInt64.toNat_mod, hsub,
        UInt64.reduceToNat]
      omega
    rw [if_pos hlt, he', DecompressAmountLoop_toNat e _ (by rw [hm]; exact hmul), hm, ← hsplit]
  · have he9 : e = 9 := by omega
    rw [if_neg he] at hcval
    have hlt : ¬((c - 1) % 10 < 9) := by
      rw [UInt64.lt_iff_toNat_lt, UInt64.toNat_mod, hsub]
      show ¬((c.toNat - 1) % 10 < 9)
      omega
    have he' : ((c - 1) % 10).toNat = e := by
      rw [UInt64.toNat_mod, hsub]
      show (c.toNat - 1) % 10 = e
      omega
    have hm : ((c - 1) / 10 + 1).toNat = m := by
      simp only [UInt64.toNat_add, UInt64.toNat_div, hsub, UInt64.reduceToNat]
      omega
    rw [if_neg hlt, he', DecompressAmountLoop_toNat e _ (by rw [hm]; exact hmul), hm, ← hsplit]

/-!
## Public keys

`CompressScript` keeps only the `x` of an uncompressed key and the parity of
its `y`; `DecompressScript` rebuilds the key with `CPubKey::Decompress`, which
parses the compressed form into a point of the curve and writes the point
uncompressed.  The curve is not modelled: the two calls are a structure of
functions over a type of points.
-/

/-- `secp256k1_ec_pubkey_parse` into a point, `none` where it returns 0, and
`secp256k1_ec_pubkey_serialize` of a point with `SECP256K1_EC_UNCOMPRESSED`. -/
structure EcPubkey (Pt : Type) where
  ec_pubkey_parse : List UInt8 → Option Pt
  ec_pubkey_serialize_uncompressed : Pt → List UInt8

/-- What the round trip of an uncompressed key needs of the curve: a key
`0x04 ‖ x ‖ y` that parses is the uncompressed serialization of its point,
and its compressed form `0x02 | (y & 1) ‖ x` parses to the same point. -/
structure EcPubkey.Lawful {Pt : Type} (ec : EcPubkey Pt) : Prop where
  serialize_parse : ∀ bytes p, bytes.head? = some 4 → ec.ec_pubkey_parse bytes = some p →
    ec.ec_pubkey_serialize_uncompressed p = bytes
  parse_compressed : ∀ bytes p, bytes.length = 65 → bytes.head? = some 4 →
    ec.ec_pubkey_parse bytes = some p →
      ec.ec_pubkey_parse ((0x02 ||| (bytes.getD 64 0 &&& 0x01)) :: (bytes.drop 1).take 32) = some p

def noPoints : EcPubkey Unit := ⟨fun _ => none, fun _ => []⟩

theorem noPoints_lawful : noPoints.Lawful :=
  ⟨fun _ _ _ h => (by simp [noPoints] at h), fun _ _ _ _ h => (by simp [noPoints] at h)⟩

section PubKeys

variable {Pt : Type} (ec : EcPubkey Pt)

/-- `CPubKey::Set`: the bytes, when their length is the one their first byte
fixes; otherwise `Invalidate`, a first byte `0xFF`, of length 0. -/
def CPubKey.Set (bytes : List UInt8) : CPubKey :=
  match bytes with
  | [] => ⟨[0xFF]⟩
  | chHeader :: _ =>
    if CPubKey.GetLen chHeader ≠ 0 ∧ CPubKey.GetLen chHeader = bytes.length then ⟨bytes⟩
    else ⟨[0xFF]⟩

/-- `CPubKey::IsFullyValid` with this parse. -/
def EcPubkey.IsFullyValid (key : CPubKey) : Bool :=
  key.IsValid && (ec.ec_pubkey_parse (key.vch.take key.size)).isSome

/-- `CPubKey::Decompress`: `none` where it returns false. -/
def CPubKey.Decompress (key : CPubKey) : Option CPubKey :=
  if !key.IsValid then none
  else
    match ec.ec_pubkey_parse (key.vch.take key.size) with
    | none => none
    | some pubkey => some (CPubKey.Set (ec.ec_pubkey_serialize_uncompressed pubkey))

end PubKeys

/-!
## Scripts
-/

def OP_DUP : UInt8 := 0x76

def OP_EQUALVERIFY : UInt8 := 0x88

def OP_CHECKSIG : UInt8 := 0xac

/-- `IsToKeyID`: `OP_DUP OP_HASH160 <20 bytes> OP_EQUALVERIFY OP_CHECKSIG`,
and the key hash. -/
def IsToKeyID (script : CScript) : Option (List UInt8) :=
  if script.length = 25 ∧ script.getD 0 0 = OP_DUP ∧ script.getD 1 0 = OP_HASH160 ∧
      script.getD 2 0 = 20 ∧ script.getD 23 0 = OP_EQUALVERIFY ∧ script.getD 24 0 = OP_CHECKSIG then
    some ((script.drop 3).take 20)
  else none

/-- `IsToScriptID`: `OP_HASH160 <20 bytes> OP_EQUAL`, and the script hash. -/
def IsToScriptID (script : CScript) : Option (List UInt8) :=
  if script.length = 23 ∧ script.getD 0 0 = OP_HASH160 ∧ script.getD 1 0 = 20 ∧
      script.getD 22 0 = OP_EQUAL then
    some ((script.drop 2).take 20)
  else none

section Scripts

variable {Pt : Type} (ec : EcPubkey Pt)

/-- `IsToPubKey`: `<33-byte key> OP_CHECKSIG` with a compressed key, or
`<65-byte key> OP_CHECKSIG` with an uncompressed key that is fully valid. -/
def IsToPubKey (script : CScript) : Option CPubKey :=
  if script.length = 35 ∧ script.getD 0 0 = 33 ∧ script.getD 34 0 = OP_CHECKSIG ∧
      (script.getD 1 0 = 0x02 ∨ script.getD 1 0 = 0x03) then
    some (CPubKey.Set ((script.drop 1).take 33))
  else if script.length = 67 ∧ script.getD 0 0 = 65 ∧ script.getD 66 0 = OP_CHECKSIG ∧
      script.getD 1 0 = 0x04 then
    -- if not fully valid, a case that would not be compressible
    let pubkey := CPubKey.Set ((script.drop 1).take 65)
    if ec.IsFullyValid pubkey then some pubkey else none
  else none

/-- `CompressScript`: the special form of a script, `none` where it returns
false. -/
def CompressScript (script : CScript) : Option (List UInt8) :=
  match IsToKeyID script with
  | some keyID => some (0x00 :: keyID)
  | none =>
    match IsToScriptID script with
    | some scriptID => some (0x01 :: scriptID)
    | none =>
      match IsToPubKey ec script with
      | none => none
      | some pubkey =>
        let body := (pubkey.vch.drop 1).take 32
        if pubkey.vch.getD 0 0 = 0x02 ∨ pubkey.vch.getD 0 0 = 0x03 then
          some (pubkey.vch.getD 0 0 :: body)
        else if pubkey.vch.getD 0 0 = 0x04 then
          some ((0x04 ||| (pubkey.vch.getD 64 0 &&& 0x01)) :: body)
        else none

def GetSpecialScriptSize (nSize : Nat) : Nat :=
  if nSize = 0 ∨ nSize = 1 then 20
  else if nSize = 2 ∨ nSize = 3 ∨ nSize = 4 ∨ nSize = 5 then 32
  else 0

def assertPubKeySize : String := "assert(pubkey.size() == 65)"

/-- `DecompressScript` into `script`: whether it returned true, and the
script; the error is the failed `assert(pubkey.size() == 65)`. -/
def DecompressScript (script : CScript) (nSize : Nat) (input : List UInt8) :
    Except String (Bool × CScript) :=
  if nSize = 0x00 then
    .ok (true, [OP_DUP, OP_HASH160, 20] ++ input.take 20 ++ [OP_EQUALVERIFY, OP_CHECKSIG])
  else if nSize = 0x01 then
    .ok (true, [OP_HASH160, 20] ++ input.take 20 ++ [OP_EQUAL])
  else if nSize = 0x02 ∨ nSize = 0x03 then
    .ok (true, [33, UInt8.ofNat nSize] ++ input.take 32 ++ [OP_CHECKSIG])
  else if nSize = 0x04 ∨ nSize = 0x05 then
    let vch := UInt8.ofNat (nSize - 2) :: input.take 32
    match (CPubKey.Set vch).Decompress ec with
    | none => .ok (false, script)
    | some pubkey =>
      if pubkey.size ≠ 65 then .error assertPubKeySize
      else .ok (true, [65] ++ pubkey.vch.take 65 ++ [OP_CHECKSIG])
  else .ok (false, script)

def nSpecialScripts : Nat := 6

def ignoreEndOfData : String := "CDataStream::ignore(): end of data"

/-- `ScriptCompression::Ser`; the size is an `unsigned int`. -/
def ScriptCompression.Ser (script : CScript) : List UInt8 :=
  match CompressScript ec script with
  | some compr => compr
  | none => WriteVarInt ((script.length + nSpecialScripts) % 2 ^ 32) ++ script

/-- `ScriptCompression::Unser` into `script`.  An overlong script is replaced
by `script << OP_RETURN`, and its bytes are skipped. -/
def ScriptCompression.Unser (script : CScript) : Decoder CScript := do
  let nSize ← ReadVarInt 32
  if nSize < nSpecialScripts then
    let vch ← readBytes endOfData (GetSpecialScriptSize nSize)
    match DecompressScript ec script nSize vch with
    | .ok (_, script) => Pure.pure script
    | .error what => fail what
  else
    let nSize := nSize - nSpecialScripts
    if nSize > MAX_SCRIPT_SIZE then do
      let _ ← readBytes ignoreEndOfData nSize
      Pure.pure (script ++ [OP_RETURN])
    else
      readBytes endOfData nSize

end Scripts

/-!
### The script round trip

Each template is read off its bytes: the fixed bytes around the payload, and
the payload in between (`eq_frame`).
-/

theorem take_eq_of_getD {l : List UInt8} (pre : List UInt8) (hlen : pre.length ≤ l.length)
    (h : ∀ i < pre.length, l.getD i 0 = pre.getD i 0) : l.take pre.length = pre := by
  apply List.ext_getElem (by simp; omega)
  intro i hi hi'
  have hi := h i hi'
  rw [List.getD_eq_getElem _ _ (by omega), List.getD_eq_getElem _ _ hi'] at hi
  rw [List.getElem_take]
  exact hi

theorem drop_eq_of_getD {l : List UInt8} (k : Nat) (post : List UInt8)
    (hlen : l.length = k + post.length) (h : ∀ i < post.length, l.getD (k + i) 0 = post.getD i 0) :
    l.drop k = post := by
  apply List.ext_getElem (by simp; omega)
  intro i hi hi'
  have hi := h i hi'
  rw [List.getD_eq_getElem _ _ (by omega), List.getD_eq_getElem _ _ hi'] at hi
  rw [List.getElem_drop]
  exact hi

/-- A list with a known beginning and end is that beginning, the `k` bytes
after it, and that end. -/
theorem eq_frame {l pre post : List UInt8} {k : Nat} (hpre : l.take pre.length = pre)
    (hpost : l.drop (pre.length + k) = post) : l = pre ++ (l.drop pre.length).take k ++ post := by
  conv_lhs => rw [← List.take_append_drop pre.length l, hpre]
  rw [List.append_assoc, ← hpost, ← List.drop_drop, List.take_append_drop]

theorem IsToKeyID_eq_some {script keyID : CScript} (h : IsToKeyID script = some keyID) :
    keyID.length = 20 ∧ script = [OP_DUP, OP_HASH160, 20] ++ keyID ++ [OP_EQUALVERIFY, OP_CHECKSIG] := by
  unfold IsToKeyID at h
  split_ifs at h with hform
  cases h
  obtain ⟨hlen, h0, h1, h2, h23, h24⟩ := hform
  refine ⟨by simp [hlen], eq_frame (take_eq_of_getD _ (by simp [hlen]) ?_)
    (drop_eq_of_getD _ _ (by simp [hlen]) ?_)⟩
  · intro i hi
    simp only [List.length_cons, List.length_nil] at hi
    interval_cases i
    · exact h0
    · exact h1
    · exact h2
  · intro i hi
    simp only [List.length_cons, List.length_nil] at hi
    interval_cases i
    · exact h23
    · exact h24

theorem IsToScriptID_eq_some {script scriptID : CScript} (h : IsToScriptID script = some scriptID) :
    scriptID.length = 20 ∧ script = [OP_HASH160, 20] ++ scriptID ++ [OP_EQUAL] := by
  unfold IsToScriptID at h
  split_ifs at h with hform
  cases h
  obtain ⟨hlen, h0, h1, h22⟩ := hform
  refine ⟨by simp [hlen], eq_frame (take_eq_of_getD _ (by simp [hlen]) ?_)
    (drop_eq_of_getD _ _ (by simp [hlen]) ?_)⟩
  · intro i hi
    simp only [List.length_cons, List.length_nil] at hi
    interval_cases i
    · exact h0
    · exact h1
  · intro i hi
    simp only [List.length_cons, List.length_nil] at hi
    interval_cases i
    exact h22

section Keys

variable {Pt : Type} {ec : EcPubkey Pt}

theorem CPubKey.size_eq_GetLen (key : CPubKey) : key.size = CPubKey.GetLen (key.vch.getD 0 0) := by
  rcases key with ⟨_ | ⟨b, rest⟩⟩
  · rfl
  · rfl

theorem CPubKey.Set_of_length {bytes : List UInt8} (hlen : bytes.length = CPubKey.GetLen (bytes.getD 0 0))
    (hpos : 0 < bytes.length) : CPubKey.Set bytes = ⟨bytes⟩ := by
  cases bytes with
  | nil => cases hpos
  | cons b rest =>
    simp only [List.getD_cons_zero] at hlen
    have hne : CPubKey.GetLen b ≠ 0 := by
      rw [← hlen]
      simp
    simp only [CPubKey.Set, if_pos (And.intro hne hlen.symm)]

theorem IsToPubKey_eq_some {script : CScript} {pubkey : CPubKey} (h : IsToPubKey ec script = some pubkey) :
    (pubkey.vch.length = 33 ∧ (pubkey.vch.getD 0 0 = 0x02 ∨ pubkey.vch.getD 0 0 = 0x03) ∧
        script = [33] ++ pubkey.vch ++ [OP_CHECKSIG]) ∨
      (pubkey.vch.length = 65 ∧ pubkey.vch.getD 0 0 = 0x04 ∧ (ec.ec_pubkey_parse pubkey.vch).isSome ∧
        script = [65] ++ pubkey.vch ++ [OP_CHECKSIG]) := by
  unfold IsToPubKey at h
  dsimp only at h
  split_ifs at h with h35 h67 hvalid
  · cases h
    obtain ⟨hlen, h0, h34, h1⟩ := h35
    have hkey : ((script.drop 1).take 33).getD 0 0 = script.getD 1 0 := by
      rw [List.getD_eq_getElem _ _ (by simp [hlen]), List.getD_eq_getElem _ _ (by simp [hlen])]
      simp
    have hset : CPubKey.Set ((script.drop 1).take 33) = ⟨(script.drop 1).take 33⟩ := by
      apply CPubKey.Set_of_length _ (by simp [hlen])
      rw [hkey]
      rcases h1 with h1 | h1 <;> rw [h1] <;> simp [hlen, CPubKey.GetLen]
    rw [hset]
    refine .inl ⟨by simp [hlen], by rwa [hkey], eq_frame (take_eq_of_getD _ (by simp [hlen]) ?_)
      (drop_eq_of_getD _ _ (by simp [hlen]) ?_)⟩
    · intro i hi
      simp only [List.length_cons, List.length_nil] at hi
      interval_cases i
      exact h0
    · intro i hi
      simp only [List.length_cons, List.length_nil] at hi
      interval_cases i
      exact h34
  · obtain ⟨hlen, h0, h66, h1⟩ := h67
    have hkey : ((script.drop 1).take 65).getD 0 0 = script.getD 1 0 := by
      rw [List.getD_eq_getElem _ _ (by simp [hlen]), List.getD_eq_getElem _ _ (by simp [hlen])]
      simp
    have hset : CPubKey.Set ((script.drop 1).take 65) = ⟨(script.drop 1).take 65⟩ := by
      apply CPubKey.Set_of_length _ (by simp [hlen])
      rw [hkey, h1]
      simp [hlen, CPubKey.GetLen]
    rw [hset] at h hvalid
    cases h
    have hparse : (ec.ec_pubkey_parse ((script.drop 1).take 65)).isSome := by
      have hsize : CPubKey.size ⟨(script.drop 1).take 65⟩ = 65 := by
        rw [CPubKey.size_eq_GetLen]
        show CPubKey.GetLen (((script.drop 1).take 65).getD 0 0) = 65
        rw [hkey, h1]
        rfl
      simp only [EcPubkey.IsFullyValid, Bool.and_eq_true, hsize] at hvalid
      rw [List.take_take, Nat.min_self] at hvalid
      exact hvalid.2
    refine .inr ⟨by simp [hlen], by rwa [hkey], hparse, eq_frame (take_eq_of_getD _ (by simp [hlen]) ?_)
      (drop_eq_of_getD _ _ (by simp [hlen]) ?_)⟩
    · intro i hi
      simp only [List.length_cons, List.length_nil] at hi
      interval_cases i
      exact h0
    · intro i hi
      simp only [List.length_cons, List.length_nil] at hi
      interval_cases i
      exact h66

theorem and_one_cases (b : UInt8) : b &&& 0x01 = 0 ∨ b &&& 0x01 = 1 := by
  have hlt : (b &&& 0x01).toNat ≤ 1 := by
    rw [UInt8.toNat_and]
    exact Nat.and_le_right
  rcases Nat.le_one_iff_eq_zero_or_eq_one.mp hlt with h | h
  · exact .inl (UInt8.toNat_inj.mp h)
  · exact .inr (UInt8.toNat_inj.mp h)

theorem DecompressScript_uncompressed (hec : ec.Lawful) {key : List UInt8} (hlen : key.length = 65)
    (hfirst : key.getD 0 0 = 0x04) (hparse : (ec.ec_pubkey_parse key).isSome) (old : CScript) :
    DecompressScript ec old (0x04 ||| (key.getD 64 0 &&& 0x01)).toNat ((key.drop 1).take 32) =
      .ok (true, [65] ++ key ++ [OP_CHECKSIG]) := by
  obtain ⟨P, hP⟩ := Option.isSome_iff_exists.mp hparse
  have hhead : key.head? = some 4 := by
    rw [List.head?_eq_getElem?, List.getElem?_eq_getElem (by omega), ← List.getD_eq_getElem _ 0, hfirst]
  have hcomp := hec.parse_compressed key P hlen hhead hP
  have hkey : CPubKey.Set (ec.ec_pubkey_serialize_uncompressed P) = ⟨key⟩ := by
    rw [hec.serialize_parse key P hhead hP]
    exact CPubKey.Set_of_length (by rw [hfirst, hlen]; rfl) (by omega)
  have hbody : ((key.drop 1).take 32).take 32 = (key.drop 1).take 32 := by
    rw [List.take_take, Nat.min_self]
  have hsize : CPubKey.size ⟨key⟩ = 65 := by
    rw [CPubKey.size_eq_GetLen]
    show CPubKey.GetLen (key.getD 0 0) = 65
    rw [hfirst]
    rfl
  have hdecompress : ∀ parity : UInt8, (parity = 0 ∨ parity = 1) →
      ec.ec_pubkey_parse ((0x02 ||| parity) :: (key.drop 1).take 32) = some P →
      (CPubKey.Set ((0x02 ||| parity) :: (key.drop 1).take 32)).Decompress ec = some ⟨key⟩ := by
    intro parity hparity hparse'
    have hset : CPubKey.Set ((0x02 ||| parity) :: (key.drop 1).take 32) =
        ⟨(0x02 ||| parity) :: (key.drop 1).take 32⟩ := by
      apply CPubKey.Set_of_length _ (by simp)
      rcases hparity with rfl | rfl <;> simp [hlen] <;> rfl
    have hsize' : CPubKey.size ⟨(0x02 ||| parity) :: (key.drop 1).take 32⟩ = 33 := by
      rw [CPubKey.size_eq_GetLen]
      rcases hparity with rfl | rfl <;> rfl
    have htake : ((0x02 ||| parity) :: (key.drop 1).take 32).take 33 =
        (0x02 ||| parity) :: (key.drop 1).take 32 := List.take_of_length_le (by simp [hlen])
    have hvalid : CPubKey.IsValid ⟨(0x02 ||| parity) :: (key.drop 1).take 32⟩ = true := by
      rw [CPubKey.IsValid, hsize']
      decide
    rw [hset]
    unfold CPubKey.Decompress
    simp only [hvalid, Bool.not_true, Bool.false_eq_true, if_false, hsize', htake, hparse', hkey]
  have hnsize : ((0x04 ||| (key.getD 64 0 &&& 0x01)).toNat = 4 ∨
      (0x04 ||| (key.getD 64 0 &&& 0x01)).toNat = 5) ∧
      UInt8.ofNat ((0x04 ||| (key.getD 64 0 &&& 0x01)).toNat - 2) = 0x02 ||| (key.getD 64 0 &&& 0x01) := by
    rcases and_one_cases (key.getD 64 0) with hp | hp <;> rw [hp] <;> decide
  obtain ⟨h45, hfirst'⟩ := hnsize
  rw [DecompressScript, if_neg (by omega), if_neg (by omega), if_neg (by omega), if_pos h45]
  dsimp only
  rw [hfirst', hbody, hdecompress _ (and_one_cases _) hcomp]
  simp only [hsize, ne_eq, not_true_eq_false, if_false, List.take_of_length_le (le_of_eq hlen)]

/-- `DecompressScript` rebuilds every script that `CompressScript` shortens,
from the first byte as its size and the bytes after it. -/
theorem DecompressScript_CompressScript (hec : ec.Lawful) {script compr : CScript}
    (h : CompressScript ec script = some compr) :
    ∃ nSize body, compr = UInt8.ofNat nSize :: body ∧ nSize < nSpecialScripts ∧
      body.length = GetSpecialScriptSize nSize ∧
      ∀ old, DecompressScript ec old nSize body = .ok (true, script) := by
  unfold CompressScript at h
  cases hkey : IsToKeyID script with
  | some keyID =>
    rw [hkey] at h
    cases h
    obtain ⟨hlen, rfl⟩ := IsToKeyID_eq_some hkey
    refine ⟨0, keyID, rfl, by decide, by rw [hlen]; rfl, fun old => ?_⟩
    simp [DecompressScript, List.take_of_length_le (le_of_eq hlen)]
  | none =>
    rw [hkey] at h
    cases hsid : IsToScriptID script with
    | some scriptID =>
      rw [hsid] at h
      cases h
      obtain ⟨hlen, rfl⟩ := IsToScriptID_eq_some hsid
      refine ⟨1, scriptID, rfl, by decide, by rw [hlen]; rfl, fun old => ?_⟩
      simp [DecompressScript, List.take_of_length_le (le_of_eq hlen)]
    | none =>
      rw [hsid] at h
      cases hpk : IsToPubKey ec script with
      | none =>
        rw [hpk] at h
        cases h
      | some pubkey =>
        rw [hpk] at h
        rcases IsToPubKey_eq_some hpk with ⟨hlen, hfirst, rfl⟩ | ⟨hlen, hfirst, hparse, rfl⟩
        · -- a compressed key is kept whole, its prefix as the size
          dsimp only at h
          rw [if_pos hfirst] at h
          cases h
          rcases pubkey with ⟨_ | ⟨b, rest⟩⟩
          · cases hlen
          simp only [List.getD_cons_zero] at hfirst ⊢
          have hrest : rest.length = 32 := by simpa using hlen
          refine ⟨b.toNat, (rest.drop 0).take 32, by simp, ?_, ?_, fun old => ?_⟩
          · rcases hfirst with rfl | rfl <;> decide
          · rcases hfirst with rfl | rfl <;> simp [hrest] <;> rfl
          · rcases hfirst with rfl | rfl <;>
              simp [DecompressScript, List.take_of_length_le (le_of_eq hrest)]
        · -- an uncompressed key is kept as `x` and the parity of `y`
          dsimp only at h
          rw [if_neg (by rw [hfirst]; decide), if_pos hfirst] at h
          cases h
          refine ⟨(0x04 ||| (pubkey.vch.getD 64 0 &&& 0x01)).toNat, (pubkey.vch.drop 1).take 32,
            by rw [UInt8.ofNat_toNat], ?_, ?_, DecompressScript_uncompressed hec hlen hfirst hparse⟩
          · rcases and_one_cases (pubkey.vch.getD 64 0) with hp | hp <;> rw [hp] <;> decide
          · rcases and_one_cases (pubkey.vch.getD 64 0) with hp | hp <;> rw [hp] <;> simp [hlen] <;> rfl

theorem ScriptCompression_inverts (hec : ec.Lawful) {script : CScript}
    (hsize : script.length ≤ MAX_SCRIPT_SIZE) (old : CScript) (rest : List UInt8) :
    ScriptCompression.Unser ec old (ScriptCompression.Ser ec script ++ rest) = .ok (script, rest) := by
  unfold ScriptCompression.Ser
  cases hc : CompressScript ec script with
  | some compr =>
    obtain ⟨nSize, body, rfl, hn, hlen, hdec⟩ := DecompressScript_CompressScript hec hc
    have hsmall : nSize < 2 ^ 32 := by
      unfold nSpecialScripts at hn
      omega
    have hbytes : (UInt8.ofNat nSize :: body) ++ rest = WriteVarInt nSize ++ (body ++ rest) := by
      rw [WriteVarInt_of_le (by unfold nSpecialScripts at hn; omega)]
      rfl
    dsimp only
    rw [hbytes]
    unfold ScriptCompression.Unser
    rw [bind_apply_of_ok (ReadVarInt_WriteVarInt hsmall _), if_pos hn, ← hlen,
      bind_apply_of_ok (readBytes_append _ body rest), hdec old]
    rfl
  | none =>
    have hnsize : (script.length + nSpecialScripts) % 2 ^ 32 = script.length + nSpecialScripts := by
      unfold nSpecialScripts
      unfold MAX_SCRIPT_SIZE at hsize
      omega
    dsimp only
    rw [hnsize, List.append_assoc]
    unfold ScriptCompression.Unser
    rw [bind_apply_of_ok (ReadVarInt_WriteVarInt (by unfold nSpecialScripts; unfold MAX_SCRIPT_SIZE at hsize; omega) _),
      if_neg (by omega), Nat.add_sub_cancel, if_neg (by omega)]
    exact readBytes_append _ script rest

theorem CompressScript_length {script compr : CScript} (h : CompressScript ec script = some compr) :
    script.length ≤ 67 := by
  unfold CompressScript at h
  cases hkey : IsToKeyID script with
  | some keyID =>
    obtain ⟨hlen, rfl⟩ := IsToKeyID_eq_some hkey
    simp [hlen]
  | none =>
    cases hsid : IsToScriptID script with
    | some scriptID =>
      obtain ⟨hlen, rfl⟩ := IsToScriptID_eq_some hsid
      simp [hlen]
    | none =>
      cases hpk : IsToPubKey ec script with
      | none =>
        rw [hkey, hsid, hpk] at h
        cases h
      | some pubkey =>
        rcases IsToPubKey_eq_some hpk with ⟨hlen, -, rfl⟩ | ⟨hlen, -, -, rfl⟩ <;> simp [hlen]

/-- A script longer than `MAX_SCRIPT_SIZE` is written whole, and read back as
`OP_RETURN` after the script read into, its bytes skipped. -/
theorem ScriptCompression_oversized {script : CScript} (hsize : MAX_SCRIPT_SIZE < script.length)
    (hfit : script.length + nSpecialScripts < 2 ^ 32) (old : CScript) (rest : List UInt8) :
    ScriptCompression.Unser ec old (ScriptCompression.Ser ec script ++ rest) =
      .ok (old ++ [OP_RETURN], rest) := by
  have hnone : CompressScript ec script = none := by
    cases hc : CompressScript ec script with
    | none => rfl
    | some compr =>
      have := CompressScript_length hc
      unfold MAX_SCRIPT_SIZE at hsize
      omega
  unfold ScriptCompression.Ser
  rw [hnone]
  dsimp only
  rw [Nat.mod_eq_of_lt hfit, List.append_assoc]
  unfold ScriptCompression.Unser
  rw [bind_apply_of_ok (ReadVarInt_WriteVarInt hfit _), if_neg (by omega), Nat.add_sub_cancel,
    if_pos hsize, bind_apply_of_ok (readBytes_append _ script rest)]
  rfl

/-- A script one byte over the limit, read into an empty script. -/
theorem ScriptCompression_oversized_limit :
    let script : CScript := List.replicate (MAX_SCRIPT_SIZE + 1) OP_RETURN
    MAX_SCRIPT_SIZE < script.length ∧ script.length + nSpecialScripts < 2 ^ 32 ∧
      ScriptCompression.Unser noPoints [] (ScriptCompression.Ser noPoints script ++ []) =
        .ok ([] ++ [OP_RETURN], []) := by
  have hsize : MAX_SCRIPT_SIZE < (List.replicate (MAX_SCRIPT_SIZE + 1) OP_RETURN).length := by
    rw [List.length_replicate]
    exact Nat.lt_succ_self _
  have hfit : (List.replicate (MAX_SCRIPT_SIZE + 1) OP_RETURN).length + nSpecialScripts < 2 ^ 32 := by
    rw [List.length_replicate]
    decide
  exact ⟨hsize, hfit, ScriptCompression_oversized hsize hfit [] []⟩

end Keys

/-!
## Outputs
-/

/-- `AmountCompression::Ser`; `none` is a failed assertion: `GetAmount`'s, or
`CompressAmount`'s, or outside Elements mode `assert(val.IsExplicit())`. -/
def AmountCompression.Ser (g : Globals) (val : CConfidentialValue) : Option (List UInt8) :=
  if g.g_con_elementsmode then
    if val.IsExplicit then do
      let amount ← val.GetAmount g
      let compressed ← CompressAmount amount.toUInt64
      pure (ser_writedata8 0 ++ WriteVarInt compressed.toNat)
    else some (ser_writedata8 1 ++ val.Serialize)
  else if !val.IsExplicit then none
  else do
    let amount ← val.GetAmount g
    let compressed ← CompressAmount amount.toUInt64
    pure (WriteVarInt compressed.toNat)

/-- `AmountCompression::Unser` into `val`: a decompressed amount is assigned
through `CConfidentialValue(CAmount)`. -/
def AmountCompression.Unser (g : Globals) (val : CConfidentialValue) : Decoder CConfidentialValue :=
  if g.g_con_elementsmode then do
    let type ← ser_readdata8
    if type = 0 then do
      let v ← ReadVarInt 64
      Pure.pure (CConfidentialValue.SetToAmount (DecompressAmount (UInt64.ofNat v)).toInt64)
    else CConfidentialCommitment.Unserialize
  else do
    let v ← ReadVarInt 64
    let _ := val
    Pure.pure (CConfidentialValue.SetToAmount (DecompressAmount (UInt64.ofNat v)).toInt64)

def AssetCompression.Ser (g : Globals) (val : CConfidentialAsset) : List UInt8 :=
  if g.g_con_elementsmode then val.Serialize else []

def AssetCompression.Unser (g : Globals) (val : CConfidentialAsset) : Decoder CConfidentialAsset :=
  if g.g_con_elementsmode then CConfidentialCommitment.Unserialize else Pure.pure val

/-!
### The output round trip
-/

theorem WriteBE64_ReadBE64 {body : List UInt8} (hlen : body.length = 8) :
    WriteBE64 (ReadBE64 body) = body := by
  unfold WriteBE64 ReadBE64
  rw [List.take_of_length_le (le_of_eq hlen)]
  have hlt : decodeLE body.reverse < 2 ^ 64 := by
    have := decodeLE_lt body.reverse
    rwa [List.length_reverse, hlen] at this
  have hcodec := encodeLE_decodeLE body.reverse
  rw [List.length_reverse, hlen] at hcodec
  rw [UInt64.toNat_ofNat', Nat.mod_eq_of_lt hlt, hcodec, List.reverse_reverse]

theorem toInt_toInt64_of_nonneg {x : UInt64} (h : 0 ≤ x.toInt64.toInt) :
    x.toInt64.toInt = x.toNat := by
  have hbv : x.toInt64.toInt = x.toBitVec.toInt := rfl
  have hlt := x.toBitVec.isLt
  rw [hbv, BitVec.toInt_eq_toNat_cond] at h ⊢
  rw [UInt64.toNat_toBitVec] at h hlt ⊢
  by_cases hsign : 2 * x.toNat < 2 ^ 64
  · rw [if_pos hsign]
  · rw [if_neg hsign] at h
    omega

theorem GetAmount_eq_some {g : Globals} (hg : g.g_con_elementsmode = true) {val : CConfidentialValue}
    {amount : CAmount} (h : val.GetAmount g = some amount) :
    val.IsExplicit = true ∧ amount = (ReadBE64 (val.vchCommitment.drop 1)).toInt64 := by
  unfold CConfidentialValue.GetAmount at h
  simp only [hg, Bool.not_true, Bool.false_and, Bool.false_eq_true, if_false] at h
  split_ifs at h with hexplicit
  cases h
  exact ⟨hexplicit, rfl⟩

section Values

variable {g : Globals} (hg : g.g_con_elementsmode = true)
include hg

theorem AmountCompression_explicit {val : CConfidentialValue} {amount : CAmount}
    (hamount : val.GetAmount g = some amount) (hrange : MoneyRange amount = true) (old : CConfidentialValue) :
    ∃ bytes, AmountCompression.Ser g val = some bytes ∧
      ∀ rest, AmountCompression.Unser g old (bytes ++ rest) = .ok (val, rest) := by
  obtain ⟨hexplicit, rfl⟩ := GetAmount_eq_some hg hamount
  obtain ⟨_ | ⟨version, body⟩⟩ := val
  · simp [CConfidentialCommitment.IsExplicit] at hexplicit
  have hbody : body.length = 8 ∧ version = 1 := by
    simpa [CConfidentialCommitment.IsExplicit] using hexplicit
  obtain ⟨hlen, rfl⟩ := hbody
  simp only [List.drop_succ_cons, List.drop_zero] at hamount hrange ⊢
  have hnat : (ReadBE64 body).toNat ≤ 2100000000000000 := by
    rw [MoneyRange_iff_toInt] at hrange
    have := toInt_toInt64_of_nonneg hrange.1
    omega
  obtain ⟨c, hc, hdec⟩ := DecompressAmount_CompressAmount hnat
  refine ⟨ser_writedata8 0 ++ WriteVarInt c.toNat, ?_, fun rest => ?_⟩
  · simp [AmountCompression.Ser, hg, hexplicit, hamount, UInt64.toUInt64_toInt64, hc]
  · have hc64 : c.toNat < 2 ^ 64 := UInt64.toNat_lt c
    unfold AmountCompression.Unser
    rw [if_pos hg]
    show (ser_readdata8 >>= _) (0 :: (WriteVarInt c.toNat ++ rest)) = _
    rw [bind_apply_of_ok (ser_readdata8_cons 0 _), if_pos rfl,
      bind_apply_of_ok (ReadVarInt_WriteVarInt hc64 rest), UInt64.ofNat_toNat, hdec]
    show Except.ok (CConfidentialValue.SetToAmount (ReadBE64 body).toInt64, rest) = _
    rw [CConfidentialValue.SetToAmount, Int64.toInt64_toUInt64, WriteBE64_ReadBE64 hlen]

theorem AmountCompression_commitment {val : CConfidentialValue}
    (hval : val.IsNull = true ∨ val.IsCommitment = true) (old : CConfidentialValue) :
    AmountCompression.Ser g val = some (ser_writedata8 1 ++ val.Serialize) ∧
      ∀ rest, AmountCompression.Unser g old (ser_writedata8 1 ++ val.Serialize ++ rest) = .ok (val, rest) := by
  have hnot : val.IsExplicit = false := by
    rcases hval with h | h
    · simp only [CConfidentialCommitment.IsNull, List.isEmpty_iff] at h
      simp [CConfidentialCommitment.IsExplicit, h]
    · simp only [CConfidentialCommitment.IsCommitment, Bool.and_eq_true, beq_iff_eq] at h
      simp [CConfidentialCommitment.IsExplicit, h.1, CConfidentialCommitment.nCommittedSize]
  have hvalid : val.IsValid = true := by
    rcases hval with h | h <;> simp [CConfidentialCommitment.IsValid, h]
  refine ⟨by simp [AmountCompression.Ser, hg, hnot], fun rest => ?_⟩
  unfold AmountCompression.Unser
  rw [if_pos hg]
  show (ser_readdata8 >>= _) (1 :: (val.Serialize ++ rest)) = _
  rw [bind_apply_of_ok (ser_readdata8_cons 1 _), if_neg (by decide)]
  exact CConfidentialCommitment.Unserialize_inverts CConfidentialValue_paramsOk val hvalid rest

theorem AmountCompression_inverts {val : CConfidentialValue}
    (hval : val.IsNull = true ∨ val.IsCommitment = true ∨
      ∃ amount, val.GetAmount g = some amount ∧ MoneyRange amount = true)
    (old : CConfidentialValue) :
    ∃ bytes, AmountCompression.Ser g val = some bytes ∧
      ∀ rest, AmountCompression.Unser g old (bytes ++ rest) = .ok (val, rest) := by
  rcases hval with hnull | hcommit | ⟨amount, hamount, hrange⟩
  · exact ⟨_, (AmountCompression_commitment hg (.inl hnull) old).1,
      (AmountCompression_commitment hg (.inl hnull) old).2⟩
  · exact ⟨_, (AmountCompression_commitment hg (.inr hcommit) old).1,
      (AmountCompression_commitment hg (.inr hcommit) old).2⟩
  · exact AmountCompression_explicit hg hamount hrange old

theorem AssetCompression_inverts {val : CConfidentialAsset} (hval : val.IsValid = true)
    (old : CConfidentialAsset) (rest : List UInt8) :
    AssetCompression.Unser g old (AssetCompression.Ser g val ++ rest) = .ok (val, rest) := by
  simp only [AssetCompression.Ser, AssetCompression.Unser, hg, if_true]
  exact CConfidentialCommitment.Unserialize_inverts CConfidentialAsset_paramsOk val hval rest

end Values

section Outputs

variable {Pt : Type} (g : Globals) (ec : EcPubkey Pt)

/-- `TxOutCompression`, writing: value, asset, script. -/
def TxOutCompression.Ser (txout : CTxOut) : Option (List UInt8) := do
  let value ← AmountCompression.Ser g txout.nValue
  pure (value ++ AssetCompression.Ser g txout.nAsset ++ ScriptCompression.Ser ec txout.scriptPubKey)

/-- `TxOutCompression`, reading into `obj`: the nonce is not read. -/
def TxOutCompression.Unser (obj : CTxOut) : Decoder CTxOut := do
  let nValue ← AmountCompression.Unser g obj.nValue
  let nAsset ← AssetCompression.Unser g obj.nAsset
  let scriptPubKey ← ScriptCompression.Unser ec obj.scriptPubKey
  Pure.pure { obj with nValue := nValue, nAsset := nAsset, scriptPubKey := scriptPubKey }

/-- The outputs whose compressed form reads back: a value that is null, a
commitment or an explicit amount of the money range, an asset that is null,
explicit or a commitment, and a script of at most `MAX_SCRIPT_SIZE` bytes. -/
structure CTxOut.Compressible (g : Globals) (txout : CTxOut) : Prop where
  value : txout.nValue.IsNull = true ∨ txout.nValue.IsCommitment = true ∨
    ∃ amount, txout.nValue.GetAmount g = some amount ∧ MoneyRange amount = true
  asset : txout.nAsset.IsValid = true
  script : txout.scriptPubKey.length ≤ MAX_SCRIPT_SIZE

variable {g ec}

/-- `TxOutCompression` reads back the value, the asset and the script of an
output into the object it reads into, whose nonce it keeps. -/
theorem TxOutCompression_inverts (hg : g.g_con_elementsmode = true) (hec : ec.Lawful)
    {txout : CTxOut} (h : txout.Compressible g) (obj : CTxOut) :
    ∃ bytes, TxOutCompression.Ser g ec txout = some bytes ∧ ∀ rest,
      TxOutCompression.Unser g ec obj (bytes ++ rest) =
        .ok ({ obj with nValue := txout.nValue, nAsset := txout.nAsset,
                        scriptPubKey := txout.scriptPubKey }, rest) := by
  obtain ⟨vbytes, hser, hread⟩ := AmountCompression_inverts hg h.value obj.nValue
  refine ⟨vbytes ++ AssetCompression.Ser g txout.nAsset ++ ScriptCompression.Ser ec txout.scriptPubKey,
    by simp [TxOutCompression.Ser, hser], fun rest => ?_⟩
  unfold TxOutCompression.Unser
  rw [List.append_assoc, List.append_assoc, bind_apply_of_ok (hread _),
    bind_apply_of_ok (AssetCompression_inverts hg h.asset _ _),
    bind_apply_of_ok (ScriptCompression_inverts hec h.script _ _)]
  rfl

/-- In Elements mode the compressed form of an output reads back into
`CTxOut()` as the output with its nonce null; the amount and the script
layers undo their compression. -/
theorem TxOutCompression_round_trip (hg : g.g_con_elementsmode = true) (hec : ec.Lawful) :
    (∀ txout : CTxOut, txout.Compressible g ->
      ∃ bytes, TxOutCompression.Ser g ec txout = some bytes ∧ ∀ rest,
        TxOutCompression.Unser g ec (CTxOut.empty g) (bytes ++ rest) =
          .ok ({ txout with nNonce := ⟨[]⟩ }, rest)) ∧
      (∀ n : UInt64, n.toNat ≤ 2100000000000000 ->
        ∃ c, CompressAmount n = some c ∧ DecompressAmount c = n) ∧
      (∀ script compr : CScript, CompressScript ec script = some compr ->
        ∃ nSize body, compr = UInt8.ofNat nSize :: body ∧
          ∀ old, DecompressScript ec old nSize body = .ok (true, script)) := by
  refine ⟨fun txout h => ?_, fun n hn => DecompressAmount_CompressAmount hn, fun script compr h => ?_⟩
  · obtain ⟨bytes, hser, hread⟩ := TxOutCompression_inverts hg hec h (CTxOut.empty g)
    refine ⟨bytes, hser, fun rest => ?_⟩
    rw [hread rest]
    -- `CTxOut()` has a null nonce, and every other field is read
    cases txout
    rfl
  · obtain ⟨nSize, body, hcompr, -, -, hdec⟩ := DecompressScript_CompressScript hec h
    exact ⟨nSize, body, hcompr, hdec⟩

theorem TxOutCompression_round_trip_noPoints :
    let g : Globals := ⟨false, false, true⟩
    g.g_con_elementsmode = true ∧ noPoints.Lawful ∧
      (∀ txout : CTxOut, txout.Compressible g ->
        ∃ bytes, TxOutCompression.Ser g noPoints txout = some bytes ∧ ∀ rest,
          TxOutCompression.Unser g noPoints (CTxOut.empty g) (bytes ++ rest) =
            .ok ({ txout with nNonce := ⟨[]⟩ }, rest)) ∧
        (∀ n : UInt64, n.toNat ≤ 2100000000000000 ->
          ∃ c, CompressAmount n = some c ∧ DecompressAmount c = n) ∧
        (∀ script compr : CScript, CompressScript noPoints script = some compr ->
          ∃ nSize body, compr = UInt8.ofNat nSize :: body ∧
            ∀ old, DecompressScript noPoints old nSize body = .ok (true, script)) :=
  ⟨rfl, noPoints_lawful, TxOutCompression_round_trip rfl noPoints_lawful⟩

end Outputs

/-!
## Coins

A coin of the database is the `VARINT` of `code = nHeight * 2 + fCoinBase`
and its compressed output; `nHeight` is a 31-bit field.
-/

section Coins

variable {Pt : Type} (g : Globals) (ec : EcPubkey Pt)

/-- `Coin::Serialize`; `none` is a failed assertion, `assert(!IsSpent())` or
one while writing the output. -/
def Coin.Serialize (coin : Coin) : Option (List UInt8) :=
  if coin.IsSpent g then none
  else do
    let code := (coin.nHeight * 2 + (if coin.fCoinBase then 1 else 0)) % 2 ^ 32
    let out ← TxOutCompression.Ser g ec coin.out
    pure (WriteVarInt code ++ out)

/-- `Coin::Unserialize` into `coin`. -/
def Coin.Unserialize (coin : Coin) : Decoder Coin := do
  let code ← ReadVarInt 32
  let out ← TxOutCompression.Unser g ec coin.out
  Pure.pure { coin with nHeight := code >>> 1, fCoinBase := code &&& 1 != 0, out := out }

variable {g ec}

/-- A coin of the database reads back as it was written, with the nonce of its
output null: the height and the coinbase flag come back from `code`, and the
output from its compressed form. -/
theorem Coin.Unserialize_Serialize (hg : g.g_con_elementsmode = true) (hec : ec.Lawful) {coin : Coin}
    (hspent : coin.IsSpent g = false) (hheight : coin.nHeight < 2 ^ 31) (hout : coin.out.Compressible g) :
    ∃ bytes, coin.Serialize g ec = some bytes ∧ ∀ rest,
      Coin.Unserialize g ec (Coin.empty g) (bytes ++ rest) =
        .ok ({ coin with out := { coin.out with nNonce := ⟨[]⟩ } }, rest) := by
  obtain ⟨obytes, hser, hread⟩ := TxOutCompression_inverts hg hec hout (Coin.empty g).out
  have hcode : (coin.nHeight * 2 + (if coin.fCoinBase then 1 else 0)) % 2 ^ 32 =
      coin.nHeight * 2 + (if coin.fCoinBase then 1 else 0) := by
    apply Nat.mod_eq_of_lt
    split <;> omega
  have hheight' : (coin.nHeight * 2 + (if coin.fCoinBase then 1 else 0)) >>> 1 = coin.nHeight := by
    rw [Nat.shiftRight_eq_div_pow]
    split <;> omega
  have hflag : ((coin.nHeight * 2 + (if coin.fCoinBase then 1 else 0)) &&& 1 != 0) = coin.fCoinBase := by
    rw [Nat.and_one_is_mod]
    cases coin.fCoinBase <;> simp
  refine ⟨WriteVarInt (coin.nHeight * 2 + (if coin.fCoinBase then 1 else 0)) ++ obytes, ?_, fun rest => ?_⟩
  · simp [Coin.Serialize, hspent, hser]
    rw [show (4294967296 : Nat) = 2 ^ 32 from rfl, hcode]
  · unfold Coin.Unserialize
    rw [List.append_assoc, bind_apply_of_ok (ReadVarInt_WriteVarInt (by split <;> omega) _),
      bind_apply_of_ok (hread rest), hheight', hflag]
    rfl

end Coins

/-- A coin of one base unit of an explicit asset, paying to `OP_RETURN`. -/
theorem Coin.Unserialize_Serialize_explicit :
    let g : Globals := ⟨false, false, true⟩
    let coin : Coin := ⟨⟨⟨1 :: List.replicate 32 0⟩, CConfidentialValue.SetToAmount 1, ⟨[]⟩, [OP_RETURN]⟩,
      true, 7⟩
    g.g_con_elementsmode = true ∧ noPoints.Lawful ∧ coin.IsSpent g = false ∧ coin.nHeight < 2 ^ 31 ∧
      coin.out.Compressible g ∧
      ∃ bytes, coin.Serialize g noPoints = some bytes ∧ ∀ rest,
        Coin.Unserialize g noPoints (Coin.empty g) (bytes ++ rest) =
          .ok ({ coin with out := { coin.out with nNonce := ⟨[]⟩ } }, rest) := by
  intro g coin
  have hout : coin.out.Compressible g :=
    ⟨.inr (.inr ⟨1, by decide, by decide⟩), by decide, by decide⟩
  exact ⟨rfl, noPoints_lawful, by decide, by decide, hout,
    Coin.Unserialize_Serialize rfl noPoints_lawful (by decide) (by decide) hout⟩

end Elements
