import Elements.Codec.Decoder

/-!
# Little-endian integers

Fixed-width little-endian encodings of natural numbers: `encodeLE w n` writes
the `w` low base-256 digits of `n`, least significant first, and `decodeLE`
reads a digit string back.  A machine integer of `w` bytes is the special case
`n < 256 ^ w`, where the encoding loses nothing.
-/

namespace Codec

/-- The `w` least significant base-256 digits of `n`, least significant first. -/
def encodeLE : Nat -> Nat -> List UInt8
  | 0, _ => []
  | w + 1, n => UInt8.ofNat (n % 256) :: encodeLE w (n / 256)

/-- The number whose little-endian digits are `bytes`. -/
def decodeLE : List UInt8 -> Nat
  | [] => 0
  | b :: bytes => b.toNat + 256 * decodeLE bytes

@[simp] theorem length_encodeLE (w n : Nat) : (encodeLE w n).length = w := by
  induction w generalizing n with
  | zero => rfl
  | succ w ih => simp [encodeLE, ih]

theorem decodeLE_encodeLE (w n : Nat) : decodeLE (encodeLE w n) = n % 256 ^ w := by
  induction w generalizing n with
  | zero => simp [encodeLE, decodeLE, Nat.mod_one]
  | succ w ih =>
      have hdigit : (UInt8.ofNat (n % 256)).toNat = n % 256 := by
        rw [UInt8.toNat_ofNat']
        omega
      show (UInt8.ofNat (n % 256)).toNat + 256 * decodeLE (encodeLE w (n / 256)) = _
      rw [hdigit, ih, Nat.pow_succ, Nat.mul_comm (256 ^ w) 256, Nat.mod_mul]

theorem decodeLE_lt (bytes : List UInt8) : decodeLE bytes < 256 ^ bytes.length := by
  induction bytes with
  | nil => simp [decodeLE]
  | cons b bytes ih =>
      have hb : b.toNat < 256 := UInt8.toNat_lt b
      show b.toNat + 256 * decodeLE bytes < 256 ^ (bytes.length + 1)
      rw [Nat.pow_succ]
      have hstep : 256 * decodeLE bytes + 256 ≤ 256 * 256 ^ bytes.length := by
        have := Nat.mul_le_mul_left 256 (Nat.succ_le_of_lt ih)
        omega
      calc b.toNat + 256 * decodeLE bytes
          < 256 * decodeLE bytes + 256 := by omega
        _ ≤ 256 * 256 ^ bytes.length := hstep
        _ = 256 ^ bytes.length * 256 := Nat.mul_comm _ _

theorem encodeLE_decodeLE (bytes : List UInt8) :
    encodeLE bytes.length (decodeLE bytes) = bytes := by
  induction bytes with
  | nil => rfl
  | cons b bytes ih =>
      have hb : b.toNat < 256 := UInt8.toNat_lt b
      have hlow : (b.toNat + 256 * decodeLE bytes) % 256 = b.toNat := by omega
      have hhigh : (b.toNat + 256 * decodeLE bytes) / 256 = decodeLE bytes := by omega
      show UInt8.ofNat ((b.toNat + 256 * decodeLE bytes) % 256) ::
          encodeLE bytes.length ((b.toNat + 256 * decodeLE bytes) / 256) = b :: bytes
      rw [hlow, hhigh, ih, UInt8.ofNat_toNat]

theorem decodeLE_append (xs ys : List UInt8) :
    decodeLE (xs ++ ys) = decodeLE xs + 256 ^ xs.length * decodeLE ys := by
  induction xs with
  | nil => simp [decodeLE]
  | cons b xs ih =>
      show b.toNat + 256 * decodeLE (xs ++ ys) = b.toNat + 256 * decodeLE xs + 256 ^ (xs.length + 1) * decodeLE ys
      rw [ih, Nat.pow_succ]
      ring

theorem decodeLE_eq_zero_iff (bytes : List UInt8) : decodeLE bytes = 0 ↔ ∀ b ∈ bytes, b = 0 := by
  induction bytes with
  | nil => simp [decodeLE]
  | cons b bytes ih =>
      show b.toNat + 256 * decodeLE bytes = 0 ↔ _
      rw [List.forall_mem_cons, ← ih, ← UInt8.toNat_inj]
      simp only [UInt8.toNat_zero]
      omega

theorem decodeLE_drop (bytes : List UInt8) (k : Nat) :
    decodeLE (bytes.drop k) = decodeLE bytes / 256 ^ k := by
  by_cases hk : k ≤ bytes.length
  · have hsplit := decodeLE_append (bytes.take k) (bytes.drop k)
    rw [List.take_append_drop, List.length_take_of_le hk] at hsplit
    have hlow : decodeLE (bytes.take k) < 256 ^ k := by
      have := decodeLE_lt (bytes.take k)
      rwa [List.length_take_of_le hk] at this
    rw [hsplit, Nat.add_mul_div_left _ _ (Nat.pow_pos (by norm_num : 0 < 256)),
      Nat.div_eq_of_lt hlow, Nat.zero_add]
  · -- every byte is dropped, and the number is below `256 ^ k`
    have hlt : decodeLE bytes < 256 ^ k :=
      Nat.lt_of_lt_of_le (decodeLE_lt bytes) (Nat.pow_le_pow_right (by norm_num) (by omega))
    rw [List.drop_of_length_le (by omega), Nat.div_eq_of_lt hlt]
    rfl

/-!
## Minimal encodings

The minimal little-endian encoding of a number has no zero byte on top: it is
the number's base-256 digits.  Dropping the zero bytes from the top of any
encoding leaves it.
-/

/-- The base-256 digits of `n`, least significant first, none of them a zero
on top. -/
def minimalLE (n : Nat) : List UInt8 := (Nat.digits 256 n).map UInt8.ofNat

theorem decodeLE_eq_ofDigits (bytes : List UInt8) :
    decodeLE bytes = Nat.ofDigits 256 (bytes.map UInt8.toNat) := by
  induction bytes with
  | nil => rfl
  | cons b bytes ih => rw [List.map_cons, Nat.ofDigits_cons, ← ih]; rfl

/-- The minimal encoding reads back as its number. -/
theorem decodeLE_minimalLE (n : Nat) : decodeLE (minimalLE n) = n := by
  rw [decodeLE_eq_ofDigits, minimalLE, List.map_map]
  conv_rhs => rw [← Nat.ofDigits_digits 256 n]
  congr 1
  conv_rhs => rw [← List.map_id (Nat.digits 256 n)]
  apply List.map_congr_left
  intro d hd
  have hlt : d < 256 := Nat.digits_lt_base (by norm_num) hd
  show (UInt8.ofNat d).toNat = d
  rw [UInt8.toNat_ofNat']
  omega

/-- An encoding whose top byte is not zero is the minimal one. -/
theorem minimalLE_decodeLE {bytes : List UInt8} (htop : bytes.getLast? ≠ some 0) :
    minimalLE (decodeLE bytes) = bytes := by
  have hdigits : ∀ d ∈ bytes.map UInt8.toNat, d < 256 := by
    intro d hd
    obtain ⟨b, -, rfl⟩ := List.mem_map.mp hd
    exact UInt8.toNat_lt b
  have hlast : ∀ (h : bytes.map UInt8.toNat ≠ []), (bytes.map UInt8.toNat).getLast h ≠ 0 := by
    intro h hzero
    have hne : bytes ≠ [] := by
      intro hnil
      exact h (by rw [hnil]; rfl)
    apply htop
    rw [List.getLast_map, ← UInt8.toNat_zero, UInt8.toNat_inj] at hzero
    rw [List.getLast?_eq_some_getLast hne, hzero]
  rw [minimalLE, decodeLE_eq_ofDigits, Nat.digits_ofDigits 256 (by norm_num) _ hdigits hlast,
    List.map_map]
  conv_rhs => rw [← List.map_id bytes]
  apply List.map_congr_left
  intro b _
  exact UInt8.ofNat_toNat

theorem decodeLE_append_zeros (bytes zeros : List UInt8) (hzeros : ∀ b ∈ zeros, b = 0) :
    decodeLE (bytes ++ zeros) = decodeLE bytes := by
  rw [decodeLE_append, (decodeLE_eq_zero_iff zeros).mpr hzeros, Nat.mul_zero, Nat.add_zero]

theorem dropTrailingZeros_eq_minimalLE (bytes : List UInt8) :
    (bytes.reverse.dropWhile (· == 0)).reverse = minimalLE (decodeLE bytes) := by
  have hsplit : bytes = (bytes.reverse.dropWhile (· == 0)).reverse ++
      (bytes.reverse.takeWhile (· == 0)).reverse := by
    rw [← List.reverse_append, List.takeWhile_append_dropWhile, List.reverse_reverse]
  have hzeros : ∀ b ∈ (bytes.reverse.takeWhile (· == 0)).reverse, b = 0 := by
    intro b hb
    simpa using List.mem_takeWhile_imp (List.mem_reverse.mp hb)
  have htop : (bytes.reverse.dropWhile (· == 0)).reverse.getLast? ≠ some 0 := by
    rw [List.getLast?_reverse]
    have hhead := List.head?_dropWhile_not (· == (0 : UInt8)) bytes.reverse
    intro h
    rw [h] at hhead
    simp at hhead
  conv_rhs => rw [hsplit, decodeLE_append_zeros _ _ hzeros]
  exact (minimalLE_decodeLE htop).symm

/-!
## Reading a fixed-width integer
-/

namespace Decoder

/-- Read a `w`-byte little-endian number. -/
def readLE (msg : String) (w : Nat) : Decoder Nat := do
  let bytes <- readBytes msg w
  Pure.pure (decodeLE bytes)

theorem readLE_inverts (msg : String) (w : Nat) :
    Inverts (fun n => n < 256 ^ w) (encodeLE w) (readLE msg w) := by
  intro n hn rest
  have hread := readBytes_append msg (encodeLE w n) rest
  rw [length_encodeLE] at hread
  show (readBytes msg w >>= fun bytes => Pure.pure (decodeLE bytes)) _ = _
  rw [bind_apply_of_ok hread, pure_apply, decodeLE_encodeLE, Nat.mod_eq_of_lt hn]

theorem readLE_sound (msg : String) (w : Nat) :
    Sound (fun n => n < 256 ^ w) (encodeLE w) (readLE msg w) := by
  intro bytes n rest h
  obtain ⟨xs, mid, hxs, h⟩ := bind_eq_ok h
  cases h
  obtain ⟨hbytes, hlen⟩ := readBytes_eq_ok hxs
  refine ⟨?_, ?_⟩
  · rw [← hlen]
    exact decodeLE_lt xs
  · rw [hbytes, ← hlen, encodeLE_decodeLE]

end Decoder

end Codec
