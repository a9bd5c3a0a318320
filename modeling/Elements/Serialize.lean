import Elements.Codec.LittleEndian

/-!
# Serialization primitives

The wire encodings of `serialize.h` and `uint256.h` that the block header and
transaction formats are built from: fixed-width little-endian integers, the
`CompactSize` length prefix with its canonicity and `MAX_SIZE` checks, byte
vectors (`std::vector<unsigned char>`, `prevector` and `CScript`), vectors of
byte vectors (witness stacks) and the fixed-size blobs `uint256` and `uint160`.

Every decoder is modelled on a `CDataStream`, whose reads throw
`CDataStream::read(): end of data` when the buffer runs out; each one comes
with the two round-trip facts of `Codec.Decoder`: it inverts its encoder on the
values the encoder is meant for, and what it accepts is exactly an encoding.
-/

namespace Elements

open Codec Codec.Decoder

/-- The exception text of a read past the end of a `CDataStream`. -/
def endOfData : String := "CDataStream::read(): end of data"

def nonCanonicalCompactSize : String := "non-canonical ReadCompactSize()"

def compactSizeTooLarge : String := "ReadCompactSize(): size too large"

/-- `MAX_SIZE`, the largest length a `CompactSize` prefix may announce. -/
def MAX_SIZE : Nat := 0x02000000

/-!
## Opaque blobs
-/

/-- A `base_blob`: `WIDTH` bytes, in the order they are stored and serialized. -/
structure BaseBlob (WIDTH : Nat) where
  data : List UInt8
  length_data : data.length = WIDTH
deriving DecidableEq, Repr

abbrev Uint256 := BaseBlob 32

abbrev Uint160 := BaseBlob 20

/-- The value of a default-constructed blob: all zero. -/
def BaseBlob.zero (WIDTH : Nat) : BaseBlob WIDTH :=
  ⟨List.replicate WIDTH 0, by simp⟩

def BaseBlob.IsNull {WIDTH : Nat} (h : BaseBlob WIDTH) : Bool :=
  h.data.all (fun b => b == 0)

def BaseBlob.Serialize {WIDTH : Nat} (h : BaseBlob WIDTH) : List UInt8 :=
  h.data

def BaseBlob.Unserialize (WIDTH : Nat) : Decoder (BaseBlob WIDTH) := do
  let bytes <- readBytes endOfData WIDTH
  if h : bytes.length = WIDTH then Pure.pure (BaseBlob.mk bytes h) else fail endOfData

theorem BaseBlob.zero_IsNull (WIDTH : Nat) : (BaseBlob.zero WIDTH).IsNull = true := by
  simp [BaseBlob.zero, BaseBlob.IsNull]

theorem BaseBlob.eq_zero_of_IsNull {WIDTH : Nat} {h : BaseBlob WIDTH}
    (hnull : h.IsNull = true) : h = BaseBlob.zero WIDTH := by
  rcases h with ⟨data, hlen⟩
  have hall : forall b, b ∈ data -> b = 0 := by
    intro b hb
    simpa [BaseBlob.IsNull] using List.all_eq_true.mp hnull b hb
  have hdata : data = List.replicate WIDTH 0 := by
    rw [← hlen]
    exact List.eq_replicate_iff.mpr ⟨rfl, hall⟩
  subst hdata
  rfl

theorem BaseBlob.Unserialize_inverts (WIDTH : Nat) :
    Inverts (fun _ => True) BaseBlob.Serialize (BaseBlob.Unserialize WIDTH) := by
  intro h _ rest
  rcases h with ⟨data, hlen⟩
  have hread := readBytes_append endOfData data rest
  rw [hlen] at hread
  show (readBytes endOfData WIDTH >>= fun bytes =>
      if h : bytes.length = WIDTH then Pure.pure (BaseBlob.mk bytes h) else fail endOfData)
      (data ++ rest) = _
  rw [bind_apply_of_ok hread, dif_pos hlen]
  rfl

theorem BaseBlob.Unserialize_sound (WIDTH : Nat) :
    Sound (fun _ => True) BaseBlob.Serialize (BaseBlob.Unserialize WIDTH) := by
  intro bytes h rest hdec
  obtain ⟨xs, mid, hxs, hdec⟩ := bind_eq_ok hdec
  obtain ⟨hbytes, hlen⟩ := readBytes_eq_ok hxs
  rw [dif_pos hlen] at hdec
  cases hdec
  exact ⟨trivial, hbytes⟩

/-!
## Fixed-width integers
-/

def ser_writedata8 (x : UInt8) : List UInt8 :=
  [x]

def ser_readdata8 : Decoder UInt8 :=
  fun bytes =>
    match bytes with
    | [] => Except.error endOfData
    | b :: rest => Except.ok (b, rest)

def ser_writedata32 (x : UInt32) : List UInt8 :=
  encodeLE 4 x.toNat

def ser_readdata32 : Decoder UInt32 := do
  let n <- readLE endOfData 4
  Pure.pure (UInt32.ofNat n)

@[simp] theorem ser_readdata8_cons (b : UInt8) (rest : List UInt8) :
    ser_readdata8 (b :: rest) = Except.ok (b, rest) := rfl

@[simp] theorem length_ser_writedata32 (x : UInt32) : (ser_writedata32 x).length = 4 := by
  simp [ser_writedata32]

theorem ser_readdata8_inverts :
    Inverts (fun _ => True) ser_writedata8 ser_readdata8 := by
  intro x _ rest
  rfl

theorem ser_readdata8_sound :
    Sound (fun _ => True) ser_writedata8 ser_readdata8 := by
  intro bytes x rest h
  cases bytes with
  | nil => cases h
  | cons b tail =>
      cases h
      exact ⟨trivial, rfl⟩

theorem ser_readdata32_inverts :
    Inverts (fun _ => True) ser_writedata32 ser_readdata32 := by
  intro x _ rest
  have hread := readLE_inverts endOfData 4 x.toNat (UInt32.toNat_lt x) rest
  show (readLE endOfData 4 >>= fun n => Pure.pure (UInt32.ofNat n))
      (encodeLE 4 x.toNat ++ rest) = _
  rw [bind_apply_of_ok hread, pure_apply, UInt32.ofNat_toNat]

theorem ser_readdata32_sound :
    Sound (fun _ => True) ser_writedata32 ser_readdata32 := by
  intro bytes x rest h
  obtain ⟨n, mid, hn, h⟩ := bind_eq_ok h
  cases h
  obtain ⟨hlt, hbytes⟩ := readLE_sound endOfData 4 bytes n rest hn
  refine ⟨trivial, ?_⟩
  have hval : (UInt32.ofNat n).toNat = n := UInt32.toNat_ofNat_of_lt' hlt
  rw [hbytes, ser_writedata32, hval]

def ser_writedata64 (x : UInt64) : List UInt8 :=
  encodeLE 8 x.toNat

def ser_readdata64 : Decoder UInt64 := do
  let n <- readLE endOfData 8
  Pure.pure (UInt64.ofNat n)

/-!
## `CompactSize`

A length is written in one byte below 253, and otherwise as a marker byte
followed by 2, 4 or 8 little-endian bytes.  The reader refuses a longer form
than needed and, with its range check on, any size above `MAX_SIZE`.
-/

def WriteCompactSize (nSize : Nat) : List UInt8 :=
  if nSize < 253 then [UInt8.ofNat nSize]
  else if nSize ≤ 0xffff then 253 :: encodeLE 2 nSize
  else if nSize ≤ 0xffffffff then 254 :: encodeLE 4 nSize
  else 255 :: encodeLE 8 nSize

/-- The 2, 4 or 8 bytes after a marker byte, refused when a shorter form
would have held the value. -/
def ReadCompactSizeExtended (w lo : Nat) : Decoder Nat := do
  let n <- readLE endOfData w
  if n < lo then fail nonCanonicalCompactSize else Pure.pure n

def ReadCompactSize : Decoder Nat :=
  ser_readdata8 >>= fun chSize =>
    (if chSize.toNat < 253 then Pure.pure chSize.toNat
      else if chSize.toNat = 253 then ReadCompactSizeExtended 2 253
      else if chSize.toNat = 254 then ReadCompactSizeExtended 4 0x10000
      else ReadCompactSizeExtended 8 0x100000000) >>= fun nSizeRet =>
    if nSizeRet > MAX_SIZE then fail compactSizeTooLarge else Pure.pure nSizeRet

theorem ReadCompactSizeExtended_inverts (w lo nSize : Nat) (rest : List UInt8)
    (hlt : nSize < 256 ^ w) (hlo : ¬ nSize < lo) :
    ReadCompactSizeExtended w lo (encodeLE w nSize ++ rest) = Except.ok (nSize, rest) := by
  unfold ReadCompactSizeExtended
  rw [bind_apply_of_ok (readLE_inverts endOfData w nSize hlt rest), if_neg hlo]
  rfl

theorem ReadCompactSizeExtended_sound {w lo : Nat} {bytes rest : List UInt8} {n : Nat}
    (h : ReadCompactSizeExtended w lo bytes = Except.ok (n, rest)) :
    lo ≤ n ∧ n < 256 ^ w ∧ bytes = encodeLE w n ++ rest := by
  obtain ⟨m, mid, hm, h⟩ := bind_eq_ok h
  obtain ⟨hmlt, hbytes⟩ := readLE_sound endOfData w bytes m mid hm
  by_cases hsmall : m < lo
  · rw [if_pos hsmall] at h
    cases h
  · rw [if_neg hsmall] at h
    cases h
    exact ⟨by omega, hmlt, hbytes⟩

private theorem compactSizeRange_ok (n : Nat) (rest : List UInt8) (hmax : n ≤ MAX_SIZE) :
    (if n > MAX_SIZE then fail compactSizeTooLarge else Pure.pure n : Decoder Nat) rest =
      Except.ok (n, rest) := by
  rw [if_neg (by omega)]
  rfl

theorem ReadCompactSize_inverts :
    Inverts (fun n => n ≤ MAX_SIZE) WriteCompactSize ReadCompactSize := by
  intro nSize hmax rest
  unfold ReadCompactSize WriteCompactSize
  have hsmall : nSize < 0x100000000 := by
    unfold MAX_SIZE at hmax
    omega
  by_cases h1 : nSize < 253
  · have hbyte : (UInt8.ofNat nSize).toNat = nSize := by
      rw [UInt8.toNat_ofNat']
      omega
    rw [if_pos h1, List.singleton_append, bind_apply_of_ok (ser_readdata8_cons _ rest),
      hbyte, if_pos h1, bind_apply_of_ok (pure_apply nSize rest)]
    exact compactSizeRange_ok nSize rest hmax
  · by_cases h2 : nSize ≤ 0xffff
    · have hbody := ReadCompactSizeExtended_inverts 2 253 nSize rest (by omega) h1
      rw [if_neg h1, if_pos h2, List.cons_append, bind_apply_of_ok (ser_readdata8_cons _ _),
        if_neg (by decide), if_pos (by decide), bind_apply_of_ok hbody]
      exact compactSizeRange_ok nSize rest hmax
    · have hbody := ReadCompactSizeExtended_inverts 4 0x10000 nSize rest (by omega) (by omega)
      rw [if_neg h1, if_neg h2, if_pos (by omega), List.cons_append,
        bind_apply_of_ok (ser_readdata8_cons _ _), if_neg (by decide), if_neg (by decide),
        if_pos (by decide), bind_apply_of_ok hbody]
      exact compactSizeRange_ok nSize rest hmax

theorem ReadCompactSize_sound :
    Sound (fun n => n ≤ MAX_SIZE) WriteCompactSize ReadCompactSize := by
  intro bytes nSize rest h
  obtain ⟨chSize, mid, hch, h⟩ := bind_eq_ok h
  obtain ⟨_, hbytes⟩ := ser_readdata8_sound bytes chSize mid hch
  obtain ⟨n, tail, hn, h⟩ := bind_eq_ok h
  have hfinal : n ≤ MAX_SIZE ∧ nSize = n ∧ rest = tail := by
    by_cases hbig : n > MAX_SIZE
    · rw [if_pos hbig] at h
      cases h
    · rw [if_neg hbig] at h
      cases h
      exact ⟨by omega, rfl, rfl⟩
  obtain ⟨hmax, rfl, rfl⟩ := hfinal
  refine ⟨hmax, ?_⟩
  rw [hbytes]
  unfold MAX_SIZE at hmax
  by_cases c1 : chSize.toNat < 253
  · rw [if_pos c1] at hn
    cases hn
    have hw : WriteCompactSize chSize.toNat = [chSize] := by
      rw [WriteCompactSize, if_pos c1, UInt8.ofNat_toNat]
    rw [hw]
    rfl
  · rw [if_neg c1] at hn
    by_cases c2 : chSize.toNat = 253
    · rw [if_pos c2] at hn
      obtain ⟨hlo, hlt, hmid⟩ := ReadCompactSizeExtended_sound hn
      have hch : chSize = 253 := UInt8.toNat_inj.mp (by rw [c2]; rfl)
      have hw : WriteCompactSize nSize = 253 :: encodeLE 2 nSize := by
        rw [WriteCompactSize, if_neg (by omega), if_pos (by omega)]
      rw [hw, hmid, hch]
      rfl
    · rw [if_neg c2] at hn
      by_cases c3 : chSize.toNat = 254
      · rw [if_pos c3] at hn
        obtain ⟨hlo, hlt, hmid⟩ := ReadCompactSizeExtended_sound hn
        have hch : chSize = 254 := UInt8.toNat_inj.mp (by rw [c3]; rfl)
        have hw : WriteCompactSize nSize = 254 :: encodeLE 4 nSize := by
          rw [WriteCompactSize, if_neg (by omega), if_neg (by omega), if_pos (by omega)]
        rw [hw, hmid, hch]
        rfl
      · rw [if_neg c3] at hn
        obtain ⟨hlo, _, _⟩ := ReadCompactSizeExtended_sound hn
        omega

/-!
## Byte vectors and witness stacks
-/

/-- `Serialize` of a `std::vector<unsigned char>`, a `prevector` or a `CScript`:
the length, then the bytes. -/
def SerializeByteVector (v : List UInt8) : List UInt8 :=
  WriteCompactSize v.length ++ v

def UnserializeByteVector : Decoder (List UInt8) := do
  let nSize <- ReadCompactSize
  readBytes endOfData nSize

/-- `Serialize` of a `std::vector<std::vector<unsigned char>>`, as a witness
stack is written: the count, then each element. -/
def SerializeStack (stack : List (List UInt8)) : List UInt8 :=
  WriteCompactSize stack.length ++ (stack.map SerializeByteVector).flatten

def UnserializeStack : Decoder (List (List UInt8)) := do
  let size <- ReadCompactSize
  replicate size UnserializeByteVector

/-- A byte vector the reader accepts back: its length passes the range check. -/
def ByteVectorFits (v : List UInt8) : Prop :=
  v.length ≤ MAX_SIZE

/-- A stack the reader accepts back: its count and every element fit. -/
def StackFits (stack : List (List UInt8)) : Prop :=
  stack.length ≤ MAX_SIZE ∧ forall v, v ∈ stack -> ByteVectorFits v

instance : DecidablePred ByteVectorFits :=
  fun v => inferInstanceAs (Decidable (v.length ≤ MAX_SIZE))

instance : DecidablePred StackFits :=
  fun stack => inferInstanceAs
    (Decidable (stack.length ≤ MAX_SIZE ∧ forall v, v ∈ stack -> ByteVectorFits v))

theorem UnserializeByteVector_inverts :
    Inverts ByteVectorFits SerializeByteVector UnserializeByteVector := by
  intro v hv rest
  have hsize := ReadCompactSize_inverts v.length hv (v ++ rest)
  show (ReadCompactSize >>= fun nSize => readBytes endOfData nSize)
      ((WriteCompactSize v.length ++ v) ++ rest) = _
  rw [List.append_assoc, bind_apply_of_ok hsize, readBytes_append]

theorem UnserializeByteVector_sound :
    Sound ByteVectorFits SerializeByteVector UnserializeByteVector := by
  intro bytes v rest h
  obtain ⟨nSize, mid, hsize, h⟩ := bind_eq_ok h
  obtain ⟨hmax, hbytes⟩ := ReadCompactSize_sound bytes nSize mid hsize
  obtain ⟨hmid, hlen⟩ := readBytes_eq_ok h
  refine ⟨by rw [ByteVectorFits, hlen]; exact hmax, ?_⟩
  rw [hbytes, hmid, SerializeByteVector, hlen, List.append_assoc]

theorem UnserializeStack_inverts :
    Inverts StackFits SerializeStack UnserializeStack := by
  intro stack hfits rest
  have hsize := ReadCompactSize_inverts stack.length hfits.1
    ((stack.map SerializeByteVector).flatten ++ rest)
  have hitems := replicate_inverts UnserializeByteVector_inverts stack hfits.2 rest
  show (ReadCompactSize >>= fun size => replicate size UnserializeByteVector)
      ((WriteCompactSize stack.length ++ (stack.map SerializeByteVector).flatten) ++ rest) = _
  rw [List.append_assoc, bind_apply_of_ok hsize, hitems]

theorem UnserializeStack_sound :
    Sound StackFits SerializeStack UnserializeStack := by
  intro bytes stack rest h
  obtain ⟨size, mid, hsize, h⟩ := bind_eq_ok h
  obtain ⟨hmax, hbytes⟩ := ReadCompactSize_sound bytes size mid hsize
  obtain ⟨hlen, hfit, hmid⟩ := replicate_sound UnserializeByteVector_sound size mid stack rest h
  refine ⟨⟨by rw [hlen]; exact hmax, hfit⟩, ?_⟩
  rw [hbytes, hmid, SerializeStack, hlen, List.append_assoc]

/-!
## Vectors of objects

A `std::vector` of objects is written as its count and then each object; the
reader resizes the vector to the count, which default-constructs every
element, and reads each element in place.  An element's reader is therefore
run on a default-constructed object.
-/

def SerializeVector {α : Type} (ser : α -> Option (List UInt8)) (v : List α) :
    Option (List UInt8) :=
  (v.mapM ser).map fun items => WriteCompactSize v.length ++ items.flatten

def UnserializeVector {α : Type} (dec : Decoder α) : Decoder (List α) := do
  let nSize <- ReadCompactSize
  replicate nSize dec

/-- A vector the reader accepts back: its count fits and every element is one
the element reader accepts back. -/
def VectorFits {α : Type} (P : α -> Prop) (v : List α) : Prop :=
  v.length ≤ MAX_SIZE ∧ forall x, x ∈ v -> P x

theorem UnserializeVector_inverts {α : Type} {P : α -> Prop}
    {ser : α -> Option (List UInt8)} {dec : Decoder α} (hdec : InvertsPartial P ser dec) :
    InvertsPartial (VectorFits P) (SerializeVector ser) (UnserializeVector dec) := by
  intro v hfits
  obtain ⟨encs, hencs, hitems⟩ := replicate_invertsPartial hdec v hfits.2
  refine ⟨WriteCompactSize v.length ++ encs.flatten, by simp [SerializeVector, hencs], ?_⟩
  intro rest
  have hsize := ReadCompactSize_inverts v.length hfits.1 (encs.flatten ++ rest)
  show (ReadCompactSize >>= fun nSize => replicate nSize dec)
      ((WriteCompactSize v.length ++ encs.flatten) ++ rest) = _
  rw [List.append_assoc, bind_apply_of_ok hsize, hitems]

theorem UnserializeVector_sound {α : Type} {P : α -> Prop}
    {ser : α -> Option (List UInt8)} {dec : Decoder α} (hdec : SoundPartial P ser dec) :
    SoundPartial (VectorFits P) (SerializeVector ser) (UnserializeVector dec) := by
  intro bytes v rest h
  obtain ⟨size, mid, hsize, h⟩ := bind_eq_ok h
  obtain ⟨hmax, hbytes⟩ := ReadCompactSize_sound bytes size mid hsize
  obtain ⟨hlen, hfit, encs, hencs, hmid⟩ := replicate_soundPartial hdec size mid v rest h
  refine ⟨⟨by rw [hlen]; exact hmax, hfit⟩, WriteCompactSize v.length ++ encs.flatten,
    by simp [SerializeVector, hencs], ?_⟩
  rw [hbytes, hmid, hlen, List.append_assoc]

end Elements
