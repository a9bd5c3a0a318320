import Elements.Data.BlockStream
import Elements.Primitives.Transaction
import Elements.Script.Arith64

/-!
# SHA-256 and its streaming context

`CSHA256` of `crypto/sha256.cpp` holds eight state words, a 64-byte buffer
and the number of bytes written.  `Write` compresses a block as soon as one is
complete.  It first fills a partly filled buffer, then compresses whole
blocks straight from the input, and keeps the rest in the buffer.
`Finalize` writes the padding and the bit length and outputs the state words.
`Save` and `Load` move a context to and from a byte vector: the words, the
bit count and the pending bytes.

The compression `Transform` is modelled round by round, but nothing below
depends on what it computes.  The buffering is the `BlockStream` action of
the input on the state: a context after any sequence of writes stands for
their concatenation (`CSHA256.Write_wrote`).  `Finalize` gives the hash that
FIPS 180-4 defines (`SHA256Spec`), however the message was split into writes.
-/

namespace Elements

open Codec BlockStream

/-! ## Bytes and words -/

def WriteBE32 (x : UInt32) : List UInt8 := (encodeLE 4 x.toNat).reverse

/-- `ReadBE32`: the `uint32_t` of the first four bytes, big-endian. -/
def ReadBE32 (ptr : List UInt8) : UInt32 := UInt32.ofNat (decodeLE (ptr.take 4).reverse)

def WriteLE64 (x : UInt64) : List UInt8 := encodeLE 8 x.toNat

/-- `memcpy(buf + off, data, data.size())`.  A copy past the end of `buf`
would make the result longer than `buf`. -/
def memcpy (buf : List UInt8) (off : Nat) (data : List UInt8) : List UInt8 :=
  buf.take off ++ data ++ buf.drop (off + data.length)

/-! ## The compression function -/

namespace sha256

def Ch (x y z : UInt32) : UInt32 := z ^^^ (x &&& (y ^^^ z))

def Maj (x y z : UInt32) : UInt32 := (x &&& y) ||| (z &&& (x ||| y))

def Sigma0 (x : UInt32) : UInt32 :=
  ((x >>> 2) ||| (x <<< 30)) ^^^ ((x >>> 13) ||| (x <<< 19)) ^^^ ((x >>> 22) ||| (x <<< 10))

def Sigma1 (x : UInt32) : UInt32 :=
  ((x >>> 6) ||| (x <<< 26)) ^^^ ((x >>> 11) ||| (x <<< 21)) ^^^ ((x >>> 25) ||| (x <<< 7))

def sigma0 (x : UInt32) : UInt32 :=
  ((x >>> 7) ||| (x <<< 25)) ^^^ ((x >>> 18) ||| (x <<< 14)) ^^^ (x >>> 3)

def sigma1 (x : UInt32) : UInt32 :=
  ((x >>> 17) ||| (x <<< 15)) ^^^ ((x >>> 19) ||| (x <<< 13)) ^^^ (x >>> 10)

structure Vars where
  a : UInt32
  b : UInt32
  c : UInt32
  d : UInt32
  e : UInt32
  f : UInt32
  g : UInt32
  h : UInt32

/-- `Round`: `d += t1` and `h = t1 + t2`.  The source passes the variables to
the next round shifted by one place; the shift is made here, so that each
round reads them under the same names. -/
def Round (v : Vars) (k : UInt32) : Vars :=
  let t1 := v.h + Sigma1 v.e + Ch v.e v.f v.g + k
  let t2 := Sigma0 v.a + Maj v.a v.b v.c
  ⟨t1 + t2, v.a, v.b, v.c, v.d + t1, v.e, v.f, v.g⟩

def Initialize : List UInt32 :=
  [0x6a09e667, 0xbb67ae85, 0x3c6ef372, 0xa54ff53a, 0x510e527f, 0x9b05688c, 0x1f83d9ab, 0x5be0cd19]

/-- The constants of the sixty-four rounds, in the order `Transform` adds them. -/
def K : List UInt32 :=
  [0x428a2f98, 0x71374491, 0xb5c0fbcf, 0xe9b5dba5, 0x3956c25b, 0x59f111f1, 0x923f82a4, 0xab1c5ed5,
   0xd807aa98, 0x12835b01, 0x243185be, 0x550c7dc3, 0x72be5d74, 0x80deb1fe, 0x9bdc06a7, 0xc19bf174,
   0xe49b69c1, 0xefbe4786, 0x0fc19dc6, 0x240ca1cc, 0x2de92c6f, 0x4a7484aa, 0x5cb0a9dc, 0x76f988da,
   0x983e5152, 0xa831c66d, 0xb00327c8, 0xbf597fc7, 0xc6e00bf3, 0xd5a79147, 0x06ca6351, 0x14292967,
   0x27b70a85, 0x2e1b2138, 0x4d2c6dfc, 0x53380d13, 0x650a7354, 0x766a0abb, 0x81c2c92e, 0x92722c85,
   0xa2bfe8a1, 0xa81a664b, 0xc24b8b70, 0xc76c51a3, 0xd192e819, 0xd6990624, 0xf40e3585, 0x106aa070,
   0x19a4c116, 0x1e376c08, 0x2748774c, 0x34b0bcb5, 0x391c0cb3, 0x4ed8aa4a, 0x5b9cca4f, 0x682e6ff3,
   0x748f82ee, 0x78a5636f, 0x84c87814, 0x8cc70208, 0x90befffa, 0xa4506ceb, 0xbef9a3f7, 0xc67178f2]

/-- The words `Transform` adds to the constants: `w0` to `w15` read from the
chunk, then `w += sigma1(w14) + w9 + sigma0(w1)` over the sixteen before, as
the source updates its sixteen variables in place. -/
def Schedule (chunk : List UInt8) : List UInt32 :=
  (List.range 48).foldl
    (fun w t => w ++ [w.getD t 0 + (sigma1 (w.getD (t + 14) 0) + w.getD (t + 9) 0 + sigma0 (w.getD (t + 1) 0))])
    ((List.range 16).map fun i => ReadBE32 (chunk.drop (4 * i)))

/-- One turn of the loop of `Transform`: the rounds over one chunk, and the
variables added into the state. -/
def TransformBlock (s : List UInt32) (chunk : List UInt8) : List UInt32 :=
  let v := (K.zip (Schedule chunk)).foldl (fun v kw => Round v (kw.1 + kw.2))
    ⟨s.getD 0 0, s.getD 1 0, s.getD 2 0, s.getD 3 0, s.getD 4 0, s.getD 5 0, s.getD 6 0, s.getD 7 0⟩
  [s.getD 0 0 + v.a, s.getD 1 0 + v.b, s.getD 2 0 + v.c, s.getD 3 0 + v.d,
   s.getD 4 0 + v.e, s.getD 5 0 + v.f, s.getD 6 0 + v.g, s.getD 7 0 + v.h]

/-- `Transform`: `blocks` chunks of 64 bytes, one after the other. -/
def Transform (s : List UInt32) (chunk : List UInt8) (blocks : Nat) : List UInt32 :=
  absorb TransformBlock 64 blocks s chunk

end sha256

/-! ## The context -/

structure CSHA256 where
  s : List UInt32
  buf : List UInt8
  bytes : UInt64

/-- `CSHA256()`.  The source leaves the buffer of a new object uninitialized;
it is zeros here, and no byte of it is read before it is written. -/
def CSHA256.new : CSHA256 := ⟨sha256.Initialize, List.replicate 64 0, 0⟩

/-- The second step of `Write`: whole blocks straight from the input, the
input left over. -/
def CSHA256.WriteBlocks (ctx : CSHA256) (data : List UInt8) : CSHA256 × List UInt8 :=
  if data.length ≥ 64 then
    let blocks := data.length / 64
    ({ ctx with s := sha256.Transform ctx.s data blocks, bytes := ctx.bytes + UInt64.ofNat (64 * blocks) },
      data.drop (64 * blocks))
  else (ctx, data)

/-- The last step of `Write`: fill the buffer with what remains. -/
def CSHA256.WriteTail (ctx : CSHA256) (bufsize : Nat) (data : List UInt8) : CSHA256 :=
  if data.length > 0 then
    { ctx with buf := memcpy ctx.buf bufsize data, bytes := ctx.bytes + UInt64.ofNat data.length }
  else ctx

/-- The steps of `Write` after the first. -/
def CSHA256.WriteRest (ctx : CSHA256) (bufsize : Nat) (data : List UInt8) : CSHA256 :=
  match ctx.WriteBlocks data with
  | (ctx, data) => ctx.WriteTail bufsize data

def CSHA256.Write (ctx : CSHA256) (data : List UInt8) : CSHA256 :=
  let bufsize := ctx.bytes.toNat % 64
  if bufsize ≠ 0 ∧ bufsize + data.length ≥ 64 then
    -- Fill the buffer, and process it.
    let buf := memcpy ctx.buf bufsize (data.take (64 - bufsize))
    let filled : CSHA256 := ⟨sha256.Transform ctx.s buf 1, buf, ctx.bytes + UInt64.ofNat (64 - bufsize)⟩
    filled.WriteRest 0 (data.drop (64 - bufsize))
  else ctx.WriteRest bufsize data

/-- `Midstate(hash, NULL, NULL)`: the state words, big-endian. -/
def CSHA256.Midstate (ctx : CSHA256) : List UInt8 :=
  (List.range 8).flatMap fun i => WriteBE32 (ctx.s.getD i 0)

/-- `pad`: the byte `0x80` and zeros. -/
def pad : List UInt8 := 0x80 :: List.replicate 63 0

def CSHA256.Finalize (ctx : CSHA256) : List UInt8 :=
  let sizedesc := WriteBE64 (ctx.bytes <<< 3)
  ((ctx.Write (pad.take (1 + (119 - ctx.bytes.toNat % 64) % 64))).Write sizedesc).Midstate

/-- `Save`: the words as `Midstate` writes them, the bit count, and the
pending bytes. -/
def CSHA256.Save (ctx : CSHA256) : List UInt8 :=
  let buf_size := ctx.bytes.toNat % 64
  ctx.Midstate ++ WriteLE64 (ctx.bytes <<< 3) ++ ctx.buf.take buf_size

/-- `Load` into `ctx`: `none` where it returns false, leaving `ctx` as it was. -/
def CSHA256.Load (ctx : CSHA256) (vch : List UInt8) : Option CSHA256 :=
  if vch.length < 40 then none
  else
    let bits := ReadLE64 (vch.drop 32)
    let buf_size := (bits >>> 3).toNat % 64
    if bits &&& 0x07 ≠ 0 ∨ vch.length ≠ 40 + buf_size then none
    else
      some ⟨(List.range 8).map (fun i => ReadBE32 (vch.drop (4 * i))),
        memcpy ctx.buf 0 ((vch.drop 40).take buf_size), bits >>> 3⟩

/-- SHA-256's maximum allowed message length in bytes. -/
def SHA256_MAX : UInt64 := 0x1FFFFFFFFFFFFFFF

/-- `SafeWrite`: `none` where it returns false. -/
def CSHA256.SafeWrite (ctx : CSHA256) (data : List UInt8) : Option CSHA256 :=
  if SHA256_MAX < ctx.bytes ∨ (SHA256_MAX - ctx.bytes).toNat < data.length then none
  else some (ctx.Write data)

/-- SHA-256 as FIPS 180-4 defines it, the behaviour `CSHA256` is meant to
have: the message, the byte `0x80`, zeros up to 56 bytes modulo 64, and the
length in bits as eight big-endian bytes, compressed block by block from the
initial value; the digest is the final words, big-endian. -/
def SHA256Spec (m : List UInt8) : List UInt8 :=
  let padded := m ++ [0x80] ++ List.replicate ((55 + 64 - m.length % 64) % 64) 0 ++
    WriteBE64 (UInt64.ofNat (8 * m.length))
  (absorb sha256.TransformBlock 64 (padded.length / 64) sha256.Initialize padded).flatMap WriteBE32

/-! ## Bytes and words, read back -/

@[simp] theorem length_WriteBE32 (x : UInt32) : (WriteBE32 x).length = 4 := by
  simp [WriteBE32]

@[simp] theorem length_WriteLE64 (x : UInt64) : (WriteLE64 x).length = 8 := by
  simp [WriteLE64]

theorem ReadBE32_WriteBE32 (x : UInt32) (rest : List UInt8) : ReadBE32 (WriteBE32 x ++ rest) = x := by
  unfold ReadBE32 WriteBE32
  rw [List.take_left' (by simp), List.reverse_reverse, decodeLE_encodeLE,
    show (256 : Nat) ^ 4 = 2 ^ 32 by norm_num, Nat.mod_eq_of_lt (UInt32.toNat_lt x), UInt32.ofNat_toNat]

theorem WriteBE32_ReadBE32 {l : List UInt8} (hl : 4 ≤ l.length) : WriteBE32 (ReadBE32 l) = l.take 4 := by
  unfold WriteBE32 ReadBE32
  have hlen : (l.take 4).reverse.length = 4 := by simp [hl]
  have hlt : decodeLE (l.take 4).reverse < 2 ^ 32 := by
    have := decodeLE_lt (l.take 4).reverse
    rwa [hlen] at this
  have hcodec := encodeLE_decodeLE (l.take 4).reverse
  rw [hlen] at hcodec
  rw [UInt32.toNat_ofNat', Nat.mod_eq_of_lt hlt, hcodec, List.reverse_reverse]

theorem ReadLE64_WriteLE64 (x : UInt64) (rest : List UInt8) : ReadLE64 (WriteLE64 x ++ rest) = x := by
  unfold ReadLE64 WriteLE64
  rw [List.take_left' (by simp), decodeLE_encodeLE, show (256 : Nat) ^ 8 = 2 ^ 64 by norm_num,
    Nat.mod_eq_of_lt (UInt64.toNat_lt x), UInt64.ofNat_toNat]

theorem WriteLE64_ReadLE64 {l : List UInt8} (hl : 8 ≤ l.length) : WriteLE64 (ReadLE64 l) = l.take 8 := by
  unfold WriteLE64 ReadLE64
  have hlen : (l.take 8).length = 8 := by simp [hl]
  have hlt : decodeLE (l.take 8) < 2 ^ 64 := by
    have := decodeLE_lt (l.take 8)
    rwa [hlen] at this
  have hcodec := encodeLE_decodeLE (l.take 8)
  rw [hlen] at hcodec
  rw [UInt64.toNat_ofNat', Nat.mod_eq_of_lt hlt, hcodec]

theorem flatMap_range_getD {β : Type} (f : UInt32 → List β) (s : List UInt32) :
    (List.range s.length).flatMap (fun i => f (s.getD i 0)) = s.flatMap f := by
  induction s with
  | nil => rfl
  | cons a s ih =>
    rw [List.length_cons, List.range_succ_eq_map, List.flatMap_cons, List.flatMap_map, List.flatMap_cons]
    simp only [List.getD_cons_zero, Nat.succ_eq_add_one, List.getD_cons_succ, ih]

theorem map_range_ReadBE32 (s : List UInt32) (rest : List UInt8) :
    (List.range s.length).map (fun i => ReadBE32 ((s.flatMap WriteBE32 ++ rest).drop (4 * i))) = s := by
  induction s with
  | nil => rfl
  | cons a s ih =>
    rw [List.length_cons, List.range_succ_eq_map, List.map_cons, List.map_map]
    congr 1
    rw [Nat.mul_zero, List.drop_zero, List.flatMap_cons, List.append_assoc, ReadBE32_WriteBE32]

theorem flatMap_range_WriteBE32_ReadBE32 (n : Nat) {l : List UInt8} (hl : 4 * n ≤ l.length) :
    (List.range n).flatMap (fun i => WriteBE32 (ReadBE32 (l.drop (4 * i)))) = l.take (4 * n) := by
  induction n with
  | zero => rfl
  | succ n ih =>
    rw [List.range_succ, List.flatMap_append, ih (by omega), List.flatMap_cons, List.flatMap_nil,
      List.append_nil, WriteBE32_ReadBE32 (by simp; omega), Nat.mul_succ, List.take_add]

theorem length_Midstate (ctx : CSHA256) : ctx.Midstate.length = 32 := by
  simp [CSHA256.Midstate]

theorem CSHA256.Midstate_eq {ctx : CSHA256} (hs : ctx.s.length = 8) :
    ctx.Midstate = ctx.s.flatMap WriteBE32 := by
  rw [CSHA256.Midstate, ← hs, flatMap_range_getD]

/-! ## Writing refines the block stream

`view` is what a context stands for: its state words and the bytes of its
buffer that are pending, `bytes % 64` of them.  `Wrote ctx d ctx'` says that
`ctx'` is `ctx` after `d`: its view is `d` fed to the view of `ctx`, its count
is `d.length` more, and its buffer has its 64 bytes.  Each step of `Write` is
one move of `BlockStream.feed`, so `Write` is the plain feed of its input
(`CSHA256.Write_wrote`).
-/

def CSHA256.view (ctx : CSHA256) : List UInt32 × List UInt8 :=
  (ctx.s, ctx.buf.take (ctx.bytes.toNat % 64))

/-- `ctx'` is `ctx` after the bytes `d`. -/
structure CSHA256.Wrote (ctx : CSHA256) (d : List UInt8) (ctx' : CSHA256) : Prop where
  view : ctx'.view = feed sha256.TransformBlock 64 ctx.view d
  bytes : ctx'.bytes.toNat = ctx.bytes.toNat + d.length
  buf_length : ctx'.buf.length = 64

theorem toNat_add_ofNat {x : UInt64} {k : Nat} (h : x.toNat + k < 2 ^ 64) :
    (x + UInt64.ofNat k).toNat = x.toNat + k := by
  rw [UInt64.toNat_add, UInt64.toNat_ofNat', Nat.add_mod_mod, Nat.mod_eq_of_lt h]

theorem length_memcpy {buf : List UInt8} {off : Nat} {data : List UInt8} (h : off + data.length ≤ buf.length) :
    (memcpy buf off data).length = buf.length := by
  rw [memcpy, List.length_append, List.length_append, List.length_take, List.length_drop]
  omega

theorem take_memcpy {buf : List UInt8} {off : Nat} (data : List UInt8) (h : off ≤ buf.length) :
    (memcpy buf off data).take (off + data.length) = buf.take off ++ data := by
  rw [memcpy, List.take_left' (by simp; omega)]

theorem CSHA256.length_view_snd {ctx : CSHA256} (hbuf : ctx.buf.length = 64) :
    ctx.view.2.length = ctx.bytes.toNat % 64 := by
  simp only [CSHA256.view, List.length_take, hbuf]
  omega

theorem CSHA256.Wrote.nil {ctx : CSHA256} (hbuf : ctx.buf.length = 64) : ctx.Wrote [] ctx where
  view := by
    have hp := CSHA256.length_view_snd hbuf
    rw [show ctx.view = (ctx.view.1, ctx.view.2) from rfl,
      feed_buffer _ _ _ (by rw [hp, List.length_nil]; omega), List.append_nil]
  bytes := rfl
  buf_length := hbuf

theorem CSHA256.Wrote.trans {ctx ctx' ctx'' : CSHA256} {a b : List UInt8} (h : ctx.Wrote a ctx')
    (h' : ctx'.Wrote b ctx'') : ctx.Wrote (a ++ b) ctx'' where
  view := by rw [h'.view, h.view, feed_append]
  bytes := by rw [h'.bytes, h.bytes, List.length_append, Nat.add_assoc]
  buf_length := h'.buf_length

theorem CSHA256.WriteTail_wrote {ctx : CSHA256} {d : List UInt8} (hbuf : ctx.buf.length = 64)
    (hd : ctx.bytes.toNat % 64 + d.length < 64) (hfit : ctx.bytes.toNat + d.length < 2 ^ 64) :
    ctx.Wrote d (ctx.WriteTail (ctx.bytes.toNat % 64) d) := by
  unfold CSHA256.WriteTail
  split
  · have hbytes := toNat_add_ofNat hfit
    have hpending : (ctx.buf.take (ctx.bytes.toNat % 64)).length = ctx.bytes.toNat % 64 := by
      simp only [List.length_take, hbuf]
      omega
    have hlen : (memcpy ctx.buf (ctx.bytes.toNat % 64) d).length = 64 :=
      (length_memcpy (by rw [hbuf]; omega)).trans hbuf
    refine ⟨?_, hbytes, hlen⟩
    simp only [CSHA256.view]
    rw [hbytes, show (ctx.bytes.toNat + d.length) % 64 = ctx.bytes.toNat % 64 + d.length by omega,
      take_memcpy d (by omega), feed_buffer _ _ _ (by rw [hpending]; exact hd)]
  · -- nothing remains
    obtain rfl : d = [] := List.eq_nil_of_length_eq_zero (by omega)
    exact CSHA256.Wrote.nil hbuf

theorem CSHA256.WriteBlocks_wrote {ctx : CSHA256} {d : List UInt8} (hbuf : ctx.buf.length = 64)
    (haligned : ctx.bytes.toNat % 64 = 0 ∨ ctx.bytes.toNat % 64 + d.length < 64)
    (hfit : ctx.bytes.toNat + d.length < 2 ^ 64) :
    ∃ d₀, d = d₀ ++ (ctx.WriteBlocks d).2 ∧ ctx.Wrote d₀ (ctx.WriteBlocks d).1 ∧
      (ctx.WriteBlocks d).1.bytes.toNat % 64 = ctx.bytes.toNat % 64 ∧
      ctx.bytes.toNat % 64 + (ctx.WriteBlocks d).2.length < 64 := by
  unfold CSHA256.WriteBlocks
  split
  · rename_i hlong
    have hr : ctx.bytes.toNat % 64 = 0 := by omega
    have hblocks : (d.take (64 * (d.length / 64))).length = 64 * (d.length / 64) := by
      simp only [List.length_take]
      omega
    have hbytes := toNat_add_ofNat (show ctx.bytes.toNat + 64 * (d.length / 64) < 2 ^ 64 by omega)
    refine ⟨d.take (64 * (d.length / 64)), (List.take_append_drop _ _).symm, ⟨?_, ?_, hbuf⟩, ?_, ?_⟩
    · simp only [CSHA256.view]
      rw [hbytes, hr, show (ctx.bytes.toNat + 64 * (d.length / 64)) % 64 = 0 by omega, List.take_zero,
        feed_blocks _ _ _ hblocks (by norm_num), absorb_take _ _ _ _ _ (Nat.le_refl _)]
      rfl
    · rw [hbytes, hblocks]
    · rw [hbytes, hr]
      omega
    · simp only [List.length_drop]
      omega
  · rename_i hshort
    refine ⟨[], rfl, CSHA256.Wrote.nil hbuf, rfl, ?_⟩
    show ctx.bytes.toNat % 64 + d.length < 64
    omega

theorem CSHA256.WriteRest_wrote {ctx : CSHA256} {bufsize : Nat} {d : List UInt8} (hbuf : ctx.buf.length = 64)
    (hsize : bufsize = ctx.bytes.toNat % 64)
    (haligned : ctx.bytes.toNat % 64 = 0 ∨ ctx.bytes.toNat % 64 + d.length < 64)
    (hfit : ctx.bytes.toNat + d.length < 2 ^ 64) :
    ctx.Wrote d (ctx.WriteRest bufsize d) := by
  obtain ⟨d₀, hd, h₀, hmod, htail⟩ := CSHA256.WriteBlocks_wrote hbuf haligned hfit
  unfold CSHA256.WriteRest
  generalize ctx.WriteBlocks d = r at hd h₀ hmod htail
  obtain ⟨c, rest⟩ := r
  dsimp only at hd h₀ hmod htail ⊢
  have hrest : c.bytes.toNat + rest.length < 2 ^ 64 := by
    have := congrArg List.length hd
    rw [List.length_append] at this
    rw [h₀.bytes]
    omega
  rw [hsize, ← hmod]
  have h₁ := CSHA256.WriteTail_wrote h₀.buf_length (by rw [hmod]; exact htail) hrest
  rw [hd]
  exact h₀.trans h₁

/-- `Write` feeds its input to the block stream: the buffering and the
compression of whole blocks straight from the input are the plain feed. -/
theorem CSHA256.Write_wrote {ctx : CSHA256} {d : List UInt8} (hbuf : ctx.buf.length = 64)
    (hfit : ctx.bytes.toNat + d.length < 2 ^ 64) : ctx.Wrote d (ctx.Write d) := by
  unfold CSHA256.Write
  dsimp only
  split
  · rename_i hfill
    obtain ⟨hr, hlong⟩ := hfill
    have hpending : (ctx.buf.take (ctx.bytes.toNat % 64)).length = ctx.bytes.toNat % 64 := by
      simp only [List.length_take, hbuf]
      omega
    have hfirst : (d.take (64 - ctx.bytes.toNat % 64)).length = 64 - ctx.bytes.toNat % 64 := by
      simp only [List.length_take]
      omega
    have hbytes := toNat_add_ofNat (show ctx.bytes.toNat + (64 - ctx.bytes.toNat % 64) < 2 ^ 64 by omega)
    have hblock : memcpy ctx.buf (ctx.bytes.toNat % 64) (d.take (64 - ctx.bytes.toNat % 64)) =
        ctx.buf.take (ctx.bytes.toNat % 64) ++ d.take (64 - ctx.bytes.toNat % 64) := by
      rw [memcpy, hfirst, List.drop_of_length_le (by omega), List.append_nil]
    have hblock_length : (ctx.buf.take (ctx.bytes.toNat % 64) ++ d.take (64 - ctx.bytes.toNat % 64)).length = 64 := by
      rw [List.length_append, hpending, hfirst]
      omega
    have h₁ : ctx.Wrote (d.take (64 - ctx.bytes.toNat % 64))
        ⟨sha256.Transform ctx.s (memcpy ctx.buf (ctx.bytes.toNat % 64) (d.take (64 - ctx.bytes.toNat % 64))) 1,
          memcpy ctx.buf (ctx.bytes.toNat % 64) (d.take (64 - ctx.bytes.toNat % 64)),
          ctx.bytes + UInt64.ofNat (64 - ctx.bytes.toNat % 64)⟩ := by
      refine ⟨?_, by rw [hbytes, hfirst], by rw [hblock, hblock_length]⟩
      simp only [CSHA256.view]
      rw [hbytes, show (ctx.bytes.toNat + (64 - ctx.bytes.toNat % 64)) % 64 = 0 by omega, List.take_zero,
        feed_complete _ _ _ (by rw [hpending, hfirst]; omega) (by norm_num), hblock, sha256.Transform,
        absorb_succ, absorb_zero, List.take_of_length_le (Nat.le_of_eq hblock_length)]
    have h₂ := @CSHA256.WriteRest_wrote _ 0 _ h₁.buf_length (by rw [h₁.bytes, hfirst]; omega)
      (by left; rw [h₁.bytes, hfirst]; omega)
      (show _ + (d.drop (64 - ctx.bytes.toNat % 64)).length < 2 ^ 64 by
        rw [h₁.bytes, List.length_drop]
        omega)
    have h := h₁.trans h₂
    rwa [List.take_append_drop] at h
  · rename_i hnofill
    exact CSHA256.WriteRest_wrote hbuf rfl (by omega) hfit

/-! ## The digest

A new context stands for the empty message.  A context that stands for `m`
finalizes to the digest FIPS 180-4 defines for `m`: `Finalize` writes the
padding and the size, which complete the last block, and the words are then
those of the padded message.
-/

theorem CSHA256.view_new : CSHA256.new.view = (sha256.Initialize, []) := rfl

theorem CSHA256.Wrote.new_nil : CSHA256.new.Wrote [] CSHA256.new := CSHA256.Wrote.nil rfl

theorem sha256.length_TransformBlock (s : List UInt32) (chunk : List UInt8) :
    (sha256.TransformBlock s chunk).length = 8 := rfl

theorem sha256.length_absorb {s : List UInt32} (hs : s.length = 8) (k : Nat) (l : List UInt8) :
    (absorb sha256.TransformBlock 64 k s l).length = 8 :=
  absorb_induction _ _ (fun s => s.length = 8) (fun s c _ => sha256.length_TransformBlock s c) k hs l

theorem CSHA256.Wrote.s_eq {m : List UInt8} {ctx : CSHA256} (h : CSHA256.new.Wrote m ctx) :
    ctx.s = absorb sha256.TransformBlock 64 (m.length / 64) sha256.Initialize m := by
  have hs := congrArg Prod.fst h.view
  rw [CSHA256.view_new] at hs
  simpa [CSHA256.view, feed] using hs

theorem CSHA256.Wrote.length_s {m : List UInt8} {ctx : CSHA256} (h : CSHA256.new.Wrote m ctx) :
    ctx.s.length = 8 := by
  rw [h.s_eq]
  exact sha256.length_absorb rfl _ _

theorem CSHA256.Wrote.bytes_eq {m : List UInt8} {ctx : CSHA256} (h : CSHA256.new.Wrote m ctx) :
    ctx.bytes.toNat = m.length := by
  rw [h.bytes, show CSHA256.new.bytes.toNat = 0 from rfl, Nat.zero_add]

theorem take_pad {n : Nat} (hn : n < 64) : pad.take (1 + n) = [0x80] ++ List.replicate n 0 := by
  rw [pad, Nat.add_comm, List.take_succ_cons, List.take_replicate, Nat.min_eq_left (by omega)]
  rfl

theorem shiftLeft_three_eq (x : UInt64) : x <<< 3 = UInt64.ofNat (8 * x.toNat) := by
  apply UInt64.toNat_inj.mp
  rw [UInt64.toNat_shiftLeft, UInt64.toNat_ofNat', show (3 : UInt64).toNat % 64 = 3 from rfl, Nat.shiftLeft_eq]
  congr 1
  omega

theorem CSHA256.Finalize_eq {m : List UInt8} {ctx : CSHA256} (h : CSHA256.new.Wrote m ctx)
    (hm : m.length < 2 ^ 61) : ctx.Finalize = SHA256Spec m := by
  have hbytes := h.bytes_eq
  have hz : (119 - ctx.bytes.toNat % 64) % 64 = (55 + 64 - m.length % 64) % 64 := by rw [hbytes]
  have hzlt : (55 + 64 - m.length % 64) % 64 < 64 := Nat.mod_lt _ (by norm_num)
  unfold CSHA256.Finalize
  dsimp only
  rw [hz, take_pad hzlt, shiftLeft_three_eq, hbytes]
  have h₁ := ctx.Write_wrote (d := [0x80] ++ List.replicate ((55 + 64 - m.length % 64) % 64) 0) h.buf_length
    (by simp only [List.length_append, List.length_replicate, List.length_singleton]; omega)
  have h₂ := (ctx.Write _).Write_wrote (d := WriteBE64 (UInt64.ofNat (8 * m.length))) h₁.buf_length
    (by rw [h₁.bytes, hbytes]; simp only [List.length_append, List.length_replicate, List.length_singleton,
      WriteBE64, List.length_reverse, length_encodeLE]; omega)
  have hall := (h.trans h₁).trans h₂
  rw [CSHA256.Midstate_eq hall.length_s, hall.s_eq, SHA256Spec]
  simp only [List.append_assoc]

theorem CSHA256.Wrote.foldl_Write {m : List UInt8} {ctx : CSHA256} (h : CSHA256.new.Wrote m ctx)
    (pieces : List (List UInt8)) (hlen : m.length + pieces.flatten.length < 2 ^ 64) :
    CSHA256.new.Wrote (m ++ pieces.flatten) (pieces.foldl CSHA256.Write ctx) := by
  induction pieces generalizing m ctx with
  | nil => simpa using h
  | cons d pieces ih =>
    rw [List.flatten_cons, List.length_append] at hlen
    have h₁ := h.trans (ctx.Write_wrote (d := d) h.buf_length (by rw [h.bytes_eq]; omega))
    have h' := ih h₁ (by rw [List.length_append]; omega)
    rwa [List.foldl_cons, List.flatten_cons, ← List.append_assoc]

/-- However a message is split into writes to a new context, `Finalize` gives
its SHA-256 digest. -/
theorem CSHA256.Finalize_foldl_Write (pieces : List (List UInt8)) (hlen : pieces.flatten.length < 2 ^ 61) :
    (pieces.foldl CSHA256.Write CSHA256.new).Finalize = SHA256Spec pieces.flatten := by
  have h := CSHA256.Wrote.new_nil.foldl_Write pieces
    (by rw [List.length_nil, Nat.zero_add]; omega)
  rw [List.nil_append] at h
  exact CSHA256.Finalize_eq h hlen

theorem CSHA256.Finalize_foldl_Write_abc :
    ([[0x61], [0x62, 0x63]] : List (List UInt8)).flatten.length < 2 ^ 61 ∧
      (([[0x61], [0x62, 0x63]] : List (List UInt8)).foldl CSHA256.Write CSHA256.new).Finalize =
        SHA256Spec ([[0x61], [0x62, 0x63]] : List (List UInt8)).flatten :=
  ⟨by decide, CSHA256.Finalize_foldl_Write _ (by decide)⟩

/-! ## Saving and loading

`Save` writes the words, the count in bits and the pending bytes; `Load`
accepts a vector exactly when its bit count is a whole number of bytes and
its length is forty and those pending bytes.  The two are inverse: what
`Load` accepts, `Save` writes again byte for byte (`CSHA256.Save_Load`), and
a saved context loads back to one with the same words, count and pending
bytes (`CSHA256.Load_Save`).
-/

theorem CSHA256.length_Save {ctx : CSHA256} (hbuf : ctx.buf.length = 64) :
    ctx.Save.length = 40 + ctx.bytes.toNat % 64 := by
  simp only [CSHA256.Save, List.length_append, length_Midstate, length_WriteLE64, List.length_take, hbuf]
  omega

theorem shiftRight_shiftLeft_three {bits : UInt64} (h : bits &&& 0x07 = 0) : (bits >>> 3) <<< 3 = bits := by
  have hmod : bits.toNat % 8 = 0 := by
    have := congrArg UInt64.toNat h
    rwa [UInt64.toNat_and, show (0x07 : UInt64).toNat = 2 ^ 3 - 1 from rfl, Nat.and_two_pow_sub_one_eq_mod] at this
  apply UInt64.toNat_inj.mp
  rw [shiftLeft_three_eq, UInt64.toNat_ofNat', UInt64.toNat_shiftRight, show (3 : UInt64).toNat % 64 = 3 from rfl,
    Nat.shiftRight_eq_div_pow]
  have := UInt64.toNat_lt bits
  omega

/-- `Load` accepts a vector of at least forty bytes whose length is forty and
the pending bytes its bit count gives, when that count is a whole number of
bytes; the words, the pending bytes and the count are read from it. -/
theorem CSHA256.Load_eq_some_iff {ctx ctx' : CSHA256} {vch : List UInt8} :
    ctx.Load vch = some ctx' ↔
      40 ≤ vch.length ∧ vch.length = 40 + (ReadLE64 (vch.drop 32) >>> 3).toNat % 64 ∧
        ReadLE64 (vch.drop 32) &&& 0x07 = 0 ∧
        ctx' = ⟨(List.range 8).map (fun i => ReadBE32 (vch.drop (4 * i))),
          memcpy ctx.buf 0 ((vch.drop 40).take ((ReadLE64 (vch.drop 32) >>> 3).toNat % 64)),
          ReadLE64 (vch.drop 32) >>> 3⟩ := by
  unfold CSHA256.Load
  dsimp only
  split_ifs with hshort hbad
  · -- too short for the words and the count
    simp only [false_iff, not_and]
    omega
  · -- the count is not whole bytes, or the length does not match it
    simp only [false_iff, not_and]
    intro _ hlen hlow
    rcases hbad with hbad | hbad
    · exact absurd hlow hbad
    · exact absurd hlen hbad
  · rw [not_or, not_not, not_not] at hbad
    rw [Option.some.injEq, eq_comm]
    exact ⟨fun h => ⟨by omega, hbad.2, hbad.1, h⟩, fun h => h.2.2.2⟩

/-- The context `Load` reads from a vector it accepts saves to that vector. -/
theorem CSHA256.Save_loaded (buf : List UInt8) {vch : List UInt8}
    (hlen : vch.length = 40 + (ReadLE64 (vch.drop 32) >>> 3).toNat % 64) (hlow : ReadLE64 (vch.drop 32) &&& 0x07 = 0) :
    (CSHA256.mk ((List.range 8).map fun i => ReadBE32 (vch.drop (4 * i)))
      (memcpy buf 0 ((vch.drop 40).take ((ReadLE64 (vch.drop 32) >>> 3).toNat % 64)))
      (ReadLE64 (vch.drop 32) >>> 3)).Save = vch := by
  have hwords : ((List.range 8).map fun i => ReadBE32 (vch.drop (4 * i))).length = 8 := by simp
  have hmid : (CSHA256.mk ((List.range 8).map fun i => ReadBE32 (vch.drop (4 * i)))
      (memcpy buf 0 ((vch.drop 40).take ((ReadLE64 (vch.drop 32) >>> 3).toNat % 64)))
      (ReadLE64 (vch.drop 32) >>> 3)).Midstate = vch.take 32 := by
    rw [CSHA256.Midstate_eq hwords, List.flatMap_map, flatMap_range_WriteBE32_ReadBE32 8 (by omega)]
  have hcount : WriteLE64 ((ReadLE64 (vch.drop 32) >>> 3) <<< 3) = (vch.drop 32).take 8 := by
    rw [shiftRight_shiftLeft_three hlow, WriteLE64_ReadLE64 (by simp; omega)]
  unfold CSHA256.Save
  dsimp only
  rw [hmid, hcount]
  generalize (ReadLE64 (vch.drop 32) >>> 3).toNat % 64 = r at hlen ⊢
  have hrest : (vch.drop 40).length = r := by
    rw [List.length_drop]
    omega
  have hmem := @take_memcpy buf 0 ((vch.drop 40).take r) (Nat.zero_le _)
  rw [Nat.zero_add, List.take_of_length_le (Nat.le_of_eq hrest), hrest, List.take_zero, List.nil_append] at hmem
  rw [List.take_of_length_le (Nat.le_of_eq hrest), hmem, List.append_assoc,
    show vch.drop 40 = (vch.drop 32).drop 8 by rw [List.drop_drop], List.take_append_drop, List.take_append_drop]

/-- What `Load` accepts, `Save` writes again byte for byte. -/
theorem CSHA256.Save_Load {ctx ctx' : CSHA256} {vch : List UInt8} (h : ctx.Load vch = some ctx') :
    ctx'.Save = vch := by
  obtain ⟨-, hlen, hlow, rfl⟩ := CSHA256.Load_eq_some_iff.mp h
  exact CSHA256.Save_loaded ctx.buf hlen hlow

/-- Forty zero bytes: the initial words zero, no byte written. -/
theorem CSHA256.Save_Load_zero :
    CSHA256.new.Load (List.replicate 40 0) = some ⟨List.replicate 8 0, List.replicate 64 0, 0⟩ ∧
      (⟨List.replicate 8 0, List.replicate 64 0, 0⟩ : CSHA256).Save = List.replicate 40 0 := by
  have hload : CSHA256.new.Load (List.replicate 40 0) = some ⟨List.replicate 8 0, List.replicate 64 0, 0⟩ := rfl
  exact ⟨hload, CSHA256.Save_Load hload⟩

/-- A saved context loads back with the same words, count and pending bytes,
when its count fits the bit count of `Save`. -/
theorem CSHA256.Load_Save {ctx : CSHA256} (into : CSHA256) (hs : ctx.s.length = 8) (hbuf : ctx.buf.length = 64)
    (hbytes : ctx.bytes.toNat < 2 ^ 61) (hinto : into.buf.length = 64) :
    ∃ ctx', into.Load ctx.Save = some ctx' ∧ ctx'.view = ctx.view ∧ ctx'.bytes = ctx.bytes ∧
      ctx'.buf.length = 64 := by
  have hlen := CSHA256.length_Save hbuf
  have hsave : ctx.Save = ctx.s.flatMap WriteBE32 ++ (WriteLE64 (ctx.bytes <<< 3) ++
      ctx.buf.take (ctx.bytes.toNat % 64)) := by
    rw [CSHA256.Save, CSHA256.Midstate_eq hs, List.append_assoc]
  have hmid : (ctx.s.flatMap WriteBE32).length = 32 := by
    rw [← CSHA256.Midstate_eq hs, length_Midstate]
  have hbits : ReadLE64 (ctx.Save.drop 32) = ctx.bytes <<< 3 := by
    rw [hsave, List.drop_left' hmid, ReadLE64_WriteLE64]
  have hshift : (ctx.bytes <<< 3).toNat = 8 * ctx.bytes.toNat := by
    rw [shiftLeft_three_eq, UInt64.toNat_ofNat', Nat.mod_eq_of_lt (by omega)]
  have hback : ctx.bytes <<< 3 >>> 3 = ctx.bytes := by
    apply UInt64.toNat_inj.mp
    rw [UInt64.toNat_shiftRight, show (3 : UInt64).toNat % 64 = 3 from rfl, Nat.shiftRight_eq_div_pow, hshift]
    omega
  have hlow : ctx.bytes <<< 3 &&& 0x07 = 0 := by
    apply UInt64.toNat_inj.mp
    rw [UInt64.toNat_and, show (0x07 : UInt64).toNat = 2 ^ 3 - 1 from rfl, Nat.and_two_pow_sub_one_eq_mod,
      hshift]
    simp
  have hpending : (ctx.Save.drop 40).take (ctx.bytes.toNat % 64) = ctx.buf.take (ctx.bytes.toNat % 64) := by
    rw [hsave, ← List.append_assoc, List.drop_left' (by simp [hmid]), List.take_of_length_le (by simp)]
  have hwords : (List.range 8).map (fun i => ReadBE32 (ctx.Save.drop (4 * i))) = ctx.s := by
    have := map_range_ReadBE32 ctx.s (WriteLE64 (ctx.bytes <<< 3) ++ ctx.buf.take (ctx.bytes.toNat % 64))
    rwa [hs, ← hsave] at this
  have hr : (ctx.buf.take (ctx.bytes.toNat % 64)).length = ctx.bytes.toNat % 64 := by
    simp only [List.length_take, hbuf]
    omega
  refine ⟨⟨ctx.s, memcpy into.buf 0 (ctx.buf.take (ctx.bytes.toNat % 64)), ctx.bytes⟩, ?_, ?_, rfl, ?_⟩
  · unfold CSHA256.Load
    rw [if_neg (by omega)]
    dsimp only
    rw [hbits, hback, if_neg (by rw [hlow, hlen]; simp), hwords, hpending]
  · simp only [CSHA256.view]
    have hmem := @take_memcpy into.buf 0 (ctx.buf.take (ctx.bytes.toNat % 64)) (Nat.zero_le _)
    rw [Nat.zero_add, hr, List.take_zero, List.nil_append] at hmem
    rw [hmem]
  · rw [length_memcpy (by rw [hinto, Nat.zero_add, hr]; omega), hinto]

theorem CSHA256.Wrote.load_save {m : List UInt8} {ctx : CSHA256} (h : CSHA256.new.Wrote m ctx)
    (hm : m.length < 2 ^ 61) : ∃ ctx', CSHA256.new.Load ctx.Save = some ctx' ∧ CSHA256.new.Wrote m ctx' := by
  obtain ⟨ctx', hload, hview, hbytes, hbuf⟩ :=
    CSHA256.Load_Save CSHA256.new h.length_s h.buf_length (by rw [h.bytes_eq]; exact hm) rfl
  exact ⟨ctx', hload, ⟨by rw [hview, h.view], by rw [hbytes, h.bytes], hbuf⟩⟩

/-! ## Writes within the limit -/

theorem SHA256_MAX_toNat : SHA256_MAX.toNat = 2 ^ 61 - 1 := rfl

theorem CSHA256.SafeWrite_of_le {ctx : CSHA256} {d : List UInt8}
    (h : ctx.bytes.toNat + d.length ≤ SHA256_MAX.toNat) : ctx.SafeWrite d = some (ctx.Write d) := by
  have hle : ctx.bytes ≤ SHA256_MAX := by
    rw [UInt64.le_iff_toNat_le]
    omega
  unfold CSHA256.SafeWrite
  rw [if_neg]
  rw [not_or, UInt64.lt_iff_toNat_lt, UInt64.toNat_sub_of_le _ _ hle]
  omega

/-! ## Where a message is split

Writing `a` and then `b`, and writing `a ++ b`, leave contexts that may differ
in the buffer bytes past the pending ones.  Nothing reads those: the two save
to the same bytes and finalize to the same digest.
-/

theorem CSHA256.Wrote.congr {c c' x x' : CSHA256} {d : List UInt8} (h : c.Wrote d x) (h' : c'.Wrote d x')
    (hview : c.view = c'.view) (hbytes : c.bytes = c'.bytes) : x.view = x'.view ∧ x.bytes = x'.bytes :=
  ⟨by rw [h.view, h'.view, hview], UInt64.toNat_inj.mp (by rw [h.bytes, h'.bytes, hbytes])⟩

theorem CSHA256.Save_congr {c c' : CSHA256} (hview : c.view = c'.view) (hbytes : c.bytes = c'.bytes) :
    c.Save = c'.Save := by
  have hs : c.s = c'.s := congrArg Prod.fst hview
  have hp : c.buf.take (c.bytes.toNat % 64) = c'.buf.take (c'.bytes.toNat % 64) := congrArg Prod.snd hview
  unfold CSHA256.Save CSHA256.Midstate
  dsimp only
  rw [hs, hp, hbytes]

theorem CSHA256.Finalize_congr {c c' : CSHA256} (hview : c.view = c'.view) (hbytes : c.bytes = c'.bytes)
    (hbuf : c.buf.length = 64) (hbuf' : c'.buf.length = 64) (hfit : c.bytes.toNat + 72 < 2 ^ 64) :
    c.Finalize = c'.Finalize := by
  unfold CSHA256.Finalize
  dsimp only
  rw [← hbytes]
  have hplen : (pad.take (1 + (119 - c.bytes.toNat % 64) % 64)).length ≤ 64 := by
    rw [List.length_take]
    exact Nat.le_trans (Nat.min_le_right _ _) (by simp [pad])
  have hslen : (WriteBE64 (c.bytes <<< 3)).length = 8 := by simp [WriteBE64]
  generalize pad.take (1 + (119 - c.bytes.toNat % 64) % 64) = p at hplen
  generalize WriteBE64 (c.bytes <<< 3) = sizedesc at hslen
  have h₁ := c.Write_wrote (d := p) hbuf (by omega)
  have h₁' := c'.Write_wrote (d := p) hbuf' (by rw [← hbytes]; omega)
  obtain ⟨hview₁, hbytes₁⟩ := h₁.congr h₁' hview hbytes
  have h₂ := (c.Write p).Write_wrote (d := sizedesc) h₁.buf_length (by rw [h₁.bytes]; omega)
  have h₂' := (c'.Write p).Write_wrote (d := sizedesc) h₁'.buf_length (by rw [h₁'.bytes, ← hbytes]; omega)
  obtain ⟨hview₂, -⟩ := h₂.congr h₂' hview₁ hbytes₁
  unfold CSHA256.Midstate
  rw [show ((c.Write p).Write sizedesc).s = ((c'.Write p).Write sizedesc).s from congrArg Prod.fst hview₂]

/-- Where a message is split into writes does not show: writing `a` then `b`
saves and finalizes as writing `a ++ b` does, from any context, within the
limit `SafeWrite` keeps. -/
theorem CSHA256.Write_append_Save {ctx : CSHA256} (hbuf : ctx.buf.length = 64) (a b : List UInt8)
    (hlen : ctx.bytes.toNat + (a ++ b).length ≤ SHA256_MAX.toNat) :
    ((ctx.Write a).Write b).Save = (ctx.Write (a ++ b)).Save ∧
      ((ctx.Write a).Write b).Finalize = (ctx.Write (a ++ b)).Finalize := by
  rw [SHA256_MAX_toNat, List.length_append] at hlen
  have h₁ := ctx.Write_wrote (d := a) hbuf (by omega)
  have h₂ := (ctx.Write a).Write_wrote (d := b) h₁.buf_length (by rw [h₁.bytes]; omega)
  have h := ctx.Write_wrote (d := a ++ b) hbuf (by rw [List.length_append]; omega)
  obtain ⟨hview, hbytes⟩ := (h₁.trans h₂).congr h rfl rfl
  refine ⟨CSHA256.Save_congr hview hbytes, CSHA256.Finalize_congr hview hbytes h₂.buf_length h.buf_length ?_⟩
  rw [h₂.bytes, h₁.bytes]
  omega

theorem CSHA256.Write_append_Save_new :
    CSHA256.new.buf.length = 64 ∧ CSHA256.new.bytes.toNat + ([1] ++ [2] : List UInt8).length ≤ SHA256_MAX.toNat ∧
      ((CSHA256.new.Write [1]).Write [2]).Save = (CSHA256.new.Write ([1] ++ [2])).Save ∧
      ((CSHA256.new.Write [1]).Write [2]).Finalize = (CSHA256.new.Write ([1] ++ [2])).Finalize :=
  ⟨rfl, by decide, CSHA256.Write_append_Save rfl [1] [2] (by decide)⟩

end Elements
