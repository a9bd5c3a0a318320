import Elements.Primitives.MerkleBlock

/-!
# The wire format of partial Merkle trees

A `CPartialMerkleTree` is sent as `nTransactions` (a `uint32`), the vector of
hashes and the flag bits packed into bytes, least significant bit first
(`BitsToBytes`).  The reader unpacks every bit of every byte (`BytesToBits`),
so it gets the bits back with as many clear bits more as fill the last byte,
and it clears `fBad`.

`ExtractMatches` allows for that padding: it compares the bits it read with the
bits it has rounded up to whole bytes.  A tree built from the txids of a block
and read back from its encoding extracts the block's Merkle root and the
matched txids (`ExtractMatches_Unserialize_new`).
-/

namespace Elements

open Codec Codec.Decoder MerkleLevels

/-- `BitsToBytes`: `ret[p / 8] |= bits[p] << (p % 8)` for every `p`, into
`(bits.size() + 7) / 8` zero bytes. -/
def BitsToBytes (bits : List Bool) : List UInt8 :=
  (List.range bits.length).foldl
    (fun ret p => ret.modify (p / 8) fun byte =>
      byte ||| ((if bits.getD p false then 1 else 0) <<< UInt8.ofNat (p % 8)))
    (List.replicate ((bits.length + 7) / 8) 0)

/-- `BytesToBits`: bit `p % 8` of byte `p / 8`, for every bit of every byte. -/
def BytesToBits (bytes : List UInt8) : List Bool :=
  (List.range (bytes.length * 8)).map fun p => (bytes.getD (p / 8) 0 &&& (1 <<< UInt8.ofNat (p % 8))) != 0

/-! ## Packing bits -/

section Bits

theorem testBit_or_shiftLeft (x : UInt8) (b : Bool) {s j : Nat} (hs : s < 8) (hj : j < 8) :
    (x ||| ((if b then 1 else 0) <<< UInt8.ofNat s)).toNat.testBit j = (x.toNat.testBit j || (b && j == s)) := by
  have hsmod : (UInt8.ofNat s).toNat % 8 = s := by
    rw [UInt8.toNat_ofNat']
    omega
  rw [UInt8.toNat_or, Nat.testBit_or, UInt8.toNat_shiftLeft, hsmod, Nat.testBit_mod_two_pow,
    decide_eq_true hj, Bool.true_and]
  cases b with
  | false => simp
  | true =>
    rw [if_pos rfl, UInt8.toNat_one, Nat.one_shiftLeft, Nat.testBit_two_pow]
    by_cases h : j = s
    · subst h
      simp
    · simp [h, Ne.symm h]

theorem and_shiftLeft_ne_zero (x : UInt8) {s : Nat} (hs : s < 8) :
    ((x &&& (1 <<< UInt8.ofNat s)) != 0) = x.toNat.testBit s := by
  have hsmod : (UInt8.ofNat s).toNat % 8 = s := by
    rw [UInt8.toNat_ofNat']
    omega
  have hpow : 2 ^ s % 2 ^ 8 = 2 ^ s := Nat.mod_eq_of_lt (Nat.pow_lt_pow_right (by norm_num) hs)
  have hval : (x &&& (1 <<< UInt8.ofNat s)).toNat = (x.toNat.testBit s).toNat * 2 ^ s := by
    rw [UInt8.toNat_and, UInt8.toNat_shiftLeft, hsmod, UInt8.toNat_one, Nat.one_shiftLeft, hpow, Nat.and_two_pow]
  cases hb : x.toNat.testBit s with
  | false =>
    rw [hb] at hval
    have hzero : (x &&& (1 <<< UInt8.ofNat s)) = 0 := UInt8.toNat_inj.mp (by rw [hval]; simp)
    rw [hzero]
    rfl
  | true =>
    rw [hb] at hval
    have hne : (x &&& (1 <<< UInt8.ofNat s)) ≠ 0 := by
      intro h
      rw [h, UInt8.toNat_zero] at hval
      have := Nat.two_pow_pos s
      simp at hval
      omega
    simpa using hne

theorem getD_modify {α : Type} (l : List α) (n : Nat) (f : α → α) (i : Nat) (d : α) :
    (l.modify n f).getD i d = if n = i ∧ i < l.length then f (l.getD i d) else l.getD i d := by
  rw [List.getD_eq_getElem?_getD, List.getElem?_modify, List.getD_eq_getElem?_getD]
  by_cases hi : i < l.length
  · rw [List.getElem?_eq_getElem hi]
    by_cases hn : n = i <;> simp [hn, hi]
  · rw [List.getElem?_eq_none (by omega)]
    simp [hi]

/-- The packing loop over the first `k` bits. -/
def packBits (bits : List Bool) (k : Nat) : List UInt8 :=
  (List.range k).foldl
    (fun ret p => ret.modify (p / 8) fun byte =>
      byte ||| ((if bits.getD p false then 1 else 0) <<< UInt8.ofNat (p % 8)))
    (List.replicate ((bits.length + 7) / 8) 0)

theorem packBits_succ (bits : List Bool) (k : Nat) :
    packBits bits (k + 1) = (packBits bits k).modify (k / 8) fun byte =>
      byte ||| ((if bits.getD k false then 1 else 0) <<< UInt8.ofNat (k % 8)) := by
  rw [packBits, List.range_succ, List.foldl_append, List.foldl_cons, List.foldl_nil]
  rfl

theorem length_packBits (bits : List Bool) (k : Nat) : (packBits bits k).length = (bits.length + 7) / 8 := by
  induction k with
  | zero => rw [packBits, List.range_zero, List.foldl_nil, List.length_replicate]
  | succ k ih => rw [packBits_succ, List.length_modify, ih]

theorem testBit_packBits (bits : List Bool) (k i : Nat) {j : Nat} (hj : j < 8) :
    ((packBits bits k).getD i 0).toNat.testBit j = (decide (8 * i + j < k) && bits.getD (8 * i + j) false) := by
  induction k with
  | zero => simp [packBits]
  | succ k ih =>
    rw [packBits_succ, getD_modify, length_packBits]
    by_cases hk : k / 8 = i ∧ i < (bits.length + 7) / 8
    · -- the byte that bit `k` goes into
      rw [if_pos hk, testBit_or_shiftLeft _ _ (Nat.mod_lt k (by norm_num)) hj, ih]
      by_cases hjk : j = k % 8
      · have hidx : 8 * i + j = k := by omega
        rw [hidx]
        simp [hjk]
      · have hlt : (8 * i + j < k + 1) = (8 * i + j < k) := by
          apply propext
          omega
        simp [hjk, hlt]
    · rw [if_neg hk, ih]
      by_cases hki : k / 8 = i
      · -- past the last byte: no bit there
        have hout : bits.length ≤ 8 * i + j := by omega
        rw [List.getD_eq_default _ _ hout]
        simp
      · have hlt : (8 * i + j < k + 1) = (8 * i + j < k) := by
          apply propext
          omega
        simp [hlt]

theorem BitsToBytes_eq (bits : List Bool) : BitsToBytes bits = packBits bits bits.length := rfl

theorem length_BitsToBytes (bits : List Bool) : (BitsToBytes bits).length = (bits.length + 7) / 8 := by
  rw [BitsToBytes_eq, length_packBits]

theorem BytesToBits_BitsToBytes (bits : List Bool) :
    BytesToBits (BitsToBytes bits) = bits ++ List.replicate ((bits.length + 7) / 8 * 8 - bits.length) false := by
  apply List.ext_getElem
  · simp only [BytesToBits, List.length_map, List.length_range, length_BitsToBytes, List.length_append,
      List.length_replicate]
    omega
  · intro p hp _
    simp only [BytesToBits, List.length_map, List.length_range] at hp
    simp only [BytesToBits, List.getElem_map, List.getElem_range]
    rw [and_shiftLeft_ne_zero _ (Nat.mod_lt p (by norm_num)),
      BitsToBytes_eq, testBit_packBits _ _ _ (Nat.mod_lt p (by norm_num)), show 8 * (p / 8) + p % 8 = p by omega]
    by_cases hlt : p < bits.length
    · rw [List.getElem_append_left hlt, decide_eq_true hlt, Bool.true_and, List.getD_eq_getElem _ _ hlt]
    · rw [List.getElem_append_right (Nat.le_of_not_lt hlt), List.getElem_replicate, decide_eq_false hlt,
        Bool.false_and]

end Bits

/-! ## The tree on the wire -/

section Serialization

/-- `SERIALIZE_METHODS(CPartialMerkleTree, obj)` writing a tree of `uint256`s:
`nTransactions`, `vHash`, then the bits packed into bytes. -/
def CPartialMerkleTree.Serialize (t : CPartialMerkleTree Uint256) : List UInt8 :=
  ser_writedata32 (UInt32.ofNat t.nTransactions) ++
    (WriteCompactSize t.vHash.length ++ (t.vHash.map BaseBlob.Serialize).flatten) ++
    SerializeByteVector (BitsToBytes t.vBits)

/-- `SERIALIZE_METHODS(CPartialMerkleTree, obj)` reading: the bits are
unpacked from the bytes and `fBad` is cleared. -/
def CPartialMerkleTree.Unserialize : Decoder (CPartialMerkleTree Uint256) := do
  let nTransactions <- ser_readdata32
  let vHash <- UnserializeVector (BaseBlob.Unserialize 32)
  let bytes <- UnserializeByteVector
  Pure.pure ⟨nTransactions.toNat, BytesToBits bytes, vHash, false⟩

theorem CPartialMerkleTree.Unserialize_pads_bits (t : CPartialMerkleTree Uint256) (hn : t.nTransactions < 2 ^ 32)
    (hhash : t.vHash.length ≤ MAX_SIZE) (hbits : (t.vBits.length + 7) / 8 ≤ MAX_SIZE) (rest : List UInt8) :
    CPartialMerkleTree.Unserialize (t.Serialize ++ rest) =
      .ok ({ t with
        vBits := t.vBits ++ List.replicate ((t.vBits.length + 7) / 8 * 8 - t.vBits.length) false
        fBad := false }, rest) := by
  have h32 := ser_readdata32_inverts (UInt32.ofNat t.nTransactions) trivial
    ((WriteCompactSize t.vHash.length ++ (t.vHash.map BaseBlob.Serialize).flatten) ++
      (SerializeByteVector (BitsToBytes t.vBits) ++ rest))
  have hsize := ReadCompactSize_inverts t.vHash.length hhash
    ((t.vHash.map BaseBlob.Serialize).flatten ++ (SerializeByteVector (BitsToBytes t.vBits) ++ rest))
  have hitems := replicate_inverts (BaseBlob.Unserialize_inverts 32) t.vHash (fun _ _ => trivial)
    (SerializeByteVector (BitsToBytes t.vBits) ++ rest)
  have hbytes := UnserializeByteVector_inverts (BitsToBytes t.vBits)
    (by rw [ByteVectorFits, length_BitsToBytes]; exact hbits) rest
  have hvec : UnserializeVector (BaseBlob.Unserialize 32)
      ((WriteCompactSize t.vHash.length ++ (t.vHash.map BaseBlob.Serialize).flatten) ++
        (SerializeByteVector (BitsToBytes t.vBits) ++ rest)) =
      .ok (t.vHash, SerializeByteVector (BitsToBytes t.vBits) ++ rest) := by
    show (ReadCompactSize >>= fun nSize => replicate nSize (BaseBlob.Unserialize 32)) _ = _
    rw [List.append_assoc, bind_apply_of_ok hsize, hitems]
  have hval : (UInt32.ofNat t.nTransactions).toNat = t.nTransactions := UInt32.toNat_ofNat_of_lt' hn
  show (ser_readdata32 >>= fun n => UnserializeVector (BaseBlob.Unserialize 32) >>= fun vHash =>
      UnserializeByteVector >>= fun bytes => Pure.pure (CPartialMerkleTree.mk n.toNat (BytesToBits bytes) vHash false))
      (ser_writedata32 (UInt32.ofNat t.nTransactions) ++
        (WriteCompactSize t.vHash.length ++ (t.vHash.map BaseBlob.Serialize).flatten) ++
        SerializeByteVector (BitsToBytes t.vBits) ++ rest) = _
  rw [List.append_assoc, List.append_assoc, bind_apply_of_ok h32, bind_apply_of_ok hvec,
    bind_apply_of_ok hbytes, pure_apply, hval, BytesToBits_BitsToBytes]

/-- The encoding of a tree built from at most `MAX_BLOCK_WEIGHT /
MIN_TRANSACTION_WEIGHT` txids reads back as the tree with its bits padded to
whole bytes. -/
theorem CPartialMerkleTree.Unserialize_Serialize_new {Hash : Uint256 → Uint256 → Uint256} {vTxid : List Uint256}
    {vMatch : List Bool} {t : CPartialMerkleTree Uint256} (hne : vTxid ≠ []) (hlen : vTxid.length ≤ vMatch.length)
    (hmax : vTxid.length ≤ MAX_BLOCK_WEIGHT / MIN_TRANSACTION_WEIGHT)
    (ht : CPartialMerkleTree.new Hash (BaseBlob.zero 32) vTxid vMatch = some t) (rest : List UInt8) :
    CPartialMerkleTree.Unserialize (t.Serialize ++ rest) =
      .ok ({ t with vBits := t.vBits ++ List.replicate ((t.vBits.length + 7) / 8 * 8 - t.vBits.length) false },
        rest) := by
  rw [CPartialMerkleTree.new_eq hne hlen, Option.some.injEq] at ht
  subst ht
  -- at most `2 ^ 15` txids: the count, the hashes and the bytes of bits all fit their fields
  have hmax' : vTxid.length ≤ 2 ^ 15 := Nat.le_trans hmax (by decide)
  have hheight : height vTxid.length ≤ 15 := Nat.clog_le_of_le_pow hmax'
  have hpos : 0 < width vTxid.length (height vTxid.length) := width_pos_iff.mpr (List.length_pos_iff.mpr hne)
  obtain ⟨-, hhashes⟩ := @CPartialMerkleTree.length_TraverseAndBuild_le _ Hash (BaseBlob.zero 32)
    vTxid.length vTxid vMatch (height vTxid.length) 0 hpos
  rw [span_height, List.length_range] at hhashes
  have hbits := @CPartialMerkleTree.length_TraverseAndBuild_bits_lt _ Hash (BaseBlob.zero 32)
    vTxid.length vTxid vMatch (height vTxid.length) 0
  have hpow : 2 ^ (height vTxid.length + 1) ≤ 2 ^ 16 := Nat.pow_le_pow_right (by norm_num) (by omega)
  have hsize : MAX_SIZE = 0x02000000 := rfl
  exact CPartialMerkleTree.Unserialize_pads_bits _ (by dsimp only; omega) (by dsimp only; omega)
    (by dsimp only; omega) rest

theorem length_pad_bits (bits : List Bool) :
    (bits.length + (List.replicate ((bits.length + 7) / 8 * 8 - bits.length) false).length + 7) / 8 =
      (bits.length + 7) / 8 := by
  rw [List.length_replicate]
  omega

end Serialization

/-- A partial Merkle tree built from nonempty distinct txids, a flag for each,
and read back from its encoding, extracts the Merkle root of the txids and the
flagged ones with their positions: unless the hash has a collision, the proof
a `CMerkleBlock` carries checks out. -/
theorem ExtractMatches_Unserialize_new (Hash : Uint256 → Uint256 → Uint256) {vTxid : List Uint256}
    {vMatch : List Bool} (hne : vTxid ≠ []) (hlen : vTxid.length ≤ vMatch.length)
    (hmax : vTxid.length ≤ MAX_BLOCK_WEIGHT / MIN_TRANSACTION_WEIGHT) (hnd : vTxid.Nodup)
    (vnIndex : List Nat) (rest : List UInt8) :
    ∃ t, CPartialMerkleTree.new Hash (BaseBlob.zero 32) vTxid vMatch = some t ∧
      ∃ t', CPartialMerkleTree.Unserialize (t.Serialize ++ rest) = .ok (t', rest) ∧
        (t'.ExtractMatches Hash (BaseBlob.zero 32) vnIndex =
            ⟨(ComputeMerkleRoot Hash (BaseBlob.zero 32) vTxid).1,
              ((List.range vTxid.length).filter fun i => vMatch.getD i false).map
                fun i => vTxid.getD i (BaseBlob.zero 32),
              vnIndex ++ (List.range vTxid.length).filter fun i => vMatch.getD i false, false⟩ ∨
          Collision Hash) := by
  have ht := @CPartialMerkleTree.new_eq _ Hash (BaseBlob.zero 32) _ _ hne hlen
  refine ⟨_, ht, _, CPartialMerkleTree.Unserialize_Serialize_new hne hlen hmax ht rest, ?_⟩
  by_cases hc : Collision Hash
  · exact .inr hc
  · exact .inl (CPartialMerkleTree.ExtractMatches_new_padded hne hlen hmax (levelsNodup_of_not_collision hc hnd) ht
      _ (length_pad_bits _) vnIndex)

/-- Two txids, the second one flagged, hashed by taking the left child. -/
theorem ExtractMatches_Unserialize_new_two :
    [BaseBlob.zero 32, (⟨List.replicate 32 1, List.length_replicate⟩ : Uint256)] ≠ [] ∧
      [BaseBlob.zero 32, (⟨List.replicate 32 1, List.length_replicate⟩ : Uint256)].length ≤ [false, true].length ∧
      [BaseBlob.zero 32, (⟨List.replicate 32 1, List.length_replicate⟩ : Uint256)].length ≤
        MAX_BLOCK_WEIGHT / MIN_TRANSACTION_WEIGHT ∧
      [BaseBlob.zero 32, (⟨List.replicate 32 1, List.length_replicate⟩ : Uint256)].Nodup ∧
      ∃ t, CPartialMerkleTree.new (fun a _ => a) (BaseBlob.zero 32)
          [BaseBlob.zero 32, ⟨List.replicate 32 1, List.length_replicate⟩] [false, true] = some t ∧
        ∃ t', CPartialMerkleTree.Unserialize (t.Serialize ++ []) = .ok (t', []) ∧
          (t'.ExtractMatches (fun a _ => a) (BaseBlob.zero 32) [] =
              ⟨(ComputeMerkleRoot (fun a _ => a) (BaseBlob.zero 32)
                  [BaseBlob.zero 32, ⟨List.replicate 32 1, List.length_replicate⟩]).1,
                ((List.range [BaseBlob.zero 32, (⟨List.replicate 32 1, List.length_replicate⟩ : Uint256)].length).filter
                  fun i => [false, true].getD i false).map
                  fun i => [BaseBlob.zero 32, (⟨List.replicate 32 1, List.length_replicate⟩ : Uint256)].getD i
                    (BaseBlob.zero 32),
                [] ++ (List.range [BaseBlob.zero 32, (⟨List.replicate 32 1, List.length_replicate⟩ : Uint256)].length).filter
                  fun i => [false, true].getD i false, false⟩ ∨
            Collision fun a (_ : Uint256) => a) :=
  ⟨by decide, by decide, by decide, by decide,
    ExtractMatches_Unserialize_new _ (by decide) (by decide) (by decide) (by decide) [] []⟩

/-- A partial Merkle tree as a proof that txids are in a block, as `pegins.cpp`
reads it with empty `vMatch` and `vnIndex`: complete, for a tree built from
nonempty txids, a flag for each, and read back from its encoding, when the
nodes on each level of the txids' tree are distinct; and sound, for any tree
and txids `L` as many as it says, when each node of the tree over `L` has one
preimage. -/
theorem ExtractMatches_complete_sound (Hash : Uint256 → Uint256 → Uint256) :
    (∀ (vTxid : List Uint256) (vMatch : List Bool), vTxid ≠ [] → vMatch.length = vTxid.length →
      vTxid.length ≤ MAX_BLOCK_WEIGHT / MIN_TRANSACTION_WEIGHT → LevelsNodup Hash vTxid →
      ∃ t, CPartialMerkleTree.new Hash (BaseBlob.zero 32) vTxid vMatch = some t ∧ ∀ rest,
        ∃ t', CPartialMerkleTree.Unserialize (t.Serialize ++ rest) = .ok (t', rest) ∧
          t'.ExtractMatches Hash (BaseBlob.zero 32) [] =
            ⟨(ComputeMerkleRoot Hash (BaseBlob.zero 32) vTxid).1,
              ((List.range vTxid.length).filter fun i => vMatch.getD i false).map
                fun i => vTxid.getD i (BaseBlob.zero 32),
              (List.range vTxid.length).filter fun i => vMatch.getD i false, false⟩) ∧
    ∀ (t : CPartialMerkleTree Uint256) (L : List Uint256), L.length = t.nTransactions → NodesBinding Hash L →
      (t.ExtractMatches Hash (BaseBlob.zero 32) []).root = (ComputeMerkleRoot Hash (BaseBlob.zero 32) L).1 →
      (t.ExtractMatches Hash (BaseBlob.zero 32) []).root ≠ BaseBlob.zero 32 →
      (t.ExtractMatches Hash (BaseBlob.zero 32) []).vMatch.length =
          (t.ExtractMatches Hash (BaseBlob.zero 32) []).vnIndex.length ∧
        ∀ p ∈ (t.ExtractMatches Hash (BaseBlob.zero 32) []).vMatch.zip
            (t.ExtractMatches Hash (BaseBlob.zero 32) []).vnIndex, L[p.2]? = some p.1 := by
  refine ⟨fun vTxid vMatch hne hlen hmax hnd => ?_, fun t L hn hbind hroot hnull => ?_⟩
  · have ht := @CPartialMerkleTree.new_eq _ Hash (BaseBlob.zero 32) _ _ hne hlen.ge
    refine ⟨_, ht, fun rest => ⟨_, CPartialMerkleTree.Unserialize_Serialize_new hne hlen.ge hmax ht rest, ?_⟩⟩
    rw [CPartialMerkleTree.ExtractMatches_new_padded hne hlen.ge hmax hnd ht _ (length_pad_bits _) [],
      List.nil_append]
  · obtain ⟨idx, hv, hm, -, hlt⟩ := CPartialMerkleTree.ExtractMatches_sound_of_binding t [] hbind hn hroot hnull
    rw [List.nil_append] at hv
    rw [hv, hm, List.length_map]
    refine ⟨rfl, fun p hp => ?_⟩
    -- the pairs are `(L.getD i, i)` for the positions `i` the extraction reports
    have hzip := @List.zip_map' _ _ _ (fun i => L.getD i (BaseBlob.zero 32)) id idx
    rw [List.map_id] at hzip
    rw [hzip, List.mem_map] at hp
    obtain ⟨i, hi, rfl⟩ := hp
    show L[i]? = some (L.getD i (BaseBlob.zero 32))
    rw [List.getD_eq_getElem _ _ (hlt i hi), List.getElem?_eq_getElem (hlt i hi)]

/-- Two txids. -/
def pairTxids : List Uint256 :=
  [⟨List.replicate 32 1, List.length_replicate⟩, ⟨List.replicate 32 2, List.length_replicate⟩]

def pairRoot : Uint256 := ⟨List.replicate 32 3, List.length_replicate⟩

/-- A node hash that is binding on the tree over `pairTxids` only: `pairRoot`
for the two txids, `uint256()` for every other pair. -/
def pairHash (a b : Uint256) : Uint256 := if [a, b] = pairTxids then pairRoot else BaseBlob.zero 32

/-- The tree over `pairTxids` that flags the second one. -/
def pairTree : CPartialMerkleTree Uint256 := ⟨2, [true, false, true], pairTxids, false⟩

theorem height_pairTxids : height pairTxids.length = 1 :=
  Nat.clog_pow 2 1 Nat.one_lt_two

theorem NodesBinding_pairHash : NodesBinding pairHash pairTxids := by
  intro h hh x hx a b c d hab hcd
  rw [height_pairTxids] at hh
  obtain rfl : h = 0 := by omega
  -- the only node above the leaves is the root
  have hlevel : level pairHash pairTxids (0 + 1) = [pairRoot] := by decide
  rw [hlevel, List.mem_singleton] at hx
  subst hx
  -- only the two txids hash to it
  have hpre : ∀ a b, pairHash a b = pairRoot → [a, b] = pairTxids := by
    intro a b h
    unfold pairHash at h
    split_ifs at h with heq
    · exact heq
    · exact absurd h (by decide)
  have hsame : [a, b] = [c, d] := (hpre a b hab).trans (hpre c d hcd).symm
  simpa using hsame

/-- The tree over `pairTxids` that flags the second one reads back from its
encoding and extracts `pairRoot` and the second txid at position 1, which the
extraction from the tree as built proves to be there. -/
theorem ExtractMatches_complete_sound_pair :
    CPartialMerkleTree.new pairHash (BaseBlob.zero 32) pairTxids [false, true] = some pairTree ∧
      (∃ t', CPartialMerkleTree.Unserialize (pairTree.Serialize ++ []) = .ok (t', []) ∧
        t'.ExtractMatches pairHash (BaseBlob.zero 32) [] =
          ⟨pairRoot, [pairTxids.getD 1 (BaseBlob.zero 32)], [1], false⟩) ∧
      ∀ p ∈ (pairTree.ExtractMatches pairHash (BaseBlob.zero 32) []).vMatch.zip
          (pairTree.ExtractMatches pairHash (BaseBlob.zero 32) []).vnIndex, pairTxids[p.2]? = some p.1 := by
  have hnd : LevelsNodup pairHash pairTxids := by
    intro h hh
    rw [height_pairTxids] at hh
    obtain rfl : h = 0 := by omega
    decide
  obtain ⟨t, ht, hread⟩ := (ExtractMatches_complete_sound pairHash).1 pairTxids [false, true] (by decide) rfl
    (by decide) hnd
  have hbuilt : pairTree = t := by
    have hnew : CPartialMerkleTree.new pairHash (BaseBlob.zero 32) pairTxids [false, true] = some pairTree := rfl
    rw [hnew, Option.some.injEq] at ht
    exact ht
  subst hbuilt
  obtain ⟨t', hu, hext⟩ := hread []
  refine ⟨ht, ⟨t', hu, by rw [hext]; rfl⟩, ?_⟩
  have hroot : (pairTree.ExtractMatches pairHash (BaseBlob.zero 32) []).root =
      (ComputeMerkleRoot pairHash (BaseBlob.zero 32) pairTxids).1 := by decide
  have hnull : (pairTree.ExtractMatches pairHash (BaseBlob.zero 32) []).root ≠ BaseBlob.zero 32 := by decide
  exact ((ExtractMatches_complete_sound pairHash).2 pairTree pairTxids rfl NodesBinding_pairHash hroot hnull).2

end Elements
