import Elements.Codec.Bits
import Elements.Primitives.Transaction

/-!
# The transaction wire format

What `SerializeTransaction` and `UnserializeTransaction` guarantee about each
other in Elements mode, over a stream that carries witnesses.

Reading back what was written gives the transaction again when it is
*canonical*: every commitment is null, explicit or a commitment, the input
index has no flag bits, an input's issuance is either present (non-null) or the
default one, a coinbase input has neither issuance nor peg-in flag, and no
input combines the index `OUTPOINT_INDEX_MASK` with both an issuance and the
peg-in flag, which would write the all-ones coinbase index.  The witness comes
back padded to one record per input and output, or empty when it was null
(`UnserializeTransaction_inverts`).  Conversely every accepted byte string
is written back exactly (`UnserializeTransaction_sound`).

An issuance with no amounts is not written at all, so what it carries besides
them is lost (`SerializeTransaction_drops_null_issuance_entropy`).
-/

namespace Elements

open Codec Codec.Decoder Codec.Bits

/-!
## Commitments
-/

namespace CConfidentialCommitment

variable {ExplicitSize : Nat} {PrefixA PrefixB : UInt8}

theorem IsValid_cons {version : UInt8} {body : List UInt8}
    (hvalid : (⟨version :: body⟩ :
      CConfidentialCommitment ExplicitSize PrefixA PrefixB).IsValid = true) :
    (body.length + 1 = ExplicitSize ∧ version = 1) ∨
      (body.length + 1 = nCommittedSize ∧ (version = PrefixA ∨ version = PrefixB)) := by
  simpa [IsValid, IsNull, IsExplicit, IsCommitment] using hvalid

/-- The prefixes of a commitment type differ from the null and explicit
markers, and its explicit form has a version byte. -/
structure ParamsOk (ExplicitSize : Nat) (PrefixA PrefixB : UInt8) : Prop where
  explicit_pos : 1 ≤ ExplicitSize
  prefixA_ne_zero : PrefixA ≠ 0
  prefixA_ne_one : PrefixA ≠ 1
  prefixB_ne_zero : PrefixB ≠ 0
  prefixB_ne_one : PrefixB ≠ 1

theorem Unserialize_inverts (hparams : ParamsOk ExplicitSize PrefixA PrefixB) :
    Inverts (fun c => c.IsValid = true) Serialize
      (Unserialize : Decoder (CConfidentialCommitment ExplicitSize PrefixA PrefixB)) := by
  intro c hvalid rest
  rcases c with ⟨_ | ⟨version, body⟩⟩
  · rfl
  · show (ser_readdata8 >>= _) (version :: (body ++ rest)) = _
    rw [bind_apply_of_ok (ser_readdata8_cons version _)]
    rcases IsValid_cons hvalid with ⟨hlen, rfl⟩ | ⟨hlen, hprefix⟩
    · -- explicit: the version byte 1, then the rest of the explicit form
      have hbody : ExplicitSize - 1 = body.length := by omega
      rw [if_neg (by decide), if_pos rfl, hbody, bind_apply_of_ok (readBytes_append _ body rest)]
      rfl
    · -- a commitment: one of the two prefixes, then 32 bytes
      have h0 : version ≠ 0 := by
        rcases hprefix with rfl | rfl
        · exact hparams.prefixA_ne_zero
        · exact hparams.prefixB_ne_zero
      have h1 : version ≠ 1 := by
        rcases hprefix with rfl | rfl
        · exact hparams.prefixA_ne_one
        · exact hparams.prefixB_ne_one
      have hbody : nCommittedSize - 1 = body.length := by
        rw [← hlen]
        rfl
      rw [if_neg h0, if_neg h1, if_pos hprefix, hbody,
        bind_apply_of_ok (readBytes_append _ body rest)]
      rfl

theorem Unserialize_sound (hparams : ParamsOk ExplicitSize PrefixA PrefixB) :
    Sound (fun c => c.IsValid = true) Serialize
      (Unserialize : Decoder (CConfidentialCommitment ExplicitSize PrefixA PrefixB)) := by
  intro bytes c rest hdec
  rcases bind_eq_ok hdec with ⟨version, mid, hversion, hnext⟩
  rcases ser_readdata8_sound bytes version mid hversion with ⟨-, rfl⟩
  clear hdec
  by_cases h0 : version = 0
  · rw [if_pos h0] at hnext
    cases hnext
    subst h0
    exact ⟨rfl, rfl⟩
  rw [if_neg h0] at hnext
  by_cases h1 : version = 1
  · rw [if_pos h1] at hnext
    rcases bind_eq_ok hnext with ⟨body, mid', hbody, hnext⟩
    cases hnext
    rcases readBytes_eq_ok hbody with ⟨rfl, hlen⟩
    have hsize := hparams.explicit_pos
    subst h1
    refine ⟨?_, rfl⟩
    simp [IsValid, IsExplicit, hlen]
    omega
  rw [if_neg h1] at hnext
  by_cases hprefix : version = PrefixA ∨ version = PrefixB
  · rw [if_pos hprefix] at hnext
    rcases bind_eq_ok hnext with ⟨body, mid', hbody, hnext⟩
    cases hnext
    rcases readBytes_eq_ok hbody with ⟨rfl, hlen⟩
    refine ⟨?_, rfl⟩
    simp [IsValid, IsCommitment, hlen, nCommittedSize, hprefix]
  · rw [if_neg hprefix] at hnext
    cases hnext

end CConfidentialCommitment

theorem CConfidentialAsset_paramsOk : CConfidentialCommitment.ParamsOk 33 10 11 :=
  ⟨by decide, by decide, by decide, by decide, by decide⟩

theorem CConfidentialValue_paramsOk : CConfidentialCommitment.ParamsOk 9 8 9 :=
  ⟨by decide, by decide, by decide, by decide, by decide⟩

theorem CConfidentialNonce_paramsOk : CConfidentialCommitment.ParamsOk 33 2 3 :=
  ⟨by decide, by decide, by decide, by decide, by decide⟩

/-!
## Issuances and outpoints
-/

/-- An issuance whose two amounts can be read back. -/
def CAssetIssuance.Valid (a : CAssetIssuance) : Prop :=
  a.nAmount.IsValid = true ∧ a.nInflationKeys.IsValid = true

instance : DecidablePred CAssetIssuance.Valid := fun a => by
  unfold CAssetIssuance.Valid
  infer_instance

theorem CAssetIssuance.empty_Valid : CAssetIssuance.empty.Valid := by
  decide

theorem CAssetIssuance.Unserialize_inverts :
    Inverts CAssetIssuance.Valid CAssetIssuance.Serialize CAssetIssuance.Unserialize := by
  intro a hvalid rest
  rcases a with ⟨nonce, entropy, amount, keys⟩
  rcases hvalid with ⟨hamount, hkeys⟩
  have hvalue := CConfidentialCommitment.Unserialize_inverts CConfidentialValue_paramsOk
  unfold CAssetIssuance.Unserialize CAssetIssuance.Serialize
  simp only [List.append_assoc]
  rw [bind_apply_of_ok (BaseBlob.Unserialize_inverts 32 nonce trivial _),
    bind_apply_of_ok (BaseBlob.Unserialize_inverts 32 entropy trivial _),
    bind_apply_of_ok (hvalue amount hamount _), bind_apply_of_ok (hvalue keys hkeys rest)]
  rfl

theorem CAssetIssuance.Unserialize_sound :
    Sound CAssetIssuance.Valid CAssetIssuance.Serialize CAssetIssuance.Unserialize := by
  intro bytes a rest hdec
  have hvalue := CConfidentialCommitment.Unserialize_sound CConfidentialValue_paramsOk
  rcases bind_eq_ok hdec with ⟨nonce, mid1, hnonce, hdec⟩
  rcases bind_eq_ok hdec with ⟨entropy, mid2, hentropy, hdec⟩
  rcases bind_eq_ok hdec with ⟨amount, mid3, hamount, hdec⟩
  rcases bind_eq_ok hdec with ⟨keys, mid4, hkeys, hdec⟩
  cases hdec
  rcases BaseBlob.Unserialize_sound 32 bytes nonce mid1 hnonce with ⟨-, rfl⟩
  rcases BaseBlob.Unserialize_sound 32 mid1 entropy mid2 hentropy with ⟨-, rfl⟩
  rcases hvalue mid2 amount mid3 hamount with ⟨hamountValid, rfl⟩
  rcases hvalue mid3 keys rest hkeys with ⟨hkeysValid, rfl⟩
  refine ⟨⟨hamountValid, hkeysValid⟩, ?_⟩
  simp [CAssetIssuance.Serialize]

theorem COutPoint.Unserialize_inverts :
    Inverts (fun _ => True) COutPoint.Serialize COutPoint.Unserialize := by
  intro p _ rest
  rcases p with ⟨hash, n⟩
  unfold COutPoint.Unserialize COutPoint.Serialize
  rw [List.append_assoc, bind_apply_of_ok (BaseBlob.Unserialize_inverts 32 hash trivial _),
    bind_apply_of_ok (ser_readdata32_inverts n trivial rest)]
  rfl

theorem COutPoint.Unserialize_sound :
    Sound (fun _ => True) COutPoint.Serialize COutPoint.Unserialize := by
  intro bytes p rest hdec
  rcases bind_eq_ok hdec with ⟨hash, mid, hhash, hdec⟩
  rcases bind_eq_ok hdec with ⟨n, mid', hn, hdec⟩
  cases hdec
  rcases BaseBlob.Unserialize_sound 32 bytes hash mid hhash with ⟨-, rfl⟩
  rcases ser_readdata32_sound mid n rest hn with ⟨-, rfl⟩
  exact ⟨trivial, by simp [COutPoint.Serialize]⟩

/-!
## The flags in the outpoint index
-/

theorem OUTPOINT_INDEX_MASK_toNat : COutPoint.OUTPOINT_INDEX_MASK.toNat = 2 ^ 30 - 1 := by
  decide

theorem OUTPOINT_ISSUANCE_FLAG_toNat : COutPoint.OUTPOINT_ISSUANCE_FLAG.toNat = 2 ^ 31 := by
  decide

theorem OUTPOINT_PEGIN_FLAG_toNat : COutPoint.OUTPOINT_PEGIN_FLAG.toNat = 2 ^ 30 := by
  decide

theorem toNat_packed_index (n : UInt32) (f p : Bool) :
    ((n &&& COutPoint.OUTPOINT_INDEX_MASK) |||
        (if f then COutPoint.OUTPOINT_ISSUANCE_FLAG else 0) |||
        (if p then COutPoint.OUTPOINT_PEGIN_FLAG else 0)).toNat =
      n.toNat % 2 ^ 30 + p.toNat * 2 ^ 30 + f.toNat * 2 ^ 31 := by
  have hindex : (n &&& COutPoint.OUTPOINT_INDEX_MASK).toNat = n.toNat % 2 ^ 30 :=
    toNat_and_low_mask n _ 30 OUTPOINT_INDEX_MASK_toNat
  have hlow : n.toNat % 2 ^ 30 < 2 ^ 30 := Nat.mod_lt _ (Nat.two_pow_pos 30)
  cases f <;> cases p
  · simp only [Bool.false_eq_true, if_false, UInt32.or_zero, Bool.toNat_false]
    omega
  · simp only [Bool.false_eq_true, if_false, if_true, UInt32.or_zero, Bool.toNat_false,
      Bool.toNat_true]
    rw [toNat_or_high_bit _ _ 30 OUTPOINT_PEGIN_FLAG_toNat (by omega)]
    omega
  · simp only [Bool.false_eq_true, if_false, if_true, UInt32.or_zero, Bool.toNat_false,
      Bool.toNat_true]
    rw [toNat_or_high_bit _ _ 31 OUTPOINT_ISSUANCE_FLAG_toNat (by omega)]
    omega
  · -- both flags: set the lower one first so that each step adds a bit above the value
    simp only [if_true, Bool.toNat_true]
    rw [UInt32.or_assoc, UInt32.or_comm COutPoint.OUTPOINT_ISSUANCE_FLAG, ← UInt32.or_assoc]
    have hpegin := toNat_or_high_bit (n &&& COutPoint.OUTPOINT_INDEX_MASK) _ 30
      OUTPOINT_PEGIN_FLAG_toNat (by omega)
    rw [toNat_or_high_bit _ _ 31 OUTPOINT_ISSUANCE_FLAG_toNat (by omega), hpegin]
    omega

theorem packed_index_of_fields (n : UInt32) :
    (n &&& COutPoint.OUTPOINT_INDEX_MASK) |||
        (if (n &&& COutPoint.OUTPOINT_ISSUANCE_FLAG != 0) then COutPoint.OUTPOINT_ISSUANCE_FLAG
          else 0) |||
        (if (n &&& COutPoint.OUTPOINT_PEGIN_FLAG != 0) then COutPoint.OUTPOINT_PEGIN_FLAG
          else 0) = n := by
  apply UInt32.toNat_inj.mp
  rw [toNat_packed_index, toNat_bne_and_bit n _ 31 OUTPOINT_ISSUANCE_FLAG_toNat,
    toNat_bne_and_bit n _ 30 OUTPOINT_PEGIN_FLAG_toNat]
  have hn : n.toNat < 2 ^ 32 := UInt32.toNat_lt n
  omega

theorem packed_index_digits (n : Nat) (hn : n < 2 ^ 30) (f p : Bool) :
    (n + p.toNat * 2 ^ 30 + f.toNat * 2 ^ 31) / 2 ^ 31 % 2 = f.toNat ∧
    (n + p.toNat * 2 ^ 30 + f.toNat * 2 ^ 31) / 2 ^ 30 % 2 = p.toNat ∧
    (n + p.toNat * 2 ^ 30 + f.toNat * 2 ^ 31) % 2 ^ 30 = n ∧
    (n + p.toNat * 2 ^ 30 + f.toNat * 2 ^ 31 = 2 ^ 32 - 1 ↔
      n = 2 ^ 30 - 1 ∧ f.toNat = 1 ∧ p.toNat = 1) := by
  have hf := Bool.toNat_le f
  have hp := Bool.toNat_le p
  omega

theorem packed_index_fields (n : UInt32) (hn : n.toNat < 2 ^ 30) (f p : Bool) :
    let packed := (n &&& COutPoint.OUTPOINT_INDEX_MASK) |||
      (if f then COutPoint.OUTPOINT_ISSUANCE_FLAG else 0) |||
      (if p then COutPoint.OUTPOINT_PEGIN_FLAG else 0)
    (packed = 0xffffffff ↔ n = COutPoint.OUTPOINT_INDEX_MASK ∧ f = true ∧ p = true) ∧
      (packed &&& COutPoint.OUTPOINT_ISSUANCE_FLAG != 0) = f ∧
      (packed &&& COutPoint.OUTPOINT_PEGIN_FLAG != 0) = p ∧
      packed &&& COutPoint.OUTPOINT_INDEX_MASK = n := by
  intro packed
  have hpacked : packed.toNat = n.toNat + p.toNat * 2 ^ 30 + f.toNat * 2 ^ 31 := by
    rw [toNat_packed_index n f p, Nat.mod_eq_of_lt hn]
  obtain ⟨hissuance, hpegin, hindex, hall⟩ := packed_index_digits n.toNat hn f p
  have hones : (0xffffffff : UInt32).toNat = 2 ^ 32 - 1 := by decide
  refine ⟨?_, ?_, ?_, ?_⟩
  · rw [← UInt32.toNat_inj, hpacked, hones, ← UInt32.toNat_inj, OUTPOINT_INDEX_MASK_toNat, hall,
      Bool.toNat_eq_one, Bool.toNat_eq_one]
  · apply Bool.eq_iff_iff.mpr
    rw [bne_iff_ne, and_bit_ne_zero_iff packed _ 31 OUTPOINT_ISSUANCE_FLAG_toNat, hpacked,
      hissuance, Bool.toNat_eq_one]
  · apply Bool.eq_iff_iff.mpr
    rw [bne_iff_ne, and_bit_ne_zero_iff packed _ 30 OUTPOINT_PEGIN_FLAG_toNat, hpacked,
      hpegin, Bool.toNat_eq_one]
  · apply UInt32.toNat_inj.mp
    rw [toNat_and_low_mask packed _ 30 OUTPOINT_INDEX_MASK_toNat, hpacked]
    exact hindex

/-!
## Inputs
-/

/-- An input that Elements mode writes and reads back unchanged. -/
def CTxIn.Canonical (txin : CTxIn) : Prop :=
  ByteVectorFits txin.scriptSig ∧ txin.assetIssuance.Valid ∧
    (txin.assetIssuance.IsNull = true -> txin.assetIssuance = CAssetIssuance.empty) ∧
    if txin.prevout.n = 0xffffffff then
      txin.assetIssuance.IsNull = true ∧ txin.m_is_pegin = false
    else
      txin.prevout.n ≤ COutPoint.OUTPOINT_INDEX_MASK ∧
        ¬(txin.prevout.n = COutPoint.OUTPOINT_INDEX_MASK ∧ txin.assetIssuance.IsNull = false ∧
          txin.m_is_pegin = true)

instance : DecidablePred CTxIn.Canonical := fun txin => by
  unfold CTxIn.Canonical
  infer_instance

theorem CTxIn.ReadOutpoint_WriteOutpoint {g : Globals} (hg : g.g_con_elementsmode = true)
    {txin : CTxIn} (hcanon : txin.Canonical) :
    exists outpoint, CTxIn.WriteOutpoint g txin = some (outpoint, !txin.assetIssuance.IsNull) ∧
      CTxIn.ReadOutpoint g outpoint =
        (!txin.assetIssuance.IsNull, txin.prevout, txin.m_is_pegin) := by
  rcases hcanon with ⟨-, -, -, hindex⟩
  by_cases hcoinbase : txin.prevout.n = 0xffffffff
  · -- a coinbase input keeps its outpoint and has neither issuance nor peg-in
    rw [if_pos hcoinbase] at hindex
    rcases hindex with ⟨hnull, hpegin⟩
    refine ⟨txin.prevout, ?_, ?_⟩
    · simp [CTxIn.WriteOutpoint, hcoinbase, hnull]
    · simp [CTxIn.ReadOutpoint, hcoinbase, hnull, hpegin]
  · rw [if_neg hcoinbase] at hindex
    rcases hindex with ⟨hle, hnotAll⟩
    have hlt : txin.prevout.n.toNat < 2 ^ 30 := by
      have hle' := UInt32.le_iff_toNat_le.mp hle
      rw [OUTPOINT_INDEX_MASK_toNat] at hle'
      omega
    obtain ⟨hall, hissuance, hpegin, hmask⟩ :=
      packed_index_fields txin.prevout.n hlt (!txin.assetIssuance.IsNull) txin.m_is_pegin
    set packed := (txin.prevout.n &&& COutPoint.OUTPOINT_INDEX_MASK |||
      if (!txin.assetIssuance.IsNull) = true then COutPoint.OUTPOINT_ISSUANCE_FLAG else 0) |||
      (if txin.m_is_pegin = true then COutPoint.OUTPOINT_PEGIN_FLAG else 0) with hpacked
    have hnotCoinbase : ¬packed = 0xffffffff := by
      rw [hall]
      simpa using hnotAll
    refine ⟨⟨txin.prevout.hash, packed⟩, ?_, ?_⟩
    · simp [CTxIn.WriteOutpoint, hg, hcoinbase, hpacked,
        and_not_low_mask_eq_zero _ _ 30 OUTPOINT_INDEX_MASK_toNat hlt]
    · simp only [CTxIn.ReadOutpoint, hg, Bool.not_true, Bool.false_or, hnotCoinbase,
        decide_false, Bool.false_eq_true, if_false, hissuance, hpegin, hmask]

theorem CTxIn.Unserialize_inverts {g : Globals} (hg : g.g_con_elementsmode = true) :
    InvertsPartial CTxIn.Canonical (CTxIn.Serialize g) (CTxIn.Unserialize g CTxIn.empty) := by
  intro txin hcanon
  obtain ⟨outpoint, hwrite, hread⟩ := CTxIn.ReadOutpoint_WriteOutpoint hg hcanon
  rcases txin with ⟨prevout, scriptSig, nSequence, issuance, pegin⟩
  rcases hcanon with ⟨hscript, hvalid, hdefault, -⟩
  refine ⟨outpoint.Serialize ++ SerializeByteVector scriptSig ++ ser_writedata32 nSequence ++
      (if !issuance.IsNull then issuance.Serialize else []),
    by simp [CTxIn.Serialize, hwrite], ?_⟩
  intro rest
  simp only [List.append_assoc]
  unfold CTxIn.Unserialize
  rw [bind_apply_of_ok (COutPoint.Unserialize_inverts outpoint trivial _)]
  simp only [hread]
  rw [bind_apply_of_ok (UnserializeByteVector_inverts scriptSig hscript _),
    bind_apply_of_ok (ser_readdata32_inverts nSequence trivial _)]
  cases hnull : issuance.IsNull with
  | false =>
      -- the issuance is written, read back, and found non-null
      simp only [Bool.not_false, if_true]
      rw [bind_apply_of_ok (CAssetIssuance.Unserialize_inverts issuance hvalid rest), hnull]
      rfl
  | true =>
      -- nothing is written, and the reader's `SetNull` leaves the default issuance
      have hempty := hdefault hnull
      subst hempty
      rfl

theorem CTxIn.WriteOutpoint_of_ReadOutpoint {g : Globals} (hg : g.g_con_elementsmode = true)
    {outpoint : COutPoint} (hcoinbase : outpoint.n ≠ 0xffffffff) (scriptSig : CScript)
    (nSequence : UInt32) (issuance : CAssetIssuance)
    (hissuance : (!issuance.IsNull) = (outpoint.n &&& COutPoint.OUTPOINT_ISSUANCE_FLAG != 0)) :
    let txin : CTxIn := ⟨⟨outpoint.hash, outpoint.n &&& COutPoint.OUTPOINT_INDEX_MASK⟩, scriptSig,
      nSequence, issuance, outpoint.n &&& COutPoint.OUTPOINT_PEGIN_FLAG != 0⟩
    CTxIn.WriteOutpoint g txin =
        some (outpoint, outpoint.n &&& COutPoint.OUTPOINT_ISSUANCE_FLAG != 0) ∧
      txin.prevout.n ≠ 0xffffffff ∧ txin.prevout.n ≤ COutPoint.OUTPOINT_INDEX_MASK ∧
      ¬(txin.prevout.n = COutPoint.OUTPOINT_INDEX_MASK ∧ txin.assetIssuance.IsNull = false ∧
        txin.m_is_pegin = true) := by
  intro txin
  have hlt : (outpoint.n &&& COutPoint.OUTPOINT_INDEX_MASK).toNat < 2 ^ 30 := by
    rw [toNat_and_low_mask outpoint.n _ 30 OUTPOINT_INDEX_MASK_toNat]
    exact Nat.mod_lt _ (Nat.two_pow_pos 30)
  have hidem : outpoint.n &&& COutPoint.OUTPOINT_INDEX_MASK &&& COutPoint.OUTPOINT_INDEX_MASK =
      outpoint.n &&& COutPoint.OUTPOINT_INDEX_MASK := by
    rw [UInt32.and_assoc, UInt32.and_self]
  have hrepack := packed_index_of_fields outpoint.n
  rw [← hidem] at hrepack
  obtain ⟨hall, -, -, -⟩ := packed_index_fields (outpoint.n &&& COutPoint.OUTPOINT_INDEX_MASK) hlt
    (outpoint.n &&& COutPoint.OUTPOINT_ISSUANCE_FLAG != 0)
    (outpoint.n &&& COutPoint.OUTPOINT_PEGIN_FLAG != 0)
  rw [hrepack] at hall
  have hnotOnes : outpoint.n &&& COutPoint.OUTPOINT_INDEX_MASK ≠ 0xffffffff := by
    intro hones
    rw [hones] at hlt
    exact absurd hlt (by decide)
  refine ⟨?_, hnotOnes, ?_, ?_⟩
  · -- the writer packs the same flags into the same index
    simp only [txin, CTxIn.WriteOutpoint, hg, Bool.not_true, Bool.false_or, hnotOnes,
      decide_false, Bool.false_eq_true, if_false,
      and_not_low_mask_eq_zero _ _ 30 OUTPOINT_INDEX_MASK_toNat hlt, ne_eq, not_true_eq_false,
      hissuance, hrepack]
  · apply UInt32.le_iff_toNat_le.mpr
    show (outpoint.n &&& COutPoint.OUTPOINT_INDEX_MASK).toNat ≤ _
    rw [OUTPOINT_INDEX_MASK_toNat]
    omega
  · -- index, issuance and peg-in all set would have packed the coinbase marker
    rintro ⟨hmask, hnull, hpeg⟩
    apply hcoinbase
    apply hall.mpr
    rw [hnull] at hissuance
    exact ⟨hmask, hissuance.symm, hpeg⟩

theorem CTxIn.Unserialize_sound {g : Globals} (hg : g.g_con_elementsmode = true) :
    SoundPartial CTxIn.Canonical (CTxIn.Serialize g) (CTxIn.Unserialize g CTxIn.empty) := by
  intro bytes txin rest hdec
  rcases bind_eq_ok hdec with ⟨outpoint, mid1, houtpoint, hrest1⟩
  rcases bind_eq_ok hrest1 with ⟨scriptSig, mid2, hscript, hrest2⟩
  rcases bind_eq_ok hrest2 with ⟨nSequence, mid3, hsequence, hrest3⟩
  rcases COutPoint.Unserialize_sound bytes outpoint mid1 houtpoint with ⟨-, hbytes⟩
  rcases UnserializeByteVector_sound mid1 scriptSig mid2 hscript with ⟨hscriptFits, hmid1⟩
  rcases ser_readdata32_sound mid2 nSequence mid3 hsequence with ⟨-, hmid2⟩
  by_cases hcoinbase : outpoint.n = 0xffffffff
  · -- the coinbase marker: the outpoint is kept and nothing else is read
    have hread : CTxIn.ReadOutpoint g outpoint = (false, outpoint, false) := by
      simp [CTxIn.ReadOutpoint, hcoinbase]
    rw [hread] at hrest3
    cases hrest3
    refine ⟨⟨hscriptFits, CAssetIssuance.empty_Valid, fun _ => rfl, ?_⟩, ?_⟩
    · rw [if_pos hcoinbase]
      exact ⟨rfl, rfl⟩
    · refine ⟨outpoint.Serialize ++ SerializeByteVector scriptSig ++ ser_writedata32 nSequence,
        by simp [CTxIn.Serialize, CTxIn.WriteOutpoint, hcoinbase], ?_⟩
      rw [hbytes, hmid1, hmid2]
      simp
  · -- flag bits: the prevout is the masked index, and an issuance follows the first flag
    have hread : CTxIn.ReadOutpoint g outpoint =
        (outpoint.n &&& COutPoint.OUTPOINT_ISSUANCE_FLAG != 0,
          ⟨outpoint.hash, outpoint.n &&& COutPoint.OUTPOINT_INDEX_MASK⟩,
          outpoint.n &&& COutPoint.OUTPOINT_PEGIN_FLAG != 0) := by
      simp [CTxIn.ReadOutpoint, hg, hcoinbase]
    rw [hread] at hrest3
    cases hflag : (outpoint.n &&& COutPoint.OUTPOINT_ISSUANCE_FLAG != 0) with
    | true =>
        rw [hflag, if_pos rfl] at hrest3
        rcases bind_eq_ok hrest3 with ⟨issuance, mid4, hissuance, hrest4⟩
        rcases CAssetIssuance.Unserialize_sound mid3 issuance mid4 hissuance with ⟨hvalid, hmid3⟩
        cases hnull : issuance.IsNull with
        | true =>
            rw [hnull, if_pos rfl] at hrest4
            cases hrest4
        | false =>
            rw [hnull, if_neg Bool.false_ne_true] at hrest4
            cases hrest4
            dsimp only
            obtain ⟨hwrite, hnotCoinbase, hindex⟩ := CTxIn.WriteOutpoint_of_ReadOutpoint hg
              hcoinbase scriptSig nSequence issuance (by rw [hnull, hflag]; rfl)
            refine ⟨⟨hscriptFits, hvalid, ?_, ?_⟩, ?_⟩
            · intro hnull'
              rw [hnull] at hnull'
              cases hnull'
            · rw [if_neg hnotCoinbase]
              exact hindex
            · refine ⟨outpoint.Serialize ++ SerializeByteVector scriptSig ++
                  ser_writedata32 nSequence ++ issuance.Serialize,
                by simp [CTxIn.Serialize, hwrite, hflag], ?_⟩
              rw [hbytes, hmid1, hmid2, hmid3]
              simp
    | false =>
        rw [hflag, if_neg Bool.false_ne_true] at hrest3
        cases hrest3
        dsimp only
        obtain ⟨hwrite, hnotCoinbase, hindex⟩ := CTxIn.WriteOutpoint_of_ReadOutpoint hg
          hcoinbase scriptSig nSequence (CTxIn.empty.assetIssuance.SetNull) (by rw [hflag]; rfl)
        refine ⟨⟨hscriptFits, CAssetIssuance.empty_Valid, fun _ => rfl, ?_⟩, ?_⟩
        · rw [if_neg hnotCoinbase]
          exact hindex
        · refine ⟨outpoint.Serialize ++ SerializeByteVector scriptSig ++
              ser_writedata32 nSequence,
            by simp [CTxIn.Serialize, hwrite, hflag], ?_⟩
          rw [hbytes, hmid1, hmid2]
          simp

/-!
## Outputs
-/

/-- An output that Elements mode writes and reads back unchanged. -/
def CTxOut.Canonical (txout : CTxOut) : Prop :=
  txout.nAsset.IsValid = true ∧ txout.nValue.IsValid = true ∧ txout.nNonce.IsValid = true ∧
    ByteVectorFits txout.scriptPubKey

instance : DecidablePred CTxOut.Canonical := fun txout => by
  unfold CTxOut.Canonical
  infer_instance

theorem CTxOut.Unserialize_inverts {g : Globals} (hg : g.g_con_elementsmode = true) :
    InvertsPartial CTxOut.Canonical (CTxOut.Serialize g) (CTxOut.Unserialize g (CTxOut.empty g)) := by
  intro txout hcanon
  rcases txout with ⟨asset, value, nonce, script⟩
  rcases hcanon with ⟨hasset, hvalue, hnonce, hscript⟩
  refine ⟨asset.Serialize ++ value.Serialize ++ nonce.Serialize ++ SerializeByteVector script,
    by simp [CTxOut.Serialize, hg], ?_⟩
  intro rest
  simp only [List.append_assoc, CTxOut.Unserialize, hg, if_true]
  rw [bind_apply_of_ok
      (CConfidentialCommitment.Unserialize_inverts CConfidentialAsset_paramsOk asset hasset _),
    bind_apply_of_ok
      (CConfidentialCommitment.Unserialize_inverts CConfidentialValue_paramsOk value hvalue _),
    bind_apply_of_ok
      (CConfidentialCommitment.Unserialize_inverts CConfidentialNonce_paramsOk nonce hnonce _),
    bind_apply_of_ok (UnserializeByteVector_inverts script hscript rest)]
  rfl

theorem CTxOut.Unserialize_sound {g : Globals} (hg : g.g_con_elementsmode = true) :
    SoundPartial CTxOut.Canonical (CTxOut.Serialize g) (CTxOut.Unserialize g (CTxOut.empty g)) := by
  intro bytes txout rest hdec
  simp only [CTxOut.Unserialize, hg, if_true] at hdec
  rcases bind_eq_ok hdec with ⟨asset, mid1, hasset, hdec⟩
  rcases bind_eq_ok hdec with ⟨value, mid2, hvalue, hdec⟩
  rcases bind_eq_ok hdec with ⟨nonce, mid3, hnonce, hdec⟩
  rcases bind_eq_ok hdec with ⟨script, mid4, hscript, hdec⟩
  cases hdec
  rcases CConfidentialCommitment.Unserialize_sound CConfidentialAsset_paramsOk
    bytes asset mid1 hasset with ⟨hassetValid, rfl⟩
  rcases CConfidentialCommitment.Unserialize_sound CConfidentialValue_paramsOk
    mid1 value mid2 hvalue with ⟨hvalueValid, rfl⟩
  rcases CConfidentialCommitment.Unserialize_sound CConfidentialNonce_paramsOk
    mid2 nonce mid3 hnonce with ⟨hnonceValid, rfl⟩
  rcases UnserializeByteVector_sound mid3 script rest hscript with ⟨hscriptFits, rfl⟩
  refine ⟨⟨hassetValid, hvalueValid, hnonceValid, hscriptFits⟩,
    asset.Serialize ++ value.Serialize ++ nonce.Serialize ++ SerializeByteVector script,
    by simp [CTxOut.Serialize, hg], ?_⟩
  simp

/-!
## Witness records
-/

/-- A record whose byte vectors and stacks the reader accepts back. -/
def CTxInWitness.Fits (w : CTxInWitness) : Prop :=
  ByteVectorFits w.vchIssuanceAmountRangeproof ∧ ByteVectorFits w.vchInflationKeysRangeproof ∧
    StackFits w.scriptWitness.stack ∧ StackFits w.m_pegin_witness.stack

/-- A record whose byte vectors the reader accepts back. -/
def CTxOutWitness.Fits (w : CTxOutWitness) : Prop :=
  ByteVectorFits w.vchSurjectionproof ∧ ByteVectorFits w.vchRangeproof

instance : DecidablePred CTxInWitness.Fits := fun w => by
  unfold CTxInWitness.Fits
  infer_instance

instance : DecidablePred CTxOutWitness.Fits := fun w => by
  unfold CTxOutWitness.Fits
  infer_instance

theorem CTxInWitness.Unserialize_inverts :
    Inverts CTxInWitness.Fits CTxInWitness.Serialize CTxInWitness.Unserialize := by
  intro w hfits rest
  rcases w with ⟨amountProof, keysProof, ⟨stack⟩, ⟨pegin⟩⟩
  rcases hfits with ⟨hamount, hkeys, hstack, hpegin⟩
  unfold CTxInWitness.Unserialize CTxInWitness.Serialize
  simp only [List.append_assoc]
  rw [bind_apply_of_ok (UnserializeByteVector_inverts amountProof hamount _),
    bind_apply_of_ok (UnserializeByteVector_inverts keysProof hkeys _),
    bind_apply_of_ok (UnserializeStack_inverts stack hstack _),
    bind_apply_of_ok (UnserializeStack_inverts pegin hpegin rest)]
  rfl

theorem CTxInWitness.Unserialize_sound :
    Sound CTxInWitness.Fits CTxInWitness.Serialize CTxInWitness.Unserialize := by
  intro bytes w rest hdec
  rcases bind_eq_ok hdec with ⟨amountProof, mid1, hamount, hdec⟩
  rcases bind_eq_ok hdec with ⟨keysProof, mid2, hkeys, hdec⟩
  rcases bind_eq_ok hdec with ⟨stack, mid3, hstack, hdec⟩
  rcases bind_eq_ok hdec with ⟨pegin, mid4, hpegin, hdec⟩
  cases hdec
  rcases UnserializeByteVector_sound bytes amountProof mid1 hamount with ⟨hamountFits, rfl⟩
  rcases UnserializeByteVector_sound mid1 keysProof mid2 hkeys with ⟨hkeysFits, rfl⟩
  rcases UnserializeStack_sound mid2 stack mid3 hstack with ⟨hstackFits, rfl⟩
  rcases UnserializeStack_sound mid3 pegin rest hpegin with ⟨hpeginFits, rfl⟩
  exact ⟨⟨hamountFits, hkeysFits, hstackFits, hpeginFits⟩, by simp [CTxInWitness.Serialize]⟩

theorem CTxOutWitness.Unserialize_inverts :
    Inverts CTxOutWitness.Fits CTxOutWitness.Serialize CTxOutWitness.Unserialize := by
  intro w hfits rest
  rcases w with ⟨surjection, range⟩
  rcases hfits with ⟨hsurjection, hrange⟩
  unfold CTxOutWitness.Unserialize CTxOutWitness.Serialize
  rw [List.append_assoc, bind_apply_of_ok (UnserializeByteVector_inverts surjection hsurjection _),
    bind_apply_of_ok (UnserializeByteVector_inverts range hrange rest)]
  rfl

theorem CTxOutWitness.Unserialize_sound :
    Sound CTxOutWitness.Fits CTxOutWitness.Serialize CTxOutWitness.Unserialize := by
  intro bytes w rest hdec
  rcases bind_eq_ok hdec with ⟨surjection, mid1, hsurjection, hdec⟩
  rcases bind_eq_ok hdec with ⟨range, mid2, hrange, hdec⟩
  cases hdec
  rcases UnserializeByteVector_sound bytes surjection mid1 hsurjection with ⟨hsurjectionFits, rfl⟩
  rcases UnserializeByteVector_sound mid1 range rest hrange with ⟨hrangeFits, rfl⟩
  exact ⟨⟨hsurjectionFits, hrangeFits⟩, by simp [CTxOutWitness.Serialize]⟩

/-!
## The witness
-/

theorem length_resize {α : Type} (v : List α) (n : Nat) (default : α) (h : v.length ≤ n) :
    (resize v n default).length = n := by
  simp only [resize, List.length_append, List.length_take, List.length_replicate]
  omega

theorem resize_length {α : Type} (v : List α) (default : α) : resize v v.length default = v := by
  simp [resize]

theorem mem_resize {α : Type} {v : List α} {n : Nat} {default x : α}
    (h : x ∈ resize v n default) : x ∈ v ∨ x = default := by
  rcases List.mem_append.mp h with htake | hpad
  · exact Or.inl (List.mem_of_mem_take htake)
  · exact Or.inr (List.eq_of_mem_replicate hpad)

theorem all_resize {α : Type} (p : α -> Bool) (v : List α) (n : Nat) (default : α)
    (hdefault : p default = true) (h : v.length ≤ n) :
    (resize v n default).all p = v.all p := by
  simp [resize, List.take_of_length_le h, List.all_append, hdefault]

theorem CTxWitness.Unserialize_inverts (w : CTxWitness)
    (hin : forall x, x ∈ w.vtxinwit -> x.Fits) (hout : forall x, x ∈ w.vtxoutwit -> x.Fits)
    (hnull : w.IsNull = false) :
    exists bytes, w.Serialize = some bytes ∧ forall rest,
      CTxWitness.Unserialize ⟨List.replicate w.vtxinwit.length CTxInWitness.empty,
        List.replicate w.vtxoutwit.length CTxOutWitness.empty⟩ (bytes ++ rest) =
        Except.ok (w, rest) := by
  rcases w with ⟨ins, outs⟩
  refine ⟨(ins.map CTxInWitness.Serialize).flatten ++ (outs.map CTxOutWitness.Serialize).flatten,
    by simp [CTxWitness.Serialize, hnull], ?_⟩
  intro rest
  unfold CTxWitness.Unserialize
  simp only [List.length_replicate, List.append_assoc]
  rw [bind_apply_of_ok (replicate_inverts CTxInWitness.Unserialize_inverts ins hin _),
    bind_apply_of_ok (replicate_inverts CTxOutWitness.Unserialize_inverts outs hout rest), hnull]
  rfl

theorem CTxWitness.Unserialize_sound {this w : CTxWitness} {bytes rest : List UInt8}
    (hdec : CTxWitness.Unserialize this bytes = Except.ok (w, rest)) :
    w.vtxinwit.length = this.vtxinwit.length ∧ w.vtxoutwit.length = this.vtxoutwit.length ∧
      (forall x, x ∈ w.vtxinwit -> x.Fits) ∧ (forall x, x ∈ w.vtxoutwit -> x.Fits) ∧
      w.IsNull = false ∧ exists encoded, w.Serialize = some encoded ∧ bytes = encoded ++ rest := by
  rcases bind_eq_ok hdec with ⟨ins, mid, hins, hrest1⟩
  rcases bind_eq_ok hrest1 with ⟨outs, mid', houts, hrest2⟩
  rcases replicate_sound CTxInWitness.Unserialize_sound _ bytes ins mid hins with
    ⟨hinsLen, hinsFits, hbytes⟩
  rcases replicate_sound CTxOutWitness.Unserialize_sound _ mid outs mid' houts with
    ⟨houtsLen, houtsFits, hmid⟩
  cases hnull : (CTxWitness.mk ins outs).IsNull with
  | true =>
      rw [hnull, if_pos rfl] at hrest2
      cases hrest2
  | false =>
      rw [hnull, if_neg Bool.false_ne_true] at hrest2
      cases hrest2
      refine ⟨hinsLen, houtsLen, hinsFits, houtsFits, hnull,
        (ins.map CTxInWitness.Serialize).flatten ++ (outs.map CTxOutWitness.Serialize).flatten,
        by simp [CTxWitness.Serialize, hnull], ?_⟩
      rw [hbytes, hmid, List.append_assoc]

/-!
## Transactions
-/

/-- A transaction that Elements mode writes and reads back: canonical inputs
and outputs, counts within `MAX_SIZE`, and at most one witness record per input
and per output, each within the reader's size limits. -/
def CMutableTransaction.Canonical (tx : CMutableTransaction) : Prop :=
  VectorFits CTxIn.Canonical tx.vin ∧ VectorFits CTxOut.Canonical tx.vout ∧
    tx.witness.vtxinwit.length ≤ tx.vin.length ∧ tx.witness.vtxoutwit.length ≤ tx.vout.length ∧
    (forall w, w ∈ tx.witness.vtxinwit -> w.Fits) ∧ (forall w, w ∈ tx.witness.vtxoutwit -> w.Fits)

instance : DecidablePred CMutableTransaction.Canonical := fun tx => by
  unfold CMutableTransaction.Canonical VectorFits
  infer_instance

theorem ResizedWitness_IsNull (tx : CMutableTransaction)
    (hin : tx.witness.vtxinwit.length ≤ tx.vin.length)
    (hout : tx.witness.vtxoutwit.length ≤ tx.vout.length) :
    tx.ResizedWitness.IsNull = tx.witness.IsNull := by
  simp only [CTxWitness.IsNull, CMutableTransaction.ResizedWitness]
  rw [all_resize _ _ _ _ (by decide) hin, all_resize _ _ _ _ (by decide) hout]

theorem ResizedWitness_of_length (tx : CMutableTransaction)
    (hin : tx.witness.vtxinwit.length = tx.vin.length)
    (hout : tx.witness.vtxoutwit.length = tx.vout.length) :
    tx.ResizedWitness = tx.witness := by
  simp only [CMutableTransaction.ResizedWitness, ← hin, ← hout, resize_length]

theorem ResizedWitness_fits (tx : CMutableTransaction)
    (hin : forall w, w ∈ tx.witness.vtxinwit -> w.Fits)
    (hout : forall w, w ∈ tx.witness.vtxoutwit -> w.Fits) :
    (forall w, w ∈ tx.ResizedWitness.vtxinwit -> w.Fits) ∧
      (forall w, w ∈ tx.ResizedWitness.vtxoutwit -> w.Fits) := by
  constructor
  · intro w hw
    rcases mem_resize hw with hmem | rfl
    · exact hin w hmem
    · decide
  · intro w hw
    rcases mem_resize hw with hmem | rfl
    · exact hout w hmem
    · decide

/-- Writing a canonical transaction and reading it back gives the transaction
with its witness padded to one record per input and output, or emptied when it
was null. -/
theorem UnserializeTransaction_inverts {g : Globals} (hg : g.g_con_elementsmode = true)
    {s : StreamFlags} (hs : s.noWitness = false) (tx : CMutableTransaction)
    (hcanon : tx.Canonical) :
    exists bytes, SerializeTransaction g s tx = some bytes ∧ forall rest,
      UnserializeTransaction g s (bytes ++ rest) = Except.ok
        ({ tx with witness := if tx.HasWitness then tx.ResizedWitness else CTxWitness.empty },
          rest) := by
  rcases hcanon with ⟨hvin, hvout, hinLen, houtLen, hinFits, houtFits⟩
  obtain ⟨vinBytes, hvinSer, hvinDec⟩ :=
    UnserializeVector_inverts (CTxIn.Unserialize_inverts hg) tx.vin hvin
  obtain ⟨voutBytes, hvoutSer, hvoutDec⟩ :=
    UnserializeVector_inverts (CTxOut.Unserialize_inverts hg) tx.vout hvout
  cases hwit : tx.HasWitness with
  | false =>
      -- flags 0 and no witness section
      refine ⟨ser_writedata32 tx.nVersion ++ ser_writedata8 0 ++ vinBytes ++ voutBytes ++
          ser_writedata32 tx.nLockTime, ?_, ?_⟩
      · simp [SerializeTransaction, hs, hwit, hinLen, houtLen, hvinSer, hvoutSer, hg]
      · intro rest
        simp only [List.append_assoc]
        unfold UnserializeTransaction
        rw [bind_apply_of_ok (ser_readdata32_inverts _ trivial _), if_pos hg]
        unfold UnserializeTransactionElements
        rw [bind_apply_of_ok (ser_readdata8_inverts 0 trivial _), bind_apply_of_ok (hvinDec _),
          bind_apply_of_ok (hvoutDec _), bind_apply_of_ok (ser_readdata32_inverts _ trivial rest)]
        rfl
  | true =>
      -- flags 1 and the padded witness at the end
      have hnull : tx.ResizedWitness.IsNull = false := by
        rw [ResizedWitness_IsNull tx hinLen houtLen]
        simpa [CMutableTransaction.HasWitness] using hwit
      obtain ⟨hresizedIn, hresizedOut⟩ := ResizedWitness_fits tx hinFits houtFits
      obtain ⟨witBytes, hwitSer, hwitDec⟩ :=
        CTxWitness.Unserialize_inverts tx.ResizedWitness hresizedIn hresizedOut hnull
      have hinCount : tx.ResizedWitness.vtxinwit.length = tx.vin.length :=
        length_resize _ _ _ hinLen
      have houtCount : tx.ResizedWitness.vtxoutwit.length = tx.vout.length :=
        length_resize _ _ _ houtLen
      rw [hinCount, houtCount] at hwitDec
      refine ⟨ser_writedata32 tx.nVersion ++ ser_writedata8 1 ++ vinBytes ++ voutBytes ++
          ser_writedata32 tx.nLockTime ++ witBytes, ?_, ?_⟩
      · simp [SerializeTransaction, hs, hwit, hinLen, houtLen, hvinSer, hvoutSer, hg, hwitSer]
      · intro rest
        simp only [List.append_assoc]
        unfold UnserializeTransaction
        rw [bind_apply_of_ok (ser_readdata32_inverts _ trivial _), if_pos hg]
        unfold UnserializeTransactionElements
        rw [bind_apply_of_ok (ser_readdata8_inverts 1 trivial _), bind_apply_of_ok (hvinDec _),
          bind_apply_of_ok (hvoutDec _), bind_apply_of_ok (ser_readdata32_inverts _ trivial _)]
        simp only [show ((1 : UInt8) &&& 1 ≠ 0) = True by decide, if_true]
        have hwitness : (CTxWitness.Unserialize ⟨List.replicate tx.vin.length CTxInWitness.empty,
              List.replicate tx.vout.length CTxOutWitness.empty⟩ >>= fun witness =>
            if !(CMutableTransaction.mk tx.nVersion tx.vin tx.vout tx.nLockTime witness).HasWitness
            then fail superfluousWitness
            else (Pure.pure ((1 : UInt8) ^^^ 1, witness) : Decoder (UInt8 × CTxWitness)))
            (witBytes ++ rest) = Except.ok ((0, tx.ResizedWitness), rest) := by
          rw [bind_apply_of_ok (hwitDec rest)]
          simp [CMutableTransaction.HasWitness, hnull]
        rw [bind_apply_of_ok hwitness]
        rfl

/-- Every transaction the reader accepts is canonical and is written back as the
bytes it was read from. -/
theorem UnserializeTransaction_sound {g : Globals} (hg : g.g_con_elementsmode = true)
    {s : StreamFlags} (hs : s.noWitness = false) {bytes rest : List UInt8}
    {tx : CMutableTransaction} (hdec : UnserializeTransaction g s bytes = Except.ok (tx, rest)) :
    tx.Canonical ∧ exists encoded, SerializeTransaction g s tx = some encoded ∧
      bytes = encoded ++ rest := by
  rcases bind_eq_ok hdec with ⟨nVersion, mid0, hversion, hrest0⟩
  simp only [hg, if_true] at hrest0
  unfold UnserializeTransactionElements at hrest0
  rcases bind_eq_ok hrest0 with ⟨flags, mid1, hflags, hrest1⟩
  rcases bind_eq_ok hrest1 with ⟨vin, mid2, hvin, hrest2⟩
  rcases bind_eq_ok hrest2 with ⟨vout, mid3, hvout, hrest3⟩
  rcases bind_eq_ok hrest3 with ⟨nLockTime, mid4, hlock, hrest4⟩
  rcases bind_eq_ok hrest4 with ⟨result, mid5, hwitblock, hrest5⟩
  have hresult : result.1 = 0 := by
    by_contra hne
    rw [if_pos hne] at hrest5
    cases hrest5
  rw [if_neg (not_not.mpr hresult)] at hrest5
  cases hrest5
  rcases ser_readdata32_sound bytes nVersion mid0 hversion with ⟨-, hbytes0⟩
  rcases ser_readdata8_sound mid0 flags mid1 hflags with ⟨-, hbytes1⟩
  rcases UnserializeVector_sound (CTxIn.Unserialize_sound hg) mid1 vin mid2 hvin with
    ⟨hvinFits, vinBytes, hvinSer, hbytes2⟩
  rcases UnserializeVector_sound (CTxOut.Unserialize_sound hg) mid2 vout mid3 hvout with
    ⟨hvoutFits, voutBytes, hvoutSer, hbytes3⟩
  rcases ser_readdata32_sound mid3 nLockTime mid4 hlock with ⟨-, hbytes4⟩
  by_cases hbit : flags &&& 1 ≠ 0
  · -- a witness section: one record per input and output, not all null
    rw [if_pos hbit] at hwitblock
    rcases bind_eq_ok hwitblock with ⟨witness, mid6, hwitness, hcheck⟩
    obtain ⟨hinLen, houtLen, hinFits, houtFits, hnull, witBytes, hwitSer, hbytes5⟩ :=
      CTxWitness.Unserialize_sound hwitness
    simp only [List.length_replicate] at hinLen houtLen
    rw [show (!(CMutableTransaction.mk nVersion vin vout nLockTime witness).HasWitness) = false by
      simp [CMutableTransaction.HasWitness, hnull]] at hcheck
    cases hcheck
    have hone : flags = 1 := by
      have hxor : flags ^^^ 1 ^^^ 1 = 0 ^^^ 1 := by
        rw [show flags ^^^ 1 = 0 from hresult]
      rwa [UInt8.xor_assoc, UInt8.xor_self, UInt8.xor_zero, UInt8.zero_xor] at hxor
    subst hone
    have hresized := ResizedWitness_of_length ⟨nVersion, vin, vout, nLockTime, witness⟩ hinLen houtLen
    refine ⟨⟨hvinFits, hvoutFits, hinLen.le, houtLen.le, hinFits, houtFits⟩, ?_⟩
    refine ⟨ser_writedata32 nVersion ++ ser_writedata8 1 ++ vinBytes ++ voutBytes ++
        ser_writedata32 nLockTime ++ witBytes, ?_, ?_⟩
    · simp [SerializeTransaction, hs, hg, hinLen, houtLen, hvinSer, hvoutSer, hresized, hwitSer,
        CMutableTransaction.HasWitness, hnull]
    · rw [hbytes0, hbytes1, hbytes2, hbytes3, hbytes4, hbytes5]
      simp
  · -- no witness section: the flags were 0
    rw [if_neg hbit] at hwitblock
    cases hwitblock
    have hzero : flags = 0 := hresult
    subst hzero
    refine ⟨⟨hvinFits, hvoutFits, Nat.zero_le _, Nat.zero_le _, ?_, ?_⟩, ?_⟩
    · intro w hw
      cases hw
    · intro w hw
      cases hw
    · refine ⟨ser_writedata32 nVersion ++ ser_writedata8 0 ++ vinBytes ++ voutBytes ++
          ser_writedata32 nLockTime, ?_, ?_⟩
      · simp [SerializeTransaction, hs, hg, hvinSer, hvoutSer, CMutableTransaction.HasWitness,
          CTxWitness.empty, CTxWitness.IsNull]
      · rw [hbytes0, hbytes1, hbytes2, hbytes3, hbytes4]
        simp

/-- Writing then reading gives back every canonical transaction, its witness
padded or emptied; every accepted byte string is written back exactly. -/
theorem SerializeTransaction_roundtrip (g : Globals) (s : StreamFlags)
    (hg : g.g_con_elementsmode = true) (hs : s.noWitness = false) :
    (forall tx : CMutableTransaction, tx.Canonical ->
      exists bytes, SerializeTransaction g s tx = some bytes ∧ forall rest,
        UnserializeTransaction g s (bytes ++ rest) = Except.ok
          ({ tx with witness := if tx.HasWitness then tx.ResizedWitness else CTxWitness.empty },
            rest)) ∧
    (forall bytes tx rest, UnserializeTransaction g s bytes = Except.ok (tx, rest) ->
      exists encoded, SerializeTransaction g s tx = some encoded ∧ bytes = encoded ++ rest) := by
  constructor
  · intro tx hcanon
    exact UnserializeTransaction_inverts hg hs tx hcanon
  · intro bytes tx rest hdec
    exact (UnserializeTransaction_sound hg hs hdec).2

/-- A transaction with one input, whose witness carries one script item, and
one explicit output. -/
def witnessTx : CMutableTransaction :=
  ⟨2, [⟨⟨⟨List.replicate 31 0 ++ [4], rfl⟩, 1⟩, [], CTxIn.SEQUENCE_FINAL, CAssetIssuance.empty, false⟩],
    [⟨CConfidentialAsset.SetToAsset ⟨List.replicate 31 0 ++ [6], rfl⟩,
      CConfidentialValue.SetToAmount 5, ⟨[]⟩, [0x51]⟩], 0,
    ⟨[⟨[], [], ⟨[[0x51]]⟩, ⟨[]⟩⟩], []⟩⟩

theorem SerializeTransaction_roundtrip_witnessTx :
    witnessTx.Canonical ∧ witnessTx.HasWitness = true ∧
      exists bytes, SerializeTransaction ⟨true, true, true⟩ StreamFlags.network witnessTx =
        some bytes ∧ forall rest,
          UnserializeTransaction ⟨true, true, true⟩ StreamFlags.network (bytes ++ rest) =
            Except.ok ({ witnessTx with witness := witnessTx.ResizedWitness }, rest) := by
  have hcanon : witnessTx.Canonical := by decide
  have hwitness : witnessTx.HasWitness = true := by decide
  obtain ⟨bytes, hser, hread⟩ :=
    (SerializeTransaction_roundtrip ⟨true, true, true⟩ StreamFlags.network rfl rfl).1 witnessTx hcanon
  refine ⟨hcanon, hwitness, bytes, hser, fun rest => ?_⟩
  simpa [hwitness] using hread rest

/-- A transaction with one input whose issuance has no amounts but a non-zero
entropy, and no outputs. -/
def entropyOnlyIssuanceTx : CMutableTransaction :=
  ⟨2, [⟨⟨BaseBlob.zero 32, 0⟩, [], CTxIn.SEQUENCE_FINAL,
      { CAssetIssuance.empty with assetEntropy := ⟨List.replicate 31 0 ++ [1], rfl⟩ }, false⟩],
    [], 0, CTxWitness.empty⟩

/-- Its encoding: version 2, flags 0, one input with index 0, an empty script
and final sequence, no outputs, lock time 0.  The issuance is null, so it is
not written. -/
def entropyOnlyIssuanceBytes : List UInt8 :=
  [2, 0, 0, 0] ++ [0] ++ [1] ++ List.replicate 32 0 ++ [0, 0, 0, 0] ++ [0] ++
    [0xff, 0xff, 0xff, 0xff] ++ [0] ++ [0, 0, 0, 0]

/-- The entropy of a null issuance is not written, so it reads back as zero. -/
theorem SerializeTransaction_drops_null_issuance_entropy :
    SerializeTransaction ⟨true, true, true⟩ StreamFlags.network entropyOnlyIssuanceTx =
        some entropyOnlyIssuanceBytes ∧
      UnserializeTransaction ⟨true, true, true⟩ StreamFlags.network entropyOnlyIssuanceBytes =
        Except.ok ({ entropyOnlyIssuanceTx with
          vin := [{ CTxIn.empty with prevout := ⟨BaseBlob.zero 32, 0⟩ }] }, []) ∧
      [{ CTxIn.empty with prevout := ⟨BaseBlob.zero 32, 0⟩ }] ≠ entropyOnlyIssuanceTx.vin :=
  ⟨rfl, rfl, by decide⟩

end Elements
