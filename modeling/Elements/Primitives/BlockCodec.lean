import Elements.Primitives.Block

/-!
# The header wire format

What `CBlockHeader::Serialize` and `CBlockHeader::Unserialize` guarantee about
each other.

The decoder picks the layout from the sign of the version word it reads, the
encoder from whether the parameters are null.  The two agree on every byte
string except one family: a version word with the HF bit set followed by two
parameter entries of serialize type 0.  Such a string decodes to a header with
null parameters, which the encoder writes in the legacy layout, so re-encoding
does not give back the bytes that were received
(`Unserialize_null_dynafed_reencodes_legacy`).  Every other accepted string is
reproduced exactly (`Serialize_of_Unserialize`).

In the other direction a header survives an encode and decode exactly when it
is *canonical*: its version has bit 31 clear, its entries carry only the fields
of their serialize type, and its fields outside the chosen layout hold their
defaults (`Unserialize_of_Serialize`).  Decoding always yields a canonical
header, so canonical headers are precisely the ones the decoder produces.
-/

namespace Elements

open Codec Codec.Decoder

/-!
## The version word
-/

theorem notMask_and_toNat (v : UInt32) :
    (~~~DYNAFED_HF_MASK &&& v).toNat = v.toNat % 2 ^ 31 := by
  have hmask : (~~~DYNAFED_HF_MASK).toNat = 2 ^ 31 - 1 := by decide
  rw [UInt32.toNat_and, hmask, Nat.and_comm, Nat.and_two_pow_sub_one_eq_mod]

theorem or_mask_toNat (v : UInt32) (h : v.toNat < 2 ^ 31) :
    (v ||| DYNAFED_HF_MASK).toNat = v.toNat + 2 ^ 31 := by
  have hmask : DYNAFED_HF_MASK.toNat = 2 ^ 31 := by decide
  rw [UInt32.toNat_or, hmask, Nat.or_two_pow_eq_add_of_lt h]

theorem Int32IsNegative_eq (v : UInt32) :
    Int32IsNegative v = decide (2 ^ 31 ≤ v.toNat) := by
  unfold Int32IsNegative
  simp [UInt32.le_iff_toNat_le]
  rfl

theorem Int32IsNegative_setMask (v : UInt32) (h : v.toNat < 2 ^ 31) :
    Int32IsNegative (v ||| DYNAFED_HF_MASK) = true := by
  rw [Int32IsNegative_eq, or_mask_toNat v h]
  simp

theorem clearMask_of_nonnegative (v : UInt32) (h : v.toNat < 2 ^ 31) :
    ~~~DYNAFED_HF_MASK &&& v = v := by
  apply UInt32.toNat_inj.mp
  rw [notMask_and_toNat, Nat.mod_eq_of_lt h]

theorem clearMask_setMask (v : UInt32) (h : v.toNat < 2 ^ 31) :
    ~~~DYNAFED_HF_MASK &&& (v ||| DYNAFED_HF_MASK) = v := by
  apply UInt32.toNat_inj.mp
  rw [notMask_and_toNat, or_mask_toNat v h]
  omega

theorem setMask_clearMask (v : UInt32) (h : 2 ^ 31 ≤ v.toNat) :
    (~~~DYNAFED_HF_MASK &&& v) ||| DYNAFED_HF_MASK = v := by
  have hlow : (~~~DYNAFED_HF_MASK &&& v).toNat < 2 ^ 31 := by
    rw [notMask_and_toNat]
    omega
  apply UInt32.toNat_inj.mp
  rw [or_mask_toNat _ hlow, notMask_and_toNat]
  have hv : v.toNat < 2 ^ 32 := UInt32.toNat_lt v
  omega

/-!
## Parameter entries
-/

/-- An entry as a fresh decode leaves it: the fields its serialize type does
not carry hold their defaults, and every length passes the reader's range
check. -/
def DynaFedParamEntry.Canonical (e : DynaFedParamEntry) : Bool :=
  (if e.m_serialize_type = 0 then e == DynaFedParamEntry.empty
    else if e.m_serialize_type = 1 then
      e.m_fedpeg_program.isEmpty && e.m_fedpegscript.isEmpty && e.m_extension_space.isEmpty
    else if e.m_serialize_type = 2 then e.m_elided_root == BaseBlob.zero 32
    else false) &&
    decide (ByteVectorFits e.m_signblockscript) && decide (ByteVectorFits e.m_fedpeg_program) &&
    decide (ByteVectorFits e.m_fedpegscript) && decide (StackFits e.m_extension_space)

theorem DynaFedParamEntry.Unserialize_of_Serialize (e : DynaFedParamEntry)
    (hcanon : e.Canonical = true) :
    exists enc, e.Serialize = some enc ∧
      forall rest, DynaFedParamEntry.empty.Unserialize (enc ++ rest) = Except.ok (e, rest) := by
  rcases e with ⟨t, sbs, limit, prog, script, ext, root⟩
  simp only [DynaFedParamEntry.Canonical, Bool.and_eq_true, decide_eq_true_eq] at hcanon
  rcases hcanon with ⟨⟨⟨⟨hshape, hsbs⟩, hprog⟩, hscript⟩, hext⟩
  by_cases h0 : t = 0
  · -- a null entry is the default entry and is written as its type byte alone
    subst h0
    have hempty : DynaFedParamEntry.mk 0 sbs limit prog script ext root =
        DynaFedParamEntry.empty := by
      simpa using hshape
    rw [hempty]
    refine ⟨[0], rfl, ?_⟩
    intro rest
    rfl
  · by_cases h1 : t = 1
    · subst h1
      have hfields : prog = [] ∧ script = [] ∧ ext = [] := by
        simpa [h0, and_assoc] using hshape
      rcases hfields with ⟨rfl, rfl, rfl⟩
      refine ⟨[1] ++ SerializeByteVector sbs ++ ser_writedata32 limit ++ root.Serialize,
        rfl, ?_⟩
      intro rest
      simp only [List.append_assoc, List.cons_append, List.nil_append]
      unfold DynaFedParamEntry.Unserialize
      rw [bind_apply_of_ok (ser_readdata8_cons 1 _), if_neg (by decide), if_pos rfl,
        bind_apply_of_ok (UnserializeByteVector_inverts sbs hsbs _),
        bind_apply_of_ok (ser_readdata32_inverts limit trivial _),
        bind_apply_of_ok (BaseBlob.Unserialize_inverts 32 root trivial rest)]
      rfl
    · by_cases h2 : t = 2
      · subst h2
        have hroot : root = BaseBlob.zero 32 := by
          simpa [h0, h1] using hshape
        subst hroot
        refine ⟨[2] ++ SerializeByteVector sbs ++ ser_writedata32 limit ++
            SerializeByteVector prog ++ SerializeByteVector script ++ SerializeStack ext,
          rfl, ?_⟩
        intro rest
        simp only [List.append_assoc, List.cons_append, List.nil_append]
        unfold DynaFedParamEntry.Unserialize
        rw [bind_apply_of_ok (ser_readdata8_cons 2 _), if_neg (by decide), if_neg (by decide),
          if_pos rfl,
          bind_apply_of_ok (UnserializeByteVector_inverts sbs hsbs _),
          bind_apply_of_ok (ser_readdata32_inverts limit trivial _),
          bind_apply_of_ok (UnserializeByteVector_inverts prog hprog _),
          bind_apply_of_ok (UnserializeByteVector_inverts script hscript _),
          bind_apply_of_ok (UnserializeStack_inverts ext hext rest)]
        rfl
      · simp [h0, h1, h2] at hshape

theorem DynaFedParamEntry.Serialize_of_Unserialize {bytes rest : List UInt8}
    {e : DynaFedParamEntry}
    (hdec : DynaFedParamEntry.empty.Unserialize bytes = Except.ok (e, rest)) :
    e.Canonical = true ∧ exists enc, e.Serialize = some enc ∧ bytes = enc ++ rest := by
  rcases bind_eq_ok hdec with ⟨t, mid, ht, hbody⟩
  rcases ser_readdata8_sound bytes t mid ht with ⟨-, hbytes⟩
  subst hbytes
  clear hdec
  by_cases h0 : t = 0
  · subst h0
    rw [if_pos rfl] at hbody
    cases hbody
    constructor
    · decide
    · exact ⟨[0], rfl, rfl⟩
  · rw [if_neg h0] at hbody
    by_cases h1 : t = 1
    · subst h1
      rw [if_pos rfl] at hbody
      rcases bind_eq_ok hbody with ⟨sbs, mid1, hsbs, hdec⟩
      rcases bind_eq_ok hdec with ⟨limit, mid2, hlimit, hdec⟩
      rcases bind_eq_ok hdec with ⟨root, mid3, hroot, hdec⟩
      cases hdec
      rcases UnserializeByteVector_sound mid sbs mid1 hsbs with ⟨hsbsFits, hmid⟩
      rcases ser_readdata32_sound mid1 limit mid2 hlimit with ⟨-, hmid1⟩
      rcases BaseBlob.Unserialize_sound 32 mid2 root rest hroot with ⟨-, hmid2⟩
      constructor
      · have hlen : sbs.length ≤ MAX_SIZE := hsbsFits
        simp [DynaFedParamEntry.Canonical, DynaFedParamEntry.empty, hlen, ByteVectorFits,
          StackFits]
      · refine ⟨[1] ++ SerializeByteVector sbs ++ ser_writedata32 limit ++ root.Serialize,
          rfl, ?_⟩
        rw [hmid, hmid1, hmid2]
        simp [ser_writedata8]
    · rw [if_neg h1] at hbody
      by_cases h2 : t = 2
      · subst h2
        rw [if_pos rfl] at hbody
        rcases bind_eq_ok hbody with ⟨sbs, mid1, hsbs, hdec⟩
        rcases bind_eq_ok hdec with ⟨limit, mid2, hlimit, hdec⟩
        rcases bind_eq_ok hdec with ⟨prog, mid3, hprog, hdec⟩
        rcases bind_eq_ok hdec with ⟨script, mid4, hscript, hdec⟩
        rcases bind_eq_ok hdec with ⟨ext, mid5, hext, hdec⟩
        cases hdec
        rcases UnserializeByteVector_sound mid sbs mid1 hsbs with ⟨hsbsFits, hmid⟩
        rcases ser_readdata32_sound mid1 limit mid2 hlimit with ⟨-, hmid1⟩
        rcases UnserializeByteVector_sound mid2 prog mid3 hprog with ⟨hprogFits, hmid2⟩
        rcases UnserializeByteVector_sound mid3 script mid4 hscript with ⟨hscriptFits, hmid3⟩
        rcases UnserializeStack_sound mid4 ext rest hext with ⟨hextFits, hmid4⟩
        constructor
        · simp [DynaFedParamEntry.Canonical, DynaFedParamEntry.empty, hsbsFits, hprogFits,
            hscriptFits, hextFits]
        · refine ⟨[2] ++ SerializeByteVector sbs ++ ser_writedata32 limit ++
              SerializeByteVector prog ++ SerializeByteVector script ++ SerializeStack ext,
            rfl, ?_⟩
          rw [hmid, hmid1, hmid2, hmid3, hmid4]
          simp [ser_writedata8]
      · rw [if_neg h2] at hbody
        cases hbody

/-!
## Parameter pairs
-/

theorem DynaFedParams.Unserialize_of_Serialize (p : DynaFedParams)
    (hcurrent : p.m_current.Canonical = true) (hproposed : p.m_proposed.Canonical = true) :
    exists enc, p.Serialize = some enc ∧
      forall rest, DynaFedParams.empty.Unserialize (enc ++ rest) = Except.ok (p, rest) := by
  obtain ⟨enc1, hser1, hdec1⟩ := DynaFedParamEntry.Unserialize_of_Serialize _ hcurrent
  obtain ⟨enc2, hser2, hdec2⟩ := DynaFedParamEntry.Unserialize_of_Serialize _ hproposed
  refine ⟨enc1 ++ enc2, by simp [DynaFedParams.Serialize, hser1, hser2], ?_⟩
  intro rest
  show (DynaFedParamEntry.empty.Unserialize >>= fun current =>
      DynaFedParamEntry.empty.Unserialize >>= fun proposed =>
        (Pure.pure ⟨current, proposed⟩ : Decoder DynaFedParams)) (enc1 ++ enc2 ++ rest) = _
  rw [List.append_assoc, bind_apply_of_ok (hdec1 _), bind_apply_of_ok (hdec2 rest)]
  rfl

theorem DynaFedParams.Serialize_of_Unserialize {bytes rest : List UInt8} {p : DynaFedParams}
    (hdec : DynaFedParams.empty.Unserialize bytes = Except.ok (p, rest)) :
    p.m_current.Canonical = true ∧ p.m_proposed.Canonical = true ∧
      exists enc, p.Serialize = some enc ∧ bytes = enc ++ rest := by
  obtain ⟨current, mid, hcurrent, hdec⟩ := bind_eq_ok hdec
  obtain ⟨proposed, mid', hproposed, hdec⟩ := bind_eq_ok hdec
  cases hdec
  obtain ⟨hcanon1, enc1, hser1, hbytes⟩ := DynaFedParamEntry.Serialize_of_Unserialize hcurrent
  obtain ⟨hcanon2, enc2, hser2, hmid⟩ := DynaFedParamEntry.Serialize_of_Unserialize hproposed
  refine ⟨hcanon1, hcanon2, enc1 ++ enc2, by simp [DynaFedParams.Serialize, hser1, hser2], ?_⟩
  rw [hbytes, hmid, List.append_assoc]

/-!
## The legacy proof
-/

/-- A proof as a fresh decode from a stream `s` leaves it: a hashing stream
reads no solution. -/
def CProof.Canonical (s : StreamFlags) (p : CProof) : Prop :=
  ByteVectorFits p.challenge ∧
    if s.getHash then p.solution = [] else ByteVectorFits p.solution

instance (s : StreamFlags) : DecidablePred (CProof.Canonical s) := fun p => by
  unfold CProof.Canonical
  infer_instance

theorem CProof.Unserialize_of_Serialize (s : StreamFlags) (p : CProof)
    (hcanon : p.Canonical s) (rest : List UInt8) :
    CProof.empty.Unserialize s (p.Serialize s ++ rest) = Except.ok (p, rest) := by
  rcases p with ⟨challenge, solution⟩
  obtain ⟨hchallenge, hsolution⟩ := hcanon
  unfold CProof.Unserialize CProof.Serialize
  rw [List.append_assoc, bind_apply_of_ok (UnserializeByteVector_inverts _ hchallenge _)]
  cases hhash : s.getHash with
  | true =>
      rw [hhash, if_pos rfl] at hsolution
      subst hsolution
      rfl
  | false =>
      rw [hhash, if_neg Bool.false_ne_true] at hsolution
      simp only [Bool.false_eq_true, if_false]
      rw [bind_apply_of_ok (UnserializeByteVector_inverts _ hsolution _)]
      rfl

theorem CProof.Serialize_of_Unserialize {s : StreamFlags} {bytes rest : List UInt8}
    {p : CProof} (hdec : CProof.empty.Unserialize s bytes = Except.ok (p, rest)) :
    p.Canonical s ∧ bytes = p.Serialize s ++ rest := by
  obtain ⟨challenge, mid, hchallenge, hdec⟩ := bind_eq_ok hdec
  obtain ⟨hfits, hbytes⟩ := UnserializeByteVector_sound bytes challenge mid hchallenge
  cases hhash : s.getHash with
  | true =>
      rw [hhash, if_pos rfl] at hdec
      cases hdec
      refine ⟨⟨hfits, ?_⟩, ?_⟩
      · rw [hhash, if_pos rfl]
        rfl
      · simp [CProof.Serialize, hhash, hbytes]
  | false =>
      rw [hhash, if_neg Bool.false_ne_true] at hdec
      obtain ⟨solution, mid', hsolution, hdec⟩ := bind_eq_ok hdec
      cases hdec
      obtain ⟨hfits', hmid⟩ := UnserializeByteVector_sound mid solution rest hsolution
      refine ⟨⟨hfits, ?_⟩, ?_⟩
      · rw [hhash, if_neg Bool.false_ne_true]
        exact hfits'
      · simp [CProof.Serialize, hhash, hbytes, hmid]

/-!
## The header
-/

@[simp] theorem DynaFedParams.empty_IsNull : DynaFedParams.empty.IsNull = true := by
  decide

/-- A header as a fresh decode leaves it: bit 31 of the version is clear, and
the fields outside the layout its parameters select hold the defaults of
`CBlockHeader.empty`. -/
def CBlockHeader.Canonical (g : Globals) (s : StreamFlags) (h : CBlockHeader) : Prop :=
  h.nVersion.toNat < 2 ^ 31 ∧
    if h.m_dynafed_params.IsNull then
      h.m_dynafed_params = DynaFedParams.empty ∧ h.m_signblock_witness.stack = [] ∧
        (if g.g_con_blockheightinheader then True else h.block_height = 0) ∧
        (if g.g_signed_blocks then h.nBits = 0 ∧ h.nNonce = 0 ∧ h.proof.Canonical s
          else h.proof = CProof.empty)
    else
      h.m_dynafed_params.m_current.Canonical = true ∧
        h.m_dynafed_params.m_proposed.Canonical = true ∧
        h.nBits = 0 ∧ h.nNonce = 0 ∧ h.proof = CProof.empty ∧
        (if !s.getHash && !s.noWitness then StackFits h.m_signblock_witness.stack
          else h.m_signblock_witness.stack = [])

instance (g : Globals) (s : StreamFlags) : DecidablePred (CBlockHeader.Canonical g s) :=
  fun h => by
    unfold CBlockHeader.Canonical
    infer_instance

/-- Whether the version word at the front of `bytes` has the HF bit, i.e.
whether the decoder takes the dynamic federation layout. -/
def VersionHasHFBit (bytes : List UInt8) : Bool :=
  match ser_readdata32 bytes with
  | Except.ok (nVersion, _) => Int32IsNegative nVersion
  | Except.error _ => false

theorem CBlockHeader.Unserialize_of_Serialize (g : Globals) (s : StreamFlags) (h : CBlockHeader)
    (hcanon : h.Canonical g s) :
    exists enc, h.Serialize g s = some enc ∧
      forall rest, CBlockHeader.empty.Unserialize g s (enc ++ rest) = Except.ok (h, rest) := by
  rcases h with ⟨v, prev, merkle, time, height, bits, nonce, proof, params, ⟨wit⟩⟩
  obtain ⟨hv, hcanon⟩ := hcanon
  change v.toNat < 2 ^ 31 at hv
  cases hnull : params.IsNull with
  | false =>
      -- parameters present: the encoder sets the HF bit and writes the dynamic layout
      rw [hnull, if_neg Bool.false_ne_true] at hcanon
      obtain ⟨hcurrent, hproposed, rfl, rfl, rfl, hwit⟩ := hcanon
      obtain ⟨penc, hpser, hpdec⟩ := DynaFedParams.Unserialize_of_Serialize params hcurrent hproposed
      refine ⟨ser_writedata32 (v ||| DYNAFED_HF_MASK) ++ prev.Serialize ++ merkle.Serialize ++
          ser_writedata32 time ++ ser_writedata32 height ++ penc ++
          (if !s.getHash && !s.noWitness then SerializeStack wit else []),
        by simp [CBlockHeader.Serialize, hnull, hpser], ?_⟩
      intro rest
      simp only [List.append_assoc]
      unfold CBlockHeader.Unserialize
      rw [bind_apply_of_ok (ser_readdata32_inverts _ trivial _)]
      rw [Int32IsNegative_setMask v hv, if_pos rfl, clearMask_setMask v hv]
      unfold CBlockHeader.UnserializeDyna
      dsimp only [CBlockHeader.empty]
      rw [bind_apply_of_ok (BaseBlob.Unserialize_inverts 32 prev trivial _),
        bind_apply_of_ok (BaseBlob.Unserialize_inverts 32 merkle trivial _),
        bind_apply_of_ok (ser_readdata32_inverts time trivial _),
        bind_apply_of_ok (ser_readdata32_inverts height trivial _),
        bind_apply_of_ok (hpdec _),
        bind_apply_of_ok (ite_inverts UnserializeStack_inverts _ [] wit hwit rest)]
      rfl
  | true =>
      -- no parameters: the legacy layout, whose optional fields follow the switches
      rw [hnull, if_pos rfl] at hcanon
      obtain ⟨rfl, rfl, hheight, hproof⟩ := hcanon
      have hlegacy : Int32IsNegative v = false := by
        rw [Int32IsNegative_eq, decide_eq_false_iff_not, Nat.not_le]
        exact hv
      cases hsigned : g.g_signed_blocks with
      | true =>
          rw [hsigned, if_pos rfl] at hproof
          obtain ⟨rfl, rfl, hproof⟩ := hproof
          refine ⟨ser_writedata32 v ++ prev.Serialize ++ merkle.Serialize ++ ser_writedata32 time ++
              (if g.g_con_blockheightinheader then ser_writedata32 height else []) ++
              proof.Serialize s,
            by simp [CBlockHeader.Serialize, hnull, hsigned], ?_⟩
          intro rest
          simp only [List.append_assoc]
          unfold CBlockHeader.Unserialize
          rw [bind_apply_of_ok (ser_readdata32_inverts _ trivial _)]
          rw [hlegacy, if_neg Bool.false_ne_true, clearMask_of_nonnegative v hv]
          unfold CBlockHeader.UnserializeLegacy
          dsimp only [CBlockHeader.empty]
          rw [bind_apply_of_ok (BaseBlob.Unserialize_inverts 32 prev trivial _),
            bind_apply_of_ok (BaseBlob.Unserialize_inverts 32 merkle trivial _),
            bind_apply_of_ok (ser_readdata32_inverts time trivial _),
            bind_apply_of_ok (ite_inverts ser_readdata32_inverts _ 0 height hheight _),
            hsigned, if_pos rfl,
            bind_apply_of_ok (CProof.Unserialize_of_Serialize s proof hproof rest)]
          rfl
      | false =>
          rw [hsigned, if_neg Bool.false_ne_true] at hproof
          subst hproof
          refine ⟨ser_writedata32 v ++ prev.Serialize ++ merkle.Serialize ++ ser_writedata32 time ++
              (if g.g_con_blockheightinheader then ser_writedata32 height else []) ++
              (ser_writedata32 bits ++ ser_writedata32 nonce),
            by simp [CBlockHeader.Serialize, hnull, hsigned], ?_⟩
          intro rest
          simp only [List.append_assoc]
          unfold CBlockHeader.Unserialize
          rw [bind_apply_of_ok (ser_readdata32_inverts _ trivial _)]
          rw [hlegacy, if_neg Bool.false_ne_true, clearMask_of_nonnegative v hv]
          unfold CBlockHeader.UnserializeLegacy
          dsimp only [CBlockHeader.empty]
          rw [bind_apply_of_ok (BaseBlob.Unserialize_inverts 32 prev trivial _),
            bind_apply_of_ok (BaseBlob.Unserialize_inverts 32 merkle trivial _),
            bind_apply_of_ok (ser_readdata32_inverts time trivial _),
            bind_apply_of_ok (ite_inverts ser_readdata32_inverts _ 0 height hheight _),
            hsigned, if_neg Bool.false_ne_true,
            bind_apply_of_ok (ser_readdata32_inverts bits trivial _),
            bind_apply_of_ok (ser_readdata32_inverts nonce trivial rest)]
          rfl

theorem CBlockHeader.Serialize_of_Unserialize {g : Globals} {s : StreamFlags}
    {bytes rest : List UInt8} {h : CBlockHeader}
    (hdec : CBlockHeader.empty.Unserialize g s bytes = Except.ok (h, rest))
    (hhf : VersionHasHFBit bytes = true -> h.m_dynafed_params.IsNull = false) :
    h.Canonical g s ∧ exists enc, h.Serialize g s = some enc ∧ bytes = enc ++ rest := by
  obtain ⟨v, mid, hv, hbody⟩ := bind_eq_ok hdec
  obtain ⟨-, hbytes⟩ := ser_readdata32_sound bytes v mid hv
  have hflag : VersionHasHFBit bytes = Int32IsNegative v := by
    simp only [VersionHasHFBit, hv]
  clear hdec
  subst hbytes
  cases hneg : Int32IsNegative v with
  | true =>
      -- the HF bit is set: the dynamic layout, with the bit cleared from the version
      have hhigh : 2 ^ 31 ≤ v.toNat := by
        simpa [Int32IsNegative_eq] using hneg
      simp only [hneg, if_true] at hbody
      unfold CBlockHeader.UnserializeDyna at hbody
      dsimp only [CBlockHeader.empty] at hbody
      obtain ⟨prev, mid1, hprev, hbody⟩ := bind_eq_ok hbody
      obtain ⟨merkle, mid2, hmerkle, hbody⟩ := bind_eq_ok hbody
      obtain ⟨time, mid3, htime, hbody⟩ := bind_eq_ok hbody
      obtain ⟨height, mid4, hheight, hbody⟩ := bind_eq_ok hbody
      obtain ⟨params, mid5, hparams, hbody⟩ := bind_eq_ok hbody
      obtain ⟨wit, mid6, hwit, hbody⟩ := bind_eq_ok hbody
      cases hbody
      have hnull : params.IsNull = false := hhf (by rw [hflag, hneg])
      obtain ⟨-, hmid⟩ := BaseBlob.Unserialize_sound 32 mid prev mid1 hprev
      obtain ⟨-, hmid1⟩ := BaseBlob.Unserialize_sound 32 mid1 merkle mid2 hmerkle
      obtain ⟨-, hmid2⟩ := ser_readdata32_sound mid2 time mid3 htime
      obtain ⟨-, hmid3⟩ := ser_readdata32_sound mid3 height mid4 hheight
      obtain ⟨hcurrent, hproposed, penc, hpser, hmid4⟩ :=
        DynaFedParams.Serialize_of_Unserialize hparams
      obtain ⟨hwitFits, hmid5⟩ := ite_sound UnserializeStack_sound _ [] hwit
      refine ⟨⟨?_, ?_⟩, ?_⟩
      · show (~~~DYNAFED_HF_MASK &&& v).toNat < 2 ^ 31
        rw [notMask_and_toNat]
        omega
      · rw [if_neg (by rw [hnull]; exact Bool.false_ne_true)]
        exact ⟨hcurrent, hproposed, rfl, rfl, rfl, hwitFits⟩
      · rw [hmid, hmid1, hmid2, hmid3, hmid4, hmid5]
        simp [CBlockHeader.Serialize, hnull, hpser, setMask_clearMask v hhigh]
  | false =>
      -- the HF bit is clear: the legacy layout
      have hlow : v.toNat < 2 ^ 31 := by
        simpa [Int32IsNegative_eq] using hneg
      simp only [hneg, Bool.false_eq_true, if_false] at hbody
      rw [clearMask_of_nonnegative v hlow] at hbody
      unfold CBlockHeader.UnserializeLegacy at hbody
      dsimp only [CBlockHeader.empty] at hbody
      obtain ⟨prev, mid1, hprev, hbody⟩ := bind_eq_ok hbody
      obtain ⟨merkle, mid2, hmerkle, hbody⟩ := bind_eq_ok hbody
      obtain ⟨time, mid3, htime, hbody⟩ := bind_eq_ok hbody
      obtain ⟨height, mid4, hheight, hbody⟩ := bind_eq_ok hbody
      obtain ⟨-, hmid⟩ := BaseBlob.Unserialize_sound 32 mid prev mid1 hprev
      obtain ⟨-, hmid1⟩ := BaseBlob.Unserialize_sound 32 mid1 merkle mid2 hmerkle
      obtain ⟨-, hmid2⟩ := ser_readdata32_sound mid2 time mid3 htime
      obtain ⟨hheightCanon, hmid3⟩ := ite_sound ser_readdata32_sound _ 0 hheight
      cases hsigned : g.g_signed_blocks with
      | true =>
          rw [hsigned, if_pos rfl] at hbody
          obtain ⟨proof, mid5, hproof, hbody⟩ := bind_eq_ok hbody
          cases hbody
          obtain ⟨hproofCanon, hmid4⟩ := CProof.Serialize_of_Unserialize hproof
          refine ⟨⟨hlow, ?_⟩, ?_⟩
          · rw [if_pos DynaFedParams.empty_IsNull, hsigned, if_pos rfl]
            exact ⟨rfl, rfl, hheightCanon, rfl, rfl, hproofCanon⟩
          · rw [hmid, hmid1, hmid2, hmid3, hmid4]
            simp [CBlockHeader.Serialize, hsigned]
      | false =>
          rw [hsigned, if_neg Bool.false_ne_true] at hbody
          obtain ⟨bits, mid5, hbits, hbody⟩ := bind_eq_ok hbody
          obtain ⟨nonce, mid6, hnonce, hbody⟩ := bind_eq_ok hbody
          cases hbody
          obtain ⟨-, hmid4⟩ := ser_readdata32_sound mid4 bits mid5 hbits
          obtain ⟨-, hmid5⟩ := ser_readdata32_sound mid5 nonce rest hnonce
          refine ⟨⟨hlow, ?_⟩, ?_⟩
          · rw [if_pos DynaFedParams.empty_IsNull, hsigned, if_neg Bool.false_ne_true]
            exact ⟨rfl, rfl, hheightCanon, rfl⟩
          · rw [hmid, hmid1, hmid2, hmid3, hmid4, hmid5]
            simp [CBlockHeader.Serialize, hsigned]

/-- A dynamic federation header whose entries are both null: the HF bit, zero
hashes, time and height, two entries of serialize type 0 and an empty witness
stack. -/
def nullDynaFedHeaderBytes : List UInt8 :=
  [0, 0, 0, 0x80] ++ List.replicate 32 0 ++ List.replicate 32 0 ++ [0, 0, 0, 0] ++
    [0, 0, 0, 0] ++ [0] ++ [0] ++ [0]

/-- The bytes decode to the default header, which a signed-blocks node with the
height in its headers writes back in the legacy layout. -/
theorem Unserialize_null_dynafed_reencodes_legacy :
    CBlockHeader.empty.Unserialize ⟨true, true, true⟩ StreamFlags.network
        nullDynaFedHeaderBytes = Except.ok (CBlockHeader.empty, []) ∧
      CBlockHeader.empty.Serialize ⟨true, true, true⟩ StreamFlags.network ≠
        some nullDynaFedHeaderBytes :=
  ⟨rfl, by decide⟩

/-- Re-encoding reproduces every accepted byte string except those that set
the HF bit over null parameters; encoding then decoding gives back every
canonical header. -/
theorem CBlockHeader.Unserialize_Serialize_roundtrip (g : Globals) (s : StreamFlags) :
    (forall bytes h rest, CBlockHeader.empty.Unserialize g s bytes = Except.ok (h, rest) ->
      (VersionHasHFBit bytes = true -> h.m_dynafed_params.IsNull = false) ->
      exists enc, h.Serialize g s = some enc ∧ bytes = enc ++ rest) ∧
    (forall h, h.Canonical g s ->
      exists enc, h.Serialize g s = some enc ∧
        forall rest, CBlockHeader.empty.Unserialize g s (enc ++ rest) = Except.ok (h, rest)) := by
  constructor
  · intro bytes h rest hdec hhf
    exact (CBlockHeader.Serialize_of_Unserialize hdec hhf).2
  · intro h hcanon
    exact CBlockHeader.Unserialize_of_Serialize g s h hcanon

end Elements
