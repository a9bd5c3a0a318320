import Elements.Psbt.Pset
import Elements.Confidential.Blind

/-!
# The PSET blinder

`BlindPSBT` of `blindpsbt.cpp`.  One call blinds the outputs whose blinder
index names an input the caller owns.  It first lists the surjection targets:
each input's asset, with the caller's own asset ids and blinding factors, then
the asset and the reissuance token of an input's issuance.  Each output it
blinds takes fresh blinding factors, and adds `value * asset_blinder +
value_blinder` to the caller's output scalar, as the caller's inputs add theirs
to its input scalar.  The call that blinds the last output of the PSET
subtracts every scalar from the last value blinding factor, so that the
commitments balance; any other call publishes its output scalar minus its input
scalar in `m_scalar_offsets`.

Scalars are 32-byte big-endian numbers modulo the group order, and the helpers
fail where the libsecp256k1 calls they make fail.  Every random draw of the
call is an argument, by the index of the output it is drawn for.
-/

namespace Elements

open Codec

inductive BlindingStatus where
  | OK
  | NEEDS_UTXOS
  | INVALID_ASSET
  | INVALID_ASSET_COMMITMENT
  | SCALAR_UNABLE
  | INVALID_BLINDER
  | ASP_UNABLE
  | NO_BLIND_OUTPUTS
deriving DecidableEq, Repr

/-!
## Scalars
-/

/-- `SubtractScalars(a, b)`: `a - b`; `none` where it returns false. -/
def SubtractScalars (a b : Uint256) : Option Uint256 :=
  -- subtracting zero leaves `a` as it is
  if b.IsNull then some a
  else
    secp256k1_ec_seckey_negate b >>= fun sub =>
      if a.IsNull then some sub
      else secp256k1_ec_seckey_tweak_add a sub

/-- The `uint256` `tweak_mul` reads for an amount: eight big-endian bytes at
offset 24. -/
def AmountTweak (value : CAmount) : Uint256 :=
  ⟨List.replicate 24 0 ++ WriteBE64 value.toUInt64, by simp [WriteBE64]⟩

/-- `CalculateScalarOffset`: `value * asset_blinder + value_blinder`, with the
zero cases taken apart before the calls that refuse zero. -/
def CalculateScalarOffset (value : CAmount) (asset_blinder value_blinder : Uint256) :
    Option Uint256 :=
  if asset_blinder.IsNull then some value_blinder
  else if value > 0 then
    secp256k1_ec_seckey_tweak_mul asset_blinder (AmountTweak value) >>= fun out =>
      if !value_blinder.IsNull then
        secp256k1_ec_seckey_negate value_blinder >>= fun value_negated =>
          if value_negated = out then some (BaseBlob.zero 32)
          else secp256k1_ec_seckey_tweak_add out value_blinder
      else some out
  else some value_blinder

/-- `ComputeAndAddToScalarOffset(a, ...)`: `a` plus the scalar offset of an
input or an output. -/
def ComputeAndAddToScalarOffset (a : Uint256) (value : CAmount) (asset_blinder value_blinder : Uint256) :
    Option Uint256 :=
  if asset_blinder.IsNull && value_blinder.IsNull then some a
  else
    CalculateScalarOffset value asset_blinder value_blinder >>= fun scalar =>
      if a.IsNull then some scalar
      else
        secp256k1_ec_seckey_negate scalar >>= fun scalar_negated =>
          if scalar_negated = a then some (BaseBlob.zero 32)
          else secp256k1_ec_seckey_tweak_add a scalar

/-!
### What the scalar helpers compute

Modulo the group order, wherever they succeed.  An amount that is not
positive counts as zero, as `CalculateScalarOffset` takes it.
-/

theorem SubtractScalars_spec {a b c : Uint256} (h : SubtractScalars a b = some c) :
    ScalarValue c = ScalarValue a - ScalarValue b := by
  unfold SubtractScalars at h
  by_cases hb : b.IsNull = true
  · simp only [hb, if_true, Option.some.injEq] at h
    subst h
    rw [ScalarValue_of_IsNull hb, sub_zero]
  · simp only [hb, Bool.false_eq_true, if_false, Option.bind_eq_bind, Option.bind_eq_some_iff] at h
    obtain ⟨sub, hsub, h⟩ := h
    have hneg := secp256k1_ec_seckey_negate_spec hsub
    by_cases ha : a.IsNull = true
    · simp only [ha, if_true, Option.some.injEq] at h
      subst h
      rw [hneg, ScalarValue_of_IsNull ha, zero_sub]
    · simp only [ha, Bool.false_eq_true, if_false] at h
      rw [secp256k1_ec_seckey_tweak_add_spec h, hneg, sub_eq_add_neg]

theorem ScalarValue_AmountTweak (value : CAmount) :
    ScalarValue (AmountTweak value) = (value.toUInt64.toNat : ZMod SECP256K1_N) := by
  have hlt : value.toUInt64.toNat < 256 ^ 8 := by
    have := value.toUInt64.toNat_lt
    norm_num at this ⊢
    exact this
  have hread : scalar_of_b32 (AmountTweak value) = value.toUInt64.toNat := by
    show decodeLE (List.replicate 24 0 ++ (encodeLE 8 value.toUInt64.toNat).reverse).reverse = _
    rw [List.reverse_append, List.reverse_reverse, List.reverse_replicate, decodeLE_append,
      decodeLE_encodeLE, Nat.mod_eq_of_lt hlt,
      (decodeLE_eq_zero_iff (List.replicate 24 0)).mpr (fun b hb => (List.mem_replicate.mp hb).2)]
    simp
  rw [ScalarValue, hread]

theorem CalculateScalarOffset_spec {value : CAmount} {asset_blinder value_blinder out : Uint256}
    (h : CalculateScalarOffset value asset_blinder value_blinder = some out) :
    ScalarValue out = value.toNatClampNeg * ScalarValue asset_blinder + ScalarValue value_blinder := by
  unfold CalculateScalarOffset at h
  by_cases hasset : asset_blinder.IsNull = true
  · -- no asset blinding factor: the value blinding factor alone
    simp only [hasset, if_true, Option.some.injEq] at h
    subst h
    rw [ScalarValue_of_IsNull hasset, mul_zero, zero_add]
  simp only [hasset, Bool.false_eq_true, if_false] at h
  by_cases hpos : value > 0
  · simp only [hpos, if_true, Option.bind_eq_bind, Option.bind_eq_some_iff] at h
    obtain ⟨product, hproduct, h⟩ := h
    have hamount : ((value.toUInt64.toNat : Nat) : ZMod SECP256K1_N) = value.toNatClampNeg := by
      rw [Int64.toNat_toUInt64_of_le (Int64.le_of_lt hpos)]
    have hmul : ScalarValue product = value.toNatClampNeg * ScalarValue asset_blinder := by
      rw [secp256k1_ec_seckey_tweak_mul_spec hproduct, ScalarValue_AmountTweak, hamount, mul_comm]
    by_cases hvalue : value_blinder.IsNull = true
    · simp only [hvalue, Bool.not_true, Bool.false_eq_true, if_false, Option.some.injEq] at h
      subst h
      rw [hmul, ScalarValue_of_IsNull hvalue, add_zero]
    simp only [hvalue, Bool.not_false, if_true, Option.bind_eq_some_iff] at h
    obtain ⟨value_negated, hnegated, h⟩ := h
    by_cases hzero : value_negated = product
    · -- the sum is zero, which `tweak_add` would refuse
      simp only [hzero, if_true, Option.some.injEq] at h
      subst h hzero
      rw [ScalarValue_of_IsNull (BaseBlob.zero_IsNull 32), ← hmul,
        secp256k1_ec_seckey_negate_spec hnegated, neg_add_cancel]
    · simp only [hzero, if_false] at h
      rw [secp256k1_ec_seckey_tweak_add_spec h, hmul]
  · -- a non-positive amount counts as zero
    simp only [hpos, if_false, Option.some.injEq] at h
    subst h
    have hclamp : value.toNatClampNeg = 0 := Int64.toNatClampNeg_eq_zero_iff.mpr (Int64.not_lt.mp hpos)
    rw [hclamp, Nat.cast_zero, zero_mul, zero_add]

theorem ComputeAndAddToScalarOffset_spec {a : Uint256} {value : CAmount}
    {asset_blinder value_blinder result : Uint256}
    (h : ComputeAndAddToScalarOffset a value asset_blinder value_blinder = some result) :
    ScalarValue result =
      ScalarValue a + (value.toNatClampNeg * ScalarValue asset_blinder + ScalarValue value_blinder) := by
  unfold ComputeAndAddToScalarOffset at h
  by_cases hnull : (asset_blinder.IsNull && value_blinder.IsNull) = true
  · simp only [hnull, if_true, Option.some.injEq] at h
    subst h
    simp only [Bool.and_eq_true] at hnull
    rw [ScalarValue_of_IsNull hnull.1, ScalarValue_of_IsNull hnull.2, mul_zero, add_zero, add_zero]
  simp only [hnull, Bool.false_eq_true, if_false, Option.bind_eq_bind, Option.bind_eq_some_iff] at h
  obtain ⟨scalar, hscalar, h⟩ := h
  rw [← CalculateScalarOffset_spec hscalar]
  by_cases ha : a.IsNull = true
  · simp only [ha, if_true, Option.some.injEq] at h
    subst h
    rw [ScalarValue_of_IsNull ha, zero_add]
  simp only [ha, Bool.false_eq_true, if_false, Option.bind_eq_some_iff] at h
  obtain ⟨scalar_negated, hnegated, h⟩ := h
  by_cases hzero : scalar_negated = a
  · simp only [hzero, if_true, Option.some.injEq] at h
    subst h hzero
    rw [ScalarValue_of_IsNull (BaseBlob.zero_IsNull 32), secp256k1_ec_seckey_negate_spec hnegated,
      neg_add_cancel]
  · simp only [hzero, if_false] at h
    exact secp256k1_ec_seckey_tweak_add_spec h

/-!
## The calls one output's blinding makes
-/

/-- What the caller knows of an input it owns: amount, asset, asset blinding
factor and value blinding factor. -/
abbrev OurInputData := CAmount × CAsset × Uint256 × Uint256

/-- The random draws of one call, by the index of the output they are drawn
for.  `MakeNewKey` draws until it has a valid key: `ephemeral_key` is that
key. -/
structure BlindPsbtRandomness where
  value_blinder : Nat -> Uint256
  asset_blinder : Nat -> Uint256
  ephemeral_key : Nat -> Uint256
  value_proof_nonce : Nat -> Uint256
  surjection_seed : Nat -> Uint256

/-- How `BlindPSBT` leaves before its end: a `return` with the PSET as it is
then, or an `assert`. -/
inductive BlindPsbtExit where
  | ret (status : BlindingStatus) (psbt : PartiallySignedTransaction)
  | abort
deriving DecidableEq, Repr

/-- An `assert` on a value that may be missing. -/
def assertPsbt {α : Type} : Option α -> Except BlindPsbtExit α
  | some a => pure a
  | none => throw .abort

/-- The surjection targets: the fixed input tags, the ephemeral input tags and
the input asset blinding factors. -/
structure PsetTargets (G : Type) where
  fixed_input_tags : List Uint256
  ephemeral_input_tags : List G
  input_asset_blinders : List Uint256

def PsetTargets.push {G : Type} (targets : PsetTargets G) (fixed : Uint256) (ephemeral : G)
    (blinder : Uint256) : PsetTargets G :=
  ⟨targets.fixed_input_tags ++ [fixed], targets.ephemeral_input_tags ++ [ephemeral],
    targets.input_asset_blinders ++ [blinder]⟩

section BlindPsbt

variable {G C P : Type} (secp : Secp256k1Zkp G C P) (H : Hashes) (g : Globals)
  (pegged_asset : CAsset) (cfg : RangeproofArgs) (rand : BlindPsbtRandomness)
  (our_input_data : AList (fun _ : Nat => OurInputData))

/-- `CreateAssetCommitment`: the asset blinded by its blinding factor. -/
def CreateAssetCommitment (asset : CAsset) (asset_blinder : Uint256) : Option (CConfidentialAsset × G) :=
  (secp.generator_generate_blinded asset asset_blinder).map fun asset_gen =>
    (⟨secp.generator_serialize asset_gen⟩, asset_gen)

/-- `CreateValueCommitment`; `none` where one of its `assert`s fails. -/
def CreateValueCommitment (value_blinder : Uint256) (asset_gen : G) (amount : CAmount) :
    Option (CConfidentialValue × C) :=
  secp.pedersen_commit value_blinder amount.toUInt64 asset_gen >>= fun value_commit =>
    let conf_value : CConfidentialValue := ⟨secp.pedersen_commitment_serialize value_commit⟩
    if conf_value.IsValid then some (conf_value, value_commit) else none

/-- `GenerateRangeproofECDHKey`: the ephemeral public key, and the SHA256 of its
ECDH secret with the blinding key as the range proof's nonce. -/
def GenerateRangeproofECDHKey (ephemeral_key : Uint256) (blinding_pubkey : CPubKey) :
    Option (CPubKey × Uint256) :=
  let ephemeral_pubkey := secp.GetPubKey ephemeral_key
  if ephemeral_pubkey.size ≠ 33 then none
  else some (ephemeral_pubkey, H.SHA256 (secp.ECDH ephemeral_key blinding_pubkey).data)

/-- `CreateValueRangeProof`: the range proof `BlindTransaction` makes. -/
def CreateValueRangeProof (value_blinder nonce : Uint256) (amount : CAmount) (scriptPubKey : CScript)
    (value_commit : C) (gen : G) (asset : CAsset) (asset_blinder : Uint256) : Option (List UInt8) :=
  GenerateRangeproof secp g cfg value_blinder nonce amount scriptPubKey value_commit gen asset asset_blinder

/-- `CreateBlindValueProof`: a range proof whose least value is the amount,
with exponent -1 and no message. -/
def CreateBlindValueProof (nonce value_blinder : Uint256) (amount : CAmount) (value_commit : C) (gen : G) :
    Option (List UInt8) :=
  secp.rangeproof_sign amount.toUInt64 value_commit value_blinder nonce (-1) 0 amount.toUInt64 [] [] gen

/-- `CreateAssetSurjectionProof`: a proof over the targets that the output's
asset is one of them; `none` where it returns false. -/
def CreateAssetSurjectionProof (targets : PsetTargets G) (output_asset_blinder : Uint256)
    (output_asset_tag : G) (asset : CAsset) (randseed : Uint256) :
    Except BlindPsbtExit (Option (List UInt8)) :=
  let inputs_to_select := min MAX_SURJECTION_TARGETS targets.fixed_input_tags.length
  match secp.surjectionproof_initialize targets.fixed_input_tags inputs_to_select asset 100 randseed with
  | none => pure none
  | some (proof, input_index) =>
    assertPsbt (secp.surjectionproof_generate proof targets.ephemeral_input_tags output_asset_tag
        input_index (targets.input_asset_blinders.getD input_index (BaseBlob.zero 32))
        output_asset_blinder) >>= fun proof =>
      if !secp.surjectionproof_verify proof targets.ephemeral_input_tags output_asset_tag then
        throw .abort
      else pure (some (secp.surjectionproof_serialize proof))

/-- `CreateBlindAssetProof`: a one-input surjection proof from the unblinded
asset to its commitment; `none` where it returns false. -/
def CreateBlindAssetProof (asset : CAsset) (asset_commit : CConfidentialAsset) (asset_blinder : Uint256) :
    Except BlindPsbtExit (Option (List UInt8)) :=
  let zero32 := BaseBlob.zero 32
  match secp.generator_generate asset, secp.generator_parse asset_commit.vchCommitment with
  | some asset_gen, some blinded_asset_gen =>
    match secp.surjectionproof_initialize [asset] 1 asset 1 zero32 with
    | none => pure none
    | some (proof, input_index) =>
      if input_index ≠ 0 then throw .abort
      else
        match secp.surjectionproof_generate proof [asset_gen] blinded_asset_gen 0 zero32 asset_blinder with
        | none => pure none
        | some proof =>
          if !secp.surjectionproof_verify proof [asset_gen] blinded_asset_gen then pure none
          else pure (some (secp.surjectionproof_serialize proof))
  | _, _ => pure none

/-!
## The surjection targets and the input scalar
-/

/-- The fixed tag `BlindPSBT` copies out of an asset commitment: its 32 bytes
after the prefix. -/
def CommitmentTag (asset : CConfidentialAsset) : Uint256 :=
  ⟨((asset.vchCommitment.drop 1).take 32 ++ List.replicate 32 0).take 32, by simp⟩

/-- `secp256k1_generator_generate` of a tag, `INVALID_ASSET` where it fails. -/
def GenerateTag (psbt : PartiallySignedTransaction) (tag : Uint256) : Except BlindPsbtExit G :=
  match secp.generator_generate tag with
  | some gen => pure gen
  | none => throw (.ret .INVALID_ASSET psbt)

/-- The ephemeral tag of an input's asset: generated from an explicit asset,
parsed from a commitment. -/
def InputEphemeralTag (psbt : PartiallySignedTransaction) (asset : CConfidentialAsset) :
    Except BlindPsbtExit G :=
  if asset.IsExplicit then
    match asset.GetAsset >>= secp.generator_generate with
    | some gen => pure gen
    | none => throw (.ret .INVALID_ASSET psbt)
  else if asset.IsCommitment then
    match secp.generator_parse asset.vchCommitment with
    | some gen => pure gen
    | none => throw (.ret .INVALID_ASSET_COMMITMENT psbt)
  else throw (.ret .INVALID_ASSET psbt)

/-- Whether input `i`'s issuance adds targets: it is not flagged unblinded, and
it has an amount or reissuance tokens. -/
def IssuanceAddsTargets (input : PSBTInput) : Bool :=
  (input.m_blinded_issuance.isNone || input.m_blinded_issuance == some true) &&
    (input.m_issuance_value.isSome || input.m_issuance_value_commitment.IsCommitment ||
      input.m_issuance_inflation_keys_amount.isSome ||
      input.m_issuance_inflation_keys_commitment.IsCommitment)

/-- The asset entropy of an input's issuance: recorded for a reissuance, new
for a new issuance. -/
def IssuanceEntropy (input : PSBTInput) : Except BlindPsbtExit Uint256 :=
  if !input.m_issuance_blinding_nonce.IsNull then pure input.m_issuance_asset_entropy
  else
    assertPsbt input.GetOutPoint >>= fun prevout =>
      pure (GenerateAssetEntropy H prevout input.m_issuance_asset_entropy)

/-- The targets of input `i`'s issuance: the issued asset, while its amount is
there, then the reissuance token of a new issuance with tokens.  The ephemeral
tag of a committed amount is the commitment's bytes, copied. -/
def PsetIssuanceTargets (psbt : PartiallySignedTransaction) (input : PSBTInput)
    (targets : PsetTargets G) : Except BlindPsbtExit (PsetTargets G) :=
  if !IssuanceAddsTargets input then pure targets
  else
    IssuanceEntropy H input >>= fun entropy =>
    (if input.m_issuance_value.isSome || input.m_issuance_value_commitment.IsCommitment then
        let issuance_asset := CalculateAsset H entropy
        (if input.m_issuance_value_commitment.IsNull then GenerateTag secp psbt issuance_asset
          else pure (secp.generator_of_data input.m_issuance_value_commitment.vchCommitment)) >>=
          fun ephemeral => pure (targets.push issuance_asset ephemeral (BaseBlob.zero 32))
      else pure targets) >>= fun targets =>
    let blind_issuance := input.m_issuance_value_commitment.IsCommitment
    if input.m_issuance_blinding_nonce.IsNull && (input.m_issuance_inflation_keys_amount.isSome ||
        input.m_issuance_inflation_keys_commitment.IsCommitment) then
      let reissuance_asset := CalculateReissuanceToken H entropy blind_issuance
      (if input.m_issuance_inflation_keys_commitment.IsNull then GenerateTag secp psbt reissuance_asset
        else if input.m_issuance_inflation_keys_commitment.IsCommitment then
          pure (secp.generator_of_data input.m_issuance_inflation_keys_commitment.vchCommitment)
        -- otherwise the tag stays as `emplace_back` made it, all zero
        else pure (secp.generator_of_data [])) >>= fun ephemeral =>
        pure (targets.push reissuance_asset ephemeral (BaseBlob.zero 32))
    else pure targets

/-- One turn of the input loop: the input's targets, and its scalar offset
added to the input scalar when the caller owns it. -/
def PsetInputTargets (psbt : PartiallySignedTransaction) (acc : PsetTargets G × Uint256)
    (entry : PSBTInput × Nat) : Except BlindPsbtExit (PsetTargets G × Uint256) :=
  let (targets, input_scalar) := acc
  let (input, i) := entry
  match input.GetUTXO g pegged_asset with
  | none => throw (.ret .NEEDS_UTXOS psbt)
  | some utxo =>
    let asset := utxo.nAsset
    InputEphemeralTag secp psbt asset >>= fun ephemeral =>
    (match our_input_data.lookup i with
      | some (amount, our_asset, asset_blinder, value_blinder) =>
        match ComputeAndAddToScalarOffset input_scalar amount asset_blinder value_blinder with
        | some input_scalar => pure (targets.push our_asset ephemeral asset_blinder, input_scalar)
        | none => throw (.ret .SCALAR_UNABLE psbt)
      | none =>
        if asset.IsExplicit then
          pure (targets.push (asset.GetAsset.getD (BaseBlob.zero 32)) ephemeral (BaseBlob.zero 32),
            input_scalar)
        else pure (targets.push (CommitmentTag asset) ephemeral (BaseBlob.zero 32), input_scalar)) >>=
      fun (targets, input_scalar) =>
        PsetIssuanceTargets secp H psbt input targets >>= fun targets => pure (targets, input_scalar)

/-- The input loop of `BlindPSBT`. -/
def BlindPSBTTargets (psbt : PartiallySignedTransaction) :
    Except BlindPsbtExit (PsetTargets G × Uint256) :=
  psbt.inputs.zipIdx.foldlM (PsetInputTargets secp H g pegged_asset our_input_data psbt)
    (⟨[], [], []⟩, BaseBlob.zero 32)

/-!
## Blinding the outputs
-/

structure BlindPsbtState where
  psbt : PartiallySignedTransaction
  output_scalar : Uint256
  did_last_blind : Bool
  our_blinds : Nat
  num_blinded : Nat

/-- The last value blinding factor: the drawn one minus the caller's output
scalar, less its input scalar, and minus every published offset; `none` where a
subtraction fails. -/
def LastValueBlinder (output_scalar input_scalar value_blinder : Uint256) (offsets : List Uint256) :
    Option (Uint256 × Uint256) :=
  SubtractScalars output_scalar input_scalar >>= fun output_scalar =>
    SubtractScalars value_blinder output_scalar >>= fun value_blinder =>
      offsets.foldlM SubtractScalars value_blinder >>= fun value_blinder =>
        some (output_scalar, value_blinder)

/-- The blinded output: its commitments, nonce and proofs. -/
def BlindedOutput (output : PSBTOutput) (asset_commitment : CConfidentialAsset)
    (value_commitment : CConfidentialValue) (ecdh_key : CPubKey)
    (rangeproof asp blind_value_proof blind_asset_proof : List UInt8) : PSBTOutput :=
  { output with
    m_asset_commitment := asset_commitment
    m_value_commitment := value_commitment
    m_ecdh_pubkey := ecdh_key
    m_value_rangeproof := rangeproof
    m_asset_surjection_proof := asp
    m_blind_value_proof := blind_value_proof
    m_blind_asset_proof := blind_asset_proof }

/-- Output `i`, one the caller is to blind, blinded with the value blinding
factor given. -/
def BlindPSBTOutputProofs (targets : PsetTargets G) (s : BlindPsbtState) (i : Nat) (output : PSBTOutput)
    (amount : CAmount) (asset_blinder value_blinder : Uint256) : Except BlindPsbtExit BlindPsbtState :=
  let asset := output.m_asset
  assertPsbt (CreateAssetCommitment secp asset asset_blinder) >>= fun (asset_commitment, asset_generator) =>
  assertPsbt (CreateValueCommitment secp value_blinder asset_generator amount) >>=
    fun (value_commitment, value_commit) =>
  assertPsbt (GenerateRangeproofECDHKey secp H (rand.ephemeral_key i) output.m_blinding_pubkey) >>=
    fun (ecdh_key, nonce) =>
  assertPsbt output.script >>= fun script =>
  assertPsbt (CreateValueRangeProof secp g cfg value_blinder nonce amount script value_commit
    asset_generator asset asset_blinder) >>= fun rangeproof =>
  assertPsbt (CreateBlindValueProof secp (rand.value_proof_nonce i) value_blinder amount value_commit
    asset_generator) >>= fun blind_value_proof =>
  CreateAssetSurjectionProof secp targets asset_blinder asset_generator asset (rand.surjection_seed i) >>=
    fun asp =>
  match asp with
  | none => throw (.ret .ASP_UNABLE s.psbt)
  | some asp =>
    CreateBlindAssetProof secp asset asset_commitment asset_blinder >>= fun blind_asset_proof =>
    match blind_asset_proof with
    | none => throw (.ret .ASP_UNABLE s.psbt)
    | some blind_asset_proof =>
      let output := BlindedOutput output asset_commitment value_commitment ecdh_key rangeproof asp
        blind_value_proof blind_asset_proof
      pure { s with
        psbt := { s.psbt with outputs := s.psbt.outputs.set i output }
        our_blinds := s.our_blinds + 1 }

/-- One turn of the output loop, over the outputs with a blinding key: one
already blinded is counted; one the caller owns is blinded, the last of the
PSET with the value blinding factor that balances. -/
def BlindPSBTOutput (targets : PsetTargets G) (input_scalar : Uint256) (num_to_blind : Nat)
    (s : BlindPsbtState) (i : Nat) : Except BlindPsbtExit BlindPsbtState :=
  assertPsbt s.psbt.outputs[i]? >>= fun output =>
  if output.IsFullyBlinded then pure { s with our_blinds := s.our_blinds + 1 }
  else
    match output.m_blinder_index with
    | none => pure s
    | some blinder_index =>
      if !(our_input_data.lookup blinder_index.toNat).isSome then pure s
      else
        let value_blinder := rand.value_blinder i
        let asset_blinder := rand.asset_blinder i
        assertPsbt output.amount >>= fun amount =>
        match ComputeAndAddToScalarOffset s.output_scalar amount asset_blinder value_blinder with
        | none => throw (.ret .SCALAR_UNABLE s.psbt)
        | some output_scalar =>
          let s := { s with output_scalar := output_scalar, num_blinded := s.num_blinded + 1 }
          (if s.num_blinded = num_to_blind then
              match LastValueBlinder s.output_scalar input_scalar value_blinder s.psbt.m_scalar_offsets with
              | none => throw (.ret .SCALAR_UNABLE s.psbt)
              | some (output_scalar, value_blinder) =>
                -- a zero blinding factor would show the value
                if value_blinder.IsNull then throw (.ret .INVALID_BLINDER s.psbt)
                else pure ({ s with
                  output_scalar := output_scalar
                  did_last_blind := true
                  psbt := { s.psbt with m_scalar_offsets := [] } }, value_blinder)
            else pure (s, value_blinder)) >>= fun (s, value_blinder) =>
          BlindPSBTOutputProofs secp H g cfg rand targets s i output amount asset_blinder value_blinder

/-- The outputs with a blinding key, and how many of them are fully blinded. -/
def OutputsToBlind (psbt : PartiallySignedTransaction) : List Nat × Nat :=
  ((psbt.outputs.zipIdx.filter fun entry => entry.1.IsBlinded).map Prod.snd,
    (psbt.outputs.filter PSBTOutput.IsFullyBlinded).length)

/-- After the output loop: a call that did not blind the last output
publishes its output scalar less its input scalar. -/
def PublishScalarOffset (input_scalar : Uint256) (s : BlindPsbtState) : Except BlindPsbtExit BlindPsbtState :=
  if !s.did_last_blind && !s.output_scalar.IsNull then
    match SubtractScalars s.output_scalar input_scalar with
    | none => throw (.ret .SCALAR_UNABLE s.psbt)
    | some output_scalar =>
      pure { s with
        output_scalar := output_scalar
        psbt := { s.psbt with m_scalar_offsets := ScalarSetInsert s.psbt.m_scalar_offsets output_scalar } }
  else pure s

/-- The run of `BlindPSBT` up to its last `return`. -/
def BlindPSBTRun (psbt : PartiallySignedTransaction) : Except BlindPsbtExit BlindPsbtState :=
  let (to_blind, num_blinded) := OutputsToBlind psbt
  -- all outputs are blinded, nothing left to do
  if num_blinded = to_blind.length then throw (.ret .OK psbt)
  else
    BlindPSBTTargets secp H g pegged_asset our_input_data psbt >>= fun (targets, input_scalar) =>
    to_blind.foldlM (BlindPSBTOutput secp H g cfg rand our_input_data targets input_scalar to_blind.length)
      ⟨psbt, BaseBlob.zero 32, false, 0, num_blinded⟩ >>= fun s =>
    PublishScalarOffset input_scalar s >>= fun s =>
    -- blinded inputs of the caller need outputs of its to blind
    if our_input_data.entries.length > 0 && s.our_blinds = 0 then throw (.ret .NO_BLIND_OUTPUTS s.psbt)
    else pure s

/-- `BlindPSBT`: the status and the PSET as the call leaves it; `none` where an
`assert` fails. -/
def BlindPSBT (psbt : PartiallySignedTransaction) : Option (BlindingStatus × PartiallySignedTransaction) :=
  match BlindPSBTRun secp H g pegged_asset cfg rand our_input_data psbt with
  | .ok s => some (.OK, s.psbt)
  | .error (.ret status psbt) => some (status, psbt)
  | .error .abort => none

end BlindPsbt

end Elements
