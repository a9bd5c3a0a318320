import Elements.Coins
import Elements.Consensus.TxVerify
import Elements.Crypto.Secp

/-!
# Partially signed Elements transactions

The fields of `PSBTInput`, `PSBTOutput` and `PartiallySignedTransaction`
(`psbt.h`) that the blinder, the signer and the extractor read, with the
defaults of the source, and the functions of `psbt.cpp` that rebuild a
transaction from them.

A version-2 PSET has no global transaction: `GetUnsignedTx` builds one from
the per-input and per-output fields.  It dereferences `tx_version`, each
input's `prev_out` and each output's `script`, which `Unserialize` requires of
a version-2 PSET; the model returns `none` where one is missing, and where the
`assert` on the lock time fails.
-/

namespace Elements

structure PSBTInput where
  non_witness_utxo : Option CTransaction := none
  -- `CTxOut()`; its asset, the only field that depends on the mode, is
  -- never read: `GetUTXO` reads the output only when it is not null
  witness_utxo : CTxOut := ⟨⟨[]⟩, ⟨[]⟩, ⟨[]⟩, []⟩
  final_script_sig : CScript := []
  final_script_witness : CScriptWitness := ⟨[]⟩
  prev_txid : Uint256 := BaseBlob.zero 32
  prev_out : Option UInt32 := none
  sequence : Option UInt32 := none
  time_locktime : Option UInt32 := none
  height_locktime : Option UInt32 := none
  m_issuance_value : Option CAmount := none
  m_issuance_value_commitment : CConfidentialValue := ⟨[]⟩
  m_issuance_rangeproof : List UInt8 := []
  m_issuance_inflation_keys_rangeproof : List UInt8 := []
  m_issuance_inflation_keys_amount : Option CAmount := none
  m_issuance_inflation_keys_commitment : CConfidentialValue := ⟨[]⟩
  m_issuance_blinding_nonce : Uint256 := BaseBlob.zero 32
  m_issuance_asset_entropy : Uint256 := BaseBlob.zero 32
  m_blinded_issuance : Option Bool := none
  m_peg_in_claim_script : CScript := []
  m_peg_in_value : Option CAmount := none
  m_peg_in_witness : CScriptWitness := ⟨[]⟩
deriving DecidableEq, Repr

structure PSBTOutput where
  amount : Option CAmount := none
  script : Option CScript := none
  m_value_commitment : CConfidentialValue := ⟨[]⟩
  m_asset : Uint256 := BaseBlob.zero 32
  m_asset_commitment : CConfidentialAsset := ⟨[]⟩
  m_value_rangeproof : List UInt8 := []
  m_asset_surjection_proof : List UInt8 := []
  m_ecdh_pubkey : CPubKey := ⟨[]⟩
  m_blinding_pubkey : CPubKey := ⟨[]⟩
  m_blinder_index : Option UInt32 := none
  m_blind_value_proof : List UInt8 := []
  m_blind_asset_proof : List UInt8 := []
deriving DecidableEq, Repr

/-- `PartiallySignedTransaction`.  `tx_version` is an `int32_t`, kept as its
bits; `m_scalar_offsets`, a `std::set<uint256>`, is the list of its elements in
the set's order. -/
structure PartiallySignedTransaction where
  tx : Option CMutableTransaction := none
  tx_version : Option UInt32 := none
  fallback_locktime : Option UInt32 := none
  inputs : List PSBTInput := []
  outputs : List PSBTOutput := []
  m_scalar_offsets : List Uint256 := []
deriving DecidableEq, Repr

/-!
## The set of scalar offsets
-/

/-- `uint256`'s order: `memcmp` of the bytes as stored. -/
def BaseBlob.Less {WIDTH : Nat} (a b : BaseBlob WIDTH) : Prop := a.data ≤ b.data

instance {WIDTH : Nat} : DecidableRel (@BaseBlob.Less WIDTH) :=
  fun a b => inferInstanceAs (Decidable (a.data ≤ b.data))

/-- `std::set<uint256>::insert`: nothing for an element already there,
otherwise the element at its place in the order. -/
def ScalarSetInsert (offsets : List Uint256) (scalar : Uint256) : List Uint256 :=
  if offsets.contains scalar then offsets else offsets.orderedInsert BaseBlob.Less scalar

/-!
## Inputs
-/

section Pset

variable {G C P : Type} (secp : Secp256k1Zkp G C P)

/-- `PSBTInput::GetUTXO`: the spent output, from the previous transaction, the
witness UTXO, or the peg-in's value and claim script; `none` where it returns
false (a decoded PSET always has `prev_out`). -/
def PSBTInput.GetUTXO (g : Globals) (pegged_asset : CAsset) (input : PSBTInput) : Option CTxOut :=
  match input.non_witness_utxo with
  | some tx =>
    match input.prev_out with
    | some n => tx.vout[n.toNat]?
    | none => none
  | none =>
    if !input.witness_utxo.IsNull g then some input.witness_utxo
    else
      match input.m_peg_in_value with
      | some value =>
        if !input.m_peg_in_claim_script.isEmpty then
          some ⟨CConfidentialAsset.SetToAsset pegged_asset, CConfidentialValue.SetToAmount value, ⟨[]⟩,
            input.m_peg_in_claim_script⟩
        else none
      | none => none

def PSBTInput.GetOutPoint (input : PSBTInput) : Option COutPoint :=
  input.prev_out.map fun n => ⟨input.prev_txid, n⟩

/-!
## Outputs
-/

/-- `PSBTOutput::IsBlinded`: it has a blinding public key. -/
def PSBTOutput.IsBlinded (output : PSBTOutput) : Bool := output.m_blinding_pubkey.IsValid

/-- `PSBTOutput::IsPartiallyBlinded`: some of the blinding data is there. -/
def PSBTOutput.IsPartiallyBlinded (output : PSBTOutput) : Bool :=
  output.IsBlinded && (!output.m_value_commitment.IsNull || !output.m_asset_commitment.IsNull ||
    !output.m_value_rangeproof.isEmpty || !output.m_asset_surjection_proof.isEmpty ||
    output.m_ecdh_pubkey.IsValid)

/-- `PSBTOutput::IsFullyBlinded`: all of the blinding data is there. -/
def PSBTOutput.IsFullyBlinded (output : PSBTOutput) : Bool :=
  output.IsBlinded && !output.m_value_commitment.IsNull && !output.m_asset_commitment.IsNull &&
    !output.m_value_rangeproof.isEmpty && !output.m_asset_surjection_proof.isEmpty &&
    output.m_ecdh_pubkey.IsValid

def PartiallySignedTransaction.IsBlinded (psbt : PartiallySignedTransaction) : Bool :=
  psbt.outputs.any PSBTOutput.IsBlinded

def PartiallySignedTransaction.IsFullyBlinded (psbt : PartiallySignedTransaction) : Bool :=
  psbt.outputs.all fun out => !out.IsBlinded || out.IsFullyBlinded

/-- `VerifyBlindValueProof`: the proof shows that the value commitment commits
to `value`. -/
def VerifyBlindValueProof (value : CAmount) (conf_value : CConfidentialValue) (proof : List UInt8)
    (conf_asset : CConfidentialAsset) : Bool :=
  if conf_value.IsNull || conf_asset.IsNull then false
  else
    match secp.pedersen_commitment_parse conf_value.vchCommitment,
        secp.generator_parse conf_asset.vchCommitment with
    | some value_commit, some gen =>
      match secp.rangeproof_verify value_commit proof gen with
      | some (min_value, _) => min_value == value.toUInt64
      | none => false
    | _, _ => false

/-- `VerifyBlindAssetProof`: the proof shows that the asset commitment blinds
`asset`. -/
def VerifyBlindAssetProof (asset : Uint256) (proof : List UInt8) (conf_asset : CConfidentialAsset) :
    Bool :=
  match secp.surjectionproof_parse proof, secp.generator_parse conf_asset.vchCommitment,
      secp.generator_generate asset with
  | some surj_proof, some blinded_asset_gen, some asset_gen =>
    secp.surjectionproof_verify surj_proof [asset_gen] blinded_asset_gen
  | _, _, _ => false

/-!
## The unsigned transaction
-/

/-- The larger of a lock and an input's lock, while the lock is possible. -/
def MaxLock (lock input_lock : Option UInt32) : Option UInt32 :=
  match lock, input_lock with
  | some lock, some input_lock => some (max lock input_lock)
  | lock, _ => lock

/-- One input of `ComputeTimeLock`'s loop: an input with only a time lock
rules height locks out, and the other way round; `none` where it returns
false. -/
def ComputeTimeLockStep (locks : Option UInt32 × Option UInt32) (input : PSBTInput) :
    Option (Option UInt32 × Option UInt32) :=
  (if input.time_locktime.isSome && input.height_locktime.isNone then
      if locks.1.isNone then none else some (locks.1, none)
    else if input.time_locktime.isNone && input.height_locktime.isSome then
      if locks.2.isNone then none else some (none, locks.2)
    else some locks) >>= fun (time_lock, height_lock) =>
  some (MaxLock time_lock input.time_locktime, MaxLock height_lock input.height_locktime)

/-- `ComputeTimeLock`: a height lock, else a time lock, else the fallback. -/
def PartiallySignedTransaction.ComputeTimeLock (psbt : PartiallySignedTransaction) : Option UInt32 :=
  psbt.inputs.foldlM ComputeTimeLockStep (some 0, some 0) >>= fun (time_lock, height_lock) =>
    match height_lock.filter (0 < ·), time_lock.filter (0 < ·) with
    | some height_lock, _ => some height_lock
    | none, some time_lock => some time_lock
    | none, none => some (psbt.fallback_locktime.getD 0)

/-- An issuance amount of the unsigned transaction: the explicit amount where
there is no commitment or the amounts are forced unblinded, else the
commitment. -/
def UnsignedIssuanceValue (force_unblinded : Bool) (value : Option CAmount)
    (commitment : CConfidentialValue) : CConfidentialValue :=
  match value with
  | some value =>
    if commitment.IsNull || force_unblinded then CConfidentialValue.SetToAmount value
    else commitment
  | none => if !commitment.IsNull then commitment else ⟨[]⟩

/-- The input `GetUnsignedTx` builds. -/
def UnsignedTxIn (force_unblinded : Bool) (input : PSBTInput) : Option CTxIn :=
  input.prev_out.map fun n =>
    { prevout := ⟨input.prev_txid, n⟩
      scriptSig := []
      nSequence := input.sequence.getD CTxIn.SEQUENCE_FINAL
      assetIssuance :=
        ⟨input.m_issuance_blinding_nonce, input.m_issuance_asset_entropy,
          UnsignedIssuanceValue force_unblinded input.m_issuance_value
            input.m_issuance_value_commitment,
          UnsignedIssuanceValue force_unblinded input.m_issuance_inflation_keys_amount
            input.m_issuance_inflation_keys_commitment⟩
      m_is_pegin := false }

/-- Whether the output's value goes explicit into the unsigned transaction:
there is no commitment, or the amounts are forced unblinded and the proof shows
the commitment is to the amount. -/
def ExplicitValue (force_unblinded : Bool) (output : PSBTOutput) : Bool :=
  let exp_value := (output.m_value_commitment.IsNull || force_unblinded) && output.amount.isSome
  match output.amount with
  | some amount =>
    if !output.m_value_commitment.IsNull then
      exp_value && !output.m_blind_value_proof.isEmpty && !output.m_asset_commitment.IsNull &&
        VerifyBlindValueProof secp amount output.m_value_commitment output.m_blind_value_proof
          output.m_asset_commitment
    else exp_value
  | none => exp_value

/-- The same for the output's asset. -/
def ExplicitAsset (force_unblinded : Bool) (output : PSBTOutput) : Bool :=
  let exp_asset := (output.m_asset_commitment.IsNull || force_unblinded) && !output.m_asset.IsNull
  if !output.m_asset_commitment.IsNull && !output.m_asset.IsNull then
    exp_asset && !output.m_blind_asset_proof.isEmpty && !output.m_asset.IsNull &&
      VerifyBlindAssetProof secp output.m_asset output.m_blind_asset_proof output.m_asset_commitment
  else exp_asset

/-- The output `GetUnsignedTx` builds and its witness: the proofs of what is
committed to. -/
def UnsignedTxOut (force_unblinded : Bool) (output : PSBTOutput) : Option (CTxOut × CTxOutWitness) :=
  output.script.map fun script =>
    let exp_value := ExplicitValue secp force_unblinded output
    let exp_asset := ExplicitAsset secp force_unblinded output
    let nAsset :=
      if exp_asset then CConfidentialAsset.SetToAsset output.m_asset else output.m_asset_commitment
    let nValue :=
      if exp_value then CConfidentialValue.SetToAmount (output.amount.getD 0) else output.m_value_commitment
    let nNonce : CConfidentialNonce :=
      if output.m_ecdh_pubkey.IsValid && !force_unblinded then ⟨output.m_ecdh_pubkey.vch⟩ else ⟨[]⟩
    (⟨nAsset, nValue, nNonce, script⟩,
      ⟨if exp_asset then [] else output.m_asset_surjection_proof,
        if exp_value then [] else output.m_value_rangeproof⟩)

def PartiallySignedTransaction.GetUnsignedTx (psbt : PartiallySignedTransaction)
    (force_unblinded : Bool) : Option CMutableTransaction :=
  match psbt.tx with
  | some tx => some tx
  | none =>
    psbt.tx_version >>= fun nVersion =>
    psbt.ComputeTimeLock >>= fun nLockTime =>
    psbt.inputs.mapM (UnsignedTxIn force_unblinded) >>= fun vin =>
    psbt.outputs.mapM (UnsignedTxOut secp force_unblinded) >>= fun vout =>
    some ⟨nVersion, vin, vout.map Prod.fst, nLockTime,
      ⟨List.replicate psbt.inputs.length CTxInWitness.empty, vout.map Prod.snd⟩⟩

/-- What `FinalizeAndExtractPSBT` returns once `FinalizePSBT` has succeeded on
`psbtx`: the unsigned transaction with the final scripts, the issuance range
proofs, the peg-in witnesses and the output proofs. -/
def ExtractPSBT (psbtx : PartiallySignedTransaction) : Option CMutableTransaction :=
  (psbtx.GetUnsignedTx secp false).map fun result =>
    { result with
      vin := List.zipWith (fun txin psbt_in =>
        { txin with
          scriptSig := psbt_in.final_script_sig
          m_is_pegin := !psbt_in.m_peg_in_witness.IsNull }) result.vin psbtx.inputs
      witness :=
        ⟨List.zipWith (fun txin_wit psbt_in =>
          { txin_wit with
            scriptWitness := psbt_in.final_script_witness
            vchIssuanceAmountRangeproof := psbt_in.m_issuance_rangeproof
            vchInflationKeysRangeproof := psbt_in.m_issuance_inflation_keys_rangeproof
            m_pegin_witness := psbt_in.m_peg_in_witness }) result.witness.vtxinwit psbtx.inputs,
        List.zipWith (fun txout_wit psbt_out =>
          { txout_wit with
            vchSurjectionproof := psbt_out.m_asset_surjection_proof
            vchRangeproof := psbt_out.m_value_rangeproof }) result.witness.vtxoutwit psbtx.outputs⟩ }

end Pset

end Elements
