import Elements.Consensus.TxVerify
import Elements.Confidential.Issuance
import Elements.Crypto.Secp
import Elements.Data.ExceptFold

/-!
# The amount check

`VerifyAmounts` of `confidential_validation.cpp`.  Every input and every
issuance pseudo-input becomes a Pedersen commitment, an explicit value
committed with a zero blinding factor, and so does every output; the input
commitments must tally with the output commitments.  A blinded output value
carries a range proof, and a blinded output asset a surjection proof over the
generators of the inputs and of the issuances, in the order the input loop
builds them: each input, then the asset it issues, then the reissuance token.

The checks run as they are met (a `checks` queue defers the same checks), and
their results are not cached.  An `assert` of the source is the outcome
`abort`; `return false` is `reject`.
-/

namespace Elements

/-- How `VerifyAmounts` stops before its end. -/
inductive VerifyStop where
  | reject
  | abort
deriving DecidableEq, Repr

/-- What the input loop builds: the surjection targets and the input side of
the tally. -/
structure AmountTally (G C : Type) where
  target_generators : List G
  vpCommitsIn : List C

section Verify

variable {G C P : Type} (secp : Secp256k1Zkp G C P)

/-- A zero blinding factor, `explicit_blinds`. -/
def explicit_blinds : Uint256 := BaseBlob.zero 32

/-- The generator of an input's or output's asset: generated from an explicit
asset, parsed from a commitment. -/
def AssetGenerator (asset : CConfidentialAsset) : Except VerifyStop G :=
  if asset.IsExplicit then
    match asset.GetAsset >>= secp.generator_generate with
    | some gen => pure gen
    | none => throw .abort
  else if asset.IsCommitment then
    match secp.generator_parse asset.vchCommitment with
    | some gen => pure gen
    | none => throw .reject
  else throw .reject

/-- The Pedersen commitment of an input's value. -/
def InputValueCommitment (g : Globals) (val : CConfidentialValue) (gen : G) : Except VerifyStop C :=
  if val.IsExplicit then
    match val.GetAmount g with
    | none => throw .abort
    | some amount =>
      if !MoneyRange amount then throw .reject
      else
        match secp.pedersen_commit explicit_blinds amount.toUInt64 gen with
        | some commit => pure commit
        | none => throw .reject
  else if val.IsCommitment then
    match secp.pedersen_commitment_parse val.vchCommitment with
    | some commit => pure commit
    | none => throw .reject
  else throw .reject

/-- `VerifyIssuanceAmount`: the commitment and the generator of an issuance
pseudo-input for `asset`. -/
def VerifyIssuanceAmount (g : Globals) (asset : CAsset) (value : CConfidentialValue)
    (rangeproof : List UInt8) : Except VerifyStop (C × G) :=
  match secp.generator_generate asset with
  | none => throw .abort
  | some asset_gen =>
    if value.IsExplicit then
      match value.GetAmount g with
      | none => throw .abort
      | some amount =>
        if !MoneyRange amount || amount == 0 then throw .reject
        else if !rangeproof.isEmpty then throw .reject
        else
          match secp.pedersen_commit explicit_blinds amount.toUInt64 asset_gen with
          | some value_commit => pure (value_commit, asset_gen)
          | none => throw .abort
    else if value.IsCommitment then
      if !secp.VerifyRangeProof rangeproof value.vchCommitment (secp.generator_serialize asset_gen) []
      then throw .reject
      else
        match secp.pedersen_commitment_parse value.vchCommitment with
        | some value_commit => pure (value_commit, asset_gen)
        | none => throw .reject
    else throw .reject

/-- The ids of the asset and of the reissuance token an issuance makes: from
new entropy for a new issuance, from the recorded entropy for a reissuance. -/
def IssuanceAssetIds (H : Hashes) (txin : CTxIn) : CAsset × CAsset :=
  let issuance := txin.assetIssuance
  if issuance.assetBlindingNonce.IsNull then
    let entropy := GenerateAssetEntropy H txin.prevout issuance.assetEntropy
    (CalculateAsset H entropy, CalculateReissuanceToken H entropy issuance.nAmount.IsCommitment)
  else
    (CalculateAsset H issuance.assetEntropy,
      CalculateReissuanceToken H issuance.assetEntropy issuance.nAmount.IsCommitment)

/-- A reissuance spends the token it reissues: the spent asset commitment must
be the token's generator blinded by the issuance's blinding nonce. -/
def CheckReissuanceToken (assetTokenID : CAsset) (issuance : CAssetIssuance)
    (asset : CConfidentialAsset) : Except VerifyStop Unit :=
  match secp.generator_generate_blinded assetTokenID issuance.assetBlindingNonce with
  | none => throw .reject
  | some gen =>
    if asset.vchCommitment.length ≠ 33 then throw .reject
    else if asset.vchCommitment ≠ secp.generator_serialize gen then throw .reject
    else pure ()

/-- One pseudo-input of an issuance, when its amount is not null. -/
def IssuancePseudoInput (g : Globals) (tx : CTransaction) (i : Nat) (asset : CAsset)
    (value : CConfidentialValue) (rangeproof : CTxInWitness -> List UInt8)
    (tally : AmountTally G C) : Except VerifyStop (AmountTally G C) :=
  if value.IsNull then pure tally
  else
    match tx.witness.vtxinwit[i]? with
    | none => throw .reject
    | some txinwit =>
      VerifyIssuanceAmount secp g asset value (rangeproof txinwit) >>= fun (commit, gen) =>
        pure ⟨tally.target_generators ++ [gen], tally.vpCommitsIn ++ [commit]⟩

theorem IssuancePseudoInput_cases {g : Globals} {tx : CTransaction} {i : Nat} {asset : CAsset}
    {value : CConfidentialValue} {rangeproof : CTxInWitness -> List UInt8}
    {tally tally' : AmountTally G C}
    (h : IssuancePseudoInput secp g tx i asset value rangeproof tally = .ok tally') :
    (value.IsNull = true ∧ tally' = tally) ∨
      (value.IsNull = false ∧ ∃ txinwit commit gen, tx.witness.vtxinwit[i]? = some txinwit ∧
        VerifyIssuanceAmount secp g asset value (rangeproof txinwit) = .ok (commit, gen) ∧
        tally' = ⟨tally.target_generators ++ [gen], tally.vpCommitsIn ++ [commit]⟩) := by
  unfold IssuancePseudoInput at h
  cases hnull : value.IsNull with
  | true =>
    simp only [hnull, if_true, ExceptFold.pure_eq_ok] at h
    exact Or.inl ⟨rfl, h.symm⟩
  | false =>
    simp only [hnull, Bool.false_eq_true, if_false] at h
    split at h
    · cases h
    · rename_i txinwit hwit
      obtain ⟨⟨commit, gen⟩, hamount, h⟩ := ExceptFold.bind_eq_ok.mp h
      simp only [ExceptFold.pure_eq_ok] at h
      exact Or.inr ⟨rfl, txinwit, commit, gen, hwit, hamount, h.symm⟩

/-- The issuance of input `i`: its asset, then its reissuance tokens. -/
def VerifyIssuance (H : Hashes) (g : Globals) (tx : CTransaction) (i : Nat) (input : CTxOut)
    (txin : CTxIn) (tally : AmountTally G C) : Except VerifyStop (AmountTally G C) :=
  let issuance := txin.assetIssuance
  let ids := IssuanceAssetIds H txin
  (if !issuance.assetBlindingNonce.IsNull then CheckReissuanceToken secp ids.2 issuance input.nAsset
    else pure ()) >>= fun _ =>
  if !issuance.nAmount.IsValid then throw .reject
  else
    IssuancePseudoInput secp g tx i ids.1 issuance.nAmount CTxInWitness.vchIssuanceAmountRangeproof
      tally >>= fun tally =>
    if !issuance.nInflationKeys.IsValid then throw .reject
    -- only a new issuance makes reissuance tokens
    else if !issuance.nInflationKeys.IsNull && !issuance.assetBlindingNonce.IsNull then throw .reject
    else
      IssuancePseudoInput secp g tx i ids.2 issuance.nInflationKeys
        CTxInWitness.vchInflationKeysRangeproof tally

theorem VerifyIssuance_eq_ok {H : Hashes} {g : Globals} {tx : CTransaction} {i : Nat} {input : CTxOut}
    {txin : CTxIn} {tally tally' : AmountTally G C}
    (h : VerifyIssuance secp H g tx i input txin tally = .ok tally') :
    (txin.assetIssuance.assetBlindingNonce.IsNull = false →
      CheckReissuanceToken secp (IssuanceAssetIds H txin).2 txin.assetIssuance input.nAsset = .ok ()) ∧
    ∃ tally₁, IssuancePseudoInput secp g tx i (IssuanceAssetIds H txin).1 txin.assetIssuance.nAmount
        CTxInWitness.vchIssuanceAmountRangeproof tally = .ok tally₁ ∧
      IssuancePseudoInput secp g tx i (IssuanceAssetIds H txin).2 txin.assetIssuance.nInflationKeys
        CTxInWitness.vchInflationKeysRangeproof tally₁ = .ok tally' := by
  unfold VerifyIssuance at h
  simp only [ExceptFold.bind_eq_ok, ExceptFold.ite_throw_eq_ok] at h
  obtain ⟨_, hreissue, -, tally₁, h₁, -, -, h₂⟩ := h
  refine ⟨fun hnonce => ?_, tally₁, h₁, h₂⟩
  rwa [if_pos (by simp [hnonce])] at hreissue

/-- One turn of the input loop: the input's generator and commitment, then its
issuance. -/
def VerifyAmountsInput (H : Hashes) (g : Globals) (tx : CTransaction) (tally : AmountTally G C)
    (entry : (CTxOut × CTxIn) × Nat) : Except VerifyStop (AmountTally G C) :=
  let input := entry.1.1
  let txin := entry.1.2
  if input.nValue.IsNull || input.nAsset.IsNull then throw .reject
  else
    AssetGenerator secp input.nAsset >>= fun gen =>
    InputValueCommitment secp g input.nValue gen >>= fun commit =>
    let tally : AmountTally G C := ⟨tally.target_generators ++ [gen], tally.vpCommitsIn ++ [commit]⟩
    if txin.assetIssuance.IsNull then pure tally
    else VerifyIssuance secp H g tx entry.2 input txin tally

theorem VerifyAmountsInput_eq_ok {H : Hashes} {g : Globals} {tx : CTransaction} {tally tally' : AmountTally G C}
    {entry : (CTxOut × CTxIn) × Nat} (h : VerifyAmountsInput secp H g tx tally entry = .ok tally') :
    ∃ gen commit, AssetGenerator secp entry.1.1.nAsset = .ok gen ∧
      InputValueCommitment secp g entry.1.1.nValue gen = .ok commit ∧
      ((entry.1.2.assetIssuance.IsNull = true ∧
          tally' = ⟨tally.target_generators ++ [gen], tally.vpCommitsIn ++ [commit]⟩) ∨
        (entry.1.2.assetIssuance.IsNull = false ∧ VerifyIssuance secp H g tx entry.2 entry.1.1 entry.1.2
          ⟨tally.target_generators ++ [gen], tally.vpCommitsIn ++ [commit]⟩ = .ok tally')) := by
  unfold VerifyAmountsInput at h
  simp only [ExceptFold.ite_throw_eq_ok, ExceptFold.bind_eq_ok] at h
  obtain ⟨-, gen, hgen, commit, hcommit, h⟩ := h
  refine ⟨gen, commit, hgen, hcommit, ?_⟩
  cases hnull : entry.1.2.assetIssuance.IsNull with
  | true =>
    simp only [hnull, if_true, ExceptFold.pure_eq_ok] at h
    exact .inl ⟨rfl, h.symm⟩
  | false =>
    simp only [hnull, Bool.false_eq_true, if_false] at h
    exact .inr ⟨rfl, h⟩

/-- One turn of the output loop: the output's commitment, none for an explicit
zero burnt. -/
def VerifyAmountsOutput (g : Globals) (vpCommitsOut : List C) (txout : CTxOut) :
    Except VerifyStop (List C) := do
  if !txout.nAsset.IsValid || !txout.nValue.IsValid || !txout.nNonce.IsValid then throw .reject
  let gen ← AssetGenerator secp txout.nAsset
  if txout.nValue.IsExplicit then
    match txout.nValue.GetAmount g with
    | none => throw .abort
    | some amount =>
      if !MoneyRange amount then throw .reject
      else if amount == 0 then
        -- no spendable outputs of zero value
        if txout.scriptPubKey.IsUnspendable g then pure vpCommitsOut else throw .reject
      else
        match secp.pedersen_commit explicit_blinds amount.toUInt64 gen with
        | some commit => pure (vpCommitsOut ++ [commit])
        | none => throw .abort
  else if txout.nValue.IsCommitment then
    match secp.pedersen_commitment_parse txout.nValue.vchCommitment with
    | some commit => pure (vpCommitsOut ++ [commit])
    | none => throw .reject
  else throw .reject

/-- The range proof of output `i`: none for an explicit value. -/
def VerifyOutputRangeproof (tx : CTransaction) (entry : CTxOut × Nat) : Except VerifyStop Unit :=
  let (txout, i) := entry
  let ptxoutwit := tx.witness.vtxoutwit[i]?
  if txout.nValue.IsExplicit then
    match ptxoutwit with
    | some txoutwit => if !txoutwit.vchRangeproof.isEmpty then throw .reject else pure ()
    | none => pure ()
  else do
    -- an explicit asset is committed to as its generator
    let vchAssetCommitment ←
      if txout.nAsset.IsExplicit then
        match txout.nAsset.GetAsset >>= secp.generator_generate with
        | some gen => pure (secp.generator_serialize gen)
        | none => throw .abort
      else pure txout.nAsset.vchCommitment
    match ptxoutwit with
    | none => throw .reject
    | some txoutwit =>
      if !secp.VerifyRangeProof txoutwit.vchRangeproof txout.nValue.vchCommitment vchAssetCommitment
          txout.scriptPubKey
      then throw .reject
      else pure ()

/-- The surjection proof of output `i` over the targets: none for an explicit
asset. -/
def VerifyOutputSurjectionproof (tx : CTransaction) (target_generators : List G)
    (entry : CTxOut × Nat) : Except VerifyStop Unit :=
  let (txout, i) := entry
  let ptxoutwit := tx.witness.vtxoutwit[i]?
  if txout.nAsset.IsExplicit then
    match ptxoutwit with
    | some txoutwit => if !txoutwit.vchSurjectionproof.isEmpty then throw .reject else pure ()
    | none => pure ()
  else
    match ptxoutwit with
    | none => throw .reject
    | some txoutwit =>
      match secp.generator_parse txout.nAsset.vchCommitment,
          secp.surjectionproof_parse txoutwit.vchSurjectionproof with
      | some gen, some proof =>
        if !secp.surjectionproof_verify proof target_generators gen then throw .reject else pure ()
      | _, _ => throw .reject

/-- `VerifyAmounts(inputs, tx)`: `ok` where it returns true. -/
def VerifyAmounts (H : Hashes) (g : Globals) (inputs : List CTxOut) (tx : CTransaction) :
    Except VerifyStop Unit := do
  if tx.IsCoinBase then throw .abort
  if inputs.length ≠ tx.vin.length then throw .abort
  let tally ← (inputs.zip tx.vin).zipIdx.foldlM (VerifyAmountsInput secp H g tx) ⟨[], []⟩
  let vpCommitsOut ← tx.vout.foldlM (VerifyAmountsOutput secp g) []
  if !secp.pedersen_verify_tally tally.vpCommitsIn vpCommitsOut then throw .reject
  tx.vout.zipIdx.forM (VerifyOutputRangeproof secp tx)
  tx.vout.zipIdx.forM (VerifyOutputSurjectionproof secp tx tally.target_generators)

/-- What a transaction `VerifyAmounts` accepts passed: its two loops and the
tally. -/
theorem VerifyAmounts_eq_ok {H : Hashes} {g : Globals} {inputs : List CTxOut} {tx : CTransaction}
    (h : VerifyAmounts secp H g inputs tx = .ok ()) :
    inputs.length = tx.vin.length ∧ ∃ tally vpCommitsOut,
      (inputs.zip tx.vin).zipIdx.foldlM (VerifyAmountsInput secp H g tx) ⟨[], []⟩ = .ok tally ∧
      tx.vout.foldlM (VerifyAmountsOutput secp g) [] = .ok vpCommitsOut ∧
      secp.pedersen_verify_tally tally.vpCommitsIn vpCommitsOut = true := by
  unfold VerifyAmounts at h
  simp only [ExceptFold.throw_bind, ExceptFold.ite_throw_eq_ok, ExceptFold.bind_eq_ok] at h
  obtain ⟨-, hlen, tally, hin, vpCommitsOut, hout, htally, -⟩ := h
  exact ⟨not_not.mp hlen, tally, vpCommitsOut, hin, hout, by simpa using htally⟩

end Verify

end Elements
