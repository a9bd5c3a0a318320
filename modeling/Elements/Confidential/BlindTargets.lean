import Elements.Confidential.Blind
import Elements.Data.ExceptFold

/-!
# The blinder's surjection targets and the verifier's

`BlindTransaction` makes its surjection proofs over a list of targets it builds
itself; `VerifyAmounts` checks them over the list it builds from the blinded
transaction.  Both list each input's asset, then the asset its issuance makes
and the reissuance token.  They derive the token of a new issuance from
different facts: the blinder from whether the token's blinding key is valid,
the verifier from whether the issued amount ended up blinded.
-/

namespace Elements

open ExceptFold

/-- The ids from which `VerifyAmounts` generates the targets of input `i`'s
issuance. -/
def VerifierIssuanceTags (H : Hashes) (txin : CTxIn) : List CAsset :=
  let issuance := txin.assetIssuance
  if issuance.IsNull then []
  else
    let ids := IssuanceAssetIds H txin
    (if !issuance.nAmount.IsNull then [ids.1] else []) ++
      (if !issuance.nInflationKeys.IsNull then [ids.2] else [])

section Blinder

variable {G C P : Type} (secp : Secp256k1Zkp G C P) (H : Hashes) (args : BlindArguments)

end Blinder

/-!
## The verifier's targets
-/

section Verifier

variable {G C P : Type} (secp : Secp256k1Zkp G C P) (H : Hashes) (g : Globals)

/-- The generators the input loop of `VerifyAmounts` lists for an input: its
asset's, then those of its issuance's ids. -/
def VerifierInputGenerators (entry : (CTxOut × CTxIn) × Nat) : Option (List G) :=
  (AssetGenerator secp entry.1.1.nAsset).toOption >>= fun gen =>
    (VerifierIssuanceTags H entry.1.2).mapM secp.generator_generate >>= fun gens => some (gen :: gens)

theorem VerifyIssuanceAmount_generator {asset : CAsset} {value : CConfidentialValue}
    {rangeproof : List UInt8} {result : C × G}
    (h : VerifyIssuanceAmount secp g asset value rangeproof = .ok result) :
    secp.generator_generate asset = some result.2 := by
  unfold VerifyIssuanceAmount at h
  cases hgen : secp.generator_generate asset with
  | none => simp [hgen] at h
  | some asset_gen =>
    simp only [hgen] at h
    -- every branch that succeeds returns the asset's generator
    split_ifs at h <;> (repeat' split at h) <;> simp only [pure_eq_ok, throw_ne_ok] at h <;>
      (subst h; rfl)

theorem IssuancePseudoInput_targets {tx : CTransaction} {i : Nat} {asset : CAsset}
    {value : CConfidentialValue} {rangeproof : CTxInWitness -> List UInt8}
    {tally tally' : AmountTally G C}
    (h : IssuancePseudoInput secp g tx i asset value rangeproof tally = .ok tally') :
    ∃ gens, (if !value.IsNull then [asset] else []).mapM secp.generator_generate = some gens ∧
      tally'.target_generators = tally.target_generators ++ gens := by
  unfold IssuancePseudoInput at h
  by_cases hnull : value.IsNull = true
  · simp only [hnull, if_true, Bool.not_true, Bool.false_eq_true, if_false, pure_eq_ok] at h ⊢
    exact ⟨[], rfl, by simp [h]⟩
  · simp only [hnull, Bool.false_eq_true, if_false, Bool.not_false, if_true] at h ⊢
    split at h
    · simp at h
    · obtain ⟨⟨commit, gen⟩, hamount, h⟩ := bind_eq_ok.mp h
      simp only [pure_eq_ok] at h
      refine ⟨[gen], by simp [VerifyIssuanceAmount_generator secp g hamount], ?_⟩
      rw [← h]

theorem VerifyIssuance_targets {tx : CTransaction} {i : Nat} {input : CTxOut} {txin : CTxIn}
    {tally tally' : AmountTally G C} (hnull : txin.assetIssuance.IsNull = false)
    (h : VerifyIssuance secp H g tx i input txin tally = .ok tally') :
    ∃ gens, (VerifierIssuanceTags H txin).mapM secp.generator_generate = some gens ∧
      tally'.target_generators = tally.target_generators ++ gens := by
  obtain ⟨-, tally₁, h₁, h₂⟩ := VerifyIssuance_eq_ok secp h
  obtain ⟨gens₁, hg₁, htally₁⟩ := IssuancePseudoInput_targets secp g h₁
  obtain ⟨gens₂, hg₂, htally'⟩ := IssuancePseudoInput_targets secp g h₂
  refine ⟨gens₁ ++ gens₂, ?_, by rw [htally', htally₁, List.append_assoc]⟩
  simp only [VerifierIssuanceTags, hnull, Bool.false_eq_true, if_false, List.mapM_append, hg₁, hg₂]
  rfl

theorem VerifyAmountsInput_targets {tx : CTransaction} {tally tally' : AmountTally G C}
    {entry : (CTxOut × CTxIn) × Nat} (h : VerifyAmountsInput secp H g tx tally entry = .ok tally') :
    ∃ gens, VerifierInputGenerators secp H entry = some gens ∧
      tally'.target_generators = tally.target_generators ++ gens := by
  obtain ⟨gen, commit, hgen, -, ⟨hnull, rfl⟩ | ⟨hnull, h⟩⟩ := VerifyAmountsInput_eq_ok secp h
  · refine ⟨[gen], ?_, rfl⟩
    simp [VerifierInputGenerators, hgen, VerifierIssuanceTags, hnull, Except.toOption]
  · obtain ⟨gens, hgens, htally⟩ := VerifyIssuance_targets secp H g hnull h
    refine ⟨gen :: gens, ?_, by rw [htally]; simp⟩
    simp [VerifierInputGenerators, hgen, hgens, Except.toOption]

theorem VerifyAmountsInputs_targets {tx : CTransaction} {entries : List ((CTxOut × CTxIn) × Nat)}
    {tally : AmountTally G C}
    (h : entries.foldlM (VerifyAmountsInput secp H g tx) ⟨[], []⟩ = .ok tally) :
    tally.target_generators =
      entries.flatMap fun entry => (VerifierInputGenerators secp H entry).getD [] := by
  simpa using foldlM_append AmountTally.target_generators
    (fun entry => (VerifierInputGenerators secp H entry).getD [])
    (fun _ _ _ hstep => by
      obtain ⟨gens, hgens, htally⟩ := VerifyAmountsInput_targets secp H g hstep
      rw [htally, hgens, Option.getD_some]) h

end Verifier

/-!
## The token of a new issuance
-/

open Codec in
def sumHashes : Hashes where
  SHA256 bytes := b32_of_scalar (decodeLE bytes)
  SHA256D bytes := b32_of_scalar (decodeLE bytes)
  Hash160 _ := BaseBlob.zero 20
  MerkleHash_Sha256Midstate left right := b32_of_scalar (scalar_of_b32 left + scalar_of_b32 right)

def blindGlobals : Globals := ⟨false, false, true⟩

def assetA : CAsset := b32_of_scalar 5

def issuanceInput : CTxIn :=
  ⟨⟨b32_of_scalar 9, 0⟩, [], 0xffffffff,
    ⟨BaseBlob.zero 32, BaseBlob.zero 32, CConfidentialValue.SetToAmount 10,
      CConfidentialValue.SetToAmount 1⟩, false⟩

def paymentOutput : CTxOut :=
  ⟨CConfidentialAsset.SetToAsset assetA, CConfidentialValue.SetToAmount 5, ⟨[]⟩, [0x51]⟩

def issuanceTx : CMutableTransaction := ⟨2, [issuanceInput], [paymentOutput], 0, ⟨[], []⟩⟩

def issuanceArgs : BlindArguments :=
  ⟨[BaseBlob.zero 32], [BaseBlob.zero 32], [assetA], [5], [⟨FreeEncoding 2 (b32_of_scalar 3)⟩],
    [⟨some (b32_of_scalar 4)⟩], [], none⟩

def issuanceDraws : BlindRandomness :=
  ⟨fun k => b32_of_scalar (7 + k), fun _ => b32_of_scalar 1, fun _ => BaseBlob.zero 32,
    fun _ => b32_of_scalar 11⟩

def issuanceEntropy : Uint256 :=
  GenerateAssetEntropy sumHashes issuanceInput.prevout (BaseBlob.zero 32)

def blindedIssuance : CMutableTransaction :=
  ((BlindTransaction FreeSecp sumHashes blindGlobals issuanceDraws ⟨0, 52⟩ issuanceArgs issuanceTx).map
    fun r => r.2.tx).getD issuanceTx

/-- `BlindTransaction` blinds the issued amount and the output and returns 2;
its surjection targets carry the token of an explicit issuance, while the
verifier's, for the transaction it returns, carry the token of a blinded one. -/
theorem BlindTransaction_token_target_mismatch :
    (BlindTransaction FreeSecp sumHashes blindGlobals issuanceDraws ⟨0, 52⟩ issuanceArgs
        issuanceTx).map (fun r => (r.1, r.2.tx)) = some (2, blindedIssuance) ∧
      blindedIssuance.vin.map (fun txin => txin.assetIssuance.nAmount.IsCommitment) = [true] ∧
      MarkedForBlinding issuanceArgs.token_blinding_privkey 0 = false ∧
      (BlindTransactionTargets FreeSecp sumHashes issuanceArgs (BlindState.init issuanceTx)).map
          BlindTargets.surjection_targets =
        .ok [assetA, CalculateAsset sumHashes issuanceEntropy,
          CalculateReissuanceToken sumHashes issuanceEntropy false] ∧
      (([paymentOutput].zip blindedIssuance.vin).zipIdx.foldlM
          (VerifyAmountsInput FreeSecp sumHashes blindGlobals blindedIssuance) ⟨[], []⟩).map
          AmountTally.target_generators =
        .ok [.generate assetA, .generate (CalculateAsset sumHashes issuanceEntropy),
          .generate (CalculateReissuanceToken sumHashes issuanceEntropy true)] ∧
      CalculateReissuanceToken sumHashes issuanceEntropy false ≠
        CalculateReissuanceToken sumHashes issuanceEntropy true := by
  exact ⟨by decide, by decide, rfl, by decide, by decide +kernel, by decide +kernel⟩

end Elements
