import Elements.Confidential.BlindTargets

/-!
# Where the blinder aborts

`BlindTransaction` lists a surjection target for the reissuance tokens of an
issuance and asserts that their asset is not null.  A reissuance makes no
token: the blinder leaves the token null.  The returns before the assertion
reject only committed issuance values, so a transaction that reissues with
explicit reissuance tokens reaches the assertion however its vectors are
sized.  Consensus forbids such an issuance (`VerifyAmounts` rejects reissuance
tokens on a reissuance), but the blinder is handed transactions by the wallet
and by its callers before any validation.
-/

namespace Elements

/-- The preconditions `BlindTransaction` documents by its first assertions:
no more output keys than outputs and no more issuance keys than inputs, one
blinding factor, asset and amount per input, an auxiliary generator for every
input, each of 33 bytes. -/
def BlindPreconditions (args : BlindArguments) (tx : CMutableTransaction) : Prop :=
  args.output_pubkeys.length ≤ tx.vout.length ∧
    args.issuance_blinding_privkey.length ≤ tx.vin.length ∧
    args.token_blinding_privkey.length ≤ tx.vin.length ∧
    args.input_value_blinding_factors.length = tx.vin.length ∧
    args.input_asset_blinding_factors.length = tx.vin.length ∧
    args.input_assets.length = tx.vin.length ∧
    args.input_amounts.length = tx.vin.length ∧
    ∀ aux ∈ args.auxiliary_generators, tx.vin.length ≤ aux.length ∧ ∀ bytes ∈ aux, bytes.length = 33

/-- A reissuance (its blinding nonce is set) that also issues reissuance
tokens, all its values explicit or null. -/
def ReissuesTokens (issuance : CAssetIssuance) : Prop :=
  issuance.assetBlindingNonce.IsNull = false ∧ issuance.nInflationKeys.IsNull = false ∧
    issuance.nAmount.IsCommitment = false ∧ issuance.nInflationKeys.IsCommitment = false

section Aborts

variable {G C P : Type} (secp : Secp256k1Zkp G C P) (H : Hashes) (g : Globals)
  (rand : BlindRandomness) (cfg : RangeproofArgs) (args : BlindArguments)

theorem IssuanceTargets_of_ReissuesTokens {s : BlindState} {txin : CTxIn} {i : Nat}
    {targets : BlindTargets G} (hre : ReissuesTokens txin.assetIssuance)
    (hgen : ∀ tag, (secp.generator_generate tag).isSome) :
    IssuanceTargets secp H args s txin i targets = .error .abort := by
  obtain ⟨hnonce, hkeys, hamount, hkeysc⟩ := hre
  have hissuance : txin.assetIssuance.IsNull = false := by
    simp [CAssetIssuance.IsNull, hkeys]
  have htoken : (BlinderIssuanceAssetIds H args.token_blinding_privkey txin i).2.IsNull = true := by
    simp only [BlinderIssuanceAssetIds, hnonce, Bool.false_eq_true, if_false]
    exact BaseBlob.zero_IsNull 32
  obtain ⟨gen, hgen'⟩ := Option.isSome_iff_exists.mp
    (hgen (BlinderIssuanceAssetIds H args.token_blinding_privkey txin i).1)
  have hfirst : ∃ targets', IssuanceTarget secp (!txin.assetIssuance.nAmount.IsNull)
      (BlinderIssuanceAssetIds H args.token_blinding_privkey txin i).1 targets = .ok targets' := by
    unfold IssuanceTarget
    split
    · exact ⟨_, by rw [hgen']; rfl⟩
    · exact ⟨_, rfl⟩
  obtain ⟨targets', htargets'⟩ := hfirst
  unfold IssuanceTargets
  simp only [hissuance, hamount, hkeysc, Bool.or_false, Bool.false_eq_true, if_false]
  rw [htargets']
  simp [hkeys, htoken]
  rfl

/-- `BlindTransaction` fails its assertion on every transaction whose first
input reissues with reissuance tokens, when the generator of that input's
asset can be made. -/
theorem BlindTransaction_reissuance_tokens_abort (tx : CMutableTransaction) (txin : CTxIn)
    (rest : List CTxIn) (hvin : tx.vin = txin :: rest) (hpre : BlindPreconditions args tx)
    (hre : ReissuesTokens txin.assetIssuance)
    (hinput : ∃ gen, InputTargetGenerator secp args (BlindState.init tx) 0 = .ok gen)
    (hgen : ∀ tag, (secp.generator_generate tag).isSome) :
    BlindTransaction secp H g rand cfg args tx = none := by
  obtain ⟨hout, hiss, htok, hvb, hab, has, ham, haux⟩ := hpre
  obtain ⟨gen, hgen0⟩ := hinput
  have htargets : BlindTransactionTargets secp H args (BlindState.init tx) = .error .abort := by
    have hfirst : BlindTargetsInput secp H args (BlindState.init tx) ⟨[], [], []⟩ (txin, 0) =
        .error .abort := by
      unfold BlindTargetsInput
      rw [hgen0]
      exact IssuanceTargets_of_ReissuesTokens secp H args hre hgen
    unfold BlindTransactionTargets
    have hzip : (BlindState.init tx).tx.vin.zipIdx = (txin, 0) :: rest.zipIdx 1 := by
      simp [BlindState.init, hvin, List.zipIdx_cons]
    rw [hzip, List.foldlM_cons, hfirst]
    rfl
  have haux' : (args.auxiliary_generators.map fun aux => decide (aux.length < tx.vin.length)).getD
      false = false := by
    cases hopt : args.auxiliary_generators with
    | none => rfl
    | some aux =>
      have := (haux aux (by simp [hopt])).1
      simp [Nat.not_lt.mpr this]
  have hsizes : ¬(tx.vout.length < args.output_pubkeys.length ∨
      tx.vin.length < args.issuance_blinding_privkey.length ∨
      tx.vin.length < args.token_blinding_privkey.length ∨
      tx.vin.length ≠ args.input_value_blinding_factors.length ∨
      tx.vin.length ≠ args.input_asset_blinding_factors.length ∨
      tx.vin.length ≠ args.input_assets.length ∨ tx.vin.length ≠ args.input_amounts.length) := by
    omega
  unfold BlindTransaction BlindTransactionRun
  simp only [hsizes, haux', Bool.false_eq_true, if_false, htargets]
  rfl

/-!
## A reissuance with reissuance tokens

One input reissues asset `assetA`'s token entropy with one explicit
reissuance token and no amount; nothing is to be blinded.
-/

def reissueInput : CTxIn :=
  ⟨⟨b32_of_scalar 9, 0⟩, [], 0xffffffff,
    ⟨b32_of_scalar 3, b32_of_scalar 6, ⟨[]⟩, CConfidentialValue.SetToAmount 1⟩, false⟩

def reissueTx : CMutableTransaction := ⟨2, [reissueInput], [], 0, ⟨[], []⟩⟩

def reissueArgs : BlindArguments :=
  ⟨[BaseBlob.zero 32], [BaseBlob.zero 32], [assetA], [0], [], [], [], none⟩

theorem BlindTransaction_reissuance_tokens_abort_reissueTx :
    BlindPreconditions reissueArgs reissueTx ∧ ReissuesTokens reissueInput.assetIssuance ∧
      (∃ gen, InputTargetGenerator FreeSecp reissueArgs (BlindState.init reissueTx) 0 = .ok gen) ∧
      (∀ tag, (FreeSecp.generator_generate tag).isSome) ∧
      BlindTransaction FreeSecp sumHashes blindGlobals issuanceDraws ⟨0, 52⟩ reissueArgs
        reissueTx = none := by
  have hpre : BlindPreconditions reissueArgs reissueTx := by
    refine ⟨by decide, by decide, by decide, rfl, rfl, rfl, rfl, ?_⟩
    intro aux haux
    simp [reissueArgs] at haux
  have hre : ReissuesTokens reissueInput.assetIssuance := by
    refine ⟨by decide, by decide, by decide, by decide⟩
  have hinput : ∃ gen, InputTargetGenerator FreeSecp reissueArgs (BlindState.init reissueTx) 0 =
      .ok gen := ⟨.blinded assetA (BaseBlob.zero 32), by decide⟩
  have hgen : ∀ tag, (FreeSecp.generator_generate tag).isSome := fun _ => rfl
  exact ⟨hpre, hre, hinput, hgen, BlindTransaction_reissuance_tokens_abort FreeSecp sumHashes
    blindGlobals issuanceDraws ⟨0, 52⟩ reissueArgs reissueTx reissueInput [] rfl hpre hre hinput hgen⟩

end Aborts

end Elements
