import Elements.Psbt.BlindPsbt
import Elements.Confidential.BlindTargets

/-!
# The PSET blinder's surjection targets and the verifier's

`BlindPSBT` makes each surjection proof over the ephemeral input tags it lists;
`VerifyAmounts` checks the proof over the generators it lists from the
transaction extracted from the PSET.  The two agree on a PSET whose issuances
are explicit and not flagged as unblinded.  An issuance flagged as unblinded
contributes no tag to the blinder's list, while the verifier lists its
pseudo-inputs all the same.
-/

namespace Elements

open ExceptFold

/-!
## The unsigned inputs
-/

@[simp] theorem CConfidentialValue.SetToAmount_IsNull (value : CAmount) :
    (CConfidentialValue.SetToAmount value).IsNull = false := rfl

@[simp] theorem CConfidentialValue.SetToAmount_IsCommitment (value : CAmount) :
    (CConfidentialValue.SetToAmount value).IsCommitment = false := by
  simp [CConfidentialValue.SetToAmount, CConfidentialCommitment.IsCommitment, WriteBE64,
    CConfidentialCommitment.nCommittedSize]

theorem UnsignedIssuanceValue_of_IsNull {force_unblinded : Bool} {value : Option CAmount}
    {commitment : CConfidentialValue} (hnull : commitment.IsNull = true) :
    (UnsignedIssuanceValue force_unblinded value commitment).IsNull = !value.isSome ∧
      (UnsignedIssuanceValue force_unblinded value commitment).IsCommitment = false := by
  have hempty : commitment = ⟨[]⟩ := by
    cases commitment with
    | mk vch => simpa [CConfidentialCommitment.IsNull] using hnull
  subst hempty
  cases value with
  | none => exact ⟨rfl, rfl⟩
  | some value =>
    have hexplicit : UnsignedIssuanceValue force_unblinded (some value) ⟨[]⟩ =
        CConfidentialValue.SetToAmount value := by
      simp [UnsignedIssuanceValue, CConfidentialCommitment.IsNull]
    simp [hexplicit]

theorem UnsignedTxIn_eq_some {force_unblinded : Bool} {input : PSBTInput} {txin : CTxIn}
    (h : UnsignedTxIn force_unblinded input = some txin) :
    input.GetOutPoint = some txin.prevout ∧
      txin.assetIssuance.assetBlindingNonce = input.m_issuance_blinding_nonce ∧
      txin.assetIssuance.assetEntropy = input.m_issuance_asset_entropy ∧
      txin.assetIssuance.nAmount =
        UnsignedIssuanceValue force_unblinded input.m_issuance_value input.m_issuance_value_commitment ∧
      txin.assetIssuance.nInflationKeys =
        UnsignedIssuanceValue force_unblinded input.m_issuance_inflation_keys_amount
          input.m_issuance_inflation_keys_commitment := by
  unfold UnsignedTxIn at h
  obtain ⟨n, hn, rfl⟩ := Option.map_eq_some_iff.mp h
  simp [PSBTInput.GetOutPoint, hn]

/-!
## The ids of an explicit issuance
-/

/-- The ids of an input's explicit issuance: its asset, while it has an amount,
then its reissuance token, while it has tokens. -/
def ExplicitIssuanceIds (H : Hashes) (input : PSBTInput) (prevout : COutPoint) : List CAsset :=
  let entropy :=
    if !input.m_issuance_blinding_nonce.IsNull then input.m_issuance_asset_entropy
    else GenerateAssetEntropy H prevout input.m_issuance_asset_entropy
  (if input.m_issuance_value.isSome then [CalculateAsset H entropy] else []) ++
    (if input.m_issuance_inflation_keys_amount.isSome then [CalculateReissuanceToken H entropy false]
      else [])

/-- An input whose issuance, if it has one, is explicit and not flagged as
unblinded, and makes reissuance tokens only as a new issuance. -/
structure PSBTInput.ExplicitIssuance (input : PSBTInput) : Prop where
  not_unblinded : input.m_blinded_issuance ≠ some false
  value_explicit : input.m_issuance_value_commitment.IsNull = true
  keys_explicit : input.m_issuance_inflation_keys_commitment.IsNull = true
  tokens_new : input.m_issuance_inflation_keys_amount.isSome = true →
    input.m_issuance_blinding_nonce.IsNull = true

/-- A transaction input with the outpoint and the issuance of a PSET input, as
in the unsigned transaction and in the extracted one. -/
def PSBTInput.Unsigned (input : PSBTInput) (txin : CTxIn) : Prop :=
  ∃ unsigned, UnsignedTxIn false input = some unsigned ∧ txin.prevout = unsigned.prevout ∧
    txin.assetIssuance = unsigned.assetIssuance

theorem VerifierIssuanceTags_unsigned {H : Hashes} {input : PSBTInput} {txin : CTxIn}
    (hvalue : input.m_issuance_value_commitment.IsNull = true)
    (hkeys : input.m_issuance_inflation_keys_commitment.IsNull = true)
    (htxin : input.Unsigned txin) :
    VerifierIssuanceTags H txin = ExplicitIssuanceIds H input txin.prevout := by
  obtain ⟨unsigned, hunsigned, hprevout, hissuance⟩ := htxin
  obtain ⟨-, hnonce, hentropy, hamount, hinflation⟩ := UnsignedTxIn_eq_some hunsigned
  rw [← hissuance] at hnonce hentropy hamount hinflation
  obtain ⟨hamount_null, hamount_commitment⟩ :=
    @UnsignedIssuanceValue_of_IsNull false input.m_issuance_value _ hvalue
  obtain ⟨hkeys_null, -⟩ :=
    @UnsignedIssuanceValue_of_IsNull false input.m_issuance_inflation_keys_amount _ hkeys
  rw [← hamount] at hamount_null hamount_commitment
  rw [← hinflation] at hkeys_null
  unfold VerifierIssuanceTags ExplicitIssuanceIds IssuanceAssetIds
  simp only [CAssetIssuance.IsNull, hamount_null, hkeys_null, hamount_commitment, hnonce, hentropy]
  cases input.m_issuance_value.isSome <;> cases input.m_issuance_inflation_keys_amount.isSome <;>
    cases input.m_issuance_blinding_nonce.IsNull <;> simp

theorem CConfidentialCommitment.IsCommitment_of_IsNull {ExplicitSize : Nat} {PrefixA PrefixB : UInt8}
    {c : CConfidentialCommitment ExplicitSize PrefixA PrefixB} (h : c.IsNull = true) :
    c.IsCommitment = false := by
  cases c with
  | mk vch =>
    simp only [CConfidentialCommitment.IsNull, List.isEmpty_iff] at h
    subst h
    rfl

section Blinder

variable {G C P : Type} (secp : Secp256k1Zkp G C P) (H : Hashes)

theorem IssuanceAddsTargets_explicit {input : PSBTInput}
    (hflag : input.m_blinded_issuance ≠ some false)
    (hvalue : input.m_issuance_value_commitment.IsNull = true)
    (hkeys : input.m_issuance_inflation_keys_commitment.IsNull = true) :
    IssuanceAddsTargets input =
      (input.m_issuance_value.isSome || input.m_issuance_inflation_keys_amount.isSome) := by
  have hflag' : (input.m_blinded_issuance.isNone || input.m_blinded_issuance == some true) = true := by
    cases hb : input.m_blinded_issuance with
    | none => rfl
    | some b =>
      cases b with
      | false => exact absurd hb hflag
      | true => rfl
  simp [IssuanceAddsTargets, hflag', CConfidentialCommitment.IsCommitment_of_IsNull hvalue,
    CConfidentialCommitment.IsCommitment_of_IsNull hkeys]

@[simp] theorem GenerateTag_eq_ok {psbt : PartiallySignedTransaction} {tag : Uint256} {gen : G} :
    GenerateTag secp psbt tag = .ok gen ↔ secp.generator_generate tag = some gen := by
  unfold GenerateTag
  split <;> simp_all

theorem IssuanceEntropy_eq {input : PSBTInput} {prevout : COutPoint}
    (hprevout : input.GetOutPoint = some prevout) :
    IssuanceEntropy H input =
      pure (if !input.m_issuance_blinding_nonce.IsNull then input.m_issuance_asset_entropy
        else GenerateAssetEntropy H prevout input.m_issuance_asset_entropy) := by
  unfold IssuanceEntropy
  split_ifs <;> simp [hprevout, assertPsbt]

theorem PsetIssuanceTargets_explicit {psbt : PartiallySignedTransaction} {input : PSBTInput}
    {prevout : COutPoint} {targets targets' : PsetTargets G} (hexplicit : input.ExplicitIssuance)
    (hprevout : input.GetOutPoint = some prevout)
    (h : PsetIssuanceTargets secp H psbt input targets = .ok targets') :
    targets'.fixed_input_tags = targets.fixed_input_tags ++ ExplicitIssuanceIds H input prevout ∧
      ∃ gens, (ExplicitIssuanceIds H input prevout).mapM secp.generator_generate = some gens ∧
        targets'.ephemeral_input_tags = targets.ephemeral_input_tags ++ gens := by
  obtain ⟨hflag, hvalue, hkeys, hnew⟩ := hexplicit
  unfold PsetIssuanceTargets at h
  rw [IssuanceAddsTargets_explicit hflag hvalue hkeys, IssuanceEntropy_eq H hprevout] at h
  simp only [hvalue, CConfidentialCommitment.IsCommitment_of_IsNull hvalue,
    CConfidentialCommitment.IsCommitment_of_IsNull hkeys, hkeys] at h
  unfold ExplicitIssuanceIds
  cases hv : input.m_issuance_value.isSome <;> cases hk : input.m_issuance_inflation_keys_amount.isSome
  · simp [hv, hk] at h
    subst h
    exact ⟨by simp, [], rfl, by simp⟩
  · -- tokens only
    have hn := hnew hk
    simp [hv, hk, hn] at h
    obtain ⟨gen, hgen, rfl⟩ := h
    simp [hn, hgen, PsetTargets.push]
  · -- an amount only, of a new issuance or a reissuance
    simp [hv, hk] at h
    obtain ⟨gen, hgen, rfl⟩ := h
    cases hn : input.m_issuance_blinding_nonce.IsNull <;> simp_all [PsetTargets.push]
  · -- an amount and tokens, of a new issuance
    have hn := hnew hk
    simp [hv, hk, hn, bind_eq_ok] at h
    obtain ⟨gen, hgen, gen', hgen', rfl⟩ := h
    simp [hn, hgen, hgen', PsetTargets.push]

theorem InputEphemeralTag_eq_ok {psbt : PartiallySignedTransaction} {asset : CConfidentialAsset}
    {gen : G} (h : InputEphemeralTag secp psbt asset = .ok gen) : AssetGenerator secp asset = .ok gen := by
  unfold InputEphemeralTag at h
  unfold AssetGenerator
  split_ifs at h ⊢ <;> (repeat' split at h) <;> simp_all

/-- The generators the blinder lists for an input with an explicit issuance:
its asset's, then those of its issuance's ids. -/
def ExplicitInputGenerators (g : Globals) (pegged_asset : CAsset) (input : PSBTInput) :
    Option (List G) :=
  input.GetUTXO g pegged_asset >>= fun utxo =>
    (AssetGenerator secp utxo.nAsset).toOption >>= fun gen =>
      input.GetOutPoint >>= fun prevout =>
        (ExplicitIssuanceIds H input prevout).mapM secp.generator_generate >>= fun gens =>
          some (gen :: gens)

variable (g : Globals) (pegged_asset : CAsset) (our_input_data : AList (fun _ : Nat => OurInputData))

theorem PsetInputTargets_explicit {psbt : PartiallySignedTransaction}
    {acc acc' : PsetTargets G × Uint256} {input : PSBTInput} {i : Nat}
    (hexplicit : input.ExplicitIssuance) (hprev_out : input.prev_out.isSome = true)
    (h : PsetInputTargets secp H g pegged_asset our_input_data psbt acc (input, i) = .ok acc') :
    acc'.1.ephemeral_input_tags =
      acc.1.ephemeral_input_tags ++ (ExplicitInputGenerators secp H g pegged_asset input).getD [] := by
  obtain ⟨targets, input_scalar⟩ := acc
  obtain ⟨prevout, hprevout⟩ : ∃ prevout, input.GetOutPoint = some prevout := by
    simpa [PSBTInput.GetOutPoint, Option.isSome_iff_exists] using hprev_out
  unfold PsetInputTargets at h
  cases hutxo : input.GetUTXO g pegged_asset with
  | none => simp [hutxo] at h
  | some utxo =>
    simp only [hutxo, bind_eq_ok] at h
    obtain ⟨ephemeral, hephemeral, ⟨targets₁, scalar₁⟩, hown, targets₂, hissuance, hresult⟩ := h
    have htargets₁ : targets₁.ephemeral_input_tags = targets.ephemeral_input_tags ++ [ephemeral] := by
      split at hown
      · split at hown
        · simp only [pure_eq_ok, Prod.mk.injEq] at hown
          rw [← hown.1]
          rfl
        · simp at hown
      · split_ifs at hown <;>
        · simp only [pure_eq_ok, Prod.mk.injEq] at hown
          rw [← hown.1]
          rfl
    obtain ⟨-, gens, hgens, htargets₂⟩ :=
      PsetIssuanceTargets_explicit secp H hexplicit hprevout hissuance
    simp only [pure_eq_ok] at hresult
    subst hresult
    simp [ExplicitInputGenerators, hutxo, InputEphemeralTag_eq_ok secp hephemeral, Except.toOption,
      hprevout, hgens, htargets₂, htargets₁]

theorem BlindPSBTTargets_ephemeral {psbt : PartiallySignedTransaction} {targets : PsetTargets G}
    {input_scalar : Uint256}
    (hexplicit : ∀ input ∈ psbt.inputs, input.ExplicitIssuance ∧ input.prev_out.isSome = true)
    (h : BlindPSBTTargets secp H g pegged_asset our_input_data psbt = .ok (targets, input_scalar)) :
    targets.ephemeral_input_tags =
      psbt.inputs.zipIdx.flatMap fun entry =>
        (ExplicitInputGenerators secp H g pegged_asset entry.1).getD [] := by
  unfold BlindPSBTTargets at h
  simpa using foldlM_append_of_mem (fun acc => acc.1.ephemeral_input_tags)
    (fun entry => (ExplicitInputGenerators secp H g pegged_asset entry.1).getD [])
    (fun entry hentry _ _ hstep => by
      obtain ⟨hexp, hprev⟩ := hexplicit entry.1 (List.fst_mem_of_mem_zipIdx hentry)
      exact PsetInputTargets_explicit secp H g pegged_asset our_input_data hexp hprev hstep) h

end Blinder

/-!
## The verifier's targets
-/

theorem PSBTInput.Unsigned.prev_out_isSome {input : PSBTInput} {txin : CTxIn}
    (h : input.Unsigned txin) : input.prev_out.isSome = true := by
  obtain ⟨unsigned, hunsigned, -⟩ := h
  unfold UnsignedTxIn at hunsigned
  obtain ⟨n, hn, -⟩ := Option.map_eq_some_iff.mp hunsigned
  simp [hn]

theorem ExtractPSBT_unsigned {G C P : Type} {secp : Secp256k1Zkp G C P}
    {psbt : PartiallySignedTransaction} {tx : CMutableTransaction} (hv2 : psbt.tx = none)
    (h : ExtractPSBT secp psbt = some tx) : List.Forall₂ PSBTInput.Unsigned psbt.inputs tx.vin := by
  unfold ExtractPSBT PartiallySignedTransaction.GetUnsignedTx at h
  rw [hv2] at h
  simp only [Option.map_eq_some_iff, Option.bind_eq_bind, Option.bind_eq_some_iff,
    Option.some.injEq] at h
  obtain ⟨_, ⟨-, -, -, -, vin, hvin, vout, -, rfl⟩, rfl⟩ := h
  have hrel := ExceptFold.forall₂_of_mapM_eq_some hvin
  -- the extractor changes the script and the peg-in flag of each input, and
  -- nothing the relation reads
  show List.Forall₂ PSBTInput.Unsigned psbt.inputs (List.zipWith _ vin psbt.inputs)
  clear hvin
  generalize psbt.inputs = inputs at hrel ⊢
  induction hrel with
  | nil => exact List.Forall₂.nil
  | cons hhead _ ih => exact List.Forall₂.cons ⟨_, hhead, rfl, rfl⟩ ih

section Verifier

variable {G C P : Type} (secp : Secp256k1Zkp G C P) (H : Hashes) (g : Globals) (pegged_asset : CAsset)

theorem VerifierInputGenerators_explicit {input : PSBTInput} {utxo : CTxOut} {txin : CTxIn} {i : Nat}
    (hexplicit : input.ExplicitIssuance) (hutxo : input.GetUTXO g pegged_asset = some utxo)
    (htxin : input.Unsigned txin) :
    VerifierInputGenerators secp H ((utxo, txin), i) = ExplicitInputGenerators secp H g pegged_asset input := by
  have hprevout : input.GetOutPoint = some txin.prevout := by
    obtain ⟨unsigned, hunsigned, hprevout, -⟩ := htxin
    rw [hprevout]
    exact (UnsignedTxIn_eq_some hunsigned).1
  simp only [VerifierInputGenerators, ExplicitInputGenerators, hutxo, hprevout, Option.bind_eq_bind,
    Option.bind_some,
    VerifierIssuanceTags_unsigned hexplicit.value_explicit hexplicit.keys_explicit htxin]

end Verifier

theorem flatMap_zipIdx_zip_forall₂ {α β γ δ : Type} {R : α -> β -> Prop} {S : α -> γ -> Prop}
    {F : (β × γ) × Nat -> List δ} {Out : α × Nat -> List δ}
    (hF : ∀ a b c i, R a b -> S a c -> F ((b, c), i) = Out (a, i)) :
    ∀ {as : List α} {bs : List β} {cs : List γ} {k : Nat}, List.Forall₂ R as bs -> List.Forall₂ S as cs ->
      ((bs.zip cs).zipIdx k).flatMap F = (as.zipIdx k).flatMap Out := by
  intro as bs cs k hR hS
  induction hR generalizing cs k with
  | nil =>
    cases hS
    rfl
  | cons hab _ ih =>
    cases hS with
    | cons hac hrest =>
      simp only [List.zip_cons_cons, List.zipIdx_cons, List.flatMap_cons, hF _ _ _ _ hab hac, ih hrest]

section Agreement

variable {G C P : Type} (secp : Secp256k1Zkp G C P) (H : Hashes) (g : Globals) (pegged_asset : CAsset)
  (our_input_data : AList (fun _ : Nat => OurInputData))

/-- Over a PSET whose issuances are explicit and not flagged as unblinded, the
ephemeral tags `BlindPSBT` lists are the generators `VerifyAmounts` lists for a
transaction with the PSET's outpoints and issuances, spending the PSET's
UTXOs: in length, in order and one by one. -/
theorem BlindPSBTTargets_eq_target_generators {psbt : PartiallySignedTransaction}
    {targets : PsetTargets G} {input_scalar : Uint256} {spent : List CTxOut} {tx : CTransaction}
    {tally : AmountTally G C}
    (hexplicit : ∀ input ∈ psbt.inputs, input.ExplicitIssuance)
    (htargets : BlindPSBTTargets secp H g pegged_asset our_input_data psbt = .ok (targets, input_scalar))
    (hspent : psbt.inputs.mapM (PSBTInput.GetUTXO g pegged_asset) = some spent)
    (hvin : List.Forall₂ PSBTInput.Unsigned psbt.inputs tx.vin)
    (hverify : (spent.zip tx.vin).zipIdx.foldlM (VerifyAmountsInput secp H g tx) ⟨[], []⟩ = .ok tally) :
    targets.ephemeral_input_tags = tally.target_generators := by
  have hprev : ∀ input ∈ psbt.inputs, input.prev_out.isSome = true :=
    ((List.forall₂_and_left _ _).mp (hvin.imp fun _ _ htxin => ⟨htxin.prev_out_isSome, htxin⟩)).1
  have hutxos : List.Forall₂ (fun input utxo => input.ExplicitIssuance ∧
      input.GetUTXO g pegged_asset = some utxo) psbt.inputs spent :=
    (List.forall₂_and_left _ _).mpr ⟨hexplicit, ExceptFold.forall₂_of_mapM_eq_some hspent⟩
  rw [BlindPSBTTargets_ephemeral secp H g pegged_asset our_input_data
      (fun input hinput => ⟨hexplicit input hinput, hprev input hinput⟩) htargets,
    VerifyAmountsInputs_targets secp H g hverify]
  refine (flatMap_zipIdx_zip_forall₂ (fun input utxo txin i hutxo htxin => ?_) hutxos hvin).symm
  rw [VerifierInputGenerators_explicit secp H g pegged_asset hutxo.1 hutxo.2 htxin]

end Agreement

/-!
## An explicit issuance flagged as unblinded

One input spends 5 units of asset A and issues 5 units of a new asset, in the
clear, with the flag that its issuance is not to be blinded; one output pays
the 5 units of asset A to a blinding key, and the caller owns the input.  `BlindPSBT`
blinds the output over the one tag of the input, while the verifier lists the
input and the issuance.
-/

def unblindedIssuanceInput : PSBTInput :=
  { witness_utxo := paymentOutput
    prev_txid := b32_of_scalar 9
    prev_out := some 0
    m_issuance_value := some 5
    m_blinded_issuance := some false }

def blindedPaymentOutput : PSBTOutput :=
  { amount := some 5
    script := some [0x51]
    m_asset := assetA
    m_blinding_pubkey := ⟨FreeEncoding 2 (b32_of_scalar 3)⟩
    m_blinder_index := some 0 }

def unblindedIssuancePset : PartiallySignedTransaction :=
  { tx_version := some 2
    inputs := [unblindedIssuanceInput]
    outputs := [blindedPaymentOutput] }

def ownExplicitInput : AList (fun _ : Nat => OurInputData) :=
  (∅ : AList (fun _ : Nat => OurInputData)).insert 0 (5, assetA, BaseBlob.zero 32, BaseBlob.zero 32)

def psetDraws : BlindPsbtRandomness :=
  ⟨fun _ => b32_of_scalar 100, fun _ => b32_of_scalar 1, fun _ => b32_of_scalar 3,
    fun _ => b32_of_scalar 4, fun _ => b32_of_scalar 6⟩

def unblindedIssuanceEntropy : Uint256 :=
  GenerateAssetEntropy sumHashes ⟨b32_of_scalar 9, 0⟩ (BaseBlob.zero 32)

def blindedUnblindedIssuance : PartiallySignedTransaction :=
  ((BlindPSBT FreeSecp sumHashes blindGlobals assetA ⟨0, 52⟩ psetDraws ownExplicitInput
    unblindedIssuancePset).map Prod.snd).getD unblindedIssuancePset

/-- `BlindPSBT` returns `OK` with its surjection proof over the input's tag
alone, while the verifier lists the issued asset after it. -/
theorem BlindPSBT_unblinded_issuance_target_mismatch :
    (BlindPSBT FreeSecp sumHashes blindGlobals assetA ⟨0, 52⟩ psetDraws ownExplicitInput
        unblindedIssuancePset).map Prod.fst = some .OK ∧
      blindedUnblindedIssuance.outputs.map PSBTOutput.IsFullyBlinded = [true] ∧
      (BlindPSBTTargets FreeSecp sumHashes blindGlobals assetA ownExplicitInput
          unblindedIssuancePset).map (fun result => result.1.ephemeral_input_tags) =
        .ok [.generate assetA] ∧
      (ExtractPSBT FreeSecp blindedUnblindedIssuance).map (fun tx =>
          (([paymentOutput].zip tx.vin).zipIdx.foldlM (VerifyAmountsInput FreeSecp sumHashes blindGlobals tx)
            ⟨[], []⟩).map AmountTally.target_generators) =
        some (.ok [.generate assetA, .generate (CalculateAsset sumHashes unblindedIssuanceEntropy)]) := by
  exact ⟨by decide, by decide, by decide, by decide⟩

/-!
The same payment from an input without an issuance.
-/

def explicitInput : PSBTInput :=
  { witness_utxo := paymentOutput
    prev_txid := b32_of_scalar 9
    prev_out := some 0 }

def explicitPset : PartiallySignedTransaction :=
  { tx_version := some 2
    inputs := [explicitInput]
    outputs := [blindedPaymentOutput] }

theorem BlindPSBTTargets_eq_target_generators_explicitPset :
    (∀ input ∈ explicitPset.inputs, input.ExplicitIssuance) ∧
      ∃ targets input_scalar tx tally,
        BlindPSBTTargets FreeSecp sumHashes blindGlobals assetA ownExplicitInput explicitPset =
          .ok (targets, input_scalar) ∧
        explicitPset.inputs.mapM (PSBTInput.GetUTXO blindGlobals assetA) = some [paymentOutput] ∧
        List.Forall₂ PSBTInput.Unsigned explicitPset.inputs tx.vin ∧
        ([paymentOutput].zip tx.vin).zipIdx.foldlM (VerifyAmountsInput FreeSecp sumHashes blindGlobals tx)
          ⟨[], []⟩ = .ok tally ∧
        targets.ephemeral_input_tags = tally.target_generators := by
  have hexplicit : ∀ input ∈ explicitPset.inputs, input.ExplicitIssuance := by
    intro input hinput
    rw [List.mem_singleton.mp hinput]
    exact ⟨by decide, by decide, by decide, by decide⟩
  have htargets : (BlindPSBTTargets FreeSecp sumHashes blindGlobals assetA ownExplicitInput
      explicitPset).toOption.isSome = true := by decide
  obtain ⟨⟨targets, input_scalar⟩, htargets⟩ := ExceptFold.exists_eq_ok_of_isSome htargets
  have hspent : explicitPset.inputs.mapM (PSBTInput.GetUTXO blindGlobals assetA) = some [paymentOutput] := by
    decide
  obtain ⟨tx, htx⟩ := Option.isSome_iff_exists.mp (by decide : (ExtractPSBT FreeSecp explicitPset).isSome)
  have hvin := ExtractPSBT_unsigned rfl htx
  have hrun : (ExtractPSBT FreeSecp explicitPset).map (fun tx => (([paymentOutput].zip tx.vin).zipIdx.foldlM
      (VerifyAmountsInput FreeSecp sumHashes blindGlobals tx) ⟨[], []⟩).toOption.isSome) = some true := by
    decide
  rw [htx, Option.map_some, Option.some.injEq] at hrun
  obtain ⟨tally, hverify⟩ := ExceptFold.exists_eq_ok_of_isSome hrun
  exact ⟨hexplicit, targets, input_scalar, tx, tally, htargets, hspent, hvin, hverify,
    BlindPSBTTargets_eq_target_generators FreeSecp sumHashes blindGlobals assetA ownExplicitInput
      hexplicit htargets hspent hvin hverify⟩

end Elements
