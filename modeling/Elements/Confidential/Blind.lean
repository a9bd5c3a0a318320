import Elements.Confidential.VerifyAmounts

/-!
# The wallet blinder

`BlindTransaction` of `blind.cpp`.  It lists the surjection targets (each
input's asset, then the asset and the reissuance token its issuance makes),
counts what it is asked to blind (issuance pseudo-inputs whose blinding key is
valid, and outputs whose blinding public key is valid), blinds the issuance
pseudo-inputs, and then the outputs, the last of them with the blinding factor
that makes the commitments balance.  It returns how many it blinded, or -1.

Every value the source draws at random is an argument: the blinding factors
and the ephemeral key of the `k`-th attempt, and its surjection proof's seed.
An `assert` of the source is the outcome `none`.
-/

namespace Elements

/-- The random draws of one call, by the attempt they are drawn for.
`MakeNewKey` draws until it has a valid key: `ephemeral_key` is that key. -/
structure BlindRandomness where
  value_blind : Nat -> Uint256
  asset_blind : Nat -> Uint256
  surjection_seed : Nat -> Uint256
  ephemeral_key : Nat -> Uint256

/-- `-ct_exponent` and `-ct_bits`, read by every range proof. -/
structure RangeproofArgs where
  ct_exponent : Int
  ct_bits : Int

/-- The arguments `BlindTransaction` reads and leaves as they are. -/
structure BlindArguments where
  input_value_blinding_factors : List Uint256
  input_asset_blinding_factors : List Uint256
  input_assets : List CAsset
  input_amounts : List CAmount
  output_pubkeys : List CPubKey
  issuance_blinding_privkey : List CKey
  token_blinding_privkey : List CKey
  auxiliary_generators : Option (List (List UInt8))

/-- What `BlindTransaction` writes back: the output blinding factors and the
transaction. -/
structure BlindResult where
  out_val_blind_factors : List Uint256
  out_asset_blind_factors : List Uint256
  tx : CMutableTransaction
deriving DecidableEq, Repr

/-- How `BlindTransaction` leaves before its end: a `return`, or an `assert`. -/
inductive BlindExit where
  | ret (value : Int) (result : BlindResult)
  | abort
deriving DecidableEq, Repr

/-- The surjection targets: the fixed tags, their generators and their blinding
factors. -/
structure BlindTargets (G : Type) where
  surjection_targets : List Uint256
  target_asset_generators : List G
  target_asset_blinders : List Uint256

def BlindTargets.push {G : Type} (targets : BlindTargets G) (tag : Uint256) (gen : G)
    (blinder : Uint256) : BlindTargets G :=
  ⟨targets.surjection_targets ++ [tag], targets.target_asset_generators ++ [gen],
    targets.target_asset_blinders ++ [blinder]⟩

/-- The locals of the blinding loops.  `value_blinds` and `asset_blinds` are
what `value_blindptrs` and `asset_blindptrs` point to. -/
structure BlindState where
  tx : CMutableTransaction
  out_val_blind_factors : List Uint256
  out_asset_blind_factors : List Uint256
  value_blinds : List Uint256
  asset_blinds : List Uint256
  blinded_amounts : List UInt64
  num_blind_attempts : Nat
  num_issuance_blind_attempts : Nat
  num_blinded : Nat
  num_known_input_blinds : Nat
  num_to_blind : Nat

/-- The state after the output blinding factors are cleared. -/
def BlindState.init (tx : CMutableTransaction) : BlindState :=
  ⟨tx, List.replicate tx.vout.length (BaseBlob.zero 32), List.replicate tx.vout.length (BaseBlob.zero 32),
    [], [], [], 0, 0, 0, 0, 0⟩

def BlindState.result (s : BlindState) : BlindResult :=
  ⟨s.out_val_blind_factors, s.out_asset_blind_factors, s.tx⟩

def BlindState.exit {α : Type} (s : BlindState) (value : Int) : Except BlindExit α :=
  throw (.ret value s.result)

/-- An `assert` on a value that may be missing. -/
def assertBlind {α : Type} : Option α -> Except BlindExit α
  | some a => pure a
  | none => throw .abort

/-- `keys.size() > i && keys[i].IsValid()`: input `i`'s pseudo-input is marked
for blinding. -/
def MarkedForBlinding (keys : List CKey) (i : Nat) : Bool :=
  (keys[i]?.map CKey.IsValid).getD false

/-- The ids of the asset and of the reissuance token of input `i`'s issuance,
as the blinder derives them: the token of a new issuance is the confidential
one when the token's blinding key is valid; a reissuance makes no token. -/
def BlinderIssuanceAssetIds (H : Hashes) (token_blinding_privkey : List CKey) (txin : CTxIn)
    (i : Nat) : CAsset × CAsset :=
  let issuance := txin.assetIssuance
  if issuance.assetBlindingNonce.IsNull then
    let entropy := GenerateAssetEntropy H txin.prevout issuance.assetEntropy
    (CalculateAsset H entropy,
      CalculateReissuanceToken H entropy (MarkedForBlinding token_blinding_privkey i))
  else (CalculateAsset H issuance.assetEntropy, BaseBlob.zero 32)

def MAX_SURJECTION_TARGETS : Nat := 3

def SECP256K1_SURJECTIONPROOF_MAX_N_INPUTS : Nat := 256

section Blind

variable {G C P : Type} (secp : Secp256k1Zkp G C P) (H : Hashes) (g : Globals)
  (rand : BlindRandomness) (cfg : RangeproofArgs) (args : BlindArguments)

/-!
## The surjection targets
-/

/-- The generator of input `i`'s asset: blinded by its asset blinding factor,
or its auxiliary generator where the asset is null. -/
def InputTargetGenerator (s : BlindState) (i : Nat) : Except BlindExit G :=
  let input_asset := args.input_assets.getD i (BaseBlob.zero 32)
  if input_asset.IsNull then
    match args.auxiliary_generators with
    | some auxiliary_generators =>
      match secp.generator_parse (auxiliary_generators.getD i []) with
      | some gen => pure gen
      | none => s.exit (-1)
    | none => s.exit (-1)
  else
    match secp.generator_generate_blinded input_asset
        (args.input_asset_blinding_factors.getD i (BaseBlob.zero 32)) with
    | some gen => pure gen
    | none => s.exit (-1)

/-- The unblinded target of an issuance's asset or token, when present. -/
def IssuanceTarget (present : Bool) (tag : CAsset) (targets : BlindTargets G) :
    Except BlindExit (BlindTargets G) :=
  if present then
    assertBlind (secp.generator_generate tag) >>= fun gen =>
      pure (targets.push tag gen (BaseBlob.zero 32))
  else pure targets

/-- The targets of input `i`'s issuance: the issued asset, then the reissuance
token.  The issuance must still be explicit. -/
def IssuanceTargets (s : BlindState) (txin : CTxIn) (i : Nat) (targets : BlindTargets G) :
    Except BlindExit (BlindTargets G) :=
  let issuance := txin.assetIssuance
  if issuance.IsNull then pure targets
  else if issuance.nAmount.IsCommitment || issuance.nInflationKeys.IsCommitment then s.exit (-1)
  else
    let ids := BlinderIssuanceAssetIds H args.token_blinding_privkey txin i
    IssuanceTarget secp (!issuance.nAmount.IsNull) ids.1 targets >>= fun targets =>
    if !issuance.nInflationKeys.IsNull && ids.2.IsNull then throw .abort
    else IssuanceTarget secp (!issuance.nInflationKeys.IsNull) ids.2 targets

/-- The targets of input `i`: its asset, then its issuance's. -/
def BlindTargetsInput (s : BlindState) (targets : BlindTargets G) (entry : CTxIn × Nat) :
    Except BlindExit (BlindTargets G) :=
  InputTargetGenerator secp args s entry.2 >>= fun gen =>
    IssuanceTargets secp H args s entry.1 entry.2
      (targets.push (args.input_assets.getD entry.2 (BaseBlob.zero 32)) gen
        (args.input_asset_blinding_factors.getD entry.2 (BaseBlob.zero 32)))

/-- The auxiliary generators past the inputs, each with a zero tag. -/
def BlindAuxiliaryTargets (s : BlindState) (auxiliary_generators : List (List UInt8))
    (targets : BlindTargets G) : Except BlindExit (BlindTargets G) :=
  (auxiliary_generators.drop s.tx.vin.length).foldlM (fun targets bytes =>
    match secp.generator_parse bytes with
    | some gen => pure (targets.push (BaseBlob.zero 32) gen (BaseBlob.zero 32))
    | none => s.exit (-1)) targets

/-- The first loop of `BlindTransaction`, and the auxiliary generators. -/
def BlindTransactionTargets (s : BlindState) : Except BlindExit (BlindTargets G) := do
  let targets ← s.tx.vin.zipIdx.foldlM (BlindTargetsInput secp H args s) ⟨[], [], []⟩
  match args.auxiliary_generators with
  | some auxiliary_generators => BlindAuxiliaryTargets secp s auxiliary_generators targets
  | none => pure targets

/-!
## What to blind
-/

/-- `tx.witness.vtxoutwit.resize(tx.vout.size())` and the same for the inputs. -/
def ResizeWitness (tx : CMutableTransaction) : CMutableTransaction :=
  { tx with witness :=
      ⟨resize tx.witness.vtxinwit tx.vin.length CTxInWitness.empty,
        resize tx.witness.vtxoutwit tx.vout.length CTxOutWitness.empty⟩ }

/-- A pseudo-input marked for blinding must be explicit and have no range proof. -/
def CountPseudoInput (s : BlindState) (marked : Bool) (value : CConfidentialValue)
    (rangeproof : List UInt8) : Except BlindExit BlindState :=
  if marked then
    if value.IsExplicit && rangeproof.isEmpty then pure { s with num_to_blind := s.num_to_blind + 1 }
    else s.exit (-1)
  else pure s

/-- Input `nIn`: its blinding factors, if it has any, are balanced against, and
its issuance's pseudo-inputs marked for blinding are counted. -/
def CountInputBlinds (s : BlindState) (entry : CTxIn × Nat) : Except BlindExit BlindState := do
  let (txin, nIn) := entry
  let value_blinder := args.input_value_blinding_factors.getD nIn (BaseBlob.zero 32)
  let asset_blinder := args.input_asset_blinding_factors.getD nIn (BaseBlob.zero 32)
  let s ← if !value_blinder.IsNull || !asset_blinder.IsNull then
      let amount := args.input_amounts.getD nIn 0
      if amount < 0 then s.exit (-1)
      else pure { s with
        value_blinds := s.value_blinds ++ [value_blinder]
        asset_blinds := s.asset_blinds ++ [asset_blinder]
        blinded_amounts := s.blinded_amounts ++ [amount.toUInt64]
        num_known_input_blinds := s.num_known_input_blinds + 1 }
    else pure s
  let issuance := txin.assetIssuance
  if issuance.IsNull then pure s
  else do
    let txinwit := s.tx.witness.vtxinwit.getD nIn CTxInWitness.empty
    let s ← CountPseudoInput s (MarkedForBlinding args.issuance_blinding_privkey nIn)
      issuance.nAmount txinwit.vchIssuanceAmountRangeproof
    CountPseudoInput s (MarkedForBlinding args.token_blinding_privkey nIn)
      issuance.nInflationKeys txinwit.vchInflationKeysRangeproof

/-- Output `nOut` with a valid blinding key: the key must be fully valid and the
output explicit, unproven and not a fee. -/
def CountOutputBlinds (s : BlindState) (entry : CPubKey × Nat) : Except BlindExit BlindState := do
  let (pubkey, nOut) := entry
  if pubkey.IsValid then
    let out ← assertBlind s.tx.vout[nOut]?
    let txoutwitsize := s.tx.witness.vtxoutwit.length
    if !pubkey.IsFullyValid secp || !out.nValue.IsExplicit || !out.nAsset.IsExplicit ||
        (decide (txoutwitsize > nOut) &&
          !(s.tx.witness.vtxoutwit.getD nOut CTxOutWitness.empty).IsNull) ||
        out.IsFee g then
      s.exit (-1)
    else pure { s with num_to_blind := s.num_to_blind + 1 }
  else pure s

/-!
## Blinding
-/

/-- `GenerateRangeproof`: the range proof of a commitment, whose message is the
asset and its blinding factor; an unspendable script may commit to zero. -/
def GenerateRangeproof (value_blind nonce : Uint256) (amount : CAmount) (scriptPubKey : CScript)
    (value_commit : C) (gen : G) (asset : CAsset) (asset_blind : Uint256) : Option (List UInt8) :=
  let asset_message := asset.data ++ asset_blind.data
  let min_value : UInt64 := if scriptPubKey.IsUnspendable g then 0 else 1
  secp.rangeproof_sign min_value value_commit value_blind nonce cfg.ct_exponent cfg.ct_bits
    amount.toUInt64 asset_message scriptPubKey gen

/-- `SurjectOutput`: the serialized proof that the output's asset is one of the
targets, `none` where it returns false. -/
def SurjectOutput (targets : BlindTargets G) (asset_blind : Uint256) (output_asset_gen : G)
    (asset : CAsset) (randseed : Uint256) : Except BlindExit (Option (List UInt8)) :=
  let nInputsToSelect := min MAX_SURJECTION_TARGETS targets.surjection_targets.length
  if targets.surjection_targets.length > SECP256K1_SURJECTIONPROOF_MAX_N_INPUTS then pure none
  else
    match secp.surjectionproof_initialize targets.surjection_targets nInputsToSelect asset 100
        randseed with
    | none => pure none
    | some (proof, input_index) => do
      let proof ← assertBlind (secp.surjectionproof_generate proof targets.target_asset_generators
        output_asset_gen input_index (targets.target_asset_blinders.getD input_index (BaseBlob.zero 32))
        asset_blind)
      if !secp.surjectionproof_verify proof targets.target_asset_generators output_asset_gen then
        throw .abort
      pure (some (secp.surjectionproof_serialize proof))

/-- The issuance value of input `nIn`: the amount (`nPseudo = 0`) or the
reissuance tokens. -/
def IssuanceValue (issuance : CAssetIssuance) (nPseudo : Nat) : CConfidentialValue :=
  if nPseudo = 0 then issuance.nAmount else issuance.nInflationKeys

def CAssetIssuance.SetValue (issuance : CAssetIssuance) (nPseudo : Nat)
    (value : CConfidentialValue) : CAssetIssuance :=
  if nPseudo = 0 then { issuance with nAmount := value } else { issuance with nInflationKeys := value }

def CTxInWitness.SetRangeproof (txinwit : CTxInWitness) (nPseudo : Nat) (rangeproof : List UInt8) :
    CTxInWitness :=
  if nPseudo = 0 then { txinwit with vchIssuanceAmountRangeproof := rangeproof }
  else { txinwit with vchInflationKeysRangeproof := rangeproof }

/-- The issuance pseudo-input `nPseudo` of input `nIn`: committed to with a fresh
value blinding factor and an unblinded asset, its range proof nonce the
blinding key.  The attempt that would blind the last thing to blind returns
instead. -/
def BlindIssuancePseudoInput (s : BlindState) (nIn nPseudo : Nat) : Except BlindExit BlindState := do
  let key := if nPseudo = 0 then args.issuance_blinding_privkey[nIn]? else args.token_blinding_privkey[nIn]?
  if !(key.map CKey.IsValid).getD false then pure s
  else do
    let s := { s with
      num_blind_attempts := s.num_blind_attempts + 1
      num_issuance_blind_attempts := s.num_issuance_blind_attempts + 1 }
    let txin ← assertBlind s.tx.vin[nIn]?
    let issuance := txin.assetIssuance
    let conf_value := IssuanceValue issuance nPseudo
    if conf_value.IsNull then pure s
    else do
      let amount ← assertBlind (conf_value.GetAmount g)
      let s := { s with blinded_amounts := s.blinded_amounts ++ [amount.toUInt64] }
      -- a reissuance has one pseudo-input at most
      if nPseudo ≠ 0 && !issuance.assetBlindingNonce.IsNull then pure s
      else do
        let (issued, token) := BlinderIssuanceAssetIds H args.token_blinding_privkey txin nIn
        let asset := if nPseudo = 0 then issued else token
        let value_blind := rand.value_blind (s.num_blind_attempts - 1)
        let asset_blind := BaseBlob.zero 32
        let s := { s with
          value_blinds := s.value_blinds ++ [value_blind]
          asset_blinds := s.asset_blinds ++ [asset_blind] }
        if s.num_blind_attempts = s.num_to_blind then s.exit s.num_blinded
        else do
          let asset_gen ← assertBlind (secp.generator_generate_blinded asset asset_blind)
          let value_commit ← assertBlind (secp.pedersen_commit value_blind amount.toUInt64 asset_gen)
          let conf_value : CConfidentialValue := ⟨secp.pedersen_commitment_serialize value_commit⟩
          if !conf_value.IsValid then throw .abort
          let nonce := ((key.bind CKey.keydata)).getD (BaseBlob.zero 32)
          let rangeproof ← assertBlind (GenerateRangeproof secp g cfg value_blind nonce amount []
            value_commit asset_gen asset asset_blind)
          let tx := { s.tx with
            vin := s.tx.vin.modify nIn fun txin =>
              { txin with assetIssuance := txin.assetIssuance.SetValue nPseudo conf_value }
            witness := { s.tx.witness with
              vtxinwit := s.tx.witness.vtxinwit.modify nIn fun txinwit =>
                txinwit.SetRangeproof nPseudo rangeproof } }
          pure { s with tx := tx, num_blinded := s.num_blinded + 1 }

/-- The last value blinding factor, which balances the commitments:
`secp256k1_pedersen_blind_generator_blind_sum` over every blinding factor so
far; `none` where it fails. -/
def FinalValueBlind (s : BlindState) : Except BlindExit (Option Uint256) :=
  let n_total := s.num_blind_attempts + s.num_known_input_blinds
  -- the call reads `n_total` entries of each vector
  if s.blinded_amounts.length ≠ n_total ∨ s.asset_blinds.length ≠ n_total ∨
      s.value_blinds.length ≠ n_total then throw .abort
  else pure (secp256k1_pedersen_blind_generator_blind_sum
    (s.blinded_amounts.zip (s.asset_blinds.zip s.value_blinds))
    (s.num_issuance_blind_attempts + s.num_known_input_blinds))

/-- Output `nOut` with a fully valid blinding key: blinded asset and value,
ECDH nonce, range proof and surjection proof.  The last one takes the value
blinding factor that balances; it returns instead when it cannot blind. -/
def BlindOutput (targets : BlindTargets G) (s : BlindState) (entry : CPubKey × Nat) :
    Except BlindExit BlindState := do
  let (pubkey, nOut) := entry
  if !pubkey.IsFullyValid secp then pure s
  else do
    let out ← assertBlind s.tx.vout[nOut]?
    let s := { s with num_blind_attempts := s.num_blind_attempts + 1 }
    let amount ← assertBlind (out.nValue.GetAmount g)
    let asset ← assertBlind out.nAsset.GetAsset
    let asset_blind := rand.asset_blind (s.num_blind_attempts - 1)
    let s := { s with
      blinded_amounts := s.blinded_amounts ++ [amount.toUInt64]
      value_blinds := s.value_blinds ++ [rand.value_blind (s.num_blind_attempts - 1)]
      asset_blinds := s.asset_blinds ++ [asset_blind] }
    let s ← if s.num_blind_attempts = s.num_to_blind then do
        -- nothing to balance against: the blinding would show the value
        if s.num_blind_attempts = 1 && s.num_known_input_blinds = 0 then s.exit s.num_blinded
        match ← FinalValueBlind s with
        | none => s.exit (-1)
        | some blind =>
          let s := { s with value_blinds := s.value_blinds.dropLast ++ [blind] }
          -- a zero blinding factor: the values add up unblinded
          if blind.IsNull then s.exit (s.num_blinded + 1) else pure s
      else pure s
    let value_blind := s.value_blinds.getLastD (BaseBlob.zero 32)
    let asset_gen ← assertBlind (secp.generator_generate_blinded asset asset_blind)
    let value_commit ← assertBlind (secp.pedersen_commit value_blind amount.toUInt64 asset_gen)
    let nValue : CConfidentialValue := ⟨secp.pedersen_commitment_serialize value_commit⟩
    if !nValue.IsValid then throw .abort
    -- the nonce: an ephemeral key's ECDH with the blinding key
    let ephemeral_key := rand.ephemeral_key (s.num_blind_attempts - 1)
    let ephemeral_pubkey := secp.GetPubKey ephemeral_key
    if ephemeral_pubkey.size ≠ 33 then throw .abort
    let nonce := H.SHA256 (secp.ECDH ephemeral_key pubkey).data
    let rangeproof ← assertBlind (GenerateRangeproof secp g cfg value_blind nonce amount
      out.scriptPubKey value_commit asset_gen asset asset_blind)
    let out := { out with
      nAsset := ⟨secp.generator_serialize asset_gen⟩
      nValue := nValue
      nNonce := ⟨ephemeral_pubkey.vch⟩ }
    let surjectionproof ← SurjectOutput secp targets asset_blind asset_gen asset
      (rand.surjection_seed (s.num_blind_attempts - 1))
    let tx := { s.tx with
      vout := s.tx.vout.set nOut out
      witness := { s.tx.witness with
        vtxoutwit := s.tx.witness.vtxoutwit.modify nOut fun txoutwit =>
          { txoutwit with
            vchRangeproof := rangeproof
            vchSurjectionproof := surjectionproof.getD txoutwit.vchSurjectionproof } } }
    let s := { s with
      tx := tx
      out_val_blind_factors := s.out_val_blind_factors.set nOut value_blind
      out_asset_blind_factors := s.out_asset_blind_factors.set nOut asset_blind }
    if surjectionproof.isSome then pure { s with num_blinded := s.num_blinded + 1 } else pure s

/-- The run of `BlindTransaction` up to its final `return num_blinded`. -/
def BlindTransactionRun (tx : CMutableTransaction) : Except BlindExit BlindState := do
  if tx.vout.length < args.output_pubkeys.length ∨
      tx.vin.length < args.issuance_blinding_privkey.length ∨
      tx.vin.length < args.token_blinding_privkey.length ∨
      tx.vin.length ≠ args.input_value_blinding_factors.length ∨
      tx.vin.length ≠ args.input_asset_blinding_factors.length ∨
      tx.vin.length ≠ args.input_assets.length ∨
      tx.vin.length ≠ args.input_amounts.length then throw .abort
  if (args.auxiliary_generators.map fun aux => decide (aux.length < tx.vin.length)).getD false then
    throw .abort
  let s := BlindState.init tx
  let targets ← BlindTransactionTargets secp H args s
  let s := { s with tx := ResizeWitness s.tx }
  let s ← s.tx.vin.zipIdx.foldlM (CountInputBlinds args) s
  let s ← args.output_pubkeys.zipIdx.foldlM (CountOutputBlinds secp g) s
  if s.num_to_blind > 10000 then throw .abort
  -- first the issuance pseudo-inputs, then the outputs
  let s ← (List.range s.tx.vin.length).foldlM (fun s nIn =>
    [0, 1].foldlM (fun s nPseudo => BlindIssuancePseudoInput secp H g rand cfg args s nIn nPseudo) s) s
  args.output_pubkeys.zipIdx.foldlM (BlindOutput secp H g rand cfg targets) s

/-- `BlindTransaction`: the count it returns and what it writes back; `none`
where an `assert` fails. -/
def BlindTransaction (tx : CMutableTransaction) : Option (Int × BlindResult) :=
  match BlindTransactionRun secp H g rand cfg args tx with
  | .ok s => some (s.num_blinded, s.result)
  | .error (.ret value result) => some (value, result)
  | .error .abort => none

end Blind

end Elements
