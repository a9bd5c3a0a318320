import Elements.Script.Script
import Elements.Dynafed
import Elements.Consensus.TxVerify
import Elements.Psbt.Pset
import Elements.Confidential.BlindTargets

/-!
# Transaction introspection

The Elements tapscript opcodes that push parts of the spending transaction:
`OP_INSPECTINPUT*` read an input and the output it spends, `OP_INSPECTOUTPUT*`
an output of the transaction.  They read the transaction through the signature
checker and the spent outputs through the checker's `PrecomputedTransactionData`,
which `Init` fills from the transaction and the spent outputs, and which is
ready for taproot when some input spends a witness-v1 output or the caller
forces it (the signing code does).

`pushvalue` pushes eight zero bytes for a null value, but `pushasset` asserts
that the asset is not null.  Consensus never gets there with a null asset,
since `VerifyAmounts` rejects one first, but the wallet's signing code runs the
same interpreter over transactions it was handed, whose outputs may carry a
null asset; `GetUnsignedTx` of a PSET makes one when an output gives neither an
asset nor a commitment.
-/

namespace Elements

open Codec

/-!
## The precomputed transaction data
-/

def WITNESS_V1_TAPROOT_SIZE : Nat := 32

/-- The fields of `PrecomputedTransactionData` that the introspection opcodes
read. -/
structure PrecomputedTransactionData where
  m_spent_outputs : List CTxOut
  m_spent_outputs_ready : Bool
  m_bip341_taproot_ready : Bool
  m_spent_output_spk_single_hashes : List Uint256
  m_output_spk_single_hashes : List Uint256

/-- Whether input `inpos` spends a witness-v1 output, one whose script has
`2 + WITNESS_V1_TAPROOT_SIZE` bytes and starts with `OP_1`; `m_spent_outputs`
is read only once it is ready, and then it has an entry for every input. -/
def SpendsWitnessV1 (m_spent_outputs : List CTxOut) (m_spent_outputs_ready : Bool) (inpos : Nat) :
    Bool :=
  m_spent_outputs_ready &&
    match m_spent_outputs[inpos]? with
    | some spent =>
      spent.scriptPubKey.length == 2 + WITNESS_V1_TAPROOT_SIZE && spent.scriptPubKey.head? == some OP_1
    | none => false

/-- One turn of the scan of `Init`: input `inpos` with a witness needs taproot
precomputation when it spends a witness-v1 output, and the segwit one
otherwise. -/
def UsesFeaturesStep (txTo : CTransaction) (m_spent_outputs : List CTxOut)
    (m_spent_outputs_ready : Bool) (uses : Bool × Bool) (inpos : Nat) : Bool × Bool :=
  match txTo.witness.vtxinwit[inpos]? with
  | some txinwit =>
    if !txinwit.scriptWitness.IsNull then
      if SpendsWitnessV1 m_spent_outputs m_spent_outputs_ready inpos then (uses.1, true)
      else (true, uses.2)
    else uses
  | none => uses

/-- `PrecomputedTransactionData::Init` on fresh data; `none` is its failed
assertion.  The scan of the source stops once both features are needed, which
changes neither flag. -/
def PrecomputedTransactionData.Init (H : Hashes) (txTo : CTransaction)
    (spent_outputs : List CTxOut) (force : Bool) : Option PrecomputedTransactionData :=
  let m_spent_outputs_ready := !spent_outputs.isEmpty
  if m_spent_outputs_ready && spent_outputs.length != txTo.vin.length then none
  else
    let uses := (List.range txTo.vin.length).foldl
      (UsesFeaturesStep txTo spent_outputs m_spent_outputs_ready) (force, force)
    some ⟨spent_outputs, m_spent_outputs_ready, uses.2,
      if uses.2 then spent_outputs.map fun txout => H.SHA256 txout.scriptPubKey else [],
      if uses.2 then txTo.vout.map fun txout => H.SHA256 txout.scriptPubKey else []⟩

/-- What the introspection opcodes read of the signature checker: the
transaction (`GetTxvIn`, `GetTxvOut`) and the precomputed data, each of which
may be missing. -/
structure IntrospectionChecker where
  txTo : Option CTransaction
  txdata : Option PrecomputedTransactionData

/-- A checker for `tx` whose precomputed data `Init` made from `tx` itself. -/
def IntrospectionChecker.FromTx (H : Hashes) (tx : CTransaction) (spent_outputs : List CTxOut)
    (force : Bool) (checker : IntrospectionChecker) : Prop :=
  checker.txTo = some tx ∧ checker.txdata = PrecomputedTransactionData.Init H tx spent_outputs force

/-!
## What the opcodes push
-/

def push4_le (stack : List valtype) (v : UInt32) : List valtype := encodeLE 4 v.toNat :: stack

/-- `pushasset`: the asset without its prefix, then the prefix; `none` is the
assertion that the asset is not null. -/
def pushasset (stack : List valtype) (asset : CConfidentialAsset) : Option (List valtype) :=
  if asset.IsNull then none
  else some (asset.vchCommitment.take 1 :: asset.vchCommitment.drop 1 :: stack)

/-- `pushvalue`: the value, an explicit one little-endian, then its prefix; a
null value is pushed as an explicit zero. -/
def pushvalue (stack : List valtype) (value : CConfidentialValue) : List valtype :=
  if value.IsNull then [0x01] :: List.replicate 8 0 :: stack
  else if value.IsExplicit then value.vchCommitment.take 1 :: (value.vchCommitment.reverse.take 8) :: stack
  else value.vchCommitment.take 1 :: value.vchCommitment.drop 1 :: stack

/-- `pushspk`: a witness program and its version, or the script's hash and -1. -/
def pushspk (stack : List valtype) (scriptPubKey : CScript) (scriptPubKey_sha : Uint256) :
    List valtype :=
  if scriptPubKey.IsWitnessProgram then
    CScriptNum.serialize scriptPubKey.WitnessVersion :: scriptPubKey.drop 2 :: stack
  else CScriptNum.serialize (-1) :: scriptPubKey_sha.data :: stack

/-- `GetOutpointFlag`: the issuance and peg-in flags of the outpoint, as the
top byte carries them. -/
def GetOutpointFlag (txin : CTxIn) : UInt8 :=
  ((if !txin.assetIssuance.IsNull then COutPoint.OUTPOINT_ISSUANCE_FLAG >>> 24 else 0) |||
    (if txin.m_is_pegin then COutPoint.OUTPOINT_PEGIN_FLAG >>> 24 else 0)).toUInt8

/-- `CScriptNum(stacktop(-1), fRequireMinimal).getint()` and `popstack`: the
index on top of the stack and the rest; an empty stack is
`SCRIPT_ERR_INVALID_STACK_OPERATION`, and a number that does not parse throws,
which `EvalScript` reports as `SCRIPT_ERR_UNKNOWN_ERROR`. -/
def PopIndex (fRequireMinimal : Bool) (stack : List valtype) : Except ScriptError (Int × List valtype) :=
  match stack with
  | [] => throw .INVALID_STACK_OPERATION
  | top :: rest =>
    match CScriptNum.ofVch top fRequireMinimal nDefaultMaxNumSize with
    | .error _ => throw .UNKNOWN_ERROR
    | .ok n => pure (CScriptNum.getint n, rest)

/-!
## The opcode cases
-/

/-- The case of `EvalScript` for the input introspection opcodes. -/
def EvalInspectInput (sigversion : SigVersion) (fRequireMinimal : Bool)
    (checker : IntrospectionChecker) (opcode : opcodetype) (stack : List valtype) :
    Option (Except ScriptError (List valtype)) :=
  if PreTapscript sigversion then some (.error .BAD_OPCODE) else
  match PopIndex fRequireMinimal stack with
  | .error e => some (.error e)
  | .ok (idx, stack) =>
    match checker.txTo, checker.txdata with
    | some txTo, some cache =>
      if !cache.m_bip341_taproot_ready then some (.error .INTROSPECT_CONTEXT_UNAVAILABLE)
      -- `assert(spent_outputs.size() == inps->size())`
      else if hsize : cache.m_spent_outputs.length ≠ txTo.vin.length then none
      else if hidx : idx < 0 ∨ txTo.vin.length ≤ idx.toNat then
        some (.error .INTROSPECT_INDEX_OUT_OF_BOUNDS)
      else
        let inp := txTo.vin.get ⟨idx.toNat, by omega⟩
        let spent_utxo := cache.m_spent_outputs.get ⟨idx.toNat, by omega⟩
        if opcode = OP_INSPECTINPUTOUTPOINT then
          some (.ok ([GetOutpointFlag inp] :: push4_le (inp.prevout.hash.data :: stack) inp.prevout.n))
        else if opcode = OP_INSPECTINPUTASSET then (pushasset stack spent_utxo.nAsset).map .ok
        else if opcode = OP_INSPECTINPUTVALUE then some (.ok (pushvalue stack spent_utxo.nValue))
        else if opcode = OP_INSPECTINPUTSCRIPTPUBKEY then
          (cache.m_spent_output_spk_single_hashes[idx.toNat]?).map fun sha =>
            .ok (pushspk stack spent_utxo.scriptPubKey sha)
        else if opcode = OP_INSPECTINPUTSEQUENCE then some (.ok (push4_le stack inp.nSequence))
        else if opcode = OP_INSPECTINPUTISSUANCE then
          if !inp.assetIssuance.IsNull then
            some (.ok (inp.assetIssuance.assetBlindingNonce.data ::
              inp.assetIssuance.assetEntropy.data ::
                pushvalue (pushvalue stack inp.assetIssuance.nInflationKeys) inp.assetIssuance.nAmount))
          else some (.ok (vchFalse :: stack))
        -- `assert(!"invalid opcode")`
        else none
    | _, _ => some (.error .INTROSPECT_CONTEXT_UNAVAILABLE)

/-- The case of `EvalScript` for the output introspection opcodes. -/
def EvalInspectOutput (sigversion : SigVersion) (fRequireMinimal : Bool)
    (checker : IntrospectionChecker) (opcode : opcodetype) (stack : List valtype) :
    Option (Except ScriptError (List valtype)) :=
  if PreTapscript sigversion then some (.error .BAD_OPCODE) else
  match PopIndex fRequireMinimal stack with
  | .error e => some (.error e)
  | .ok (idx, stack) =>
    match checker.txTo, checker.txdata with
    | some txTo, some cache =>
      if !cache.m_bip341_taproot_ready then some (.error .INTROSPECT_CONTEXT_UNAVAILABLE)
      -- `assert(cache->m_output_spk_single_hashes.size() == outs->size())`
      else if cache.m_output_spk_single_hashes.length ≠ txTo.vout.length then none
      else if hidx : idx < 0 ∨ txTo.vout.length ≤ idx.toNat then
        some (.error .INTROSPECT_INDEX_OUT_OF_BOUNDS)
      else
        let out := txTo.vout.get ⟨idx.toNat, by omega⟩
        if opcode = OP_INSPECTOUTPUTASSET then (pushasset stack out.nAsset).map .ok
        else if opcode = OP_INSPECTOUTPUTVALUE then some (.ok (pushvalue stack out.nValue))
        else if opcode = OP_INSPECTOUTPUTNONCE then
          some (.ok ((if out.nNonce.IsNull then vchFalse else out.nNonce.vchCommitment) :: stack))
        else if opcode = OP_INSPECTOUTPUTSCRIPTPUBKEY then
          (cache.m_output_spk_single_hashes[idx.toNat]?).map fun sha =>
            .ok (pushspk stack out.scriptPubKey sha)
        -- `assert(!"invalid opcode")`
        else none
    | _, _ => some (.error .INTROSPECT_CONTEXT_UNAVAILABLE)

/-!
## What `Init` leaves
-/

section Init

variable {H : Hashes} {tx : CTransaction} {spent_outputs : List CTxOut} {force : Bool}
  {cache : PrecomputedTransactionData}

theorem UsesFeaturesStep_taproot (txTo : CTransaction) (m_spent_outputs : List CTxOut)
    (ready : Bool) {uses : Bool × Bool} (huses : uses.2 = true) (inpos : Nat) :
    (UsesFeaturesStep txTo m_spent_outputs ready uses inpos).2 = true := by
  unfold UsesFeaturesStep
  -- a witness-v1 spend sets the flag; every other branch keeps it
  split
  · split
    · split
      · rfl
      · exact huses
    · exact huses
  · exact huses

theorem foldl_UsesFeaturesStep_taproot (txTo : CTransaction) (m_spent_outputs : List CTxOut)
    (ready : Bool) (inposs : List Nat) {uses : Bool × Bool} (huses : uses.2 = true) :
    (inposs.foldl (UsesFeaturesStep txTo m_spent_outputs ready) uses).2 = true := by
  induction inposs generalizing uses with
  | nil => exact huses
  | cons inpos rest ih =>
    rw [List.foldl_cons]
    exact ih (UsesFeaturesStep_taproot txTo m_spent_outputs ready huses inpos)

theorem Init_isSome (hlen : spent_outputs.length = tx.vin.length) :
    ∃ cache, PrecomputedTransactionData.Init H tx spent_outputs force = some cache := by
  unfold PrecomputedTransactionData.Init
  simp [hlen]

theorem Init_fields (h : PrecomputedTransactionData.Init H tx spent_outputs force = some cache) :
    cache.m_spent_outputs = spent_outputs ∧
      (cache.m_bip341_taproot_ready = true →
        cache.m_output_spk_single_hashes.length = tx.vout.length ∧
          cache.m_spent_output_spk_single_hashes.length = spent_outputs.length) := by
  unfold PrecomputedTransactionData.Init at h
  dsimp only at h
  split at h
  · cases h
  · cases h
    refine ⟨rfl, fun hready => ?_⟩
    simp only at hready ⊢
    simp [hready]

theorem Init_forced (h : PrecomputedTransactionData.Init H tx spent_outputs true = some cache) :
    cache.m_bip341_taproot_ready = true := by
  unfold PrecomputedTransactionData.Init at h
  dsimp only at h
  split at h
  · cases h
  · cases h
    exact foldl_UsesFeaturesStep_taproot tx spent_outputs _ _ rfl

end Init

/-!
## Where the introspection opcodes abort
-/

@[simp] theorem pushasset_eq_none_iff (stack : List valtype) (asset : CConfidentialAsset) :
    pushasset stack asset = none ↔ asset.IsNull = true := by
  unfold pushasset
  split <;> simp [*]

section Cases

variable {H : Hashes} {tx : CTransaction} {spent_outputs : List CTxOut} {force : Bool}
  {checker : IntrospectionChecker}

/-- With the context made from the transaction itself, the output opcodes
abort only on a null asset: when no output has one, they return a stack or an
error. -/
theorem EvalInspectOutput_ne_none (hfrom : checker.FromTx H tx spent_outputs force)
    (hlen : spent_outputs.length = tx.vin.length) (hassets : ∀ out ∈ tx.vout, out.nAsset.IsNull = false)
    (sigversion : SigVersion) (fRequireMinimal : Bool) {opcode : opcodetype}
    (hop : opcode = OP_INSPECTOUTPUTASSET ∨ opcode = OP_INSPECTOUTPUTVALUE ∨
      opcode = OP_INSPECTOUTPUTNONCE ∨ opcode = OP_INSPECTOUTPUTSCRIPTPUBKEY)
    (stack : List valtype) :
    EvalInspectOutput sigversion fRequireMinimal checker opcode stack ≠ none := by
  obtain ⟨htx, hdata⟩ := hfrom
  obtain ⟨cache, hcache⟩ := @Init_isSome H tx spent_outputs force hlen
  have hhashes := (Init_fields hcache).2
  unfold EvalInspectOutput
  rw [htx, hdata, hcache]
  by_cases hpre : PreTapscript sigversion = true
  · simp [hpre]
  simp only [hpre, Bool.false_eq_true, if_false]
  cases hpop : PopIndex fRequireMinimal stack with
  | error e => simp
  | ok r =>
    obtain ⟨idx, rest⟩ := r
    simp only
    by_cases hready : cache.m_bip341_taproot_ready = true
    swap
    · simp [hready]
    have hsize := (hhashes hready).1
    simp only [hready, Bool.not_true, Bool.false_eq_true, if_false, hsize, ne_eq, not_true_eq_false]
    split
    · simp
    rename_i hidx
    have hlt : idx.toNat < tx.vout.length := by omega
    rcases hop with rfl | rfl | rfl | rfl
    · -- the asset of an output is not null
      have hasset := hassets _ (List.getElem_mem hlt)
      simp [hasset]
    · simp [OP_INSPECTOUTPUTVALUE, OP_INSPECTOUTPUTASSET]
    · simp [OP_INSPECTOUTPUTNONCE, OP_INSPECTOUTPUTVALUE, OP_INSPECTOUTPUTASSET]
    · -- the script's hash is there
      have hlt' : idx.toNat < cache.m_output_spk_single_hashes.length := by rw [hsize]; exact hlt
      simp [OP_INSPECTOUTPUTSCRIPTPUBKEY, OP_INSPECTOUTPUTNONCE, OP_INSPECTOUTPUTVALUE,
        OP_INSPECTOUTPUTASSET, List.getElem?_eq_getElem hlt']

/-- The same for the input opcodes, when no spent output has a null asset. -/
theorem EvalInspectInput_ne_none (hfrom : checker.FromTx H tx spent_outputs force)
    (hlen : spent_outputs.length = tx.vin.length)
    (hassets : ∀ spent ∈ spent_outputs, spent.nAsset.IsNull = false)
    (sigversion : SigVersion) (fRequireMinimal : Bool) {opcode : opcodetype}
    (hop : opcode = OP_INSPECTINPUTOUTPOINT ∨ opcode = OP_INSPECTINPUTASSET ∨
      opcode = OP_INSPECTINPUTVALUE ∨ opcode = OP_INSPECTINPUTSCRIPTPUBKEY ∨
      opcode = OP_INSPECTINPUTSEQUENCE ∨ opcode = OP_INSPECTINPUTISSUANCE)
    (stack : List valtype) :
    EvalInspectInput sigversion fRequireMinimal checker opcode stack ≠ none := by
  obtain ⟨htx, hdata⟩ := hfrom
  obtain ⟨cache, hcache⟩ := @Init_isSome H tx spent_outputs force hlen
  obtain ⟨hspent, hhashes⟩ := Init_fields hcache
  unfold EvalInspectInput
  rw [htx, hdata, hcache]
  by_cases hpre : PreTapscript sigversion = true
  · simp [hpre]
  simp only [hpre, Bool.false_eq_true, if_false]
  cases hpop : PopIndex fRequireMinimal stack with
  | error e => simp
  | ok r =>
    obtain ⟨idx, rest⟩ := r
    simp only
    by_cases hready : cache.m_bip341_taproot_ready = true
    swap
    · simp [hready]
    have hsize : cache.m_spent_outputs.length = tx.vin.length := by rw [hspent, hlen]
    simp only [hready, Bool.not_true, Bool.false_eq_true, if_false, hsize, ne_eq, not_true_eq_false,
      dite_false]
    split
    · simp
    rename_i hidx
    have hlt : idx.toNat < cache.m_spent_outputs.length := by omega
    rcases hop with rfl | rfl | rfl | rfl | rfl | rfl
    · simp
    · -- the asset of a spent output is not null
      have hmem : cache.m_spent_outputs[idx.toNat] ∈ spent_outputs := by
        rw [← hspent]
        exact List.getElem_mem hlt
      simp [OP_INSPECTINPUTASSET, OP_INSPECTINPUTOUTPOINT, hassets _ hmem]
    · simp [OP_INSPECTINPUTVALUE, OP_INSPECTINPUTASSET, OP_INSPECTINPUTOUTPOINT]
    · -- the script's hash is there
      have hlt' : idx.toNat < cache.m_spent_output_spk_single_hashes.length := by
        rw [(hhashes hready).2, ← hspent]
        exact hlt
      simp [OP_INSPECTINPUTSCRIPTPUBKEY, OP_INSPECTINPUTVALUE, OP_INSPECTINPUTASSET,
        OP_INSPECTINPUTOUTPOINT, List.getElem?_eq_getElem hlt']
    · simp [OP_INSPECTINPUTSEQUENCE, OP_INSPECTINPUTSCRIPTPUBKEY, OP_INSPECTINPUTVALUE,
        OP_INSPECTINPUTASSET, OP_INSPECTINPUTOUTPOINT]
    · -- an issuance or `vchFalse`
      simp [OP_INSPECTINPUTISSUANCE, OP_INSPECTINPUTSEQUENCE, OP_INSPECTINPUTSCRIPTPUBKEY,
        OP_INSPECTINPUTVALUE, OP_INSPECTINPUTASSET, OP_INSPECTINPUTOUTPOINT]
      split <;> simp

/-- On a transaction with a null-asset output `i`, and a context made from it
and ready for taproot, `OP_INSPECTOUTPUTASSET` at index `i` fails the
assertion of `pushasset`. -/
theorem EvalInspectOutput_null_asset_aborts (hfrom : checker.FromTx H tx spent_outputs force)
    (hlen : spent_outputs.length = tx.vin.length)
    (hready : ∀ cache, checker.txdata = some cache → cache.m_bip341_taproot_ready = true)
    {sigversion : SigVersion} (hsig : PreTapscript sigversion = false) {fRequireMinimal : Bool}
    {stack rest : List valtype} {i : Nat} (hpop : PopIndex fRequireMinimal stack = .ok (i, rest))
    {out : CTxOut} (hout : tx.vout[i]? = some out) (hnull : out.nAsset.IsNull = true) :
    EvalInspectOutput sigversion fRequireMinimal checker OP_INSPECTOUTPUTASSET stack = none := by
  obtain ⟨htx, hdata⟩ := hfrom
  obtain ⟨cache, hcache⟩ := @Init_isSome H tx spent_outputs force hlen
  have hready' := hready cache (hdata.trans hcache)
  have hsize := ((Init_fields hcache).2 hready').1
  obtain ⟨hi, hget⟩ := List.getElem?_eq_some_iff.mp hout
  unfold EvalInspectOutput
  rw [htx, hdata, hcache]
  have hidx : ¬((i : Int) < 0 ∨ tx.vout.length ≤ (i : Int).toNat) := by omega
  simp only [hsig, Bool.false_eq_true, if_false, hpop, hready', Bool.not_true, hsize, ne_eq,
    not_true_eq_false, hidx, dite_false, if_true]
  simp [Int.toNat_natCast, hget, hnull]

/-- The same for `OP_INSPECTINPUTASSET` on an input whose spent output has a
null asset. -/
theorem EvalInspectInput_null_asset_aborts (hfrom : checker.FromTx H tx spent_outputs force)
    (hlen : spent_outputs.length = tx.vin.length)
    (hready : ∀ cache, checker.txdata = some cache → cache.m_bip341_taproot_ready = true)
    {sigversion : SigVersion} (hsig : PreTapscript sigversion = false) {fRequireMinimal : Bool}
    {stack rest : List valtype} {i : Nat} (hpop : PopIndex fRequireMinimal stack = .ok (i, rest))
    {spent : CTxOut} (hspent : spent_outputs[i]? = some spent) (hnull : spent.nAsset.IsNull = true) :
    EvalInspectInput sigversion fRequireMinimal checker OP_INSPECTINPUTASSET stack = none := by
  obtain ⟨htx, hdata⟩ := hfrom
  obtain ⟨cache, hcache⟩ := @Init_isSome H tx spent_outputs force hlen
  have hready' := hready cache (hdata.trans hcache)
  have hkept := (Init_fields hcache).1
  obtain ⟨hi, hget⟩ := List.getElem?_eq_some_iff.mp hspent
  have hsize : cache.m_spent_outputs.length = tx.vin.length := by rw [hkept, hlen]
  unfold EvalInspectInput
  rw [htx, hdata, hcache]
  have hidx : ¬((i : Int) < 0 ∨ tx.vin.length ≤ (i : Int).toNat) := by omega
  simp only [hsig, Bool.false_eq_true, if_false, hpop, hready', Bool.not_true, hsize, ne_eq,
    not_true_eq_false, hidx, dite_false]
  simp [OP_INSPECTINPUTASSET, OP_INSPECTINPUTOUTPOINT, hkept, hget, hnull]

end Cases

/-!
## A null asset in a transaction being signed

The wallet signs `nullAssetTx`, whose one output has a null asset, spending
`paymentOutput`; like `SignTransaction` it forces the taproot precomputation.
A tapscript that pushes 0 and runs `OP_INSPECTOUTPUTASSET` aborts.
-/

def nullAssetOutput : CTxOut := ⟨⟨[]⟩, CConfidentialValue.SetToAmount 5, ⟨[]⟩, [OP_1]⟩

def nullAssetTx : CTransaction :=
  ⟨2, [⟨⟨b32_of_scalar 9, 0⟩, [], 0xffffffff, CAssetIssuance.empty, false⟩], [nullAssetOutput], 0,
    ⟨[], []⟩⟩

def signingChecker : IntrospectionChecker :=
  ⟨some nullAssetTx, PrecomputedTransactionData.Init sumHashes nullAssetTx [paymentOutput] true⟩

theorem EvalInspectOutput_null_asset_aborts_nullAssetTx :
    signingChecker.FromTx sumHashes nullAssetTx [paymentOutput] true ∧
      [paymentOutput].length = nullAssetTx.vin.length ∧
      (∀ cache, signingChecker.txdata = some cache → cache.m_bip341_taproot_ready = true) ∧
      PreTapscript .TAPSCRIPT = false ∧ PopIndex true [vchZero] = .ok (0, []) ∧
      nullAssetTx.vout[0]? = some nullAssetOutput ∧ nullAssetOutput.nAsset.IsNull = true ∧
      EvalInspectOutput .TAPSCRIPT true signingChecker OP_INSPECTOUTPUTASSET [vchZero] = none := by
  have hfrom : signingChecker.FromTx sumHashes nullAssetTx [paymentOutput] true := ⟨rfl, rfl⟩
  have hready : ∀ cache, signingChecker.txdata = some cache → cache.m_bip341_taproot_ready = true :=
    fun cache h => @Init_forced sumHashes nullAssetTx [paymentOutput] cache h
  have hpop : PopIndex true [vchZero] = .ok (0, []) := by decide
  exact ⟨hfrom, rfl, hready, rfl, hpop, rfl, rfl,
    EvalInspectOutput_null_asset_aborts hfrom rfl hready rfl hpop rfl rfl⟩

theorem EvalInspectInput_ne_none_nullAssetTx :
    signingChecker.FromTx sumHashes nullAssetTx [paymentOutput] true ∧
      [paymentOutput].length = nullAssetTx.vin.length ∧
      (∀ spent ∈ [paymentOutput], spent.nAsset.IsNull = false) ∧
      EvalInspectInput .TAPSCRIPT true signingChecker OP_INSPECTINPUTASSET [vchZero] ≠ none := by
  have hfrom : signingChecker.FromTx sumHashes nullAssetTx [paymentOutput] true := ⟨rfl, rfl⟩
  have hassets : ∀ spent ∈ [paymentOutput], spent.nAsset.IsNull = false := by decide
  exact ⟨hfrom, rfl, hassets,
    EvalInspectInput_ne_none hfrom rfl hassets .TAPSCRIPT true (Or.inr (Or.inl rfl)) [vchZero]⟩

/-!
The same input, paying its 5 units of `assetA` to `OP_1`, and spending, in a
second variant, an output with a null asset.
-/

def paymentTx : CTransaction := { nullAssetTx with vout := [paymentOutput] }

def paymentChecker : IntrospectionChecker :=
  ⟨some paymentTx, PrecomputedTransactionData.Init sumHashes paymentTx [paymentOutput] true⟩

theorem EvalInspectOutput_ne_none_paymentTx :
    paymentChecker.FromTx sumHashes paymentTx [paymentOutput] true ∧
      [paymentOutput].length = paymentTx.vin.length ∧
      (∀ out ∈ paymentTx.vout, out.nAsset.IsNull = false) ∧
      EvalInspectOutput .TAPSCRIPT true paymentChecker OP_INSPECTOUTPUTASSET [vchZero] ≠ none := by
  have hfrom : paymentChecker.FromTx sumHashes paymentTx [paymentOutput] true := ⟨rfl, rfl⟩
  have hassets : ∀ out ∈ paymentTx.vout, out.nAsset.IsNull = false := by decide
  exact ⟨hfrom, rfl, hassets,
    EvalInspectOutput_ne_none hfrom rfl hassets .TAPSCRIPT true (Or.inl rfl) [vchZero]⟩

def nullSpentChecker : IntrospectionChecker :=
  ⟨some paymentTx, PrecomputedTransactionData.Init sumHashes paymentTx [nullAssetOutput] true⟩

theorem EvalInspectInput_null_asset_aborts_paymentTx :
    nullSpentChecker.FromTx sumHashes paymentTx [nullAssetOutput] true ∧
      [nullAssetOutput].length = paymentTx.vin.length ∧
      (∀ cache, nullSpentChecker.txdata = some cache → cache.m_bip341_taproot_ready = true) ∧
      PreTapscript .TAPSCRIPT = false ∧ PopIndex true [vchZero] = .ok (0, []) ∧
      [nullAssetOutput][0]? = some nullAssetOutput ∧ nullAssetOutput.nAsset.IsNull = true ∧
      EvalInspectInput .TAPSCRIPT true nullSpentChecker OP_INSPECTINPUTASSET [vchZero] = none := by
  have hfrom : nullSpentChecker.FromTx sumHashes paymentTx [nullAssetOutput] true := ⟨rfl, rfl⟩
  have hready : ∀ cache, nullSpentChecker.txdata = some cache → cache.m_bip341_taproot_ready = true :=
    fun cache h => @Init_forced sumHashes paymentTx [nullAssetOutput] cache h
  have hpop : PopIndex true [vchZero] = .ok (0, []) := by decide
  exact ⟨hfrom, rfl, hready, rfl, hpop, rfl, rfl,
    EvalInspectInput_null_asset_aborts hfrom rfl hready rfl hpop rfl rfl⟩

end Elements
