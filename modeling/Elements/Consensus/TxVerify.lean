import Elements.Primitives.Amount
import Elements.Coins.View

/-!
# Checking the inputs of a transaction

`Consensus::CheckTxInputs` of `consensus/tx_verify.cpp`, with what it calls:
the view's reads, the fee helpers of `confidential_validation.cpp`,
`CTransaction::GetValueOutMap`, and the peg-in checks of `pegins.cpp` and
`script/pegins.cpp`.

The functions that read the view are programs over its calls (`ViewM`), which
run on the plain state or on a stack of caches (`Coins.View`).

A peg-in input claims an output of a transaction on the parent chain.  Its
witness stack holds the claimed value, the asset, the parent chain's genesis
hash, the claim script, the parent transaction and a merkle proof of it.  The
checks on the stack are modelled as the source makes them; the parent-chain
part (the merkle block and its proof of work or signature, the peg-in
transaction paying the fedpeg scripts, and the depth of its block) is a
parameter.
-/

namespace Elements

open Codec

/-!
## Transactions
-/

/-- `CTransaction`: a transaction as validation reads it; its hashes are
computed when asked for. -/
abbrev CTransaction := CMutableTransaction

def COutPoint.IsNull (p : COutPoint) : Bool :=
  p.hash.IsNull && p.n == COutPoint.NULL_INDEX

/-- `IsCoinBase`: one input, spending the null outpoint. -/
def CTransaction.IsCoinBase (tx : CTransaction) : Bool :=
  match tx.vin with
  | [txin] => txin.prevout.IsNull
  | _ => false

def COINBASE_MATURITY : Int := 100

/-!
## Fees and output values
-/

/-- `IsFee`: an explicit output with an empty script, in Elements mode. -/
def CTxOut.IsFee (g : Globals) (txout : CTxOut) : Bool :=
  g.g_con_elementsmode && txout.scriptPubKey.isEmpty && txout.nValue.IsExplicit &&
    txout.nAsset.IsExplicit

/-- The asset and amount a fee output pays, `none` for any other output.  Both
commitments of a fee output are explicit, so the reads never assert. -/
def CTxOut.Fee (g : Globals) (txout : CTxOut) : Option (CAsset × CAmount) :=
  if txout.IsFee g then
    match txout.nAsset.GetAsset, txout.nValue.GetAmount g with
    | some asset, some fee => some (asset, fee)
    | _, _ => none
  else none

/-- `HasValidFee`: every fee is positive and in range, and so is the running
total of each asset. -/
def HasValidFee (g : Globals) (tx : CTransaction) : Bool :=
  go tx.vout ∅
where
  go : List CTxOut -> CAmountMap -> Bool
    | [], _ => true
    | txout :: rest, totalFee =>
      match txout.Fee g with
      | none => go rest totalFee
      | some (asset, fee) =>
        if fee == 0 || !MoneyRange fee then false
        else
          let totalFee := CAmountMap.addAt totalFee asset fee
          if !CAmountMap.MoneyRange totalFee then false else go rest totalFee

/-- `GetFeeMap`: the fees of the transaction, per asset. -/
def GetFeeMap (g : Globals) (tx : CTransaction) : CAmountMap :=
  tx.vout.foldl (fun fee txout =>
    match txout.Fee g with
    | some (asset, amount) => CAmountMap.addAt fee asset amount
    | none => fee) ∅

def valueOutOfRange : String := "GetValueOutMap: value out of range"

/-- `GetValueOutMap`: the explicit output values per asset; an amount out of
range, alone or added to its asset's total, throws. -/
def CTransaction.GetValueOutMap (g : Globals) (tx : CTransaction) :
    Except ValidationFailure CAmountMap := do
  let values ← tx.vout.foldlM (fun values tx_out => do
    if tx_out.nValue.IsExplicit && tx_out.nAsset.IsExplicit then
      let asset ← assertSome tx_out.nAsset.GetAsset
      let amount ← assertSome (tx_out.nValue.GetAmount g)
      if !MoneyRange amount || !MoneyRange (CAmountMap.get values asset + amount) then
        throw (.exception valueOutOfRange)
      pure (CAmountMap.addAt values asset amount)
    else pure values) ∅
  if !CAmountMap.MoneyRange values then throw .assertion
  pure values

/-!
## Peg-in witnesses
-/

/-- What the parent-chain proof of a peg-in establishes: the parent block, the
id of the transaction it proves, its index in the block and the block's number
of transactions. -/
structure ParentProof where
  block_hash : Uint256
  tx_hash : Uint256
  tx_index : Nat
  num_txs : Nat

/-- The chain parameters and node settings the peg-in check reads, and the
parent-chain part of the check. -/
structure PeginParams where
  has_parent_chain : Bool
  ParentGenesisBlockHash : Uint256
  pegged_asset : CAsset
  pegin_min_depth : Nat
  /-- `-validatepegin`. -/
  validatepegin : Bool
  /-- From the merkle block in `stack[5]` through `CheckPeginTx` on `stack[4]`,
  for the prevout, the value and the claim script: the proof, or the message of
  the check that failed. -/
  CheckParentProof : List (CScript × CScript) -> List UInt8 -> List UInt8 -> COutPoint ->
    CAmount -> CScript -> Except String ParentProof
  IsConfirmedBitcoinBlock : Uint256 -> Nat -> Nat -> Bool

/-- `IsValidPeginWitness`: accepts, or gives the error message. -/
def IsValidPeginWitness (p : PeginParams) (pegin_witness : CScriptWitness)
    (fedpegscripts : List (CScript × CScript)) (prevout : COutPoint) (check_depth : Bool) :
    Except String Unit :=
  if !p.has_parent_chain then throw "Parent chain is not enabled on this network."
  else
    match pegin_witness.stack with
    | [stack0, stack1, stack2, stack3, stack4, stack5] =>
      match ser_readdata64 stack0 with
      | .error _ => throw "Could not deserialize value."
      | .ok (value, _) =>
        let value := value.toInt64
        if !MoneyRange value then throw "Value was not in valid value range."
        else if h1 : stack1.length = 32 then
          let asset : CAsset := ⟨stack1, h1⟩
          if h2 : stack2.length = 32 then
            let gen_hash : Uint256 := ⟨stack2, h2⟩
            let claim_script : CScript := stack3
            if claim_script.length > 100 then throw "Claim script is too large."
            else do
              let proof ← p.CheckParentProof fedpegscripts stack4 stack5 prevout value claim_script
              if prevout.hash ≠ proof.tx_hash then throw "Merkle proof and txid mismatch."
              if gen_hash ≠ p.ParentGenesisBlockHash then throw "Parent genesis block mismatch."
              -- a wrong asset is rejected without a message
              if asset ≠ p.pegged_asset then throw ""
              if check_depth && p.validatepegin then
                -- a coinbase output is claimed only after coinbase maturity
                let required_depth :=
                  if proof.tx_index = 0 then max p.pegin_min_depth 100 else p.pegin_min_depth
                if !p.IsConfirmedBitcoinBlock proof.block_hash required_depth proof.num_txs then
                  throw "Needs more confirmations."
          else throw "Parent genesis blockchaash was not 32 bytes."
        else throw "Asset type was not 32 bytes."
    | _ => throw "Not enough stack items."

/-- `GetPeginOutputFromWitness`: the output a peg-in claims, built from the
value, asset and claim script of its witness. -/
def GetPeginOutputFromWitness (g : Globals) (pegin_witness : CScriptWitness) :
    Except ValidationFailure CTxOut :=
  match pegin_witness.stack with
  | stack0 :: stack1 :: _ :: stack3 :: _ =>
    match ser_readdata64 stack0 with
    | .error what => throw (.exception what)
    | .ok (value, _) =>
      if h : stack1.length = 32 then
        pure ⟨CConfidentialAsset.SetToAsset ⟨stack1, h⟩,
          CConfidentialValue.SetToAmount value.toInt64, ⟨[]⟩, stack3⟩
      else throw .assertion
  | _ => pure (CTxOut.empty g)

/-- `std::make_pair(uint256(pegin_witness.stack[2]), prevout)`: the key of the
claim, `none` where `uint256`'s size assert fails or the item is missing. -/
def PeginKey (pegin_witness : CScriptWitness) (prevout : COutPoint) : Option CCoinsMapKey :=
  match pegin_witness.stack[2]? with
  | some stack2 => if h : stack2.length = 32 then some (⟨stack2, h⟩, prevout) else none
  | none => none

/-!
## `CheckTxInputs`
-/

open ViewM

/-- `HaveInputs`: every input that is not a peg-in spends a coin of the view;
the loop stops at the first that does not. -/
def HaveInputs (tx : CTransaction) : ViewM Bool :=
  if tx.IsCoinBase then pure true
  else tx.vin.allM fun txin => if txin.m_is_pegin then pure true else HaveCoin txin.prevout

/-- What `CheckTxInputs` gathers over the inputs: the outputs they spend, the
explicit value they bring in, and the peg-in claims of the block so far. -/
structure InputTally where
  spent_inputs : List CTxOut
  nValueIn : CAmount
  setPeginsSpent : List CCoinsMapKey

/-- The checks on a peg-in input once its claim has been looked up: the claim
is spent neither in the view nor earlier in the block, and the value it
claims is in range.  The claim joins the block's. -/
def TallyPeginInput (g : Globals) (tally : InputTally) (txinwit : CTxInWitness)
    (pegin : CCoinsMapKey) (spent : Bool) : Except ValidationFailure InputTally := do
  if spent then throw (.invalid "bad-txns-double-pegin")
  if pegin ∈ tally.setPeginsSpent then throw (.invalid "bad-txns-double-pegin-in-obj")
  let out ← GetPeginOutputFromWitness g txinwit.m_pegin_witness
  let amount ← assertSome (out.nValue.GetAmount g)
  if !MoneyRange amount then throw (.invalid "bad-txns-inputvalues-outofrange")
  pure ⟨tally.spent_inputs ++ [out], tally.nValueIn + amount, pegin :: tally.setPeginsSpent⟩

/-- The checks on any other input once its coin has been read: the coin is
unspent, a coinbase output is spent only after `COINBASE_MATURITY` blocks, and
an explicit value is added to the input value. -/
def TallyCoinInput (g : Globals) (nSpendHeight : Int) (tally : InputTally) (coin : Coin) :
    Except ValidationFailure InputTally := do
  if coin.IsSpent g then throw .assertion
  if coin.fCoinBase && decide (nSpendHeight - coin.nHeight < COINBASE_MATURITY) then
    throw (.invalid "bad-txns-premature-spend-of-coinbase")
  let nValueIn ← if coin.out.nValue.IsExplicit then
      (fun amount => tally.nValueIn + amount) <$> assertSome (coin.out.nValue.GetAmount g)
    else pure tally.nValueIn
  pure ⟨tally.spent_inputs ++ [coin.out], nValueIn, tally.setPeginsSpent⟩

/-- The loop body of `CheckTxInputs` for input `i`: a peg-in's witness is
checked and its claim looked up in the view, any other input's coin is read. -/
def CheckTxInput (g : Globals) (p : PeginParams) (tx : CTransaction) (nSpendHeight : Int)
    (fedpegscripts : List (CScript × CScript)) (tally : InputTally) (input : CTxIn × Nat) :
    ViewM InputTally :=
  let txin := input.1
  if txin.m_is_pegin then
    -- the witness must exist and be a valid peg-in witness
    match tx.witness.vtxinwit[input.2]? with
    | none => throw (.invalid "bad-pegin-witness")
    | some txinwit =>
      match IsValidPeginWitness p txinwit.m_pegin_witness fedpegscripts txin.prevout true with
      | .error _ => throw (.invalid "bad-pegin-witness")
      | .ok () => do
        let pegin ← assertSome (PeginKey txinwit.m_pegin_witness txin.prevout)
        let spent ← IsPeginSpent pegin
        CallTree.lift (TallyPeginInput g tally txinwit pegin spent)
  else do
    let coin ← AccessCoin txin.prevout
    CallTree.lift (TallyCoinInput g nSpendHeight tally coin)

/-- What `CheckTxInputs` makes of the tally of the inputs, with no further
call on the view: the block's fee map with this transaction's fees added. -/
def CheckTxFees (g : Globals) (VerifyAmounts : List CTxOut -> CTransaction -> Bool)
    (tx : CTransaction) (fee_map : CAmountMap) (fScriptChecks : Bool) (tally : InputTally) :
    Except ValidationFailure CAmountMap :=
  if g.g_con_elementsmode then do
    if !HasValidFee g tx then throw (.invalid "bad-txns-fee-outofrange")
    if fScriptChecks && !VerifyAmounts tally.spent_inputs tx then
      throw (.invalid "bad-txns-in-ne-out")
    let fee_map := CAmountMap.add fee_map (GetFeeMap g tx)
    if !CAmountMap.MoneyRange fee_map then throw (.invalid "bad-block-total-fee-outofrange")
    pure fee_map
  else do
    let value_out := CAmountMap.get (← tx.GetValueOutMap g) (BaseBlob.zero 32)
    if tally.nValueIn < value_out then throw (.invalid "bad-txns-in-belowout")
    let txfee_aux := tally.nValueIn - value_out
    if !MoneyRange txfee_aux then throw (.invalid "bad-txns-fee-outofrange")
    pure (CAmountMap.addAt fee_map (BaseBlob.zero 32) txfee_aux)

/-- `Consensus::CheckTxInputs`: on success, the block's fee map with this
transaction's fees added, and the block's peg-in claims with this
transaction's.  `VerifyAmounts` is the amount check of
`confidential_validation.cpp`. -/
def CheckTxInputs (g : Globals) (p : PeginParams)
    (VerifyAmounts : List CTxOut -> CTransaction -> Bool) (tx : CTransaction)
    (nSpendHeight : Int) (fee_map : CAmountMap) (setPeginsSpent : List CCoinsMapKey)
    (fScriptChecks : Bool) (fedpegscripts : List (CScript × CScript)) :
    ViewM (CAmountMap × List CCoinsMapKey) := do
  if !(← HaveInputs tx) then throw (.invalid "bad-txns-inputs-missingorspent")
  else
    let tally ← tx.vin.zipIdx.foldlM (CheckTxInput g p tx nSpendHeight fedpegscripts)
      ⟨[], 0, setPeginsSpent⟩
    let fee_map ← CallTree.lift (CheckTxFees g VerifyAmounts tx fee_map fScriptChecks tally)
    pure (fee_map, tally.setPeginsSpent)

/-!
## What a successful check did
-/

section Spec

open ExceptFold

variable {g : Globals} {p : PeginParams} {tx : CTransaction} {nSpendHeight : Int}
  {fedpegscripts : List (CScript × CScript)}

theorem HaveInputs_reads : (HaveInputs tx).CallsSatisfy CoinsOp.IsRead :=
  .ite (.pure _) (.allM (fun _ => .ite (.pure _) (HaveCoin_reads _)) _)

theorem CheckTxInput_reads (tally : InputTally) (input : CTxIn × Nat) :
    (CheckTxInput g p tx nSpendHeight fedpegscripts tally input).CallsSatisfy CoinsOp.IsRead := by
  unfold CheckTxInput
  dsimp only
  split
  · split
    · exact .throw _
    · split
      · exact .throw _
      · exact .bind (assertSome_callsSatisfy _) fun _ => .bind (IsPeginSpent_reads _) fun _ => .lift _
  · exact .bind (AccessCoin_reads _) fun _ => .lift _

theorem CheckTxInputs_reads {VerifyAmounts : List CTxOut -> CTransaction -> Bool}
    {fee_map : CAmountMap} {setPeginsSpent : List CCoinsMapKey} {fScriptChecks : Bool} :
    (CheckTxInputs g p VerifyAmounts tx nSpendHeight fee_map setPeginsSpent fScriptChecks
      fedpegscripts).CallsSatisfy CoinsOp.IsRead :=
  .bind HaveInputs_reads fun _ =>
    .ite (.throw _) (.bind (.foldlM CheckTxInput_reads _ _) fun _ => .bind (.lift _) fun _ => .pure _)

theorem CheckTxInputs_eq_ok {VerifyAmounts : List CTxOut -> CTransaction -> Bool}
    {fee_map : CAmountMap} {setPeginsSpent : List CCoinsMapKey} {fScriptChecks : Bool}
    {s s' : CoinsState} {r : CAmountMap × List CCoinsMapKey}
    (h : (CheckTxInputs g p VerifyAmounts tx nSpendHeight fee_map setPeginsSpent fScriptChecks
      fedpegscripts).run (CoinsState.Serve g) s = Except.ok (r, s')) :
    s' = s ∧ ∃ tally,
      (tx.vin.zipIdx.foldlM (CheckTxInput g p tx nSpendHeight fedpegscripts)
        ⟨[], 0, setPeginsSpent⟩).run (CoinsState.Serve g) s = Except.ok (tally, s) ∧
      CheckTxFees g VerifyAmounts tx fee_map fScriptChecks tally = Except.ok r.1 ∧
      r.2 = tally.setPeginsSpent := by
  refine ⟨CoinsState.run_reads CheckTxInputs_reads h, ?_⟩
  simp only [CheckTxInputs, CallTree.run_bind, bind_eq_ok] at h
  obtain ⟨⟨present, s₁⟩, hhave, h⟩ := h
  obtain rfl : s = s₁ := (CoinsState.run_reads HaveInputs_reads hhave).symm
  simp only [CallTree.run_ite, CallTree.run_throw, CallTree.run_bind, ite_throw_eq_ok, bind_eq_ok,
    CallTree.run_lift, map_eq_ok, CallTree.run_pure, pure_eq_ok] at h
  obtain ⟨-, ⟨tally, s₂⟩, hfold, ⟨fee_map', s₃⟩, ⟨fee_map'', hfees, hfee_eq⟩, hr⟩ := h
  obtain rfl : s = s₂ := (CoinsState.run_reads (.foldlM CheckTxInput_reads _ _) hfold).symm
  obtain ⟨rfl, rfl⟩ := Prod.mk.inj hfee_eq
  obtain ⟨rfl, -⟩ := Prod.mk.inj hr
  exact ⟨tally, hfold, hfees, rfl⟩

end Spec

end Elements
