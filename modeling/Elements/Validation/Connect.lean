import Elements.Validation.CheckBlock
import Elements.Data.ExceptFold

/-!
# Connecting blocks

`UpdateCoins`, `AddCoins` and `CChainState::ConnectBlock` of `validation.cpp`
and `coins.cpp`, written as programs over the calls of a coins view
(`Coins.View`), and a run of `ConnectBlock` over a chain of blocks, each on the
view the previous one left.

The genesis block's outputs are added without any check.  Every other block
passes `CheckBlock`, then each transaction in turn is checked against the view
(`CheckTxInputs`, sequence locks, signature operations and scripts) and applied
to it (`UpdateCoins`) before the next one is checked; the block reward is
checked last.

The checks that only accept or reject and whose workings the connection does
not depend on (the script and sequence-lock checks, the signature-operation
cost, the amount check, the PAK list and the subsidy) are parameters; so are
the assume-valid and BIP30 decisions, which read the block index.
`ConnectBlock` here runs on the plain state; `Validation.ConnectTip` runs the
same program on a cache over the chain tip.
-/

namespace Elements

open Codec ViewM

/-- What `ConnectBlock` reads of the block's index entry. -/
structure CBlockIndex where
  phashBlock : Uint256
  nHeight : Nat
  /-- `pprev->GetBlockHash()`, none for the first block. -/
  pprevHash : Option Uint256

/-- A view as `ConnectBlock` sees it on the plain state: the coins it stands
for, and `GetBestBlock`. -/
structure ChainView where
  coins : CoinsState
  bestBlock : Uint256

/-- `CTxUndo`: the coins a transaction spent, in input order; a dummy `Coin()`
stands for a peg-in. -/
structure CTxUndo where
  vprevout : List Coin

/-- `CBlockUndo`: the undo data of every transaction but the coinbase. -/
structure CBlockUndo where
  vtxundo : List CTxUndo

def BIP34_IMPLIES_BIP30_LIMIT : Nat := 1983702

/-!
## Applying a transaction
-/

/-- The loop body of `AddCoins` for output `i`. -/
def AddCoinsOutput (txid : Uint256) (fCoinbase : Bool) (nHeight : Nat) (check_for_overwrite : Bool)
    (output : CTxOut × Nat) : ViewM Unit := do
  let outpoint : COutPoint := ⟨txid, UInt32.ofNat output.2⟩
  -- coinbase outputs may always be overwritten, for the duplicate coinbases before BIP30
  let overwrite ← if check_for_overwrite then HaveCoin outpoint else pure fCoinbase
  AddCoin outpoint ⟨output.1, fCoinbase, nHeight⟩ overwrite

/-- `AddCoins`: every output of the transaction becomes a coin. -/
def AddCoins (g : Globals) (H : Hashes) (tx : CTransaction) (nHeight : Nat)
    (check_for_overwrite : Bool) : ViewM Unit := do
  let txid ← assertSome (tx.GetHash H g)
  tx.vout.zipIdx.forM (AddCoinsOutput txid tx.IsCoinBase nHeight check_for_overwrite)

/-- The loop body of `UpdateCoins` for input `i`: a peg-in marks its claim
spent and leaves a dummy undo entry; any other input moves its coin into the
undo data. -/
def UpdateCoinsInput (g : Globals) (tx : CTransaction) (txundo : CTxUndo) (input : CTxIn × Nat) :
    ViewM CTxUndo :=
  if input.1.m_is_pegin then do
    let txinwit ← assertSome tx.witness.vtxinwit[input.2]?
    let outpoint ← assertSome (PeginKey txinwit.m_pegin_witness input.1.prevout)
    SetPeginSpent outpoint true
    pure ⟨txundo.vprevout ++ [Coin.empty g]⟩
  else do
    let moved ← SpendCoin input.1.prevout
    -- `assert(is_spent)`
    let coin ← assertSome moved
    pure ⟨txundo.vprevout ++ [coin]⟩

/-- The input loop of `UpdateCoins`; the coinbase spends nothing. -/
def SpendInputs (g : Globals) (tx : CTransaction) : ViewM CTxUndo :=
  if tx.IsCoinBase then pure ⟨[]⟩
  else tx.vin.zipIdx.foldlM (UpdateCoinsInput g tx) ⟨[]⟩

/-- `UpdateCoins`: spend the inputs, then add the outputs. -/
def UpdateCoins (g : Globals) (H : Hashes) (tx : CTransaction) (nHeight : Nat) : ViewM CTxUndo := do
  let txundo ← SpendInputs g tx
  AddCoins g H tx nHeight false
  pure txundo

/-!
## `ConnectBlock`
-/

/-- The chain parameters, node settings and checks `ConnectBlock` consults. -/
structure ConnectParams where
  pegin : PeginParams
  check : CheckBlockParams
  connect_genesis_outputs : Bool
  mandatory_coinbase_destination : CScript
  subsidy_asset : CAsset
  /-- `GetEnforcePak()`. -/
  enforce_pak : Bool
  GetValidFedpegScripts : CBlockIndex -> List (CScript × CScript)
  /-- Whether scripts are checked: false below an assumed-valid block. -/
  fScriptChecks : CBlockIndex -> Bool
  fEnforceBIP30 : CBlockIndex -> Bool
  IsPAKValidTx : CBlockIndex -> CTransaction -> Bool
  SequenceLocks : CTransaction -> List Int -> CBlockIndex -> Bool
  /-- `GetTransactionSigOpCost`, from the coins the inputs spend. -/
  GetTransactionSigOpCost : CTransaction -> List Coin -> Nat
  VerifyAmounts : List CTxOut -> CTransaction -> Bool
  /-- `CheckInputScripts`, from the coins the inputs spend: accepts, or gives
  the reject reason. -/
  CheckInputScripts : CTransaction -> List Coin -> Except String Unit
  GetBlockSubsidy : Nat -> CAmount

def ConnectParams.hashGenesisBlock (ctx : ConnectParams) : Uint256 :=
  ctx.check.consensus.hashGenesisBlock

variable (ctx : ConnectParams) (g : Globals) (H : Hashes)

/-- Every non-zero coinbase output pays the mandatory destination, if there is one. -/
def CheckCoinbaseDestination (block : CBlock) : Except ValidationFailure Unit := do
  if ctx.mandatory_coinbase_destination ≠ [] then
    let coinbase ← assertSome block.vtx.head?
    let mustPay (txout : CTxOut) : Bool :=
      !txout.nValue.IsExplicit || txout.nValue.GetAmount g != some 0
    if coinbase.vout.any fun txout =>
        mustPay txout && txout.scriptPubKey != ctx.mandatory_coinbase_destination then
      throw (.invalid "bad-coinbase-txos")

/-- BIP30, where it is enforced: no transaction of the block overwrites an
unspent coin. -/
def CheckBIP30 (pindex : CBlockIndex) (vtx : List CTransaction) : ViewM Unit :=
  if ctx.fEnforceBIP30 pindex || pindex.nHeight ≥ BIP34_IMPLIES_BIP30_LIMIT then
    vtx.forM fun tx => do
      let txid ← assertSome (tx.GetHash H g)
      (List.range tx.vout.length).forM fun o => do
        if ← HaveCoin ⟨txid, UInt32.ofNat o⟩ then throw (.invalid "bad-txns-BIP30")
  else pure ()

/-- Every transaction is PAK-valid, once PAK is enforced and the block carries
dynamic federation parameters. -/
def CheckPAK (pindex : CBlockIndex) (block : CBlock) : Except ValidationFailure Unit :=
  if ctx.enforce_pak && !block.header.m_dynafed_params.IsNull &&
      block.vtx.any fun tx => !ctx.IsPAKValidTx pindex tx then
    throw (.invalid "bad-pak-tx")
  else pure ()

/-- What the transaction loop of `ConnectBlock` carries besides the view. -/
structure ConnectLoop where
  fee_map : CAmountMap
  setPeginsSpent : List CCoinsMapKey
  nSigOpsCost : Nat
  vtxundo : List CTxUndo

/-- The height of the coin each input spends, `-1` for a peg-in. -/
def PrevHeights (tx : CTransaction) : ViewM (List Int) :=
  tx.vin.mapM fun txin =>
    if txin.m_is_pegin then pure (-1)
    else do
      let coin ← AccessCoin txin.prevout
      pure coin.nHeight

/-- The checks of a transaction before its scripts, none for the coinbase:
the inputs against the view, the block's accumulated fee, and the sequence
locks.  The block's fee map and peg-in claims after the transaction. -/
def CheckTxConnect (pindex : CBlockIndex) (fedpegscripts : List (CScript × CScript))
    (fScriptChecks : Bool) (acc : ConnectLoop) (tx : CTransaction) :
    ViewM (CAmountMap × List CCoinsMapKey) :=
  if tx.IsCoinBase then pure (acc.fee_map, acc.setPeginsSpent)
  else do
    let checked ← CheckTxInputs g ctx.pegin ctx.VerifyAmounts tx pindex.nHeight acc.fee_map
      acc.setPeginsSpent fScriptChecks fedpegscripts
    if !CAmountMap.MoneyRange checked.1 then throw (.invalid "bad-txns-accumulated-fee-outofrange")
    else
      let prevheights ← PrevHeights tx
      if !ctx.SequenceLocks tx prevheights pindex then throw (.invalid "bad-txns-nonfinal")
      else pure checked

/-- The coins the inputs of a transaction spend, which the signature-operation
count and the script checks read: none for the coinbase or a peg-in. -/
def AccessInputs (tx : CTransaction) : ViewM (List Coin) :=
  if tx.IsCoinBase then pure []
  else (tx.vin.filter fun txin => !txin.m_is_pegin).mapM fun txin => AccessCoin txin.prevout

/-- The scripts of a transaction other than the coinbase, unless script checks
are off; a failure is a block failure with the transaction's reason. -/
def CheckTxScripts (fScriptChecks : Bool) (coins : List Coin) (tx : CTransaction) :
    Except ValidationFailure Unit :=
  if !tx.IsCoinBase && fScriptChecks then (ctx.CheckInputScripts tx coins).mapError .invalid
  else pure ()

/-- The loop body of `ConnectBlock` for transaction `i`: its checks, then
`UpdateCoins`. -/
def ConnectTransaction (pindex : CBlockIndex) (fedpegscripts : List (CScript × CScript))
    (fScriptChecks : Bool) (acc : ConnectLoop) (entry : CTransaction × Nat) :
    ViewM ConnectLoop := do
  let checked ← CheckTxConnect ctx g pindex fedpegscripts fScriptChecks acc entry.1
  let coins ← AccessInputs entry.1
  let nSigOpsCost := acc.nSigOpsCost + ctx.GetTransactionSigOpCost entry.1 coins
  if nSigOpsCost > MAX_BLOCK_SIGOPS_COST then throw (.invalid "bad-blk-sigops")
  else do
    CallTree.lift (CheckTxScripts ctx fScriptChecks coins entry.1)
    let txundo ← UpdateCoins g H entry.1 pindex.nHeight
    -- the coinbase's undo data is dropped
    let vtxundo := if entry.2 > 0 then acc.vtxundo ++ [txundo] else acc.vtxundo
    pure ⟨checked.1, checked.2, nSigOpsCost, vtxundo⟩

/-- `VerifyCoinbaseAmount`: the coinbase carries no output witness, pays in
explicit outputs only, and leaves every asset of `mapFees` in range.  Its
`assert(tx.IsCoinBase())` holds where `ConnectBlock` calls it, on the first
transaction, which `CheckBlock` has made the coinbase. -/
def VerifyCoinbaseAmount (tx : CTransaction) (mapFees : CAmountMap) : Bool :=
  -- the miner shouldn't be stuffing witness data
  tx.witness.vtxoutwit.all CTxOutWitness.IsNull && go tx.vout mapFees
where
  /-- The output loop, with what remains of `mapFees`. -/
  go : List CTxOut -> CAmountMap -> Bool
    | [], remaining => CAmountMap.MoneyRange remaining
    | out :: rest, remaining =>
      if !out.nValue.IsExplicit || !out.nAsset.IsExplicit then false
      else
        match out.nAsset.GetAsset, out.nValue.GetAmount g with
        | some asset, some amount =>
          if !MoneyRange amount then false
          else if g.g_con_elementsmode && amount == 0 && !out.scriptPubKey.IsUnspendable g then
            false
          else go rest (CAmountMap.subAt remaining asset amount)
        -- explicit commitments always read
        | _, _ => false

/-- The block reward, the fees and the subsidy, is in range, and the coinbase
pays no more than it. -/
def CheckBlockReward (block : CBlock) (pindex : CBlockIndex) (fee_map : CAmountMap) :
    Except ValidationFailure Unit :=
  let block_reward :=
    CAmountMap.addAt fee_map ctx.subsidy_asset (ctx.GetBlockSubsidy pindex.nHeight)
  if !CAmountMap.MoneyRange block_reward then throw (.invalid "bad-blockreward-outofrange")
  else do
    let coinbase ← assertSome block.vtx.head?
    if !VerifyCoinbaseAmount g coinbase block_reward then throw (.invalid "bad-cb-amount")
    else pure ()

/-- A block other than the genesis block: it is checked, then its transactions
are applied one by one. -/
def ConnectCheckedBlock (block : CBlock) (pindex : CBlockIndex)
    (setPeginsSpent : List CCoinsMapKey) : ViewM (CBlockUndo × List CCoinsMapKey) := do
  CallTree.lift (CheckBlock ctx.check g H block true true)
  CallTree.lift (CheckCoinbaseDestination ctx g block)
  let fScriptChecks := ctx.fScriptChecks pindex
  let _ ← assertSome pindex.pprevHash
  CheckBIP30 ctx g H pindex block.vtx
  CallTree.lift (CheckPAK ctx pindex block)
  let fedpegscripts := ctx.GetValidFedpegScripts pindex
  let loop ← block.vtx.zipIdx.foldlM (ConnectTransaction ctx g H pindex fedpegscripts fScriptChecks)
    ⟨∅, setPeginsSpent, 0, []⟩
  CallTree.lift (CheckBlockReward ctx g block pindex loop.fee_map)
  pure (⟨loop.vtxundo⟩, loop.setPeginsSpent)

/-- The genesis block: its outputs are added as they are, at height 0, when
the chain says so. -/
def ConnectGenesisBlock (block : CBlock) : ViewM Unit :=
  if ctx.connect_genesis_outputs then block.vtx.forM fun tx => AddCoins g H tx 0 false
  else pure ()

/-- The asserts `ConnectBlock` starts with: the index entry is the block's, and
the view stands at its parent.  The block's hash. -/
def ConnectBlockAsserts (block : CBlock) (pindex : CBlockIndex) (bestBlock : Uint256) :
    Except ValidationFailure Uint256 := do
  let hash ← assertSome (block.GetHash H g)
  if pindex.phashBlock ≠ hash then throw .assertion
  if pindex.pprevHash.getD (BaseBlob.zero 32) ≠ bestBlock then throw .assertion
  pure hash

/-- What `ConnectBlock` does with the coins of its view once the block is
placed: the genesis block's outputs are added without validation; any other
block is checked and connected.  The undo data and the block's peg-in claims. -/
def ConnectBlockCalls (block : CBlock) (pindex : CBlockIndex) (hash : Uint256)
    (setPeginsSpent : List CCoinsMapKey) : ViewM (CBlockUndo × List CCoinsMapKey) :=
  if hash = ctx.hashGenesisBlock then do
    ConnectGenesisBlock ctx g H block
    pure (⟨[]⟩, setPeginsSpent)
  else ConnectCheckedBlock ctx g H block pindex setPeginsSpent

/-- `ConnectBlock` with `fJustCheck` false, on the plain state: the undo data,
the view after the block, and the block's peg-in claims. -/
def ConnectBlock (block : CBlock) (pindex : CBlockIndex) (view : ChainView)
    (setPeginsSpent : List CCoinsMapKey) :
    Except ValidationFailure (CBlockUndo × ChainView × List CCoinsMapKey) := do
  let hash ← ConnectBlockAsserts g H block pindex view.bestBlock
  let connected ← (ConnectBlockCalls ctx g H block pindex hash setPeginsSpent).run
    (CoinsState.Serve g) view.coins
  -- `view.SetBestBlock(pindex->GetBlockHash())`
  pure (connected.1.1, ⟨connected.2, pindex.phashBlock⟩, connected.1.2)

/-- Blocks connected one on another, each with a fresh set of peg-in claims,
as `ConnectTip` connects them. -/
def ConnectBlocks (view : ChainView) : List (CBlockIndex × CBlock) ->
    Except ValidationFailure ChainView
  | [] => pure view
  | (pindex, block) :: rest => do
    let connected ← ConnectBlock ctx g H block pindex view []
    ConnectBlocks connected.2.1 rest

/-!
## What a successful connection did

What each program calls, and one inversion lemma per level of `ConnectBlock`
on the plain state: the checks it passed and the state it returned.  Proofs
about connected blocks start from these.
-/

section Spec

open ExceptFold CallTree

variable {ctx g H}

theorem PrevHeights_reads (tx : CTransaction) : (PrevHeights tx).CallsSatisfy CoinsOp.IsRead :=
  .mapM (fun _ => .ite (.pure _) (.bind (AccessCoin_reads _) fun _ => .pure _)) _

theorem AccessInputs_reads (tx : CTransaction) : (AccessInputs tx).CallsSatisfy CoinsOp.IsRead :=
  .ite (.pure _) (.mapM (fun _ => AccessCoin_reads _) _)

theorem CheckTxConnect_reads {pindex : CBlockIndex} {fedpegscripts : List (CScript × CScript)}
    {fScriptChecks : Bool} {acc : ConnectLoop} {tx : CTransaction} :
    (CheckTxConnect ctx g pindex fedpegscripts fScriptChecks acc tx).CallsSatisfy CoinsOp.IsRead :=
  .ite (.pure _) (.bind CheckTxInputs_reads fun _ =>
    .ite (.throw _) (.bind (PrevHeights_reads _) fun _ => .ite (.throw _) (.pure _)))

theorem CheckBIP30_reads (pindex : CBlockIndex) (vtx : List CTransaction) :
    (CheckBIP30 ctx g H pindex vtx).CallsSatisfy CoinsOp.IsRead :=
  .ite (.forM (fun _ => .bind (assertSome_callsSatisfy _) fun _ =>
    .forM (fun _ => .bind (HaveCoin_reads _) fun _ => .ite (.throw _) (.pure _)) _) _) (.pure _)

theorem AddCoinsOutput_keepsClaims (txid : Uint256) (fCoinbase : Bool) (nHeight : Nat)
    (check_for_overwrite : Bool) (output : CTxOut × Nat) :
    (AddCoinsOutput txid fCoinbase nHeight check_for_overwrite output).CallsSatisfy
      CoinsOp.KeepsClaims := by
  simp only [AddCoinsOutput]
  split
  · exact .bind ((HaveCoin_reads _).mono fun _ h => h.keepsClaims) fun _ =>
      AddCoin_keepsClaims _ _ _
  · exact .bind (.pure _) fun _ => AddCoin_keepsClaims _ _ _

theorem AddCoins_keepsClaims (tx : CTransaction) (nHeight : Nat) (check_for_overwrite : Bool) :
    (AddCoins g H tx nHeight check_for_overwrite).CallsSatisfy CoinsOp.KeepsClaims :=
  .bind (assertSome_callsSatisfy _) fun _ => .forM (AddCoinsOutput_keepsClaims _ _ _ _) _

theorem ConnectGenesisBlock_keepsClaims (block : CBlock) :
    (ConnectGenesisBlock ctx g H block).CallsSatisfy CoinsOp.KeepsClaims :=
  .ite (.forM (fun _ => AddCoins_keepsClaims _ _ _) _) (.pure _)

variable {pindex : CBlockIndex} {fedpegscripts : List (CScript × CScript)} {fScriptChecks : Bool}
  {s s' : CoinsState}

theorem ConnectTransaction_eq_ok {acc acc' : ConnectLoop} {entry : CTransaction × Nat}
    (h : (ConnectTransaction ctx g H pindex fedpegscripts fScriptChecks acc entry).run
      (CoinsState.Serve g) s = Except.ok (acc', s')) :
    ∃ checked coins txundo,
      (CheckTxConnect ctx g pindex fedpegscripts fScriptChecks acc entry.1).run
        (CoinsState.Serve g) s = Except.ok (checked, s) ∧
      (AccessInputs entry.1).run (CoinsState.Serve g) s = Except.ok (coins, s) ∧
      ¬acc.nSigOpsCost + ctx.GetTransactionSigOpCost entry.1 coins > MAX_BLOCK_SIGOPS_COST ∧
      CheckTxScripts ctx fScriptChecks coins entry.1 = Except.ok () ∧
      (UpdateCoins g H entry.1 pindex.nHeight).run (CoinsState.Serve g) s =
        Except.ok (txundo, s') ∧
      acc' = ⟨checked.1, checked.2, acc.nSigOpsCost + ctx.GetTransactionSigOpCost entry.1 coins,
        if entry.2 > 0 then acc.vtxundo ++ [txundo] else acc.vtxundo⟩ := by
  simp only [ConnectTransaction, run_bind, bind_eq_ok] at h
  obtain ⟨⟨checked, s₁⟩, hcheck, ⟨coins, s₂⟩, hcoins, h⟩ := h
  obtain rfl : s = s₁ := (CoinsState.run_reads CheckTxConnect_reads hcheck).symm
  obtain rfl : s = s₂ := (CoinsState.run_reads (AccessInputs_reads _) hcoins).symm
  simp only [run_ite, run_throw, ite_throw_eq_ok, run_bind, bind_eq_ok, run_lift, map_eq_ok,
    run_pure, pure_eq_ok] at h
  obtain ⟨hsig, ⟨u, s₃⟩, ⟨u', hscripts, heq⟩, ⟨txundo, s₄⟩, hupdate, hacc⟩ := h
  obtain ⟨rfl, rfl⟩ := Prod.mk.inj heq
  obtain ⟨rfl, rfl⟩ := Prod.mk.inj hacc
  exact ⟨checked, coins, txundo, hcheck, hcoins, hsig, hscripts, hupdate, rfl⟩

theorem CheckBlockReward_eq_ok {block : CBlock} {fee_map : CAmountMap}
    (h : CheckBlockReward ctx g block pindex fee_map = Except.ok ()) :
    CAmountMap.MoneyRange (CAmountMap.addAt fee_map ctx.subsidy_asset
        (ctx.GetBlockSubsidy pindex.nHeight)) = true ∧
      ∃ coinbase, block.vtx.head? = some coinbase ∧
        VerifyCoinbaseAmount g coinbase (CAmountMap.addAt fee_map ctx.subsidy_asset
          (ctx.GetBlockSubsidy pindex.nHeight)) = true := by
  simp only [CheckBlockReward, bind_eq_ok, ite_throw_eq_ok, assertSome_eq_ok] at h
  obtain ⟨hreward, coinbase, hcoinbase, hverify⟩ := h
  simp only [Bool.not_eq_true', Bool.not_eq_false] at hreward hverify
  exact ⟨hreward, coinbase, hcoinbase, by simpa using hverify⟩

theorem ConnectCheckedBlock_eq_ok {block : CBlock} {setPeginsSpent : List CCoinsMapKey}
    {result : CBlockUndo × List CCoinsMapKey}
    (h : (ConnectCheckedBlock ctx g H block pindex setPeginsSpent).run (CoinsState.Serve g) s =
      Except.ok (result, s')) :
    CheckBlock ctx.check g H block true true = Except.ok () ∧
      ∃ loop, (block.vtx.zipIdx.foldlM (ConnectTransaction ctx g H pindex
          (ctx.GetValidFedpegScripts pindex) (ctx.fScriptChecks pindex))
          ⟨∅, setPeginsSpent, 0, []⟩).run (CoinsState.Serve g) s = Except.ok (loop, s') ∧
        CheckBlockReward ctx g block pindex loop.fee_map = Except.ok () ∧
        result = (⟨loop.vtxundo⟩, loop.setPeginsSpent) := by
  simp only [ConnectCheckedBlock, run_bind, run_lift, run_assertSome, bind_map_left, bind_eq_ok,
    run_pure, pure_eq_ok] at h
  obtain ⟨⟨⟩, hblock, ⟨⟩, -, _, -, ⟨⟨⟩, s₁⟩, hbip30, ⟨⟩, -, ⟨loop, s₂⟩, hloop, ⟨⟩, hreward,
    hresult⟩ := h
  -- the BIP30 check only reads the view
  obtain rfl : s = s₁ := (CoinsState.run_reads (CheckBIP30_reads _ _) hbip30).symm
  obtain ⟨rfl, rfl⟩ := Prod.mk.inj hresult
  exact ⟨hblock, loop, hloop, hreward, rfl⟩

theorem ConnectBlockCalls_eq_ok {block : CBlock} {hash : Uint256}
    {setPeginsSpent : List CCoinsMapKey} {result : CBlockUndo × List CCoinsMapKey}
    (h : (ConnectBlockCalls ctx g H block pindex hash setPeginsSpent).run (CoinsState.Serve g) s =
      Except.ok (result, s')) :
    (hash = ctx.hashGenesisBlock ∧
        (ConnectGenesisBlock ctx g H block).run (CoinsState.Serve g) s = Except.ok ((), s') ∧
        result = (⟨[]⟩, setPeginsSpent)) ∨
      (hash ≠ ctx.hashGenesisBlock ∧
        (ConnectCheckedBlock ctx g H block pindex setPeginsSpent).run (CoinsState.Serve g) s =
          Except.ok (result, s')) := by
  unfold ConnectBlockCalls at h
  split at h
  · rename_i hgenesis
    simp only [run_bind, run_pure, bind_eq_ok, pure_eq_ok] at h
    obtain ⟨⟨⟨⟩, s₁⟩, hcalls, hresult⟩ := h
    obtain ⟨rfl, rfl⟩ := Prod.mk.inj hresult
    exact .inl ⟨hgenesis, hcalls, rfl⟩
  · exact .inr ⟨‹_›, h⟩

theorem ConnectBlockAsserts_eq_ok {block : CBlock} {bestBlock hash : Uint256}
    (h : ConnectBlockAsserts g H block pindex bestBlock = Except.ok hash) :
    block.GetHash H g = some hash ∧ pindex.phashBlock = hash ∧
      pindex.pprevHash.getD (BaseBlob.zero 32) = bestBlock := by
  simp only [ConnectBlockAsserts, bind_eq_ok, assertSome_eq_ok, throw_bind, ite_throw_eq_ok,
    pure_eq_ok, not_not] at h
  obtain ⟨_, hget, hindex, hprev, rfl⟩ := h
  exact ⟨hget, hindex, hprev⟩

theorem ConnectBlock_eq_ok {block : CBlock} {view : ChainView} {setPeginsSpent : List CCoinsMapKey}
    {result : CBlockUndo × ChainView × List CCoinsMapKey}
    (h : ConnectBlock ctx g H block pindex view setPeginsSpent = Except.ok result) :
    ∃ hash connected coins, ConnectBlockAsserts g H block pindex view.bestBlock = Except.ok hash ∧
      (ConnectBlockCalls ctx g H block pindex hash setPeginsSpent).run (CoinsState.Serve g)
        view.coins = Except.ok (connected, coins) ∧
      result = (connected.1, ⟨coins, pindex.phashBlock⟩, connected.2) := by
  simp only [ConnectBlock, bind_eq_ok, pure_eq_ok] at h
  obtain ⟨hash, hasserts, ⟨connected, coins⟩, hcalls, rfl⟩ := h
  exact ⟨hash, connected, coins, hasserts, hcalls, rfl⟩

end Spec

end Elements
