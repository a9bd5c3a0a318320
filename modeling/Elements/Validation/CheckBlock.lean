import Elements.Consensus.TxVerify
import Elements.Consensus.Merkle
import Elements.Crypto.Hashes
import Elements.BlockProof

/-!
# The context-free checks of a block

`CheckTransaction` of `consensus/tx_check.cpp`, and `CheckBlock` of
`validation.cpp` with the Merkle root of `consensus/merkle.cpp`: the checks of
a block that need neither the chain nor the coins.  `CheckBlock` checks the
header's proof, the Merkle root of the transactions and its mutation flag, the
block's size, that the first transaction and only it is a coinbase, every
transaction, and the legacy count of signature operations.

The script interpreter behind the block proof, the proof-of-work target check,
signet's block solution and the legacy signature-operation count of a
transaction are parameters.
-/

namespace Elements

open Codec

def WITNESS_SCALE_FACTOR : Nat := 4

def MAX_BLOCK_WEIGHT : Nat := 4000000

def MAX_BLOCK_SIGOPS_COST : Nat := 80000

/-- `GetHash`: the double SHA-256 of the serialization without witnesses;
`none` when serialization asserts. -/
def CTransaction.GetHash (H : Hashes) (g : Globals) (tx : CTransaction) : Option Uint256 :=
  H.SHA256D <$> SerializeTransaction g ⟨true, true⟩ tx

structure CBlock where
  header : CBlockHeader
  vtx : List CTransaction

def CBlock.GetHash (H : Hashes) (g : Globals) (block : CBlock) : Option Uint256 :=
  block.header.GetHash H.SHA256D g

/-- `GetSerializeSize(block, PROTOCOL_VERSION | SERIALIZE_TRANSACTION_NO_WITNESS)`:
the header, then the transactions; `none` when a part does not serialize. -/
def CBlock.GetSerializeSizeNoWitness (g : Globals) (block : CBlock) : Option Nat := do
  let header ← block.header.Serialize g ⟨false, true⟩
  let txs ← block.vtx.mapM (SerializeTransaction g ⟨false, true⟩)
  pure (header.length + (WriteCompactSize block.vtx.length).length +
    (txs.map List.length).foldl (· + ·) 0)

/-!
## `CheckTransaction`
-/

/-- The output loop of `CheckTransaction`: each explicit value is in range, and
so is the running total of the explicit values. -/
def CheckTransactionOutputs (g : Globals) :
    List CTxOut -> CAmount -> Except ValidationFailure Unit
  | [], _ => pure ()
  | txout :: rest, nValueOutExplicit =>
    if !txout.nValue.IsValid then throw (.invalid "bad-txns-vout-amount-invalid")
    else if !txout.nValue.IsExplicit then CheckTransactionOutputs g rest nValueOutExplicit
    else do
      let amount ← assertSome (txout.nValue.GetAmount g)
      if amount < 0 then throw (.invalid "bad-txns-vout-negative")
      if amount > MAX_MONEY then throw (.invalid "bad-txns-vout-toolarge")
      let nValueOutExplicit := nValueOutExplicit + amount
      if !MoneyRange nValueOutExplicit then throw (.invalid "bad-txns-txouttotal-toolarge")
      CheckTransactionOutputs g rest nValueOutExplicit

/-- The last checks of `CheckTransaction`: the coinbase's script length and its
lack of fee outputs, or every other transaction's non-null prevouts. -/
def CheckTransactionInputs (g : Globals) (tx : CTransaction) : Except ValidationFailure Unit :=
  if tx.IsCoinBase then
    match tx.vin with
    | txin :: _ =>
      if txin.scriptSig.length < 2 || txin.scriptSig.length > 100 then
        throw (.invalid "bad-cb-length")
      else if tx.vout.any (CTxOut.IsFee g) then throw (.invalid "bad-cb-fee")
      else pure ()
    -- a coinbase has its one input
    | [] => pure ()
  else if tx.vin.any (fun txin => txin.prevout.IsNull) then
    throw (.invalid "bad-txns-prevout-null")
  else pure ()

/-- `CheckTransaction`: the checks of a transaction that need no context. -/
def CheckTransaction (g : Globals) (tx : CTransaction) : Except ValidationFailure Unit := do
  if tx.vin.isEmpty then throw (.invalid "bad-txns-vin-empty")
  if tx.vout.isEmpty then throw (.invalid "bad-txns-vout-empty")
  -- the size limit, without the witness
  let serialized ← assertSome (SerializeTransaction g ⟨false, true⟩ tx)
  if serialized.length * WITNESS_SCALE_FACTOR > MAX_BLOCK_WEIGHT then
    throw (.invalid "bad-txns-oversize")
  CheckTransactionOutputs g tx.vout 0
  if !(tx.vin.map CTxIn.prevout).Nodup then throw (.invalid "bad-txns-inputs-duplicate")
  CheckTransactionInputs g tx

/-!
## `CheckBlock`
-/

/-- `BlockMerkleRoot`: the Merkle root of the transactions' hashes, each pair
hashed as its 64 bytes, and whether a pass hashed two equal siblings. -/
def BlockMerkleRoot (H : Hashes) (g : Globals) (block : CBlock) : Option (Uint256 × Bool) := do
  let leaves ← block.vtx.mapM (CTransaction.GetHash H g)
  pure (ComputeMerkleRoot (fun left right => H.SHA256D (left.data ++ right.data))
    (BaseBlob.zero 32) leaves)

/-- The block with its header committing to its transactions, as the miner
sets `hashMerkleRoot = BlockMerkleRoot(block)`; a block whose transactions do
not serialize is left as it is. -/
def CBlock.SetMerkleRoot (H : Hashes) (g : Globals) (block : CBlock) : CBlock :=
  match BlockMerkleRoot H g block with
  | some (root, _) => { block with header := { block.header with hashMerkleRoot := root } }
  | none => block

/-- The checks `CheckBlock` makes on the block's transactions: the first is the
coinbase and no other is, and each passes `CheckTransaction`. -/
def CheckBlockTransactions (g : Globals) (vtx : List CTransaction) :
    Except ValidationFailure Unit :=
  match vtx with
  | [] => throw (.invalid "bad-cb-missing")
  | coinbase :: rest =>
    if !coinbase.IsCoinBase then throw (.invalid "bad-cb-missing")
    else if rest.any CTransaction.IsCoinBase then throw (.invalid "bad-cb-multiple")
    else vtx.forM (CheckTransaction g)

/-- What `CheckBlock` consults beyond the block. -/
structure CheckBlockParams where
  consensus : ConsensusParams
  /-- The script interpreter the block proof is checked with. -/
  GenericVerifyScript : CScript -> CScriptWitness -> CScript -> UInt32 -> CBlockHeader -> Bool
  CheckProofOfWork : Uint256 -> UInt32 -> ConsensusParams -> Bool
  signet_blocks : Bool
  CheckSignetBlockSolution : CBlock -> Bool
  GetLegacySigOpCount : CTransaction -> UInt32

/-- The header's proof, by `CheckBlockHeader`, and on signet the block's
solution. -/
def CheckBlockProof (cp : CheckBlockParams) (g : Globals) (H : Hashes) (block : CBlock)
    (fCheckPOW : Bool) : Except ValidationFailure Unit :=
  match CheckBlockHeader cp.GenericVerifyScript cp.CheckProofOfWork H.SHA256D g block.header
      cp.consensus fCheckPOW with
  | none => throw .assertion
  | some (.error reason) => throw (.invalid reason)
  | some (.ok ()) =>
    if cp.signet_blocks && fCheckPOW && !cp.CheckSignetBlockSolution block then
      throw (.invalid "bad-signet-blksig")
    else pure ()

/-- The Merkle root the header commits to, and no repeated run of
transactions with the same root (CVE-2012-2459). -/
def CheckBlockMerkleRoot (H : Hashes) (g : Globals) (block : CBlock) (fCheckMerkleRoot : Bool) :
    Except ValidationFailure Unit :=
  if fCheckMerkleRoot then
    match BlockMerkleRoot H g block with
    | none => throw .assertion
    | some (hashMerkleRoot2, mutated) =>
      if block.header.hashMerkleRoot ≠ hashMerkleRoot2 then throw (.invalid "bad-txnmrklroot")
      else if mutated then throw (.invalid "bad-txns-duplicate")
      else pure ()
  else pure ()

/-- The size limits: at least one transaction, and a weight within the limit. -/
def CheckBlockSize (g : Globals) (block : CBlock) : Except ValidationFailure Unit :=
  match block.GetSerializeSizeNoWitness g with
  | none => throw .assertion
  | some size =>
    if block.vtx.isEmpty || block.vtx.length * WITNESS_SCALE_FACTOR > MAX_BLOCK_WEIGHT ||
        size * WITNESS_SCALE_FACTOR > MAX_BLOCK_WEIGHT then
      throw (.invalid "bad-blk-length")
    else pure ()

/-- The legacy count of signature operations, in `unsigned int` arithmetic. -/
def CheckBlockSigOps (cp : CheckBlockParams) (block : CBlock) : Except ValidationFailure Unit :=
  let nSigOps := (block.vtx.map cp.GetLegacySigOpCount).foldl (· + ·) 0
  if (nSigOps * UInt32.ofNat WITNESS_SCALE_FACTOR).toNat > MAX_BLOCK_SIGOPS_COST then
    throw (.invalid "bad-blk-sigops")
  else pure ()

/-- `CheckBlock`: accepts, or gives the reject reason. -/
def CheckBlock (cp : CheckBlockParams) (g : Globals) (H : Hashes) (block : CBlock)
    (fCheckPOW fCheckMerkleRoot : Bool) : Except ValidationFailure Unit := do
  CheckBlockProof cp g H block fCheckPOW
  CheckBlockMerkleRoot H g block fCheckMerkleRoot
  CheckBlockSize g block
  CheckBlockTransactions g block.vtx
  CheckBlockSigOps cp block

theorem CheckBlock_transactions {cp : CheckBlockParams} {g : Globals} {H : Hashes} {block : CBlock}
    {fCheckPOW fCheckMerkleRoot : Bool}
    (h : CheckBlock cp g H block fCheckPOW fCheckMerkleRoot = Except.ok ()) :
    CheckBlockTransactions g block.vtx = Except.ok () := by
  simp only [CheckBlock, ExceptFold.bind_eq_ok] at h
  obtain ⟨-, -, -, -, -, -, ⟨⟩, htransactions, -⟩ := h
  exact htransactions

end Elements
