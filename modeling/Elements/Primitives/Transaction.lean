import Elements.Primitives.Block

/-!
# Transactions

The data of `primitives/confidential.h`, `primitives/txwitness.h` and
`primitives/transaction.h` with their wire formats.

In Elements mode an output carries an asset, a value and a nonce, each a
*confidential commitment*: null, explicit, or a 33-byte Pedersen commitment,
told apart on the wire by their first byte.  An input may carry an asset
issuance and may be a peg-in; both are signalled by the two high bits of the
outpoint index, except in the all-ones index of a coinbase input.  The witness
is written after all the other data, one record for each input and each
output, and only when some record is non-null.

The Bitcoin-compatible layout used outside Elements mode is modelled as well:
an explicit 8-byte amount in each output, and the script witnesses between the
outputs and `nLockTime`.
-/

namespace Elements

open Codec Codec.Decoder

def unrecognizedPrefix : String := "Unrecognized serialization prefix"

def superfluousWitness : String := "Superfluous witness record"

def superfluousIssuance : String := "Superfluous issuance record"

def unknownOptionalData : String := "Unknown transaction optional data"

/-- `std::vector::resize`: truncate, or pad with default-constructed elements. -/
def resize {α : Type} (v : List α) (n : Nat) (default : α) : List α :=
  v.take n ++ List.replicate (n - v.length) default

/-!
## Confidential commitments
-/

/-- `CConfidentialCommitment<ExplicitSize, PrefixA, PrefixB>`. -/
structure CConfidentialCommitment (ExplicitSize : Nat) (PrefixA PrefixB : UInt8) where
  vchCommitment : List UInt8
deriving DecidableEq, Repr

namespace CConfidentialCommitment

variable {ExplicitSize : Nat} {PrefixA PrefixB : UInt8}

def nCommittedSize : Nat := 33

def empty : CConfidentialCommitment ExplicitSize PrefixA PrefixB := ⟨[]⟩

def IsNull (c : CConfidentialCommitment ExplicitSize PrefixA PrefixB) : Bool :=
  c.vchCommitment.isEmpty

def IsExplicit (c : CConfidentialCommitment ExplicitSize PrefixA PrefixB) : Bool :=
  c.vchCommitment.length == ExplicitSize && c.vchCommitment.head? == some 1

def IsCommitment (c : CConfidentialCommitment ExplicitSize PrefixA PrefixB) : Bool :=
  c.vchCommitment.length == nCommittedSize &&
    (c.vchCommitment.head? == some PrefixA || c.vchCommitment.head? == some PrefixB)

def IsValid (c : CConfidentialCommitment ExplicitSize PrefixA PrefixB) : Bool :=
  c.IsNull || c.IsExplicit || c.IsCommitment

/-- `Serialize`: the first byte (0 for a null commitment), then the bytes after
it. -/
def Serialize (c : CConfidentialCommitment ExplicitSize PrefixA PrefixB) : List UInt8 :=
  match c.vchCommitment with
  | [] => [0]
  | version :: body => version :: body

/-- `Unserialize`: the first byte fixes the length of what follows. -/
def Unserialize : Decoder (CConfidentialCommitment ExplicitSize PrefixA PrefixB) :=
  ser_readdata8 >>= fun version =>
    if version = 0 then
      Pure.pure ⟨[]⟩
    else if version = 1 then
      readBytes endOfData (ExplicitSize - 1) >>= fun body => Pure.pure ⟨version :: body⟩
    else if version = PrefixA ∨ version = PrefixB then
      readBytes endOfData (nCommittedSize - 1) >>= fun body => Pure.pure ⟨version :: body⟩
    else
      fail unrecognizedPrefix

end CConfidentialCommitment

abbrev CConfidentialAsset := CConfidentialCommitment 33 10 11

abbrev CConfidentialValue := CConfidentialCommitment 9 8 9

abbrev CConfidentialNonce := CConfidentialCommitment 33 2 3

/-- `CAmount`, a signed 64-bit number of base units. -/
abbrev CAmount := Int64

def CConfidentialAsset.SetToAsset (asset : Uint256) : CConfidentialAsset :=
  ⟨1 :: asset.Serialize⟩

/-- A default-constructed asset: null in Elements mode, otherwise the explicit
all-zero dummy asset. -/
def CConfidentialAsset.empty (g : Globals) : CConfidentialAsset :=
  if g.g_con_elementsmode then ⟨[]⟩ else CConfidentialAsset.SetToAsset (BaseBlob.zero 32)

def WriteBE64 (x : UInt64) : List UInt8 :=
  (encodeLE 8 x.toNat).reverse

def ReadBE64 (bytes : List UInt8) : UInt64 :=
  UInt64.ofNat (decodeLE (bytes.take 8).reverse)

def CConfidentialValue.SetToAmount (nAmount : CAmount) : CConfidentialValue :=
  ⟨1 :: WriteBE64 nAmount.toUInt64⟩

/-- `GetAmount`; `none` is the `assert(IsExplicit())`. -/
def CConfidentialValue.GetAmount (g : Globals) (v : CConfidentialValue) : Option CAmount :=
  if !g.g_con_elementsmode && v.IsNull then some (-1)
  else if v.IsExplicit then some (ReadBE64 (v.vchCommitment.drop 1)).toInt64
  else none

/-!
## Asset issuances
-/

structure CAssetIssuance where
  assetBlindingNonce : Uint256
  assetEntropy : Uint256
  nAmount : CConfidentialValue
  nInflationKeys : CConfidentialValue
deriving DecidableEq, Repr

def CAssetIssuance.empty : CAssetIssuance :=
  ⟨BaseBlob.zero 32, BaseBlob.zero 32, ⟨[]⟩, ⟨[]⟩⟩

def CAssetIssuance.IsNull (a : CAssetIssuance) : Bool :=
  a.nAmount.IsNull && a.nInflationKeys.IsNull

/-- `SetNull` clears the two amounts and keeps the nonce and the entropy. -/
def CAssetIssuance.SetNull (a : CAssetIssuance) : CAssetIssuance :=
  { a with nAmount := ⟨[]⟩, nInflationKeys := ⟨[]⟩ }

def CAssetIssuance.Serialize (a : CAssetIssuance) : List UInt8 :=
  a.assetBlindingNonce.Serialize ++ a.assetEntropy.Serialize ++ a.nAmount.Serialize ++
    a.nInflationKeys.Serialize

def CAssetIssuance.Unserialize : Decoder CAssetIssuance := do
  let assetBlindingNonce <- BaseBlob.Unserialize 32
  let assetEntropy <- BaseBlob.Unserialize 32
  let nAmount <- CConfidentialCommitment.Unserialize
  let nInflationKeys <- CConfidentialCommitment.Unserialize
  Pure.pure ⟨assetBlindingNonce, assetEntropy, nAmount, nInflationKeys⟩

/-!
## Inputs
-/

structure COutPoint where
  hash : Uint256
  n : UInt32
deriving DecidableEq, Repr

namespace COutPoint

def NULL_INDEX : UInt32 := 0xffffffff

def OUTPOINT_ISSUANCE_FLAG : UInt32 := 0x80000000

def OUTPOINT_PEGIN_FLAG : UInt32 := 0x40000000

def OUTPOINT_INDEX_MASK : UInt32 := 0x3fffffff

def empty : COutPoint := ⟨BaseBlob.zero 32, NULL_INDEX⟩

def Serialize (p : COutPoint) : List UInt8 :=
  p.hash.Serialize ++ ser_writedata32 p.n

def Unserialize : Decoder COutPoint := do
  let hash <- BaseBlob.Unserialize 32
  let n <- ser_readdata32
  Pure.pure ⟨hash, n⟩

end COutPoint

structure CTxIn where
  prevout : COutPoint
  scriptSig : CScript
  nSequence : UInt32
  assetIssuance : CAssetIssuance
  m_is_pegin : Bool
deriving DecidableEq, Repr

def CTxIn.SEQUENCE_FINAL : UInt32 := 0xffffffff

def CTxIn.empty : CTxIn :=
  ⟨COutPoint.empty, [], CTxIn.SEQUENCE_FINAL, CAssetIssuance.empty, false⟩

/-- The outpoint `Serialize` writes and whether an issuance follows; `none` is
the assertion that the index has no flag bits. -/
def CTxIn.WriteOutpoint (g : Globals) (txin : CTxIn) : Option (COutPoint × Bool) :=
  if !g.g_con_elementsmode || txin.prevout.n = 0xffffffff then
    -- coinbase inputs do not have asset issuances attached to them
    some (txin.prevout, false)
  else if txin.prevout.n &&& ~~~COutPoint.OUTPOINT_INDEX_MASK ≠ 0 then
    none
  else
    let fHasAssetIssuance := !txin.assetIssuance.IsNull
    let n := (txin.prevout.n &&& COutPoint.OUTPOINT_INDEX_MASK) |||
      (if fHasAssetIssuance then COutPoint.OUTPOINT_ISSUANCE_FLAG else 0) |||
      (if txin.m_is_pegin then COutPoint.OUTPOINT_PEGIN_FLAG else 0)
    some (⟨txin.prevout.hash, n⟩, fHasAssetIssuance)

def CTxIn.Serialize (g : Globals) (txin : CTxIn) : Option (List UInt8) :=
  (CTxIn.WriteOutpoint g txin).map fun (outpoint, fHasAssetIssuance) =>
    outpoint.Serialize ++ SerializeByteVector txin.scriptSig ++ ser_writedata32 txin.nSequence ++
      (if fHasAssetIssuance then txin.assetIssuance.Serialize else [])

/-- What `Unserialize` makes of the outpoint it read: whether an issuance
follows, the prevout, and the peg-in flag. -/
def CTxIn.ReadOutpoint (g : Globals) (outpoint : COutPoint) : Bool × COutPoint × Bool :=
  if !g.g_con_elementsmode || outpoint.n = 0xffffffff then
    (false, outpoint, false)
  else
    (outpoint.n &&& COutPoint.OUTPOINT_ISSUANCE_FLAG != 0,
      ⟨outpoint.hash, outpoint.n &&& COutPoint.OUTPOINT_INDEX_MASK⟩,
      outpoint.n &&& COutPoint.OUTPOINT_PEGIN_FLAG != 0)

def CTxIn.Unserialize (g : Globals) (this : CTxIn) : Decoder CTxIn :=
  COutPoint.Unserialize >>= fun outpoint =>
    let read := CTxIn.ReadOutpoint g outpoint
    UnserializeByteVector >>= fun scriptSig =>
      ser_readdata32 >>= fun nSequence =>
        if read.1 then
          CAssetIssuance.Unserialize >>= fun assetIssuance =>
            if assetIssuance.IsNull then fail superfluousIssuance
            else Pure.pure { this with
              prevout := read.2.1, m_is_pegin := read.2.2, scriptSig := scriptSig,
              nSequence := nSequence, assetIssuance := assetIssuance }
        else
          Pure.pure { this with
            prevout := read.2.1, m_is_pegin := read.2.2, scriptSig := scriptSig,
            nSequence := nSequence, assetIssuance := this.assetIssuance.SetNull }

/-!
## Outputs
-/

structure CTxOut where
  nAsset : CConfidentialAsset
  nValue : CConfidentialValue
  nNonce : CConfidentialNonce
  scriptPubKey : CScript
deriving DecidableEq, Repr

def CTxOut.empty (g : Globals) : CTxOut :=
  ⟨CConfidentialAsset.empty g, ⟨[]⟩, ⟨[]⟩, []⟩

def CTxOut.Serialize (g : Globals) (txout : CTxOut) : Option (List UInt8) :=
  if g.g_con_elementsmode then
    some (txout.nAsset.Serialize ++ txout.nValue.Serialize ++ txout.nNonce.Serialize ++
      SerializeByteVector txout.scriptPubKey)
  else
    (txout.nValue.GetAmount g).map fun amount =>
      ser_writedata64 amount.toUInt64 ++ SerializeByteVector txout.scriptPubKey

def CTxOut.Unserialize (g : Globals) (this : CTxOut) : Decoder CTxOut :=
  if g.g_con_elementsmode then do
    let nAsset <- CConfidentialCommitment.Unserialize
    let nValue <- CConfidentialCommitment.Unserialize
    let nNonce <- CConfidentialCommitment.Unserialize
    let scriptPubKey <- UnserializeByteVector
    Pure.pure { this with
      nAsset := nAsset, nValue := nValue, nNonce := nNonce, scriptPubKey := scriptPubKey }
  else do
    let value <- ser_readdata64
    let scriptPubKey <- UnserializeByteVector
    Pure.pure { this with
      nValue := CConfidentialValue.SetToAmount value.toInt64, scriptPubKey := scriptPubKey }

/-!
## Witnesses
-/

structure CTxInWitness where
  vchIssuanceAmountRangeproof : List UInt8
  vchInflationKeysRangeproof : List UInt8
  scriptWitness : CScriptWitness
  m_pegin_witness : CScriptWitness
deriving DecidableEq, Repr

def CTxInWitness.empty : CTxInWitness := ⟨[], [], ⟨[]⟩, ⟨[]⟩⟩

def CTxInWitness.IsNull (w : CTxInWitness) : Bool :=
  w.vchIssuanceAmountRangeproof.isEmpty && w.vchInflationKeysRangeproof.isEmpty &&
    w.scriptWitness.IsNull && w.m_pegin_witness.IsNull

def CTxInWitness.Serialize (w : CTxInWitness) : List UInt8 :=
  SerializeByteVector w.vchIssuanceAmountRangeproof ++
    SerializeByteVector w.vchInflationKeysRangeproof ++
    SerializeStack w.scriptWitness.stack ++ SerializeStack w.m_pegin_witness.stack

def CTxInWitness.Unserialize : Decoder CTxInWitness := do
  let vchIssuanceAmountRangeproof <- UnserializeByteVector
  let vchInflationKeysRangeproof <- UnserializeByteVector
  let scriptWitness <- UnserializeStack
  let m_pegin_witness <- UnserializeStack
  Pure.pure ⟨vchIssuanceAmountRangeproof, vchInflationKeysRangeproof, ⟨scriptWitness⟩,
    ⟨m_pegin_witness⟩⟩

structure CTxOutWitness where
  vchSurjectionproof : List UInt8
  vchRangeproof : List UInt8
deriving DecidableEq, Repr

def CTxOutWitness.empty : CTxOutWitness := ⟨[], []⟩

def CTxOutWitness.IsNull (w : CTxOutWitness) : Bool :=
  w.vchSurjectionproof.isEmpty && w.vchRangeproof.isEmpty

def CTxOutWitness.Serialize (w : CTxOutWitness) : List UInt8 :=
  SerializeByteVector w.vchSurjectionproof ++ SerializeByteVector w.vchRangeproof

def CTxOutWitness.Unserialize : Decoder CTxOutWitness := do
  let vchSurjectionproof <- UnserializeByteVector
  let vchRangeproof <- UnserializeByteVector
  Pure.pure ⟨vchSurjectionproof, vchRangeproof⟩

structure CTxWitness where
  vtxinwit : List CTxInWitness
  vtxoutwit : List CTxOutWitness
deriving DecidableEq, Repr

def CTxWitness.empty : CTxWitness := ⟨[], []⟩

def CTxWitness.IsNull (w : CTxWitness) : Bool :=
  w.vtxinwit.all CTxInWitness.IsNull && w.vtxoutwit.all CTxOutWitness.IsNull

/-- `Serialize`: every record, without counts; `none` is the assertion that
the witness is not null. -/
def CTxWitness.Serialize (w : CTxWitness) : Option (List UInt8) :=
  if w.IsNull then none
  else some ((w.vtxinwit.map CTxInWitness.Serialize).flatten ++
    (w.vtxoutwit.map CTxOutWitness.Serialize).flatten)

/-- `Unserialize` reads one record into each entry `this` already has. -/
def CTxWitness.Unserialize (this : CTxWitness) : Decoder CTxWitness :=
  replicate this.vtxinwit.length CTxInWitness.Unserialize >>= fun vtxinwit =>
    replicate this.vtxoutwit.length CTxOutWitness.Unserialize >>= fun vtxoutwit =>
      if (CTxWitness.mk vtxinwit vtxoutwit).IsNull then fail superfluousWitness
      else Pure.pure ⟨vtxinwit, vtxoutwit⟩

/-!
## Transactions
-/

/-- `CMutableTransaction`.  `nVersion` is an `int32_t`, kept as its bits. -/
structure CMutableTransaction where
  nVersion : UInt32
  vin : List CTxIn
  vout : List CTxOut
  nLockTime : UInt32
  witness : CTxWitness
deriving DecidableEq, Repr

def CMutableTransaction.HasWitness (tx : CMutableTransaction) : Bool :=
  !tx.witness.IsNull

/-- The witness as `SerializeTransaction` writes it: resized to one record per
input and per output. -/
def CMutableTransaction.ResizedWitness (tx : CMutableTransaction) : CTxWitness :=
  ⟨resize tx.witness.vtxinwit tx.vin.length CTxInWitness.empty,
    resize tx.witness.vtxoutwit tx.vout.length CTxOutWitness.empty⟩

/-- The script witnesses of the Bitcoin-compatible layout: for each input its
script witness, and its peg-in witness when it is a peg-in. -/
def SerializeCoreWitness (vin : List CTxIn) (vtxinwit : List CTxInWitness) : List UInt8 :=
  (List.zipWith (fun (txin : CTxIn) (w : CTxInWitness) =>
      SerializeStack w.scriptWitness.stack ++
        (if txin.m_is_pegin then SerializeStack w.m_pegin_witness.stack else []))
    vin vtxinwit).flatten

def UnserializeCoreInputWitness (txin : CTxIn) : Decoder CTxInWitness :=
  UnserializeStack >>= fun stack =>
    (if txin.m_is_pegin then UnserializeStack else Pure.pure []) >>= fun pegin =>
      Pure.pure { CTxInWitness.empty with scriptWitness := ⟨stack⟩, m_pegin_witness := ⟨pegin⟩ }

/-- `SerializeTransaction`; `none` is a failed assertion.  The source also
writes the resized witness back into `tx`. -/
def SerializeTransaction (g : Globals) (s : StreamFlags) (tx : CMutableTransaction) :
    Option (List UInt8) :=
  let fAllowWitness := !s.noWitness
  if tx.witness.vtxinwit.length ≤ tx.vin.length ∧
      tx.witness.vtxoutwit.length ≤ tx.vout.length then
    let flags : UInt8 := if fAllowWitness && tx.HasWitness then 1 else 0
    SerializeVector (CTxIn.Serialize g) tx.vin >>= fun vin =>
      SerializeVector (CTxOut.Serialize g) tx.vout >>= fun vout =>
        if g.g_con_elementsmode then
          -- Elements layout: all normal data first, the witnesses at the end
          (if flags &&& 1 ≠ 0 then tx.ResizedWitness.Serialize else some []) >>= fun witness =>
            some (ser_writedata32 tx.nVersion ++ ser_writedata8 flags ++ vin ++ vout ++
              ser_writedata32 tx.nLockTime ++ witness)
        else
          -- Bitcoin layout: an empty input vector and the flags mark the extended format
          some (ser_writedata32 tx.nVersion ++
            (if flags ≠ 0 then WriteCompactSize 0 ++ ser_writedata8 flags else []) ++
            vin ++ vout ++
            (if flags &&& 1 ≠ 0 then SerializeCoreWitness tx.vin tx.ResizedWitness.vtxinwit
              else []) ++
            ser_writedata32 tx.nLockTime)
  else
    none

/-- The Elements layout after `nVersion`. -/
def UnserializeTransactionElements (g : Globals) (nVersion : UInt32) :
    Decoder CMutableTransaction :=
  ser_readdata8 >>= fun flags =>
    UnserializeVector (CTxIn.Unserialize g CTxIn.empty) >>= fun vin =>
      UnserializeVector (CTxOut.Unserialize g (CTxOut.empty g)) >>= fun vout =>
        ser_readdata32 >>= fun nLockTime =>
          (if flags &&& 1 ≠ 0 then
            CTxWitness.Unserialize ⟨List.replicate vin.length CTxInWitness.empty,
                List.replicate vout.length CTxOutWitness.empty⟩ >>= fun witness =>
              if !(CMutableTransaction.mk nVersion vin vout nLockTime witness).HasWitness then
                fail superfluousWitness
              else Pure.pure (flags ^^^ 1, witness)
          else Pure.pure (flags, CTxWitness.empty)) >>= fun result =>
            if result.1 ≠ 0 then fail unknownOptionalData
            else Pure.pure ⟨nVersion, vin, vout, nLockTime, result.2⟩

/-- The Bitcoin-compatible layout after `nVersion`. -/
def UnserializeTransactionCore (g : Globals) (s : StreamFlags) (nVersion : UInt32) :
    Decoder CMutableTransaction :=
  let fAllowWitness := !s.noWitness
  UnserializeVector (CTxIn.Unserialize g CTxIn.empty) >>= fun vinFirst =>
    (if vinFirst.length = 0 ∧ fAllowWitness then
      -- an empty input vector is the dummy of the extended format, or a real empty one
      ser_readdata8 >>= fun flags =>
        if flags ≠ 0 then
          UnserializeVector (CTxIn.Unserialize g CTxIn.empty) >>= fun vin =>
            UnserializeVector (CTxOut.Unserialize g (CTxOut.empty g)) >>= fun vout =>
              Pure.pure (flags, vin, vout)
        else Pure.pure (flags, vinFirst, [])
    else
      UnserializeVector (CTxOut.Unserialize g (CTxOut.empty g)) >>= fun vout =>
        Pure.pure (0, vinFirst, vout)) >>= fun body =>
      (if body.1 &&& 1 ≠ 0 ∧ fAllowWitness then
        body.2.1.mapM UnserializeCoreInputWitness >>= fun vtxinwit =>
          let witness : CTxWitness :=
            ⟨vtxinwit, List.replicate body.2.2.length CTxOutWitness.empty⟩
          if !(CMutableTransaction.mk nVersion body.2.1 body.2.2 0 witness).HasWitness then
            fail superfluousWitness
          else Pure.pure (body.1 ^^^ 1, witness)
      else Pure.pure (body.1, CTxWitness.empty)) >>= fun result =>
        ser_readdata32 >>= fun nLockTime =>
          if result.1 ≠ 0 then fail unknownOptionalData
          else Pure.pure ⟨nVersion, body.2.1, body.2.2, nLockTime, result.2⟩

def UnserializeTransaction (g : Globals) (s : StreamFlags) : Decoder CMutableTransaction :=
  ser_readdata32 >>= fun nVersion =>
    if g.g_con_elementsmode then UnserializeTransactionElements g nVersion
    else UnserializeTransactionCore g s nVersion

end Elements
