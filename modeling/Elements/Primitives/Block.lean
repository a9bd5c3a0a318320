import Elements.Serialize

/-!
# Block headers

The data of `primitives/block.h`: the legacy block proof `CProof`, the dynamic
federation parameters `DynaFedParamEntry` and `DynaFedParams`, and
`CBlockHeader` with its two wire layouts.

The encoder chooses the layout from `m_dynafed_params.IsNull()`: a header with
parameters is written with the "HF bit" `DYNAFED_HF_MASK` ORed into `nVersion`,
followed by the block height, the parameters and (outside hashing and
witness-free streams) the block signature witness; any other header is written
in the legacy layout, whose optional height and proof fields depend on the
node-wide switches `g_con_blockheightinheader` and `g_signed_blocks`.  The
decoder chooses the layout from the sign of the `int32_t` it reads and clears
the HF bit.

`nVersion` is an `int32_t` in the source; it is kept here as the `UInt32` of
its two's-complement bits, which is what is serialized, masked and tested for
sign.

Every `Unserialize` overwrites the fields it reads in an existing object
`this` and leaves the others alone, as the C++ member functions do; a header
received from a peer is decoded into a default-constructed `CBlockHeader`,
`CBlockHeader.empty`.
-/

namespace Elements

open Codec Codec.Decoder

/-- A script, as the bytes of its `prevector`. -/
abbrev CScript := List UInt8

/-- The node-wide consensus switches that change serialization and proofs. -/
structure Globals where
  g_signed_blocks : Bool
  g_con_blockheightinheader : Bool
  g_con_elementsmode : Bool
deriving DecidableEq, Repr

/-- What a stream tells its serializers: `SER_GETHASH` in its type, and
`SERIALIZE_TRANSACTION_NO_WITNESS` in its version. -/
structure StreamFlags where
  getHash : Bool
  noWitness : Bool
deriving DecidableEq, Repr

/-- The stream of the network and of disk: neither hashing nor witness-free. -/
def StreamFlags.network : StreamFlags := ⟨false, false⟩

/-- The stream of `SerializeHash`. -/
def StreamFlags.hash : StreamFlags := ⟨true, false⟩

/-!
## Witness stacks
-/

structure CScriptWitness where
  stack : List (List UInt8)
deriving DecidableEq, Repr

def CScriptWitness.IsNull (w : CScriptWitness) : Bool :=
  w.stack.isEmpty

/-- `GetSerializedSize`: the size of the serialized stack, returned as a
`uint32_t`. -/
def CScriptWitness.GetSerializedSize (w : CScriptWitness) : UInt32 :=
  UInt32.ofNat (SerializeStack w.stack).length

/-!
## The legacy proof
-/

structure CProof where
  challenge : CScript
  solution : CScript
deriving DecidableEq, Repr

def CProof.empty : CProof := ⟨[], []⟩

def CProof.IsNull (p : CProof) : Bool :=
  p.challenge.isEmpty

def CProof.Serialize (s : StreamFlags) (p : CProof) : List UInt8 :=
  SerializeByteVector p.challenge ++
    (if s.getHash then [] else SerializeByteVector p.solution)

def CProof.Unserialize (s : StreamFlags) (this : CProof) : Decoder CProof := do
  let challenge <- UnserializeByteVector
  if s.getHash then
    Pure.pure { this with challenge := challenge }
  else do
    let solution <- UnserializeByteVector
    Pure.pure { challenge := challenge, solution := solution }

/-!
## Dynamic federation parameters
-/

/-- One set of dynamic federation parameters.  `m_serialize_type` is 0 for a
null entry (a "no vote" proposal), 1 for a pruned entry whose non-signing
fields are committed to by `m_elided_root`, 2 for a full entry. -/
structure DynaFedParamEntry where
  m_serialize_type : UInt8
  m_signblockscript : CScript
  m_signblock_witness_limit : UInt32
  m_fedpeg_program : CScript
  m_fedpegscript : CScript
  m_extension_space : List (List UInt8)
  m_elided_root : Uint256
deriving DecidableEq, Repr

def DynaFedParamEntry.empty : DynaFedParamEntry :=
  ⟨0, [], 0, [], [], [], BaseBlob.zero 32⟩

/-- The pruned constructor, which sets serialize type 1. -/
def DynaFedParamEntry.pruned (signblockscript_in : CScript) (sbs_wit_limit_in : UInt32)
    (elided_root_in : Uint256) : DynaFedParamEntry :=
  { DynaFedParamEntry.empty with
    m_serialize_type := 1
    m_signblockscript := signblockscript_in
    m_signblock_witness_limit := sbs_wit_limit_in
    m_elided_root := elided_root_in }

/-- The full constructor, which sets serialize type 2. -/
def DynaFedParamEntry.full (signblockscript_in : CScript) (sbs_wit_limit_in : UInt32)
    (fedpeg_program_in fedpegscript_in : CScript)
    (extension_space_in : List (List UInt8)) : DynaFedParamEntry :=
  { DynaFedParamEntry.empty with
    m_serialize_type := 2
    m_signblockscript := signblockscript_in
    m_signblock_witness_limit := sbs_wit_limit_in
    m_fedpeg_program := fedpeg_program_in
    m_fedpegscript := fedpegscript_in
    m_extension_space := extension_space_in }

def DynaFedParamEntry.IsNull (e : DynaFedParamEntry) : Bool :=
  e.m_serialize_type == 0 && e.m_signblockscript.isEmpty &&
    e.m_signblock_witness_limit == 0 && e.m_fedpeg_program.isEmpty &&
    e.m_fedpegscript.isEmpty && e.m_extension_space.isEmpty

/-- `SetNull` clears every field but the elided root. -/
def DynaFedParamEntry.SetNull (e : DynaFedParamEntry) : DynaFedParamEntry :=
  { e with
    m_serialize_type := 0
    m_signblockscript := []
    m_signblock_witness_limit := 0
    m_fedpeg_program := []
    m_fedpegscript := []
    m_extension_space := [] }

/-- `operator==`, which compares every field except `m_elided_root`. -/
def DynaFedParamEntry.operatorEq (a b : DynaFedParamEntry) : Bool :=
  a.m_serialize_type == b.m_serialize_type &&
    a.m_signblockscript == b.m_signblockscript &&
    a.m_signblock_witness_limit == b.m_signblock_witness_limit &&
    a.m_fedpeg_program == b.m_fedpeg_program &&
    a.m_fedpegscript == b.m_fedpegscript &&
    a.m_extension_space == b.m_extension_space

def invalidEntryType : String := "Invalid consensus parameter entry type"

/-- `Serialize`; `none` is the `assert(false)` on an unknown serialize type. -/
def DynaFedParamEntry.Serialize (e : DynaFedParamEntry) : Option (List UInt8) :=
  if e.m_serialize_type = 0 then
    some [0]
  else if e.m_serialize_type = 1 then
    some ([1] ++ SerializeByteVector e.m_signblockscript ++
      ser_writedata32 e.m_signblock_witness_limit ++ e.m_elided_root.Serialize)
  else if e.m_serialize_type = 2 then
    some ([2] ++ SerializeByteVector e.m_signblockscript ++
      ser_writedata32 e.m_signblock_witness_limit ++
      SerializeByteVector e.m_fedpeg_program ++ SerializeByteVector e.m_fedpegscript ++
      SerializeStack e.m_extension_space)
  else
    none

def DynaFedParamEntry.Unserialize (this : DynaFedParamEntry) : Decoder DynaFedParamEntry :=
  ser_readdata8 >>= fun t =>
    if t = 0 then
      Pure.pure { this with m_serialize_type := 0 }
    else if t = 1 then do
      let signblockscript <- UnserializeByteVector
      let limit <- ser_readdata32
      let elided_root <- BaseBlob.Unserialize 32
      Pure.pure { this with
        m_serialize_type := 1
        m_signblockscript := signblockscript
        m_signblock_witness_limit := limit
        m_elided_root := elided_root }
    else if t = 2 then do
      let signblockscript <- UnserializeByteVector
      let limit <- ser_readdata32
      let fedpeg_program <- UnserializeByteVector
      let fedpegscript <- UnserializeByteVector
      let extension_space <- UnserializeStack
      Pure.pure { this with
        m_serialize_type := 2
        m_signblockscript := signblockscript
        m_signblock_witness_limit := limit
        m_fedpeg_program := fedpeg_program
        m_fedpegscript := fedpegscript
        m_extension_space := extension_space }
    else
      fail invalidEntryType

/-- The current and proposed parameters a dynamic federation header carries. -/
structure DynaFedParams where
  m_current : DynaFedParamEntry
  m_proposed : DynaFedParamEntry
deriving DecidableEq, Repr

def DynaFedParams.empty : DynaFedParams :=
  ⟨DynaFedParamEntry.empty, DynaFedParamEntry.empty⟩

def DynaFedParams.IsNull (p : DynaFedParams) : Bool :=
  p.m_current.IsNull && p.m_proposed.IsNull

def DynaFedParams.Serialize (p : DynaFedParams) : Option (List UInt8) := do
  let current <- p.m_current.Serialize
  let proposed <- p.m_proposed.Serialize
  some (current ++ proposed)

def DynaFedParams.Unserialize (this : DynaFedParams) : Decoder DynaFedParams := do
  let current <- this.m_current.Unserialize
  let proposed <- this.m_proposed.Unserialize
  Pure.pure ⟨current, proposed⟩

/-!
## The header
-/

structure CBlockHeader where
  nVersion : UInt32
  hashPrevBlock : Uint256
  hashMerkleRoot : Uint256
  nTime : UInt32
  block_height : UInt32
  nBits : UInt32
  nNonce : UInt32
  proof : CProof
  m_dynafed_params : DynaFedParams
  m_signblock_witness : CScriptWitness
deriving DecidableEq, Repr

/-- A default-constructed header: the constructor runs `SetNull`, and the
dynamic federation fields keep their default member values. -/
def CBlockHeader.empty : CBlockHeader :=
  ⟨0, BaseBlob.zero 32, BaseBlob.zero 32, 0, 0, 0, 0, CProof.empty, DynaFedParams.empty, ⟨[]⟩⟩

/-- The "HF bit" that marks the dynamic federation layout, `1 << 31`. -/
def DYNAFED_HF_MASK : UInt32 := 0x80000000

/-- `nVersion < 0` for the `int32_t` whose bits are `v`. -/
def Int32IsNegative (v : UInt32) : Bool :=
  decide (DYNAFED_HF_MASK ≤ v)

/-- `Serialize`; `none` when a parameter entry has an unknown serialize type. -/
def CBlockHeader.Serialize (g : Globals) (s : StreamFlags) (h : CBlockHeader) :
    Option (List UInt8) :=
  let fAllowWitness := !s.noWitness
  if !h.m_dynafed_params.IsNull then do
    let params <- h.m_dynafed_params.Serialize
    some (ser_writedata32 (h.nVersion ||| DYNAFED_HF_MASK) ++ h.hashPrevBlock.Serialize ++
      h.hashMerkleRoot.Serialize ++ ser_writedata32 h.nTime ++ ser_writedata32 h.block_height ++
      params ++
      (if !s.getHash && fAllowWitness then SerializeStack h.m_signblock_witness.stack else []))
  else
    some (ser_writedata32 h.nVersion ++ h.hashPrevBlock.Serialize ++
      h.hashMerkleRoot.Serialize ++ ser_writedata32 h.nTime ++
      (if g.g_con_blockheightinheader then ser_writedata32 h.block_height else []) ++
      (if g.g_signed_blocks then h.proof.Serialize s
        else ser_writedata32 h.nBits ++ ser_writedata32 h.nNonce))

/-- The fields after `nVersion` in the dynamic federation layout. -/
def CBlockHeader.UnserializeDyna (s : StreamFlags) (this : CBlockHeader) :
    Decoder CBlockHeader := do
  let hashPrevBlock <- BaseBlob.Unserialize 32
  let hashMerkleRoot <- BaseBlob.Unserialize 32
  let nTime <- ser_readdata32
  let block_height <- ser_readdata32
  let params <- this.m_dynafed_params.Unserialize
  let witness <-
    (if !s.getHash && !s.noWitness then UnserializeStack
      else Pure.pure this.m_signblock_witness.stack)
  Pure.pure { this with
    hashPrevBlock := hashPrevBlock
    hashMerkleRoot := hashMerkleRoot
    nTime := nTime
    block_height := block_height
    m_dynafed_params := params
    m_signblock_witness := ⟨witness⟩ }

/-- The fields after `nVersion` in the legacy layout. -/
def CBlockHeader.UnserializeLegacy (g : Globals) (s : StreamFlags) (this : CBlockHeader) :
    Decoder CBlockHeader := do
  let hashPrevBlock <- BaseBlob.Unserialize 32
  let hashMerkleRoot <- BaseBlob.Unserialize 32
  let nTime <- ser_readdata32
  let block_height <-
    (if g.g_con_blockheightinheader then ser_readdata32 else Pure.pure this.block_height)
  if g.g_signed_blocks then do
    let proof <- this.proof.Unserialize s
    Pure.pure { this with
      hashPrevBlock := hashPrevBlock
      hashMerkleRoot := hashMerkleRoot
      nTime := nTime
      block_height := block_height
      proof := proof }
  else do
    let nBits <- ser_readdata32
    let nNonce <- ser_readdata32
    Pure.pure { this with
      hashPrevBlock := hashPrevBlock
      hashMerkleRoot := hashMerkleRoot
      nTime := nTime
      block_height := block_height
      nBits := nBits
      nNonce := nNonce }

def CBlockHeader.Unserialize (g : Globals) (s : StreamFlags) (this : CBlockHeader) :
    Decoder CBlockHeader :=
  ser_readdata32 >>= fun nVersion =>
    let this := { this with nVersion := ~~~DYNAFED_HF_MASK &&& nVersion }
    if Int32IsNegative nVersion then this.UnserializeDyna s
    else this.UnserializeLegacy g s

/-- `GetHash`, the double SHA-256 of the hashing serialization; `none` when
serialization asserts. -/
def CBlockHeader.GetHash (SHA256D : List UInt8 -> Uint256) (g : Globals) (h : CBlockHeader) :
    Option Uint256 :=
  SHA256D <$> h.Serialize g StreamFlags.hash

end Elements
