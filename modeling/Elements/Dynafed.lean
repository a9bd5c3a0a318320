import Elements.Primitives.FastMerkle
import Elements.Primitives.Block
import Elements.Consensus.Params

/-!
# Dynamic federation parameters along a chain

`dynafed.cpp` and `ContextualCheckDynaFedHeader` of `validation.cpp`.

Time is cut into epochs of `dynamic_epoch_length` blocks.  A header carries the
parameters in force, `m_current`, and a proposal, `m_proposed`.  The block that
starts an epoch publishes the full entry in force for the epoch: the proposal
that at least four fifths of the previous epoch voted for, and otherwise the
entry of the previous epoch's start (or, before any dynamic federation header,
an entry rebuilt from the legacy block signing challenge).  The other blocks of
the epoch publish the pruned entry, whose fields other than the block signing
script are replaced by their Merkle root.

A chain of headers is a list indexed by height; `pindexPrev` of the next block
is its last element and `GetAncestor` is indexing.  Whether the deployment is
active after `pindexPrev` comes from the BIP9 state machine, which is not
modelled: it is an argument.
-/

namespace Elements

open Codec

/-!
## Roots
-/

/-- `CalculateExtraRoot`: the root of the fields a pruned entry leaves out. -/
def DynaFedParamEntry.CalculateExtraRoot (H : Hashes) (e : DynaFedParamEntry) : Uint256 :=
  FastMerkleRoot H.MerkleHash_Sha256Midstate
    [H.SHA256D (SerializeByteVector e.m_fedpeg_program),
      H.SHA256D (SerializeByteVector e.m_fedpegscript),
      H.SHA256D (SerializeStack e.m_extension_space)] (by simp)

/-- `CalculateRoot`: zero for a null entry; otherwise the root over the
signing fields and the extra root, which a pruned entry stores and a full entry
computes. -/
def DynaFedParamEntry.CalculateRoot (H : Hashes) (e : DynaFedParamEntry) : Uint256 :=
  if e.m_serialize_type = 0 then BaseBlob.zero 32
  else
    let compact_root := FastMerkleRoot H.MerkleHash_Sha256Midstate
      [H.SHA256D (SerializeByteVector e.m_signblockscript),
        H.SHA256D (ser_writedata32 e.m_signblock_witness_limit)] (by simp)
    let extra_root :=
      if e.m_serialize_type = 1 then e.m_elided_root
      else if e.m_serialize_type = 2 then e.CalculateExtraRoot H
      else BaseBlob.zero 32
    FastMerkleRoot H.MerkleHash_Sha256Midstate [compact_root, extra_root] (by simp)

/-!
## Scripts
-/

def OP_0 : UInt8 := 0x00

def OP_PUSHDATA1 : UInt8 := 0x4c

def OP_PUSHDATA2 : UInt8 := 0x4d

def OP_PUSHDATA4 : UInt8 := 0x4e

def OP_1 : UInt8 := 0x51

def OP_16 : UInt8 := 0x60

def OP_DEPTH : UInt8 := 0x74

def OP_EQUAL : UInt8 := 0x87

def OP_HASH160 : UInt8 := 0xa9

/-- `CScript::operator<<(std::vector<unsigned char>)`: a push of `b`. -/
def CScript.PushData (b : List UInt8) : List UInt8 :=
  (if b.length < OP_PUSHDATA1.toNat then [UInt8.ofNat b.length]
    else if b.length ≤ 0xff then [OP_PUSHDATA1, UInt8.ofNat b.length]
    else if b.length ≤ 0xffff then OP_PUSHDATA2 :: encodeLE 2 b.length
    else OP_PUSHDATA4 :: encodeLE 4 b.length) ++ b

/-- `CScript::IsWitnessProgram`: a version opcode followed by one push of the
rest of the script, 4 to 42 bytes in all. -/
def CScript.IsWitnessProgram (script : CScript) : Bool :=
  match script with
  | version :: size :: _ =>
      decide (4 ≤ script.length) && decide (script.length ≤ 42) &&
        (version == OP_0 || (decide (OP_1 ≤ version) && decide (version ≤ OP_16))) &&
        size.toNat + 2 == script.length
  | _ => false

/-- The witness version `IsWitnessProgram` reports, `DecodeOP_N` of the first
byte. -/
def CScript.WitnessVersion (script : CScript) : Nat :=
  match script with
  | version :: _ => if version == OP_0 then 0 else version.toNat - 0x50
  | [] => 0

/-!
## The parameters in force
-/

/-- A chain of headers indexed by height. -/
abbrev Chain := List CBlockHeader

/-- `NextBlockIsParameterTransition`: at an epoch start, walk the previous
epoch from its last block down and return the first proposal whose root is
non-null and has reached four fifths of the epoch's votes.  `none` is a failed
assertion: a zero epoch length, or an ancestor missing. -/
def NextBlockIsParameterTransition (H : Hashes) (chain : Chain) (consensus : ConsensusParams) :
    Option (Option DynaFedParamEntry) :=
  let next_height := chain.length
  let epoch_length := consensus.dynamic_epoch_length.toNat
  if epoch_length = 0 then none
  else if next_height % epoch_length ≠ 0 then some none
  else if next_height < epoch_length then none
  else
    -- `(dynamic_epoch_length * 4) / 5` is computed in `uint32_t`
    let threshold := (consensus.dynamic_epoch_length * 4 / 5).toNat
    VoteTally H chain threshold (next_height - epoch_length) epoch_length (fun _ => 0)
where
  /-- The vote loop over the heights `bottom + remaining - 1` down to `bottom`,
  with `vote_tally` counting the roots seen so far. -/
  VoteTally (H : Hashes) (chain : Chain) (threshold bottom : Nat) :
      Nat -> (Uint256 -> Nat) -> Option (Option DynaFedParamEntry)
    | 0, _ => some none
    | remaining + 1, vote_tally =>
        match chain[bottom + remaining]? with
        | none => none
        | some p_epoch_walk =>
            let proposal := p_epoch_walk.m_dynafed_params.m_proposed
            let proposal_root := proposal.CalculateRoot H
            let vote_tally := Function.update vote_tally proposal_root
              (vote_tally proposal_root + 1)
            if !proposal_root.IsNull && threshold ≤ vote_tally proposal_root then
              some (some proposal)
            else VoteTally H chain threshold bottom remaining vote_tally

/-- The legacy parameters rebuilt from a block signing challenge: P2WSH of the
challenge, and the fedpeg script as native or P2SH-wrapped P2WSH. -/
def LegacyParamEntry (H : Hashes) (consensus : ConsensusParams) (challenge : CScript) :
    DynaFedParamEntry :=
  let p2wsh_signblock_script := [OP_0] ++ CScript.PushData (H.SHA256 challenge).data
  let fedpeg_p2sw := [OP_0] ++ CScript.PushData (H.SHA256 consensus.fedpegScript).data
  if consensus.start_p2wsh_script then
    DynaFedParamEntry.full p2wsh_signblock_script consensus.max_block_signature_size fedpeg_p2sw
      consensus.fedpegScript consensus.first_extension_space
  else
    let sh_wsh_fedpeg_program :=
      [OP_HASH160] ++ CScript.PushData (H.Hash160 fedpeg_p2sw).data ++ [OP_EQUAL]
    DynaFedParamEntry.full p2wsh_signblock_script consensus.max_block_signature_size
      sh_wsh_fedpeg_program consensus.fedpegScript consensus.first_extension_space

/-- The height of the epoch start whose entry stays in force when there is no
transition: the current epoch's start, the previous one's at an epoch boundary,
and block 1 instead of the genesis block on a chain that is dynamic from the
start. -/
def EpochStartHeight (consensus : ConsensusParams) (next_height : Nat) : Nat :=
  let epoch_length := consensus.dynamic_epoch_length.toNat
  let epoch_age := next_height % epoch_length
  let epoch_start_height :=
    if epoch_age = 0 then next_height - epoch_age - epoch_length else next_height - epoch_age
  if consensus.genesis_style = "elements" ∧ epoch_start_height = 0 ∧ 1 < next_height ∧
      consensus.dynafed_nStartTime = ALWAYS_ACTIVE then 1
  else epoch_start_height

/-- The full entry an epoch start block leaves in force: its `m_current`, or
the legacy parameters of its challenge when it predates dynamic federation. -/
def EpochStartParams (H : Hashes) (consensus : ConsensusParams) (p_epoch_start : CBlockHeader) :
    DynaFedParamEntry :=
  if p_epoch_start.m_dynafed_params.IsNull then
    LegacyParamEntry H consensus p_epoch_start.proof.challenge
  else p_epoch_start.m_dynafed_params.m_current

/-- `ComputeNextBlockFullCurrentParameters`; `none` is a failed assertion. -/
def ComputeNextBlockFullCurrentParameters (H : Hashes) (chain : Chain)
    (consensus : ConsensusParams) : Option DynaFedParamEntry :=
  if chain.isEmpty then none
  else
    NextBlockIsParameterTransition H chain consensus >>= fun winning =>
      match winning with
      | some winning_proposal => some winning_proposal
      | none =>
          (chain[EpochStartHeight consensus chain.length]?).map (EpochStartParams H consensus)

/-- `ComputeNextBlockCurrentParameters`: the full entry at an epoch start or
right after activation, its pruned form otherwise. -/
def ComputeNextBlockCurrentParameters (H : Hashes) (chain : Chain)
    (consensus : ConsensusParams) : Option DynaFedParamEntry :=
  ComputeNextBlockFullCurrentParameters H chain consensus >>= fun entry =>
    chain.getLast?.map fun pindexPrev =>
      if chain.length % consensus.dynamic_epoch_length.toNat = 0 ∨
          pindexPrev.m_dynafed_params.IsNull then entry
      else DynaFedParamEntry.pruned entry.m_signblockscript entry.m_signblock_witness_limit
        (entry.CalculateExtraRoot H)

/-!
## The header check
-/

def emptyCurrentParams : String :=
  "dynamic block headers must have non-empty current signblockscript field"

def unknownHFBits : String := "dynamic block header has unknown HF extension bits set"

def currentParamsMismatch : String :=
  "dynamic block header's current parameters do not match expected"

def proposedSignblockscriptNotSegwit : String :=
  "proposed signblockscript must be native segwit scriptPubkey"

def proposedFedpegProgramNotSegwit : String :=
  "proposed fedpeg program must be native segwit scriptPubkey"

def proposedFedpegscriptMismatch : String :=
  "proposed v0 segwit fedpegscript must match proposed fedpeg witness program"

def proposedFedpegscriptOpDepth : String :=
  "Proposed fedpegscript starts with OP_DEPTH, which is illegal"

def extensionSpaceNotPak : String := "Extension space is not list of valid PAK entries"

/-- The HF extension bits 23 to 26 of `nVersion`, reserved for a future fork. -/
def reserved_mask : UInt32 :=
  ((1 : UInt32) <<< 23) ||| ((1 : UInt32) <<< 24) ||| ((1 : UInt32) <<< 25) ||| ((1 : UInt32) <<< 26)

/-- The rules on a non-null proposal, against the full parameters in force. -/
def CheckProposedParams (H : Hashes) (enforcePak : Bool)
    (PAKListIsReject : List (List UInt8) -> Bool) (current proposed : DynaFedParamEntry) :
    Except String Unit := do
  if proposed.m_signblockscript ≠ current.m_signblockscript then
    -- signblockscript proposals must be segwit versions
    if !proposed.m_signblockscript.IsWitnessProgram then
      throw proposedSignblockscriptNotSegwit
  if proposed.m_fedpeg_program ≠ current.m_fedpeg_program ∨
      proposed.m_fedpegscript ≠ current.m_fedpegscript then
    if !proposed.m_fedpeg_program.IsWitnessProgram then
      throw proposedFedpegProgramNotSegwit
    -- for v0 the fedpegscript must hash to the program; v1 and later are unencumbered
    if proposed.m_fedpeg_program.WitnessVersion = 0 then
      if [OP_0] ++ CScript.PushData (H.SHA256 proposed.m_fedpegscript).data ≠
          proposed.m_fedpeg_program then
        throw proposedFedpegscriptMismatch
      if proposed.m_fedpegscript.head? = some OP_DEPTH then
        throw proposedFedpegscriptOpDepth
  if proposed.m_extension_space ≠ current.m_extension_space then
    if enforcePak then
      if proposed.m_extension_space ≠ [] ∧ PAKListIsReject proposed.m_extension_space then
        throw extensionSpaceNotPak

/-- `ContextualCheckDynaFedHeader` for a header on top of `chain`; `active` is
`DeploymentActiveAfter(pindexPrev, DEPLOYMENT_DYNA_FED)`.  Every rejection has
the reason `invalid-dyna-fed`; the error is its debug message.  `none` is a
failed assertion in the parameter computation. -/
def ContextualCheckDynaFedHeader (H : Hashes) (consensus : ConsensusParams) (enforcePak : Bool)
    (PAKListIsReject : List (List UInt8) -> Bool) (active : Bool) (chain : Chain)
    (block : CBlockHeader) : Option (Except String Unit) :=
  if !active then some (Except.ok ())
  else
    let dynafed_params := block.m_dynafed_params
    if dynafed_params.m_current.IsNull then some (Except.error emptyCurrentParams)
    else if block.nVersion &&& reserved_mask ≠ 0 then some (Except.error unknownHFBits)
    else
      ComputeNextBlockCurrentParameters H chain consensus >>= fun expected_current_params =>
        if !expected_current_params.operatorEq dynafed_params.m_current then
          some (Except.error currentParamsMismatch)
        else if !dynafed_params.m_proposed.IsNull then
          (ComputeNextBlockFullCurrentParameters H chain consensus).map fun current =>
            CheckProposedParams H enforcePak PAKListIsReject current dynafed_params.m_proposed
        else some (Except.ok ())

end Elements
