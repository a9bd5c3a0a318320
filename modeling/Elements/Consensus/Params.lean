import Elements.Primitives.Block

/-!
# Consensus parameters

The fields of `Consensus::Params` (`consensus/params.h`) that the modelled
validation code reads.  Fields the modelled code never reads are left out.
-/

namespace Elements

/-- `Consensus::BIP9Deployment::ALWAYS_ACTIVE`, the start time of a deployment
that is active from genesis. -/
def ALWAYS_ACTIVE : Int := -1

structure ConsensusParams where
  hashGenesisBlock : Uint256
  /-- Maximum block signature size for legacy (pre-dynamic-federation) blocks. -/
  max_block_signature_size : UInt32
  signblockscript : CScript
  dynamic_epoch_length : UInt32
  total_valid_epochs : Nat
  genesis_style : String
  /-- `vDeployments[DEPLOYMENT_DYNA_FED].nStartTime`. -/
  dynafed_nStartTime : Int
  fedpegScript : CScript
  start_p2wsh_script : Bool
  first_extension_space : List (List UInt8)

end Elements
