import Elements.Codec.Decoder
import Elements.Codec.LittleEndian
import Elements.Codec.Bits
import Elements.Serialize
import Elements.Primitives.Block
import Elements.Primitives.BlockCodec
import Elements.Primitives.Transaction
import Elements.Primitives.TransactionCodec
import Elements.Consensus.Params
import Elements.BlockProof
import Elements.Crypto.Hashes
import Elements.Primitives.FastMerkle
import Elements.Dynafed
import Elements.Dynafed.Epochs
import Elements.Dynafed.VoteTally
import Elements.Data.FinMapUpdate
import Elements.Coins
import Elements.Coins.State
import Elements.Coins.Layer
import Elements.Coins.Refinement
import Elements.Data.CallTree
import Elements.Coins.View
import Elements.Data.ExceptFold
import Elements.Data.MarkOnce
import Elements.Primitives.Amount
import Elements.Consensus.TxVerify
import Elements.Validation.CheckBlock
import Elements.Validation.Connect
import Elements.Validation.ConnectTip
import Elements.Validation.PeginClaims
import Elements.Validation.BlockReward
import Elements.Dynafed.FedpegScripts
import Elements.Confidential.Issuance
import Elements.Crypto.Secp
import Elements.Confidential.VerifyAmounts
import Elements.Confidential.Blind
import Elements.Confidential.BlindTargets
import Elements.Confidential.BlindAborts
import Elements.Confidential.CommitBuffer
import Elements.Confidential.Conservation
import Elements.Psbt.Pset
import Elements.Psbt.BlindPsbt
import Elements.Psbt.BlindPsbtTargets
import Elements.Psbt.ScalarBalance
import Elements.Address.ConvertBits
import Elements.Address.Bech32
import Elements.Address.Base58
import Elements.Data.BinaryCounter
import Elements.Data.TwosComplement
import Elements.Data.ReservedVector
import Elements.Data.Selection
import Elements.Script.Script
import Elements.Script.Arith64
import Elements.Script.Shift
import Elements.Script.Introspection
import Elements.Wallet.CoinSelection
import Elements.Coins.Compressor
import Elements.Data.BlockStream
import Elements.Crypto.Sha256
import Elements.Script.StreamingHash
import Elements.Data.MerkleLevels
import Elements.Consensus.Merkle
import Elements.Primitives.MerkleBlock
import Elements.Primitives.MerkleBlockCodec
import Elements.Arith.BaseUint
import Elements.Arith.Compact
import Elements.Consensus.Pow
