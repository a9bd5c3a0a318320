import Elements.Serialize

/-!
# Hash functions

The hash primitives the consensus code calls.  They are not modelled bit by
bit: every function that hashes takes them as a parameter.
-/

namespace Elements

structure Hashes where
  /-- `CSHA256`: one SHA-256 over the bytes. -/
  SHA256 : List UInt8 -> Uint256
  /-- `CHash256`: SHA-256 applied twice; `SerializeHash` of an object is this
  over its serialization. -/
  SHA256D : List UInt8 -> Uint256
  /-- `Hash160`: RIPEMD-160 of SHA-256. -/
  Hash160 : List UInt8 -> Uint160
  /-- `MerkleHash_Sha256Midstate`: the SHA-256 compression of the two children,
  without padding. -/
  MerkleHash_Sha256Midstate : Uint256 -> Uint256 -> Uint256

end Elements
