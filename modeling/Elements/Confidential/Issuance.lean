import Elements.Primitives.FastMerkle
import Elements.Primitives.Amount

/-!
# Asset issuance

`issuance.cpp`: a new issuance draws its entropy from the outpoint it spends
and a contract hash; the issued asset and its reissuance token are fast Merkle
roots over that entropy and a constant, 1 for the token of an issuance with an
explicit amount and 2 for the token of one with a blinded amount.

The constants are `uint256S` of a hex number, which stores the number's bytes
least significant first.
-/

namespace Elements

def kZero : Uint256 := BaseBlob.zero 32

def kOne : Uint256 := ⟨1 :: List.replicate 31 0, rfl⟩

def kTwo : Uint256 := ⟨2 :: List.replicate 31 0, rfl⟩

/-- `GenerateAssetEntropy`: `E = H(H(I) || H(C))` over the outpoint `I` and the
contract hash `C`. -/
def GenerateAssetEntropy (H : Hashes) (prevout : COutPoint) (contracthash : Uint256) : Uint256 :=
  FastMerkleRoot H.MerkleHash_Sha256Midstate [H.SHA256D prevout.Serialize, contracthash] (by simp)

/-- `CalculateAsset`: `H(E || 0)`. -/
def CalculateAsset (H : Hashes) (entropy : Uint256) : CAsset :=
  FastMerkleRoot H.MerkleHash_Sha256Midstate [entropy, kZero] (by simp)

/-- `CalculateReissuanceToken`: `H(E || 1)`, or `H(E || 2)` for a confidential
issuance. -/
def CalculateReissuanceToken (H : Hashes) (entropy : Uint256) (fConfidential : Bool) : CAsset :=
  FastMerkleRoot H.MerkleHash_Sha256Midstate [entropy, if fConfidential then kTwo else kOne]
    (by simp)

variable (H : Hashes)

end Elements
