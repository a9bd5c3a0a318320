import Mathlib.Data.ZMod.Basic
import Elements.Codec.LittleEndian
import Elements.Serialize

/-!
# libsecp256k1-zkp

The blinding code of the wallet and of PSETs and the amount check of
consensus call the generator, Pedersen commitment, range proof and surjection
proof primitives of libsecp256k1-zkp.  The group is not modelled: those calls
are a structure of functions over a type `G` of generators, `C` of Pedersen
commitments and `P` of surjection proofs, with `none` where a call returns 0.

The scalar calls on secret keys and blinding factors are plain arithmetic
modulo the group order and are modelled exactly: a scalar is the 32-byte
big-endian number the call reads, and a call fails where libsecp256k1 returns
0, on an operand that is not below the order or on a zero key.
-/

namespace Elements

open Codec

/-!
## Keys
-/

/-- `CKey`: a secret key, `none` when not valid; a valid key's bytes are the
32-byte secret. -/
structure CKey where
  keydata : Option Uint256
deriving DecidableEq, Repr

def CKey.IsValid (key : CKey) : Bool := key.keydata.isSome

/-- `CPubKey`: the serialized key, whose first byte fixes its length. -/
structure CPubKey where
  vch : List UInt8
deriving DecidableEq, Repr

def CPubKey.GetLen (chHeader : UInt8) : Nat :=
  if chHeader = 2 ∨ chHeader = 3 then 33
  else if chHeader = 4 ∨ chHeader = 6 ∨ chHeader = 7 then 65
  else 0

def CPubKey.size (key : CPubKey) : Nat :=
  match key.vch with
  | [] => 0
  | chHeader :: _ => CPubKey.GetLen chHeader

def CPubKey.IsValid (key : CPubKey) : Bool := key.size > 0

/-!
## The primitives
-/

/-- The libsecp256k1-zkp calls the model does not compute. -/
structure Secp256k1Zkp (G C P : Type) where
  /-- `secp256k1_generator_generate`: the unblinded generator of a 32-byte tag. -/
  generator_generate : Uint256 -> Option G
  /-- `secp256k1_generator_generate_blinded`: the tag's generator blinded by a
  scalar. -/
  generator_generate_blinded : Uint256 -> Uint256 -> Option G
  generator_parse : List UInt8 -> Option G
  generator_serialize : G -> List UInt8
  /-- A `secp256k1_generator` made by a `memcpy` of these bytes into a zeroed
  one, not by a call: the bytes are its internal representation. -/
  generator_of_data : List UInt8 -> G
  /-- `secp256k1_pedersen_commit`: blinding factor, value and generator. -/
  pedersen_commit : Uint256 -> UInt64 -> G -> Option C
  pedersen_commitment_parse : List UInt8 -> Option C
  pedersen_commitment_serialize : C -> List UInt8
  /-- `secp256k1_pedersen_verify_tally` of the input and the output commitments. -/
  pedersen_verify_tally : List C -> List C -> Bool
  /-- `secp256k1_rangeproof_sign`: minimum value, commitment, blinding factor,
  nonce, exponent, minimum bits, value, message, extra commitment, generator. -/
  rangeproof_sign : UInt64 -> C -> Uint256 -> Uint256 -> Int -> Int -> UInt64 ->
    List UInt8 -> List UInt8 -> G -> Option (List UInt8)
  /-- `CachingRangeProofChecker::VerifyRangeProof`: the proof, the value
  commitment, the asset commitment and the script it commits to. -/
  VerifyRangeProof : List UInt8 -> List UInt8 -> List UInt8 -> List UInt8 -> Bool
  /-- `secp256k1_rangeproof_verify` of a commitment, a proof and a generator,
  with no extra commitment: the least and the greatest value proved. -/
  rangeproof_verify : C -> List UInt8 -> G -> Option (UInt64 × UInt64)
  /-- `secp256k1_surjectionproof_initialize`: the fixed input tags, how many to
  use, the output tag, the iteration bound and the seed; the proof and the
  index of the input it proves against. -/
  surjectionproof_initialize : List Uint256 -> Nat -> Uint256 -> Nat -> Uint256 -> Option (P × Nat)
  /-- `secp256k1_surjectionproof_generate`: the ephemeral input tags, the output
  tag, the input index, its blinding factor and the output's. -/
  surjectionproof_generate : P -> List G -> G -> Nat -> Uint256 -> Uint256 -> Option P
  surjectionproof_verify : P -> List G -> G -> Bool
  surjectionproof_serialize : P -> List UInt8
  surjectionproof_parse : List UInt8 -> Option P
  /-- `secp256k1_ec_pubkey_parse` of a public key's bytes. -/
  ec_pubkey_parse : List UInt8 -> Bool
  /-- `CKey::GetPubKey` of a secret: the compressed public key. -/
  GetPubKey : Uint256 -> CPubKey
  /-- `CKey::ECDH`: the shared secret of a secret key and a public key. -/
  ECDH : Uint256 -> CPubKey -> Uint256

/-- `CPubKey::IsFullyValid`: valid, and a point of the curve. -/
def CPubKey.IsFullyValid {G C P : Type} (secp : Secp256k1Zkp G C P) (key : CPubKey) : Bool :=
  key.IsValid && secp.ec_pubkey_parse key.vch

/-!
## Scalars
-/

def SECP256K1_N : Nat := 0xFFFFFFFFFFFFFFFFFFFFFFFFFFFFFFFEBAAEDCE6AF48A03BBFD25E8CD0364141

/-- `secp256k1_scalar_set_b32` before the reduction: the 32 bytes read big-endian. -/
def scalar_of_b32 (b32 : Uint256) : Nat := decodeLE b32.data.reverse

/-- `secp256k1_scalar_get_b32`: a number below `2 ^ 256` as 32 big-endian bytes. -/
def b32_of_scalar (x : Nat) : Uint256 := ⟨(encodeLE 32 x).reverse, by simp⟩

/-- `secp256k1_ec_seckey_negate`: `n - k` of a valid key `0 < k < n`. -/
def secp256k1_ec_seckey_negate (seckey : Uint256) : Option Uint256 :=
  let sec := scalar_of_b32 seckey
  if sec < SECP256K1_N ∧ sec ≠ 0 then some (b32_of_scalar ((SECP256K1_N - sec) % SECP256K1_N))
  else none

/-- `secp256k1_ec_seckey_tweak_add`: `k + t` of a valid key and a tweak below the
order, unless the sum is zero. -/
def secp256k1_ec_seckey_tweak_add (seckey tweak32 : Uint256) : Option Uint256 :=
  let sec := scalar_of_b32 seckey
  let term := scalar_of_b32 tweak32
  if sec < SECP256K1_N ∧ sec ≠ 0 ∧ term < SECP256K1_N ∧ (sec + term) % SECP256K1_N ≠ 0 then
    some (b32_of_scalar ((sec + term) % SECP256K1_N))
  else none

/-- `secp256k1_ec_seckey_tweak_mul`: `k * t` of a valid key and a non-zero tweak
below the order. -/
def secp256k1_ec_seckey_tweak_mul (seckey tweak32 : Uint256) : Option Uint256 :=
  let sec := scalar_of_b32 seckey
  let factor := scalar_of_b32 tweak32
  if sec < SECP256K1_N ∧ sec ≠ 0 ∧ factor < SECP256K1_N ∧ factor ≠ 0 then
    some (b32_of_scalar (sec * factor % SECP256K1_N))
  else none

/-- A 32-byte scalar as an element of the integers modulo the group order. -/
def ScalarValue (b32 : Uint256) : ZMod SECP256K1_N := scalar_of_b32 b32

theorem SECP256K1_N_lt : SECP256K1_N < 2 ^ 256 := by
  simp [SECP256K1_N]

theorem scalar_of_b32_b32_of_scalar {x : Nat} (hx : x < 2 ^ 256) : scalar_of_b32 (b32_of_scalar x) = x := by
  have hpow : (256 : Nat) ^ 32 = 2 ^ 256 := by norm_num
  show decodeLE (encodeLE 32 x).reverse.reverse = x
  rw [List.reverse_reverse, decodeLE_encodeLE, hpow, Nat.mod_eq_of_lt hx]

theorem scalar_of_b32_eq_zero_iff (b32 : Uint256) : scalar_of_b32 b32 = 0 ↔ b32.IsNull = true := by
  simp [scalar_of_b32, decodeLE_eq_zero_iff, BaseBlob.IsNull, List.mem_reverse]

theorem ScalarValue_of_IsNull {b32 : Uint256} (h : b32.IsNull = true) : ScalarValue b32 = 0 := by
  simp [ScalarValue, (scalar_of_b32_eq_zero_iff b32).mpr h]

theorem ScalarValue_b32_of_scalar_mod (x : Nat) :
    ScalarValue (b32_of_scalar (x % SECP256K1_N)) = x := by
  have hlt : x % SECP256K1_N < 2 ^ 256 :=
    lt_trans (Nat.mod_lt x (by simp [SECP256K1_N])) SECP256K1_N_lt
  simp [ScalarValue, scalar_of_b32_b32_of_scalar hlt]

theorem secp256k1_ec_seckey_negate_spec {seckey result : Uint256}
    (h : secp256k1_ec_seckey_negate seckey = some result) : ScalarValue result = -ScalarValue seckey := by
  unfold secp256k1_ec_seckey_negate at h
  dsimp only at h
  split_ifs at h with hvalid
  cases h
  rw [ScalarValue_b32_of_scalar_mod, Nat.cast_sub hvalid.1.le, ZMod.natCast_self, zero_sub]
  rfl

theorem secp256k1_ec_seckey_tweak_add_spec {seckey tweak32 result : Uint256}
    (h : secp256k1_ec_seckey_tweak_add seckey tweak32 = some result) :
    ScalarValue result = ScalarValue seckey + ScalarValue tweak32 := by
  unfold secp256k1_ec_seckey_tweak_add at h
  dsimp only at h
  split_ifs at h
  cases h
  rw [ScalarValue_b32_of_scalar_mod, Nat.cast_add]
  rfl

theorem secp256k1_ec_seckey_tweak_mul_spec {seckey tweak32 result : Uint256}
    (h : secp256k1_ec_seckey_tweak_mul seckey tweak32 = some result) :
    ScalarValue result = ScalarValue seckey * ScalarValue tweak32 := by
  unfold secp256k1_ec_seckey_tweak_mul at h
  dsimp only at h
  split_ifs at h
  cases h
  rw [ScalarValue_b32_of_scalar_mod, Nat.cast_mul]
  rfl

/-- The sum of `secp256k1_pedersen_blind_generator_blind_sum`'s loop: each entry
`(v, r, r')` adds `v * r + r'`, negated for the first `n_inputs` entries;
`none` on a factor that is not below the order. -/
def BlindSum (n_inputs : Nat) : Nat -> List (UInt64 × Uint256 × Uint256) -> Option Int
  | _, [] => some 0
  | i, (value, generator_blind, blinding_factor) :: rest =>
    if scalar_of_b32 generator_blind < SECP256K1_N ∧ scalar_of_b32 blinding_factor < SECP256K1_N then
      let addend : Int := value.toNat * scalar_of_b32 generator_blind + scalar_of_b32 blinding_factor
      (BlindSum n_inputs (i + 1) rest).map fun sum =>
        (if i < n_inputs then -addend else addend) + sum
    else none

/-- `secp256k1_pedersen_blind_generator_blind_sum` over its `n_total` entries, the
last of which is the factor it replaces: the new last blinding factor, which
makes the outputs' `v * r + r'` sum to the inputs'.  The caller passes more
entries than inputs. -/
def secp256k1_pedersen_blind_generator_blind_sum (entries : List (UInt64 × Uint256 × Uint256))
    (n_inputs : Nat) : Option Uint256 :=
  match entries.getLast? with
  | none => none
  | some (_, _, last) =>
    (BlindSum n_inputs 0 entries).map fun sum =>
      b32_of_scalar (((scalar_of_b32 last : Int) - sum) % SECP256K1_N).toNat

/-!
## A free model of the primitives

Generators, commitments and proofs that record what they were made from: two
of them are equal exactly when they were made alike.  Serializations carry the
prefix byte of their kind, so that the encodings the code checks are valid.
Every proof verifies, but no range proof reveals the value it proves.
-/

inductive FreeGenerator where
  | generate (tag : Uint256)
  | blinded (tag blind : Uint256)
  | parsed (bytes : List UInt8)
  | raw (bytes : List UInt8)
deriving DecidableEq, Repr

inductive FreeCommitment where
  | commit (blind : Uint256) (value : UInt64) (gen : FreeGenerator)
  | parsed (bytes : List UInt8)
deriving DecidableEq, Repr

inductive FreeProof where
  | initialized (tags : List Uint256) (output : Uint256) (input_index : Nat)
  | generated (gens : List FreeGenerator) (output : FreeGenerator) (input_index : Nat)
  | parsed (bytes : List UInt8)
deriving DecidableEq, Repr

/-- A 33-byte encoding with a prefix byte of the kind and the 32 bytes of a tag. -/
def FreeEncoding (pfx : UInt8) (body : Uint256) : List UInt8 := pfx :: body.data

def FreeSecp : Secp256k1Zkp FreeGenerator FreeCommitment FreeProof where
  generator_generate tag := some (.generate tag)
  generator_generate_blinded tag blind :=
    if scalar_of_b32 blind < SECP256K1_N then some (.blinded tag blind) else none
  generator_parse bytes :=
    if bytes.length = 33 ∧ (bytes.head? = some 10 ∨ bytes.head? = some 11) then some (.parsed bytes)
    else none
  generator_serialize
    | .generate tag => FreeEncoding 10 tag
    | .blinded tag _ => FreeEncoding 11 tag
    | .parsed bytes => bytes
    | .raw bytes => bytes
  generator_of_data bytes := .raw bytes
  pedersen_commit blind value gen :=
    if scalar_of_b32 blind < SECP256K1_N ∧ (value ≠ 0 ∨ ¬ blind.IsNull) then some (.commit blind value gen)
    else none
  pedersen_commitment_parse bytes :=
    if bytes.length = 33 ∧ (bytes.head? = some 8 ∨ bytes.head? = some 9) then some (.parsed bytes)
    else none
  pedersen_commitment_serialize
    | .commit blind _ _ => FreeEncoding 8 blind
    | .parsed bytes => bytes
  pedersen_verify_tally _ _ := true
  rangeproof_sign _ _ _ _ _ _ _ _ _ _ := some [1]
  VerifyRangeProof _ _ _ _ := true
  rangeproof_verify _ _ _ := none
  surjectionproof_initialize tags _ output _ _ :=
    if output ∈ tags then some (.initialized tags output (tags.idxOf output), tags.idxOf output)
    else none
  surjectionproof_generate _ gens output input_index _ _ := some (.generated gens output input_index)
  surjectionproof_verify _ _ _ := true
  surjectionproof_serialize _ := [2]
  surjectionproof_parse bytes := some (.parsed bytes)
  ec_pubkey_parse _ := true
  GetPubKey key := ⟨FreeEncoding 2 key⟩
  ECDH key _ := key

end Elements
