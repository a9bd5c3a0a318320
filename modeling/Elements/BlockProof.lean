import Elements.Consensus.Params

/-!
# Block proofs

`block_proof.cpp` and `CheckBlockHeader`: the context-free check of a header's
signature (signed blocks) or proof of work.

`CheckProofGeneric` guards the script check with two size limits and two
assertions.  Legacy blocks are checked with an empty witness and dynamic
federation blocks with an empty `scriptSig`, and the assertions record the
belief that an over-long `scriptSig` only occurs without a witness and an
over-long witness only with one.  The limit for a dynamic federation header is
the `m_signblock_witness_limit` of its own `m_current` entry, which
`CheckProof` reads before any contextual check; an empty witness still
serializes to one byte, so a header whose limit is 0 and whose witness is
empty reaches `assert(is_dyna)` with `is_dyna` false.

An assertion failure is modelled as `none`.  The script interpreter behind
`GenericVerifyScript` and the proof-of-work target check are parameters: they
are only reached after both assertions.
-/

namespace Elements

/-!
## Script verification flags
-/

def SCRIPT_VERIFY_P2SH : UInt32 := (1 : UInt32) <<< 0
def SCRIPT_VERIFY_STRICTENC : UInt32 := (1 : UInt32) <<< 1
def SCRIPT_VERIFY_LOW_S : UInt32 := (1 : UInt32) <<< 3
def SCRIPT_VERIFY_NULLDUMMY : UInt32 := (1 : UInt32) <<< 4
def SCRIPT_VERIFY_SIGPUSHONLY : UInt32 := (1 : UInt32) <<< 5
def SCRIPT_VERIFY_MINIMALDATA : UInt32 := (1 : UInt32) <<< 6
def SCRIPT_VERIFY_CLEANSTACK : UInt32 := (1 : UInt32) <<< 8
def SCRIPT_VERIFY_WITNESS : UInt32 := (1 : UInt32) <<< 11
def SCRIPT_NO_SIGHASH_BYTE : UInt32 := (1 : UInt32) <<< 21

section

variable (GenericVerifyScript :
  CScript -> CScriptWitness -> CScript -> UInt32 -> CBlockHeader -> Bool)
variable (CheckProofOfWork : Uint256 -> UInt32 -> ConsensusParams -> Bool)
variable (SHA256D : List UInt8 -> Uint256)

def CheckProofGeneric (block : CBlockHeader) (max_block_signature_size : UInt32)
    (challenge scriptSig : CScript) (witness : CScriptWitness) : Option Bool :=
  -- Legacy blocks have empty witness, dynafed blocks have empty scriptSig
  let is_dyna := !witness.stack.isEmpty
  if scriptSig.length > max_block_signature_size.toNat then
    if !is_dyna then some false else none
  else if witness.GetSerializedSize > max_block_signature_size then
    if is_dyna then some false else none
  else
    let proof_flags := SCRIPT_VERIFY_P2SH ||| SCRIPT_VERIFY_STRICTENC |||
      SCRIPT_VERIFY_NULLDUMMY ||| SCRIPT_VERIFY_CLEANSTACK ||| SCRIPT_VERIFY_MINIMALDATA |||
      SCRIPT_VERIFY_SIGPUSHONLY ||| SCRIPT_VERIFY_LOW_S ||| SCRIPT_VERIFY_WITNESS |||
      (if is_dyna then 0 else SCRIPT_NO_SIGHASH_BYTE)
    some (GenericVerifyScript scriptSig witness challenge proof_flags block)

def CheckProof (g : Globals) (params : ConsensusParams) (block : CBlockHeader) :
    Option Bool :=
  if g.g_signed_blocks then
    let dynafed_params := block.m_dynafed_params
    if dynafed_params.IsNull then
      CheckProofGeneric GenericVerifyScript block params.max_block_signature_size
        params.signblockscript block.proof.solution ⟨[]⟩
    else
      CheckProofGeneric GenericVerifyScript block
        dynafed_params.m_current.m_signblock_witness_limit
        dynafed_params.m_current.m_signblockscript [] block.m_signblock_witness
  else
    (fun hash => CheckProofOfWork hash block.nBits params) <$> block.GetHash SHA256D g

/-- `CheckBlockHeader`: `some (.error reason)` is `state.Invalid(...)`, `none`
an assertion failure. -/
def CheckBlockHeader (g : Globals) (block : CBlockHeader) (consensusParams : ConsensusParams)
    (fCheckPOW : Bool) : Option (Except String Unit) :=
  if fCheckPOW then do
    let hash <- block.GetHash SHA256D g
    if hash = consensusParams.hashGenesisBlock then
      some (Except.ok ())
    else do
      let proof_ok <- CheckProof GenericVerifyScript CheckProofOfWork SHA256D g consensusParams block
      if proof_ok then some (Except.ok ())
      else some (Except.error (if g.g_signed_blocks then "block-proof-invalid" else "high-hash"))
  else
    some (Except.ok ())

end

/-!
## When the assertions fail
-/

theorem empty_witness_GetSerializedSize :
    (CScriptWitness.mk []).GetSerializedSize = 1 := by
  decide

theorem CheckProofGeneric_ne_none_of_witness {GenericVerifyScript :
      CScript -> CScriptWitness -> CScript -> UInt32 -> CBlockHeader -> Bool}
    (block : CBlockHeader) (limit : UInt32) (challenge scriptSig : CScript)
    (witness : CScriptWitness) (hwit : witness.stack ≠ []) :
    CheckProofGeneric GenericVerifyScript block limit challenge scriptSig witness ≠ none ↔
      ¬ (scriptSig.length > limit.toNat) := by
  have hdyna : (!witness.stack.isEmpty) = true := by
    cases hs : witness.stack with
    | nil => exact absurd hs hwit
    | cons x xs => rfl
  unfold CheckProofGeneric
  simp only [hdyna]
  by_cases hsig : scriptSig.length > limit.toNat
  · simp [hsig]
  · by_cases hsize : witness.GetSerializedSize > limit <;> simp [hsig, hsize]

theorem CheckProofGeneric_empty_witness_eq_none_iff {GenericVerifyScript :
      CScript -> CScriptWitness -> CScript -> UInt32 -> CBlockHeader -> Bool}
    (block : CBlockHeader) (limit : UInt32) (challenge scriptSig : CScript) :
    CheckProofGeneric GenericVerifyScript block limit challenge scriptSig ⟨[]⟩ = none ↔
      scriptSig.length ≤ limit.toNat ∧ limit = 0 := by
  unfold CheckProofGeneric
  simp only [List.isEmpty_nil, Bool.not_true]
  rw [empty_witness_GetSerializedSize]
  by_cases hsig : scriptSig.length > limit.toNat
  · simp only [hsig, if_true, Bool.not_false]
    constructor
    · intro h
      cases h
    · intro h
      omega
  · have hle : scriptSig.length ≤ limit.toNat := by omega
    by_cases hzero : limit = 0
    · subst hzero
      simp
    · have hpos : ¬ (1 : UInt32) > limit := by
        intro h1
        apply hzero
        apply UInt32.toNat_inj.mp
        have : limit.toNat < 1 := h1
        simp
        omega
      simp [hsig, hpos, hzero]

theorem CheckProof_eq_none_iff {GenericVerifyScript :
      CScript -> CScriptWitness -> CScript -> UInt32 -> CBlockHeader -> Bool}
    {CheckProofOfWork : Uint256 -> UInt32 -> ConsensusParams -> Bool}
    {SHA256D : List UInt8 -> Uint256} (g : Globals) (params : ConsensusParams)
    (block : CBlockHeader) (hsigned : g.g_signed_blocks = true) :
    CheckProof GenericVerifyScript CheckProofOfWork SHA256D g params block = none ↔
      (block.m_dynafed_params.IsNull = true ∧ block.proof.solution = [] ∧
          params.max_block_signature_size = 0) ∨
        (block.m_dynafed_params.IsNull = false ∧ block.m_signblock_witness.stack = [] ∧
          block.m_dynafed_params.m_current.m_signblock_witness_limit = 0) := by
  unfold CheckProof
  simp only [hsigned, if_true]
  cases hnull : block.m_dynafed_params.IsNull with
  | true =>
      simp only [if_true]
      rw [CheckProofGeneric_empty_witness_eq_none_iff]
      constructor
      · rintro ⟨hle, hzero⟩
        left
        refine ⟨by simp, ?_, hzero⟩
        rw [hzero] at hle
        exact List.eq_nil_of_length_eq_zero (by simpa using hle)
      · rintro (⟨-, hsol, hzero⟩ | ⟨hfalse, -, -⟩)
        · rw [hsol, hzero]
          simp
        · cases hfalse
  | false =>
      simp only [Bool.false_eq_true, if_false]
      cases hwit : block.m_signblock_witness with
      | mk stack =>
          cases stack with
          | nil =>
              rw [CheckProofGeneric_empty_witness_eq_none_iff]
              constructor
              · rintro ⟨-, hzero⟩
                exact Or.inr ⟨by simp, rfl, hzero⟩
              · rintro (⟨hfalse, -, -⟩ | ⟨-, -, hzero⟩)
                · cases hfalse
                · exact ⟨by simp, hzero⟩
          | cons item items =>
              have hne := @CheckProofGeneric_ne_none_of_witness GenericVerifyScript block
                block.m_dynafed_params.m_current.m_signblock_witness_limit
                block.m_dynafed_params.m_current.m_signblockscript [] ⟨item :: items⟩
                (by simp)
              constructor
              · intro h
                exact absurd h (hne.mpr (by simp))
              · rintro (⟨hfalse, -, -⟩ | ⟨-, hstack, -⟩)
                · cases hfalse
                · cases hstack

/-!
## A received header that aborts validation

The bytes below are a complete dynamic federation header: `nVersion` with the
HF bit, zero hashes, time and height, a pruned `m_current` with an empty
signblockscript and witness limit 0, a null `m_proposed`, and an empty
signblock witness.
-/

def zeroLimitHeaderBytes : List UInt8 :=
  [0x00, 0x00, 0x00, 0x80] ++ List.replicate 32 0 ++ List.replicate 32 0 ++
    [0, 0, 0, 0] ++ [0, 0, 0, 0] ++
    [1, 0, 0, 0, 0, 0] ++ List.replicate 32 0 ++ [0] ++ [0]

def zeroLimitHeader : CBlockHeader :=
  { CBlockHeader.empty with
    m_dynafed_params :=
      ⟨DynaFedParamEntry.pruned [] 0 (BaseBlob.zero 32), DynaFedParamEntry.empty⟩ }

theorem zeroLimitHeader_Unserialize (g : Globals) :
    CBlockHeader.Unserialize g StreamFlags.network CBlockHeader.empty zeroLimitHeaderBytes =
      Except.ok (zeroLimitHeader, []) := by
  rfl

theorem CheckProof_aborts_on_zero_limit_header
    (GenericVerifyScript : CScript -> CScriptWitness -> CScript -> UInt32 -> CBlockHeader -> Bool)
    (CheckProofOfWork : Uint256 -> UInt32 -> ConsensusParams -> Bool)
    (SHA256D : List UInt8 -> Uint256) (params : ConsensusParams)
    (heightInHeader elementsMode : Bool) :
    CBlockHeader.Unserialize ⟨true, heightInHeader, elementsMode⟩ StreamFlags.network
        CBlockHeader.empty zeroLimitHeaderBytes = Except.ok (zeroLimitHeader, []) ∧
      CheckProof GenericVerifyScript CheckProofOfWork SHA256D ⟨true, heightInHeader, elementsMode⟩
        params zeroLimitHeader = none ∧
      (zeroLimitHeader.GetHash SHA256D ⟨true, heightInHeader, elementsMode⟩ =
          some params.hashGenesisBlock ∨
        CheckBlockHeader GenericVerifyScript CheckProofOfWork SHA256D
          ⟨true, heightInHeader, elementsMode⟩ zeroLimitHeader params true = none) := by
  have habort : CheckProof GenericVerifyScript CheckProofOfWork SHA256D
      ⟨true, heightInHeader, elementsMode⟩ params zeroLimitHeader = none := by
    apply (CheckProof_eq_none_iff _ params zeroLimitHeader rfl).mpr
    right
    exact ⟨by decide, rfl, rfl⟩
  refine ⟨zeroLimitHeader_Unserialize _, habort, ?_⟩
  cases hhash : zeroLimitHeader.GetHash SHA256D ⟨true, heightInHeader, elementsMode⟩ with
  | none =>
      right
      simp [CheckBlockHeader, hhash]
  | some hash =>
      by_cases hgen : hash = params.hashGenesisBlock
      · left
        rw [hgen]
      · right
        simp [CheckBlockHeader, hhash, hgen, habort]

end Elements
