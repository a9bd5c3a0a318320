import Elements.Arith.Compact
import Elements.Dynafed.FedpegScripts

/-!
# Proof of work

`pow.cpp`, and `CheckParentProofOfWork` of `pegins.cpp`, which checks the
proof of work of the parent chain's blocks that peg-ins cite.

A block's hash passes the check when it is at most the target its compact
`nBits` stands for, and that target is positive, not negative and within the
chain's limit.  Read through the compact form and the 256-bit arithmetic,
the check compares the hash with the exact target: no wrap-around or
overflow lets a larger hash through (`CheckProofOfWorkAgainst_iff`).

Every `DifficultyAdjustmentInterval()` blocks the target is scaled by the
time the interval took against the time it should have taken, the ratio held
within a factor of four, and capped at the limit.  As long as the product of
the old target and the time fits 256 bits, the new compact target is that
quotient rounded down to its top bytes (`CalculateNextWorkRequired_retarget`,
and `GetNextWorkRequired_retarget` at the end of an interval of a chain).
Between those heights the target stays, or, where the chain allows it, drops
to the limit for a late block.  Whatever the parameters, no chain that passes
`CheckChallenge` block after block carries a target above the limit
(`Accepted_target_le`).

`int64_t` arithmetic on the parameters is kept as `Int`; the conversions to
`uint32_t` and `uint64_t` that the calls into `arith_uint256` make are the
wrapping ones of the source.
-/

namespace Elements

open Nat Codec

/-- The proof-of-work fields of `Consensus::Params`. -/
structure PowParams where
  powLimit : Uint256
  fPowAllowMinDifficultyBlocks : Bool
  fPowNoRetargeting : Bool
  nPowTargetSpacing : Int
  nPowTargetTimespan : Int
  parentChainPowLimit : Uint256

/-- `DifficultyAdjustmentInterval()`, in `int64_t` division. -/
def PowParams.DifficultyAdjustmentInterval (params : PowParams) : Int :=
  params.nPowTargetTimespan.tdiv params.nPowTargetSpacing

/-! ## Checking a hash against its target -/

/-- The range check and the comparison of `CheckProofOfWork`, against the
limit it is given. -/
def CheckProofOfWorkAgainst (hash : Uint256) (nBits : UInt32) (powLimit : Uint256) : Bool :=
  let r := arith_uint256.SetCompact nBits
  let bnTarget := r.1
  let fNegative := r.2.1
  let fOverflow := r.2.2
  -- Check range
  if fNegative || bnTarget.EqualTo 0 || fOverflow || decide (bnTarget.CompareTo (UintToArith256 powLimit) > 0) then
    false
  -- Check proof of work matches claimed amount
  else if (UintToArith256 hash).CompareTo bnTarget > 0 then false
  else true

/-- `CheckProofOfWork`, against `powLimit`. -/
def CheckProofOfWork (hash : Uint256) (nBits : UInt32) (params : PowParams) : Bool :=
  CheckProofOfWorkAgainst hash nBits params.powLimit

/-- `CheckParentProofOfWork` of `pegins.cpp`, against `parentChainPowLimit`. -/
def CheckParentProofOfWork (hash : Uint256) (nBits : UInt32) (params : PowParams) : Bool :=
  CheckProofOfWorkAgainst hash nBits params.parentChainPowLimit

theorem decodeLE_lt_two_pow (a : Uint256) : decodeLE a.data < 2 ^ 256 := by
  have h := decodeLE_lt a.data
  rwa [a.length_data] at h

/-- The check passes exactly when the target `nBits` stands for is positive,
has no sign, is at most the limit, and the hash is at most the target; the
limit and the hash read as little-endian numbers. -/
theorem CheckProofOfWorkAgainst_iff (hash : Uint256) (nBits : UInt32) (powLimit : Uint256) :
    CheckProofOfWorkAgainst hash nBits powLimit = true ↔
      nBits.toNat.testBit 23 = false ∧ 0 < CompactValue nBits ∧ CompactValue nBits ≤ decodeLE powLimit.data ∧
        decodeLE hash.data ≤ CompactValue nBits := by
  have hlimit := decodeLE_lt_two_pow powLimit
  have hneg := arith_uint256.SetCompact_negative_iff nBits
  have hover := arith_uint256.SetCompact_overflow_iff nBits
  have hval := arith_uint256.toNat_SetCompact nBits
  have hzero := base_uint.EqualTo_iff 6 (arith_uint256.SetCompact nBits).1 0
  rw [UInt64.toNat_zero] at hzero
  simp only [CheckProofOfWorkAgainst, base_uint.CompareTo_pos_iff, toNat_UintToArith256]
  rw [hval] at hzero ⊢
  constructor
  · intro h
    split_ifs at h with hrange hhash
    · -- every range check failed and the hash is within the target
      simp only [Bool.or_eq_true, decide_eq_true_eq, not_or] at hrange
      obtain ⟨⟨⟨hn, hz⟩, ho⟩, hl⟩ := hrange
      have hfits : CompactValue nBits < 2 ^ 256 := Nat.lt_of_not_le fun h => ho (hover.mpr h)
      rw [Nat.mod_eq_of_lt hfits] at hzero hl hhash
      have hpos : 0 < CompactValue nBits := Nat.pos_of_ne_zero fun h => hz (hzero.mpr h)
      refine ⟨?_, hpos, Nat.le_of_not_lt hl, Nat.le_of_not_lt hhash⟩
      cases hbit : nBits.toNat.testBit 23
      · rfl
      · exact absurd (hneg.mpr ⟨Nat.pos_iff_ne_zero.mp hpos, hbit⟩) hn
  · rintro ⟨hsign, hpos, hle, hhash⟩
    have hfits : CompactValue nBits < 2 ^ 256 := Nat.lt_of_le_of_lt hle hlimit
    have hn : (arith_uint256.SetCompact nBits).2.1 = false := by
      rw [Bool.eq_false_iff, Ne, hneg, hsign]
      simp
    have ho : (arith_uint256.SetCompact nBits).2.2 = false := by
      rw [Bool.eq_false_iff, Ne, hover]
      omega
    have hz : (arith_uint256.SetCompact nBits).1.EqualTo 0 = false := by
      rw [Bool.eq_false_iff, Ne, hzero, Nat.mod_eq_of_lt hfits]
      omega
    rw [hn, ho, hz, Nat.mod_eq_of_lt hfits, if_neg (by simp; omega), if_neg (by omega)]

/-! ## Retargeting -/

/-- `GetBlockTime()`: the header's `nTime` widened to `int64_t`. -/
def CBlockHeader.GetBlockTime (b : CBlockHeader) : Int := b.nTime.toNat

/-- The limit on the adjustment step of `CalculateNextWorkRequired`: the time
the interval took, brought into `[nPowTargetTimespan / 4, nPowTargetTimespan * 4]`. -/
def LimitTimespan (params : PowParams) (nActualTimespan : Int) : Int :=
  let nActualTimespan :=
    if nActualTimespan < params.nPowTargetTimespan.tdiv 4 then params.nPowTargetTimespan.tdiv 4 else nActualTimespan
  if nActualTimespan > params.nPowTargetTimespan * 4 then params.nPowTargetTimespan * 4 else nActualTimespan

/-- `CalculateNextWorkRequired`.  The timespan goes into `operator*=(uint32_t)`
and the target timespan into `operator/=` through `base_uint(uint64_t)`, both
by the wrapping conversions of the source; `none` where `operator/=` throws
or `GetCompact` fails an assertion. -/
def CalculateNextWorkRequired (pindexLast : CBlockHeader) (nFirstBlockTime : Int) (params : PowParams) :
    Option UInt32 :=
  if params.fPowNoRetargeting then some pindexLast.nBits
  else
    -- Limit adjustment step
    let nActualTimespan := LimitTimespan params (pindexLast.GetBlockTime - nFirstBlockTime)
    -- Retarget
    let bnPowLimit := UintToArith256 params.powLimit
    let bnNew := (arith_uint256.SetCompact pindexLast.nBits).1
    let bnNew := bnNew.MulWord (UInt32.ofInt nActualTimespan)
    match bnNew.Div (base_uint.ofUInt64 8 (UInt64.ofInt params.nPowTargetTimespan)) with
    | .error _ => none
    | .ok bnNew =>
      let bnNew := if bnNew.CompareTo bnPowLimit > 0 then bnPowLimit else bnNew
      bnNew.GetCompact false

/-- The target a retarget aims at, in exact arithmetic: the old target scaled
by the limited timespan over the target timespan, capped at the limit. -/
def RetargetValue (params : PowParams) (nBits : UInt32) (nActualTimespan : Int) : Nat :=
  min (CompactValue nBits * (LimitTimespan params nActualTimespan).toNat / params.nPowTargetTimespan.toNat)
    (decodeLE params.powLimit.data)

theorem toNat_ofInt_uint32 {x : Int} (h0 : 0 ≤ x) (h : x < 2 ^ 32) : (UInt32.ofInt x).toNat = x.toNat := by
  unfold UInt32.ofInt
  rw [Int.emod_eq_of_lt h0 (by omega), UInt32.toNat_ofNat', Nat.mod_eq_of_lt (by omega)]

theorem toNat_ofInt_uint64 {x : Int} (h0 : 0 ≤ x) (h : x < 2 ^ 64) : (UInt64.ofInt x).toNat = x.toNat := by
  unfold UInt64.ofInt
  rw [Int.emod_eq_of_lt h0 (by omega), UInt64.toNat_ofNat', Nat.mod_eq_of_lt (by omega)]

section LimitTimespan

variable (params : PowParams) (x : Int)

theorem le_LimitTimespan (hT : 0 ≤ params.nPowTargetTimespan) :
    params.nPowTargetTimespan.tdiv 4 ≤ LimitTimespan params x := by
  unfold LimitTimespan
  dsimp only
  rw [Int.tdiv_eq_ediv_of_nonneg hT]
  split_ifs <;> omega

theorem LimitTimespan_le : LimitTimespan params x ≤ params.nPowTargetTimespan * 4 := by
  unfold LimitTimespan
  dsimp only
  split_ifs <;> omega

theorem LimitTimespan_nonneg (hT : 0 ≤ params.nPowTargetTimespan) : 0 ≤ LimitTimespan params x := by
  have h := le_LimitTimespan params x hT
  rw [Int.tdiv_eq_ediv_of_nonneg hT] at h
  omega

end LimitTimespan

theorem toNat_cap {WIDTH : Nat} (a b : base_uint WIDTH) :
    (if a.CompareTo b > 0 then b else a).toNat = min a.toNat b.toNat := by
  split_ifs with h
  · rw [base_uint.CompareTo_pos_iff] at h
    omega
  · rw [base_uint.CompareTo_pos_iff] at h
    omega

theorem toNat_MulWord_SetCompact {nBits : UInt32} {n : Nat} (hn : n < 2 ^ 32) (hfit : CompactValue nBits * n < 2 ^ 256) :
    ((arith_uint256.SetCompact nBits).1.MulWord (UInt32.ofNat n)).toNat = CompactValue nBits * n := by
  rw [base_uint.toNat_MulWord, arith_uint256.toNat_SetCompact, UInt32.toNat_ofNat', Nat.mod_eq_of_lt hn]
  rcases Nat.eq_zero_or_pos n with rfl | hpos
  · simp
  · have hfits : CompactValue nBits < 2 ^ 256 := Nat.lt_of_le_of_lt (Nat.le_mul_of_pos_right _ hpos) hfit
    rw [Nat.mod_eq_of_lt hfits, Nat.mod_eq_of_lt hfit]

/-- With retargeting on, a positive target timespan whose fourfold fits 32
bits, and an old target whose product with the limited timespan fits 256
bits, the new compact target is the compact form of `RetargetValue`: the exact
quotient, capped at the limit, rounded down to its top bytes. -/
theorem CalculateNextWorkRequired_retarget (pindexLast : CBlockHeader) (nFirstBlockTime : Int) (params : PowParams)
    (hret : params.fPowNoRetargeting = false) (hT : 0 < params.nPowTargetTimespan)
    (hT4 : params.nPowTargetTimespan * 4 < 2 ^ 32)
    (hfit : CompactValue pindexLast.nBits *
      (LimitTimespan params (pindexLast.GetBlockTime - nFirstBlockTime)).toNat < 2 ^ 256) :
    ∃ c, CalculateNextWorkRequired pindexLast nFirstBlockTime params = some c ∧
      IsCompactOf (RetargetValue params pindexLast.nBits (pindexLast.GetBlockTime - nFirstBlockTime)) c := by
  generalize hspan : pindexLast.GetBlockTime - nFirstBlockTime = span at hfit
  have hlo := LimitTimespan_nonneg params span hT.le
  have hhi := LimitTimespan_le params span
  -- the timespan converts to `uint32_t` unchanged, the target timespan to `uint64_t`
  have hword : UInt32.ofInt (LimitTimespan params span) = UInt32.ofNat (LimitTimespan params span).toNat :=
    UInt32.toNat_inj.mp (by rw [toNat_ofInt_uint32 hlo (by omega), UInt32.toNat_ofNat', Nat.mod_eq_of_lt (by omega)])
  have hprod := toNat_MulWord_SetCompact (show (LimitTimespan params span).toNat < 2 ^ 32 by omega) hfit
  have hdivisor : (base_uint.ofUInt64 8 (UInt64.ofInt params.nPowTargetTimespan)).toNat =
      params.nPowTargetTimespan.toNat := by
    rw [base_uint.toNat_ofUInt64 6, toNat_ofInt_uint64 hT.le (by omega)]
  obtain ⟨q, hq, hqv⟩ := base_uint.toNat_Div
    ((arith_uint256.SetCompact pindexLast.nBits).1.MulWord (UInt32.ofInt (LimitTimespan params span)))
    (base_uint.ofUInt64 8 (UInt64.ofInt params.nPowTargetTimespan)) (by rw [hdivisor]; omega)
  have hnew : (if q.CompareTo (UintToArith256 params.powLimit) > 0 then UintToArith256 params.powLimit else q).toNat =
      RetargetValue params pindexLast.nBits span := by
    rw [toNat_cap, hqv, hdivisor, hword, hprod, toNat_UintToArith256, RetargetValue]
  obtain ⟨c, hc, hcompact⟩ := arith_uint256.GetCompact_spec
    (if q.CompareTo (UintToArith256 params.powLimit) > 0 then UintToArith256 params.powLimit else q)
  refine ⟨c, ?_, hnew ▸ hcompact⟩
  simp only [CalculateNextWorkRequired, hret, Bool.false_eq_true, if_false, hspan, hq]
  exact hc

theorem CalculateNextWorkRequired_le (pindexLast : CBlockHeader) (nFirstBlockTime : Int) (params : PowParams)
    {c : UInt32} (h : CalculateNextWorkRequired pindexLast nFirstBlockTime params = some c) :
    c = pindexLast.nBits ∨ CompactValue c ≤ decodeLE params.powLimit.data := by
  unfold CalculateNextWorkRequired at h
  split_ifs at h with hret
  · exact .inl (Option.some.inj h).symm
  · dsimp only at h
    split at h
    · exact absurd h (by simp)
    · rename_i q _
      obtain ⟨c', hc', hcompact⟩ := arith_uint256.GetCompact_spec
        (if q.CompareTo (UintToArith256 params.powLimit) > 0 then UintToArith256 params.powLimit else q)
      rw [hc', Option.some.injEq] at h
      subst h
      refine .inr (Nat.le_trans hcompact.value_le ?_)
      rw [toNat_cap, toNat_UintToArith256]
      exact Nat.min_le_right _ _

/-! ## The next target of a chain

A chain of headers is a list indexed by height, as in `Dynafed`: `pindexLast`
is its last element, the `pprev` links run down the list, and `GetAncestor`
is indexing (the `pskip` links only make that walk faster). -/

/-- The walk of `GetNextWorkRequired` that returns "the last
non-special-min-difficulty-rules-block": from `pindex` down the `pprev` links,
listed from the nearest, past every block off an interval start that carries
the limit's bits. -/
def LastNonSpecialBits (interval : Int) (nProofOfWorkLimit : UInt32) (pindex : CBlockHeader) :
    List CBlockHeader → UInt32
  | [] => pindex.nBits
  | pprev :: rest =>
    -- `pindex` stands at height `rest.length + 1`
    if ((rest.length + 1 : Nat) : Int).tmod interval ≠ 0 ∧ pindex.nBits = nProofOfWorkLimit then
      LastNonSpecialBits interval nProofOfWorkLimit pprev rest
    else pindex.nBits

/-- `GetNextWorkRequired(pindexLast, pblock, params)`, `pindexLast` the tip
of `chain`; `none` where an assertion fails. -/
def GetNextWorkRequired (chain : Chain) (pblock : CBlockHeader) (params : PowParams) : Option UInt32 :=
  match chain.reverse with
  | [] => none
  | pindexLast :: below =>
    match (UintToArith256 params.powLimit).GetCompact false with
    | none => none
    | some nProofOfWorkLimit =>
      let nHeight : Int := below.length
      -- Only change once per difficulty adjustment interval
      if (nHeight + 1).tmod params.DifficultyAdjustmentInterval ≠ 0 then
        if params.fPowAllowMinDifficultyBlocks then
          -- a block more than twice the spacing after its parent may be mined at the limit
          if pblock.GetBlockTime > pindexLast.GetBlockTime + params.nPowTargetSpacing * 2 then
            some nProofOfWorkLimit
          else some (LastNonSpecialBits params.DifficultyAdjustmentInterval nProofOfWorkLimit pindexLast below)
        else some pindexLast.nBits
      else
        -- Go back by what we want to be 14 days worth of blocks
        let nHeightFirst := nHeight - (params.DifficultyAdjustmentInterval - 1)
        if nHeightFirst < 0 then none
        else
          match GetAncestor chain nHeightFirst with
          | none => none
          | some pindexFirst => CalculateNextWorkRequired pindexLast pindexFirst.GetBlockTime params

/-- `CheckChallenge` on a proof-of-work chain: the header carries the bits
`GetNextWorkRequired` asks for on top of `chain`. -/
def CheckChallenge (block : CBlockHeader) (chain : Chain) (params : PowParams) : Bool :=
  GetNextWorkRequired chain block params == some block.nBits

/-- The chains grown from `genesis` one header at a time, each header passing
`CheckChallenge` on top of the chain before it. -/
inductive Accepted (params : PowParams) (genesis : CBlockHeader) : Chain → Prop
  | genesis : Accepted params genesis [genesis]
  | extend (chain : Chain) (block : CBlockHeader) :
      Accepted params genesis chain → CheckChallenge block chain params = true →
        Accepted params genesis (chain ++ [block])

theorem LastNonSpecialBits_mem (interval : Int) (nProofOfWorkLimit : UInt32) (pindex : CBlockHeader)
    (below : List CBlockHeader) :
    ∃ b ∈ pindex :: below, LastNonSpecialBits interval nProofOfWorkLimit pindex below = b.nBits := by
  induction below generalizing pindex with
  | nil => exact ⟨pindex, List.mem_singleton_self _, rfl⟩
  | cons pprev rest ih =>
    unfold LastNonSpecialBits
    split_ifs
    · obtain ⟨b, hb, heq⟩ := ih pprev
      exact ⟨b, List.mem_cons_of_mem _ hb, heq⟩
    · exact ⟨pindex, List.mem_cons_self, rfl⟩

theorem GetCompact_powLimit_le (params : PowParams) {c : UInt32}
    (h : (UintToArith256 params.powLimit).GetCompact false = some c) :
    CompactValue c ≤ decodeLE params.powLimit.data := by
  obtain ⟨c', hc', hcompact⟩ := arith_uint256.GetCompact_spec (UintToArith256 params.powLimit)
  rw [hc', Option.some.injEq] at h
  subst h
  exact toNat_UintToArith256 params.powLimit ▸ hcompact.value_le

theorem GetNextWorkRequired_le (chain : Chain) (pblock : CBlockHeader) (params : PowParams)
    (hchain : ∀ b ∈ chain, CompactValue b.nBits ≤ decodeLE params.powLimit.data)
    {c : UInt32} (h : GetNextWorkRequired chain pblock params = some c) :
    CompactValue c ≤ decodeLE params.powLimit.data := by
  unfold GetNextWorkRequired at h
  split at h
  · exact absurd h (by simp)
  · rename_i pindexLast below hrev
    have hmem : ∀ b ∈ pindexLast :: below, b ∈ chain := fun b hb => List.mem_reverse.mp (hrev ▸ hb)
    have hlast := hchain pindexLast (hmem pindexLast List.mem_cons_self)
    split at h
    · exact absurd h (by simp)
    · rename_i nProofOfWorkLimit hlimit
      have hlimit_le := GetCompact_powLimit_le params hlimit
      dsimp only at h
      split_ifs at h
      · -- the special minimum-difficulty block
        rwa [← Option.some.inj h]
      · obtain ⟨b, hb, heq⟩ := LastNonSpecialBits_mem params.DifficultyAdjustmentInterval nProofOfWorkLimit
          pindexLast below
        rw [← Option.some.inj h, heq]
        exact hchain b (hmem b hb)
      · rwa [← Option.some.inj h]
      · split at h
        · exact absurd h (by simp)
        · rcases CalculateNextWorkRequired_le _ _ _ h with rfl | hle
          · exact hlast
          · exact hle

/-- At the end of an adjustment interval, with retargeting on, the next target
is the compact form of `RetargetValue` over the time from `pindexFirst`, the
first block of the interval, to the tip; given a positive target timespan
whose fourfold fits 32 bits and an old target whose product with the limited
timespan fits 256 bits. -/
theorem GetNextWorkRequired_retarget (chain : Chain) (pindexLast pindexFirst pblock : CBlockHeader)
    (params : PowParams) (hlast : chain.getLast? = some pindexLast)
    (hfirst : chain[chain.length - params.DifficultyAdjustmentInterval.toNat]? = some pindexFirst)
    (hinterval : 0 < params.DifficultyAdjustmentInterval)
    (hadjust : (chain.length : Int).tmod params.DifficultyAdjustmentInterval = 0)
    (hret : params.fPowNoRetargeting = false) (hT : 0 < params.nPowTargetTimespan)
    (hT4 : params.nPowTargetTimespan * 4 < 2 ^ 32)
    (hfit : CompactValue pindexLast.nBits *
      (LimitTimespan params (pindexLast.GetBlockTime - pindexFirst.GetBlockTime)).toNat < 2 ^ 256) :
    ∃ c, GetNextWorkRequired chain pblock params = some c ∧
      IsCompactOf (RetargetValue params pindexLast.nBits (pindexLast.GetBlockTime - pindexFirst.GetBlockTime)) c := by
  obtain ⟨init, rfl⟩ := List.getLast?_eq_some_iff.mp hlast
  rw [List.length_append, List.length_singleton] at hfirst hadjust
  have hlen : params.DifficultyAdjustmentInterval ≤ ((init.length + 1 : Nat) : Int) :=
    Int.le_of_dvd (by omega) (Int.dvd_iff_tmod_eq_zero.mpr hadjust)
  have hancestor : GetAncestor (init ++ [pindexLast]) (init.length - (params.DifficultyAdjustmentInterval - 1)) =
      some pindexFirst := by
    rw [GetAncestor, if_neg (by omega), ← hfirst]
    congr 2
    omega
  obtain ⟨nProofOfWorkLimit, hlimit, -⟩ := arith_uint256.GetCompact_spec (UintToArith256 params.powLimit)
  unfold GetNextWorkRequired
  rw [List.reverse_append, List.reverse_singleton, List.singleton_append, hlimit]
  dsimp only
  rw [List.length_reverse, if_neg (by rw [← Nat.cast_succ, hadjust]; exact not_not.mpr rfl), if_neg (by omega),
    hancestor]
  exact CalculateNextWorkRequired_retarget pindexLast pindexFirst.GetBlockTime params hret hT hT4 hfit

/-- A two-block interval that took twice its time: the doubled target is
capped at the limit. -/
theorem GetNextWorkRequired_retarget_capped :
    let params : PowParams :=
      ⟨⟨List.replicate 28 0xff ++ List.replicate 4 0, rfl⟩, false, false, 600, 1200, BaseBlob.zero 32⟩
    let genesis := { CBlockHeader.empty with nBits := 0x1d00ffff }
    let pindexLast := { CBlockHeader.empty with nTime := 2400, nBits := 0x1d00ffff }
    ∃ c, GetNextWorkRequired [genesis, pindexLast] CBlockHeader.empty params = some c ∧
      IsCompactOf (RetargetValue params pindexLast.nBits (pindexLast.GetBlockTime - genesis.GetBlockTime)) c := by
  intro params genesis pindexLast
  exact GetNextWorkRequired_retarget [genesis, pindexLast] pindexLast genesis CBlockHeader.empty params (by decide)
    (by decide) (by decide) (by decide) rfl (by decide) (by decide) (by decide)

/-- A chain accepted from a genesis block within the proof-of-work limit
carries no target above the limit: neither the retarget, whatever its
arithmetic does, nor the minimum-difficulty rules lift a target past it. -/
theorem Accepted_target_le (params : PowParams) (genesis : CBlockHeader) (chain : Chain)
    (haccepted : Accepted params genesis chain)
    (hgenesis : CompactValue genesis.nBits ≤ decodeLE params.powLimit.data) :
    ∀ b ∈ chain, CompactValue b.nBits ≤ decodeLE params.powLimit.data := by
  -- induction on the headers accepted after the genesis block
  induction haccepted with
  | genesis =>
    intro b hb
    rw [List.mem_singleton.mp hb]
    exact hgenesis
  | extend chain block _ hcheck ih =>
    have hblock := GetNextWorkRequired_le chain block params ih (beq_iff_eq.mp hcheck)
    intro b hb
    rcases List.mem_append.mp hb with hb | hb
    · exact ih b hb
    · rw [List.mem_singleton.mp hb]
      exact hblock

/-- A block mined at the limit under the minimum-difficulty rule on top of a
harder genesis block. -/
theorem Accepted_target_le_min_difficulty :
    let params : PowParams :=
      ⟨⟨List.replicate 28 0xff ++ List.replicate 4 0, rfl⟩, true, false, 600, 1200, BaseBlob.zero 32⟩
    let genesis := { CBlockHeader.empty with nBits := 0x1c00ffff }
    let block := { CBlockHeader.empty with nTime := 1300, nBits := 0x1d00ffff }
    Accepted params genesis [genesis, block] ∧ CompactValue genesis.nBits ≤ decodeLE params.powLimit.data ∧
      ∀ b ∈ [genesis, block], CompactValue b.nBits ≤ decodeLE params.powLimit.data :=
  have haccepted := Accepted.extend _ _ Accepted.genesis (by decide)
  ⟨haccepted, by decide, Accepted_target_le _ _ _ haccepted (by decide)⟩

end Elements
