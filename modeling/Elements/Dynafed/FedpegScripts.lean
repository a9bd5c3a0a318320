import Elements.Dynafed.Epochs

/-!
# The fedpeg scripts in force

`GetValidFedpegScripts` of `pegins.cpp`: the fedpeg programs and scripts a
peg-in may pay, newest first.  It walks back over the starts of the last
`total_valid_epochs` epochs and reads the pair each left in force.  Asked for
the next block (`nextblock_validation`, as the mempool and the peg-in RPCs ask
it), it first looks one block ahead: when the next block starts an epoch, the
pair of `ComputeNextBlockFullCurrentParameters` comes first.

The look-ahead predicts what `ConnectBlock` of the next block reads, on a chain
whose headers were accepted, when the chain's legacy fedpeg program is the
P2SH-wrapped one.  With `start_p2wsh_script` the prediction rebuilds the legacy
parameters with the native P2WSH program while the consensus walk still reads
the P2SH-wrapped one, and the two disagree at every epoch boundary before
activation.

The source computes in `int32_t`; the model computes in `Int` after the same
casts, and so leaves out signed overflow, which the source leaves undefined.
-/

namespace Elements

open Codec

/-!
## `GetValidFedpegScripts`
-/

/-- The pair before dynamic federation:
`GetScriptForDestination(ScriptHash(GetScriptForDestination(WitnessV0ScriptHash(fedpegScript))))`
and the fedpeg script. -/
def LegacyFedpegScripts (H : Hashes) (consensus : ConsensusParams) : CScript × CScript :=
  let fedpeg_p2wsh := [OP_0] ++ CScript.PushData (H.SHA256 consensus.fedpegScript).data
  ([OP_HASH160] ++ CScript.PushData (H.Hash160 fedpeg_p2wsh).data ++ [OP_EQUAL],
    consensus.fedpegScript)

/-- The pair an epoch start left in force. -/
def EpochStartFedpegScripts (H : Hashes) (consensus : ConsensusParams)
    (p_epoch_start : CBlockHeader) : CScript × CScript :=
  if !p_epoch_start.m_dynafed_params.IsNull then
    (p_epoch_start.m_dynafed_params.m_current.m_fedpeg_program,
      p_epoch_start.m_dynafed_params.m_current.m_fedpegscript)
  else LegacyFedpegScripts H consensus

/-- `GetAncestor(height)` of the chain's tip: none outside `[0, nHeight]`. -/
def GetAncestor (chain : Chain) (height : Int) : Option CBlockHeader :=
  if height < 0 then none else chain[height.toNat]?

/-- The walk back from the `i`-th epoch start before `epoch_start_height`, for
at most `remaining` more steps; it stops before the genesis block and at a
missing ancestor. -/
def WalkEpochStarts (H : Hashes) (consensus : ConsensusParams) (chain : Chain)
    (epoch_length epoch_start_height : Int) : Nat -> Nat -> List (CScript × CScript)
  | _, 0 => []
  | i, remaining + 1 =>
    -- within `total_valid_epochs` of the genesis block
    if (i : Int) * epoch_length > epoch_start_height then []
    else
      match GetAncestor chain (epoch_start_height - i * epoch_length) with
      | none => []
      | some p_epoch_start =>
        EpochStartFedpegScripts H consensus p_epoch_start ::
          WalkEpochStarts H consensus chain epoch_length epoch_start_height (i + 1) remaining

/-- `GetValidFedpegScripts` for the tip of `chain`; `none` is the assertion on
the tip, or a failed assertion of the look-ahead, or the division by a zero
epoch length. -/
def GetValidFedpegScripts (H : Hashes) (chain : Chain) (consensus : ConsensusParams)
    (nextblock_validation : Bool) : Option (List (CScript × CScript)) :=
  if chain.isEmpty then none
  else
    let epoch_length : Int := (Int32.ofNat consensus.dynamic_epoch_length.toNat).toInt
    if epoch_length = 0 then none
    else
      let nHeight : Int := chain.length - 1
      let epoch_age := nHeight.tmod epoch_length
      let epoch_start_height := nHeight - epoch_age
      -- ahead of an epoch boundary, the next epoch's pair comes first
      let next : Option (List (CScript × CScript)) :=
        if nextblock_validation && epoch_age == epoch_length - 1 then
          (ComputeNextBlockFullCurrentParameters H chain consensus).map fun next_param =>
            [(next_param.m_fedpeg_program, next_param.m_fedpegscript)]
        else some []
      next.map fun fedpegscripts =>
        let total_valid_epochs : Int := (Int32.ofNat consensus.total_valid_epochs).toInt
        (fedpegscripts ++ WalkEpochStarts H consensus chain epoch_length epoch_start_height 0
          total_valid_epochs.toNat).take consensus.total_valid_epochs

/-!
## The walk
-/

section Walk

variable {H : Hashes} {consensus : ConsensusParams}

theorem WalkEpochStarts_head? {chain : Chain} {L : Int} {s : Nat} {b : CBlockHeader}
    (hb : chain[s]? = some b) (remaining : Nat) :
    (WalkEpochStarts H consensus chain L s 0 (remaining + 1)).head? =
      some (EpochStartFedpegScripts H consensus b) := by
  have hs : ¬ ((s : Int) < 0) := by omega
  simp [WalkEpochStarts, GetAncestor, hs, hb]

theorem WalkEpochStarts_take {chain : Chain} {L s : Int} :
    ∀ (remaining i k : Nat), (WalkEpochStarts H consensus chain L s i remaining).take k =
      WalkEpochStarts H consensus chain L s i (min remaining k)
  | 0, _, _ => by simp [WalkEpochStarts]
  | remaining + 1, i, 0 => by simp [WalkEpochStarts]
  | remaining + 1, i, k + 1 => by
    rw [Nat.add_min_add_right]
    simp only [WalkEpochStarts]
    split
    · rfl
    · split
      · rfl
      · rw [List.take_succ_cons, WalkEpochStarts_take remaining (i + 1) k]

theorem WalkEpochStarts_shift {chain : Chain} {L s : Int} :
    ∀ (remaining i : Nat), WalkEpochStarts H consensus chain L (s + L) (i + 1) remaining =
      WalkEpochStarts H consensus chain L s i remaining
  | 0, _ => rfl
  | remaining + 1, i => by
    have hstop : (((i + 1 : Nat) : Int) * L > s + L) = ((i : Int) * L > s) := by
      push_cast
      rw [Int.add_mul, Int.one_mul]
      exact propext ⟨fun h => by omega, fun h => by omega⟩
    have hheight : s + L - ((i + 1 : Nat) : Int) * L = s - i * L := by
      push_cast
      rw [Int.add_mul, Int.one_mul]
      omega
    simp only [WalkEpochStarts, hstop, hheight, WalkEpochStarts_shift remaining (i + 1)]

theorem WalkEpochStarts_append {chain : Chain} {c : CBlockHeader} {L s : Int} (hL : 0 < L)
    (hs : s < chain.length) :
    ∀ (remaining i : Nat), WalkEpochStarts H consensus (chain ++ [c]) L s i remaining =
      WalkEpochStarts H consensus chain L s i remaining
  | 0, _ => rfl
  | remaining + 1, i => by
    have hancestor : GetAncestor (chain ++ [c]) (s - i * L) = GetAncestor chain (s - i * L) := by
      unfold GetAncestor
      split
      · rfl
      · have hi : 0 ≤ (i : Int) * L := Int.mul_nonneg (Int.natCast_nonneg i) (Int.le_of_lt hL)
        rw [List.getElem?_append_left (by omega)]
    simp only [WalkEpochStarts, hancestor, WalkEpochStarts_append hL hs remaining (i + 1)]

end Walk

/-!
## The two lists, one epoch boundary at a time
-/

section Lists

variable {H : Hashes} {consensus : ConsensusParams}
  (hL : 0 < consensus.dynamic_epoch_length.toNat)
  (hL32 : consensus.dynamic_epoch_length.toNat < 2 ^ 31)
  (hT : consensus.total_valid_epochs < 2 ^ 31)

include hL hL32 hT

theorem GetValidFedpegScripts_eq {chain : Chain} {n : Nat} (nextblock_validation : Bool)
    (hlen : chain.length = n + 1) :
    GetValidFedpegScripts H chain consensus nextblock_validation =
      (if nextblock_validation = true ∧ n % consensus.dynamic_epoch_length.toNat + 1 =
          consensus.dynamic_epoch_length.toNat then
        (ComputeNextBlockFullCurrentParameters H chain consensus).map fun next_param =>
          [(next_param.m_fedpeg_program, next_param.m_fedpegscript)]
      else some []).map fun fedpegscripts =>
        (fedpegscripts ++ WalkEpochStarts H consensus chain consensus.dynamic_epoch_length.toNat
          ((n - n % consensus.dynamic_epoch_length.toNat : Nat) : Int) 0
          consensus.total_valid_epochs).take consensus.total_valid_epochs := by
  have hne : chain.isEmpty = false := by
    rw [List.isEmpty_eq_false_iff, ← List.length_pos_iff]
    omega
  have hcast : (Int32.ofNat consensus.dynamic_epoch_length.toNat).toInt =
      consensus.dynamic_epoch_length.toNat := Int32.toInt_ofNat_of_lt hL32
  have hTcast : (Int32.ofNat consensus.total_valid_epochs).toInt = consensus.total_valid_epochs :=
    Int32.toInt_ofNat_of_lt hT
  have hheight : (chain.length : Int) - 1 = n := by
    rw [hlen]
    push_cast
    omega
  have htmod : (n : Int).tmod consensus.dynamic_epoch_length.toNat =
      ((n % consensus.dynamic_epoch_length.toNat : Nat) : Int) := by
    rw [Int.tmod_eq_emod_of_nonneg (Int.natCast_nonneg n)]
    push_cast
    rfl
  have hmod_le := Nat.mod_le n consensus.dynamic_epoch_length.toNat
  have hstart : (n : Int) - ((n % consensus.dynamic_epoch_length.toNat : Nat) : Int) =
      ((n - n % consensus.dynamic_epoch_length.toNat : Nat) : Int) := by
    omega
  have hage : (((n % consensus.dynamic_epoch_length.toNat : Nat) : Int) ==
      (consensus.dynamic_epoch_length.toNat : Int) - 1) =
      decide (n % consensus.dynamic_epoch_length.toNat + 1 = consensus.dynamic_epoch_length.toNat) := by
    rw [Bool.eq_iff_iff, beq_iff_eq, decide_eq_true_iff]
    omega
  unfold GetValidFedpegScripts
  simp only [hne, hcast, hTcast, hheight, htmod, hstart, hage, Bool.false_eq_true, if_false,
    Int.natCast_eq_zero, Nat.pos_iff_ne_zero.mp hL, Int.toNat_natCast, Bool.and_eq_true,
    decide_eq_true_eq]

theorem GetValidFedpegScripts_within_epoch {chain : Chain} {n : Nat} (c : CBlockHeader)
    (hlen : chain.length = n + 1) (hmod : (n + 1) % consensus.dynamic_epoch_length.toNat ≠ 0) :
    GetValidFedpegScripts H chain consensus true =
        some ((WalkEpochStarts H consensus chain consensus.dynamic_epoch_length.toNat
          ((n - n % consensus.dynamic_epoch_length.toNat : Nat) : Int) 0
          consensus.total_valid_epochs).take consensus.total_valid_epochs) ∧
      GetValidFedpegScripts H (chain ++ [c]) consensus false =
        GetValidFedpegScripts H chain consensus true := by
  obtain ⟨hwrap, -⟩ | ⟨hsucc, hlt⟩ := succ_mod_cases hL n
  · exact absurd hwrap hmod
  have hlen' : (chain ++ [c]).length = n + 1 + 1 := by simp [hlen]
  have hsame : n + 1 - (n + 1) % consensus.dynamic_epoch_length.toNat =
      n - n % consensus.dynamic_epoch_length.toNat := by
    omega
  have hnext : GetValidFedpegScripts H chain consensus true =
      some ((WalkEpochStarts H consensus chain consensus.dynamic_epoch_length.toNat
        ((n - n % consensus.dynamic_epoch_length.toNat : Nat) : Int) 0
        consensus.total_valid_epochs).take consensus.total_valid_epochs) := by
    rw [GetValidFedpegScripts_eq hL hL32 hT true hlen, if_neg (by omega)]
    simp
  refine ⟨hnext, ?_⟩
  rw [hnext, GetValidFedpegScripts_eq hL hL32 hT false hlen', if_neg (by simp), hsame,
    WalkEpochStarts_append (by omega) (by omega)]
  simp

theorem GetValidFedpegScripts_at_boundary {chain : Chain} {n : Nat} (c : CBlockHeader)
    (hlen : chain.length = n + 1) (hmod : (n + 1) % consensus.dynamic_epoch_length.toNat = 0) :
    GetValidFedpegScripts H chain consensus true =
        (ComputeNextBlockFullCurrentParameters H chain consensus).map (fun next_param =>
          ((next_param.m_fedpeg_program, next_param.m_fedpegscript) ::
            WalkEpochStarts H consensus chain consensus.dynamic_epoch_length.toNat
              ((n + 1 - consensus.dynamic_epoch_length.toNat : Nat) : Int) 0
              (consensus.total_valid_epochs - 1)).take consensus.total_valid_epochs) ∧
      GetValidFedpegScripts H (chain ++ [c]) consensus false =
        some ((EpochStartFedpegScripts H consensus c ::
          WalkEpochStarts H consensus chain consensus.dynamic_epoch_length.toNat
            ((n + 1 - consensus.dynamic_epoch_length.toNat : Nat) : Int) 0
            (consensus.total_valid_epochs - 1)).take consensus.total_valid_epochs) := by
  obtain ⟨-, hlast⟩ | ⟨hsucc, -⟩ := succ_mod_cases hL n
  swap
  · omega
  have hlen' : (chain ++ [c]).length = n + 1 + 1 := by simp [hlen]
  have hLle : consensus.dynamic_epoch_length.toNat ≤ n + 1 := by
    have := Nat.mod_le n consensus.dynamic_epoch_length.toNat
    omega
  have hstart : n - n % consensus.dynamic_epoch_length.toNat =
      n + 1 - consensus.dynamic_epoch_length.toNat := by
    omega
  have hcut : ∀ x : CScript × CScript, (x :: WalkEpochStarts H consensus chain
      consensus.dynamic_epoch_length.toNat ((n + 1 - consensus.dynamic_epoch_length.toNat : Nat) : Int)
      0 consensus.total_valid_epochs).take consensus.total_valid_epochs =
      (x :: WalkEpochStarts H consensus chain consensus.dynamic_epoch_length.toNat
        ((n + 1 - consensus.dynamic_epoch_length.toNat : Nat) : Int) 0
        (consensus.total_valid_epochs - 1)).take consensus.total_valid_epochs := by
    intro x
    cases hTv : consensus.total_valid_epochs with
    | zero => rfl
    | succ k =>
      rw [List.take_succ_cons, List.take_succ_cons, WalkEpochStarts_take, WalkEpochStarts_take]
      simp
  refine ⟨?_, ?_⟩
  · rw [GetValidFedpegScripts_eq hL hL32 hT true hlen, if_pos ⟨rfl, hlast⟩, hstart]
    cases ComputeNextBlockFullCurrentParameters H chain consensus with
    | none => rfl
    | some next_param => simp [hcut]
  · rw [GetValidFedpegScripts_eq hL hL32 hT false hlen', if_neg (by simp)]
    have hzero : (n + 1) % consensus.dynamic_epoch_length.toNat = 0 := hmod
    rw [hzero, Nat.sub_zero]
    cases hTv : consensus.total_valid_epochs with
    | zero => simp
    | succ k =>
      have hfirst : GetAncestor (chain ++ [c]) ((n + 1 : Nat) : Int) = some c := by
        unfold GetAncestor
        rw [if_neg (by omega)]
        simp [hlen]
      have hshift : ((n + 1 : Nat) : Int) =
          ((n + 1 - consensus.dynamic_epoch_length.toNat : Nat) : Int) +
            consensus.dynamic_epoch_length.toNat := by
        omega
      have hwalk : WalkEpochStarts H consensus (chain ++ [c]) consensus.dynamic_epoch_length.toNat
          ((n + 1 : Nat) : Int) 0 (k + 1) = EpochStartFedpegScripts H consensus c ::
            WalkEpochStarts H consensus chain consensus.dynamic_epoch_length.toNat
              ((n + 1 - consensus.dynamic_epoch_length.toNat : Nat) : Int) 0 k := by
        simp only [WalkEpochStarts, Nat.cast_zero, Int.zero_mul, Int.sub_zero, hfirst]
        rw [if_neg (by omega), hshift, WalkEpochStarts_shift k 0,
          WalkEpochStarts_append (by omega) (by omega)]
      rw [hwalk]
      simp

end Lists

/-!
## The pairs the parameters carry
-/

section Pairs

variable {H : Hashes} {consensus : ConsensusParams}

/-- The fedpeg program and script of an entry. -/
def DynaFedParamEntry.FedpegScripts (e : DynaFedParamEntry) : CScript × CScript :=
  (e.m_fedpeg_program, e.m_fedpegscript)

theorem FedpegScripts_of_operatorEq {a b : DynaFedParamEntry} (h : a.operatorEq b = true) :
    a.FedpegScripts = b.FedpegScripts := by
  have hw := DynaFedParamEntry.operatorEq_iff.mp h
  have hprogram := congrArg DynaFedParamEntry.m_fedpeg_program hw
  have hscript := congrArg DynaFedParamEntry.m_fedpegscript hw
  simp only [DynaFedParamEntry.withoutElidedRoot] at hprogram hscript
  simp [DynaFedParamEntry.FedpegScripts, hprogram, hscript]

theorem LegacyParamEntry_FedpegScripts (hp2wsh : consensus.start_p2wsh_script = false)
    (challenge : CScript) :
    (LegacyParamEntry H consensus challenge).FedpegScripts = LegacyFedpegScripts H consensus := by
  simp [LegacyParamEntry, hp2wsh, LegacyFedpegScripts, DynaFedParamEntry.FedpegScripts,
    DynaFedParamEntry.full]

theorem EpochStartParams_FedpegScripts (b : CBlockHeader)
    (hp : consensus.start_p2wsh_script = false ∨ b.m_dynafed_params.IsNull = false) :
    (EpochStartParams H consensus b).FedpegScripts = EpochStartFedpegScripts H consensus b := by
  unfold EpochStartParams EpochStartFedpegScripts
  cases hnull : b.m_dynafed_params.IsNull with
  | true =>
    have hp2wsh := hp.resolve_right (by rw [hnull]; decide)
    simpa using LegacyParamEntry_FedpegScripts hp2wsh b.proof.challenge
  | false => simp [DynaFedParamEntry.FedpegScripts]

theorem NextBlockIsParameterTransition_of_null {chain : Chain}
    (hL : 0 < consensus.dynamic_epoch_length.toNat) (hne : 0 < chain.length)
    (hnull : ∀ b ∈ chain, b.m_dynafed_params.IsNull = true) :
    NextBlockIsParameterTransition H chain consensus = some none := by
  have htally : ∀ {threshold bottom r : Nat} {tally : Uint256 -> Nat},
      bottom + r ≤ chain.length ->
      NextBlockIsParameterTransition.VoteTally H chain threshold bottom r tally = some none := by
    intro threshold bottom r
    induction r with
    | zero => intro tally _; rfl
    | succ r ih =>
      intro tally hlen
      have hb : chain[bottom + r]? = some chain[bottom + r] := List.getElem?_eq_getElem (by omega)
      have hproposed : chain[bottom + r].m_dynafed_params.m_proposed.m_serialize_type = 0 := by
        have hlt : bottom + r < chain.length := by omega
        have := hnull chain[bottom + r] (List.getElem_mem hlt)
        simp only [DynaFedParams.IsNull, DynaFedParamEntry.IsNull, Bool.and_eq_true,
          beq_iff_eq] at this
        exact this.2.1.1.1.1.1
      have hzero : (BaseBlob.zero 32).IsNull = true := by decide
      rw [VoteTally_succ hb]
      simp only [DynaFedParamEntry.CalculateRoot, hproposed, if_true, hzero, Bool.not_true,
        Bool.false_and, Bool.false_eq_true, if_false]
      exact ih (by omega)
  by_cases hmod : chain.length % consensus.dynamic_epoch_length.toNat = 0
  · have hle : consensus.dynamic_epoch_length.toNat ≤ chain.length :=
      Nat.le_of_dvd hne (Nat.dvd_of_mod_eq_zero hmod)
    simp only [NextBlockIsParameterTransition, Nat.pos_iff_ne_zero.mp hL, hmod,
      if_false, ne_eq, not_true_eq_false, Nat.not_lt.mpr hle]
    exact htally (by omega)
  · exact NextBlockIsParameterTransition_of_mod_ne_zero hL hmod

theorem EpochStartHeight_within_epoch {n : Nat}
    (hsucc : (n + 1) % consensus.dynamic_epoch_length.toNat =
      n % consensus.dynamic_epoch_length.toNat + 1) :
    EpochStartHeight consensus (n + 1) =
      if consensus.genesis_style = "elements" ∧ n - n % consensus.dynamic_epoch_length.toNat = 0 ∧
          1 < n + 1 ∧ consensus.dynafed_nStartTime = ALWAYS_ACTIVE then 1
      else n - n % consensus.dynamic_epoch_length.toNat := by
  unfold EpochStartHeight
  simp only [hsucc, Nat.add_one_ne_zero, if_false, Nat.add_sub_add_right]

end Pairs

/-!
## Along accepted headers
-/

/-- Headers as a node accepts them, with dynamic federation active from height
`act` on (the deployment's state machine is not modelled): the genesis header
and every header below `act` carry no dynamic federation parameters, every
header after the genesis header passed `ContextualCheckDynaFedHeader` on its
parent with the deployment active as `act` says, and a chain dynamic from
genesis is active from block 1. -/
structure AcceptedHeaders (H : Hashes) (consensus : ConsensusParams) (enforcePak : Bool)
    (PAKListIsReject : List (List UInt8) -> Bool) (act : Nat) (chain : Chain) : Prop where
  genesis_null : ∀ b, chain[0]? = some b -> b.m_dynafed_params.IsNull = true
  null_before : ∀ h b, h < act -> chain[h]? = some b -> b.m_dynafed_params.IsNull = true
  checked : ∀ h b, 0 < h -> chain[h]? = some b ->
    ContextualCheckDynaFedHeader H consensus enforcePak PAKListIsReject (decide (act ≤ h))
      (chain.take h) b = some (Except.ok ())
  always_active : consensus.dynafed_nStartTime = ALWAYS_ACTIVE -> act ≤ 1

section Accepted

variable {H : Hashes} {consensus : ConsensusParams} {enforcePak : Bool}
  {PAKListIsReject : List (List UInt8) -> Bool} {act : Nat}

theorem AcceptedHeaders.of_append {chain : Chain} {c : CBlockHeader}
    (hacc : AcceptedHeaders H consensus enforcePak PAKListIsReject act (chain ++ [c])) :
    AcceptedHeaders H consensus enforcePak PAKListIsReject act chain where
  genesis_null b hb := hacc.genesis_null b (by
    rw [List.getElem?_append_left (List.getElem?_eq_some_iff.mp hb).1]
    exact hb)
  null_before h b hh hb := hacc.null_before h b hh (by
    rw [List.getElem?_append_left (List.getElem?_eq_some_iff.mp hb).1]
    exact hb)
  checked h b hh hb := by
    have hlt := (List.getElem?_eq_some_iff.mp hb).1
    have hcheck := hacc.checked h b hh (by rw [List.getElem?_append_left hlt]; exact hb)
    rwa [List.take_append_of_le_length (Nat.le_of_lt hlt)] at hcheck
  always_active := hacc.always_active

theorem AcceptedHeaders_of_inactive {chain : Chain}
    (hnull : ∀ b ∈ chain, b.m_dynafed_params.IsNull = true) (hact : chain.length ≤ act)
    (hstart : consensus.dynafed_nStartTime ≠ ALWAYS_ACTIVE) :
    AcceptedHeaders H consensus enforcePak PAKListIsReject act chain where
  genesis_null b hb := hnull b (List.mem_of_getElem? hb)
  null_before _ b _ hb := hnull b (List.mem_of_getElem? hb)
  checked h b _ hb := by
    have hlt := (List.getElem?_eq_some_iff.mp hb).1
    simp [ContextualCheckDynaFedHeader, show ¬ act ≤ h by omega]
  always_active h := absurd h hstart

variable (hL : 0 < consensus.dynamic_epoch_length.toNat)

include hL

theorem EpochStartFedpegScripts_at_boundary {chain : Chain} {c : CBlockHeader} {n : Nat}
    {next : DynaFedParamEntry}
    (hacc : AcceptedHeaders H consensus enforcePak PAKListIsReject act (chain ++ [c]))
    (hlen : chain.length = n + 1) (hmod : (n + 1) % consensus.dynamic_epoch_length.toNat = 0)
    (hnext : ComputeNextBlockFullCurrentParameters H chain consensus = some next)
    (hp : consensus.start_p2wsh_script = false ∨ act ≤ n + 1) :
    EpochStartFedpegScripts H consensus c = next.FedpegScripts := by
  have hc : (chain ++ [c])[n + 1]? = some c := by simp [hlen]
  by_cases hact : act ≤ n + 1
  · -- the block passed the check: it publishes the full parameters of the epoch
    have hcheck := hacc.checked (n + 1) c (by omega) hc
    rw [decide_eq_true hact, List.take_left' hlen] at hcheck
    obtain ⟨hcur, -, ⟨e, he, heq⟩, -⟩ := ContextualCheckDynaFedHeader_ok hcheck
    obtain ⟨full, pindexPrev, hfull, -, rfl⟩ := ComputeNextBlockCurrentParameters_eq_some he
    rw [hnext] at hfull
    obtain rfl := Option.some.inj hfull
    rw [if_pos (Or.inl (by rw [hlen]; exact hmod))] at heq
    have hnotnull : c.m_dynafed_params.IsNull = false := by
      simp [DynaFedParams.IsNull, hcur]
    simp only [EpochStartFedpegScripts, hnotnull, Bool.not_false, if_true]
    exact (FedpegScripts_of_operatorEq heq).symm
  · -- before activation every header is null and no vote is won
    have hnull : ∀ b ∈ chain ++ [c], b.m_dynafed_params.IsNull = true := by
      intro b hb
      obtain ⟨h, hh, hbh⟩ := List.getElem_of_mem hb
      have hlen' : (chain ++ [c]).length = n + 2 := by simp [hlen]
      exact hacc.null_before h b (by omega) (by rw [List.getElem?_eq_getElem hh, hbh])
    have hcnull := hnull c (List.mem_append_right _ (List.mem_singleton_self c))
    have hwin := NextBlockIsParameterTransition_of_null (H := H) hL (show 0 < chain.length by omega)
      fun b hb => hnull b (List.mem_append_left _ hb)
    rcases ComputeNextBlockFullCurrentParameters_cases (H := H) hL
        (show 0 < chain.length by omega) with ⟨p, hp, -⟩ | ⟨-, b, hb, hb'⟩
    · rw [hwin] at hp
      cases hp
    rw [hnext] at hb'
    obtain rfl := Option.some.inj hb'
    rw [EpochStartParams_FedpegScripts b (.inl (hp.resolve_right hact))]
    have hbnull := hnull b (List.mem_append_left _ (List.mem_of_getElem? hb))
    simp [EpochStartFedpegScripts, hcnull, hbnull]

theorem EpochStartParams_block_one {chain : Chain} {b₀ b₁ : CBlockHeader}
    (hacc : AcceptedHeaders H consensus enforcePak PAKListIsReject act chain)
    (hb₀ : chain[0]? = some b₀) (hb₁ : chain[1]? = some b₁)
    (halways : consensus.dynafed_nStartTime = ALWAYS_ACTIVE)
    (hL2 : 1 < consensus.dynamic_epoch_length.toNat) (hp2wsh : consensus.start_p2wsh_script = false) :
    (EpochStartParams H consensus b₁).FedpegScripts = EpochStartFedpegScripts H consensus b₀ := by
  have hnull₀ := hacc.genesis_null b₀ hb₀
  have hcheck := hacc.checked 1 b₁ (by omega) hb₁
  rw [decide_eq_true (hacc.always_active halways)] at hcheck
  have htake : chain.take 1 = [b₀] := by
    rw [List.take_one, List.head?_eq_getElem?, hb₀]
    rfl
  rw [htake] at hcheck
  obtain ⟨hcur, -, ⟨e, he, heq⟩, -⟩ := ContextualCheckDynaFedHeader_ok hcheck
  obtain ⟨full, pindexPrev, hfull, hprev, rfl⟩ := ComputeNextBlockCurrentParameters_eq_some he
  obtain rfl : b₀ = pindexPrev := by simpa using hprev
  rw [if_pos (Or.inr hnull₀)] at heq
  have hone : (1 : Nat) % consensus.dynamic_epoch_length.toNat = 0 % consensus.dynamic_epoch_length.toNat + 1 := by
    rw [Nat.mod_eq_of_lt hL2, Nat.zero_mod]
  have hstart : EpochStartHeight consensus (0 + 1) = 0 := by
    rw [EpochStartHeight_within_epoch hone]
    simp
  rcases ComputeNextBlockFullCurrentParameters_cases (H := H) hL
      (show 0 < [b₀].length by simp) with
    ⟨p, hp, -⟩ | ⟨-, b, hb, hfull'⟩
  · rw [NextBlockIsParameterTransition_of_mod_ne_zero hL (by simp [Nat.mod_eq_of_lt hL2])] at hp
    cases hp
  rw [hfull] at hfull'
  obtain rfl := Option.some.inj hfull'
  simp only [List.length_singleton] at hb
  rw [hstart] at hb
  obtain rfl : b = b₀ := by simpa using hb.symm
  have hnotnull : b₁.m_dynafed_params.m_current.IsNull = false := hcur
  rw [EpochStartParams_of_current hnotnull, ← FedpegScripts_of_operatorEq heq,
    EpochStartParams_FedpegScripts _ (.inl hp2wsh)]

theorem EpochStartFedpegScripts_within_epoch {chain : Chain} {n : Nat} {next : DynaFedParamEntry}
    (hacc : AcceptedHeaders H consensus enforcePak PAKListIsReject act chain)
    (hlen : chain.length = n + 1) (hmod : (n + 1) % consensus.dynamic_epoch_length.toNat ≠ 0)
    (hnext : ComputeNextBlockFullCurrentParameters H chain consensus = some next)
    (hp : consensus.start_p2wsh_script = false ∨ ∀ b, chain[n - n % consensus.dynamic_epoch_length.toNat]? = some b ->
      b.m_dynafed_params.IsNull = false) :
    ∃ b, chain[n - n % consensus.dynamic_epoch_length.toNat]? = some b ∧
      EpochStartFedpegScripts H consensus b = next.FedpegScripts := by
  obtain ⟨hwrap, -⟩ | ⟨hsucc, hlt⟩ := succ_mod_cases hL n
  · exact absurd hwrap hmod
  rcases ComputeNextBlockFullCurrentParameters_cases (H := H) hL
      (show 0 < chain.length by omega) with ⟨p, hp, -⟩ | ⟨-, b, hb, hb'⟩
  · rw [NextBlockIsParameterTransition_of_mod_ne_zero hL (by rw [hlen]; exact hmod)] at hp
    cases hp
  rw [hnext] at hb'
  obtain rfl := Option.some.inj hb'
  rw [hlen, EpochStartHeight_within_epoch hsucc] at hb
  split_ifs at hb with hsub
  · -- an elements-style chain dynamic from genesis reads block 1 for the genesis epoch
    obtain ⟨-, hs0, hone, halways⟩ := hsub
    obtain ⟨b₀, hb₀⟩ : ∃ b₀, chain[0]? = some b₀ := ⟨chain[0], by simp [hlen]⟩
    have hL2 : 1 < consensus.dynamic_epoch_length.toNat := by
      rcases Nat.lt_or_ge 1 consensus.dynamic_epoch_length.toNat with h | h
      · exact h
      · omega
    have hp2wsh : consensus.start_p2wsh_script = false := hp.resolve_right fun hstart => by
      have h₀ := hstart b₀ (by rw [hs0]; exact hb₀)
      rw [hacc.genesis_null b₀ hb₀] at h₀
      exact absurd h₀ (by decide)
    refine ⟨b₀, by rw [hs0]; exact hb₀, ?_⟩
    exact (EpochStartParams_block_one hL hacc hb₀ hb halways hL2 hp2wsh).symm
  · exact ⟨b, hb, (EpochStartParams_FedpegScripts b (hp.imp_right fun hstart => hstart b hb)).symm⟩

/-- Asked for the next block on a chain of accepted headers,
`GetValidFedpegScripts` gives the list the next block gives itself, and its
first pair is that of the next block's full parameters.  On a chain that
starts with native P2WSH the rebuilt legacy parameters carry that program
while the walk reads the P2SH-wrapped one for a null header: the lists then
agree except at an epoch boundary before activation, and the first pair
agrees except inside an epoch whose start is null. -/
theorem GetValidFedpegScripts_nextblock_eq {chain : Chain} {c : CBlockHeader}
    (hL32 : consensus.dynamic_epoch_length.toNat < 2 ^ 31)
    (hT : consensus.total_valid_epochs < 2 ^ 31) (hne : chain ≠ [])
    (hacc : AcceptedHeaders H consensus enforcePak PAKListIsReject act (chain ++ [c]))
    (hboundary : consensus.start_p2wsh_script = true ->
      chain.length % consensus.dynamic_epoch_length.toNat = 0 -> act ≤ chain.length) :
    GetValidFedpegScripts H chain consensus true =
        GetValidFedpegScripts H (chain ++ [c]) consensus false ∧
      ∃ scripts next, GetValidFedpegScripts H chain consensus true = some scripts ∧
        ComputeNextBlockFullCurrentParameters H chain consensus = some next ∧
        (0 < consensus.total_valid_epochs ->
          (consensus.start_p2wsh_script = true ->
            chain.length % consensus.dynamic_epoch_length.toNat ≠ 0 ->
            ∀ b, chain[(chain.length - 1) - (chain.length - 1) % consensus.dynamic_epoch_length.toNat]? =
              some b -> b.m_dynafed_params.IsNull = false) ->
          scripts.head? = some next.FedpegScripts) := by
  obtain ⟨n, hlen⟩ : ∃ n, chain.length = n + 1 :=
    ⟨chain.length - 1, by have := List.length_pos_iff.mpr hne; omega⟩
  obtain ⟨next, hnext⟩ : ∃ next, ComputeNextBlockFullCurrentParameters H chain consensus = some next := by
    rcases ComputeNextBlockFullCurrentParameters_cases (H := H) hL
        (show 0 < chain.length by omega) with ⟨p, -, hp⟩ | ⟨-, b, -, hb⟩
    · exact ⟨p, hp⟩
    · exact ⟨_, hb⟩
  by_cases hmod : (n + 1) % consensus.dynamic_epoch_length.toNat = 0
  · -- the next block starts an epoch: both lists put its pair first
    obtain ⟨hpred, hcons⟩ := GetValidFedpegScripts_at_boundary hL hL32 hT c hlen hmod
    rw [hnext, Option.map_some] at hpred
    have hp : consensus.start_p2wsh_script = false ∨ act ≤ n + 1 := by
      cases hstart : consensus.start_p2wsh_script
      · exact .inl rfl
      · exact .inr (hlen ▸ hboundary hstart (by rw [hlen]; exact hmod))
    have hentry := EpochStartFedpegScripts_at_boundary hL hacc hlen hmod hnext hp
    refine ⟨by rw [hpred, hcons, hentry]; rfl, _, next, hpred, hnext, fun hpos _ => ?_⟩
    obtain ⟨k, hk⟩ : ∃ k, consensus.total_valid_epochs = k + 1 := ⟨_, (Nat.succ_pred_eq_of_pos hpos).symm⟩
    rw [hk, List.take_succ_cons, List.head?_cons]
    rfl
  · -- inside an epoch both lists are the walk from the epoch start
    obtain ⟨hpred, hcons⟩ := GetValidFedpegScripts_within_epoch hL hL32 hT c hlen hmod
    refine ⟨hcons.symm, _, next, hpred, hnext, fun hpos hstart => ?_⟩
    have hp : consensus.start_p2wsh_script = false ∨ ∀ b,
        chain[n - n % consensus.dynamic_epoch_length.toNat]? = some b -> b.m_dynafed_params.IsNull = false := by
      cases hs : consensus.start_p2wsh_script
      · exact .inl rfl
      · have h := hstart hs (by rw [hlen]; exact hmod)
        rw [hlen, Nat.add_sub_cancel] at h
        exact .inr h
    obtain ⟨b, hb, hentry⟩ := EpochStartFedpegScripts_within_epoch hL hacc.of_append hlen hmod hnext hp
    obtain ⟨k, hk⟩ : ∃ k, consensus.total_valid_epochs = k + 1 := ⟨_, (Nat.succ_pred_eq_of_pos hpos).symm⟩
    rw [hk, List.head?_take, if_neg (by omega), WalkEpochStarts_head? hb, hentry]

end Accepted

/-!
## Before activation, with the native P2WSH program

Epochs of one block, one epoch kept, and dynamic federation not yet active on
a chain of null headers.  The hashes are those of `exampleHashes`.
-/

def p2wshConsensus : ConsensusParams :=
  { exampleConsensus with
    dynamic_epoch_length := 1, total_valid_epochs := 1, dynafed_nStartTime := 0 }

def p2shConsensus : ConsensusParams :=
  { p2wshConsensus with start_p2wsh_script := false }

def nullChain : Chain := [CBlockHeader.empty]

theorem nullChain_accepted (consensus : ConsensusParams) (hstart : consensus.dynafed_nStartTime = 0) :
    AcceptedHeaders exampleHashes consensus false (fun _ => false) 2
      (nullChain ++ [CBlockHeader.empty]) :=
  AcceptedHeaders_of_inactive (by decide) (by decide) (by rw [hstart]; decide)

theorem GetValidFedpegScripts_nextblock_eq_nullChain :
    0 < p2shConsensus.dynamic_epoch_length.toNat ∧
      p2shConsensus.dynamic_epoch_length.toNat < 2 ^ 31 ∧ p2shConsensus.total_valid_epochs < 2 ^ 31 ∧
      nullChain ≠ [] ∧
      AcceptedHeaders exampleHashes p2shConsensus false (fun _ => false) 2
        (nullChain ++ [CBlockHeader.empty]) ∧
      (p2shConsensus.start_p2wsh_script = true ->
        nullChain.length % p2shConsensus.dynamic_epoch_length.toNat = 0 -> 2 ≤ nullChain.length) ∧
      (GetValidFedpegScripts exampleHashes nullChain p2shConsensus true =
          GetValidFedpegScripts exampleHashes (nullChain ++ [CBlockHeader.empty]) p2shConsensus false ∧
        ∃ scripts next, GetValidFedpegScripts exampleHashes nullChain p2shConsensus true = some scripts ∧
          ComputeNextBlockFullCurrentParameters exampleHashes nullChain p2shConsensus = some next ∧
          (0 < p2shConsensus.total_valid_epochs ->
            (p2shConsensus.start_p2wsh_script = true ->
              nullChain.length % p2shConsensus.dynamic_epoch_length.toNat ≠ 0 ->
              ∀ b, nullChain[(nullChain.length - 1) -
                  (nullChain.length - 1) % p2shConsensus.dynamic_epoch_length.toNat]? =
                some b -> b.m_dynafed_params.IsNull = false) ->
            scripts.head? = some next.FedpegScripts)) :=
  have hboundary : p2shConsensus.start_p2wsh_script = true ->
      nullChain.length % p2shConsensus.dynamic_epoch_length.toNat = 0 -> 2 ≤ nullChain.length :=
    fun h => absurd h (by decide)
  ⟨by decide, by decide, by decide, by simp [nullChain], nullChain_accepted p2shConsensus rfl, hboundary,
    GetValidFedpegScripts_nextblock_eq (by decide) (by decide) (by decide) (by simp [nullChain])
      (nullChain_accepted p2shConsensus rfl) hboundary⟩

/-- With the native P2WSH legacy program the look-ahead predicts that program,
while the next block reads the P2SH-wrapped one. -/
theorem nextblock_fedpeg_scripts_p2wsh_mismatch :
    p2wshConsensus.start_p2wsh_script = true ∧
      AcceptedHeaders exampleHashes p2wshConsensus false (fun _ => false) 2
        (nullChain ++ [CBlockHeader.empty]) ∧
      GetValidFedpegScripts exampleHashes nullChain p2wshConsensus true ≠
        GetValidFedpegScripts exampleHashes (nullChain ++ [CBlockHeader.empty]) p2wshConsensus false :=
  ⟨rfl, nullChain_accepted p2wshConsensus rfl, by decide⟩

end Elements
