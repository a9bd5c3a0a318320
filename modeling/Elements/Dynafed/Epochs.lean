import Elements.Dynafed

/-!
# Parameters change only by vote at epoch starts

Along a chain whose headers from the activation height on pass
`ContextualCheckDynaFedHeader`, the full parameters in force for the next
block, `ComputeNextBlockFullCurrentParameters` of its parent, agree up to
`operator==` with those of the block before, except at an epoch start where a
proposal has won four fifths of the previous epoch's votes.  Every accepted
block publishes those parameters in full at an epoch start and at the
activation height, and in pruned form otherwise.

`operator==` ignores `m_elided_root`, so the check pins a published pruned
entry down only up to its elided root.
-/

namespace Elements

open Codec

namespace DynaFedParamEntry

/-!
## `operator==`
-/

/-- The entry with its elided root cleared, the part `operator==` compares. -/
def withoutElidedRoot (e : DynaFedParamEntry) : DynaFedParamEntry :=
  { e with m_elided_root := BaseBlob.zero 32 }

theorem operatorEq_iff {a b : DynaFedParamEntry} :
    a.operatorEq b = true ↔ a.withoutElidedRoot = b.withoutElidedRoot := by
  cases a
  cases b
  simp [operatorEq, withoutElidedRoot, and_assoc]

@[simp] theorem operatorEq_refl (a : DynaFedParamEntry) : a.operatorEq a = true :=
  operatorEq_iff.mpr rfl

theorem operatorEq_symm {a b : DynaFedParamEntry} (h : a.operatorEq b = true) :
    b.operatorEq a = true :=
  operatorEq_iff.mpr (operatorEq_iff.mp h).symm

theorem operatorEq_trans {a b c : DynaFedParamEntry} (hab : a.operatorEq b = true)
    (hbc : b.operatorEq c = true) : a.operatorEq c = true :=
  operatorEq_iff.mpr ((operatorEq_iff.mp hab).trans (operatorEq_iff.mp hbc))

theorem CalculateRoot_pruned (H : Hashes) {e : DynaFedParamEntry} (htype : e.m_serialize_type = 2) :
    (pruned e.m_signblockscript e.m_signblock_witness_limit (e.CalculateExtraRoot H)).CalculateRoot H =
      e.CalculateRoot H := by
  simp [CalculateRoot, pruned, empty, htype]

end DynaFedParamEntry

/-!
## Epoch arithmetic
-/

theorem succ_mod_cases {L : Nat} (hL : 0 < L) (n : Nat) :
    ((n + 1) % L = 0 ∧ n % L + 1 = L) ∨ ((n + 1) % L = n % L + 1 ∧ n % L + 1 < L) := by
  have hlt := Nat.mod_lt n hL
  rcases Nat.lt_or_ge 1 L with hL2 | hL1
  · have h1 : 1 % L = 1 := Nat.mod_eq_of_lt hL2
    rw [Nat.add_mod_eq_ite, h1]
    split_ifs <;> omega
  · obtain rfl : L = 1 := by omega
    omega

/-- The epoch start before the special case of block 1: the start of the
current epoch, or of the previous one at an epoch boundary. -/
private def EpochBase (L n : Nat) : Nat :=
  if n % L = 0 then n - n % L - L else n - n % L

private theorem EpochBase_lt {L n : Nat} (hL : 0 < L) (hn : 0 < n) : EpochBase L n < n := by
  have hstart : n % L = 0 → L ≤ n := fun h0 => Nat.le_of_dvd hn (Nat.dvd_of_mod_eq_zero h0)
  have hmod := Nat.mod_le n L
  unfold EpochBase
  split_ifs <;> omega

private theorem EpochBase_succ_of_mod_eq_zero {L n : Nat} (hL : 0 < L) (hmod : n % L = 0) :
    EpochBase L (n + 1) = n := by
  have hcases := succ_mod_cases hL n
  unfold EpochBase
  split_ifs <;> omega

private theorem EpochBase_succ_of_mod_ne_zero {L n : Nat} (hL : 0 < L) (hmod : n % L ≠ 0) :
    EpochBase L (n + 1) = EpochBase L n := by
  have hcases := succ_mod_cases hL n
  unfold EpochBase
  split_ifs <;> omega

section EpochStart

variable {consensus : ConsensusParams}

/-- Whether the chain keeps its first full parameters in block 1. -/
private def StartsDynamic (consensus : ConsensusParams) : Prop :=
  consensus.genesis_style = "elements" ∧ consensus.dynafed_nStartTime = ALWAYS_ACTIVE

private instance (consensus : ConsensusParams) : Decidable (StartsDynamic consensus) :=
  inferInstanceAs (Decidable (_ ∧ _))

private theorem EpochStartHeight_eq (n : Nat) :
    EpochStartHeight consensus n =
      if StartsDynamic consensus ∧ EpochBase consensus.dynamic_epoch_length.toNat n = 0 ∧ 1 < n
      then 1 else EpochBase consensus.dynamic_epoch_length.toNat n := by
  unfold EpochStartHeight StartsDynamic EpochBase
  by_cases hstyle : consensus.genesis_style = "elements" <;>
    by_cases htime : consensus.dynafed_nStartTime = ALWAYS_ACTIVE <;> simp [hstyle, htime]

theorem EpochStartHeight_lt {n : Nat} (hL : 0 < consensus.dynamic_epoch_length.toNat)
    (hn : 0 < n) : EpochStartHeight consensus n < n := by
  have hbase := EpochBase_lt hL hn
  rw [EpochStartHeight_eq]
  split_ifs <;> omega

theorem EpochStartHeight_succ_of_mod_eq_zero {n : Nat}
    (hL : 0 < consensus.dynamic_epoch_length.toNat)
    (hmod : n % consensus.dynamic_epoch_length.toNat = 0) (hn : 0 < n) :
    EpochStartHeight consensus (n + 1) = n := by
  have hbase := EpochBase_succ_of_mod_eq_zero hL hmod
  rw [EpochStartHeight_eq]
  split_ifs <;> omega

theorem EpochStartHeight_succ_of_mod_ne_zero {n : Nat}
    (hL : 0 < consensus.dynamic_epoch_length.toNat)
    (hmod : n % consensus.dynamic_epoch_length.toNat ≠ 0) :
    EpochStartHeight consensus (n + 1) = EpochStartHeight consensus n ∨
      (n = 1 ∧ EpochStartHeight consensus (n + 1) = 1) := by
  have hbase := EpochBase_succ_of_mod_ne_zero hL hmod
  rw [EpochStartHeight_eq, EpochStartHeight_eq]
  -- the special case is decided by the same flag on both sides
  by_cases hs : StartsDynamic consensus
  · simp only [hs, true_and]
    split_ifs <;> omega
  · simp only [hs, false_and, if_false]
    exact Or.inl hbase

end EpochStart

/-!
## The vote
-/

section Vote

variable (H : Hashes) (chain : Chain)

/-- How many of the `len` blocks from height `bottom` on propose an entry whose
root is `root`. -/
def VoteCount (root : Uint256) (bottom len : Nat) : Nat :=
  ((chain.drop bottom).take len).countP fun b =>
    b.m_dynafed_params.m_proposed.CalculateRoot H == root

/-- `p` wins the vote that ends below height `h`: `h` starts an epoch, `p` is
the proposal of one of the epoch's `L` blocks, its root is not null, and at
least `(L * 4) / 5`, computed in `uint32_t`, of those blocks propose an entry
with that root. -/
def IsWinningProposal (consensus : ConsensusParams) (h : Nat) (p : DynaFedParamEntry) : Prop :=
  let L := consensus.dynamic_epoch_length.toNat
  h % L = 0 ∧ L ≤ h ∧
    (∃ k b, h - L ≤ k ∧ k < h ∧ chain[k]? = some b ∧ b.m_dynafed_params.m_proposed = p) ∧
    (p.CalculateRoot H).IsNull = false ∧
    (consensus.dynamic_epoch_length * 4 / 5).toNat ≤ VoteCount H chain (p.CalculateRoot H) (h - L) L

variable {H chain}

theorem VoteCount_succ {root : Uint256} {bottom len : Nat} {b : CBlockHeader}
    (hb : chain[bottom + len]? = some b) :
    VoteCount H chain root bottom (len + 1) =
      VoteCount H chain root bottom len +
        if b.m_dynafed_params.m_proposed.CalculateRoot H = root then 1 else 0 := by
  unfold VoteCount
  rw [List.take_add_one, List.getElem?_drop, hb, List.countP_append]
  simp

theorem VoteCount_take {root : Uint256} {n bottom len : Nat} (hle : bottom + len ≤ n) :
    VoteCount H (chain.take n) root bottom len = VoteCount H chain root bottom len := by
  unfold VoteCount
  rw [List.drop_take, List.take_take, Nat.min_eq_left (by omega)]

theorem IsWinningProposal_of_take {consensus : ConsensusParams} {n : Nat} {p : DynaFedParamEntry}
    (h : IsWinningProposal H (chain.take n) consensus n p) :
    IsWinningProposal H chain consensus n p := by
  obtain ⟨hmod, hlen, ⟨k, b, hlo, hhi, hb, hprop⟩, hroot, hcount⟩ := h
  refine ⟨hmod, hlen, ⟨k, b, hlo, hhi, ?_, hprop⟩, hroot, ?_⟩
  · rwa [List.getElem?_take, if_pos hhi] at hb
  · rwa [VoteCount_take (by omega)] at hcount

theorem VoteTally_succ {threshold bottom r : Nat} {tally : Uint256 -> Nat} {b : CBlockHeader}
    (hb : chain[bottom + r]? = some b) :
    NextBlockIsParameterTransition.VoteTally H chain threshold bottom (r + 1) tally =
      let root := b.m_dynafed_params.m_proposed.CalculateRoot H
      if !root.IsNull && decide (threshold ≤ tally root + 1) then
        some (some b.m_dynafed_params.m_proposed)
      else
        NextBlockIsParameterTransition.VoteTally H chain threshold bottom r
          (Function.update tally root (tally root + 1)) := by
  simp [NextBlockIsParameterTransition.VoteTally, hb]

/-- The loop finds a winner only among the blocks it walks, and only one whose
votes so far, with those it has still to walk, reach the threshold. -/
theorem VoteTally_winner {threshold bottom : Nat} :
    ∀ {r : Nat} {tally : Uint256 -> Nat} {p : DynaFedParamEntry},
      NextBlockIsParameterTransition.VoteTally H chain threshold bottom r tally = some (some p) ->
      (∃ k b, bottom ≤ k ∧ k < bottom + r ∧ chain[k]? = some b ∧
        b.m_dynafed_params.m_proposed = p) ∧
      (p.CalculateRoot H).IsNull = false ∧
      threshold ≤ tally (p.CalculateRoot H) + VoteCount H chain (p.CalculateRoot H) bottom r := by
  intro r
  induction r with
  | zero =>
    intro tally p h
    simp [NextBlockIsParameterTransition.VoteTally] at h
  | succ r ih =>
    intro tally p h
    cases hb : chain[bottom + r]? with
    | none => simp [NextBlockIsParameterTransition.VoteTally, hb] at h
    | some b =>
      rw [VoteTally_succ hb] at h
      set root := b.m_dynafed_params.m_proposed.CalculateRoot H with hroot
      by_cases hwin : (!root.IsNull && decide (threshold ≤ tally root + 1)) = true
      · -- the block at `bottom + r` carries the winner
        rw [if_pos hwin] at h
        obtain rfl : b.m_dynafed_params.m_proposed = p := by simpa using h
        simp only [Bool.and_eq_true, Bool.not_eq_true', decide_eq_true_eq] at hwin
        rw [← hroot, VoteCount_succ hb, if_pos hroot.symm]
        exact ⟨⟨bottom + r, b, by omega, by omega, hb, rfl⟩, hwin.1, by omega⟩
      · -- the winner is further down, counted with this block's vote
        rw [if_neg hwin] at h
        obtain ⟨hmem, hnull, hcount⟩ := ih h
        obtain ⟨k, b', hlo, hhi, hb', hprop⟩ := hmem
        refine ⟨⟨k, b', hlo, by omega, hb', hprop⟩, hnull, ?_⟩
        rw [Function.update_apply] at hcount
        rw [VoteCount_succ hb]
        by_cases heq : p.CalculateRoot H = root
        · rw [if_pos heq, heq] at hcount
          rw [if_pos heq.symm, heq]
          omega
        · rw [if_neg heq] at hcount
          rw [if_neg (Ne.symm heq)]
          omega

theorem VoteTally_isSome {threshold bottom : Nat} :
    ∀ {r : Nat} {tally : Uint256 -> Nat}, bottom + r ≤ chain.length ->
      (NextBlockIsParameterTransition.VoteTally H chain threshold bottom r tally).isSome := by
  intro r
  induction r with
  | zero => intro tally _; rfl
  | succ r ih =>
    intro tally hlen
    have hb : chain[bottom + r]? = some chain[bottom + r] := List.getElem?_eq_getElem (by omega)
    rw [VoteTally_succ hb]
    dsimp only
    split
    · rfl
    · exact ih (by omega)

variable {consensus : ConsensusParams}

theorem NextBlockIsParameterTransition_of_mod_ne_zero
    (hL : 0 < consensus.dynamic_epoch_length.toNat)
    (hmod : chain.length % consensus.dynamic_epoch_length.toNat ≠ 0) :
    NextBlockIsParameterTransition H chain consensus = some none := by
  simp [NextBlockIsParameterTransition, Nat.pos_iff_ne_zero.mp hL, hmod]

theorem NextBlockIsParameterTransition_isSome (hL : 0 < consensus.dynamic_epoch_length.toNat)
    (hne : 0 < chain.length) : (NextBlockIsParameterTransition H chain consensus).isSome := by
  by_cases hmod : chain.length % consensus.dynamic_epoch_length.toNat = 0
  · have hle : consensus.dynamic_epoch_length.toNat ≤ chain.length :=
      Nat.le_of_dvd hne (Nat.dvd_of_mod_eq_zero hmod)
    simp only [NextBlockIsParameterTransition, Nat.pos_iff_ne_zero.mp hL, hmod,
      if_false, ne_eq, not_true_eq_false, Nat.not_lt.mpr hle]
    exact VoteTally_isSome (by omega)
  · rw [NextBlockIsParameterTransition_of_mod_ne_zero hL hmod]
    rfl

theorem NextBlockIsParameterTransition_winner {p : DynaFedParamEntry}
    (h : NextBlockIsParameterTransition H chain consensus = some (some p)) :
    IsWinningProposal H chain consensus chain.length p := by
  unfold NextBlockIsParameterTransition at h
  dsimp only at h
  split_ifs at h with hL hmod hlt
  · simp at h
  obtain ⟨⟨k, b, hlo, hhi, hb, hprop⟩, hnull, hcount⟩ := VoteTally_winner h
  refine ⟨by simpa using hmod, by omega, ⟨k, b, hlo, by omega, hb, hprop⟩, hnull, ?_⟩
  simpa using hcount

end Vote

/-!
## The parameters computed for the next block
-/

section Params

variable {H : Hashes} {consensus : ConsensusParams} {chain : Chain}

theorem ComputeNextBlockFullCurrentParameters_cases
    (hL : 0 < consensus.dynamic_epoch_length.toNat) (hne : 0 < chain.length) :
    (∃ p, NextBlockIsParameterTransition H chain consensus = some (some p) ∧
      ComputeNextBlockFullCurrentParameters H chain consensus = some p) ∨
    (NextBlockIsParameterTransition H chain consensus = some none ∧
      ∃ b, chain[EpochStartHeight consensus chain.length]? = some b ∧
        ComputeNextBlockFullCurrentParameters H chain consensus =
          some (EpochStartParams H consensus b)) := by
  have hne' : chain ≠ [] := List.ne_nil_of_length_pos hne
  obtain ⟨w, hw⟩ := Option.isSome_iff_exists.mp (NextBlockIsParameterTransition_isSome hL hne)
  cases w with
  | some p =>
    left
    exact ⟨p, hw, by simp [ComputeNextBlockFullCurrentParameters, hne', hw]⟩
  | none =>
    right
    have hidx := List.getElem?_eq_getElem (EpochStartHeight_lt hL hne)
    refine ⟨hw, _, hidx, ?_⟩
    simp [ComputeNextBlockFullCurrentParameters, hne', hw, hidx]

theorem ComputeNextBlockFullCurrentParameters_pos {e : DynaFedParamEntry}
    (h : ComputeNextBlockFullCurrentParameters H chain consensus = some e) :
    0 < consensus.dynamic_epoch_length.toNat ∧ 0 < chain.length := by
  unfold ComputeNextBlockFullCurrentParameters at h
  split_ifs at h with hempty
  refine ⟨Nat.pos_of_ne_zero fun h0 => ?_, ?_⟩
  · simp [NextBlockIsParameterTransition, h0] at h
  · simpa [List.length_pos_iff] using hempty

theorem ComputeNextBlockCurrentParameters_eq_some {e : DynaFedParamEntry}
    (h : ComputeNextBlockCurrentParameters H chain consensus = some e) :
    ∃ full pindexPrev, ComputeNextBlockFullCurrentParameters H chain consensus = some full ∧
      chain.getLast? = some pindexPrev ∧
      e = if chain.length % consensus.dynamic_epoch_length.toNat = 0 ∨
          pindexPrev.m_dynafed_params.IsNull = true then full
        else DynaFedParamEntry.pruned full.m_signblockscript full.m_signblock_witness_limit
          (full.CalculateExtraRoot H) := by
  unfold ComputeNextBlockCurrentParameters at h
  obtain ⟨full, hfull, hlast⟩ := Option.bind_eq_some_iff.mp h
  obtain ⟨pindexPrev, hprev, rfl⟩ := Option.map_eq_some_iff.mp hlast
  exact ⟨full, pindexPrev, hfull, hprev, rfl⟩

theorem ContextualCheckDynaFedHeader_ok {enforcePak : Bool}
    {PAKListIsReject : List (List UInt8) -> Bool} {block : CBlockHeader}
    (h : ContextualCheckDynaFedHeader H consensus enforcePak PAKListIsReject true chain block =
      some (Except.ok ())) :
    block.m_dynafed_params.m_current.IsNull = false ∧
    block.nVersion &&& reserved_mask = 0 ∧
    (∃ e, ComputeNextBlockCurrentParameters H chain consensus = some e ∧
      e.operatorEq block.m_dynafed_params.m_current = true) ∧
    (block.m_dynafed_params.m_proposed.IsNull = false ->
      ∃ current, ComputeNextBlockFullCurrentParameters H chain consensus = some current ∧
        CheckProposedParams H enforcePak PAKListIsReject current
          block.m_dynafed_params.m_proposed = Except.ok ()) := by
  unfold ContextualCheckDynaFedHeader at h
  simp only [Bool.not_true, Bool.false_eq_true, if_false] at h
  by_cases hcur : block.m_dynafed_params.m_current.IsNull = true
  · simp [hcur] at h
  rw [if_neg hcur] at h
  by_cases hver : block.nVersion &&& reserved_mask = 0
  swap
  · simp [hver] at h
  rw [if_neg (not_not.mpr hver)] at h
  obtain ⟨e, he, hrest⟩ := Option.bind_eq_some_iff.mp h
  have hne : e.operatorEq block.m_dynafed_params.m_current = true := by
    by_contra hne
    simp [Bool.eq_false_iff.mpr hne] at hrest
  rw [if_neg (by simp [hne])] at hrest
  refine ⟨by simpa using hcur, hver, ⟨e, he, hne⟩, fun hp => ?_⟩
  rw [if_pos (by simp [hp])] at hrest
  exact Option.map_eq_some_iff.mp hrest

theorem EpochStartParams_of_current {b : CBlockHeader}
    (hcur : b.m_dynafed_params.m_current.IsNull = false) :
    EpochStartParams H consensus b = b.m_dynafed_params.m_current := by
  simp [EpochStartParams, DynaFedParams.IsNull, hcur]

end Params

/-!
## Along a chain
-/

section Chain

variable (H : Hashes) (consensus : ConsensusParams)

/-- The full parameters in force for the block at height `h` of `chain`, as
they are computed from its parent. -/
def FullParamsAt (chain : Chain) (h : Nat) : Option DynaFedParamEntry :=
  ComputeNextBlockFullCurrentParameters H (chain.take h) consensus

/-- Every block of `chain` from height `h0` on passes the header check with the
deployment active. -/
def DynaFedAcceptedFrom (enforcePak : Bool) (PAKListIsReject : List (List UInt8) -> Bool)
    (chain : Chain) (h0 : Nat) : Prop :=
  ∀ h b, h0 ≤ h -> chain[h]? = some b ->
    ContextualCheckDynaFedHeader H consensus enforcePak PAKListIsReject true (chain.take h) b =
      some (Except.ok ())

/-- The entry the block at height `h` publishes when `full` is in force and
dynamic federation activated at `h0`: `full` itself at an epoch start and at
`h0`, its pruned form otherwise. -/
def PublishedForm (h0 h : Nat) (full : DynaFedParamEntry) : DynaFedParamEntry :=
  if h % consensus.dynamic_epoch_length.toNat = 0 ∨ h = h0 then full
  else DynaFedParamEntry.pruned full.m_signblockscript full.m_signblock_witness_limit
    (full.CalculateExtraRoot H)

/-- How the parameters of a chain on which dynamic federation activated at `h0`
evolve. -/
structure EpochDiscipline (chain : Chain) (h0 : Nat) : Prop where
  /-- From one block to the next the full parameters stay, up to `operator==`,
  unless a vote is won. -/
  changes_only_by_vote : ∀ n, h0 ≤ n -> n < chain.length ->
    ∃ prev next, FullParamsAt H consensus chain n = some prev ∧
      FullParamsAt H consensus chain (n + 1) = some next ∧
      (next.operatorEq prev = true ∨ IsWinningProposal H chain consensus (n + 1) next)
  /-- So they stay over any stretch of blocks without an epoch start. -/
  stable_within_epoch : ∀ m k, h0 ≤ m -> m + k < chain.length ->
    (∀ j, m < j -> j ≤ m + k -> j % consensus.dynamic_epoch_length.toNat ≠ 0) ->
    ∃ e1 e2, FullParamsAt H consensus chain m = some e1 ∧
      FullParamsAt H consensus chain (m + k) = some e2 ∧ e2.operatorEq e1 = true
  /-- Each block publishes them in the form its height asks for, and the
  pruned form of a full entry stands for the same root. -/
  publishes : ∀ h b, h0 ≤ h -> chain[h]? = some b ->
    ∃ full, FullParamsAt H consensus chain h = some full ∧
      b.m_dynafed_params.m_current.operatorEq (PublishedForm H consensus h0 h full) = true ∧
      (full.m_serialize_type = 2 ->
        (PublishedForm H consensus h0 h full).CalculateRoot H = full.CalculateRoot H)

variable {H consensus} {chain : Chain}

private theorem getElem?_take_of_lt {i n : Nat} (h : i < n) : (chain.take n)[i]? = chain[i]? := by
  rw [List.getElem?_take, if_pos h]

private theorem getLast?_take_succ {n : Nat} {b : CBlockHeader} (hb : chain[n]? = some b) :
    (chain.take (n + 1)).getLast? = some b := by
  simp [List.getLast?_take, hb]

private theorem length_take_of_getElem? {n : Nat} {b : CBlockHeader} (hb : chain[n]? = some b) :
    (chain.take (n + 1)).length = n + 1 := by
  obtain ⟨hlt, -⟩ := List.getElem?_eq_some_iff.mp hb
  simp only [List.length_take]
  omega

variable {enforcePak : Bool} {PAKListIsReject : List (List UInt8) -> Bool} {a : Nat}
  {parent : CBlockHeader}
  (hacc : DynaFedAcceptedFrom H consensus enforcePak PAKListIsReject chain (a + 1))
  (hparent : chain[a]? = some parent) (hnull : parent.m_dynafed_params.IsNull = true)

include hacc hparent hnull

theorem published_of_accepted {h : Nat} {b : CBlockHeader} (hh : a + 1 ≤ h)
    (hb : chain[h]? = some b) :
    ∃ full, FullParamsAt H consensus chain h = some full ∧
      b.m_dynafed_params.m_current.operatorEq (PublishedForm H consensus (a + 1) h full) = true := by
  obtain ⟨-, -, ⟨e, he, heq⟩, -⟩ := ContextualCheckDynaFedHeader_ok (hacc h b hh hb)
  obtain ⟨full, pindexPrev, hfull, hlast, rfl⟩ := ComputeNextBlockCurrentParameters_eq_some he
  refine ⟨full, hfull, DynaFedParamEntry.operatorEq_symm ?_⟩
  obtain ⟨n, rfl⟩ : ∃ n, h = n + 1 := ⟨h - 1, by omega⟩
  have hpb : ∃ pb, chain[n]? = some pb := by
    obtain ⟨hlt, -⟩ := List.getElem?_eq_some_iff.mp hb
    exact ⟨_, List.getElem?_eq_getElem (by omega)⟩
  obtain ⟨pb, hpb⟩ := hpb
  rw [getLast?_take_succ hpb] at hlast
  obtain rfl := Option.some.inj hlast
  rw [length_take_of_getElem? hpb] at heq
  by_cases hact : n = a
  · -- the activation block, whose parent has no dynamic federation parameters
    subst hact
    rw [hparent] at hpb
    obtain rfl := Option.some.inj hpb
    simpa [PublishedForm, hnull] using heq
  · -- a later block, whose parent passed the check and so has parameters
    have hpcur := (ContextualCheckDynaFedHeader_ok (hacc n pb (by omega) hpb)).1
    have hpnull : pb.m_dynafed_params.IsNull = false := by
      simp [DynaFedParams.IsNull, hpcur]
    simpa [PublishedForm, hpnull, hact] using heq

theorem FullParamsAt_succ {n : Nat} (hn : a + 1 ≤ n) (hlen : n < chain.length) :
    ∃ prev next, FullParamsAt H consensus chain n = some prev ∧
      FullParamsAt H consensus chain (n + 1) = some next ∧
      (next.operatorEq prev = true ∨ IsWinningProposal H chain consensus (n + 1) next) := by
  have hb : chain[n]? = some chain[n] := List.getElem?_eq_getElem hlen
  obtain ⟨prev, hprev, hpub⟩ := published_of_accepted hacc hparent hnull hn hb
  obtain ⟨hL, -⟩ := ComputeNextBlockFullCurrentParameters_pos hprev
  have hcur := (ContextualCheckDynaFedHeader_ok (hacc n chain[n] (by omega) hb)).1
  have hlen1 := length_take_of_getElem? hb
  rcases ComputeNextBlockFullCurrentParameters_cases (H := H) hL
      (show 0 < (chain.take (n + 1)).length by omega) with ⟨p, hwin, hnext⟩ | ⟨-, sb, hsb, hnext⟩
  · -- a vote ends at `n + 1`
    refine ⟨prev, p, hprev, hnext, Or.inr ?_⟩
    have hwinning := NextBlockIsParameterTransition_winner hwin
    rw [hlen1] at hwinning
    exact IsWinningProposal_of_take hwinning
  refine ⟨prev, EpochStartParams H consensus sb, hprev, hnext, Or.inl ?_⟩
  rw [hlen1] at hsb
  by_cases hmod : n % consensus.dynamic_epoch_length.toNat = 0
  · -- block `n` starts the epoch and left its own entry in force
    rw [EpochStartHeight_succ_of_mod_eq_zero hL hmod (by omega),
      getElem?_take_of_lt (by omega), hb] at hsb
    obtain rfl := Option.some.inj hsb
    rw [EpochStartParams_of_current hcur]
    simpa [PublishedForm, hmod] using hpub
  have hlen0 : (chain.take n).length = n := by simp only [List.length_take]; omega
  have hnone : NextBlockIsParameterTransition H (chain.take n) consensus = some none :=
    NextBlockIsParameterTransition_of_mod_ne_zero hL (by rwa [hlen0])
  rcases ComputeNextBlockFullCurrentParameters_cases (H := H) hL
      (show 0 < (chain.take n).length by omega) with ⟨p, hw, -⟩ | ⟨-, pb, hpb, hprev'⟩
  · rw [hnone] at hw
    simp at hw
  rw [hlen0] at hpb
  rcases EpochStartHeight_succ_of_mod_ne_zero hL hmod with hsame | ⟨rfl, hone⟩
  · -- both read the same epoch start
    have hstart : EpochStartHeight consensus n < n := EpochStartHeight_lt hL (by omega)
    rw [hsame, getElem?_take_of_lt (by omega)] at hsb
    rw [getElem?_take_of_lt hstart, hsb] at hpb
    obtain rfl := Option.some.inj hpb
    have hprev0 : ComputeNextBlockFullCurrentParameters H (chain.take n) consensus = some prev :=
      hprev
    rw [hprev0] at hprev'
    rw [Option.some.inj hprev']
    exact DynaFedParamEntry.operatorEq_refl _
  · -- block 2 reads the full parameters that the activation block 1 published
    rw [hone, getElem?_take_of_lt (by omega), hb] at hsb
    obtain rfl := Option.some.inj hsb
    rw [EpochStartParams_of_current hcur]
    have hact : 1 = a + 1 := by omega
    simpa [PublishedForm, ← hact] using hpub

theorem FullParamsAt_stable {m : Nat} (hm : a + 1 ≤ m) :
    ∀ k, m + k < chain.length ->
      (∀ j, m < j -> j ≤ m + k -> j % consensus.dynamic_epoch_length.toNat ≠ 0) ->
      ∃ e1 e2, FullParamsAt H consensus chain m = some e1 ∧
        FullParamsAt H consensus chain (m + k) = some e2 ∧ e2.operatorEq e1 = true := by
  intro k
  induction k with
  | zero =>
    intro hlen _
    obtain ⟨e, he, -⟩ :=
      published_of_accepted hacc hparent hnull hm (List.getElem?_eq_getElem (by omega))
    exact ⟨e, e, he, he, DynaFedParamEntry.operatorEq_refl e⟩
  | succ k ih =>
    intro hlen hnostart
    obtain ⟨e1, e2, he1, he2, h21⟩ :=
      ih (by omega) (fun j hj hjk => hnostart j hj (by omega))
    obtain ⟨prev, next, hprev, hnext, hstep⟩ :=
      FullParamsAt_succ hacc hparent hnull (n := m + k) (by omega) (by omega)
    rw [he2] at hprev
    obtain rfl := Option.some.inj hprev
    refine ⟨e1, next, he1, hnext, ?_⟩
    rcases hstep with hsame | hwin
    · exact DynaFedParamEntry.operatorEq_trans hsame h21
    · exact absurd hwin.1 (hnostart (m + k + 1) (by omega) (by omega))

theorem dynafed_epoch_discipline : EpochDiscipline H consensus chain (a + 1) where
  changes_only_by_vote _ hn hlen := FullParamsAt_succ hacc hparent hnull hn hlen
  stable_within_epoch _ k hm hlen hnostart :=
    FullParamsAt_stable hacc hparent hnull hm k hlen hnostart
  publishes h b hh hb := by
    obtain ⟨full, hfull, hpub⟩ := published_of_accepted hacc hparent hnull hh hb
    refine ⟨full, hfull, hpub, fun htype => ?_⟩
    unfold PublishedForm
    split_ifs
    · rfl
    · exact DynaFedParamEntry.CalculateRoot_pruned H htype

end Chain

/-!
## A chain that is dynamic from genesis

Epochs of three blocks on an `elements` chain that is dynamic from genesis.
The activation block 1 publishes the legacy parameters in full, although it
starts no epoch; block 2 publishes them pruned, with an elided root that is not
their extra root, and is accepted all the same.  The hashes are stand-ins:
every digest is zero and a Merkle node is its right child.
-/

def exampleHashes : Hashes where
  SHA256 _ := BaseBlob.zero 32
  SHA256D _ := BaseBlob.zero 32
  Hash160 _ := BaseBlob.zero 20
  MerkleHash_Sha256Midstate _ right := right

def exampleConsensus : ConsensusParams where
  hashGenesisBlock := BaseBlob.zero 32
  max_block_signature_size := 0
  signblockscript := [0x51]
  dynamic_epoch_length := 3
  total_valid_epochs := 0
  genesis_style := "elements"
  dynafed_nStartTime := ALWAYS_ACTIVE
  fedpegScript := [0x51]
  start_p2wsh_script := true
  first_extension_space := []

def exampleLegacyParams : DynaFedParamEntry :=
  LegacyParamEntry exampleHashes exampleConsensus [0x51]

def exampleElidedRoot : Uint256 :=
  ⟨List.replicate 31 0 ++ [2], rfl⟩

def exampleChain : Chain :=
  [{ CBlockHeader.empty with proof := ⟨[0x51], []⟩ },
    { CBlockHeader.empty with
      m_dynafed_params := ⟨exampleLegacyParams, DynaFedParamEntry.empty⟩ },
    { CBlockHeader.empty with
      m_dynafed_params :=
        ⟨DynaFedParamEntry.pruned exampleLegacyParams.m_signblockscript
          exampleLegacyParams.m_signblock_witness_limit exampleElidedRoot,
          DynaFedParamEntry.empty⟩ }]

theorem exampleChain_accepted :
    DynaFedAcceptedFrom exampleHashes exampleConsensus false (fun _ => false) exampleChain 1 := by
  intro h b hh hb
  have hlt : h < 3 := (List.getElem?_eq_some_iff.mp hb).1
  interval_cases h
  · simp only [exampleChain, List.getElem?_cons_succ, List.getElem?_cons_zero,
      Option.some.injEq] at hb
    subst hb
    decide
  · simp only [exampleChain, List.getElem?_cons_succ, List.getElem?_cons_zero,
      Option.some.injEq] at hb
    subst hb
    decide

theorem dynafed_epoch_discipline_exampleChain :
    DynaFedAcceptedFrom exampleHashes exampleConsensus false (fun _ => false) exampleChain 1 ∧
      EpochDiscipline exampleHashes exampleConsensus exampleChain 1 :=
  ⟨exampleChain_accepted, dynafed_epoch_discipline exampleChain_accepted rfl rfl⟩

/-- Blocks 1 and 2 lie in one epoch, yet their published roots differ; and
block 1, which starts no epoch, publishes a full entry. -/
theorem dynafed_root_changes_mid_epoch :
    DynaFedAcceptedFrom exampleHashes exampleConsensus false (fun _ => false) exampleChain 1 ∧
      2 % exampleConsensus.dynamic_epoch_length.toNat ≠ 0 ∧
      exampleChain[1]?.map (fun b => b.m_dynafed_params.m_current.CalculateRoot exampleHashes) ≠
        exampleChain[2]?.map (fun b => b.m_dynafed_params.m_current.CalculateRoot exampleHashes) ∧
      1 % exampleConsensus.dynamic_epoch_length.toNat ≠ 0 ∧
      exampleChain[1]?.map (fun b => b.m_dynafed_params.m_current.m_serialize_type) = some 2 :=
  ⟨exampleChain_accepted, by decide, by decide, by decide, rfl⟩

end Elements
