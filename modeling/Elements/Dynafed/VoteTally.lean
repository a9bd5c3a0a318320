import Elements.Dynafed.Epochs

/-!
# The vote of an epoch

`NextBlockIsParameterTransition` walks the `L` blocks of the epoch below the
next block from the top down, tallies the roots of their proposals, and stops
at the first non-null root whose tally reaches `(L * 4) / 5`.  The tally it
keeps counts the blocks walked so far, so the walk finds a winner exactly when
some non-null root has that many votes over the whole epoch: `VoteTally_winner`
of `Epochs` gives one direction and `VoteTally_complete` the other.  From
`L = 3` on the threshold is more than half the epoch, so no two roots reach it
and the order of the walk does not matter.

The threshold is computed in `uint32_t`.  From `L = 2 ^ 30` on, `L * 4`
wraps; at `L = 2 ^ 30` the threshold is zero and the first non-null root the
walk meets wins with one vote.
-/

namespace Elements

/-- `root` carries the vote of the epoch of `L` blocks below height `h`: it is
not null, and at least `⌊4L/5⌋` of the epoch's blocks, and at least one,
propose an entry with that root. -/
def CarriesVote (H : Hashes) (chain : Chain) (L h : Nat) (root : Uint256) : Prop :=
  root.IsNull = false ∧ max (4 * L / 5) 1 ≤ VoteCount H chain root (h - L) L

section Vote

variable {H : Hashes} {chain : Chain}

theorem threshold_toNat {d : UInt32} (hd : d.toNat < 2 ^ 30) :
    (d * 4 / 5).toNat = 4 * d.toNat / 5 := by
  rw [UInt32.toNat_div, UInt32.toNat_mul, Nat.mod_eq_of_lt]
  all_goals simp
  all_goals omega

theorem VoteCount_pos_of_getElem? {bottom len k : Nat} {b : CBlockHeader} (hlo : bottom ≤ k)
    (hhi : k < bottom + len) (hb : chain[k]? = some b) :
    0 < VoteCount H chain (b.m_dynafed_params.m_proposed.CalculateRoot H) bottom len := by
  have hmem : b ∈ (chain.drop bottom).take len := by
    refine List.mem_iff_getElem?.mpr ⟨k - bottom, ?_⟩
    rw [List.getElem?_take, if_pos (by omega), List.getElem?_drop, Nat.add_sub_cancel' hlo, hb]
  exact List.countP_pos_iff.mpr ⟨b, hmem, by simp⟩

theorem VoteCount_add_le {r₁ r₂ : Uint256} (hne : r₁ ≠ r₂) (bottom len : Nat) :
    VoteCount H chain r₁ bottom len + VoteCount H chain r₂ bottom len ≤ len := by
  unfold VoteCount
  set window := (chain.drop bottom).take len
  have hsplit := List.length_eq_countP_add_countP
    (fun b => b.m_dynafed_params.m_proposed.CalculateRoot H == r₁) (l := window)
  have hmono : window.countP (fun b => b.m_dynafed_params.m_proposed.CalculateRoot H == r₂) ≤
      window.countP (fun b => decide ¬(b.m_dynafed_params.m_proposed.CalculateRoot H == r₁) = true) := by
    apply List.countP_mono_left
    intro b _ h
    rw [beq_iff_eq] at h
    simp [h, Ne.symm hne]
  have hlen : window.length ≤ len := List.length_take_le _ _
  omega

/-- The converse of `VoteTally_winner`: a non-null root whose votes so far,
with those still to walk, reach the threshold, and that has a vote still to
walk, makes the loop find a winner.  The induction is on the blocks left; at
each, either the loop stops or the root's tally and its votes still to walk
move together. -/
theorem VoteTally_complete {threshold bottom : Nat} :
    ∀ {r : Nat} {tally : Uint256 -> Nat} {root : Uint256}, bottom + r ≤ chain.length ->
      root.IsNull = false -> threshold ≤ tally root + VoteCount H chain root bottom r ->
      0 < VoteCount H chain root bottom r ->
      ∃ w, NextBlockIsParameterTransition.VoteTally H chain threshold bottom r tally =
        some (some w) := by
  intro r
  induction r with
  | zero =>
    intro tally root _ _ _ hpos
    simp [VoteCount] at hpos
  | succ r ih =>
    intro tally root hlen hnull hreach hpos
    have hb : chain[bottom + r]? = some chain[bottom + r] := List.getElem?_eq_getElem (by omega)
    rw [VoteTally_succ hb]
    rw [VoteCount_succ hb] at hreach hpos
    set top := chain[bottom + r].m_dynafed_params.m_proposed.CalculateRoot H with htop
    dsimp only
    by_cases hwin : (!top.IsNull && decide (threshold ≤ tally top + 1)) = true
    · exact ⟨_, if_pos hwin⟩
    · rw [if_neg hwin]
      by_cases heq : top = root
      · -- the top block votes for `root`, which has not won yet
        subst heq
        rw [if_pos rfl] at hreach hpos
        simp only [hnull, Bool.not_false, Bool.true_and, decide_eq_true_eq] at hwin
        apply ih (by omega) hnull
        · rw [Function.update_self]
          omega
        · omega
      · rw [if_neg heq] at hreach hpos
        apply ih (by omega) hnull _ hpos
        rwa [Function.update_of_ne (Ne.symm heq)]

theorem eq_of_VoteCount_ge {threshold bottom len : Nat} {r₁ r₂ : Uint256}
    (hhalf : len < 2 * threshold) (h₁ : threshold ≤ VoteCount H chain r₁ bottom len)
    (h₂ : threshold ≤ VoteCount H chain r₂ bottom len) : r₁ = r₂ := by
  by_contra hne
  have hsum : VoteCount H chain r₁ bottom len + VoteCount H chain r₂ bottom len ≤ len :=
    VoteCount_add_le hne bottom len
  omega

theorem CarriesVote_unique {L h : Nat} {r₁ r₂ : Uint256} (hL : 3 ≤ L)
    (h₁ : CarriesVote H chain L h r₁) (h₂ : CarriesVote H chain L h r₂) : r₁ = r₂ := by
  have hv₁ : 4 * L / 5 ≤ VoteCount H chain r₁ (h - L) L := le_of_max_le_left h₁.2
  have hv₂ : 4 * L / 5 ≤ VoteCount H chain r₂ (h - L) L := le_of_max_le_left h₂.2
  -- `2 * ⌊4L/5⌋ > L` from `L = 3` on
  exact eq_of_VoteCount_ge (by omega) hv₁ hv₂

variable {consensus : ConsensusParams}

theorem NextBlockIsParameterTransition_of_mod_eq_zero
    (hL : 0 < consensus.dynamic_epoch_length.toNat)
    (hle : consensus.dynamic_epoch_length.toNat ≤ chain.length)
    (hmod : chain.length % consensus.dynamic_epoch_length.toNat = 0) :
    NextBlockIsParameterTransition H chain consensus =
      NextBlockIsParameterTransition.VoteTally H chain
        (consensus.dynamic_epoch_length * 4 / 5).toNat
        (chain.length - consensus.dynamic_epoch_length.toNat)
        consensus.dynamic_epoch_length.toNat (fun _ => 0) := by
  simp [NextBlockIsParameterTransition, Nat.pos_iff_ne_zero.mp hL, hmod, Nat.not_lt.mpr hle]

theorem CarriesVote_of_NextBlockIsParameterTransition {w : DynaFedParamEntry}
    (hwrap : consensus.dynamic_epoch_length.toNat < 2 ^ 30)
    (h : NextBlockIsParameterTransition H chain consensus = some (some w)) :
    CarriesVote H chain consensus.dynamic_epoch_length.toNat chain.length (w.CalculateRoot H) := by
  obtain ⟨_, _, ⟨k, b, hlo, hhi, hb, rfl⟩, hnull, hcount⟩ :=
    NextBlockIsParameterTransition_winner h
  have hpos : 0 < VoteCount H chain (b.m_dynafed_params.m_proposed.CalculateRoot H)
      (chain.length - consensus.dynamic_epoch_length.toNat) consensus.dynamic_epoch_length.toNat :=
    VoteCount_pos_of_getElem? hlo (by omega) hb
  rw [threshold_toNat hwrap] at hcount
  exact ⟨hnull, by omega⟩

theorem NextBlockIsParameterTransition_of_CarriesVote {root : Uint256}
    (hL : 0 < consensus.dynamic_epoch_length.toNat)
    (hle : consensus.dynamic_epoch_length.toNat ≤ chain.length)
    (hwrap : consensus.dynamic_epoch_length.toNat < 2 ^ 30)
    (hmod : chain.length % consensus.dynamic_epoch_length.toNat = 0)
    (hroot : CarriesVote H chain consensus.dynamic_epoch_length.toNat chain.length root) :
    ∃ w, NextBlockIsParameterTransition H chain consensus = some (some w) := by
  obtain ⟨hnull, hcount⟩ := hroot
  rw [NextBlockIsParameterTransition_of_mod_eq_zero hL hle hmod]
  apply VoteTally_complete (by omega) hnull
  · rw [threshold_toNat hwrap]
    omega
  · omega

theorem NextBlockIsParameterTransition_of_not_CarriesVote
    (hL : 0 < consensus.dynamic_epoch_length.toNat)
    (hle : consensus.dynamic_epoch_length.toNat ≤ chain.length)
    (hwrap : consensus.dynamic_epoch_length.toNat < 2 ^ 30)
    (hnone : ¬(chain.length % consensus.dynamic_epoch_length.toNat = 0 ∧
      ∃ root, CarriesVote H chain consensus.dynamic_epoch_length.toNat chain.length root)) :
    NextBlockIsParameterTransition H chain consensus = some none := by
  have hsome : (NextBlockIsParameterTransition H chain consensus).isSome :=
    NextBlockIsParameterTransition_isSome hL (by omega)
  rcases hres : NextBlockIsParameterTransition H chain consensus with _ | _ | w
  · rw [hres] at hsome
    simp at hsome
  · rfl
  · -- a winner would carry the vote
    obtain ⟨hmod, -⟩ := NextBlockIsParameterTransition_winner hres
    exact absurd ⟨hmod, _, CarriesVote_of_NextBlockIsParameterTransition hwrap hres⟩ hnone

end Vote

theorem NextBlockIsParameterTransition_counts_votes (H : Hashes) (chain : Chain)
    (consensus : ConsensusParams) (hL : 1 ≤ consensus.dynamic_epoch_length.toNat)
    (hle : consensus.dynamic_epoch_length.toNat ≤ chain.length)
    (hwrap : consensus.dynamic_epoch_length.toNat < 2 ^ 30) :
    ((∃ w, NextBlockIsParameterTransition H chain consensus = some (some w)) ↔
      chain.length % consensus.dynamic_epoch_length.toNat = 0 ∧
        ∃ root, CarriesVote H chain consensus.dynamic_epoch_length.toNat chain.length root) ∧
    (∀ w, NextBlockIsParameterTransition H chain consensus = some (some w) ->
      CarriesVote H chain consensus.dynamic_epoch_length.toNat chain.length (w.CalculateRoot H)) ∧
    (3 ≤ consensus.dynamic_epoch_length.toNat -> ∀ r₁ r₂,
      CarriesVote H chain consensus.dynamic_epoch_length.toNat chain.length r₁ ->
      CarriesVote H chain consensus.dynamic_epoch_length.toNat chain.length r₂ -> r₁ = r₂) ∧
    (¬(chain.length % consensus.dynamic_epoch_length.toNat = 0 ∧
        ∃ root, CarriesVote H chain consensus.dynamic_epoch_length.toNat chain.length root) ->
      NextBlockIsParameterTransition H chain consensus = some none) := by
  refine ⟨⟨?_, ?_⟩, fun w h => CarriesVote_of_NextBlockIsParameterTransition hwrap h,
    fun h3 r₁ r₂ h₁ h₂ => CarriesVote_unique h3 h₁ h₂,
    NextBlockIsParameterTransition_of_not_CarriesVote hL hle hwrap⟩
  · rintro ⟨w, hw⟩
    exact ⟨(NextBlockIsParameterTransition_winner hw).1, _,
      CarriesVote_of_NextBlockIsParameterTransition hwrap hw⟩
  · rintro ⟨hmod, root, hroot⟩
    exact NextBlockIsParameterTransition_of_CarriesVote hL hle hwrap hmod hroot

theorem NextBlockIsParameterTransition_counts_votes_exampleChain :
    1 ≤ exampleConsensus.dynamic_epoch_length.toNat ∧
      exampleConsensus.dynamic_epoch_length.toNat ≤ exampleChain.length ∧
      exampleConsensus.dynamic_epoch_length.toNat < 2 ^ 30 ∧
      ((∃ w, NextBlockIsParameterTransition exampleHashes exampleChain exampleConsensus =
          some (some w)) ↔
        exampleChain.length % exampleConsensus.dynamic_epoch_length.toNat = 0 ∧
          ∃ root, CarriesVote exampleHashes exampleChain
            exampleConsensus.dynamic_epoch_length.toNat exampleChain.length root) :=
  ⟨by decide, by decide, by decide,
    (NextBlockIsParameterTransition_counts_votes exampleHashes exampleChain exampleConsensus
      (by decide) (by decide) (by decide)).1⟩

/-!
## The threshold wraps

An epoch of `2 ^ 30` blocks in which only the top block proposes an entry.
`(2 ^ 30 * 4) % 2 ^ 32 = 0`, so the threshold is zero, and the top block's
proposal wins with its one vote.  The chain is never evaluated: each fact about
it is a rewrite by the list lemmas.
-/

def wrapConsensus : ConsensusParams :=
  { exampleConsensus with dynamic_epoch_length := 0x40000000 }

/-- A pruned proposal whose root, with a Merkle node its right child, is the
non-null elided root. -/
def wrapProposal : DynaFedParamEntry :=
  DynaFedParamEntry.pruned [] 0 exampleElidedRoot

def wrapChain : Chain :=
  List.replicate (2 ^ 30 - 1) CBlockHeader.empty ++
    [{ CBlockHeader.empty with m_dynafed_params := ⟨DynaFedParamEntry.empty, wrapProposal⟩ }]

theorem wrapConsensus_epoch_length : wrapConsensus.dynamic_epoch_length.toNat = 2 ^ 30 := rfl

theorem wrapChain_length : wrapChain.length = 2 ^ 30 := by
  rw [wrapChain, List.length_append, List.length_replicate, List.length_singleton]
  rfl

theorem wrapChain_top : wrapChain[0 + (2 ^ 30 - 1)]? = some
    { CBlockHeader.empty with m_dynafed_params := ⟨DynaFedParamEntry.empty, wrapProposal⟩ } := by
  rw [wrapChain, List.getElem?_append_right (by rw [List.length_replicate, Nat.zero_add]),
    List.length_replicate, Nat.zero_add, Nat.sub_self]
  rfl

theorem wrapProposal_CalculateRoot :
    wrapProposal.CalculateRoot exampleHashes = exampleElidedRoot := by
  simp only [DynaFedParamEntry.CalculateRoot, wrapProposal, DynaFedParamEntry.pruned]
  rw [FastMerkleRoot_pair]
  rfl

theorem VoteCount_wrapChain_le {root : Uint256} (hroot : root.IsNull = false) :
    VoteCount exampleHashes wrapChain root (2 ^ 30 - 2 ^ 30) (2 ^ 30) ≤ 1 := by
  have hzero : (BaseBlob.zero 32 == root) = false := by
    rw [beq_eq_false_iff_ne]
    rintro rfl
    rw [BaseBlob.zero_IsNull] at hroot
    exact Bool.noConfusion hroot
  have hempty : CBlockHeader.empty.m_dynafed_params.m_proposed.CalculateRoot exampleHashes =
      BaseBlob.zero 32 := rfl
  rw [VoteCount, Nat.sub_self, List.drop_zero,
    List.take_of_length_le (by rw [wrapChain_length]), wrapChain, List.countP_append,
    List.countP_replicate, hempty, hzero, if_neg Bool.false_ne_true, Nat.zero_add]
  exact List.countP_le_length

theorem NextBlockIsParameterTransition_threshold_wraps :
    wrapConsensus.dynamic_epoch_length.toNat = 2 ^ 30 ∧ wrapChain.length = 2 ^ 30 ∧
      NextBlockIsParameterTransition exampleHashes wrapChain wrapConsensus =
        some (some wrapProposal) ∧
      ¬∃ root, CarriesVote exampleHashes wrapChain (2 ^ 30) (2 ^ 30) root := by
  have hL := wrapConsensus_epoch_length
  have hlen := wrapChain_length
  have hthreshold : (wrapConsensus.dynamic_epoch_length * 4 / 5).toNat = 0 := by decide
  have hnull : (wrapProposal.CalculateRoot exampleHashes).IsNull = false := by
    rw [wrapProposal_CalculateRoot]
    decide
  refine ⟨hL, hlen, ?_, ?_⟩
  · -- the walk stops at the top block
    rw [NextBlockIsParameterTransition_of_mod_eq_zero (by rw [hL]; decide) (by rw [hL, hlen])
        (by rw [hL, hlen]; exact Nat.mod_self _), hthreshold, hL, hlen, Nat.sub_self,
      show (2 : Nat) ^ 30 = 2 ^ 30 - 1 + 1 from rfl, VoteTally_succ wrapChain_top]
    simp only [hnull, Bool.not_false, Bool.true_and, decide_eq_true_eq, Nat.zero_le, if_true]
  · rintro ⟨root, hroot, hcount⟩
    have hcount1 := VoteCount_wrapChain_le hroot
    have hmax : max (4 * 2 ^ 30 / 5) 1 = 858993459 := by decide
    omega

end Elements
