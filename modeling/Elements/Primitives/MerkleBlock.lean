import Elements.Consensus.Merkle
import Elements.Validation.CheckBlock

/-!
# Partial Merkle trees

`CPartialMerkleTree` of `merkleblock.cpp` proves that some transactions are in
a block without sending the others.  The tree over the block's txids is walked
depth first; each node visited gives a bit, whether it is the parent of a
matched txid (or a matched txid itself).  A node whose bit is clear, or a leaf,
gives its hash and is not entered; a node whose bit is set is entered.
`TraverseAndBuild` writes the bits and hashes, `TraverseAndExtract` reads them
back along the same walk, and `ExtractMatches` checks that they were read
exactly and returns the root, the matched txids and their positions.

The hash is a parameter, as in `ComputeMerkleRoot`, and `zero` is `uint256()`.
A tree built from the txids of a block extracts the block's Merkle root and
the matched txids (`ExtractMatches_new_padded`) when the nodes on each level of
the block's tree are distinct, and a tree that extracts the root of a list of
txids of its size has matched txids of that list, at the positions it reports
(`ExtractMatches_sound_of_binding`), when each node of that list's tree has one
preimage.  Without a collision of the hash both conditions hold for distinct
txids (`ExtractMatches_sound`).  The copy of the class in `Sidechain::Bitcoin`, which reads the
proofs of peg-ins, has the same code.
-/

namespace Elements

open MerkleLevels

def MIN_TRANSACTION_WEIGHT : Nat := WITNESS_SCALE_FACTOR * 60

/-- `CPartialMerkleTree`, over hashes `D`. -/
structure CPartialMerkleTree (D : Type) where
  nTransactions : Nat
  vBits : List Bool
  vHash : List D
  fBad : Bool

/-- The state `TraverseAndExtract` passes by reference: the bits and hashes
read, the matched txids and their positions, and the tree's `fBad`. -/
structure ExtractState (D : Type) where
  nBitsUsed : Nat
  nHashUsed : Nat
  vMatch : List D
  vnIndex : List Nat
  fBad : Bool

namespace ExtractState

variable {D : Type}

/-- The state after `bits` more bits and `hashes` more hashes are read, with
the matched txids `matched` at the positions `idx` added. -/
def consumed (st : ExtractState D) (bits hashes : Nat) (matched : List D) (idx : List Nat) : ExtractState D :=
  ⟨st.nBitsUsed + bits, st.nHashUsed + hashes, st.vMatch ++ matched, st.vnIndex ++ idx, st.fBad⟩

@[simp] theorem consumed_nBitsUsed (st : ExtractState D) (bits hashes : Nat) (matched : List D) (idx : List Nat) :
    (st.consumed bits hashes matched idx).nBitsUsed = st.nBitsUsed + bits := rfl

@[simp] theorem consumed_nHashUsed (st : ExtractState D) (bits hashes : Nat) (matched : List D) (idx : List Nat) :
    (st.consumed bits hashes matched idx).nHashUsed = st.nHashUsed + hashes := rfl

@[simp] theorem consumed_vMatch (st : ExtractState D) (bits hashes : Nat) (matched : List D) (idx : List Nat) :
    (st.consumed bits hashes matched idx).vMatch = st.vMatch ++ matched := rfl

@[simp] theorem consumed_vnIndex (st : ExtractState D) (bits hashes : Nat) (matched : List D) (idx : List Nat) :
    (st.consumed bits hashes matched idx).vnIndex = st.vnIndex ++ idx := rfl

@[simp] theorem consumed_fBad (st : ExtractState D) (bits hashes : Nat) (matched : List D) (idx : List Nat) :
    (st.consumed bits hashes matched idx).fBad = st.fBad := rfl

@[simp] theorem consumed_consumed (st : ExtractState D) (bits hashes bits' hashes' : Nat) (matched matched' : List D)
    (idx idx' : List Nat) :
    (st.consumed bits hashes matched idx).consumed bits' hashes' matched' idx' =
      st.consumed (bits + bits') (hashes + hashes') (matched ++ matched') (idx ++ idx') := by
  simp only [consumed, Nat.add_assoc, List.append_assoc]

end ExtractState

/-- What `ExtractMatches` gives back: the root (`uint256()` on failure), the
vectors `vMatch` and `vnIndex` it filled, and the tree's `fBad` after it. -/
structure Extracted (D : Type) where
  root : D
  vMatch : List D
  vnIndex : List Nat
  fBad : Bool

namespace CPartialMerkleTree

variable {D : Type} (Hash : D → D → D) (zero : D)

/-- `CalcTreeWidth`: the number of nodes at `height`. -/
def CalcTreeWidth (nTransactions height : Nat) : Nat :=
  (nTransactions + (1 <<< height) - 1) >>> height

/-- `while (CalcTreeWidth(nHeight) > 1) nHeight++;`, for at most `fuel` steps. -/
def CalcTreeHeightLoop (nTransactions : Nat) : Nat → Nat → Nat
  | 0, nHeight => nHeight
  | fuel + 1, nHeight =>
    if CalcTreeWidth nTransactions nHeight > 1 then CalcTreeHeightLoop nTransactions fuel (nHeight + 1)
    else nHeight

/-- The height loop of the constructor and of `ExtractMatches`, from
`nHeight = 0`.  The width halves at each step, so `nTransactions` steps are
enough. -/
def CalcTreeHeight (nTransactions : Nat) : Nat :=
  CalcTreeHeightLoop nTransactions nTransactions 0

/-- `CalcHash`: the hash of the node at `height` and `pos`, the txids
themselves at height 0.  Past the end of `vTxid` it reads `zero`; no node the
walks reach is there. -/
def CalcHash (nTransactions : Nat) (vTxid : List D) : Nat → Nat → D
  | 0, pos => vTxid.getD pos zero
  | height + 1, pos =>
    let left := CalcHash nTransactions vTxid height (pos * 2)
    let right :=
      if pos * 2 + 1 < CalcTreeWidth nTransactions height then CalcHash nTransactions vTxid height (pos * 2 + 1)
      else left
    Hash left right

/-- The loop of `TraverseAndBuild` over `p` from `pos << height` while
`p < (pos + 1) << height && p < nTransactions`: whether the node covers a
matched txid. -/
def ParentOfMatch (nTransactions : Nat) (vMatch : List Bool) (height pos : Nat) : Bool :=
  (List.range' (pos <<< height) (min ((pos + 1) <<< height) nTransactions - pos <<< height)).any
    fun p => vMatch.getD p false

/-- `TraverseAndBuild`: the bits and the hashes it pushes onto `vBits` and
`vHash`. -/
def TraverseAndBuild (nTransactions : Nat) (vTxid : List D) (vMatch : List Bool) :
    Nat → Nat → List Bool × List D
  | 0, pos => ([ParentOfMatch nTransactions vMatch 0 pos], [CalcHash Hash zero nTransactions vTxid 0 pos])
  | height + 1, pos =>
    let fParentOfMatch := ParentOfMatch nTransactions vMatch (height + 1) pos
    if !fParentOfMatch then ([fParentOfMatch], [CalcHash Hash zero nTransactions vTxid (height + 1) pos])
    else
      let left := TraverseAndBuild nTransactions vTxid vMatch height (pos * 2)
      let right :=
        if pos * 2 + 1 < CalcTreeWidth nTransactions height then
          TraverseAndBuild nTransactions vTxid vMatch height (pos * 2 + 1)
        else ([], [])
      (fParentOfMatch :: (left.1 ++ right.1), left.2 ++ right.2)

/-- The branch of `TraverseAndExtract` at height 0 or under a clear bit: the
next stored hash is the node's, and at height 0 under a set bit it is a
matched txid. -/
def UseStoredHash (vHash : List D) (height pos : Nat) (fParentOfMatch : Bool) (st : ExtractState D) :
    D × ExtractState D :=
  if st.nHashUsed ≥ vHash.length then (zero, { st with fBad := true })
  else
    let hash := vHash.getD st.nHashUsed zero
    let st := { st with nHashUsed := st.nHashUsed + 1 }
    if height = 0 ∧ fParentOfMatch = true then
      (hash, { st with vMatch := st.vMatch ++ [hash], vnIndex := st.vnIndex ++ [pos] })
    else (hash, st)

/-- `TraverseAndExtract`: the hash of the node, and the state after its
subtree. -/
def TraverseAndExtract [DecidableEq D] (nTransactions : Nat) (vBits : List Bool) (vHash : List D) :
    Nat → Nat → ExtractState D → D × ExtractState D
  | 0, pos, st =>
    if st.nBitsUsed ≥ vBits.length then (zero, { st with fBad := true })
    else UseStoredHash zero vHash 0 pos (vBits.getD st.nBitsUsed false) { st with nBitsUsed := st.nBitsUsed + 1 }
  | height + 1, pos, st =>
    if st.nBitsUsed ≥ vBits.length then (zero, { st with fBad := true })
    else
      let fParentOfMatch := vBits.getD st.nBitsUsed false
      let st := { st with nBitsUsed := st.nBitsUsed + 1 }
      if !fParentOfMatch then UseStoredHash zero vHash (height + 1) pos fParentOfMatch st
      else
        let left := TraverseAndExtract nTransactions vBits vHash height (pos * 2) st
        if pos * 2 + 1 < CalcTreeWidth nTransactions height then
          let right := TraverseAndExtract nTransactions vBits vHash height (pos * 2 + 1) left.2
          -- two equal siblings cover the same txids twice
          (Hash left.1 right.1, if right.1 = left.1 then { right.2 with fBad := true } else right.2)
        else (Hash left.1 left.1, left.2)

/-- The constructor `CPartialMerkleTree(vTxid, vMatch)`; `none` for no txids,
where `CalcHash` fails its assertion, and for fewer flags than txids, where the
walk at the root reads `vMatch` past its end. -/
def new (vTxid : List D) (vMatch : List Bool) : Option (CPartialMerkleTree D) :=
  if vTxid.length = 0 ∨ vMatch.length < vTxid.length then none
  else
    let built := TraverseAndBuild Hash zero vTxid.length vTxid vMatch (CalcTreeHeight vTxid.length) 0
    some ⟨vTxid.length, built.1, built.2, false⟩

/-- `ExtractMatches(vMatch, vnIndex)`: `vMatch` is cleared first, `vnIndex` is
appended to as it is. -/
def ExtractMatches [DecidableEq D] (t : CPartialMerkleTree D) (vnIndex : List Nat) : Extracted D :=
  let failed : Extracted D := ⟨zero, [], vnIndex, t.fBad⟩
  if t.nTransactions = 0 then failed
  else if t.nTransactions > MAX_BLOCK_WEIGHT / MIN_TRANSACTION_WEIGHT then failed
  else if t.vHash.length > t.nTransactions then failed
  else if t.vBits.length < t.vHash.length then failed
  else
    let r := TraverseAndExtract Hash zero t.nTransactions t.vBits t.vHash (CalcTreeHeight t.nTransactions) 0
      ⟨0, 0, [], vnIndex, t.fBad⟩
    let result (root : D) : Extracted D := ⟨root, r.2.vMatch, r.2.vnIndex, r.2.fBad⟩
    if r.2.fBad then result zero
    -- every bit read, up to the padding of the last byte
    else if (r.2.nBitsUsed + 7) / 8 ≠ (t.vBits.length + 7) / 8 then result zero
    else if r.2.nHashUsed ≠ t.vHash.length then result zero
    else result r.1

/-! ## Widths, heights and node hashes -/

section Nodes

variable {Hash zero}

theorem CalcTreeWidth_eq (nTransactions height : Nat) :
    CalcTreeWidth nTransactions height = width nTransactions height := by
  rw [CalcTreeWidth, width, Nat.shiftLeft_eq, Nat.one_mul, Nat.shiftRight_eq_div_pow]

theorem CalcTreeHeightLoop_eq (nTransactions : Nat) (fuel nHeight : Nat)
    (hle : nHeight ≤ height nTransactions) (hfuel : height nTransactions ≤ nHeight + fuel) :
    CalcTreeHeightLoop nTransactions fuel nHeight = height nTransactions := by
  induction fuel generalizing nHeight with
  | zero => rw [CalcTreeHeightLoop]; omega
  | succ fuel ih =>
    rw [CalcTreeHeightLoop, CalcTreeWidth_eq]
    by_cases hlt : nHeight < height nTransactions
    · rw [if_pos (one_lt_width_iff.mpr hlt)]
      exact ih (nHeight + 1) hlt (by omega)
    · rw [if_neg (fun h => hlt (one_lt_width_iff.mp h))]
      omega

theorem CalcTreeHeight_eq (nTransactions : Nat) : CalcTreeHeight nTransactions = height nTransactions :=
  CalcTreeHeightLoop_eq nTransactions _ _ (Nat.zero_le _) (by rw [Nat.zero_add]; exact height_le_self _)

theorem CalcHash_eq {vTxid : List D} {nTransactions : Nat} (hn : vTxid.length = nTransactions) (height : Nat)
    {pos : Nat} (hpos : pos < width nTransactions height) :
    CalcHash Hash zero nTransactions vTxid height pos = (level Hash vTxid height).getD pos zero := by
  induction height generalizing pos with
  | zero => rfl
  | succ height ih =>
    have hleft : 2 * pos < width nTransactions height := by
      rw [width_succ] at hpos
      omega
    have hlen : (level Hash vTxid height).length = width nTransactions height := by
      rw [length_level, hn]
    rw [CalcHash, CalcTreeWidth_eq, level_succ, getD_up _ _ (by rw [hlen]; exact hleft), hlen,
      Nat.mul_comm pos 2, ih hleft]
    by_cases hright : 2 * pos + 1 < width nTransactions height
    · rw [if_pos hright, if_pos hright, ih hright]
    · rw [if_neg hright, if_neg hright]

end Nodes

/-! ## Building -/

section Build

variable {Hash zero}

def Matched (nTransactions : Nat) (vMatch : List Bool) (height pos : Nat) : List Nat :=
  (span nTransactions height pos).filter fun p => vMatch.getD p false

theorem ParentOfMatch_eq (nTransactions : Nat) (vMatch : List Bool) (height pos : Nat) :
    ParentOfMatch nTransactions vMatch height pos = (span nTransactions height pos).any fun p => vMatch.getD p false := by
  rw [ParentOfMatch, span, Nat.shiftLeft_eq, Nat.shiftLeft_eq]

theorem ParentOfMatch_eq_false_iff {nTransactions : Nat} {vMatch : List Bool} {height pos : Nat} :
    ParentOfMatch nTransactions vMatch height pos = false ↔ Matched nTransactions vMatch height pos = [] := by
  rw [ParentOfMatch_eq, List.any_eq_false, Matched, List.filter_eq_nil_iff]

theorem Matched_succ (nTransactions : Nat) (vMatch : List Bool) (height pos : Nat) :
    Matched nTransactions vMatch (height + 1) pos =
      Matched nTransactions vMatch height (2 * pos) ++ Matched nTransactions vMatch height (2 * pos + 1) := by
  rw [Matched, span_succ, List.filter_append]
  rfl

theorem Matched_eq_nil {nTransactions : Nat} (vMatch : List Bool) {height pos : Nat}
    (hpos : width nTransactions height ≤ pos) : Matched nTransactions vMatch height pos = [] := by
  rw [Matched, span_eq_nil hpos, List.filter_nil]

theorem length_span_pos {nTransactions height pos : Nat} (hpos : pos < width nTransactions height) :
    0 < (span nTransactions height pos).length := by
  rw [lt_width_iff] at hpos
  rw [span, List.length_range']
  have hp : pos * 2 ^ height < (pos + 1) * 2 ^ height :=
    Nat.mul_lt_mul_of_pos_right (Nat.lt_succ_self pos) (Nat.two_pow_pos height)
  omega

theorem length_TraverseAndBuild_le (nTransactions : Nat) (vTxid : List D) (vMatch : List Bool) (height : Nat)
    {pos : Nat} (hpos : pos < width nTransactions height) :
    (TraverseAndBuild Hash zero nTransactions vTxid vMatch height pos).2.length ≤
        (TraverseAndBuild Hash zero nTransactions vTxid vMatch height pos).1.length ∧
      (TraverseAndBuild Hash zero nTransactions vTxid vMatch height pos).2.length ≤
        (span nTransactions height pos).length := by
  induction height generalizing pos with
  | zero =>
    have hspan := length_span_pos hpos
    simp only [TraverseAndBuild, List.length_singleton]
    omega
  | succ height ih =>
    rw [TraverseAndBuild]
    dsimp only
    cases hb : ParentOfMatch nTransactions vMatch (height + 1) pos with
    | false =>
      have hspan := length_span_pos hpos
      simp only [Bool.not_false, if_true, List.length_singleton]
      omega
    | true =>
      have hleft : 2 * pos < width nTransactions height := by
        rw [width_succ] at hpos
        omega
      obtain ⟨hl₁, hl₂⟩ := ih hleft
      simp only [Bool.not_true, Bool.false_eq_true, if_false, List.length_cons, List.length_append,
        span_succ, CalcTreeWidth_eq, Nat.mul_comm pos 2]
      by_cases hright : 2 * pos + 1 < width nTransactions height
      · obtain ⟨hr₁, hr₂⟩ := ih hright
        rw [if_pos hright]
        omega
      · rw [if_neg hright, span_eq_nil (Nat.le_of_not_lt hright)]
        simp only [List.length_nil]
        omega

theorem length_TraverseAndBuild_bits_lt (nTransactions : Nat) (vTxid : List D) (vMatch : List Bool)
    (height pos : Nat) :
    (TraverseAndBuild Hash zero nTransactions vTxid vMatch height pos).1.length < 2 ^ (height + 1) := by
  induction height generalizing pos with
  | zero => simp [TraverseAndBuild]
  | succ height ih =>
    have hpow : 2 ^ (height + 1 + 1) = 2 ^ (height + 1) + 2 ^ (height + 1) := by rw [Nat.pow_succ]; omega
    have hl := ih (pos * 2)
    have hr := ih (pos * 2 + 1)
    rw [TraverseAndBuild]
    dsimp only
    cases ParentOfMatch nTransactions vMatch (height + 1) pos with
    | false =>
      simp only [Bool.not_false, if_true, List.length_singleton]
      omega
    | true =>
      simp only [Bool.not_true, Bool.false_eq_true, if_false, List.length_cons, List.length_append]
      split
      · omega
      · simp only [List.length_nil]
        omega

end Build

/-! ## Extracting, one step -/

section ExtractStep

variable {Hash zero} {nTransactions : Nat} {vBits : List Bool} {vHash : List D}
  {height pos : Nat} {st : ExtractState D}

theorem read_eq_consumed (st : ExtractState D) :
    ({ st with nBitsUsed := st.nBitsUsed + 1 } : ExtractState D) = st.consumed 1 0 [] [] := by
  simp [ExtractState.consumed]

theorem UseStoredHash_of_lt (hlt : st.nHashUsed < vHash.length) (b : Bool) :
    UseStoredHash zero vHash height pos b st =
      (vHash.getD st.nHashUsed zero,
        if height = 0 ∧ b = true then st.consumed 0 1 [vHash.getD st.nHashUsed zero] [pos]
        else st.consumed 0 1 [] []) := by
  rw [UseStoredHash, if_neg (Nat.not_le.mpr hlt)]
  split <;> simp [ExtractState.consumed]

theorem UseStoredHash_fBad (hbad : st.fBad = true) (b : Bool) :
    (UseStoredHash zero vHash height pos b st).2.fBad = true := by
  rw [UseStoredHash]
  split
  · rfl
  · split <;> exact hbad

variable [DecidableEq D]

theorem TraverseAndExtract_of_le (hge : vBits.length ≤ st.nBitsUsed) :
    TraverseAndExtract Hash zero nTransactions vBits vHash height pos st = (zero, { st with fBad := true }) := by
  cases height <;> rw [TraverseAndExtract, if_pos hge]

theorem TraverseAndExtract_zero (hlt : st.nBitsUsed < vBits.length) :
    TraverseAndExtract Hash zero nTransactions vBits vHash 0 pos st =
      UseStoredHash zero vHash 0 pos (vBits.getD st.nBitsUsed false) (st.consumed 1 0 [] []) := by
  rw [TraverseAndExtract, if_neg (Nat.not_le.mpr hlt), read_eq_consumed]

theorem TraverseAndExtract_succ_clear (hlt : st.nBitsUsed < vBits.length)
    (hb : vBits.getD st.nBitsUsed false = false) :
    TraverseAndExtract Hash zero nTransactions vBits vHash (height + 1) pos st =
      UseStoredHash zero vHash (height + 1) pos false (st.consumed 1 0 [] []) := by
  rw [TraverseAndExtract, if_neg (Nat.not_le.mpr hlt)]
  simp only [hb, Bool.not_false, if_true]
  rw [read_eq_consumed]

theorem TraverseAndExtract_succ_set (hlt : st.nBitsUsed < vBits.length)
    (hb : vBits.getD st.nBitsUsed false = true) :
    TraverseAndExtract Hash zero nTransactions vBits vHash (height + 1) pos st =
      let left := TraverseAndExtract Hash zero nTransactions vBits vHash height (2 * pos) (st.consumed 1 0 [] [])
      if 2 * pos + 1 < width nTransactions height then
        let right := TraverseAndExtract Hash zero nTransactions vBits vHash height (2 * pos + 1) left.2
        (Hash left.1 right.1, if right.1 = left.1 then { right.2 with fBad := true } else right.2)
      else (Hash left.1 left.1, left.2) := by
  rw [TraverseAndExtract, if_neg (Nat.not_le.mpr hlt)]
  simp only [hb, Bool.not_true, Bool.false_eq_true, if_false, CalcTreeWidth_eq, Nat.mul_comm pos 2]
  rw [read_eq_consumed]

theorem TraverseAndExtract_fBad (hbad : st.fBad = true) :
    (TraverseAndExtract Hash zero nTransactions vBits vHash height pos st).2.fBad = true := by
  induction height generalizing pos st with
  | zero =>
    by_cases hge : vBits.length ≤ st.nBitsUsed
    · rw [TraverseAndExtract_of_le hge]
    · rw [TraverseAndExtract_zero (Nat.lt_of_not_le hge)]
      exact UseStoredHash_fBad (by rw [ExtractState.consumed_fBad]; exact hbad) _
  | succ height ih =>
    by_cases hge : vBits.length ≤ st.nBitsUsed
    · rw [TraverseAndExtract_of_le hge]
    cases hb : vBits.getD st.nBitsUsed false with
    | false =>
      rw [TraverseAndExtract_succ_clear (Nat.lt_of_not_le hge) hb]
      exact UseStoredHash_fBad (by rw [ExtractState.consumed_fBad]; exact hbad) _
    | true =>
      rw [TraverseAndExtract_succ_set (Nat.lt_of_not_le hge) hb]
      have hleft := @ih (2 * pos) (st.consumed 1 0 [] []) hbad
      dsimp only
      split
      · have hright := @ih (2 * pos + 1) _ hleft
        split
        · rfl
        · exact hright
      · exact hleft

end ExtractStep

/-! ## Extracting what was built -/

section Complete

variable {Hash} [DecidableEq D]

theorem getD_append_cons_length {α : Type} (pre rest : List α) (b d : α) :
    (pre ++ b :: rest).getD pre.length d = b := by
  rw [List.getD_append_right _ _ _ _ (Nat.le_refl _), Nat.sub_self]
  rfl

theorem TraverseAndExtract_TraverseAndBuild {vTxid : List D} (hnd : LevelsNodup Hash vTxid)
    {n : Nat} (hn : vTxid.length = n) (vMatch : List Bool) (height : Nat) (hh : height ≤ MerkleLevels.height n)
    {pos : Nat}
    (hpos : pos < width n height) (pre post : List Bool) (preH postH : List D) (st : ExtractState D)
    (hbits : st.nBitsUsed = pre.length) (hhashes : st.nHashUsed = preH.length) :
    TraverseAndExtract Hash zero n (pre ++ (TraverseAndBuild Hash zero n vTxid vMatch height pos).1 ++ post)
        (preH ++ (TraverseAndBuild Hash zero n vTxid vMatch height pos).2 ++ postH) height pos st =
      ((level Hash vTxid height).getD pos zero,
        st.consumed (TraverseAndBuild Hash zero n vTxid vMatch height pos).1.length
          (TraverseAndBuild Hash zero n vTxid vMatch height pos).2.length
          ((Matched n vMatch height pos).map fun i => vTxid.getD i zero) (Matched n vMatch height pos)) := by
  induction height generalizing pos pre post preH postH st with
  | zero =>
    -- a leaf: one bit, whether it is matched, and its txid
    have hlt : pos < n := by rwa [width_zero] at hpos
    have hspan : span n 0 pos = [pos] := by rw [span_zero, if_pos hlt]
    have hb : ParentOfMatch n vMatch 0 pos = vMatch.getD pos false := by
      rw [ParentOfMatch_eq, hspan, List.any_cons, List.any_nil, Bool.or_false]
    simp only [TraverseAndBuild, CalcHash, List.length_singleton, Matched, hspan, List.append_assoc,
      List.singleton_append]
    rw [TraverseAndExtract_zero (by simp [hbits]), hbits, getD_append_cons_length, hb,
      UseStoredHash_of_lt (by simp [hhashes])]
    simp only [ExtractState.consumed_nHashUsed, Nat.add_zero, hhashes, getD_append_cons_length]
    cases hv : vMatch.getD pos false with
    | false => simp [List.getD_eq_getElem?_getD ▸ hv]
    | true => simp [List.getD_eq_getElem?_getD ▸ hv]
  | succ height ih =>
    replace ih := @ih (Nat.le_of_succ_le hh)
    have hleft : 2 * pos < width n height := by
      rw [width_succ] at hpos
      omega
    have hlen : (level Hash vTxid height).length = width n height := by rw [length_level, hn]
    rw [TraverseAndBuild]
    dsimp only
    cases hb : ParentOfMatch n vMatch (height + 1) pos with
    | false =>
      -- no match below: the node's hash is stored
      have hm : Matched n vMatch (height + 1) pos = [] := ParentOfMatch_eq_false_iff.mp hb
      simp only [Bool.not_false, if_true, List.length_singleton, hm, List.map_nil, List.append_assoc,
        List.singleton_append]
      rw [TraverseAndExtract_succ_clear (by simp [hbits]) (by rw [hbits, getD_append_cons_length]),
        UseStoredHash_of_lt (by simp [hhashes])]
      simp only [ExtractState.consumed_nHashUsed, Nat.add_zero, hhashes, getD_append_cons_length,
        CalcHash_eq hn _ hpos]
      simp
    | true =>
      -- the children's bits and hashes follow the set bit, the left child's first
      simp only [Bool.not_true, Bool.false_eq_true, if_false, CalcTreeWidth_eq, Nat.mul_comm pos 2]
      rw [TraverseAndExtract_succ_set (by simp [hbits]) (by rw [hbits, List.append_assoc,
        List.cons_append, getD_append_cons_length])]
      dsimp only
      set BL := TraverseAndBuild Hash zero n vTxid vMatch height (2 * pos) with hBL
      have hst : (st.consumed 1 0 [] []).nBitsUsed = (pre ++ [true]).length := by simp [hbits]
      have hsth : (st.consumed 1 0 [] []).nHashUsed = preH.length := by simp [hhashes]
      by_cases hright : 2 * pos + 1 < width n height
      · -- both children: their hashes differ, as distinct txids give distinct nodes
        set BR := TraverseAndBuild Hash zero n vTxid vMatch height (2 * pos + 1) with hBR
        simp only [if_pos hright, List.append_assoc, List.cons_append]
        have hL := ih hleft (pre ++ [true]) (BR.1 ++ post) preH (BR.2 ++ postH) _ hst hsth
        rw [← hBL] at hL
        simp only [List.append_assoc, List.cons_append, List.nil_append] at hL
        rw [hL]
        have hR := ih hright (pre ++ true :: BL.1) post (preH ++ BL.2) postH
          ((st.consumed 1 0 [] []).consumed BL.1.length BL.2.length
            ((Matched n vMatch height (2 * pos)).map fun i => vTxid.getD i zero) (Matched n vMatch height (2 * pos)))
          (by simp [hbits]; omega) (by simp [hhashes])
        rw [← hBR] at hR
        simp only [List.append_assoc, List.cons_append] at hR
        rw [hR]
        have hne : (level Hash vTxid height).getD (2 * pos + 1) zero ≠ (level Hash vTxid height).getD (2 * pos) zero :=
          getD_ne_of_nodup (hnd height (by rw [hn]; omega)) zero (by rw [hlen]; exact hright) (by rw [hlen]; exact hleft)
            (by omega)
        rw [if_neg hne, level_succ, getD_up _ _ (by rw [hlen]; exact hleft), hlen, if_pos hright, Matched_succ]
        simp only [ExtractState.consumed_consumed, List.length_cons, List.length_append, List.map_append,
          List.nil_append]
        congr 2 <;> omega
      · -- no right child: the left one is paired with itself
        simp only [if_neg hright, List.append_nil, List.append_assoc, List.cons_append]
        have hL := ih hleft (pre ++ [true]) post preH postH _ hst hsth
        rw [← hBL] at hL
        simp only [List.append_assoc, List.cons_append, List.nil_append] at hL
        rw [hL, level_succ, getD_up _ _ (by rw [hlen]; exact hleft), hlen, if_neg hright, Matched_succ,
          Matched_eq_nil vMatch (Nat.le_of_not_lt hright)]
        simp only [ExtractState.consumed_consumed, List.length_cons, List.append_nil, List.nil_append]
        congr 2 <;> omega

end Complete

/-! ## What an extraction proves -/

section Sound

variable {Hash} [DecidableEq D]

theorem TraverseAndExtract_sound {L : List D} (hbind : NodesBinding Hash L) {n : Nat} (hn : L.length = n)
    (vBits : List Bool) (vHash : List D) (height : Nat) (hh : height ≤ MerkleLevels.height n) {pos : Nat}
    (hpos : pos < width n height)
    (st : ExtractState D)
    (hbad : (TraverseAndExtract Hash zero n vBits vHash height pos st).2.fBad = false)
    (hroot : (TraverseAndExtract Hash zero n vBits vHash height pos st).1 = (level Hash L height).getD pos zero) :
    ∃ idx, idx.Sublist (span n height pos) ∧
      (TraverseAndExtract Hash zero n vBits vHash height pos st).2.vnIndex = st.vnIndex ++ idx ∧
      (TraverseAndExtract Hash zero n vBits vHash height pos st).2.vMatch =
        st.vMatch ++ idx.map fun i => L.getD i zero := by
  induction height generalizing pos st with
  | zero =>
    have hlt : pos < n := by rwa [width_zero] at hpos
    by_cases hge : vBits.length ≤ st.nBitsUsed
    · rw [TraverseAndExtract_of_le hge] at hbad
      cases hbad
    rw [TraverseAndExtract_zero (Nat.lt_of_not_le hge)] at hbad hroot ⊢
    by_cases hgeh : vHash.length ≤ (st.consumed 1 0 [] []).nHashUsed
    · rw [UseStoredHash, if_pos hgeh] at hbad
      cases hbad
    rw [UseStoredHash_of_lt (Nat.lt_of_not_le hgeh)] at hroot ⊢
    dsimp only at hroot
    cases hb : vBits.getD st.nBitsUsed false with
    | false => exact ⟨[], List.nil_sublist _, by simp, by simp⟩
    | true =>
      -- a matched leaf: the stored hash is the txid at `pos`
      refine ⟨[pos], by rw [span_zero, if_pos hlt], by simp, ?_⟩
      simp only [and_self, if_true, ExtractState.consumed_consumed, ExtractState.consumed_vMatch,
        List.nil_append, hroot, level_zero, List.map_cons, List.map_nil]
  | succ height ih =>
    replace ih := @ih (Nat.le_of_succ_le hh)
    by_cases hge : vBits.length ≤ st.nBitsUsed
    · rw [TraverseAndExtract_of_le hge] at hbad
      cases hbad
    cases hb : vBits.getD st.nBitsUsed false with
    | false =>
      -- a stored hash: nothing matched below the node
      rw [TraverseAndExtract_succ_clear (Nat.lt_of_not_le hge) hb] at hbad ⊢
      by_cases hgeh : vHash.length ≤ (st.consumed 1 0 [] []).nHashUsed
      · rw [UseStoredHash, if_pos hgeh] at hbad
        cases hbad
      rw [UseStoredHash_of_lt (Nat.lt_of_not_le hgeh)]
      exact ⟨[], List.nil_sublist _, by simp, by simp⟩
    | true =>
      have hleft : 2 * pos < width n height := by
        rw [width_succ] at hpos
        omega
      have hlen : (level Hash L height).length = width n height := by rw [length_level, hn]
      -- the node of `L` at `pos`, hashed from its children as `up` pairs them; no other pair hashes to it
      have hnode := (@getD_up D Hash (level Hash L height) zero pos (by rw [hlen]; exact hleft)).symm
      rw [← level_succ, hlen] at hnode
      have hchildren := @NodesBinding.eq_of_hash_eq_node D Hash L hbind zero height pos (by rw [hn]; omega)
        (by rw [hn]; exact hpos)
      rw [TraverseAndExtract_succ_set (Nat.lt_of_not_le hge) hb] at hbad hroot ⊢
      dsimp only at hbad hroot ⊢
      generalize hl : TraverseAndExtract Hash zero n vBits vHash height (2 * pos) (st.consumed 1 0 [] []) = left
        at hbad hroot ⊢
      by_cases hright : 2 * pos + 1 < width n height
      · rw [if_pos hright] at hbad hroot ⊢
        generalize hr : TraverseAndExtract Hash zero n vBits vHash height (2 * pos + 1) left.2 = right
          at hbad hroot ⊢
        have hne : right.1 ≠ left.1 := by
          intro h
          rw [if_pos h] at hbad
          cases hbad
        rw [if_neg hne] at hbad ⊢
        have hleft_bad : left.2.fBad = false := by
          cases h : left.2.fBad
          · rfl
          · have h' : (TraverseAndExtract Hash zero n vBits vHash height (2 * pos + 1) left.2).2.fBad = true :=
              TraverseAndExtract_fBad h
            rw [hr, hbad] at h'
            cases h'
        obtain ⟨hl₁, hr₁⟩ := hchildren hroot hnode
        rw [if_pos hright] at hr₁
        obtain ⟨idx₁, hs₁, hv₁, hm₁⟩ := ih hleft (st.consumed 1 0 [] []) (by rw [hl]; exact hleft_bad)
          (by rw [hl]; exact hl₁)
        obtain ⟨idx₂, hs₂, hv₂, hm₂⟩ := ih hright left.2 (by rw [hr]; exact hbad) (by rw [hr]; exact hr₁)
        rw [hl] at hv₁ hm₁
        rw [hr] at hv₂ hm₂
        refine ⟨idx₁ ++ idx₂, by rw [span_succ]; exact hs₁.append hs₂, ?_, ?_⟩
        · rw [hv₂, hv₁]
          simp
        · rw [hm₂, hm₁]
          simp
      · -- no right child: the left one was hashed with itself
        rw [if_neg hright] at hbad hroot ⊢
        obtain ⟨hl₁, -⟩ := hchildren hroot hnode
        obtain ⟨idx₁, hs₁, hv₁, hm₁⟩ := ih hleft (st.consumed 1 0 [] []) (by rw [hl]; exact hbad)
          (by rw [hl]; exact hl₁)
        rw [hl] at hv₁ hm₁
        refine ⟨idx₁, by rw [span_succ]; exact hs₁.trans (List.sublist_append_left _ _), ?_, ?_⟩
        · rw [hv₁]
          simp
        · rw [hm₁]
          simp

end Sound

/-! ## The constructor and `ExtractMatches` -/

section Extract

variable {Hash zero}

theorem new_eq {vTxid : List D} {vMatch : List Bool} (hne : vTxid ≠ []) (hlen : vTxid.length ≤ vMatch.length) :
    new Hash zero vTxid vMatch =
      some ⟨vTxid.length, (TraverseAndBuild Hash zero vTxid.length vTxid vMatch (height vTxid.length) 0).1,
        (TraverseAndBuild Hash zero vTxid.length vTxid vMatch (height vTxid.length) 0).2, false⟩ := by
  have hpos : vTxid.length ≠ 0 := fun h => hne (List.eq_nil_of_length_eq_zero h)
  rw [new, if_neg (by omega), CalcTreeHeight_eq]

variable [DecidableEq D]

/-- A tree built from nonempty txids with distinct nodes on each level, its
bits padded as long as the padding stays within the last byte, extracts the
Merkle root of the txids and the matched ones with their positions. -/
theorem ExtractMatches_new_padded {vTxid : List D} {vMatch : List Bool} (hne : vTxid ≠ [])
    (hlen : vTxid.length ≤ vMatch.length) (hmax : vTxid.length ≤ MAX_BLOCK_WEIGHT / MIN_TRANSACTION_WEIGHT)
    (hnd : LevelsNodup Hash vTxid) {t : CPartialMerkleTree D} (ht : new Hash zero vTxid vMatch = some t)
    (pad : List Bool) (hpad : (t.vBits.length + pad.length + 7) / 8 = (t.vBits.length + 7) / 8)
    (vnIndex : List Nat) :
    ExtractMatches Hash zero { t with vBits := t.vBits ++ pad } vnIndex =
      ⟨(ComputeMerkleRoot Hash zero vTxid).1,
        ((List.range vTxid.length).filter fun i => vMatch.getD i false).map fun i => vTxid.getD i zero,
        vnIndex ++ (List.range vTxid.length).filter fun i => vMatch.getD i false, false⟩ := by
  rw [new_eq hne hlen, Option.some.injEq] at ht
  subst ht
  dsimp only at hpad ⊢
  have hn : 0 < vTxid.length := List.length_pos_iff.mpr hne
  have hpos : 0 < width vTxid.length (height vTxid.length) := width_pos_iff.mpr hn
  obtain ⟨hbits, hhashes⟩ := @length_TraverseAndBuild_le D Hash zero vTxid.length vTxid vMatch
    (height vTxid.length) 0 hpos
  rw [span_height, List.length_range] at hhashes
  have hrun := TraverseAndExtract_TraverseAndBuild zero hnd rfl vMatch (height vTxid.length) le_rfl hpos [] pad
    [] [] ⟨0, 0, [], vnIndex, false⟩ rfl rfl
  simp only [List.nil_append, List.append_nil] at hrun
  rw [ExtractMatches]
  simp only [CalcTreeHeight_eq, hrun, List.length_append]
  rw [if_neg (by omega), if_neg (by omega), if_neg (by omega), if_neg (by omega)]
  simp only [ExtractState.consumed, Bool.false_eq_true, if_false, Nat.zero_add, hpad, ne_eq, not_true_eq_false,
    if_false, Matched, span_height, List.nil_append, ComputeMerkleRoot_eq zero hne]

/-- An extraction that does not fail and gives the Merkle root of txids `L`,
as many as the tree says, has matched txids of `L`: at the positions it
appends to `vnIndex`, which increase and lie within `L`, when each node of the
tree over `L` has one preimage. -/
theorem ExtractMatches_sound_of_binding (t : CPartialMerkleTree D) (vnIndex : List Nat) {L : List D}
    (hbind : NodesBinding Hash L) (hn : L.length = t.nTransactions)
    (hroot : (ExtractMatches Hash zero t vnIndex).root = (ComputeMerkleRoot Hash zero L).1)
    (hnull : (ExtractMatches Hash zero t vnIndex).root ≠ zero) :
    ∃ idx, (ExtractMatches Hash zero t vnIndex).vnIndex = vnIndex ++ idx ∧
      (ExtractMatches Hash zero t vnIndex).vMatch = idx.map (fun i => L.getD i zero) ∧
      idx.Pairwise (· < ·) ∧ ∀ i ∈ idx, i < L.length := by
  rw [ExtractMatches] at hroot hnull ⊢
  dsimp only at hroot hnull ⊢
  -- every failure returns `uint256()`
  split_ifs at hroot hnull ⊢ with h0 hmax hhash hbits hbad hused hhused <;> try exact absurd rfl hnull
  have hne : L ≠ [] := fun h => h0 (by rw [← hn, h, List.length_nil])
  rw [ComputeMerkleRoot_eq zero hne, hn, CalcTreeHeight_eq] at hroot
  rw [CalcTreeHeight_eq] at hbad ⊢
  have hpos : 0 < width t.nTransactions (height t.nTransactions) := width_pos_iff.mpr (Nat.pos_of_ne_zero h0)
  obtain ⟨idx, hsub, hv, hm⟩ := TraverseAndExtract_sound zero hbind hn t.vBits t.vHash _ le_rfl hpos _
    (Bool.of_not_eq_true hbad) hroot
  rw [span_height] at hsub
  refine ⟨idx, hv, by rw [hm, List.nil_append], ?_, ?_⟩
  · exact (List.pairwise_lt_range).sublist hsub
  · intro i hi
    rw [hn]
    exact List.mem_range.mp (hsub.subset hi)

/-- An extraction that does not fail and gives the Merkle root of txids `L`,
as many as the tree says, has matched txids of `L`: at the positions it
appends to `vnIndex`, which increase and lie within `L`.  Otherwise the hash
has a collision. -/
theorem ExtractMatches_sound (t : CPartialMerkleTree D) (vnIndex : List Nat) {L : List D}
    (hn : L.length = t.nTransactions)
    (hroot : (ExtractMatches Hash zero t vnIndex).root = (ComputeMerkleRoot Hash zero L).1)
    (hnull : (ExtractMatches Hash zero t vnIndex).root ≠ zero) :
    (∃ idx, (ExtractMatches Hash zero t vnIndex).vnIndex = vnIndex ++ idx ∧
        (ExtractMatches Hash zero t vnIndex).vMatch = idx.map (fun i => L.getD i zero) ∧
        idx.Pairwise (· < ·) ∧ ∀ i ∈ idx, i < L.length) ∨
      Collision Hash := by
  by_cases hc : Collision Hash
  · exact .inr hc
  · exact .inl (ExtractMatches_sound_of_binding t vnIndex (nodesBinding_of_not_collision hc L) hn hroot hnull)

/-- The tree over `[1, 2, 3, 4, 5]` under `Nat.pair` that matches the third and
the fifth txid. -/
theorem ExtractMatches_sound_five :
    [1, 2, 3, 4, 5].length = (⟨5, [true, true, false, true, true, false, true, true, true], [5, 3, 4, 5], false⟩ :
      CPartialMerkleTree Nat).nTransactions ∧
    (ExtractMatches Nat.pair 0 ⟨5, [true, true, false, true, true, false, true, true, true], [5, 3, 4, 5], false⟩
      []).root = (ComputeMerkleRoot Nat.pair 0 [1, 2, 3, 4, 5]).1 ∧
    (ExtractMatches Nat.pair 0 ⟨5, [true, true, false, true, true, false, true, true, true], [5, 3, 4, 5], false⟩
      []).root ≠ 0 ∧
    ((∃ idx, (ExtractMatches Nat.pair 0
          ⟨5, [true, true, false, true, true, false, true, true, true], [5, 3, 4, 5], false⟩ []).vnIndex = [] ++ idx ∧
        (ExtractMatches Nat.pair 0
          ⟨5, [true, true, false, true, true, false, true, true, true], [5, 3, 4, 5], false⟩ []).vMatch =
          idx.map (fun i => [1, 2, 3, 4, 5].getD i 0) ∧
        idx.Pairwise (· < ·) ∧ ∀ i ∈ idx, i < [1, 2, 3, 4, 5].length) ∨
      Collision Nat.pair) :=
  ⟨rfl, by decide, by decide, ExtractMatches_sound _ [] rfl (by decide) (by decide)⟩

end Extract

end CPartialMerkleTree

end Elements
