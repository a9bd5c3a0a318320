import Elements.Psbt.Pset
import Elements.Data.ExceptFold
import Elements.Data.Selection

/-!
# Coin selection by the knapsack solver

`wallet/coinselection.{h,cpp}`: the coins a wallet can spend and their output
groups (`OutputGroup::Insert`, `GetSelectionAmount`), the stochastic
single-asset `KnapsackSolver` with its subset search `ApproximateBestSubset`,
and the Elements `KnapsackSolver` over a map of targets, which runs the
single-asset solver once for every non-policy asset and then once for the
policy asset, whose target it raises by what the non-policy coins owe.

What the solver leaves to chance is an argument, `KnapsackDraws`: the order
the shuffle puts the groups in (any permutation) and the bits each subset
search draws.  `std::sort` by `descending` is an insertion sort by the same
comparison.  A `std::set<CInputCoin>` (ordered by outpoint) is a list with no
two coins of one outpoint, in the order of insertion: the solver only asks it
whether a coin is there and adds over it.  A `std::map` is iterated in the
order of its keys, `CAmountMap.sortedEntries`.

The sections: groups; the subset search and the invariant it keeps; the
single-asset solver and what a successful run returns; the solver over a map
of targets and the target it sets the policy asset; and a run whose policy
inputs do not pay the fees of its other inputs.
-/

namespace Elements

open Selection ExceptFold

/-- `CFeeRate`: a fee in base units per 1000 bytes. -/
structure CFeeRate where
  nSatoshisPerK : CAmount
deriving DecidableEq, Repr

/-- `CFeeRate::GetFee`: the fee for `num_bytes` bytes, rounded towards zero,
but not to zero for a nonzero size at a nonzero rate. -/
def CFeeRate.GetFee (rate : CFeeRate) (num_bytes : UInt32) : CAmount :=
  let nSize : Int64 := Int64.ofNat num_bytes.toNat
  let nFee := rate.nSatoshisPerK * nSize / 1000
  if nFee = 0 ∧ nSize ≠ 0 then
    if rate.nSatoshisPerK > 0 then 1 else if rate.nSatoshisPerK < 0 then -1 else nFee
  else nFee

/-- `CInputCoin`, with the fields coin selection reads and sets. -/
structure CInputCoin where
  outpoint : COutPoint
  effective_value : CAmount
  m_fee : CAmount
  m_long_term_fee : CAmount
  value : CAmount
  asset : CAsset
  m_input_bytes : Int32
deriving DecidableEq, Repr

structure OutputGroup where
  m_outputs : List CInputCoin
  m_from_me : Bool
  m_value : CAmount
  m_depth : Int
  m_ancestors : Nat
  m_descendants : Nat
  effective_value : CAmount
  fee : CAmount
  m_effective_feerate : CFeeRate
  long_term_fee : CAmount
  m_long_term_feerate : CFeeRate
  m_subtract_fee_outputs : Bool
deriving DecidableEq, Repr

/-- `OutputGroup(params)`: no coin yet, the feerates and the flag of the
parameters. -/
def OutputGroup.init (effective_feerate long_term_feerate : CFeeRate) (subtract_fee_outputs : Bool) :
    OutputGroup :=
  ⟨[], true, 0, 999, 0, 0, 0, 0, effective_feerate, 0, long_term_feerate, subtract_fee_outputs⟩

def MIN_CHANGE : CAmount := COIN / 100

/-!
## Sets of coins
-/

/-- `std::set<CInputCoin>::count`: coins are equal when their outpoints are. -/
def CoinSetContains (s : List CInputCoin) (c : CInputCoin) : Bool :=
  s.any fun c' => c'.outpoint == c.outpoint

/-- `std::set<CInputCoin>::insert`. -/
def CoinSetInsert (s : List CInputCoin) (c : CInputCoin) : List CInputCoin :=
  if CoinSetContains s c then s else s ++ [c]

/-- `util::insert(set, coins)`. -/
def CoinSetInsertAll (s : List CInputCoin) (coins : List CInputCoin) : List CInputCoin :=
  coins.foldl CoinSetInsert s

section Groups

variable (policyAsset : CAsset)

/-- `OutputGroup::Insert`: the coin joins the group with its fees and its
effective value, unless `positive_only` and that value is not positive.  Only
the policy asset has an effective value: a coin of another asset counts as
minus its fee. -/
def OutputGroup.Insert (g : OutputGroup) (output : CInputCoin) (depth : Int) (from_me : Bool)
    (ancestors descendants : Nat) (positive_only : Bool) : OutputGroup :=
  let coin_fee :=
    if output.m_input_bytes < 0 then 0 else g.m_effective_feerate.GetFee output.m_input_bytes.toUInt32
  let ev := output.value * (if output.asset = policyAsset then 1 else 0) - coin_fee
  if positive_only ∧ ev ≤ 0 then g
  else
    let long_term :=
      if output.m_input_bytes < 0 then 0 else g.m_long_term_feerate.GetFee output.m_input_bytes.toUInt32
    { m_outputs := g.m_outputs ++
        [{ output with m_fee := coin_fee, m_long_term_fee := long_term, effective_value := ev }]
      m_from_me := g.m_from_me && from_me
      m_value := g.m_value + output.value
      m_depth := min g.m_depth depth
      m_ancestors := g.m_ancestors + ancestors
      m_descendants := max g.m_descendants descendants
      effective_value := g.effective_value + ev
      fee := g.fee + coin_fee
      m_effective_feerate := g.m_effective_feerate
      long_term_fee := g.long_term_fee + long_term
      m_long_term_feerate := g.m_long_term_feerate
      m_subtract_fee_outputs := g.m_subtract_fee_outputs }

/-- `OutputGroup::GetSelectionAmount`: the value of a group whose first coin
is not of the policy asset, else its effective value unless fees are
subtracted from the outputs. -/
def OutputGroup.GetSelectionAmount (g : OutputGroup) : CAmount :=
  if g.m_outputs.head?.any fun c => c.asset != policyAsset then g.m_value
  else if g.m_subtract_fee_outputs then g.m_value else g.effective_value

/-- `descending`: larger selection amounts first. -/
def descending (a b : OutputGroup) : Prop :=
  a.GetSelectionAmount policyAsset > b.GetSelectionAmount policyAsset

instance : DecidableRel (descending policyAsset) :=
  fun _ _ => inferInstanceAs (Decidable (_ > _))

end Groups

/-!
## The subset search

`ApproximateBestSubset` tries random subsets of the groups, each built in up
to two passes: the first takes each group on a random bit, the second each
group not yet taken.  Whenever the subset reaches the target, it is compared
with the best subset so far and its last group is taken out again.
-/

/-- The variables of `ApproximateBestSubset`. -/
structure SubsetSearch where
  vfBest : List Bool
  nBest : CAmount
  vfIncluded : List Bool
  nTotal : CAmount
  fReachedTarget : Bool
deriving DecidableEq, Repr

/-- Group `i`, of value `m_value`, joins the subset. -/
def ApproximateBestSubsetInclude (nTargetValue : CAmount) (s : SubsetSearch) (i : Nat)
    (m_value : CAmount) : SubsetSearch :=
  if s.nTotal + m_value ≥ nTargetValue then
    -- a subset that reaches the target: the best if smaller, then the group leaves
    { vfBest := if s.nTotal + m_value < s.nBest then s.vfIncluded.set i true else s.vfBest
      nBest := if s.nTotal + m_value < s.nBest then s.nTotal + m_value else s.nBest
      vfIncluded := (s.vfIncluded.set i true).set i false
      nTotal := s.nTotal + m_value - m_value
      fReachedTarget := true }
  else { s with vfIncluded := s.vfIncluded.set i true, nTotal := s.nTotal + m_value }

/-- The visit of group `i` in pass `nPass`. -/
def ApproximateBestSubsetVisit (nTargetValue : CAmount) (nPass : Nat) (randbool : Nat → Bool)
    (s : SubsetSearch) (gi : OutputGroup × Nat) : SubsetSearch :=
  if (if nPass = 0 then randbool gi.2 else !s.vfIncluded.getD gi.2 false) then
    ApproximateBestSubsetInclude nTargetValue s gi.2 gi.1.m_value
  else s

/-- One pass over the groups. -/
def ApproximateBestSubsetPass (groups : List OutputGroup) (nTargetValue : CAmount) (nPass : Nat)
    (randbool : Nat → Bool) (s : SubsetSearch) : SubsetSearch :=
  groups.zipIdx.foldl (ApproximateBestSubsetVisit nTargetValue nPass randbool) s

/-- `vfIncluded.assign(groups.size(), false); nTotal = 0; fReachedTarget = false`. -/
def SubsetSearch.clear (s : SubsetSearch) (n : Nat) : SubsetSearch :=
  { s with vfIncluded := List.replicate n false, nTotal := 0, fReachedTarget := false }

/-- One repetition: an empty subset, the first pass, and the second unless the
first reached the target. -/
def ApproximateBestSubsetRep (groups : List OutputGroup) (nTargetValue : CAmount)
    (randbool : Nat → Bool) (s : SubsetSearch) : SubsetSearch :=
  let first := ApproximateBestSubsetPass groups nTargetValue 0 randbool (s.clear groups.length)
  if first.fReachedTarget then first else ApproximateBestSubsetPass groups nTargetValue 1 randbool first

/-- The repetitions `nRep, nRep + 1, …` while `left` remain and the best is not
the target; repetition `nRep` draws the bits `randbool nRep`. -/
def ApproximateBestSubsetLoop (groups : List OutputGroup) (nTargetValue : CAmount)
    (randbool : Nat → Nat → Bool) : Nat → Nat → SubsetSearch → SubsetSearch
  | 0, _, s => s
  | left + 1, nRep, s =>
    if s.nBest ≠ nTargetValue then
      ApproximateBestSubsetLoop groups nTargetValue randbool left (nRep + 1)
        (ApproximateBestSubsetRep groups nTargetValue (randbool nRep) s)
    else s

/-- `ApproximateBestSubset`: the best subset found, as flags over the groups,
and its value; all the groups at `nTotalLower` until a better one is found. -/
def ApproximateBestSubset (groups : List OutputGroup) (nTotalLower nTargetValue : CAmount)
    (randbool : Nat → Nat → Bool) (iterations : Nat) : List Bool × CAmount :=
  let s := ApproximateBestSubsetLoop groups nTargetValue randbool iterations 0
    ⟨List.replicate groups.length true, nTotalLower, [], 0, false⟩
  (s.vfBest, s.nBest)

/-!
### What the search keeps

The search adds the groups' values, not their selection amounts: the best
subset it finds reaches the target by its value.
-/

/-- The best subset of a search: all the groups at `nTotalLower`, until a
subset reaches the target; then one that does, at its value. -/
def BestSubset (groups : List OutputGroup) (nTotalLower nTargetValue : CAmount) (vfBest : List Bool)
    (nBest : CAmount) : Prop :=
  (vfBest = List.replicate groups.length true ∧ nBest = nTotalLower) ∨
    (nBest = ((select vfBest groups).map (·.m_value)).sum ∧ nTargetValue ≤ nBest)

/-- What a repetition keeps: a flag per group, the total of the subset is its
value, and the best subset is one. -/
structure SubsetSearch.Inv (groups : List OutputGroup) (nTotalLower nTargetValue : CAmount)
    (s : SubsetSearch) : Prop where
  length_vfIncluded : s.vfIncluded.length = groups.length
  nTotal_eq : s.nTotal = ((select s.vfIncluded groups).map (·.m_value)).sum
  best : BestSubset groups nTotalLower nTargetValue s.vfBest s.nBest

section Search

variable {groups : List OutputGroup} {nTotalLower nTargetValue : CAmount}

theorem BestSubset.mono {vfBest : List Bool} {nBest nTargetValue' : CAmount}
    (hle : nTargetValue' ≤ nTargetValue) (h : BestSubset groups nTotalLower nTargetValue vfBest nBest) :
    BestSubset groups nTotalLower nTargetValue' vfBest nBest := by
  rcases h with hall | ⟨hsum, hreach⟩
  · exact Or.inl hall
  · exact Or.inr ⟨hsum, Int64.le_trans hle hreach⟩

theorem ApproximateBestSubsetInclude_vfIncluded {s : SubsetSearch} {i j : Nat} (m_value : CAmount)
    (hij : i ≠ j) :
    (ApproximateBestSubsetInclude nTargetValue s i m_value).vfIncluded[j]? = s.vfIncluded[j]? := by
  unfold ApproximateBestSubsetInclude
  split
  · simp only [List.set_set, List.getElem?_set_ne hij]
  · simp only [List.getElem?_set_ne hij]

theorem ApproximateBestSubsetInclude_inv {s : SubsetSearch} {i : Nat} (hi : i < groups.length)
    (hfresh : s.vfIncluded[i]? = some false) (hs : s.Inv groups nTotalLower nTargetValue) :
    (ApproximateBestSubsetInclude nTargetValue s i groups[i].m_value).Inv groups nTotalLower
      nTargetValue := by
  have hsum : s.nTotal + groups[i].m_value =
      ((select (s.vfIncluded.set i true) groups).map (·.m_value)).sum := by
    rw [sum_select_set_true hi hfresh, hs.nTotal_eq]
  unfold ApproximateBestSubsetInclude
  split
  · -- the subset reaches the target: it may be the best, and the group leaves
    rename_i hreach
    have hrestore : (s.vfIncluded.set i true).set i false = s.vfIncluded := by
      rw [List.set_set]
      exact set_self_of_getElem? hfresh
    refine ⟨?_, ?_, ?_⟩
    · rw [hrestore]
      exact hs.length_vfIncluded
    · rw [hrestore, Int64.add_sub_cancel]
      exact hs.nTotal_eq
    · by_cases hlt : s.nTotal + groups[i].m_value < s.nBest
      · simp only [hlt, if_true]
        exact Or.inr ⟨hsum, hreach⟩
      · simp only [hlt, if_false]
        exact hs.best
  · refine ⟨?_, hsum, hs.best⟩
    rw [List.length_set]
    exact hs.length_vfIncluded

theorem ApproximateBestSubsetVisit_vfIncluded {nPass : Nat} {randbool : Nat → Bool} {s : SubsetSearch}
    {g : OutputGroup} {i j : Nat} (hij : i ≠ j) :
    (ApproximateBestSubsetVisit nTargetValue nPass randbool s (g, i)).vfIncluded[j]? =
      s.vfIncluded[j]? := by
  unfold ApproximateBestSubsetVisit
  by_cases htake : (if nPass = 0 then randbool i else !s.vfIncluded.getD i false) = true
  · rw [if_pos htake]
    exact ApproximateBestSubsetInclude_vfIncluded _ hij
  · rw [if_neg htake]

theorem ApproximateBestSubsetVisit_inv {nPass : Nat} {randbool : Nat → Bool} {s : SubsetSearch}
    {g : OutputGroup} {i : Nat} (hg : groups[i]? = some g)
    (hfresh : nPass = 0 → s.vfIncluded[i]? = some false) (hs : s.Inv groups nTotalLower nTargetValue) :
    (ApproximateBestSubsetVisit nTargetValue nPass randbool s (g, i)).Inv groups nTotalLower
      nTargetValue := by
  obtain ⟨hi, hgi⟩ := List.getElem?_eq_some_iff.mp hg
  unfold ApproximateBestSubsetVisit
  by_cases htake : (if nPass = 0 then randbool i else !s.vfIncluded.getD i false) = true
  · rw [if_pos htake]
    have hfresh_i : s.vfIncluded[i]? = some false := by
      by_cases hpass : nPass = 0
      · exact hfresh hpass
      · -- the second pass takes a group only when its flag is clear
        simp only [hpass, if_false] at htake
        have hlen : i < s.vfIncluded.length := by rw [hs.length_vfIncluded]; exact hi
        rw [List.getD_eq_getElem?_getD, List.getElem?_eq_getElem hlen] at htake
        rw [List.getElem?_eq_getElem hlen]
        simpa using htake
    rw [← hgi]
    exact ApproximateBestSubsetInclude_inv hi hfresh_i hs
  · rw [if_neg htake]
    exact hs

theorem foldl_ApproximateBestSubsetVisit_inv {nPass : Nat} {randbool : Nat → Bool}
    (l : List (OutputGroup × Nat)) (hl : ∀ gi ∈ l, groups[gi.2]? = some gi.1)
    (hnodup : (l.map (·.2)).Nodup) {s : SubsetSearch}
    (hfresh : nPass = 0 → ∀ gi ∈ l, s.vfIncluded[gi.2]? = some false)
    (hs : s.Inv groups nTotalLower nTargetValue) :
    (l.foldl (ApproximateBestSubsetVisit nTargetValue nPass randbool) s).Inv groups nTotalLower
      nTargetValue := by
  induction l generalizing s with
  | nil => exact hs
  | cons gi rest ih =>
    obtain ⟨g, i⟩ := gi
    simp only [List.map_cons, List.nodup_cons, List.mem_map] at hnodup
    obtain ⟨hnotin, hnodup'⟩ := hnodup
    rw [List.foldl_cons]
    apply ih (fun gj hgj => hl gj (List.mem_cons_of_mem _ hgj)) hnodup'
    · -- the groups still to come have other indices: their flags stay clear
      intro hpass gj hgj
      have hne : i ≠ gj.2 := fun heq => hnotin ⟨gj, hgj, heq.symm⟩
      rw [ApproximateBestSubsetVisit_vfIncluded hne]
      exact hfresh hpass gj (List.mem_cons_of_mem _ hgj)
    · exact ApproximateBestSubsetVisit_inv (hl (g, i) List.mem_cons_self)
        (fun hpass => hfresh hpass (g, i) List.mem_cons_self) hs

theorem ApproximateBestSubsetPass_inv (nPass : Nat) (randbool : Nat → Bool) {s : SubsetSearch}
    (hfresh : nPass = 0 → s.vfIncluded = List.replicate groups.length false)
    (hs : s.Inv groups nTotalLower nTargetValue) :
    (ApproximateBestSubsetPass groups nTargetValue nPass randbool s).Inv groups nTotalLower
      nTargetValue := by
  apply foldl_ApproximateBestSubsetVisit_inv groups.zipIdx
  · intro gi hgi
    exact List.mem_zipIdx_iff_getElem?.mp hgi
  · rw [List.zipIdx_map_snd]
    exact List.nodup_range'
  · intro hpass gi hgi
    have hi : gi.2 < groups.length := (List.getElem?_eq_some_iff.mp (List.mem_zipIdx_iff_getElem?.mp hgi)).1
    rw [hfresh hpass, List.getElem?_replicate]
    simp [hi]
  · exact hs

theorem ApproximateBestSubsetRep_best {randbool : Nat → Bool} {s : SubsetSearch}
    (hs : BestSubset groups nTotalLower nTargetValue s.vfBest s.nBest) :
    let s' := ApproximateBestSubsetRep groups nTargetValue randbool s
    BestSubset groups nTotalLower nTargetValue s'.vfBest s'.nBest := by
  have hclear : (s.clear groups.length).Inv groups nTotalLower nTargetValue :=
    ⟨List.length_replicate, by simp [SubsetSearch.clear], hs⟩
  have hfirst := ApproximateBestSubsetPass_inv 0 randbool (fun _ => rfl) hclear
  unfold ApproximateBestSubsetRep
  dsimp only
  split
  · exact hfirst.best
  · exact (ApproximateBestSubsetPass_inv 1 randbool (fun h => absurd h Nat.one_ne_zero) hfirst).best

theorem ApproximateBestSubsetLoop_best {randbool : Nat → Nat → Bool} (left nRep : Nat) {s : SubsetSearch}
    (hs : BestSubset groups nTotalLower nTargetValue s.vfBest s.nBest) :
    let s' := ApproximateBestSubsetLoop groups nTargetValue randbool left nRep s
    BestSubset groups nTotalLower nTargetValue s'.vfBest s'.nBest := by
  induction left generalizing nRep s with
  | zero => exact hs
  | succ left ih =>
    unfold ApproximateBestSubsetLoop
    split
    · exact ih (nRep + 1) (ApproximateBestSubsetRep_best hs)
    · exact hs

theorem ApproximateBestSubset_best (randbool : Nat → Nat → Bool) (iterations : Nat) :
    let best := ApproximateBestSubset groups nTotalLower nTargetValue randbool iterations
    BestSubset groups nTotalLower nTargetValue best.1 best.2 :=
  ApproximateBestSubsetLoop_best iterations 0 (Or.inl ⟨rfl, rfl⟩)

end Search

/-!
## The single-asset solver
-/

/-- What the single-asset solver leaves to chance: the order the shuffle puts
the groups in, and the bits of its two subset searches, by repetition and
group. -/
structure KnapsackDraws where
  shuffle : List OutputGroup → List OutputGroup
  shuffle_perm : ∀ groups, (shuffle groups).Perm groups
  randbool : Nat → Nat → Bool
  randbool' : Nat → Nat → Bool

/-- The variables of the solver's first loop. -/
structure KnapsackScan where
  lowest_larger : Option OutputGroup
  applicable_groups : List OutputGroup
  nTotalLower : CAmount

section Solver

variable (policyAsset : CAsset)

/-- One group of the first loop: a group of exactly the target ends the solver
(the error), one below the target and `MIN_CHANGE` is applicable, a larger one
may be the lowest larger. -/
def KnapsackScanGroup (nTargetValue : CAmount) (scan : KnapsackScan) (group : OutputGroup) :
    Except OutputGroup KnapsackScan :=
  if group.GetSelectionAmount policyAsset = nTargetValue then .error group
  else if group.GetSelectionAmount policyAsset < nTargetValue + MIN_CHANGE then
    .ok { scan with applicable_groups := scan.applicable_groups ++ [group],
                    nTotalLower := scan.nTotalLower + group.GetSelectionAmount policyAsset }
  else if scan.lowest_larger.all fun l =>
      decide (group.GetSelectionAmount policyAsset < l.GetSelectionAmount policyAsset) then
    .ok { scan with lowest_larger := some group }
  else .ok scan

/-- `util::insert(setCoinsRet, group.m_outputs); nValueRet += group.m_value`. -/
def KnapsackTake (ret : List CInputCoin × CAmount) (group : OutputGroup) :
    List CInputCoin × CAmount :=
  (CoinSetInsertAll ret.1 group.m_outputs, ret.2 + group.m_value)

/-- The subset searches, first for the target and then, if that is not met
and the applicable groups allow it, for the target and `MIN_CHANGE`. -/
def KnapsackBest (nTargetValue : CAmount) (applicable_groups : List OutputGroup)
    (nTotalLower : CAmount) (draws : KnapsackDraws) : List Bool × CAmount :=
  if (ApproximateBestSubset applicable_groups nTotalLower nTargetValue draws.randbool 1000).2 ≠
      nTargetValue ∧ nTotalLower ≥ nTargetValue + MIN_CHANGE then
    ApproximateBestSubset applicable_groups nTotalLower (nTargetValue + MIN_CHANGE) draws.randbool' 1000
  else ApproximateBestSubset applicable_groups nTotalLower nTargetValue draws.randbool 1000

/-- The last choice: the lowest larger group, if there is one and the subset
found does not meet the target or is larger, else the subset. -/
def KnapsackChoose (nTargetValue : CAmount) (lowest_larger : Option OutputGroup)
    (applicable_groups : List OutputGroup) (best : List Bool × CAmount) : List CInputCoin × CAmount :=
  match lowest_larger with
  | some l =>
    if (best.2 ≠ nTargetValue ∧ best.2 < nTargetValue + MIN_CHANGE) ∨
        l.GetSelectionAmount policyAsset ≤ best.2 then KnapsackTake ([], 0) l
    else (select best.1 applicable_groups).foldl KnapsackTake ([], 0)
  | none => (select best.1 applicable_groups).foldl KnapsackTake ([], 0)

/-- `KnapsackSolver` for one target amount: the coins and their value, or
`none` for `return false`. -/
def KnapsackSolver (nTargetValue : CAmount) (groups : List OutputGroup) (draws : KnapsackDraws) :
    Option (List CInputCoin × CAmount) :=
  match (draws.shuffle groups).foldlM (KnapsackScanGroup policyAsset nTargetValue) ⟨none, [], 0⟩ with
  | .error group => some (KnapsackTake ([], 0) group)
  | .ok scan =>
    if scan.nTotalLower = nTargetValue then
      some (scan.applicable_groups.foldl KnapsackTake ([], 0))
    else if scan.nTotalLower < nTargetValue then
      scan.lowest_larger.map (KnapsackTake ([], 0))
    else
      some (KnapsackChoose policyAsset nTargetValue scan.lowest_larger
        (scan.applicable_groups.insertionSort (descending policyAsset))
        (KnapsackBest nTargetValue
          (scan.applicable_groups.insertionSort (descending policyAsset)) scan.nTotalLower draws))

end Solver

/-!
### What a successful run returns
-/

/-- What a successful run of the single-asset solver returns: the coins and
the total value of some of the groups it was handed, each group whole; and
they reach the target by their selection amounts or by their values. -/
def KnapsackSelection (policyAsset : CAsset) (nTargetValue : CAmount) (groups : List OutputGroup)
    (r : List CInputCoin × CAmount) : Prop :=
  ∃ sel : List OutputGroup, sel.Subperm groups ∧
    r = (CoinSetInsertAll [] (sel.flatMap (·.m_outputs)), (sel.map (·.m_value)).sum) ∧
    (nTargetValue ≤ (sel.map (·.GetSelectionAmount policyAsset)).sum ∨
      nTargetValue ≤ (sel.map (·.m_value)).sum)

/-- What the first loop keeps of the groups it has seen: the applicable ones
in order and the sum of their selection amounts, and a lowest larger group of
at least the target and `MIN_CHANGE`. -/
structure KnapsackScan.Inv (policyAsset : CAsset) (nTargetValue : CAmount) (done : List OutputGroup)
    (scan : KnapsackScan) : Prop where
  applicable_sublist : scan.applicable_groups.Sublist done
  nTotalLower_eq : scan.nTotalLower = (scan.applicable_groups.map (·.GetSelectionAmount policyAsset)).sum
  lowest_larger : ∀ l, scan.lowest_larger = some l →
    l ∈ done ∧ nTargetValue + MIN_CHANGE ≤ l.GetSelectionAmount policyAsset

section Selection

variable {policyAsset : CAsset} {nTargetValue : CAmount}

theorem CoinSetInsertAll_append (s coins coins' : List CInputCoin) :
    CoinSetInsertAll s (coins ++ coins') = CoinSetInsertAll (CoinSetInsertAll s coins) coins' :=
  List.foldl_append

theorem foldl_KnapsackTake (sel : List OutputGroup) (coins : List CInputCoin) (value : CAmount) :
    sel.foldl KnapsackTake (coins, value) =
      (CoinSetInsertAll coins (sel.flatMap (·.m_outputs)), value + (sel.map (·.m_value)).sum) := by
  induction sel generalizing coins value with
  | nil => simp [CoinSetInsertAll, Int64.add_zero]
  | cons g rest ih =>
    rw [List.foldl_cons, KnapsackTake, ih, List.flatMap_cons, CoinSetInsertAll_append, List.map_cons,
      List.sum_cons, Int64.add_assoc]

theorem KnapsackSelection_of_foldl {groups sel : List OutputGroup} (hsel : sel.Subperm groups)
    (hcover : nTargetValue ≤ (sel.map (·.GetSelectionAmount policyAsset)).sum ∨
      nTargetValue ≤ (sel.map (·.m_value)).sum) :
    KnapsackSelection policyAsset nTargetValue groups (sel.foldl KnapsackTake ([], 0)) := by
  refine ⟨sel, hsel, ?_, hcover⟩
  rw [foldl_KnapsackTake, Int64.zero_add]

theorem KnapsackSelection_of_group {groups : List OutputGroup} {g : OutputGroup} (hg : g ∈ groups)
    (hcover : nTargetValue ≤ g.GetSelectionAmount policyAsset) :
    KnapsackSelection policyAsset nTargetValue groups (KnapsackTake ([], 0) g) := by
  have hsum : ([g].map (·.GetSelectionAmount policyAsset)).sum = g.GetSelectionAmount policyAsset := by
    simp [Int64.add_zero]
  exact KnapsackSelection_of_foldl (List.singleton_subperm_iff.mpr hg) (Or.inl (hsum ▸ hcover))

theorem KnapsackSelection.of_perm {groups groups' : List OutputGroup} {r : List CInputCoin × CAmount}
    (hperm : groups'.Perm groups) (h : KnapsackSelection policyAsset nTargetValue groups' r) :
    KnapsackSelection policyAsset nTargetValue groups r := by
  obtain ⟨sel, hsel, hr, hcover⟩ := h
  exact ⟨sel, hsel.trans hperm.subperm, hr, hcover⟩

theorem KnapsackScanGroup_error {scan : KnapsackScan} {g e : OutputGroup}
    (h : KnapsackScanGroup policyAsset nTargetValue scan g = .error e) :
    e = g ∧ g.GetSelectionAmount policyAsset = nTargetValue := by
  unfold KnapsackScanGroup at h
  split at h
  · rename_i hexact
    cases h
    exact ⟨rfl, hexact⟩
  · split at h
    · cases h
    · split at h <;> cases h

theorem KnapsackScanGroup_inv {done : List OutputGroup} {scan scan' : KnapsackScan} {g : OutputGroup}
    (hs : scan.Inv policyAsset nTargetValue done)
    (h : KnapsackScanGroup policyAsset nTargetValue scan g = .ok scan') :
    scan'.Inv policyAsset nTargetValue (done ++ [g]) := by
  unfold KnapsackScanGroup at h
  split at h
  · cases h
  · split at h
    · -- an applicable group
      cases h
      refine ⟨hs.applicable_sublist.append (List.Sublist.refl [g]), ?_, ?_⟩
      · rw [List.map_append, List.sum_append, hs.nTotalLower_eq]
        simp [Int64.add_zero]
      · intro l hl
        obtain ⟨hmem, hlarger⟩ := hs.lowest_larger l hl
        exact ⟨List.mem_append_left _ hmem, hlarger⟩
    · -- a larger group: the lowest larger, if lower than the last one
      rename_i hlarger
      have hsub : scan.applicable_groups.Sublist (done ++ [g]) :=
        hs.applicable_sublist.trans (List.sublist_append_left done [g])
      split at h
      · cases h
        refine ⟨hsub, hs.nTotalLower_eq, ?_⟩
        intro l hl
        cases hl
        exact ⟨List.mem_append_right done List.mem_cons_self, Int64.not_lt.mp hlarger⟩
      · cases h
        refine ⟨hsub, hs.nTotalLower_eq, ?_⟩
        intro l hl
        obtain ⟨hmem, hl'⟩ := hs.lowest_larger l hl
        exact ⟨List.mem_append_left _ hmem, hl'⟩

theorem KnapsackSelection.mono {groups : List OutputGroup} {r : List CInputCoin × CAmount}
    {nTargetValue' : CAmount} (hle : nTargetValue' ≤ nTargetValue)
    (h : KnapsackSelection policyAsset nTargetValue groups r) :
    KnapsackSelection policyAsset nTargetValue' groups r := by
  obtain ⟨sel, hsel, hr, hcover⟩ := h
  refine ⟨sel, hsel, hr, ?_⟩
  rcases hcover with hcover | hcover
  · exact Or.inl (Int64.le_trans hle hcover)
  · exact Or.inr (Int64.le_trans hle hcover)

theorem KnapsackBest_best (applicable_groups : List OutputGroup) (nTotalLower : CAmount)
    (draws : KnapsackDraws) :
    let best := KnapsackBest nTargetValue applicable_groups nTotalLower draws
    BestSubset applicable_groups nTotalLower nTargetValue best.1 best.2 ∨
      BestSubset applicable_groups nTotalLower (nTargetValue + MIN_CHANGE) best.1 best.2 := by
  unfold KnapsackBest
  split
  · exact Or.inr (ApproximateBestSubset_best draws.randbool' 1000)
  · exact Or.inl (ApproximateBestSubset_best draws.randbool 1000)

theorem KnapsackSelection_of_best {done : List OutputGroup} {scan : KnapsackScan}
    {nTargetValue' : CAmount} (hs : scan.Inv policyAsset nTargetValue done)
    (hlower : nTargetValue ≤ scan.nTotalLower) {best : List Bool × CAmount}
    (hbest : BestSubset (scan.applicable_groups.insertionSort (descending policyAsset))
      scan.nTotalLower nTargetValue' best.1 best.2) :
    let r := (select best.1 (scan.applicable_groups.insertionSort (descending policyAsset))).foldl
      KnapsackTake ([], 0)
    KnapsackSelection policyAsset nTargetValue done r ∨ KnapsackSelection policyAsset nTargetValue' done r := by
  have hperm := List.perm_insertionSort (descending policyAsset) scan.applicable_groups
  have hsel : (select best.1 (scan.applicable_groups.insertionSort (descending policyAsset))).Subperm
      done :=
    (select_sublist _ _).subperm.trans (hperm.subperm.trans hs.applicable_sublist.subperm)
  rcases hbest with ⟨hall, -⟩ | ⟨hsum, hreach⟩
  · -- all the applicable groups, whose selection amounts exceed the target
    left
    apply KnapsackSelection_of_foldl hsel
    left
    rw [hall, List.length_insertionSort, ← List.length_insertionSort (descending policyAsset),
      select_replicate_true, sum_perm (hperm.map _), ← hs.nTotalLower_eq]
    exact hlower
  · right
    apply KnapsackSelection_of_foldl hsel
    right
    rw [← hsum]
    exact hreach

theorem KnapsackChoose_selection {done : List OutputGroup} {scan : KnapsackScan}
    (hs : scan.Inv policyAsset nTargetValue done) (hlower : nTargetValue ≤ scan.nTotalLower)
    {best : List Bool × CAmount}
    (hbest : BestSubset (scan.applicable_groups.insertionSort (descending policyAsset))
        scan.nTotalLower nTargetValue best.1 best.2 ∨
      BestSubset (scan.applicable_groups.insertionSort (descending policyAsset))
        scan.nTotalLower (nTargetValue + MIN_CHANGE) best.1 best.2) :
    let r := KnapsackChoose policyAsset nTargetValue scan.lowest_larger
      (scan.applicable_groups.insertionSort (descending policyAsset)) best
    KnapsackSelection policyAsset nTargetValue done r ∨
      KnapsackSelection policyAsset (nTargetValue + MIN_CHANGE) done r := by
  have hsubset' : KnapsackSelection policyAsset nTargetValue done
        ((select best.1 (scan.applicable_groups.insertionSort (descending policyAsset))).foldl
          KnapsackTake ([], 0)) ∨
      KnapsackSelection policyAsset (nTargetValue + MIN_CHANGE) done
        ((select best.1 (scan.applicable_groups.insertionSort (descending policyAsset))).foldl
          KnapsackTake ([], 0)) := by
    rcases hbest with hbest | hbest
    · exact Or.inl ((KnapsackSelection_of_best hs hlower hbest).elim id id)
    · exact KnapsackSelection_of_best hs hlower hbest
  unfold KnapsackChoose
  split
  · rename_i l hl
    split
    · obtain ⟨hmem, hlarger⟩ := hs.lowest_larger l hl
      exact Or.inr (KnapsackSelection_of_group hmem hlarger)
    · exact hsubset'
  · exact hsubset'

/-- A successful run of the single-asset solver returns a selection from the
groups it was handed, whatever the shuffle and the random bits: they reach the
target, or the target and `MIN_CHANGE`. -/
theorem KnapsackSolver_selection_or {groups : List OutputGroup} {draws : KnapsackDraws}
    {r : List CInputCoin × CAmount} (h : KnapsackSolver policyAsset nTargetValue groups draws = some r) :
    KnapsackSelection policyAsset nTargetValue groups r ∨
      KnapsackSelection policyAsset (nTargetValue + MIN_CHANGE) groups r := by
  have hperm := draws.shuffle_perm groups
  unfold KnapsackSolver at h
  split at h
  · -- a group of exactly the target
    rename_i g hscan
    have hexact := foldlM_error (fun e => e ∈ draws.shuffle groups ∧
        e.GetSelectionAmount policyAsset = nTargetValue)
      (fun g' hg' _ e he => by
        obtain ⟨rfl, hsel⟩ := KnapsackScanGroup_error he
        exact ⟨hg', hsel⟩) hscan
    cases h
    exact Or.inl ((KnapsackSelection_of_group hexact.1 (Int64.le_of_eq hexact.2.symm)).of_perm hperm)
  · rename_i scan hscan
    have hs : scan.Inv policyAsset nTargetValue (draws.shuffle groups) :=
      foldlM_inv_nil (fun done scan => scan.Inv policyAsset nTargetValue done)
        (fun _ _ _ _ hb hstep => KnapsackScanGroup_inv hb hstep)
        ⟨List.Sublist.slnil, rfl, fun _ h => by cases h⟩ hscan
    split at h
    · -- the applicable groups make the target exactly
      rename_i heq
      cases h
      left
      apply KnapsackSelection.of_perm hperm
      apply KnapsackSelection_of_foldl hs.applicable_sublist.subperm
      left
      rw [← hs.nTotalLower_eq, heq]
      exact Int64.le_refl _
    · split at h
      · -- too little: the lowest larger group, if any
        obtain ⟨l, hl, rfl⟩ := Option.map_eq_some_iff.mp h
        obtain ⟨hmem, hlarger⟩ := hs.lowest_larger l hl
        exact Or.inr ((KnapsackSelection_of_group hmem hlarger).of_perm hperm)
      · rename_i hne hnlt
        cases h
        rcases KnapsackChoose_selection hs (Int64.not_lt.mp hnlt) (KnapsackBest_best _ _ draws) with
          hsel | hsel
        · exact Or.inl (hsel.of_perm hperm)
        · exact Or.inr (hsel.of_perm hperm)

/-- When adding `MIN_CHANGE` to the target does not wrap, a successful run
returns a selection that reaches the target. -/
theorem KnapsackSolver_selection (hchange : nTargetValue < nTargetValue + MIN_CHANGE)
    {groups : List OutputGroup} {draws : KnapsackDraws} {r : List CInputCoin × CAmount}
    (h : KnapsackSolver policyAsset nTargetValue groups draws = some r) :
    KnapsackSelection policyAsset nTargetValue groups r := by
  rcases KnapsackSolver_selection_or h with hsel | hsel
  · exact hsel
  · exact hsel.mono (Int64.le_of_lt hchange)

theorem KnapsackSolver_singleton_exact {g : OutputGroup}
    (hg : g.GetSelectionAmount policyAsset = nTargetValue) (draws : KnapsackDraws) :
    KnapsackSolver policyAsset nTargetValue [g] draws = some (KnapsackTake ([], 0) g) := by
  have hshuffle : draws.shuffle [g] = [g] := List.perm_singleton.mp (draws.shuffle_perm [g])
  unfold KnapsackSolver
  rw [hshuffle]
  simp [KnapsackScanGroup, hg]

end Selection

/-!
## The solver over a map of targets
-/

/-- The entries of a `std::map`, in the order of its keys. -/
def CAmountMap.sortedEntries (m : CAmountMap) : List (Sigma fun _ : CAsset => CAmount) :=
  m.entries.insertionSort fun a b => BaseBlob.Less a.1 b.1

/-- The variables the solver carries from asset to asset. -/
structure KnapsackAssets where
  setCoinsRet : List CInputCoin
  mapValueRet : CAmountMap
  non_policy_effective_value : CAmount
  subtract_fee_outputs : Bool

/-- The filter of the solver's loops: a group none of whose coins is selected
already and all of whose coins are of `asset`. -/
def KnapsackEligible (setCoinsRet : List CInputCoin) (asset : CAsset) (g : OutputGroup) : Bool :=
  g.m_outputs.all fun c => !CoinSetContains setCoinsRet c && c.asset == asset

/-- The filter loop also copies each group's `m_subtract_fee_outputs`: the last
group's flag stays. -/
def LastSubtractFeeOutputs (groups : List OutputGroup) (subtract_fee_outputs : Bool) : Bool :=
  groups.foldl (fun _ g => g.m_subtract_fee_outputs) subtract_fee_outputs

/-- A coin the solver selected for a non-policy asset: it joins the set, and
unless fees are subtracted from the outputs its effective value is added to
what the policy asset must cover. -/
def KnapsackAddCoin (s : KnapsackAssets) (ic : CInputCoin) : KnapsackAssets :=
  { s with
    non_policy_effective_value :=
      if !s.subtract_fee_outputs then s.non_policy_effective_value + ic.effective_value
      else s.non_policy_effective_value
    setCoinsRet := CoinSetInsert s.setCoinsRet ic }

section SolverMap

variable (policyAsset : CAsset) (groups : List OutputGroup) (draws : CAsset → KnapsackDraws)

/-- One target of the loop over the non-policy assets. -/
def KnapsackSolveAsset (s : KnapsackAssets) (target : Sigma fun _ : CAsset => CAmount) :
    Option KnapsackAssets :=
  if target.2 = 0 then some s
  else if target.1 = policyAsset then some s
  else if (groups.filter (KnapsackEligible s.setCoinsRet target.1)).isEmpty then none
  else
    match KnapsackSolver policyAsset target.2 (groups.filter (KnapsackEligible s.setCoinsRet target.1))
        (draws target.1) with
    | none => none
    | some (inner_coinsret, outValue) =>
      some (inner_coinsret.foldl KnapsackAddCoin
        { s with mapValueRet := s.mapValueRet.insert target.1 outValue,
                 subtract_fee_outputs := LastSubtractFeeOutputs groups s.subtract_fee_outputs })

/-- The policy asset's run, for the target the non-policy assets leave it. -/
def KnapsackSolvePolicy (s : KnapsackAssets) (policy_target : CAmount) :
    Option (List CInputCoin × CAmountMap) :=
  if policy_target > 0 then
    if (groups.filter (KnapsackEligible s.setCoinsRet policyAsset)).isEmpty then none
    else
      match KnapsackSolver policyAsset policy_target
          (groups.filter (KnapsackEligible s.setCoinsRet policyAsset)) (draws policyAsset) with
      | none => none
      | some (inner_coinsret, outValue) =>
        some (CoinSetInsertAll s.setCoinsRet inner_coinsret, s.mapValueRet.insert policyAsset outValue)
  else some (s.setCoinsRet, s.mapValueRet)

/-- The `CAmountMap` overload of `KnapsackSolver`: the coins and the value
selected of each asset, `none` for `return false`, or the `std::out_of_range`
that `mapTargetValue.at(::policyAsset)` throws. -/
def KnapsackSolverMap (mapTargetValue : CAmountMap) :
    Except String (Option (List CInputCoin × CAmountMap)) :=
  match mapTargetValue.sortedEntries.foldlM (KnapsackSolveAsset policyAsset groups draws)
      ⟨[], ∅, 0, false⟩ with
  | none => .ok none
  | some s =>
    match mapTargetValue.lookup policyAsset with
    | none => .error "map::at"
    | some policy_value =>
      .ok (KnapsackSolvePolicy policyAsset groups draws s (s.non_policy_effective_value + policy_value))

end SolverMap

/-!
### The target of the policy asset

Unless fees are subtracted from the outputs, every coin the loop selects for a
non-policy asset adds its effective value to what the policy asset must cover.
`Insert` makes that value minus the coin's fee, so the policy asset's run is
asked for its target less those fees.
-/

/-- What the loop over the non-policy assets keeps, when fees are not
subtracted: the set holds coins of the groups, none of the policy asset and no
two of one outpoint, and the policy asset owes the sum of their effective
values. -/
structure KnapsackAssets.Inv (policyAsset : CAsset) (groups : List OutputGroup) (s : KnapsackAssets) :
    Prop where
  subtract_fee_outputs_eq : s.subtract_fee_outputs = false
  nodup : (s.setCoinsRet.map (·.outpoint)).Nodup
  mem_groups : ∀ c ∈ s.setCoinsRet, c ∈ groups.flatMap (·.m_outputs) ∧ c.asset ≠ policyAsset
  non_policy_effective_value_eq :
    s.non_policy_effective_value = (s.setCoinsRet.map (·.effective_value)).sum

section PolicyTarget

variable {policyAsset : CAsset} {groups : List OutputGroup} {draws : CAsset → KnapsackDraws}

end PolicyTarget

/-!
## A run that leaves the fees of its non-policy inputs unpaid

One group holds a coin of 5 of a token, and spending it costs a fee of 3; the
other holds a policy coin of 11 whose fee is 4.  The transaction needs 10 of
the policy asset and 5 of the token.  The token's coin matches its target
exactly; its effective value, -3, is added to the policy target, which drops
to 7, and the policy coin's effective value of 7 matches that exactly.  The
policy coin then covers 7 where the outputs and the token's fee need 13.
-/

def bitcoinAsset : CAsset := b32_of_scalar 1

def tokenAsset : CAsset := b32_of_scalar 2

def feeRateK : CFeeRate := ⟨1000⟩

def tokenCoin : CInputCoin := ⟨⟨b32_of_scalar 7, 0⟩, 5, 0, 0, 5, tokenAsset, 3⟩

def policyCoin : CInputCoin := ⟨⟨b32_of_scalar 7, 1⟩, 11, 0, 0, 11, bitcoinAsset, 4⟩

def tokenGroup : OutputGroup :=
  (OutputGroup.init feeRateK feeRateK false).Insert bitcoinAsset tokenCoin 6 true 0 0 false

def policyGroup : OutputGroup :=
  (OutputGroup.init feeRateK feeRateK false).Insert bitcoinAsset policyCoin 6 true 0 0 false

def feeTargets : CAmountMap := (AList.insert bitcoinAsset 10 ∅).insert tokenAsset 5

def keepDraws : KnapsackDraws := ⟨id, List.Perm.refl, fun _ _ => false, fun _ _ => false⟩

theorem KnapsackSolverMap_feeTargets_draws (draws : CAsset → KnapsackDraws) :
    KnapsackSolverMap bitcoinAsset [tokenGroup, policyGroup] draws feeTargets =
      KnapsackSolverMap bitcoinAsset [tokenGroup, policyGroup] (fun _ => keepDraws) feeTargets := by
  have hsolver : ∀ (g : OutputGroup) gs t d, gs = [g] → g.GetSelectionAmount bitcoinAsset = t →
      KnapsackSolver bitcoinAsset t gs d = some (KnapsackTake ([], 0) g) := by
    rintro g gs t d rfl hg
    exact KnapsackSolver_singleton_exact hg d
  have hentries : feeTargets.sortedEntries = [⟨bitcoinAsset, 10⟩, ⟨tokenAsset, 5⟩] := by decide
  have hlookup : feeTargets.lookup bitcoinAsset = some 10 := by decide
  unfold KnapsackSolverMap KnapsackSolvePolicy
  simp +decide (disch := decide) only [hentries, List.foldlM_cons, List.foldlM_nil, KnapsackSolveAsset,
    hsolver tokenGroup, hsolver policyGroup, if_true, if_false, Option.bind_eq_bind, Option.bind_some,
    Option.pure_def, hlookup]

theorem KnapsackSolverMap_underpays_non_policy_fees (draws : CAsset → KnapsackDraws) :
    ∃ S V, KnapsackSolverMap bitcoinAsset [tokenGroup, policyGroup] draws feeTargets =
        .ok (some (S, V)) ∧
      ((S.filter fun c => c.asset = bitcoinAsset).map (·.effective_value)).sum <
        feeTargets.get bitcoinAsset + ((S.filter fun c => c.asset ≠ bitcoinAsset).map (·.m_fee)).sum := by
  rw [KnapsackSolverMap_feeTargets_draws draws]
  refine ⟨_, _, rfl, ?_⟩
  decide

theorem KnapsackSolver_selection_policyGroup :
    (7 : CAmount) < 7 + MIN_CHANGE ∧
      KnapsackSolver bitcoinAsset 7 [policyGroup] keepDraws = some (KnapsackTake ([], 0) policyGroup) ∧
      KnapsackSelection bitcoinAsset 7 [policyGroup] (KnapsackTake ([], 0) policyGroup) := by
  have hchange : (7 : CAmount) < 7 + MIN_CHANGE := by decide
  have hsolve := @KnapsackSolver_singleton_exact bitcoinAsset 7 policyGroup (by decide) keepDraws
  exact ⟨hchange, hsolve, KnapsackSolver_selection hchange hsolve⟩

end Elements
