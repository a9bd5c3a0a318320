import Elements.Validation.ConnectTip
import Elements.Data.ExceptFold
import Elements.Data.MarkOnce

/-!
# A peg-in claim is spent once

Over any run of `ConnectBlock`, the peg-in inputs of the transactions the run
checks name pairwise distinct claims, each unspent in the view the run starts
from and spent in the view it ends with.  `CheckTxInputs` rejects a claim the
view has spent or the block has made already, and `UpdateCoins` marks the
transaction's claims spent before the next transaction is checked; in the
terms of `MarkOnce`, every connected transaction, block and chain `Marked`s
its claims in the view's table of spent claims.

The genesis block is taken to carry no peg-in: `ConnectBlock` adds its outputs
without looking at its inputs.  The coinbase is left out, as the checks leave
it out; a coinbase read from the wire never has a peg-in input
(`CTxIn.ReadOutpoint_coinbase_not_pegin`).  Through `ConnectTips_simulates`
the same holds of the claims the chain tip's cache stack stands for.
-/

namespace Elements

open ExceptFold MarkOnce CallTree

/-!
## The claims of a transaction
-/

/-- The claim an input makes, if it is a peg-in: the key its witness names,
`none` inside when it names none. -/
def InputPeginClaim (tx : CTransaction) (input : CTxIn × Nat) : Option (Option CCoinsMapKey) :=
  if input.1.m_is_pegin then
    some ((tx.witness.vtxinwit[input.2]?).bind fun txinwit =>
      PeginKey txinwit.m_pegin_witness input.1.prevout)
  else none

/-- The claims of a transaction's peg-in inputs, in input order. -/
def CTransaction.PeginClaims (tx : CTransaction) : List (Option CCoinsMapKey) :=
  tx.vin.zipIdx.filterMap (InputPeginClaim tx)

/-- The claims `ConnectBlock` checks in a transaction: none in the coinbase. -/
def CTransaction.CheckedPeginClaims (tx : CTransaction) : List (Option CCoinsMapKey) :=
  if tx.IsCoinBase then [] else tx.PeginClaims

/-- The claims `ConnectBlock` checks in a block. -/
def CBlock.CheckedPeginClaims (block : CBlock) : List (Option CCoinsMapKey) :=
  block.vtx.flatMap CTransaction.CheckedPeginClaims

theorem claims_of_marked {claims : List (Option CCoinsMapKey)} {ks : List CCoinsMapKey}
    {f₀ f : CCoinsMapKey -> Bool} (hks : claims = ks.map some) (hmarked : Marked f₀ f ks) :
    claims.Nodup ∧ ∀ claim ∈ claims, ∃ key, claim = some key ∧ f₀ key = false ∧ f key = true := by
  subst hks
  refine ⟨hmarked.nodup.map (Option.some_injective _), fun claim hclaim => ?_⟩
  obtain ⟨key, hkey, rfl⟩ := List.mem_map.mp hclaim
  exact ⟨key, rfl, hmarked.clear_before key hkey, hmarked.set_after hkey⟩

variable {g : Globals} {H : Hashes} {ctx : ConnectParams}

/-!
## Checking the inputs
-/

section CheckTxInputs

variable {p : PeginParams} {tx : CTransaction} {nSpendHeight : Int}
  {fedpegscripts : List (CScript × CScript)} {tally tally' : InputTally} {input : CTxIn × Nat}
  {s s' : CoinsState}

theorem TallyCoinInput_setPeginsSpent {coin : Coin}
    (h : TallyCoinInput g nSpendHeight tally coin = Except.ok tally') :
    tally'.setPeginsSpent = tally.setPeginsSpent := by
  simp only [TallyCoinInput, throw_bind, ite_throw_eq_ok] at h
  obtain ⟨-, -, h⟩ := h
  -- the value read, explicit or not, does not touch the claims
  split at h <;>
  · obtain ⟨nValueIn, -, h⟩ := bind_eq_ok.mp h
    rw [← pure_eq_ok.mp h]

theorem TallyPeginInput_eq_ok {txinwit : CTxInWitness} {pegin : CCoinsMapKey} {spent : Bool}
    (h : TallyPeginInput g tally txinwit pegin spent = Except.ok tally') :
    spent = false ∧ pegin ∉ tally.setPeginsSpent ∧
      tally'.setPeginsSpent = pegin :: tally.setPeginsSpent := by
  simp only [TallyPeginInput, throw_bind, ite_throw_eq_ok, bind_eq_ok, assertSome_eq_ok,
    pure_eq_ok] at h
  obtain ⟨hspent, hnew, -, -, -, -, -, rfl⟩ := h
  exact ⟨by simpa using hspent, hnew, rfl⟩

theorem CheckTxInput_not_pegin (hpegin : input.1.m_is_pegin = false)
    (h : (CheckTxInput g p tx nSpendHeight fedpegscripts tally input).run (CoinsState.Serve g) s =
      Except.ok (tally', s')) :
    tally'.setPeginsSpent = tally.setPeginsSpent := by
  simp only [CheckTxInput, hpegin, Bool.false_eq_true, if_false, run_bind,
    CoinsState.run_AccessCoin, pure_bind, run_lift, map_eq_ok] at h
  obtain ⟨tally₁, htally, heq⟩ := h
  obtain ⟨rfl, -⟩ := Prod.mk.inj heq
  exact TallyCoinInput_setPeginsSpent htally

theorem CheckTxInput_pegin (hpegin : input.1.m_is_pegin = true)
    (h : (CheckTxInput g p tx nSpendHeight fedpegscripts tally input).run (CoinsState.Serve g) s =
      Except.ok (tally', s')) :
    ∃ k, InputPeginClaim tx input = some (some k) ∧ s.peginSpent k = false ∧
      k ∉ tally.setPeginsSpent ∧ tally'.setPeginsSpent = k :: tally.setPeginsSpent := by
  simp only [CheckTxInput, hpegin, if_true] at h
  cases hwit : tx.witness.vtxinwit[input.2]? with
  | none => simp [hwit] at h
  | some txinwit =>
    cases hvalid : IsValidPeginWitness p txinwit.m_pegin_witness fedpegscripts input.1.prevout
        true with
    | error msg => simp [hwit, hvalid] at h
    | ok u =>
      simp only [hwit, hvalid, run_bind, run_assertSome, bind_map_left, bind_eq_ok,
        assertSome_eq_ok, CoinsState.run_IsPeginSpent, run_lift, map_eq_ok] at h
      obtain ⟨k, hk, spent, hspent, tally₁, htally, heq⟩ := h
      obtain ⟨rfl, -⟩ := Prod.mk.inj heq
      obtain ⟨-, hunspent⟩ := CoinsState.IsPeginSpent_eq_ok.mp hspent
      obtain ⟨rfl, hnew, hset⟩ := TallyPeginInput_eq_ok htally
      exact ⟨k, by simp [InputPeginClaim, hpegin, hwit, hk], hunspent, hnew, hset⟩

/-- The loop of `CheckTxInputs`: the claims of the inputs so far are distinct,
unspent in the view and new to the block, and were added to the block's. -/
def ClaimsChecked (tx : CTransaction) (inputs : CoinsState) (setPeginsSpent : List CCoinsMapKey)
    (done : List (CTxIn × Nat)) (tally : InputTally) : Prop :=
  ∃ ks : List CCoinsMapKey, done.filterMap (InputPeginClaim tx) = ks.map some ∧ ks.Nodup ∧
    (∀ k ∈ ks, inputs.peginSpent k = false ∧ k ∉ setPeginsSpent) ∧
    tally.setPeginsSpent = ks.reverse ++ setPeginsSpent

theorem ClaimsChecked_step {setPeginsSpent : List CCoinsMapKey} {done : List (CTxIn × Nat)}
    (hinv : ClaimsChecked tx s setPeginsSpent done tally)
    (h : (CheckTxInput g p tx nSpendHeight fedpegscripts tally input).run (CoinsState.Serve g) s =
      Except.ok (tally', s')) :
    ClaimsChecked tx s setPeginsSpent (done ++ [input]) tally' := by
  obtain ⟨ks, hks, hnodup, hfresh, hset⟩ := hinv
  cases hpegin : input.1.m_is_pegin with
  | false =>
    refine ⟨ks, ?_, hnodup, hfresh, ?_⟩
    · simp [List.filterMap_append, hks, InputPeginClaim, hpegin]
    · rw [CheckTxInput_not_pegin hpegin h, hset]
  | true =>
    obtain ⟨k, hclaim, hunspent, hnew, hset'⟩ := CheckTxInput_pegin hpegin h
    rw [hset, List.mem_append, List.mem_reverse, not_or] at hnew
    refine ⟨ks ++ [k], by simp [List.filterMap_append, hks, hclaim], ?_, ?_, ?_⟩
    · exact List.nodup_append.mpr ⟨hnodup, List.nodup_singleton k,
        fun a ha b hb hab => hnew.1 (by rw [List.mem_singleton.mp hb] at hab; exact hab ▸ ha)⟩
    · intro k' hk'
      rcases List.mem_append.mp hk' with hk' | hk'
      · exact hfresh k' hk'
      · rw [List.mem_singleton.mp hk']
        exact ⟨hunspent, hnew.2⟩
    · simp [hset', hset]

theorem CheckTxInputs_claims {VerifyAmounts : List CTxOut -> CTransaction -> Bool}
    {fee_map : CAmountMap} {setPeginsSpent : List CCoinsMapKey} {fScriptChecks : Bool}
    {r : CAmountMap × List CCoinsMapKey}
    (h : (CheckTxInputs g p VerifyAmounts tx nSpendHeight fee_map setPeginsSpent fScriptChecks
      fedpegscripts).run (CoinsState.Serve g) s = Except.ok (r, s')) :
    ∃ ks : List CCoinsMapKey, tx.PeginClaims = ks.map some ∧ ks.Nodup ∧
      (∀ k ∈ ks, s.peginSpent k = false ∧ k ∉ setPeginsSpent) ∧
      r.2 = ks.reverse ++ setPeginsSpent := by
  obtain ⟨-, tally, hfold, -, hr⟩ := CheckTxInputs_eq_ok h
  have hloop := run_foldlM_inv_nil _ _
    (fun done tally t => t = s ∧ ClaimsChecked tx s setPeginsSpent done tally)
    (fun _ _ _ _ _ _ ⟨hs, hinv⟩ hstep => by
      subst hs
      exact ⟨CoinsState.run_reads (CheckTxInput_reads _ _) hstep, ClaimsChecked_step hinv hstep⟩)
    ⟨rfl, [], rfl, List.nodup_nil, by simp, rfl⟩ hfold
  obtain ⟨ks, hks, hnodup, hfresh, hset⟩ := hloop.2
  exact ⟨ks, hks, hnodup, hfresh, hr.trans hset⟩

end CheckTxInputs

/-!
## Applying a transaction
-/

section UpdateCoins

variable {tx : CTransaction} {txundo txundo' : CTxUndo} {input : CTxIn × Nat} {s s' : CoinsState}

theorem UpdateCoinsInput_not_pegin (hpegin : input.1.m_is_pegin = false)
    (h : (UpdateCoinsInput g tx txundo input).run (CoinsState.Serve g) s =
      Except.ok (txundo', s')) :
    s'.peginSpent = s.peginSpent := by
  rw [UpdateCoinsInput, if_neg (by simp [hpegin])] at h
  exact CoinsState.run_keepsClaims (.bind (ViewM.SpendCoin_keepsClaims _) fun _ =>
    .bind (assertSome_callsSatisfy _) fun _ => .pure _) h

theorem UpdateCoinsInput_pegin (hpegin : input.1.m_is_pegin = true)
    (h : (UpdateCoinsInput g tx txundo input).run (CoinsState.Serve g) s =
      Except.ok (txundo', s')) :
    ∃ k, InputPeginClaim tx input = some (some k) ∧
      s'.peginSpent = Function.update s.peginSpent k true := by
  simp only [UpdateCoinsInput, hpegin, if_true, run_bind, run_assertSome, bind_map_left,
    bind_eq_ok, assertSome_eq_ok, CoinsState.run_SetPeginSpent, CoinsState.SetPeginSpent_eq_ok, run_pure, pure_eq_ok] at h
  obtain ⟨txinwit, hwit, k, hk, s₁, ⟨-, rfl⟩, heq⟩ := h
  obtain ⟨-, rfl⟩ := Prod.mk.inj heq
  exact ⟨k, by simp [InputPeginClaim, hpegin, hwit, hk], rfl⟩

/-- The loop of `UpdateCoins`: the claims of the inputs so far are marked. -/
def ClaimsMarked (tx : CTransaction) (inputs : CoinsState) (done : List (CTxIn × Nat))
    (view : CoinsState) : Prop :=
  ∃ ks : List CCoinsMapKey, done.filterMap (InputPeginClaim tx) = ks.map some ∧
    Marks inputs.peginSpent view.peginSpent ks

theorem ClaimsMarked_step {inputs : CoinsState} {done : List (CTxIn × Nat)}
    (hinv : ClaimsMarked tx inputs done s)
    (h : (UpdateCoinsInput g tx txundo input).run (CoinsState.Serve g) s =
      Except.ok (txundo', s')) :
    ClaimsMarked tx inputs (done ++ [input]) s' := by
  obtain ⟨ks, hks, hmarks⟩ := hinv
  cases hpegin : input.1.m_is_pegin with
  | false =>
    refine ⟨ks, by simp [List.filterMap_append, hks, InputPeginClaim, hpegin], ?_⟩
    rw [UpdateCoinsInput_not_pegin hpegin h]
    exact hmarks
  | true =>
    obtain ⟨k, hclaim, hspent⟩ := UpdateCoinsInput_pegin hpegin h
    refine ⟨ks ++ [k], by simp [List.filterMap_append, hks, hclaim], ?_⟩
    rw [hspent]
    exact hmarks.trans (Marks.update _ k)

theorem UpdateCoins_marks {nHeight : Nat}
    (h : (UpdateCoins g H tx nHeight).run (CoinsState.Serve g) s = Except.ok (txundo, s')) :
    ∃ ks : List CCoinsMapKey, tx.CheckedPeginClaims = ks.map some ∧
      Marks s.peginSpent s'.peginSpent ks := by
  simp only [UpdateCoins, run_bind, bind_eq_ok, run_pure, pure_eq_ok] at h
  obtain ⟨⟨spent, s₁⟩, hspend, ⟨⟨⟩, s₂⟩, hadd, hresult⟩ := h
  obtain ⟨-, rfl⟩ := Prod.mk.inj hresult
  -- `AddCoins` writes coins only
  rw [CoinsState.run_keepsClaims (AddCoins_keepsClaims _ _ _) hadd]
  unfold CTransaction.CheckedPeginClaims
  unfold SpendInputs at hspend
  -- the coinbase spends nothing; any other transaction runs the input loop
  cases hcoinbase : tx.IsCoinBase with
  | true =>
    simp only [hcoinbase, if_true, run_pure, pure_eq_ok] at hspend
    obtain ⟨-, rfl⟩ := Prod.mk.inj hspend
    exact ⟨[], by simp, Marks.nil _⟩
  | false =>
    simp only [hcoinbase, Bool.false_eq_true, if_false] at hspend ⊢
    exact run_foldlM_inv_nil _ _ (fun done _ t => ClaimsMarked tx s done t)
      (fun _ _ _ _ _ _ hinv hstep => ClaimsMarked_step hinv hstep) ⟨[], rfl, Marks.nil _⟩ hspend

end UpdateCoins

/-!
## Connecting a block
-/

section ConnectBlock

variable {pindex : CBlockIndex} {fedpegscripts : List (CScript × CScript)} {fScriptChecks : Bool}
  {s s' : CoinsState}

theorem CheckTxConnect_claims {acc : ConnectLoop} {tx : CTransaction}
    {checked : CAmountMap × List CCoinsMapKey}
    (h : (CheckTxConnect ctx g pindex fedpegscripts fScriptChecks acc tx).run (CoinsState.Serve g) s =
      Except.ok (checked, s')) :
    ∃ ks : List CCoinsMapKey, tx.CheckedPeginClaims = ks.map some ∧ ks.Nodup ∧
      ∀ k ∈ ks, s.peginSpent k = false := by
  unfold CheckTxConnect at h
  unfold CTransaction.CheckedPeginClaims
  cases hcoinbase : tx.IsCoinBase with
  | true => exact ⟨[], by simp, List.nodup_nil, fun _ hk => absurd hk List.not_mem_nil⟩
  | false =>
    simp only [hcoinbase, Bool.false_eq_true, if_false, run_bind, bind_eq_ok] at h ⊢
    obtain ⟨⟨checked', s₁⟩, hinputs, -⟩ := h
    obtain ⟨ks, hks, hnodup, hfresh, -⟩ := CheckTxInputs_claims hinputs
    exact ⟨ks, hks, hnodup, fun k hk => (hfresh k hk).1⟩

theorem ConnectTransaction_marked {acc acc' : ConnectLoop} {entry : CTransaction × Nat}
    (h : (ConnectTransaction ctx g H pindex fedpegscripts fScriptChecks acc entry).run
      (CoinsState.Serve g) s = Except.ok (acc', s')) :
    ∃ ks : List CCoinsMapKey, entry.1.CheckedPeginClaims = ks.map some ∧
      Marked s.peginSpent s'.peginSpent ks := by
  obtain ⟨checked, coins, txundo, hcheck, -, -, -, hupdate, -⟩ := ConnectTransaction_eq_ok h
  obtain ⟨ks, hks, hnodup, hfresh⟩ := CheckTxConnect_claims hcheck
  obtain ⟨ks', hks', hmarks⟩ := UpdateCoins_marks hupdate
  have hsame : ks' = ks :=
    List.map_injective_iff.mpr (Option.some_injective _) (hks'.symm.trans hks)
  subst hsame
  exact ⟨ks', hks', hmarks, hnodup, hfresh⟩

/-- The transaction loop: the claims of the transactions so far are marked. -/
def LoopMarked (view : CoinsState) (done : List (CTransaction × Nat)) (view' : CoinsState) : Prop :=
  ∃ ks : List CCoinsMapKey,
    (done.map Prod.fst).flatMap CTransaction.CheckedPeginClaims = ks.map some ∧
    Marked view.peginSpent view'.peginSpent ks

theorem LoopMarked_step {view : CoinsState} {done : List (CTransaction × Nat)}
    {acc acc' : ConnectLoop} {entry : CTransaction × Nat} (hinv : LoopMarked view done s)
    (h : (ConnectTransaction ctx g H pindex fedpegscripts fScriptChecks acc entry).run
      (CoinsState.Serve g) s = Except.ok (acc', s')) :
    LoopMarked view (done ++ [entry]) s' := by
  obtain ⟨ks, hks, hmarked⟩ := hinv
  obtain ⟨ks', hks', hmarked'⟩ := ConnectTransaction_marked h
  exact ⟨ks ++ ks', by simp [hks, hks'], hmarked.trans hmarked'⟩

theorem ConnectCheckedBlock_marked {block : CBlock} {setPeginsSpent : List CCoinsMapKey}
    {result : CBlockUndo × List CCoinsMapKey}
    (h : (ConnectCheckedBlock ctx g H block pindex setPeginsSpent).run (CoinsState.Serve g) s =
      Except.ok (result, s')) :
    ∃ ks : List CCoinsMapKey, block.CheckedPeginClaims = ks.map some ∧
      Marked s.peginSpent s'.peginSpent ks := by
  obtain ⟨-, loop, hloop, -, -⟩ := ConnectCheckedBlock_eq_ok h
  obtain ⟨ks, hks, hmarked⟩ := run_foldlM_inv_nil _ _ (fun done _ t => LoopMarked s done t)
    (fun _ _ _ _ _ _ hinv hstep => LoopMarked_step hinv hstep) ⟨[], rfl, Marked.nil _⟩ hloop
  rw [List.zipIdx_map_fst] at hks
  exact ⟨ks, hks, hmarked⟩

theorem ConnectBlock_marked {block : CBlock} {view view' : ChainView}
    {setPeginsSpent setPeginsSpent' : List CCoinsMapKey} {blockundo : CBlockUndo}
    (hgenesis : block.GetHash H g = some ctx.hashGenesisBlock -> block.CheckedPeginClaims = [])
    (h : ConnectBlock ctx g H block pindex view setPeginsSpent =
      Except.ok (blockundo, view', setPeginsSpent')) :
    ∃ ks : List CCoinsMapKey, block.CheckedPeginClaims = ks.map some ∧
      Marked view.coins.peginSpent view'.coins.peginSpent ks := by
  obtain ⟨hash, connected, coins, hasserts, hcalls, hresult⟩ := ConnectBlock_eq_ok h
  simp only [Prod.mk.injEq] at hresult
  obtain ⟨-, rfl, -⟩ := hresult
  obtain ⟨hhash, -, -⟩ := ConnectBlockAsserts_eq_ok hasserts
  rcases ConnectBlockCalls_eq_ok hcalls with ⟨rfl, hgen, -⟩ | ⟨-, hchecked⟩
  · -- the genesis block writes coins only
    refine ⟨[], hgenesis hhash, ?_⟩
    rw [CoinsState.run_keepsClaims (ConnectGenesisBlock_keepsClaims _) hgen]
    exact Marked.nil _
  · exact ConnectCheckedBlock_marked hchecked

end ConnectBlock

section Chain

variable {chain : List (CBlockIndex × CBlock)}

theorem ConnectBlocks_marked :
    ∀ {chain : List (CBlockIndex × CBlock)} {view view' : ChainView},
      (∀ entry ∈ chain, entry.2.GetHash H g = some ctx.hashGenesisBlock ->
        entry.2.CheckedPeginClaims = []) ->
      ConnectBlocks ctx g H view chain = Except.ok view' ->
      ∃ ks : List CCoinsMapKey, chain.flatMap (fun entry => entry.2.CheckedPeginClaims) =
        ks.map some ∧ Marked view.coins.peginSpent view'.coins.peginSpent ks
  | [], view, view', _, h => by
    simp only [ConnectBlocks, pure_eq_ok] at h
    subst h
    exact ⟨[], rfl, Marked.nil _⟩
  | (pindex, block) :: rest, view, view', hgenesis, h => by
    simp only [ConnectBlocks, bind_eq_ok] at h
    obtain ⟨⟨blockundo, view₁, setPeginsSpent₁⟩, hblock, hrest⟩ := h
    obtain ⟨ks₁, hks₁, hmarked₁⟩ := ConnectBlock_marked (hgenesis _ List.mem_cons_self) hblock
    obtain ⟨ks₂, hks₂, hmarked₂⟩ := ConnectBlocks_marked
      (fun entry hentry => hgenesis entry (List.mem_cons_of_mem _ hentry)) hrest
    exact ⟨ks₁ ++ ks₂, by simp [hks₁, hks₂], hmarked₁.trans hmarked₂⟩

/-- Across any run of connected blocks whose genesis block carries no peg-in,
the peg-in inputs of the checked transactions name distinct claims, each
unspent before the run and spent after it. -/
theorem pegin_claims_spent_once {view view' : ChainView}
    (hgenesis : ∀ entry ∈ chain, entry.2.GetHash H g = some ctx.hashGenesisBlock ->
      entry.2.CheckedPeginClaims = [])
    (h : ConnectBlocks ctx g H view chain = Except.ok view') :
    (chain.flatMap fun entry => entry.2.CheckedPeginClaims).Nodup ∧
      ∀ claim ∈ chain.flatMap (fun entry => entry.2.CheckedPeginClaims),
        ∃ key, claim = some key ∧ view.coins.peginSpent key = false ∧
          view'.coins.peginSpent key = true := by
  obtain ⟨ks, hks, hmarked⟩ := ConnectBlocks_marked hgenesis h
  exact claims_of_marked hks hmarked

/-- The same on the chain tip: a chain that `ConnectBlock` connects on the
plain state a well-formed stack stands for is connected onto the stack by
`ConnectTip`, and the claims are distinct, unspent in what the stack stood
for before and spent in what it stands for after. -/
theorem pegin_claims_spent_once_on_tip (hmode : g.g_con_elementsmode = true) {tip : CCoinsView}
    {view' : ChainView} (hwf : tip.WF g) (hbest : tip.GetBestBlock.IsNull = false)
    (hnull : ∀ entry ∈ chain, entry.1.phashBlock.IsNull = false)
    (hgenesis : ∀ entry ∈ chain, entry.2.GetHash H g = some ctx.hashGenesisBlock ->
      entry.2.CheckedPeginClaims = [])
    (h : ConnectBlocks ctx g H ⟨tip.state g, tip.GetBestBlock⟩ chain = Except.ok view') :
    ∃ tip', ConnectTips ctx g H tip chain = Except.ok tip' ∧
      (chain.flatMap fun entry => entry.2.CheckedPeginClaims).Nodup ∧
      ∀ claim ∈ chain.flatMap (fun entry => entry.2.CheckedPeginClaims),
        ∃ key, claim = some key ∧ (tip.state g).peginSpent key = false ∧
          (tip'.state g).peginSpent key = true := by
  obtain ⟨tip', htips, hbecomes, -⟩ := ConnectTips_simulates hmode hwf hbest hnull h
  obtain ⟨ks, hks, hmarked⟩ := ConnectBlocks_marked hgenesis h
  rw [← hbecomes.state_eq] at hmarked
  exact ⟨tip', htips, claims_of_marked hks hmarked⟩

end Chain

/-!
## A chain with a peg-in

The parent-chain part of the peg-in check accepts the claimed outpoint, proof
of work always passes, and the hash functions keep the first 32 bytes of what
they hash.
-/

def peginGlobals : Globals := ⟨false, false, true⟩

def exampleBlob (b : UInt8) : Uint256 := ⟨List.replicate 31 0 ++ [b], by simp⟩

def prefixHash (bytes : List UInt8) : Uint256 :=
  ⟨(bytes ++ List.replicate 32 0).take 32, by
    simp only [List.length_take, List.length_append, List.length_replicate]
    omega⟩

def prefixHashes : Hashes :=
  ⟨prefixHash, prefixHash, fun _ => BaseBlob.zero 20, fun _ _ => BaseBlob.zero 32⟩

def examplePeginParams : PeginParams where
  has_parent_chain := true
  ParentGenesisBlockHash := exampleBlob 9
  pegged_asset := exampleBlob 5
  pegin_min_depth := 0
  validatepegin := false
  CheckParentProof := fun _ _ _ prevout _ _ => pure ⟨BaseBlob.zero 32, prevout.hash, 1, 2⟩
  IsConfirmedBitcoinBlock := fun _ _ _ => true

def claimedOutpoint : COutPoint := ⟨exampleBlob 3, 0⟩

def examplePeginWitness : CScriptWitness :=
  ⟨[[1, 0, 0, 0, 0, 0, 0, 0], (exampleBlob 5).data, (exampleBlob 9).data, [0x51], [], []]⟩

def claimedKey : CCoinsMapKey := (exampleBlob 9, claimedOutpoint)

def peginTx : CTransaction :=
  ⟨2, [⟨claimedOutpoint, [], CTxIn.SEQUENCE_FINAL, CAssetIssuance.empty, true⟩],
    [⟨CConfidentialAsset.SetToAsset (exampleBlob 5), CConfidentialValue.SetToAmount 1, ⟨[]⟩, [0x51]⟩],
    0, ⟨[⟨[], [], ⟨[]⟩, examplePeginWitness⟩], []⟩⟩

def peginCoinbase : CTransaction :=
  ⟨1, [⟨COutPoint.empty, [1, 1], CTxIn.SEQUENCE_FINAL, CAssetIssuance.empty, false⟩],
    [⟨CConfidentialAsset.SetToAsset (exampleBlob 5), CConfidentialValue.SetToAmount 0, ⟨[]⟩,
      [OP_RETURN]⟩], 0, CTxWitness.empty⟩

def exampleConnectParams : ConnectParams where
  pegin := examplePeginParams
  check :=
    { consensus :=
        { hashGenesisBlock := BaseBlob.zero 32
          max_block_signature_size := 0
          signblockscript := []
          dynamic_epoch_length := 1
          total_valid_epochs := 0
          genesis_style := "elements"
          dynafed_nStartTime := 0
          fedpegScript := []
          start_p2wsh_script := false
          first_extension_space := [] }
      GenericVerifyScript := fun _ _ _ _ _ => false
      CheckProofOfWork := fun _ _ _ => true
      signet_blocks := false
      CheckSignetBlockSolution := fun _ => false
      GetLegacySigOpCount := fun _ => 0 }
  connect_genesis_outputs := true
  mandatory_coinbase_destination := []
  subsidy_asset := exampleBlob 5
  enforce_pak := false
  GetValidFedpegScripts := fun _ => []
  fScriptChecks := fun _ => true
  fEnforceBIP30 := fun _ => true
  IsPAKValidTx := fun _ _ => true
  SequenceLocks := fun _ _ _ => true
  GetTransactionSigOpCost := fun _ _ => 0
  VerifyAmounts := fun _ _ => true
  CheckInputScripts := fun _ _ => pure ()
  GetBlockSubsidy := fun _ => 0

def blockWithPegin : CBlock :=
  CBlock.SetMerkleRoot prefixHashes peginGlobals
    ⟨{ CBlockHeader.empty with nVersion := 1 }, [peginCoinbase, peginTx]⟩

def peginChain : List (CBlockIndex × CBlock) :=
  [(⟨(blockWithPegin.GetHash prefixHashes peginGlobals).getD (BaseBlob.zero 32), 1,
    some (exampleBlob 1)⟩, blockWithPegin)]

def peginTip : CCoinsView := .db ⟨fun _ => none, fun _ => false, exampleBlob 1⟩

theorem peginChain_no_genesis : ∀ entry ∈ peginChain,
    entry.2.GetHash prefixHashes peginGlobals = some exampleConnectParams.hashGenesisBlock ->
      entry.2.CheckedPeginClaims = [] := by
  decide +kernel

theorem pegin_claims_spent_once_blockWithPegin :
    (∀ entry ∈ peginChain,
      entry.2.GetHash prefixHashes peginGlobals = some exampleConnectParams.hashGenesisBlock ->
        entry.2.CheckedPeginClaims = []) ∧
    (peginChain.flatMap fun entry => entry.2.CheckedPeginClaims) = [some claimedKey] ∧
    ∃ view', ConnectBlocks exampleConnectParams peginGlobals prefixHashes
        ⟨peginTip.state peginGlobals, peginTip.GetBestBlock⟩ peginChain = Except.ok view' ∧
      (peginChain.flatMap fun entry => entry.2.CheckedPeginClaims).Nodup ∧
      ∀ claim ∈ peginChain.flatMap (fun entry => entry.2.CheckedPeginClaims),
        ∃ key, claim = some key ∧ (peginTip.state peginGlobals).peginSpent key = false ∧
          view'.coins.peginSpent key = true := by
  obtain ⟨view', h⟩ := exists_eq_ok_of_isSome (by decide +kernel :
    (ConnectBlocks exampleConnectParams peginGlobals prefixHashes
      ⟨peginTip.state peginGlobals, peginTip.GetBestBlock⟩ peginChain).toOption.isSome = true)
  exact ⟨peginChain_no_genesis, by decide +kernel, view', h,
    pegin_claims_spent_once peginChain_no_genesis h⟩

theorem pegin_claims_spent_once_on_tip_peginTip :
    peginGlobals.g_con_elementsmode = true ∧ peginTip.WF peginGlobals ∧
    peginTip.GetBestBlock.IsNull = false ∧
    (∀ entry ∈ peginChain, entry.1.phashBlock.IsNull = false) ∧
    ∃ view', ConnectBlocks exampleConnectParams peginGlobals prefixHashes
        ⟨peginTip.state peginGlobals, peginTip.GetBestBlock⟩ peginChain = Except.ok view' ∧
    ∃ tip', ConnectTips exampleConnectParams peginGlobals prefixHashes peginTip peginChain =
        Except.ok tip' ∧
      (peginChain.flatMap fun entry => entry.2.CheckedPeginClaims).Nodup ∧
      ∀ claim ∈ peginChain.flatMap (fun entry => entry.2.CheckedPeginClaims),
        ∃ key, claim = some key ∧ (peginTip.state peginGlobals).peginSpent key = false ∧
          (tip'.state peginGlobals).peginSpent key = true := by
  have hwf : peginTip.WF peginGlobals := ⟨fun _ _ h => by simp at h, fun _ _ => rfl⟩
  have hnull : ∀ entry ∈ peginChain, entry.1.phashBlock.IsNull = false := by decide +kernel
  obtain ⟨view', h⟩ := exists_eq_ok_of_isSome (by decide +kernel :
    (ConnectBlocks exampleConnectParams peginGlobals prefixHashes
      ⟨peginTip.state peginGlobals, peginTip.GetBestBlock⟩ peginChain).toOption.isSome = true)
  exact ⟨rfl, hwf, by decide, hnull, view', h,
    pegin_claims_spent_once_on_tip rfl hwf (by decide) hnull peginChain_no_genesis h⟩

end Elements
