import Elements.Validation.Connect
import Elements.Coins.Refinement

/-!
# Connecting onto the chain tip

`CChainState::ConnectTip` of `validation.cpp`: the block is connected into a
fresh `CCoinsViewCache` over the coins tip, and the cache is flushed into the
tip when the connection succeeds; on failure the cache is dropped and the tip
is as it was.  The cache's first `GetBestBlock`, in the asserts of
`ConnectBlock`, stores the tip's best block in it; the model starts the cache
there.

The connection is the program `ConnectBlock` runs on the plain state
(`Validation.Connect`), run here on the stack.  Every chain that `ConnectBlock`
connects on the plain state a well-formed stack stands for is connected alike
by `ConnectTip`, and after each block the stack stands for the plain state
after it.  What is proved of the plain run thus holds of the tip.
-/

namespace Elements

open CCoinsView ExceptFold

variable (ctx : ConnectParams) (g : Globals) (H : Hashes)

/-- `ConnectTip` from the point where the block has been read: connect it into
a cache over the tip, then `view.Flush()`, whose failure is an assertion. -/
def ConnectTip (tip : CCoinsView) (pindex : CBlockIndex) (block : CBlock) :
    Except ValidationFailure CCoinsView := do
  -- `CCoinsViewCache view(&CoinsTip())`, after its first `GetBestBlock`
  let view : CCoinsView := .cache ⟨∅, tip.GetBestBlock⟩ tip
  let hash ← ConnectBlockAsserts g H block pindex view.GetBestBlock
  let connected ← (ConnectBlockCalls ctx g H block pindex hash []).run (CCoinsView.Serve g) view
  match connected.2 with
  | .cache layer base =>
    -- `view.SetBestBlock(pindex->GetBlockHash())`, then `view.Flush()`
    let flushed ← ({ layer with hashBlock := pindex.phashBlock }.Flush
      (BatchWrite g base layer.cacheCoins pindex.phashBlock)).mapError CoinsFailure.toValidation
    pure flushed.2
  | .db _ => throw .assertion

def ConnectTips (tip : CCoinsView) : List (CBlockIndex × CBlock) ->
    Except ValidationFailure CCoinsView
  | [] => pure tip
  | (pindex, block) :: rest => do
    let tip' ← ConnectTip ctx g H tip pindex block
    ConnectTips tip' rest

variable {ctx g H}

/-- A fresh cache whose best block is its base's stands at its base's block. -/
@[simp] theorem GetBestBlock_fresh (tip : CCoinsView) :
    (cache ⟨∅, tip.GetBestBlock⟩ tip).GetBestBlock = tip.GetBestBlock := by
  simp only [GetBestBlock, ite_self]

theorem BatchWrite_GetBestBlock {v v' : CCoinsView} {mapCoins : CCoinsMap} {hashBlock : Uint256}
    (hnull : hashBlock.IsNull = false) (h : BatchWrite g v mapCoins hashBlock = Except.ok v') :
    v'.GetBestBlock = hashBlock := by
  cases v with
  | db view =>
    obtain ⟨view', hwrite, rfl⟩ := map_eq_ok.mp h
    simp only [CCoinsViewDB.BatchWrite, hnull, Bool.false_eq_true, if_false,
      Except.ok.injEq] at hwrite
    rw [← hwrite]
    rfl
  | cache layer base =>
    obtain ⟨layer', hwrite, rfl⟩ := map_eq_ok.mp h
    obtain ⟨cacheCoins, -, rfl⟩ := map_eq_ok.mp hwrite
    simp [GetBestBlock, hnull]

/-- A block `ConnectBlock` connects on the plain state a well-formed stack
stands for is connected by `ConnectTip` on the stack, which then stands for the
plain state after the block, at the block. -/
theorem ConnectTip_simulates (hmode : g.g_con_elementsmode = true) {tip : CCoinsView}
    {pindex : CBlockIndex} {block : CBlock} {result : CBlockUndo × ChainView × List CCoinsMapKey}
    (hwf : tip.WF g) (hbest : tip.GetBestBlock.IsNull = false)
    (hnull : pindex.phashBlock.IsNull = false)
    (h : ConnectBlock ctx g H block pindex ⟨tip.state g, tip.GetBestBlock⟩ [] = Except.ok result) :
    ∃ tip', ConnectTip ctx g H tip pindex block = Except.ok tip' ∧
      tip.Becomes g result.2.1.coins tip' ∧ tip'.GetBestBlock = result.2.1.bestBlock := by
  obtain ⟨hash, ⟨undo, claims⟩, coins, hasserts, hcalls, rfl⟩ := ConnectBlock_eq_ok h
  have hview : (cache ⟨∅, tip.GetBestBlock⟩ tip).WF g := ⟨hwf, hbest, LayerOK.empty _⟩
  have hstate : (cache ⟨∅, tip.GetBestBlock⟩ tip).state g = tip.state g := by simp
  rw [← hstate] at hcalls
  obtain ⟨v', hrun, hbecomes⟩ := run_Serve_simulates hmode hview (by simp) hcalls
  -- the run leaves a cache, whose base keeps the tip's depth
  cases v' with
  | db view => exact absurd hbecomes.depth_eq (by simp [depth])
  | cache layer base =>
    obtain ⟨⟨hwfb, -, hok⟩, hcoins, hdepth⟩ := hbecomes
    obtain ⟨base', hwrite, hbase⟩ := BatchWrite_spec hnull hwfb hok
    refine ⟨base', ?_, ⟨hbase.wf, ?_, ?_⟩, BatchWrite_GetBestBlock hnull hwrite⟩
    · simp [ConnectTip, hasserts, hrun, CCoinsViewCache.Flush, hwrite, Except.map]
    · rw [hbase.state_eq, ← hcoins, state_cache]
    · simpa [hbase.depth_eq] using hdepth

/-- Every chain `ConnectBlock` connects on the plain state a well-formed stack
stands for is connected alike onto the stack, which ends standing for the
plain state the chain ends in. -/
theorem ConnectTips_simulates (hmode : g.g_con_elementsmode = true) :
    ∀ {chain : List (CBlockIndex × CBlock)} {tip : CCoinsView} {view' : ChainView},
      tip.WF g -> tip.GetBestBlock.IsNull = false ->
      (∀ entry ∈ chain, entry.1.phashBlock.IsNull = false) ->
      ConnectBlocks ctx g H ⟨tip.state g, tip.GetBestBlock⟩ chain = Except.ok view' ->
      ∃ tip', ConnectTips ctx g H tip chain = Except.ok tip' ∧ tip.Becomes g view'.coins tip' ∧
        tip'.GetBestBlock = view'.bestBlock
  | [], tip, view', hwf, _, _, h => by
    simp only [ConnectBlocks, pure_eq_ok] at h
    subst h
    exact ⟨tip, rfl, Becomes.refl hwf, rfl⟩
  | (pindex, block) :: rest, tip, view', hwf, hbest, hnull, h => by
    simp only [ConnectBlocks, bind_eq_ok] at h
    obtain ⟨result, hblock, hrest⟩ := h
    have hnull₁ := hnull _ List.mem_cons_self
    obtain ⟨tip₁, htip, hbecomes, hbest₁⟩ := ConnectTip_simulates hmode hwf hbest hnull₁ hblock
    have hat : result.2.1.bestBlock = pindex.phashBlock := by
      obtain ⟨-, -, -, -, -, rfl⟩ := ConnectBlock_eq_ok hblock
      rfl
    have hview : result.2.1 = ⟨tip₁.state g, tip₁.GetBestBlock⟩ := by
      rw [hbecomes.state_eq, hbest₁]
    rw [hview] at hrest
    have hbest₁' : tip₁.GetBestBlock.IsNull = false := by rw [hbest₁, hat]; exact hnull₁
    obtain ⟨tip', htips, hbecomes', hbest'⟩ := ConnectTips_simulates hmode hbecomes.wf hbest₁'
      (fun entry hentry => hnull entry (List.mem_cons_of_mem _ hentry)) hrest
    exact ⟨tip', by simp [ConnectTips, htip, htips], hbecomes.trans hbecomes', hbest'⟩

end Elements
