import Elements.Coins.Layer

/-!
# A stack of coins caches refines one plain state

Calls made on the top layer, with `Flush` and `Uncache` on any layer, answer
what the reference `CoinsState.Run` answers, never fail, and leave a
well-formed stack that stands for the reference's final state.  The relation
between the stack and the plain state is `CCoinsView.Becomes`; `Apply_spec` is
the step of the simulation and `cache_stack_refines_reference` the run.

A call that writes to a lower layer is outside this: the layers above it keep
the copies they made before, so a read through the top answers from a stale
copy, and a coin added fresh on two layers makes the flush of the upper one
fail.
-/

namespace Elements

open Codec CCoinsCacheEntry CCoinsView

variable {g : Globals}

namespace CCoinsView

/-!
## The calls a layer makes on its base
-/

theorem GetCoin_spec (o : COutPoint) : ∀ {v : CCoinsView}, v.WF g -> v.GetCoinOK g o (GetCoin g v o)
  | db _, h => ⟨rfl, Becomes.refl h⟩
  | cache layer base, h => by
    obtain ⟨layer', base', hget, hbecomes⟩ :=
      CCoinsViewCache.GetCoin_spec h (GetCoin_spec o h.1)
    simp only [GetCoin, hget]
    exact ⟨rfl, hbecomes⟩

theorem IsPeginSpent_spec {key : CCoinsMapKey} (hkey : ValidPeginKey key = true) :
    ∀ {v : CCoinsView}, v.WF g -> v.IsPeginSpentOK g key (IsPeginSpent g v key)
  | db _, h => ⟨_, rfl, Becomes.refl h⟩
  | cache layer base, h => by
    obtain ⟨layer', base', hspent, hbecomes⟩ :=
      CCoinsViewCache.IsPeginSpent_spec h hkey (IsPeginSpent_spec hkey h.1)
    exact ⟨cache layer' base', by simp [IsPeginSpent, hspent, Except.map], hbecomes⟩

theorem BatchWrite_spec {mapCoins : CCoinsMap} {hashBlock : Uint256} (hnull : hashBlock.IsNull = false) :
    ∀ {v : CCoinsView}, v.WF g -> LayerOK g mapCoins (v.state g) ->
      v.BatchWriteOK g mapCoins (BatchWrite g v mapCoins hashBlock)
  | db view, h, hmap => by
    obtain ⟨view', hwrite, hbecomes⟩ := CCoinsViewDB.BatchWrite_spec h hnull hmap
    exact ⟨db view', by simp [BatchWrite, hwrite, Except.map], hbecomes⟩
  | cache layer base, h, hmap => by
    obtain ⟨layer', hwrite, hbecomes⟩ := CCoinsViewCache.BatchWrite_spec h hnull hmap
    exact ⟨cache layer' base, by simp [BatchWrite, hwrite, Except.map], hbecomes⟩

/-!
## One call
-/

theorem Becomes.trans {v v1 v2 : CCoinsView} {s1 s2 : CoinsState} (h1 : v.Becomes g s1 v1)
    (h2 : v1.Becomes g s2 v2) : v.Becomes g s2 v2 :=
  ⟨h2.wf, h2.state_eq, h2.depth_eq.trans h1.depth_eq⟩

theorem ApplyHere_spec {layer : CCoinsViewCache} {base : CCoinsView} {op : CoinsOp}
    {answer : CoinsAnswer} {s' : CoinsState} (hmode : g.g_con_elementsmode = true)
    (hwf : (cache layer base).WF g)
    (hstep : CoinsState.Step g ((cache layer base).state g) op = some (answer, s')) :
    ∃ v', ApplyHere g op layer base = Except.ok (answer, v') ∧ (cache layer base).Becomes g s' v' := by
  cases op with
  | AddCoin o coin possible_overwrite =>
    obtain ⟨rfl, layer', hadd, hbecomes⟩ := CCoinsViewCache.AddCoin_spec hwf hstep
    exact ⟨cache layer' base, by simp [ApplyHere, hadd, Except.map], hbecomes⟩
  | SpendCoin o =>
    simp only [CoinsState.Step, Option.some.injEq, Prod.mk.injEq] at hstep
    obtain ⟨rfl, rfl⟩ := hstep
    obtain ⟨moved, layer', base', hspend, hbecomes⟩ :=
      CCoinsViewCache.SpendCoin_spec hwf (GetCoin_spec o hwf.1)
    exact ⟨cache layer' base', by simp [ApplyHere, hspend], hbecomes⟩
  | SetPeginSpent key fSpent =>
    cases hkey : ValidPeginKey key
    case false => simp [CoinsState.Step, hkey] at hstep
    simp only [CoinsState.Step, hkey, if_true, Option.some.injEq, Prod.mk.injEq] at hstep
    obtain ⟨rfl, rfl⟩ := hstep
    obtain ⟨layer', base', hset, hbecomes⟩ :=
      CCoinsViewCache.SetPeginSpent_spec hwf hkey (IsPeginSpent_spec hkey hwf.1)
    exact ⟨cache layer' base', by simp [ApplyHere, hset, Except.map], hbecomes⟩
  | IsPeginSpent key =>
    cases hkey : ValidPeginKey key
    case false => simp [CoinsState.Step, hkey] at hstep
    simp only [CoinsState.Step, hkey, if_true, Option.some.injEq, Prod.mk.injEq] at hstep
    obtain ⟨rfl, rfl⟩ := hstep
    obtain ⟨layer', base', hspent, hbecomes⟩ :=
      CCoinsViewCache.IsPeginSpent_spec hwf hkey (IsPeginSpent_spec hkey hwf.1)
    exact ⟨cache layer' base', by simp [ApplyHere, hspent, Except.map], hbecomes⟩
  | AccessCoin o =>
    simp only [CoinsState.Step, Option.some.injEq, Prod.mk.injEq] at hstep
    obtain ⟨rfl, rfl⟩ := hstep
    obtain ⟨layer', base', haccess, hbecomes⟩ :=
      CCoinsViewCache.AccessCoin_spec hmode hwf (GetCoin_spec o hwf.1)
    exact ⟨cache layer' base', by simp [ApplyHere, haccess], hbecomes⟩
  | HaveCoin o =>
    simp only [CoinsState.Step, Option.some.injEq, Prod.mk.injEq] at hstep
    obtain ⟨rfl, rfl⟩ := hstep
    obtain ⟨layer', base', hhave, hbecomes⟩ :=
      CCoinsViewCache.HaveCoin_spec hwf (GetCoin_spec o hwf.1)
    exact ⟨cache layer' base', by simp [ApplyHere, hhave], hbecomes⟩
  | Uncache o =>
    simp only [CoinsState.Step, Option.some.injEq, Prod.mk.injEq] at hstep
    obtain ⟨rfl, rfl⟩ := hstep
    exact ⟨cache (layer.Uncache o) base, rfl, CCoinsViewCache.Uncache_spec hwf⟩
  | Flush =>
    simp only [CoinsState.Step, Option.some.injEq, Prod.mk.injEq] at hstep
    obtain ⟨rfl, rfl⟩ := hstep
    obtain ⟨layer', base', hflush, hbecomes⟩ :=
      CCoinsViewCache.Flush_spec hwf (BatchWrite_spec hwf.2.1 hwf.1 hwf.2.2)
    exact ⟨cache layer' base', by simp [ApplyHere, hflush, Except.map], hbecomes⟩

theorem Step_flushOrUncache {op : CoinsOp} (hop : op.IsFlushOrUncache = true) (s : CoinsState) :
    CoinsState.Step g s op = some (.none, s) := by
  cases op with
  | Uncache _ => rfl
  | Flush => rfl
  | _ => simp [CoinsOp.IsFlushOrUncache] at hop

theorem Apply_flushOrUncache (hmode : g.g_con_elementsmode = true) {op : CoinsOp}
    (hop : op.IsFlushOrUncache = true) :
    ∀ (level : Nat) {v : CCoinsView}, v.WF g -> level < v.depth ->
      ∃ v', Apply g level op v = some (Except.ok (.none, v')) ∧ v.Becomes g (v.state g) v'
  | _, db _, _, hlt => absurd hlt (by simp [depth])
  | 0, cache layer base, h, _ => by
    obtain ⟨v', happ, hbecomes⟩ := ApplyHere_spec hmode h (Step_flushOrUncache hop _)
    exact ⟨v', by simp [Apply, happ], hbecomes⟩
  | level + 1, cache layer base, h, hlt => by
    obtain ⟨base', happ, hbecomes⟩ := Apply_flushOrUncache hmode hop level h.1 (by simpa using hlt)
    exact ⟨cache layer base', by simp [Apply, happ, Except.map],
      hbecomes.cache_of_base h.2.1 h.2.2 rfl⟩

/-- The step of the simulation: a call on the top layer, or a flush or an
eviction on any layer, answers as the reference does. -/
theorem Apply_spec {v : CCoinsView} {level : Nat} {op : CoinsOp} {answer : CoinsAnswer}
    {s' : CoinsState} (hmode : g.g_con_elementsmode = true) (hwf : v.WF g) (hlevel : level < v.depth)
    (hwhere : level = 0 ∨ op.IsFlushOrUncache = true)
    (hstep : CoinsState.Step g (v.state g) op = some (answer, s')) :
    ∃ v', Apply g level op v = some (Except.ok (answer, v')) ∧ v.Becomes g s' v' := by
  rcases hwhere with rfl | hop
  · cases v with
    | db _ => exact absurd hlevel (by simp [depth])
    | cache layer base =>
      obtain ⟨v', happ, hbecomes⟩ := ApplyHere_spec hmode hwf hstep
      exact ⟨v', by simp [Apply, happ], hbecomes⟩
  · rw [Step_flushOrUncache hop, Option.some.injEq, Prod.mk.injEq] at hstep
    obtain ⟨rfl, rfl⟩ := hstep
    exact Apply_flushOrUncache hmode hop level hwf hlevel

end CCoinsView

theorem CoinsState.Run_cons {s : CoinsState} {op : CoinsOp} {rest : List CoinsOp}
    {answers : List CoinsAnswer} {s' : CoinsState}
    (h : CoinsState.Run g s (op :: rest) = some (answers, s')) :
    ∃ answer s1 answers', CoinsState.Step g s op = some (answer, s1) ∧
      CoinsState.Run g s1 rest = some (answers', s') ∧ answers = answer :: answers' := by
  simp only [CoinsState.Run] at h
  split at h
  · cases h
  next answer s1 hstep =>
    obtain ⟨⟨answers', s''⟩, hrest, heq⟩ := Option.map_eq_some_iff.mp h
    simp only [Prod.mk.injEq] at heq
    obtain ⟨rfl, rfl⟩ := heq
    exact ⟨answer, s1, answers', hstep, hrest, rfl⟩

/-!
## Runs
-/

/-- In Elements mode the layered cache refines the plain state: calls on the
top layer, with flushes and evictions on any layer, that keep the callers'
contracts answer what the reference answers, never fail (in particular no
`BatchWrite` finds `FRESH` misapplied), and leave a well-formed stack standing
for the reference's final state. -/
theorem cache_stack_refines_reference (hmode : g.g_con_elementsmode = true) :
    ∀ {calls : List (Nat × CoinsOp)} {v : CCoinsView} {answers : List CoinsAnswer}
      {s' : CoinsState},
      v.WF g ->
      (∀ call ∈ calls, call.1 < v.depth ∧ (call.1 = 0 ∨ call.2.IsFlushOrUncache = true)) ->
      CoinsState.Run g (v.state g) (calls.map Prod.snd) = some (answers, s') ->
      ∃ v', CCoinsView.Run g v calls = some (Except.ok (answers, v')) ∧ v.Becomes g s' v' := by
  intro calls
  induction calls with
  | nil =>
    intro v answers s' hwf _ href
    simp only [List.map_nil, CoinsState.Run, Option.some.injEq, Prod.mk.injEq] at href
    obtain ⟨rfl, rfl⟩ := href
    exact ⟨v, rfl, Becomes.refl hwf⟩
  | cons call rest ih =>
    obtain ⟨level, op⟩ := call
    intro v answers s' hwf hcalls href
    obtain ⟨answer, s1, answers', hstep, hrest, rfl⟩ := CoinsState.Run_cons href
    obtain ⟨hlevel, hwhere⟩ := hcalls _ List.mem_cons_self
    obtain ⟨v1, happ, hb1⟩ := Apply_spec hmode hwf hlevel hwhere hstep
    have hcalls1 : ∀ call ∈ rest, call.1 < v1.depth ∧ (call.1 = 0 ∨ call.2.IsFlushOrUncache = true) := by
      rw [hb1.depth_eq]
      exact fun c hc => hcalls c (List.mem_cons_of_mem _ hc)
    obtain ⟨v', hrun, hb'⟩ := ih hb1.wf hcalls1 (by rw [hb1.state_eq]; exact hrest)
    exact ⟨v', by simp [CCoinsView.Run, happ, hrun, Except.map], hb1.trans hb'⟩

/-!
## A run, and runs outside the refinement
-/

def exampleGlobals : Globals := ⟨false, false, true⟩

def exampleHash : Uint256 := ⟨List.replicate 31 0 ++ [7], by simp⟩

def exampleOutPoint : COutPoint := ⟨exampleHash, 0⟩

def exampleCoin : Coin := ⟨⟨⟨[1]⟩, ⟨[1]⟩, ⟨[]⟩, [0x51]⟩, false, 1⟩

def exampleClaim : CCoinsMapKey := (exampleHash, exampleOutPoint)

def exampleStack (coins : COutPoint -> Option Coin) : CCoinsView :=
  .cache ⟨∅, exampleHash⟩ (.cache ⟨∅, exampleHash⟩ (.db ⟨coins, fun _ => false, exampleHash⟩))

theorem exampleStack_WF : (exampleStack fun _ => none).WF exampleGlobals :=
  ⟨⟨⟨fun _ _ h => by simp at h, fun _ _ => rfl⟩, by decide, LayerOK.empty _⟩, by decide,
    LayerOK.empty _⟩

/-- Add a coin and spend a claim on the top, flush both layers, read both back,
spend the coin, flush and read it again. -/
def exampleCalls : List (Nat × CoinsOp) :=
  [(0, .AddCoin exampleOutPoint exampleCoin false), (0, .SetPeginSpent exampleClaim true),
    (0, .Flush), (1, .Flush), (0, .HaveCoin exampleOutPoint), (0, .IsPeginSpent exampleClaim),
    (0, .SpendCoin exampleOutPoint), (0, .Flush), (0, .HaveCoin exampleOutPoint)]

def exampleFinal : CoinsState :=
  ⟨Function.update (Function.update ((exampleStack fun _ => none).state exampleGlobals).coin
      exampleOutPoint (some exampleCoin)) exampleOutPoint none,
    Function.update ((exampleStack fun _ => none).state exampleGlobals).peginSpent exampleClaim true⟩

theorem cache_stack_refines_reference_exampleStack :
    exampleGlobals.g_con_elementsmode = true ∧ ∃ v', CCoinsView.Run exampleGlobals (exampleStack fun _ => none) exampleCalls =
        some (Except.ok ([.none, .none, .none, .none, .bool true, .bool true, .none, .none,
          .bool false], v')) ∧
      (exampleStack fun _ => none).Becomes exampleGlobals exampleFinal v' :=
  ⟨rfl, cache_stack_refines_reference rfl exampleStack_WF (by decide) rfl⟩

def exampleHeld (o : COutPoint) : Option Coin :=
  if o = exampleOutPoint then some exampleCoin else none

/-- A spend on the lower layer: the top layer keeps the copy it read. -/
def staleReadCalls : List (Nat × CoinsOp) :=
  [(0, .HaveCoin exampleOutPoint), (1, .SpendCoin exampleOutPoint), (0, .HaveCoin exampleOutPoint)]

/-- A coin added on both layers, on each where that layer does not have it. -/
def freshClashCalls : List (Nat × CoinsOp) :=
  [(0, .AddCoin exampleOutPoint exampleCoin false), (1, .AddCoin exampleOutPoint exampleCoin false),
    (0, .Flush)]

/-- Outside Elements mode a cleared coin keeps the dummy asset. -/
def compatGlobals : Globals := ⟨false, false, false⟩

/-- Read the coin into the top layer, spend it there and read it again. -/
def clearedReadCalls : List (Nat × CoinsOp) :=
  [(0, .HaveCoin exampleOutPoint), (0, .SpendCoin exampleOutPoint), (0, .AccessCoin exampleOutPoint)]

theorem cache_stack_diverges_outside_refinement :
    (CoinsState.Run exampleGlobals ((exampleStack exampleHeld).state exampleGlobals)
        (staleReadCalls.map Prod.snd)).map Prod.fst = some [.bool true, .none, .bool false] ∧
      (CCoinsView.Run exampleGlobals (exampleStack exampleHeld) staleReadCalls).map
          (Except.map Prod.fst) = some (Except.ok [.bool true, .none, .bool true]) ∧
      CoinsState.Run exampleGlobals ((exampleStack fun _ => none).state exampleGlobals)
          (freshClashCalls.map Prod.snd) = none ∧
      CCoinsView.Run exampleGlobals (exampleStack fun _ => none) freshClashCalls =
        some (Except.error (.logic_error freshMisapplied)) ∧
      (CoinsState.Run compatGlobals ((exampleStack exampleHeld).state compatGlobals)
          (clearedReadCalls.map Prod.snd)).map Prod.fst = some [.bool true, .none, .coin coinEmpty] ∧
      (CCoinsView.Run compatGlobals (exampleStack exampleHeld) clearedReadCalls).map
          (Except.map Prod.fst) = some (Except.ok [.bool true, .none, .coin (Coin.empty compatGlobals)]) ∧
      Coin.empty compatGlobals ≠ coinEmpty :=
  ⟨rfl, rfl, rfl, rfl, rfl, rfl, by decide⟩

end Elements
