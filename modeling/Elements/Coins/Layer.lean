import Elements.Coins.State

/-!
# One cache layer keeps the invariant

Each method of `CCoinsViewCache`, given a base call that answers what the base
stands for, answers what the layer stands for, keeps the flag invariant and
moves what the layer stands for exactly as the reference call moves the plain
state.  The frame lemmas for `overlay` say that writing or erasing one entry
changes what the layer stands for at that entry's key only.
-/

namespace Elements

open Codec Codec.Bits CCoinsCacheEntry CCoinsView

variable {g : Globals}

/-!
## Keys and coins
-/

@[simp] theorem native_key_inj {o o' : COutPoint} : native_key o = native_key o' ↔ o = o' := by
  simp [native_key]

@[simp] theorem native_key_IsNull (o : COutPoint) : (native_key o).1.IsNull = true :=
  BaseBlob.zero_IsNull 32

@[simp] theorem native_key_snd (o : COutPoint) : (native_key o).2 = o := rfl

theorem native_key_of_IsNull {key : CCoinsMapKey} (h : key.1.IsNull = true) : native_key key.2 = key := by
  rw [native_key, ← BaseBlob.eq_zero_of_IsNull h]

@[simp] theorem Coin.empty_IsSpent : (Coin.empty g).IsSpent g = true := by
  cases g with
  | mk _ _ elementsmode => cases elementsmode <;> rfl

@[simp] theorem Coin.Clear_eq (coin : Coin) : coin.Clear g = Coin.empty g := rfl

@[simp] theorem CCoinsCacheEntry.empty_coin : (CCoinsCacheEntry.empty g).coin = Coin.empty g := rfl

@[simp] theorem CCoinsCacheEntry.empty_flags : (CCoinsCacheEntry.empty g).flags = 0 := rfl

@[simp] theorem CCoinsCacheEntry.empty_peginSpent : (CCoinsCacheEntry.empty g).peginSpent = false := rfl

@[simp] theorem CCoinsCacheEntry.empty_dirty : (CCoinsCacheEntry.empty g).dirty = false := by
  rw [CCoinsCacheEntry.dirty, CCoinsCacheEntry.empty_flags]
  decide

@[simp] theorem CCoinsCacheEntry.empty_fresh : (CCoinsCacheEntry.empty g).fresh = false := by
  rw [CCoinsCacheEntry.fresh, CCoinsCacheEntry.empty_flags]
  decide

@[simp] theorem CCoinsCacheEntry.empty_pegin : (CCoinsCacheEntry.empty g).pegin = false := by
  rw [CCoinsCacheEntry.pegin, CCoinsCacheEntry.empty_flags]
  decide

theorem liveCoin_eq (e : CCoinsCacheEntry) :
    e.liveCoin g = if e.coin.IsSpent g then none else some e.coin := rfl

theorem liveCoin_unspent {e : CCoinsCacheEntry} {coin : Coin} (h : e.liveCoin g = some coin) :
    coin.IsSpent g = false := by
  rw [liveCoin_eq] at h
  split at h
  · cases h
  next hunspent =>
    cases h
    simpa using hunspent

@[simp] theorem liveCoin_of_IsSpent {e : CCoinsCacheEntry} (h : e.coin.IsSpent g = true) :
    e.liveCoin g = none := by
  simp [liveCoin_eq, h]

@[simp] theorem slotCoin_some (e : CCoinsCacheEntry) (below : Option Coin) :
    slotCoin g (some e) below = e.liveCoin g := rfl

@[simp] theorem slotCoin_none (below : Option Coin) : slotCoin g none below = below := rfl

@[simp] theorem slotClaim_some (e : CCoinsCacheEntry) (below : Bool) :
    slotClaim (some e) below = e.peginSpent := rfl

@[simp] theorem slotClaim_none (below : Bool) : slotClaim none below = below := rfl

/-!
## What a layer stands for
-/

section Overlay

variable (m : CCoinsMap) (below : CoinsState)

theorem overlay_coin (o : COutPoint) :
    (overlay g m below).coin o = slotCoin g (m.lookup (native_key o)) (below.coin o) := rfl

theorem overlay_peginSpent (key : CCoinsMapKey) :
    (overlay g m below).peginSpent key = slotClaim (m.lookup key) (below.peginSpent key) := rfl

@[simp] theorem overlay_empty : overlay g ∅ below = below := by
  ext <;> simp [overlay_coin, overlay_peginSpent, AList.lookup_empty]

theorem overlay_insert_native (o : COutPoint) (e : CCoinsCacheEntry) :
    overlay g (m.insert (native_key o) e) below =
      { coin := Function.update (overlay g m below).coin o (e.liveCoin g)
        peginSpent := Function.update (overlay g m below).peginSpent (native_key o) e.peginSpent } := by
  ext : 1
  · funext o'
    by_cases h : o' = o
    · subst h
      simp [overlay_coin]
    · have hkey : native_key o' ≠ native_key o := by simpa using h
      simp [overlay_coin, AList.lookup_insert_ne hkey, h]
  · funext key
    by_cases h : key = native_key o
    · subst h
      simp [overlay_peginSpent]
    · simp [overlay_peginSpent, AList.lookup_insert_ne h, h]

theorem overlay_insert_claim {key : CCoinsMapKey} (hkey : key.1.IsNull = false)
    (e : CCoinsCacheEntry) :
    overlay g (m.insert key e) below =
      { overlay g m below with
        peginSpent := Function.update (overlay g m below).peginSpent key e.peginSpent } := by
  ext : 1
  · funext o'
    have hne : native_key o' ≠ key := by
      rintro rfl
      simp at hkey
    simp [overlay_coin, AList.lookup_insert_ne hne]
  · funext key'
    by_cases h : key' = key
    · subst h
      simp [overlay_peginSpent]
    · simp [overlay_peginSpent, AList.lookup_insert_ne h, h]

theorem overlay_erase_native (o : COutPoint) :
    overlay g (m.erase (native_key o)) below =
      { coin := Function.update (overlay g m below).coin o (below.coin o)
        peginSpent := Function.update (overlay g m below).peginSpent (native_key o)
          (below.peginSpent (native_key o)) } := by
  ext : 1
  · funext o'
    by_cases h : o' = o
    · subst h
      simp [overlay_coin, AList.lookup_erase]
    · have hkey : native_key o' ≠ native_key o := by simpa using h
      simp [overlay_coin, AList.lookup_erase_ne hkey, h]
  · funext key
    by_cases h : key = native_key o
    · subst h
      simp [overlay_peginSpent, AList.lookup_erase]
    · simp [overlay_peginSpent, AList.lookup_erase_ne h, h]

theorem overlay_insert_native_coin (hsound : (overlay g m below).Sound g) (o : COutPoint)
    {e : CCoinsCacheEntry} (hclaim : e.peginSpent = false) :
    overlay g (m.insert (native_key o) e) below =
      { overlay g m below with coin := Function.update (overlay g m below).coin o (e.liveCoin g) } := by
  rw [overlay_insert_native, hclaim, ← hsound.native_unclaimed _ (native_key_IsNull o),
    Function.update_eq_self]

theorem overlay_erase_native_coin (hsound : (overlay g m below).Sound g) (hbelow : below.Sound g)
    (o : COutPoint) :
    overlay g (m.erase (native_key o)) below =
      { overlay g m below with coin := Function.update (overlay g m below).coin o (below.coin o) } := by
  rw [overlay_erase_native, hbelow.native_unclaimed _ (native_key_IsNull o),
    ← hsound.native_unclaimed _ (native_key_IsNull o), Function.update_eq_self]

end Overlay

/-!
## The invariant
-/

/-- The invariant of an entry under a coin's key. -/
theorem EntryOK.native {coin : Option Coin} {claim : Bool} {key : CCoinsMapKey}
    {e : CCoinsCacheEntry} (hkey : key.1.IsNull = true) (hpegin : e.pegin = false)
    (hspent : e.coin.IsSpent g = true -> e.coin = Coin.empty g) (hclaim : e.peginSpent = false)
    (hfresh : e.fresh = true -> coin = none) (hclean : e.dirty = false -> e.liveCoin g = coin) :
    EntryOK g coin claim key e where
  pegin_key := by rw [hpegin, hkey]; rfl
  spent_empty := hspent
  claim_empty h := by simp [hpegin] at h
  native_claim _ := hclaim
  fresh_coin h _ := hfresh h
  fresh_claim _ h := by simp [hpegin] at h
  clean_coin h _ := hclean h
  clean_claim _ h := by simp [hpegin] at h

/-- The invariant of an entry under a claim's key. -/
theorem EntryOK.claim {coin : Option Coin} {claim : Bool} {key : CCoinsMapKey}
    {e : CCoinsCacheEntry} (hkey : key.1.IsNull = false) (hpegin : e.pegin = true)
    (hcoin : e.coin = Coin.empty g) (hfresh : e.fresh = true -> claim = false)
    (hclean : e.dirty = false -> e.peginSpent = claim) : EntryOK g coin claim key e where
  pegin_key := by rw [hpegin, hkey]; rfl
  spent_empty _ := hcoin
  claim_empty _ := hcoin
  native_claim h := by simp [hpegin] at h
  fresh_coin _ h := by simp [hpegin] at h
  fresh_claim h _ := hfresh h
  clean_coin _ h := by simp [hpegin] at h
  clean_claim h _ := hclean h

theorem EntryOK.pegin_of_native {coin : Option Coin} {claim : Bool} {key : CCoinsMapKey}
    {e : CCoinsCacheEntry} (he : EntryOK g coin claim key e) (hkey : key.1.IsNull = true) :
    e.pegin = false := by
  rw [he.pegin_key, hkey]; rfl

theorem EntryOK.pegin_of_claim {coin : Option Coin} {claim : Bool} {key : CCoinsMapKey}
    {e : CCoinsCacheEntry} (he : EntryOK g coin claim key e) (hkey : key.1.IsNull = false) :
    e.pegin = true := by
  rw [he.pegin_key, hkey]; rfl

theorem EntryOK.coin_congr {coin coin' : Option Coin} {claim : Bool} {key : CCoinsMapKey}
    {e : CCoinsCacheEntry} (he : EntryOK g coin claim key e)
    (hcoin : key.1.IsNull = true -> coin = coin') : EntryOK g coin' claim key e := by
  cases hkey : key.1.IsNull
  · exact EntryOK.claim hkey (he.pegin_of_claim hkey) (he.claim_empty (he.pegin_of_claim hkey))
      (fun h => he.fresh_claim h (he.pegin_of_claim hkey))
      (fun h => he.clean_claim h (he.pegin_of_claim hkey))
  · rw [← hcoin hkey]
    exact he

theorem LayerOK.insert {m : CCoinsMap} {below : CoinsState} (hok : LayerOK g m below)
    {key : CCoinsMapKey} {e : CCoinsCacheEntry}
    (he : EntryOK g (below.coin key.2) (below.peginSpent key) key e) :
    LayerOK g (m.insert key e) below := by
  intro key' e' hlookup
  by_cases h : key' = key
  · subst h
    rw [AList.lookup_insert] at hlookup
    cases hlookup
    exact he
  · rw [AList.lookup_insert_ne h] at hlookup
    exact hok key' e' hlookup

theorem LayerOK.erase {m : CCoinsMap} {below : CoinsState} (hok : LayerOK g m below)
    (key : CCoinsMapKey) : LayerOK g (m.erase key) below := by
  intro key' e' hlookup
  by_cases h : key' = key
  · subst h
    simp [AList.lookup_erase] at hlookup
  · rw [AList.lookup_erase_ne h] at hlookup
    exact hok key' e' hlookup

theorem LayerOK.empty (below : CoinsState) : LayerOK g ∅ below := by
  intro key e hlookup
  simp [AList.lookup_empty] at hlookup

theorem overlay_sound {m : CCoinsMap} {below : CoinsState} (hok : LayerOK g m below)
    (hsound : below.Sound g) : (overlay g m below).Sound g where
  coin_unspent o coin h := by
    rw [overlay_coin] at h
    cases hlookup : m.lookup (native_key o) with
    | none =>
      rw [hlookup, slotCoin_none] at h
      exact hsound.coin_unspent o coin h
    | some e =>
      rw [hlookup, slotCoin_some] at h
      exact liveCoin_unspent h
  native_unclaimed key hkey := by
    rw [overlay_peginSpent]
    cases hlookup : m.lookup key with
    | none => exact hsound.native_unclaimed key hkey
    | some e =>
      have he := hok key e hlookup
      exact he.native_claim (by rw [he.pegin_key, hkey]; rfl)

theorem CCoinsView.WF.sound : ∀ {v : CCoinsView}, v.WF g -> (v.state g).Sound g
  | db _, h => h
  | cache _ _, ⟨hbase, _, hok⟩ => overlay_sound hok hbase.sound

@[simp] theorem CCoinsView.WF_cache (layer : CCoinsViewCache) (base : CCoinsView) :
    (cache layer base).WF g ↔
      base.WF g ∧ layer.hashBlock.IsNull = false ∧ LayerOK g layer.cacheCoins (base.state g) :=
  Iff.rfl

@[simp] theorem CCoinsView.state_db (view : CCoinsViewDB) :
    (db view).state g = ⟨view.coins, view.pegins⟩ := rfl

@[simp] theorem CCoinsView.state_cache (layer : CCoinsViewCache) (base : CCoinsView) :
    (cache layer base).state g = overlay g layer.cacheCoins (base.state g) := rfl

@[simp] theorem CCoinsView.depth_cache (layer : CCoinsViewCache) (base : CCoinsView) :
    (cache layer base).depth = base.depth + 1 := rfl

/-!
## Calls that leave a well-formed stack
-/

/-- `v'` is what a call leaves of `v`: well formed, of the same depth, and
standing for `s`. -/
structure CCoinsView.Becomes (g : Globals) (v : CCoinsView) (s : CoinsState) (v' : CCoinsView) :
    Prop where
  wf : v'.WF g
  state_eq : v'.state g = s
  depth_eq : v'.depth = v.depth

theorem CCoinsView.Becomes.refl {v : CCoinsView} (h : v.WF g) : v.Becomes g (v.state g) v :=
  ⟨h, rfl, rfl⟩

theorem CCoinsView.Becomes.cache_of_base {layer layer' : CCoinsViewCache} {base base' : CCoinsView}
    {t s : CoinsState} (hbase : base.Becomes g t base') (hhash : layer'.hashBlock.IsNull = false)
    (hok : LayerOK g layer'.cacheCoins t) (hs : overlay g layer'.cacheCoins t = s) :
    (cache layer base).Becomes g s (cache layer' base') := by
  refine ⟨⟨hbase.wf, hhash, ?_⟩, ?_, ?_⟩
  · rw [hbase.state_eq]
    exact hok
  · rw [state_cache, hbase.state_eq, hs]
  · simp [hbase.depth_eq]

theorem CCoinsView.Becomes.relayer {v : CCoinsView} {layer1 layer2 : CCoinsViewCache}
    {base1 : CCoinsView} {s s' : CoinsState} (h : v.Becomes g s (cache layer1 base1))
    (hhash : layer2.hashBlock = layer1.hashBlock)
    (hok : LayerOK g layer2.cacheCoins (base1.state g))
    (hs : overlay g layer2.cacheCoins (base1.state g) = s') :
    v.Becomes g s' (cache layer2 base1) := by
  obtain ⟨⟨hwf, hnull, -⟩, -, hdepth⟩ := h
  exact ⟨⟨hwf, hhash ▸ hnull, hok⟩, hs, hdepth⟩

/-- What the base call `base->GetCoin(outpoint)` must give a layer: what the
base stands for, and a base that still stands for it. -/
def CCoinsView.GetCoinOK (g : Globals) (base : CCoinsView) (o : COutPoint)
    (r : Option Coin × CCoinsView) : Prop :=
  r.1 = (base.state g).coin o ∧ base.Becomes g (base.state g) r.2

/-- What the base call `base->IsPeginSpent(key)` must give a layer. -/
def CCoinsView.IsPeginSpentOK (g : Globals) (base : CCoinsView) (key : CCoinsMapKey)
    (r : Except CoinsFailure (Bool × CCoinsView)) : Prop :=
  ∃ base', r = Except.ok ((base.state g).peginSpent key, base') ∧
    base.Becomes g (base.state g) base'

/-- What the base call `base->BatchWrite(mapCoins, hashBlock)` must give a layer. -/
def CCoinsView.BatchWriteOK (g : Globals) (base : CCoinsView) (mapCoins : CCoinsMap)
    (r : Except CoinsFailure CCoinsView) : Prop :=
  ∃ base', r = Except.ok base' ∧ base.Becomes g (overlay g mapCoins (base.state g)) base'

/-!
## The methods
-/

section Methods

variable {self : CCoinsViewCache} {base : CCoinsView}

theorem coinEmpty_eq (hmode : g.g_con_elementsmode = true) : coinEmpty = Coin.empty g := by
  obtain ⟨_, _, elementsmode⟩ := g
  subst hmode
  rfl

theorem FetchCoin_spec {baseGetCoin : Option Coin × CCoinsView} {o : COutPoint}
    {entry : Option CCoinsCacheEntry} {self' : CCoinsViewCache} {base' : CCoinsView}
    (hwf : (cache self base).WF g) (hbase : base.GetCoinOK g o baseGetCoin)
    (h : self.FetchCoin g base baseGetCoin o = (entry, self', base')) :
    (cache self base).Becomes g ((cache self base).state g) (cache self' base') ∧
      self'.cacheCoins.lookup (native_key o) = entry ∧
      slotCoin g entry none = ((cache self base).state g).coin o := by
  obtain ⟨hwfb, hnull, hok⟩ := hwf
  obtain ⟨hget, hbecomes⟩ := hbase
  unfold CCoinsViewCache.FetchCoin at h
  cases hlookup : self.cacheCoins.lookup (native_key o) with
  | some e =>
    -- a hit leaves the layer and its base as they are
    simp only [hlookup, Prod.mk.injEq] at h
    obtain ⟨rfl, rfl, rfl⟩ := h
    exact ⟨Becomes.refl ⟨hwfb, hnull, hok⟩, hlookup, by simp [overlay_coin, hlookup]⟩
  | none =>
    obtain ⟨found, b'⟩ := baseGetCoin
    dsimp only at hget hbecomes
    cases found with
    | none =>
      simp only [hlookup, Prod.mk.injEq] at h
      obtain ⟨rfl, rfl, rfl⟩ := h
      exact ⟨hbecomes.cache_of_base hnull hok rfl, hlookup, by simp [overlay_coin, hlookup, hget]⟩
    | some tmp =>
      have hunspent : tmp.IsSpent g = false := hwfb.sound.coin_unspent o tmp hget.symm
      simp only [hlookup, hunspent, Prod.mk.injEq] at h
      obtain ⟨rfl, rfl, rfl⟩ := h
      have hcoin : (overlay g self.cacheCoins (base.state g)).coin o = some tmp := by
        rw [overlay_coin, hlookup, slotCoin_none, ← hget]
      have hentry : EntryOK g ((base.state g).coin o) ((base.state g).peginSpent (native_key o))
          (native_key o) ⟨tmp, 0, false⟩ :=
        EntryOK.native (native_key_IsNull o) (by simp) (by simp [hunspent]) rfl (by simp)
          (fun _ => by simp [liveCoin_eq, hunspent, hget])
      refine ⟨hbecomes.cache_of_base hnull (hok.insert hentry) ?_, by simp, by simp [hcoin, liveCoin_eq, hunspent]⟩
      rw [overlay_insert_native_coin _ _ (overlay_sound hok hwfb.sound) o rfl]
      simp [liveCoin_eq, hunspent, ← hcoin]

theorem CCoinsView.Becomes.entryOK {v : CCoinsView} {s : CoinsState} {self' : CCoinsViewCache}
    {base' : CCoinsView} {key : CCoinsMapKey} {e : CCoinsCacheEntry}
    (hbecomes : v.Becomes g s (cache self' base')) (hlookup : self'.cacheCoins.lookup key = some e) :
    EntryOK g ((base'.state g).coin key.2) ((base'.state g).peginSpent key) key e :=
  hbecomes.wf.2.2 key e hlookup

theorem CCoinsViewCache.GetCoin_spec {baseGetCoin : Option Coin × CCoinsView} {o : COutPoint}
    (hwf : (cache self base).WF g) (hbase : base.GetCoinOK g o baseGetCoin) :
    ∃ self' base', self.GetCoin g base baseGetCoin o = (((cache self base).state g).coin o, self', base') ∧
      (cache self base).Becomes g ((cache self base).state g) (cache self' base') := by
  rcases h : self.FetchCoin g base baseGetCoin o with ⟨entry, self', base'⟩
  obtain ⟨hbecomes, -, hslot⟩ := FetchCoin_spec hwf hbase h
  refine ⟨self', base', ?_, hbecomes⟩
  rw [← hslot]
  cases entry <;> simp [CCoinsViewCache.GetCoin, h, liveCoin_eq]

theorem CCoinsViewCache.AccessCoin_spec {baseGetCoin : Option Coin × CCoinsView} {o : COutPoint}
    (hmode : g.g_con_elementsmode = true) (hwf : (cache self base).WF g)
    (hbase : base.GetCoinOK g o baseGetCoin) :
    ∃ self' base', self.AccessCoin g base baseGetCoin o =
        ((((cache self base).state g).coin o).getD coinEmpty, self', base') ∧
      (cache self base).Becomes g ((cache self base).state g) (cache self' base') := by
  rcases h : self.FetchCoin g base baseGetCoin o with ⟨entry, self', base'⟩
  obtain ⟨hbecomes, hlookup, hslot⟩ := FetchCoin_spec hwf hbase h
  refine ⟨self', base', ?_, hbecomes⟩
  rw [← hslot]
  cases entry with
  | none => simp [CCoinsViewCache.AccessCoin, h]
  | some e =>
    have he := hbecomes.entryOK hlookup
    cases hspent : e.coin.IsSpent g
    · simp [CCoinsViewCache.AccessCoin, h, liveCoin_eq, hspent]
    · simp [CCoinsViewCache.AccessCoin, h, he.spent_empty hspent, coinEmpty_eq hmode]

theorem CCoinsViewCache.HaveCoin_spec {baseGetCoin : Option Coin × CCoinsView} {o : COutPoint}
    (hwf : (cache self base).WF g) (hbase : base.GetCoinOK g o baseGetCoin) :
    ∃ self' base', self.HaveCoin g base baseGetCoin o =
        ((((cache self base).state g).coin o).isSome, self', base') ∧
      (cache self base).Becomes g ((cache self base).state g) (cache self' base') := by
  rcases h : self.FetchCoin g base baseGetCoin o with ⟨entry, self', base'⟩
  obtain ⟨hbecomes, -, hslot⟩ := FetchCoin_spec hwf hbase h
  refine ⟨self', base', ?_, hbecomes⟩
  rw [← hslot]
  cases entry with
  | none => simp [CCoinsViewCache.HaveCoin, h]
  | some e => cases hspent : e.coin.IsSpent g <;> simp [CCoinsViewCache.HaveCoin, h, liveCoin_eq, hspent]

theorem native_getD_facts {m : CCoinsMap} {below : CoinsState} (hok : LayerOK g m below)
    (o : COutPoint) {it : CCoinsCacheEntry}
    (hit : (m.lookup (native_key o)).getD (CCoinsCacheEntry.empty g) = it) :
    it.pegin = false ∧ it.peginSpent = false ∧ (it.fresh = true -> below.coin o = none) ∧
      (it.dirty = false -> (overlay g m below).coin o = below.coin o) ∧
      ((overlay g m below).coin o = none -> it.coin.IsSpent g = true) := by
  cases hlookup : m.lookup (native_key o) with
  | none =>
    rw [hlookup] at hit
    subst hit
    refine ⟨by simp, rfl, by simp, fun _ => by simp [overlay_coin, hlookup], fun _ => by simp⟩
  | some e =>
    rw [hlookup, Option.getD_some] at hit
    subst hit
    have he := hok _ e hlookup
    have hpegin := he.pegin_of_native (native_key_IsNull o)
    refine ⟨hpegin, he.native_claim hpegin, fun hf => he.fresh_coin hf hpegin, fun hd => ?_, fun hnone => ?_⟩
    · rw [overlay_coin, hlookup, slotCoin_some]
      exact he.clean_coin hd hpegin
    · rw [overlay_coin, hlookup, slotCoin_some, liveCoin_eq] at hnone
      cases hspent : e.coin.IsSpent g
      · simp [hspent] at hnone
      · rfl

theorem CCoinsViewCache.AddCoin_spec {o : COutPoint} {coin : Coin} {possible_overwrite : Bool}
    {answer : CoinsAnswer} {s' : CoinsState} (hwf : (cache self base).WF g)
    (hstep : CoinsState.Step g ((cache self base).state g) (.AddCoin o coin possible_overwrite) =
      some (answer, s')) :
    answer = .none ∧ ∃ self', self.AddCoin g o coin possible_overwrite = Except.ok self' ∧
      (cache self base).Becomes g s' (cache self' base) := by
  obtain ⟨hwfb, hnull, hok⟩ := hwf
  have hsound := overlay_sound hok hwfb.sound
  simp only [CoinsState.Step, state_cache] at hstep
  unfold CCoinsViewCache.AddCoin
  cases hspent : coin.IsSpent g
  case true => simp [hspent] at hstep
  cases hunspendable : coin.out.scriptPubKey.IsUnspendable g
  case true =>
    -- an unspendable output is not stored
    simp only [hspent, hunspendable, if_true, Bool.false_eq_true, if_false, Option.some.injEq,
      Prod.mk.injEq] at hstep
    obtain ⟨rfl, rfl⟩ := hstep
    exact ⟨rfl, self, by simp, Becomes.refl ⟨hwfb, hnull, hok⟩⟩
  obtain ⟨hpegin, hclaim, hfresh, hclean, hspentIt⟩ := native_getD_facts hok o rfl
  -- the caller's contract: without `possible_overwrite` the coin is not there
  have hcontract : possible_overwrite = false ->
      (overlay g self.cacheCoins (base.state g)).coin o = none := by
    rintro rfl
    cases hsome : ((overlay g self.cacheCoins (base.state g)).coin o).isSome
    · simpa using hsome
    · simp [hspent, hunspendable, hsome] at hstep
  have hs' : s' = { overlay g self.cacheCoins (base.state g) with
      coin := Function.update (overlay g self.cacheCoins (base.state g)).coin o (some coin) } := by
    cases possible_overwrite
    · simp [hspent, hunspendable, hcontract rfl] at hstep
      exact hstep.2.symm
    · simp [hspent, hunspendable] at hstep
      exact hstep.2.symm
  have hanswer : answer = .none := by
    cases possible_overwrite
    · simp [hspent, hunspendable, hcontract rfl] at hstep
      exact hstep.1.symm
    · simp [hspent, hunspendable] at hstep
      exact hstep.1.symm
  set it := (self.cacheCoins.lookup (native_key o)).getD (CCoinsCacheEntry.empty g)
  -- the coin written is fresh when the layer had it spent and not dirty
  set u : CCoinsCacheEntry :=
    ⟨coin, it.flags ||| DIRTY ||| (if (!possible_overwrite && !it.dirty) then FRESH else 0), it.peginSpent⟩
  have hentry : EntryOK g ((base.state g).coin o) ((base.state g).peginSpent (native_key o))
      (native_key o) u := by
    refine EntryOK.native (native_key_IsNull o) (by simp [u, hpegin]) (by simp [u, hspent]) hclaim
      (fun hf => ?_) (by simp [u])
    cases hitf : it.fresh
    · cases possible_overwrite
      · have hd : it.dirty = false := by simpa [u, hitf] using hf
        rw [← hclean hd]
        exact hcontract rfl
      · simp [u, hitf] at hf
    · exact hfresh hitf
  refine ⟨hanswer, { self with cacheCoins := self.cacheCoins.insert (native_key o) u }, ?_,
    Becomes.cache_of_base (Becomes.refl hwfb) hnull (hok.insert hentry) ?_⟩
  · have hcond : (!possible_overwrite && !it.coin.IsSpent g) = false := by
      cases possible_overwrite
      · simp [hspentIt (hcontract rfl)]
      · rfl
    simp only [Bool.false_eq_true, if_false, hcond]
    simp [u, it]
  · dsimp only
    rw [overlay_insert_native_coin _ _ hsound o (show u.peginSpent = false from hclaim), hs']
    simp [u, liveCoin_eq, hspent]

theorem CCoinsViewCache.SpendCoin_spec {baseGetCoin : Option Coin × CCoinsView} {o : COutPoint}
    (hwf : (cache self base).WF g) (hbase : base.GetCoinOK g o baseGetCoin) :
    ∃ moved self' base', self.SpendCoin g base baseGetCoin o = (moved, self', base') ∧
      (cache self base).Becomes g
        { (cache self base).state g with
          coin := Function.update ((cache self base).state g).coin o none }
        (cache self' base') := by
  rcases h : self.FetchCoin g base baseGetCoin o with ⟨entry, self1, base1⟩
  obtain ⟨hbecomes, hlookup, hslot⟩ := FetchCoin_spec hwf hbase h
  have hstate : overlay g self1.cacheCoins (base1.state g) = (cache self base).state g :=
    hbecomes.state_eq
  have hok1 : LayerOK g self1.cacheCoins (base1.state g) := hbecomes.wf.2.2
  have hsound1 : (overlay g self1.cacheCoins (base1.state g)).Sound g := hbecomes.wf.sound
  cases entry with
  | none =>
    -- nothing to spend: the layer had no coin there
    refine ⟨none, self1, base1, by simp [CCoinsViewCache.SpendCoin, h], ?_⟩
    have hnone : ((cache self base).state g).coin o = none := by rw [← hslot]; rfl
    rw [← hnone, Function.update_eq_self]
    exact hbecomes
  | some e =>
    have he := hbecomes.entryOK hlookup
    have hpegin := he.pegin_of_native (native_key_IsNull o)
    cases hfresh : e.fresh
    · -- the spent coin stays as a dirty entry, to be written to the base
      have hentry : EntryOK g ((base1.state g).coin o) ((base1.state g).peginSpent (native_key o))
          (native_key o) ⟨Coin.empty g, e.flags ||| DIRTY, e.peginSpent⟩ :=
        EntryOK.native (native_key_IsNull o) (by simp [hpegin]) (fun _ => rfl)
          (he.native_claim hpegin) (by simp [hfresh]) (by simp)
      refine ⟨some e.coin, { self1 with cacheCoins := (self1.cacheCoins.insert (native_key o)
          ⟨Coin.empty g, e.flags ||| DIRTY, e.peginSpent⟩) }, base1,
        by simp [CCoinsViewCache.SpendCoin, h, hfresh], hbecomes.relayer rfl (hok1.insert hentry) ?_⟩
      dsimp only
      rw [overlay_insert_native_coin _ _ hsound1 o
        (show (⟨Coin.empty g, e.flags ||| DIRTY, e.peginSpent⟩ : CCoinsCacheEntry).peginSpent = false
          from he.native_claim hpegin), hstate]
      simp
    · -- a fresh coin never reached the base: dropping the entry removes it
      refine ⟨some e.coin, { self1 with cacheCoins := self1.cacheCoins.erase (native_key o) }, base1,
        by simp [CCoinsViewCache.SpendCoin, h, hfresh], hbecomes.relayer rfl (hok1.erase _) ?_⟩
      have hnone : (base1.state g).coin o = none := he.fresh_coin hfresh hpegin
      rw [overlay_erase_native_coin _ _ hsound1 hbecomes.wf.1.sound o, hstate, hnone]

theorem ValidPeginKey_iff {key : CCoinsMapKey} :
    ValidPeginKey key = true ↔ key.2.hash.IsNull = false ∧ key.1.IsNull = false := by
  simp [ValidPeginKey]

theorem CCoinsViewCache.IsPeginSpent_spec
    {baseIsPeginSpent : Except CoinsFailure (Bool × CCoinsView)} {key : CCoinsMapKey}
    (hwf : (cache self base).WF g) (hkey : ValidPeginKey key = true)
    (hbase : base.IsPeginSpentOK g key baseIsPeginSpent) :
    ∃ self' base', self.IsPeginSpent g base baseIsPeginSpent key =
        Except.ok (((cache self base).state g).peginSpent key, self', base') ∧
      (cache self base).Becomes g ((cache self base).state g) (cache self' base') := by
  obtain ⟨hwfb, hnull, hok⟩ := hwf
  obtain ⟨hhash, hgen⟩ := ValidPeginKey_iff.mp hkey
  cases hlookup : self.cacheCoins.lookup key with
  | some e =>
    exact ⟨self, base, by simp [CCoinsViewCache.IsPeginSpent, hhash, hgen, hlookup,
      overlay_peginSpent], Becomes.refl ⟨hwfb, hnull, hok⟩⟩
  | none =>
    -- the base's answer is cached, fresh when the claim is unspent there
    obtain ⟨base', rfl, hbecomes⟩ := hbase
    set b := (base.state g).peginSpent key
    have hentry : EntryOK g ((base.state g).coin key.2) b key
        ⟨Coin.empty g, PEGIN ||| (if !b then FRESH else 0), b⟩ :=
      EntryOK.claim hgen (by simp) rfl (by simp) (fun _ => rfl)
    have hclaim : (overlay g self.cacheCoins (base.state g)).peginSpent key = b := by
      rw [overlay_peginSpent, hlookup]; rfl
    refine ⟨{ self with cacheCoins := (self.cacheCoins.insert key
        ⟨Coin.empty g, PEGIN ||| (if !b then FRESH else 0), b⟩) }, base',
      by simp [CCoinsViewCache.IsPeginSpent, Except.map, hhash, hgen, hlookup, hclaim, b],
      hbecomes.cache_of_base hnull (hok.insert hentry) ?_⟩
    rw [overlay_insert_claim _ _ hgen]
    simp only [← hclaim, Function.update_eq_self, state_cache]

theorem CCoinsViewCache.SetPeginSpent_spec
    {baseIsPeginSpent : Except CoinsFailure (Bool × CCoinsView)} {key : CCoinsMapKey} {fSpent : Bool}
    (hwf : (cache self base).WF g) (hkey : ValidPeginKey key = true)
    (hbase : base.IsPeginSpentOK g key baseIsPeginSpent) :
    ∃ self' base', self.SetPeginSpent g base baseIsPeginSpent key fSpent = Except.ok (self', base') ∧
      (cache self base).Becomes g
        { (cache self base).state g with
          peginSpent := Function.update ((cache self base).state g).peginSpent key fSpent }
        (cache self' base') := by
  obtain ⟨hwfb, hnull, hok⟩ := hwf
  obtain ⟨hhash, hgen⟩ := ValidPeginKey_iff.mp hkey
  cases hlookup : self.cacheCoins.lookup key with
  | some it =>
    have he := hok key it hlookup
    have hpegin := he.pegin_of_claim hgen
    have hclaim : (overlay g self.cacheCoins (base.state g)).peginSpent key = it.peginSpent := by
      rw [overlay_peginSpent, hlookup]; rfl
    cases hsame : it.peginSpent == fSpent
    · -- the claim changes: the entry becomes dirty
      have hentry : EntryOK g ((base.state g).coin key.2) ((base.state g).peginSpent key) key
          ⟨it.coin, it.flags ||| PEGIN ||| DIRTY, fSpent⟩ :=
        EntryOK.claim hgen (by simp) (he.claim_empty hpegin)
          (fun hf => he.fresh_claim (by simpa using hf) hpegin) (by simp)
      refine ⟨{ self with cacheCoins := (self.cacheCoins.insert key
          ⟨it.coin, it.flags ||| PEGIN ||| DIRTY, fSpent⟩) }, base,
        by simp [CCoinsViewCache.SetPeginSpent, hhash, hgen, hlookup, hsame],
        Becomes.cache_of_base (Becomes.refl hwfb) hnull (hok.insert hentry) ?_⟩
      rw [overlay_insert_claim _ _ hgen]
      rfl
    · -- already in that state: nothing changes
      have heq : it.peginSpent = fSpent := by simpa using hsame
      refine ⟨self, base, by simp [CCoinsViewCache.SetPeginSpent, hhash, hgen, hlookup, hsame], ?_⟩
      have hupd : Function.update ((cache self base).state g).peginSpent key fSpent =
          ((cache self base).state g).peginSpent := by
        rw [← heq, state_cache, ← hclaim, Function.update_eq_self]
      rw [hupd]
      exact Becomes.refl ⟨hwfb, hnull, hok⟩
  | none =>
    obtain ⟨base', rfl, hbecomes⟩ := hbase
    set b := (base.state g).peginSpent key
    have hclaim : (overlay g self.cacheCoins (base.state g)).peginSpent key = b := by
      rw [overlay_peginSpent, hlookup]; rfl
    cases hsame : b == fSpent
    · -- a new dirty entry, fresh when the base has the claim unspent
      have hentry : EntryOK g ((base.state g).coin key.2) b key
          ⟨Coin.empty g, (if !b then FRESH else 0) ||| PEGIN ||| DIRTY, fSpent⟩ :=
        EntryOK.claim hgen (by simp) rfl (fun hf => by simpa using hf) (by simp)
      refine ⟨{ self with cacheCoins := (self.cacheCoins.insert key
          ⟨Coin.empty g, (if !b then FRESH else 0) ||| PEGIN ||| DIRTY, fSpent⟩) }, base',
        by simp [CCoinsViewCache.SetPeginSpent, Except.map, hhash, hgen, hlookup, hsame, b],
        hbecomes.cache_of_base hnull (hok.insert hentry) ?_⟩
      rw [overlay_insert_claim _ _ hgen]
      rfl
    · have heq : b = fSpent := by simpa using hsame
      refine ⟨self, base', by simp [CCoinsViewCache.SetPeginSpent, Except.map, hhash, hgen, hlookup, hsame, b],
        hbecomes.cache_of_base hnull hok ?_⟩
      rw [state_cache, ← heq, ← hclaim, Function.update_eq_self]

theorem CCoinsViewCache.Uncache_spec {o : COutPoint} (hwf : (cache self base).WF g) :
    (cache self base).Becomes g ((cache self base).state g) (cache (self.Uncache o) base) := by
  obtain ⟨hwfb, hnull, hok⟩ := hwf
  unfold CCoinsViewCache.Uncache
  cases hlookup : self.cacheCoins.lookup (native_key o) with
  | none => exact Becomes.refl ⟨hwfb, hnull, hok⟩
  | some e =>
    by_cases hzero : e.flags = 0
    · -- an entry without flags is a clean copy of the base's coin
      obtain ⟨hdirty, hpegin⟩ := flags_eq_zero hzero
      have hclean : e.liveCoin g = (base.state g).coin o :=
        (hok _ e hlookup).clean_coin hdirty hpegin
      have hcoin : (overlay g self.cacheCoins (base.state g)).coin o = (base.state g).coin o := by
        rw [overlay_coin, hlookup, slotCoin_some, hclean]
      simp only [hzero, beq_self_eq_true, if_true]
      refine Becomes.cache_of_base (Becomes.refl hwfb) hnull (hok.erase _) ?_
      rw [overlay_erase_native_coin _ _ (overlay_sound hok hwfb.sound) hwfb.sound o, ← hcoin,
        Function.update_eq_self]
      rfl
    · simp only [hzero, beq_iff_eq, if_false]
      exact Becomes.refl ⟨hwfb, hnull, hok⟩

theorem CCoinsViewCache.Flush_spec {baseBatchWrite : Except CoinsFailure CCoinsView}
    (hwf : (cache self base).WF g) (hbase : base.BatchWriteOK g self.cacheCoins baseBatchWrite) :
    ∃ self' base', self.Flush baseBatchWrite = Except.ok (self', base') ∧
      (cache self base).Becomes g ((cache self base).state g) (cache self' base') := by
  obtain ⟨-, hnull, -⟩ := hwf
  obtain ⟨base', rfl, hbecomes⟩ := hbase
  exact ⟨{ self with cacheCoins := ∅ }, base', rfl,
    hbecomes.cache_of_base hnull (LayerOK.empty _) (overlay_empty _)⟩

/-!
## Writing a child's entries into a layer
-/

section BatchWriteEntry

variable {coin : Option Coin} {claim : Bool} {key : CCoinsMapKey} {e : CCoinsCacheEntry}

theorem BatchWriteEntry_clean (hdirty : e.dirty = false) (parent : Option CCoinsCacheEntry) :
    CCoinsViewCache.BatchWriteEntry g e parent = Except.ok parent := by
  simp [CCoinsViewCache.BatchWriteEntry, hdirty]

theorem BatchWriteEntry_native (hkey : key.1.IsNull = true) (hclaim : claim = false)
    {parent : Option CCoinsCacheEntry}
    (hparent : ∀ us, parent = some us -> EntryOK g coin claim key us)
    (he : EntryOK g (slotCoin g parent coin) (slotClaim parent claim) key e) :
    ∃ r, CCoinsViewCache.BatchWriteEntry g e parent = Except.ok r ∧
      (∀ u, r = some u -> EntryOK g coin claim key u) ∧
      slotCoin g r coin = e.liveCoin g ∧ slotClaim r claim = e.peginSpent := by
  have hpegin := he.pegin_of_native hkey
  have heclaim := he.native_claim hpegin
  cases hdirty : e.dirty
  · -- an entry that is not dirty leaves the parent as it is
    refine ⟨parent, BatchWriteEntry_clean hdirty parent, hparent, (he.clean_coin hdirty hpegin).symm, ?_⟩
    cases parent with
    | none => simp [hclaim, heclaim]
    | some us =>
      have hus := hparent us rfl
      simp [hus.native_claim (hus.pegin_of_native hkey), heclaim]
  cases parent with
  | none =>
    simp only [CCoinsViewCache.BatchWriteEntry, flags_and_DIRTY_beq_zero, flags_and_PEGIN,
      flags_and_FRESH, hdirty, hpegin]
    simp only [Bool.not_true, Bool.false_eq_true, if_false, Bool.false_and, Bool.not_false,
      Bool.true_and, Bool.false_or, empty_peginSpent]
    split
    next hdrop =>
      -- a fresh entry of a spent coin is dropped: the grandparent never had the coin
      rw [Bool.and_eq_true] at hdrop
      have hcoin : coin = none := he.fresh_coin hdrop.1 hpegin
      refine ⟨none, rfl, by simp, ?_, by simp [hclaim, heclaim]⟩
      simp [hcoin, hdrop.2]
    next =>
      refine ⟨_, rfl, ?_, by simp [liveCoin_eq], by simp [heclaim]⟩
      rintro u ⟨⟩
      exact EntryOK.native hkey (by simp) he.spent_empty rfl
        (fun hf => he.fresh_coin (by simpa using hf) hpegin) (by simp)
  | some us =>
    have hus := hparent us rfl
    have huspegin := hus.pegin_of_native hkey
    simp only [CCoinsViewCache.BatchWriteEntry, flags_and_DIRTY_beq_zero, flags_and_PEGIN,
      flags_and_FRESH, hdirty, hpegin]
    simp only [Bool.not_true, Bool.false_eq_true, if_false, Bool.false_and, Bool.not_false,
      Bool.true_and, Bool.false_or]
    split
    next hbad =>
      -- FRESH is never misapplied: the entry a fresh child entry covers is spent
      exfalso
      rw [Bool.and_eq_true, Bool.not_eq_true'] at hbad
      have hnone : us.liveCoin g = none := he.fresh_coin hbad.1 hpegin
      simp [liveCoin_eq, hbad.2] at hnone
    split
    next hdrop =>
      -- the grandparent has no coin and the coin is spent: drop the parent's entry too
      rw [Bool.and_eq_true] at hdrop
      have hcoin : coin = none := hus.fresh_coin hdrop.1 huspegin
      refine ⟨none, rfl, by simp, ?_, by simp [hclaim, heclaim]⟩
      simp [hcoin, hdrop.2]
    next =>
      refine ⟨_, rfl, ?_, by simp [liveCoin_eq], by simp [hus.native_claim huspegin, heclaim]⟩
      rintro u ⟨⟩
      exact EntryOK.native hkey (by simp [huspegin]) he.spent_empty (hus.native_claim huspegin)
        (fun hf => hus.fresh_coin (by simpa using hf) huspegin) (by simp)

theorem BatchWriteEntry_claim (hkey : key.1.IsNull = false) {parent : Option CCoinsCacheEntry}
    (hparent : ∀ us, parent = some us -> EntryOK g coin claim key us)
    (he : EntryOK g (slotCoin g parent coin) (slotClaim parent claim) key e) :
    ∃ r, CCoinsViewCache.BatchWriteEntry g e parent = Except.ok r ∧
      (∀ u, r = some u -> EntryOK g coin claim key u) ∧ slotClaim r claim = e.peginSpent := by
  have hpegin := he.pegin_of_claim hkey
  cases hdirty : e.dirty
  · exact ⟨parent, BatchWriteEntry_clean hdirty parent, hparent, (he.clean_claim hdirty hpegin).symm⟩
  cases parent with
  | none =>
    simp only [CCoinsViewCache.BatchWriteEntry, flags_and_DIRTY_beq_zero, flags_and_PEGIN,
      flags_and_FRESH, hdirty, hpegin]
    simp only [Bool.not_true, Bool.false_eq_true, if_false, Bool.true_and, Bool.false_and,
      Bool.or_false, if_true, empty_coin]
    split
    next hdrop =>
      -- a fresh claim that is unspent again is dropped: the grandparent has it unspent
      rw [Bool.and_eq_true, Bool.not_eq_true'] at hdrop
      have hclaim : claim = false := he.fresh_claim hdrop.1 hpegin
      exact ⟨none, rfl, by simp, by simp [hclaim, hdrop.2]⟩
    next =>
      refine ⟨_, rfl, ?_, rfl⟩
      rintro u ⟨⟩
      exact EntryOK.claim hkey (by simp) rfl (fun hf => he.fresh_claim (by simpa using hf) hpegin)
        (by simp)
  | some us =>
    have hus := hparent us rfl
    have huspegin := hus.pegin_of_claim hkey
    have huscoin := hus.claim_empty huspegin
    simp only [CCoinsViewCache.BatchWriteEntry, flags_and_DIRTY_beq_zero, flags_and_PEGIN,
      flags_and_FRESH, hdirty, hpegin]
    simp only [Bool.not_true, Bool.false_eq_true, if_false, Bool.true_and, Bool.false_and,
      Bool.or_false, if_true, huscoin, Coin.empty_IsSpent, Bool.not_true, Bool.and_false]
    split
    next hdrop =>
      rw [Bool.and_eq_true, Bool.not_eq_true'] at hdrop
      have hclaim : claim = false := hus.fresh_claim hdrop.1 huspegin
      exact ⟨none, rfl, by simp, by simp [hclaim, hdrop.2]⟩
    next =>
      refine ⟨_, rfl, ?_, rfl⟩
      rintro u ⟨⟩
      exact EntryOK.claim hkey (by simp [huspegin]) rfl
        (fun hf => hus.fresh_claim (by simpa using hf) huspegin) (by simp)

theorem BatchWriteEntry_spec (hclaim : key.1.IsNull = true -> claim = false)
    {parent : Option CCoinsCacheEntry}
    (hparent : ∀ us, parent = some us -> EntryOK g coin claim key us)
    (he : EntryOK g (slotCoin g parent coin) (slotClaim parent claim) key e) :
    ∃ r, CCoinsViewCache.BatchWriteEntry g e parent = Except.ok r ∧
      (∀ u, r = some u -> EntryOK g coin claim key u) ∧
      (key.1.IsNull = true -> slotCoin g r coin = e.liveCoin g) ∧ slotClaim r claim = e.peginSpent := by
  cases hkey : key.1.IsNull
  · obtain ⟨r, hr, hok, hslot⟩ := BatchWriteEntry_claim hkey hparent he
    exact ⟨r, hr, hok, by simp, hslot⟩
  · obtain ⟨r, hr, hok, hcoin, hslot⟩ := BatchWriteEntry_native hkey (hclaim hkey) hparent he
    exact ⟨r, hr, hok, fun _ => hcoin, hslot⟩

end BatchWriteEntry

theorem CCoinsViewCache.BatchWrite_spec {mapCoins : CCoinsMap} {hashBlockIn : Uint256}
    (hwf : (cache self base).WF g) (hnullIn : hashBlockIn.IsNull = false)
    (hmap : LayerOK g mapCoins ((cache self base).state g)) :
    ∃ self', self.BatchWrite g mapCoins hashBlockIn = Except.ok self' ∧
      (cache self base).Becomes g (overlay g mapCoins ((cache self base).state g)) (cache self' base) := by
  obtain ⟨hwfb, -, hok⟩ := hwf
  have hsound := hwfb.sound
  have hstep : ∀ key e, mapCoins.lookup key = some e ->
      ∃ r, CCoinsViewCache.BatchWriteEntry g e (self.cacheCoins.lookup key) = Except.ok r ∧
        (∀ u, r = some u ->
          EntryOK g ((base.state g).coin key.2) ((base.state g).peginSpent key) key u) ∧
        (key.1.IsNull = true -> slotCoin g r ((base.state g).coin key.2) = e.liveCoin g) ∧
        slotClaim r ((base.state g).peginSpent key) = e.peginSpent := by
    intro key e hlookup
    refine BatchWriteEntry_spec (hsound.native_unclaimed key) (fun us hus => hok key us hus) ?_
    refine (hmap key e hlookup).coin_congr fun hkey => ?_
    rw [state_cache, overlay_coin, native_key_of_IsNull hkey]
  obtain ⟨m', hm', hhit, hmiss⟩ := @FinMapUpdate.updateM_ok CCoinsMapKey CCoinsCacheEntry
    CCoinsCacheEntry CoinsFailure _ (fun _ entry parent => CCoinsViewCache.BatchWriteEntry g entry parent)
    self.cacheCoins mapCoins.entries mapCoins.nodupKeys (fun u hu => by
      obtain ⟨r, hr, -⟩ := hstep u.1 u.2 (AList.mem_lookup_iff.mpr hu)
      exact ⟨r, hr⟩)
  refine ⟨⟨m', hashBlockIn⟩, by simp [CCoinsViewCache.BatchWrite, hm', Except.map],
    (Becomes.refl hwfb).cache_of_base hnullIn ?_ ?_⟩
  · intro key u hu
    cases hd : mapCoins.lookup key with
    | some e =>
      obtain ⟨r, hr, hrok, -, -⟩ := hstep key e hd
      rw [hhit key e r hd hr] at hu
      exact hrok u hu
    | none =>
      rw [hmiss key hd] at hu
      exact hok key u hu
  · ext : 1
    · funext o
      rw [overlay_coin, overlay_coin, state_cache, overlay_coin]
      cases hd : mapCoins.lookup (native_key o) with
      | some e =>
        obtain ⟨r, hr, -, hcoin, -⟩ := hstep _ e hd
        rw [hhit _ e r hd hr, slotCoin_some]
        exact hcoin (native_key_IsNull o)
      | none => rw [hmiss _ hd, slotCoin_none]
    · funext key
      rw [overlay_peginSpent, overlay_peginSpent, state_cache, overlay_peginSpent]
      cases hd : mapCoins.lookup key with
      | some e =>
        obtain ⟨r, hr, -, -, hclaim⟩ := hstep _ e hd
        rw [hhit _ e r hd hr, slotClaim_some]
        exact hclaim
      | none => rw [hmiss _ hd, slotClaim_none]

end Methods

/-!
## The database
-/

/-- What one entry of `BatchWrite` does to the database at a key: a coin's
entry writes the coin, a claim's entry the claim, when dirty. -/
def dbWrite (g : Globals) (e : CCoinsCacheEntry) (below : Option Coin × Bool) :
    Option Coin × Bool :=
  if e.dirty then (if e.pegin then (below.1, e.peginSpent) else (e.liveCoin g, below.2)) else below

/-- What the database holds at a key: the coin when the key is a coin's, and the claim. -/
def dbRead (db : CCoinsViewDB) (key : CCoinsMapKey) : Option Coin × Bool :=
  (if key.1.IsNull then db.coins key.2 else none, db.pegins key)

theorem dbRead_BatchWriteEntry {db : CCoinsViewDB} {key : CCoinsMapKey} {e : CCoinsCacheEntry}
    (hpegin : e.pegin = !key.1.IsNull) :
    dbRead (CCoinsViewDB.BatchWriteEntry g db ⟨key, e⟩) key = dbWrite g e (dbRead db key) ∧
      ∀ key', key' ≠ key ->
        dbRead (CCoinsViewDB.BatchWriteEntry g db ⟨key, e⟩) key' = dbRead db key' := by
  unfold CCoinsViewDB.BatchWriteEntry
  cases hdirty : e.dirty
  · simp [hdirty, dbWrite]
  cases hkey : key.1.IsNull
  · -- a claim's entry writes the claim only
    have hp : e.pegin = true := by rw [hpegin, hkey]; rfl
    refine ⟨by simp [hdirty, hp, dbWrite, dbRead, hkey], fun key' hne => ?_⟩
    simp [hdirty, hp, dbRead, Function.update_of_ne hne]
  · -- a coin's entry writes the coin only, which only its own key reads
    have hp : e.pegin = false := by rw [hpegin, hkey]; rfl
    refine ⟨by simp [hdirty, hp, dbWrite, dbRead, hkey, liveCoin_eq], fun key' hne => ?_⟩
    by_cases hkey' : key'.1.IsNull
    · have hout : key'.2 ≠ key.2 := by
        intro h
        apply hne
        rw [← native_key_of_IsNull hkey', ← native_key_of_IsNull hkey, h]
      simp [hdirty, hp, dbRead, hkey', Function.update_of_ne hout]
    · simp [hdirty, hp, dbRead, hkey']

theorem CCoinsViewDB.BatchWrite_spec {db : CCoinsViewDB} {mapCoins : CCoinsMap} {hashBlock : Uint256}
    (hwf : (CCoinsView.db db).WF g) (hnull : hashBlock.IsNull = false)
    (hmap : LayerOK g mapCoins ((CCoinsView.db db).state g)) :
    ∃ db', db.BatchWrite g mapCoins hashBlock = Except.ok db' ∧
      (CCoinsView.db db).Becomes g (overlay g mapCoins ((CCoinsView.db db).state g)) (CCoinsView.db db') := by
  have hfold := FinMapUpdate.foldl_read (CCoinsViewDB.BatchWriteEntry g) dbRead
    (fun _ e => dbWrite g e) (fun key e => e.pegin = !key.1.IsNull)
    (fun _ _ _ hp => dbRead_BatchWriteEntry hp) mapCoins.nodupKeys
    (fun u hu => (hmap u.1 u.2 (AList.mem_lookup_iff.mpr hu)).pegin_key) db
  set db' := mapCoins.entries.foldl (CCoinsViewDB.BatchWriteEntry g) db
  have hstate : (CCoinsView.db { db' with bestBlock := hashBlock }).state g =
      overlay g mapCoins ((CCoinsView.db db).state g) := by
    ext : 1
    · funext o
      have h := congrArg Prod.fst (hfold (native_key o))
      show db'.coins o = slotCoin g (mapCoins.lookup (native_key o)) (db.coins o)
      cases hd : mapCoins.lookup (native_key o) with
      | none =>
        have hd' : mapCoins.entries.dlookup (native_key o) = none := hd
        simpa [dbRead, hd'] using h
      | some e =>
        have hd' : mapCoins.entries.dlookup (native_key o) = some e := hd
        have he := hmap _ e hd
        have hpegin := he.pegin_of_native (native_key_IsNull o)
        simp only [dbRead, hd', native_key_IsNull, if_true, native_key_snd] at h
        rw [h, slotCoin_some]
        cases hdirty : e.dirty
        · simpa [dbWrite, hdirty] using (he.clean_coin hdirty hpegin).symm
        · simp [dbWrite, hdirty, hpegin]
    · funext key
      have h := congrArg Prod.snd (hfold key)
      show db'.pegins key = slotClaim (mapCoins.lookup key) (db.pegins key)
      cases hd : mapCoins.lookup key with
      | none =>
        have hd' : mapCoins.entries.dlookup key = none := hd
        simpa [dbRead, hd'] using h
      | some e =>
        have hd' : mapCoins.entries.dlookup key = some e := hd
        have he := hmap _ e hd
        simp only [dbRead, hd'] at h
        rw [h, slotClaim_some]
        cases hkey : key.1.IsNull
        · -- a claim's entry: written when dirty, equal to the database's otherwise
          have hpegin := he.pegin_of_claim hkey
          cases hdirty : e.dirty
          · simpa [dbWrite, hdirty] using (he.clean_claim hdirty hpegin).symm
          · simp [dbWrite, hdirty, hpegin]
        · -- a coin's key names no spent claim, here or in the entry
          have hpegin := he.pegin_of_native hkey
          have hunclaimed : db.pegins key = false := hwf.native_unclaimed key hkey
          cases hdirty : e.dirty <;> simp [dbWrite, hdirty, hpegin, hunclaimed, he.native_claim hpegin]
  refine ⟨{ db' with bestBlock := hashBlock }, by simp [CCoinsViewDB.BatchWrite, hnull, db'], ?_, hstate, rfl⟩
  show CoinsState.Sound g ((CCoinsView.db { db' with bestBlock := hashBlock }).state g)
  rw [hstate]
  exact overlay_sound hmap hwf

end Elements
