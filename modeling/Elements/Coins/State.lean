import Elements.Coins
import Elements.Codec.Bits

/-!
# What a stack of coins views stands for

A view stands for a plain state: the unspent coin of each outpoint and, for
each peg-in claim key, whether the claim is spent.  The database stands for
what it stores; a cache layer stands for its base's state with its own entries
written over it.

`WF` is the invariant of the `DIRTY`, `FRESH` and `PEGIN` flags that lets a
layer be flushed into its base without changing what the stack stands for: an
entry that is not dirty agrees with the base, a fresh one covers a coin the
base does not have (for a claim: a claim the base has unspent), and the peg-in
flag is set exactly on the keys under a genesis hash.

`CoinsState.Run` is the reference the stack is compared with: the same calls on
the plain state, under the callers' contracts.
-/

namespace Elements

open Codec CCoinsCacheEntry

/-!
## Flags
-/

namespace CCoinsCacheEntry

@[simp] theorem DIRTY_and_FRESH : DIRTY &&& FRESH = 0 := by decide
@[simp] theorem DIRTY_and_PEGIN : DIRTY &&& PEGIN = 0 := by decide
@[simp] theorem FRESH_and_DIRTY : FRESH &&& DIRTY = 0 := by decide
@[simp] theorem FRESH_and_PEGIN : FRESH &&& PEGIN = 0 := by decide
@[simp] theorem PEGIN_and_DIRTY : PEGIN &&& DIRTY = 0 := by decide
@[simp] theorem PEGIN_and_FRESH : PEGIN &&& FRESH = 0 := by decide
@[simp] theorem DIRTY_bne_zero : (DIRTY != 0) = true := by decide
@[simp] theorem FRESH_bne_zero : (FRESH != 0) = true := by decide
@[simp] theorem PEGIN_bne_zero : (PEGIN != 0) = true := by decide

/-- `flags & DIRTY`. -/
def dirty (e : CCoinsCacheEntry) : Bool := e.flags &&& DIRTY != 0

/-- `flags & FRESH`. -/
def fresh (e : CCoinsCacheEntry) : Bool := e.flags &&& FRESH != 0

/-- `flags & PEGIN`. -/
def pegin (e : CCoinsCacheEntry) : Bool := e.flags &&& PEGIN != 0

-- not proved by `rfl`: a definitional rewrite would leave the instance of an
-- `if` on the flag stated for the unfolded condition
@[simp] theorem flags_and_DIRTY (e : CCoinsCacheEntry) : (e.flags &&& DIRTY != 0) = e.dirty := by
  simp only [dirty]
@[simp] theorem flags_and_FRESH (e : CCoinsCacheEntry) : (e.flags &&& FRESH != 0) = e.fresh := by
  simp only [fresh]
@[simp] theorem flags_and_PEGIN (e : CCoinsCacheEntry) : (e.flags &&& PEGIN != 0) = e.pegin := by
  simp only [pegin]

@[simp] theorem flags_and_DIRTY_beq_zero (e : CCoinsCacheEntry) :
    (e.flags &&& DIRTY == 0) = !e.dirty := by
  simp [dirty, bne]

@[simp] theorem dirty_mk (coin : Coin) (flags : UInt8) (peginSpent : Bool) :
    (CCoinsCacheEntry.mk coin flags peginSpent).dirty = (flags &&& DIRTY != 0) := rfl
@[simp] theorem fresh_mk (coin : Coin) (flags : UInt8) (peginSpent : Bool) :
    (CCoinsCacheEntry.mk coin flags peginSpent).fresh = (flags &&& FRESH != 0) := rfl
@[simp] theorem pegin_mk (coin : Coin) (flags : UInt8) (peginSpent : Bool) :
    (CCoinsCacheEntry.mk coin flags peginSpent).pegin = (flags &&& PEGIN != 0) := rfl

theorem flags_eq_zero {e : CCoinsCacheEntry} (h : e.flags = 0) : e.dirty = false ∧ e.pegin = false := by
  simp [dirty, pegin, h]

/-- The coin an entry stands for: none once it is spent. -/
def liveCoin (g : Globals) (e : CCoinsCacheEntry) : Option Coin :=
  if e.coin.IsSpent g then none else some e.coin

end CCoinsCacheEntry

/-!
## The plain state
-/

/-- What a view stands for: the unspent coins, and the spent peg-in claims. -/
@[ext]
structure CoinsState where
  coin : COutPoint -> Option Coin
  peginSpent : CCoinsMapKey -> Bool

/-- A state a view can stand for: no coin in it is spent, and no key of an
ordinary coin is a spent claim. -/
structure CoinsState.Sound (g : Globals) (s : CoinsState) : Prop where
  coin_unspent : ∀ outpoint coin, s.coin outpoint = some coin -> coin.IsSpent g = false
  native_unclaimed : ∀ key : CCoinsMapKey, key.1.IsNull = true -> s.peginSpent key = false

/-- What a slot of a cache answers for a coin: its entry's coin, or when empty
what lies below. -/
def slotCoin (g : Globals) : Option CCoinsCacheEntry -> Option Coin -> Option Coin
  | some e, _ => e.liveCoin g
  | none, below => below

/-- What a slot of a cache answers for a peg-in claim. -/
def slotClaim : Option CCoinsCacheEntry -> Bool -> Bool
  | some e, _ => e.peginSpent
  | none, below => below

/-- A map of entries written over the state `below`: coins are read under their
`native_key`, claims under their own key. -/
def overlay (g : Globals) (m : CCoinsMap) (below : CoinsState) : CoinsState where
  coin outpoint := slotCoin g (m.lookup (native_key outpoint)) (below.coin outpoint)
  peginSpent key := slotClaim (m.lookup key) (below.peginSpent key)

namespace CCoinsView

def state (g : Globals) : CCoinsView -> CoinsState
  | db view => ⟨view.coins, view.pegins⟩
  | cache layer base => overlay g layer.cacheCoins (base.state g)

end CCoinsView

/-!
## The flag invariant
-/

/-- The invariant of an entry at `key` of a layer whose base holds `coin` at the
key's outpoint and `claim` at the key. -/
structure EntryOK (g : Globals) (coin : Option Coin) (claim : Bool) (key : CCoinsMapKey)
    (e : CCoinsCacheEntry) : Prop where
  pegin_key : e.pegin = !key.1.IsNull
  spent_empty : e.coin.IsSpent g = true -> e.coin = Coin.empty g
  claim_empty : e.pegin = true -> e.coin = Coin.empty g
  native_claim : e.pegin = false -> e.peginSpent = false
  fresh_coin : e.fresh = true -> e.pegin = false -> coin = none
  fresh_claim : e.fresh = true -> e.pegin = true -> claim = false
  clean_coin : e.dirty = false -> e.pegin = false -> e.liveCoin g = coin
  clean_claim : e.dirty = false -> e.pegin = true -> e.peginSpent = claim

/-- Every entry of the map keeps the invariant over the state `below`. -/
def LayerOK (g : Globals) (m : CCoinsMap) (below : CoinsState) : Prop :=
  ∀ key e, m.lookup key = some e -> EntryOK g (below.coin key.2) (below.peginSpent key) key e

namespace CCoinsView

/-- A well-formed stack: the database stands for a sound state, and every layer
has a block hash and entries that keep the invariant over its base. -/
def WF (g : Globals) : CCoinsView -> Prop
  | db view => CoinsState.Sound g ⟨view.coins, view.pegins⟩
  | cache layer base => base.WF g ∧ layer.hashBlock.IsNull = false ∧
      LayerOK g layer.cacheCoins (base.state g)

end CCoinsView

/-!
## The reference
-/

/-- A key the peg-in calls accept: an outpoint under a genesis hash. -/
def ValidPeginKey (key : CCoinsMapKey) : Bool :=
  !key.2.hash.IsNull && !key.1.IsNull

namespace CoinsState

variable (g : Globals)

/-- A call on the plain state; `none` when the caller breaks the call's
contract: an `AddCoin` of a spent coin, or without `possible_overwrite` over a
coin that exists, or a peg-in call on a key that is not one. -/
def Step (s : CoinsState) : CoinsOp -> Option (CoinsAnswer × CoinsState)
  | .AddCoin outpoint coin possible_overwrite =>
    if coin.IsSpent g then none
    -- an unspendable output is never stored
    else if coin.out.scriptPubKey.IsUnspendable g then some (.none, s)
    else if !possible_overwrite && (s.coin outpoint).isSome then none
    else some (.none, { s with coin := Function.update s.coin outpoint (some coin) })
  | .SpendCoin outpoint => some (.none, { s with coin := Function.update s.coin outpoint none })
  | .SetPeginSpent key fSpent =>
    if ValidPeginKey key then
      some (.none, { s with peginSpent := Function.update s.peginSpent key fSpent })
    else none
  | .IsPeginSpent key => if ValidPeginKey key then some (.bool (s.peginSpent key), s) else none
  | .AccessCoin outpoint => some (.coin ((s.coin outpoint).getD coinEmpty), s)
  | .HaveCoin outpoint => some (.bool (s.coin outpoint).isSome, s)
  | .Uncache _ => some (.none, s)
  | .Flush => some (.none, s)

/-- A sequence of calls on the plain state, with their answers. -/
def Run (s : CoinsState) : List CoinsOp -> Option (List CoinsAnswer × CoinsState)
  | [] => some ([], s)
  | op :: rest =>
    match Step g s op with
    | none => none
    | some (answer, s') => (Run s' rest).map fun (answers, s'') => (answer :: answers, s'')

end CoinsState

/-- The calls that only move entries between layers, made on any layer. -/
def CoinsOp.IsFlushOrUncache : CoinsOp -> Bool
  | .Uncache _ => true
  | .Flush => true
  | _ => false

end Elements
