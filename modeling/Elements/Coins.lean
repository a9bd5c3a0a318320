import Elements.Primitives.Transaction
import Elements.Data.FinMapUpdate

/-!
# The UTXO set and its caches

`coins.h`, `coins.cpp`, and the coin database of `txdb.cpp`.

The database stores the unspent coins and the spent peg-in claims.  Above it
sit `CCoinsViewCache` layers, each holding a map of entries keyed by a genesis
hash and an outpoint: ordinary coins under a null genesis hash, peg-in claims
under the parent chain's genesis hash, with the flags `DIRTY`, `FRESH` and
`PEGIN`.  A layer answers from its own map and otherwise asks its base, caching
the answer; `Flush` writes the layer's dirty entries into the base with
`BatchWrite` and empties the layer.

A cache method that calls its base takes what the base call returns, together
with the base it leaves behind, as an argument: the functions on a whole stack,
at the end of the module, supply it.
-/

namespace Elements

open Codec

/-!
## Coins
-/

def OP_RETURN : UInt8 := 0x6a

def MAX_SCRIPT_SIZE : Nat := 10000

/-- `CScript::IsUnspendable`; in Elements mode an empty script is a fee output. -/
def CScript.IsUnspendable (g : Globals) (script : CScript) : Bool :=
  (!script.isEmpty && script.head? == some OP_RETURN) ||
    decide (MAX_SCRIPT_SIZE < script.length) || (g.g_con_elementsmode && script.isEmpty)

/-- `CTxOut::IsNull`; outside Elements mode the asset and the nonce are ignored. -/
def CTxOut.IsNull (g : Globals) (txout : CTxOut) : Bool :=
  if !g.g_con_elementsmode then txout.nValue.IsNull && txout.scriptPubKey.isEmpty
  else
    txout.nAsset.IsNull && txout.nValue.IsNull && txout.nNonce.IsNull &&
      txout.scriptPubKey.isEmpty

structure Coin where
  out : CTxOut
  fCoinBase : Bool
  nHeight : Nat
deriving DecidableEq, Repr

/-- `Coin()`: the output `CTxOut()` leaves, which carries the dummy asset
outside Elements mode. -/
def Coin.empty (g : Globals) : Coin := ⟨CTxOut.empty g, false, 0⟩

def Coin.Clear (g : Globals) (coin : Coin) : Coin :=
  { coin with out := CTxOut.empty g, fCoinBase := false, nHeight := 0 }

/-- `Coin::IsSpent`: a coin that never existed or was spent has a null output. -/
def Coin.IsSpent (g : Globals) (coin : Coin) : Bool :=
  coin.out.IsNull g

/-- `coinEmpty`, built by `generateEmptyCoin` at static initialization, before
`g_con_elementsmode` is set: a default coin whose value and asset commitments
are then cleared. -/
def coinEmpty : Coin :=
  let coin := Coin.empty ⟨false, false, false⟩
  { coin with out := { coin.out with nValue := ⟨[]⟩, nAsset := ⟨[]⟩ } }

/-!
## Cache entries
-/

/-- The key of a cache entry: a null hash for a coin, the parent chain's
genesis hash for a peg-in claim, and the outpoint. -/
abbrev CCoinsMapKey := Uint256 × COutPoint

/-- `native_key`: the key of an ordinary coin. -/
def native_key (outpoint : COutPoint) : CCoinsMapKey :=
  (BaseBlob.zero 32, outpoint)

structure CCoinsCacheEntry where
  coin : Coin
  flags : UInt8
  peginSpent : Bool
deriving DecidableEq, Repr

namespace CCoinsCacheEntry

/-- The entry may differ from the parent's version. -/
def DIRTY : UInt8 := 1

/-- The parent has no unspent version of the coin (for a peg-in claim: the
parent does not have it spent). -/
def FRESH : UInt8 := 2

/-- The entry is a peg-in claim; `peginSpent` is its state and the coin is
unused. -/
def PEGIN : UInt8 := 4

/-- `CCoinsCacheEntry()`: an empty coin and no flags.  The constructor leaves
`peginSpent` unset; every path that reads it sets it first. -/
def empty (g : Globals) : CCoinsCacheEntry := ⟨Coin.empty g, 0, false⟩

end CCoinsCacheEntry

open CCoinsCacheEntry

abbrev CCoinsMap := AList (fun _ : CCoinsMapKey => CCoinsCacheEntry)

/-- How a call fails: a failed `assert`, or a thrown `std::logic_error`. -/
inductive CoinsFailure where
  | assertion
  | logic_error (what : String)
deriving DecidableEq, Repr

def overwriteUnspent : String :=
  "Attempted to overwrite an unspent coin (when possible_overwrite is false)"

def freshMisapplied : String := "FRESH flag misapplied to coin that exists in parent cache"

/-!
## The database
-/

/-- `CCoinsViewDB`: the stored coins, the spent peg-in claims (`DB_PEGIN_FLAG`)
and the best block. -/
structure CCoinsViewDB where
  coins : COutPoint -> Option Coin
  pegins : CCoinsMapKey -> Bool
  bestBlock : Uint256

namespace CCoinsViewDB

def GetCoin (db : CCoinsViewDB) (outpoint : COutPoint) : Option Coin :=
  db.coins outpoint

def IsPeginSpent (db : CCoinsViewDB) (outpoint : CCoinsMapKey) : Bool :=
  db.pegins outpoint

/-- One entry of `BatchWrite`: a dirty peg-in entry stores or erases the spent
flag, another dirty entry writes or erases its coin. -/
def BatchWriteEntry (g : Globals) (db : CCoinsViewDB)
    (it : Σ _ : CCoinsMapKey, CCoinsCacheEntry) : CCoinsViewDB :=
  if it.2.flags &&& DIRTY != 0 then
    if it.2.flags &&& PEGIN != 0 then
      { db with pegins := Function.update db.pegins it.1 it.2.peginSpent }
    else
      { db with
        coins := Function.update db.coins it.1.2 (if it.2.coin.IsSpent g then none else some it.2.coin) }
  else db

def BatchWrite (g : Globals) (db : CCoinsViewDB) (mapCoins : CCoinsMap) (hashBlock : Uint256) :
    Except CoinsFailure CCoinsViewDB :=
  if hashBlock.IsNull then Except.error CoinsFailure.assertion
  else Except.ok { mapCoins.entries.foldl (BatchWriteEntry g) db with bestBlock := hashBlock }

end CCoinsViewDB

/-!
## A cache layer
-/

/-- The fields of a `CCoinsViewCache`; its base is the view below it. -/
structure CCoinsViewCache where
  cacheCoins : CCoinsMap
  hashBlock : Uint256

/-- A view: the database, or a cache layer over a view. -/
inductive CCoinsView where
  | db (view : CCoinsViewDB)
  | cache (layer : CCoinsViewCache) (base : CCoinsView)

namespace CCoinsViewCache

variable (g : Globals)

/-- `FetchCoin`: the entry of `outpoint` here, or else the coin the base has,
now cached.  `baseGetCoin` is what `base->GetCoin(outpoint)` returns, with the
base it leaves. -/
def FetchCoin (self : CCoinsViewCache) (base : CCoinsView)
    (baseGetCoin : Option Coin × CCoinsView) (outpoint : COutPoint) :
    Option CCoinsCacheEntry × CCoinsViewCache × CCoinsView :=
  match self.cacheCoins.lookup (native_key outpoint) with
  | some entry => (some entry, self, base)
  | none =>
    match baseGetCoin with
    | (none, base') => (none, self, base')
    | (some tmp, base') =>
      -- the parent only has an empty entry for a spent coin: ours can be fresh
      let entry := { CCoinsCacheEntry.empty g with
        coin := tmp, flags := if tmp.IsSpent g then FRESH else 0 }
      (some entry, { self with cacheCoins := self.cacheCoins.insert (native_key outpoint) entry },
        base')

def GetCoin (self : CCoinsViewCache) (base : CCoinsView)
    (baseGetCoin : Option Coin × CCoinsView) (outpoint : COutPoint) :
    Option Coin × CCoinsViewCache × CCoinsView :=
  match FetchCoin g self base baseGetCoin outpoint with
  | (some entry, self', base') => (if entry.coin.IsSpent g then none else some entry.coin, self', base')
  | (none, self', base') => (none, self', base')

def AccessCoin (self : CCoinsViewCache) (base : CCoinsView)
    (baseGetCoin : Option Coin × CCoinsView) (outpoint : COutPoint) :
    Coin × CCoinsViewCache × CCoinsView :=
  match FetchCoin g self base baseGetCoin outpoint with
  | (some entry, self', base') => (entry.coin, self', base')
  | (none, self', base') => (coinEmpty, self', base')

def HaveCoin (self : CCoinsViewCache) (base : CCoinsView)
    (baseGetCoin : Option Coin × CCoinsView) (outpoint : COutPoint) :
    Bool × CCoinsViewCache × CCoinsView :=
  match FetchCoin g self base baseGetCoin outpoint with
  | (some entry, self', base') => (!entry.coin.IsSpent g, self', base')
  | (none, self', base') => (false, self', base')

/-- `AddCoin`.  With `possible_overwrite` false the coin must not exist unspent
here; a coin that was absent, or spent without that being flushed, becomes
fresh. -/
def AddCoin (self : CCoinsViewCache) (outpoint : COutPoint) (coin : Coin)
    (possible_overwrite : Bool) : Except CoinsFailure CCoinsViewCache :=
  if coin.IsSpent g then Except.error CoinsFailure.assertion
  else if coin.out.scriptPubKey.IsUnspendable g then Except.ok self
  else
    let it := (self.cacheCoins.lookup (native_key outpoint)).getD (CCoinsCacheEntry.empty g)
    if !possible_overwrite && !it.coin.IsSpent g then
      Except.error (CoinsFailure.logic_error overwriteUnspent)
    else
      -- a spent coin that is still dirty here has not reached the parent
      let fresh := !possible_overwrite && it.flags &&& DIRTY == 0
      Except.ok { self with
        cacheCoins := self.cacheCoins.insert (native_key outpoint)
          { it with coin := coin, flags := it.flags ||| DIRTY ||| (if fresh then FRESH else 0) } }

/-- `SpendCoin`: the coin moved out, if there was an entry.  A fresh entry is
dropped, another one is cleared and marked dirty. -/
def SpendCoin (self : CCoinsViewCache) (base : CCoinsView)
    (baseGetCoin : Option Coin × CCoinsView) (outpoint : COutPoint) :
    Option Coin × CCoinsViewCache × CCoinsView :=
  match FetchCoin g self base baseGetCoin outpoint with
  | (none, self', base') => (none, self', base')
  | (some entry, self', base') =>
    if entry.flags &&& FRESH != 0 then
      (some entry.coin, { self' with cacheCoins := self'.cacheCoins.erase (native_key outpoint) },
        base')
    else
      (some entry.coin, { self' with
        cacheCoins := self'.cacheCoins.insert (native_key outpoint)
          { entry with coin := entry.coin.Clear g, flags := entry.flags ||| DIRTY } }, base')

/-- `IsPeginSpent`; `baseIsPeginSpent` is what `base->IsPeginSpent(outpoint)`
returns, with the base it leaves.  A claim the base has unspent is cached
fresh. -/
def IsPeginSpent (self : CCoinsViewCache) (base : CCoinsView)
    (baseIsPeginSpent : Except CoinsFailure (Bool × CCoinsView)) (outpoint : CCoinsMapKey) :
    Except CoinsFailure (Bool × CCoinsViewCache × CCoinsView) :=
  if outpoint.2.hash.IsNull || outpoint.1.IsNull then Except.error CoinsFailure.assertion
  else
    match self.cacheCoins.lookup outpoint with
    | some entry => Except.ok (entry.peginSpent, self, base)
    | none =>
      baseIsPeginSpent.map fun (peginSpent, base') =>
        let entry := { CCoinsCacheEntry.empty g with
          peginSpent := peginSpent, flags := PEGIN ||| (if !peginSpent then FRESH else 0) }
        (peginSpent, { self with cacheCoins := self.cacheCoins.insert outpoint entry }, base')

/-- `SetPeginSpent`; nothing changes when the claim is already in that state. -/
def SetPeginSpent (self : CCoinsViewCache) (base : CCoinsView)
    (baseIsPeginSpent : Except CoinsFailure (Bool × CCoinsView)) (outpoint : CCoinsMapKey)
    (fSpent : Bool) : Except CoinsFailure (CCoinsViewCache × CCoinsView) :=
  if outpoint.2.hash.IsNull || outpoint.1.IsNull then Except.error CoinsFailure.assertion
  else
    match self.cacheCoins.lookup outpoint with
    | some it =>
      if it.peginSpent == fSpent then Except.ok (self, base)
      else
        Except.ok ({ self with
          cacheCoins := self.cacheCoins.insert outpoint
            { it with peginSpent := fSpent, flags := it.flags ||| PEGIN ||| DIRTY } }, base)
    | none =>
      baseIsPeginSpent.map fun (hadSpent, base') =>
        if hadSpent == fSpent then (self, base')
        else
          let it := { CCoinsCacheEntry.empty g with flags := if !hadSpent then FRESH else 0 }
          ({ self with
            cacheCoins := self.cacheCoins.insert outpoint
              { it with peginSpent := fSpent, flags := it.flags ||| PEGIN ||| DIRTY } }, base')

/-- One entry of `BatchWrite`: what the parent holds at the child's key after
the child's entry is written over the parent's. -/
def BatchWriteEntry (entry : CCoinsCacheEntry) (parent : Option CCoinsCacheEntry) :
    Except CoinsFailure (Option CCoinsCacheEntry) :=
  -- entries that are not dirty are ignored
  if entry.flags &&& DIRTY == 0 then Except.ok parent
  else
    let fIsPegin := entry.flags &&& PEGIN != 0
    -- what an absent entry stands for: a spent coin, or an unspent claim
    let absent := (fIsPegin && !entry.peginSpent) || (!fIsPegin && entry.coin.IsSpent g)
    match parent with
    | none =>
      if entry.flags &&& FRESH != 0 && absent then Except.ok none
      else
        let created := if fIsPegin then
            { CCoinsCacheEntry.empty g with peginSpent := entry.peginSpent, flags := DIRTY ||| PEGIN }
          else { CCoinsCacheEntry.empty g with coin := entry.coin, flags := DIRTY }
        Except.ok (some { created with
          flags := created.flags ||| (if entry.flags &&& FRESH != 0 then FRESH else 0) })
    | some us =>
      if entry.flags &&& FRESH != 0 && !us.coin.IsSpent g then
        Except.error (CoinsFailure.logic_error freshMisapplied)
      -- the grandparent has no entry and the coin is gone: drop it here too
      else if us.flags &&& FRESH != 0 && absent then Except.ok none
      else if fIsPegin then
        Except.ok (some { us with peginSpent := entry.peginSpent, flags := us.flags ||| DIRTY })
      else Except.ok (some { us with coin := entry.coin, flags := us.flags ||| DIRTY })

def BatchWrite (self : CCoinsViewCache) (mapCoins : CCoinsMap) (hashBlockIn : Uint256) :
    Except CoinsFailure CCoinsViewCache :=
  (FinMapUpdate.updateM (fun _ entry parent => BatchWriteEntry g entry parent) self.cacheCoins
      mapCoins.entries).map fun cacheCoins => ⟨cacheCoins, hashBlockIn⟩

/-- `Flush`; `baseBatchWrite` is what `base->BatchWrite(cacheCoins, hashBlock)`
returns. -/
def Flush (self : CCoinsViewCache) (baseBatchWrite : Except CoinsFailure CCoinsView) :
    Except CoinsFailure (CCoinsViewCache × CCoinsView) :=
  baseBatchWrite.map fun base' => ({ self with cacheCoins := ∅ }, base')

/-- `Uncache`: drop an entry that carries no flag. -/
def Uncache (self : CCoinsViewCache) (outpoint : COutPoint) : CCoinsViewCache :=
  match self.cacheCoins.lookup (native_key outpoint) with
  | some entry =>
    if entry.flags == 0 then { self with cacheCoins := self.cacheCoins.erase (native_key outpoint) }
    else self
  | none => self

end CCoinsViewCache

/-!
## A stack of views
-/

namespace CCoinsView

variable (g : Globals)

def GetCoin : CCoinsView -> COutPoint -> Option Coin × CCoinsView
  | db view, outpoint => (view.GetCoin outpoint, db view)
  | cache layer base, outpoint =>
    match layer.GetCoin g base (GetCoin base outpoint) outpoint with
    | (coin, layer', base') => (coin, cache layer' base')

def IsPeginSpent : CCoinsView -> CCoinsMapKey -> Except CoinsFailure (Bool × CCoinsView)
  | db view, outpoint => Except.ok (view.IsPeginSpent outpoint, db view)
  | cache layer base, outpoint =>
    (layer.IsPeginSpent g base (IsPeginSpent base outpoint) outpoint).map
      fun (spent, layer', base') => (spent, cache layer' base')

def BatchWrite : CCoinsView -> CCoinsMap -> Uint256 -> Except CoinsFailure CCoinsView
  | db view, mapCoins, hashBlock => (view.BatchWrite g mapCoins hashBlock).map db
  | cache layer base, mapCoins, hashBlock =>
    (layer.BatchWrite g mapCoins hashBlock).map fun layer' => cache layer' base

def depth : CCoinsView -> Nat
  | db _ => 0
  | cache _ base => base.depth + 1

end CCoinsView

/-!
## Calls into a stack
-/

/-- The calls a client makes on a cache. -/
inductive CoinsOp where
  | AddCoin (outpoint : COutPoint) (coin : Coin) (possible_overwrite : Bool)
  | SpendCoin (outpoint : COutPoint)
  | SetPeginSpent (outpoint : CCoinsMapKey) (fSpent : Bool)
  | IsPeginSpent (outpoint : CCoinsMapKey)
  | AccessCoin (outpoint : COutPoint)
  | HaveCoin (outpoint : COutPoint)
  | Uncache (outpoint : COutPoint)
  | Flush
deriving DecidableEq, Repr

/-- What a call answers: the reads answer, the other calls are observed
through later reads. -/
inductive CoinsAnswer where
  | none
  | bool (b : Bool)
  | coin (c : Coin)
deriving DecidableEq, Repr

namespace CCoinsView

variable (g : Globals)

/-- `op` on the cache `layer` over `base`. -/
def ApplyHere (op : CoinsOp) (layer : CCoinsViewCache) (base : CCoinsView) :
    Except CoinsFailure (CoinsAnswer × CCoinsView) :=
  match op with
  | .AddCoin outpoint coin possible_overwrite =>
    (layer.AddCoin g outpoint coin possible_overwrite).map fun layer' => (.none, cache layer' base)
  | .SpendCoin outpoint =>
    match layer.SpendCoin g base (GetCoin g base outpoint) outpoint with
    | (_, layer', base') => Except.ok (.none, cache layer' base')
  | .SetPeginSpent outpoint fSpent =>
    (layer.SetPeginSpent g base (IsPeginSpent g base outpoint) outpoint fSpent).map
      fun (layer', base') => (.none, cache layer' base')
  | .IsPeginSpent outpoint =>
    (layer.IsPeginSpent g base (IsPeginSpent g base outpoint) outpoint).map
      fun (spent, layer', base') => (.bool spent, cache layer' base')
  | .AccessCoin outpoint =>
    match layer.AccessCoin g base (GetCoin g base outpoint) outpoint with
    | (coin, layer', base') => Except.ok (.coin coin, cache layer' base')
  | .HaveCoin outpoint =>
    match layer.HaveCoin g base (GetCoin g base outpoint) outpoint with
    | (present, layer', base') => Except.ok (.bool present, cache layer' base')
  | .Uncache outpoint => Except.ok (.none, cache (layer.Uncache outpoint) base)
  | .Flush =>
    (layer.Flush (BatchWrite g base layer.cacheCoins layer.hashBlock)).map
      fun (layer', base') => (.none, cache layer' base')

/-- `op` on the cache `level` layers below the top; `none` when there is no
cache there. -/
def Apply : Nat -> CoinsOp -> CCoinsView -> Option (Except CoinsFailure (CoinsAnswer × CCoinsView))
  | _, _, db _ => none
  | 0, op, cache layer base => some (ApplyHere g op layer base)
  | level + 1, op, cache layer base =>
    (Apply level op base).map fun r => r.map fun (answer, base') => (answer, cache layer base')

/-- A sequence of calls, each on a layer, with their answers. -/
def Run : CCoinsView -> List (Nat × CoinsOp) ->
    Option (Except CoinsFailure (List CoinsAnswer × CCoinsView))
  | view, [] => some (Except.ok ([], view))
  | view, (level, op) :: rest =>
    match Apply g level op view with
    | none => none
    | some (Except.error e) => some (Except.error e)
    | some (Except.ok (answer, view')) =>
      (Run view' rest).map fun r => r.map fun (answers, view'') => (answer :: answers, view'')

end CCoinsView

end Elements
