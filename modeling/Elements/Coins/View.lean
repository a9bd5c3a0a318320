import Elements.Coins.Refinement
import Elements.Data.CallTree
import Elements.Data.ExceptFold

/-!
# The view the validation code calls

`ConnectBlock` and the functions it calls read and write the coins through a
`CCoinsViewCache&`.  They are modelled as programs (`ViewM`) that make those
calls, so that one program runs on two services: the plain state a stack of
caches stands for (`CoinsState.Serve`), and the top layer of a stack
(`CCoinsView.Serve`).

In Elements mode, every call the plain state answers is answered alike by a
well-formed stack standing for it, which is left standing for the plain
state's successor (`Serve_simulates`).  By `CallTree.run_simulates`, every
program that succeeds on the plain state succeeds on the stack with the same
result (`run_Serve_simulates`).
-/

namespace Elements

open Codec CCoinsView

/-- How a validation call fails: `state.Invalid` with its reject reason, a
failed `assert`, or a thrown exception. -/
inductive ValidationFailure where
  | invalid (reason : String)
  | assertion
  | exception (what : String)
deriving DecidableEq, Repr

/-- An `assert` on a value that may be missing. -/
def assertSome {m : Type -> Type} [Pure m] [MonadExceptOf ValidationFailure m] {α : Type} :
    Option α -> m α
  | some a => pure a
  | none => throw .assertion

@[simp] theorem assertSome_eq_ok {α : Type} {o : Option α} {a : α} :
    (assertSome o : Except ValidationFailure α) = Except.ok a ↔ o = some a := by
  cases o <;> simp [assertSome, pure, Except.pure, throw, throwThe, MonadExceptOf.throw]

/-- A failure of the caches as the validation code meets it. -/
def CoinsFailure.toValidation : CoinsFailure -> ValidationFailure
  | .assertion => .assertion
  | .logic_error what => .exception what

/-!
## The calls
-/

/-- What each call answers; `SpendCoin` answers the coin it moved out, if it
found an entry. -/
def CoinsOp.Answer : CoinsOp -> Type
  | .AddCoin .. => Unit
  | .SpendCoin _ => Option Coin
  | .SetPeginSpent .. => Unit
  | .IsPeginSpent _ => Bool
  | .AccessCoin _ => Coin
  | .HaveCoin _ => Bool
  | .Uncache _ => Unit
  | .Flush => Unit

abbrev ViewM := CallTree CoinsOp CoinsOp.Answer ValidationFailure

namespace ViewM

def HaveCoin (outpoint : COutPoint) : ViewM Bool :=
  CallTree.perform (CoinsOp.HaveCoin outpoint)

def AccessCoin (outpoint : COutPoint) : ViewM Coin :=
  CallTree.perform (CoinsOp.AccessCoin outpoint)

def IsPeginSpent (outpoint : CCoinsMapKey) : ViewM Bool :=
  CallTree.perform (CoinsOp.IsPeginSpent outpoint)

def SetPeginSpent (outpoint : CCoinsMapKey) (fSpent : Bool) : ViewM Unit :=
  CallTree.perform (CoinsOp.SetPeginSpent outpoint fSpent)

def SpendCoin (outpoint : COutPoint) : ViewM (Option Coin) :=
  CallTree.perform (CoinsOp.SpendCoin outpoint)

def AddCoin (outpoint : COutPoint) (coin : Coin) (possible_overwrite : Bool) : ViewM Unit :=
  CallTree.perform (CoinsOp.AddCoin outpoint coin possible_overwrite)

end ViewM

def CoinsOp.IsRead : CoinsOp -> Prop
  | .IsPeginSpent _ => True
  | .AccessCoin _ => True
  | .HaveCoin _ => True
  | _ => False

/-- The calls that leave the peg-in claims alone. -/
def CoinsOp.KeepsClaims : CoinsOp -> Prop
  | .SetPeginSpent .. => False
  | _ => True

namespace ViewM

theorem HaveCoin_reads (o : COutPoint) : (HaveCoin o).CallsSatisfy CoinsOp.IsRead :=
  .perform trivial

theorem AccessCoin_reads (o : COutPoint) : (AccessCoin o).CallsSatisfy CoinsOp.IsRead :=
  .perform trivial

theorem IsPeginSpent_reads (key : CCoinsMapKey) : (IsPeginSpent key).CallsSatisfy CoinsOp.IsRead :=
  .perform trivial

theorem SpendCoin_keepsClaims (o : COutPoint) : (SpendCoin o).CallsSatisfy CoinsOp.KeepsClaims :=
  .perform trivial

theorem AddCoin_keepsClaims (o : COutPoint) (coin : Coin) (possible_overwrite : Bool) :
    (AddCoin o coin possible_overwrite).CallsSatisfy CoinsOp.KeepsClaims :=
  .perform trivial

end ViewM

theorem CoinsOp.IsRead.keepsClaims {op : CoinsOp} (h : op.IsRead) : op.KeepsClaims := by
  cases op <;> first | exact absurd h id | trivial

theorem assertSome_callsSatisfy {α : Type} {P : CoinsOp -> Prop} (o : Option α) :
    (assertSome o : ViewM α).CallsSatisfy P := by
  cases o <;> trivial

@[simp] theorem run_assertSome {α σ : Type}
    (serve : σ -> (op : CoinsOp) -> Except ValidationFailure (op.Answer × σ)) (o : Option α) (s : σ) :
    (assertSome o : ViewM α).run serve s =
      (fun a => (a, s)) <$> (assertSome o : Except ValidationFailure α) := by
  cases o <;> rfl

/-!
## The plain state
-/

namespace CoinsState

variable (g : Globals)

def HaveCoin (s : CoinsState) (outpoint : COutPoint) : Bool :=
  (s.coin outpoint).isSome

/-- `AccessCoin`: the coin, or `coinEmpty`. -/
def AccessCoin (s : CoinsState) (outpoint : COutPoint) : Coin :=
  (s.coin outpoint).getD coinEmpty

/-- `IsPeginSpent`; the caches assert that the key is a claim key. -/
def IsPeginSpent (s : CoinsState) (outpoint : CCoinsMapKey) : Except ValidationFailure Bool :=
  if ValidPeginKey outpoint then pure (s.peginSpent outpoint) else throw .assertion

def SetPeginSpent (s : CoinsState) (outpoint : CCoinsMapKey) (fSpent : Bool) :
    Except ValidationFailure CoinsState :=
  if ValidPeginKey outpoint then
    pure { s with peginSpent := Function.update s.peginSpent outpoint fSpent }
  else throw .assertion

/-- `SpendCoin` with `moveout`: the coin there was, and the state without it. -/
def SpendCoin (s : CoinsState) (outpoint : COutPoint) : Option Coin × CoinsState :=
  (s.coin outpoint, { s with coin := Function.update s.coin outpoint none })

def AddCoin (s : CoinsState) (outpoint : COutPoint) (coin : Coin) (possible_overwrite : Bool) :
    Except ValidationFailure CoinsState :=
  if coin.IsSpent g then throw .assertion
  else if coin.out.scriptPubKey.IsUnspendable g then pure s
  else if !possible_overwrite && (s.coin outpoint).isSome then
    throw (.exception overwriteUnspent)
  else pure { s with coin := Function.update s.coin outpoint (some coin) }

@[simp] theorem IsPeginSpent_eq_ok {s : CoinsState} {outpoint : CCoinsMapKey} {spent : Bool} :
    s.IsPeginSpent outpoint = Except.ok spent ↔
      ValidPeginKey outpoint = true ∧ s.peginSpent outpoint = spent := by
  unfold IsPeginSpent
  split <;> simp [pure, Except.pure, throw, throwThe, MonadExceptOf.throw, *]

@[simp] theorem SetPeginSpent_eq_ok {s s' : CoinsState} {outpoint : CCoinsMapKey} {fSpent : Bool} :
    s.SetPeginSpent outpoint fSpent = Except.ok s' ↔ ValidPeginKey outpoint = true ∧
      s' = { s with peginSpent := Function.update s.peginSpent outpoint fSpent } := by
  unfold SetPeginSpent
  split <;> simp [pure, Except.pure, throw, throwThe, MonadExceptOf.throw, eq_comm, *]

theorem AddCoin_peginSpent {s s' : CoinsState} {outpoint : COutPoint} {coin : Coin}
    {possible_overwrite : Bool} (h : s.AddCoin g outpoint coin possible_overwrite = Except.ok s') :
    s'.peginSpent = s.peginSpent := by
  unfold AddCoin at h
  split at h
  · cases h
  · split at h
    · cases h
      rfl
    · split at h
      · cases h
      · cases h
        rfl

theorem AddCoin_Step {s s' : CoinsState} {outpoint : COutPoint} {coin : Coin}
    {possible_overwrite : Bool} (h : s.AddCoin g outpoint coin possible_overwrite = Except.ok s') :
    Step g s (.AddCoin outpoint coin possible_overwrite) = some (.none, s') := by
  unfold AddCoin at h
  simp only [Step]
  split at h
  · cases h
  · split at h
    · cases h
      simp [*]
    · split at h
      · cases h
      · cases h
        simp [*]

/-- The calls on the plain state.  A spend of a coin the state does not have
fails: `UpdateCoins` asserts that it finds one. -/
def Serve (s : CoinsState) : (op : CoinsOp) -> Except ValidationFailure (op.Answer × CoinsState)
  | .AddCoin outpoint coin possible_overwrite =>
    (fun s' => ((), s')) <$> s.AddCoin g outpoint coin possible_overwrite
  | .SpendCoin outpoint =>
    match s.SpendCoin outpoint with
    | (some coin, s') => pure (some coin, s')
    | (none, _) => throw .assertion
  | .SetPeginSpent outpoint fSpent => (fun s' => ((), s')) <$> s.SetPeginSpent outpoint fSpent
  | .IsPeginSpent outpoint => (fun spent => (spent, s)) <$> s.IsPeginSpent outpoint
  | .AccessCoin outpoint => pure (s.AccessCoin outpoint, s)
  | .HaveCoin outpoint => pure (s.HaveCoin outpoint, s)
  | .Uncache _ => pure ((), s)
  | .Flush => pure ((), s)

variable {g}

theorem Serve_read {s s' : CoinsState} {op : CoinsOp} {ans : op.Answer} (hread : op.IsRead)
    (h : s.Serve g op = Except.ok (ans, s')) : s' = s := by
  cases op with
  | IsPeginSpent outpoint =>
    obtain ⟨spent, -, heq⟩ := ExceptFold.map_eq_ok.mp h
    exact (Prod.mk.inj heq).2.symm
  | AccessCoin outpoint => exact (Prod.mk.inj (Except.ok.inj h)).2.symm
  | HaveCoin outpoint => exact (Prod.mk.inj (Except.ok.inj h)).2.symm
  | _ => exact absurd hread id

theorem Serve_keepsClaims {s s' : CoinsState} {op : CoinsOp} {ans : op.Answer}
    (hkeeps : op.KeepsClaims) (h : s.Serve g op = Except.ok (ans, s')) :
    s'.peginSpent = s.peginSpent := by
  cases op with
  | SetPeginSpent outpoint fSpent => exact absurd hkeeps id
  | AddCoin outpoint coin possible_overwrite =>
    obtain ⟨s₁, hadd, heq⟩ := ExceptFold.map_eq_ok.mp h
    rw [← (Prod.mk.inj heq).2]
    exact AddCoin_peginSpent g hadd
  | SpendCoin outpoint =>
    simp only [Serve, SpendCoin] at h
    split at h
    · rename_i heq
      obtain ⟨-, rfl⟩ := Prod.mk.inj (Except.ok.inj h)
      rw [← (Prod.mk.inj heq).2]
    · cases h
  | IsPeginSpent outpoint => rw [Serve_read (show CoinsOp.IsRead (.IsPeginSpent outpoint) from trivial) h]
  | AccessCoin outpoint => rw [Serve_read (show CoinsOp.IsRead (.AccessCoin outpoint) from trivial) h]
  | HaveCoin outpoint => rw [Serve_read (show CoinsOp.IsRead (.HaveCoin outpoint) from trivial) h]
  | Uncache outpoint => rw [(Prod.mk.inj (Except.ok.inj h)).2]
  | Flush => rw [(Prod.mk.inj (Except.ok.inj h)).2]

section Runs

variable {α : Type} {x : ViewM α} {s s' : CoinsState} {a : α}

theorem run_reads (hx : x.CallsSatisfy CoinsOp.IsRead) (h : x.run (Serve g) s = Except.ok (a, s')) :
    s' = s :=
  CallTree.run_keeps (fun t => t = s)
    (fun _ _ _ _ hread ht hserve => (Serve_read hread hserve).trans ht) hx rfl h

theorem run_keepsClaims (hx : x.CallsSatisfy CoinsOp.KeepsClaims)
    (h : x.run (Serve g) s = Except.ok (a, s')) : s'.peginSpent = s.peginSpent :=
  CallTree.run_keeps (fun t => t.peginSpent = s.peginSpent)
    (fun _ _ _ _ hkeeps ht hserve => (Serve_keepsClaims hkeeps hserve).trans ht) hx rfl h

end Runs

@[simp] theorem run_HaveCoin (s : CoinsState) (o : COutPoint) :
    (ViewM.HaveCoin o).run (Serve g) s = pure (s.HaveCoin o, s) := rfl

@[simp] theorem run_AccessCoin (s : CoinsState) (o : COutPoint) :
    (ViewM.AccessCoin o).run (Serve g) s = pure (s.AccessCoin o, s) := rfl

@[simp] theorem run_IsPeginSpent (s : CoinsState) (key : CCoinsMapKey) :
    (ViewM.IsPeginSpent key).run (Serve g) s = (fun spent => (spent, s)) <$> s.IsPeginSpent key :=
  CallTree.run_perform _ _ _

@[simp] theorem run_SetPeginSpent (s : CoinsState) (key : CCoinsMapKey) (fSpent : Bool) :
    (ViewM.SetPeginSpent key fSpent).run (Serve g) s =
      (fun s' => ((), s')) <$> s.SetPeginSpent key fSpent :=
  CallTree.run_perform _ _ _

@[simp] theorem run_AddCoin (s : CoinsState) (o : COutPoint) (coin : Coin) (possible_overwrite : Bool) :
    (ViewM.AddCoin o coin possible_overwrite).run (Serve g) s =
      (fun s' => ((), s')) <$> s.AddCoin g o coin possible_overwrite :=
  CallTree.run_perform _ _ _

end CoinsState

/-!
## A stack of caches
-/

namespace CCoinsView

variable (g : Globals)

/-- `GetBestBlock`: the block the view stands at; a layer that has none takes
its base's, which the source then stores in the layer. -/
def GetBestBlock : CCoinsView -> Uint256
  | db view => view.bestBlock
  | cache layer base => if layer.hashBlock.IsNull then base.GetBestBlock else layer.hashBlock

/-- The calls on the top layer of a stack, which the validation code holds as
its `CCoinsViewCache`; the database alone has no layer to call. -/
def Serve : CCoinsView -> (op : CoinsOp) -> Except ValidationFailure (op.Answer × CCoinsView)
  | db _, _ => throw .assertion
  | cache layer base, .AddCoin outpoint coin possible_overwrite =>
    ((layer.AddCoin g outpoint coin possible_overwrite).map fun layer' =>
      ((), cache layer' base)).mapError CoinsFailure.toValidation
  | cache layer base, .SpendCoin outpoint =>
    match layer.SpendCoin g base (GetCoin g base outpoint) outpoint with
    | (moved, layer', base') => pure (moved, cache layer' base')
  | cache layer base, .SetPeginSpent outpoint fSpent =>
    ((layer.SetPeginSpent g base (IsPeginSpent g base outpoint) outpoint fSpent).map
      fun (layer', base') => ((), cache layer' base')).mapError CoinsFailure.toValidation
  | cache layer base, .IsPeginSpent outpoint =>
    ((layer.IsPeginSpent g base (IsPeginSpent g base outpoint) outpoint).map
      fun (spent, layer', base') => (spent, cache layer' base')).mapError CoinsFailure.toValidation
  | cache layer base, .AccessCoin outpoint =>
    match layer.AccessCoin g base (GetCoin g base outpoint) outpoint with
    | (coin, layer', base') => pure (coin, cache layer' base')
  | cache layer base, .HaveCoin outpoint =>
    match layer.HaveCoin g base (GetCoin g base outpoint) outpoint with
    | (present, layer', base') => pure (present, cache layer' base')
  | cache layer base, .Uncache outpoint => pure ((), cache (layer.Uncache outpoint) base)
  | cache layer base, .Flush =>
    ((layer.Flush (BatchWrite g base layer.cacheCoins layer.hashBlock)).map
      fun (layer', base') => ((), cache layer' base')).mapError CoinsFailure.toValidation

end CCoinsView

/-!
## The stack answers as the plain state
-/

section Simulation

variable {g : Globals} {self : CCoinsViewCache} {base : CCoinsView}

theorem CCoinsViewCache.SpendCoin_moved {baseGetCoin : Option Coin × CCoinsView} {o : COutPoint}
    {moved : Option Coin} {self' : CCoinsViewCache} {base' : CCoinsView} {c : Coin}
    (hwf : (cache self base).WF g) (hbase : base.GetCoinOK g o baseGetCoin)
    (h : self.SpendCoin g base baseGetCoin o = (moved, self', base'))
    (hcoin : ((cache self base).state g).coin o = some c) : moved = some c := by
  rcases hf : self.FetchCoin g base baseGetCoin o with ⟨entry, self₁, base₁⟩
  obtain ⟨-, -, hslot⟩ := FetchCoin_spec hwf hbase hf
  rw [hcoin] at hslot
  cases entry with
  | none => cases hslot
  | some e =>
    have he : e.coin = c := by
      rw [slotCoin_some, liveCoin_eq] at hslot
      split at hslot
      · cases hslot
      · exact Option.some.inj hslot
    simp only [CCoinsViewCache.SpendCoin, hf] at h
    split at h <;> (rw [← he]; exact (Prod.mk.inj h).1.symm)

theorem Serve_simulates (hmode : g.g_con_elementsmode = true) {op : CoinsOp} {ans : op.Answer}
    {s' : CoinsState} (hwf : (cache self base).WF g)
    (h : ((cache self base).state g).Serve g op = Except.ok (ans, s')) :
    ∃ v', (cache self base).Serve g op = Except.ok (ans, v') ∧ (cache self base).Becomes g s' v' := by
  cases op with
  | AddCoin o coin possible_overwrite =>
    obtain ⟨s₁, hadd, heq⟩ := ExceptFold.map_eq_ok.mp h
    obtain ⟨rfl, rfl⟩ := Prod.mk.inj heq
    obtain ⟨-, self', hadd', hbecomes⟩ :=
      CCoinsViewCache.AddCoin_spec hwf (CoinsState.AddCoin_Step g hadd)
    exact ⟨cache self' base, by simp only [Serve, hadd']; rfl, hbecomes⟩
  | SpendCoin o =>
    simp only [CoinsState.Serve, CoinsState.SpendCoin] at h
    split at h
    · rename_i c s₁ hspend
      obtain ⟨hcoin, rfl⟩ := Prod.mk.inj hspend
      obtain ⟨rfl, rfl⟩ := Prod.mk.inj (Except.ok.inj h)
      obtain ⟨moved, self', base', hmove, hbecomes⟩ :=
        CCoinsViewCache.SpendCoin_spec hwf (GetCoin_spec o hwf.1)
      have hmoved := CCoinsViewCache.SpendCoin_moved hwf (GetCoin_spec o hwf.1) hmove hcoin
      exact ⟨cache self' base', by simp [Serve, hmove, hmoved], hbecomes⟩
    · cases h
  | SetPeginSpent key fSpent =>
    obtain ⟨s₁, hset, heq⟩ := ExceptFold.map_eq_ok.mp h
    obtain ⟨rfl, rfl⟩ := Prod.mk.inj heq
    obtain ⟨hkey, rfl⟩ := CoinsState.SetPeginSpent_eq_ok.mp hset
    obtain ⟨self', base', hset', hbecomes⟩ :=
      CCoinsViewCache.SetPeginSpent_spec hwf hkey (IsPeginSpent_spec hkey hwf.1)
    exact ⟨cache self' base', by simp only [Serve, hset']; rfl, hbecomes⟩
  | IsPeginSpent key =>
    obtain ⟨spent, hspent, heq⟩ := ExceptFold.map_eq_ok.mp h
    obtain ⟨rfl, rfl⟩ := Prod.mk.inj heq
    obtain ⟨hkey, rfl⟩ := CoinsState.IsPeginSpent_eq_ok.mp hspent
    obtain ⟨self', base', hspent', hbecomes⟩ :=
      CCoinsViewCache.IsPeginSpent_spec hwf hkey (IsPeginSpent_spec hkey hwf.1)
    exact ⟨cache self' base', by simp only [Serve, hspent']; rfl, hbecomes⟩
  | AccessCoin o =>
    obtain ⟨rfl, rfl⟩ := Prod.mk.inj (Except.ok.inj h)
    obtain ⟨self', base', haccess, hbecomes⟩ :=
      CCoinsViewCache.AccessCoin_spec hmode hwf (GetCoin_spec o hwf.1)
    exact ⟨cache self' base', by simp [Serve, haccess, CoinsState.AccessCoin], hbecomes⟩
  | HaveCoin o =>
    obtain ⟨rfl, rfl⟩ := Prod.mk.inj (Except.ok.inj h)
    obtain ⟨self', base', hhave, hbecomes⟩ :=
      CCoinsViewCache.HaveCoin_spec hwf (GetCoin_spec o hwf.1)
    exact ⟨cache self' base', by simp [Serve, hhave, CoinsState.HaveCoin], hbecomes⟩
  | Uncache o =>
    obtain ⟨rfl, rfl⟩ := Prod.mk.inj (Except.ok.inj h)
    exact ⟨cache (self.Uncache o) base, rfl, CCoinsViewCache.Uncache_spec hwf⟩
  | Flush =>
    obtain ⟨rfl, rfl⟩ := Prod.mk.inj (Except.ok.inj h)
    obtain ⟨self', base', hflush, hbecomes⟩ :=
      CCoinsViewCache.Flush_spec hwf (BatchWrite_spec hwf.2.1 hwf.1 hwf.2.2)
    exact ⟨cache self' base', by simp only [Serve, hflush]; rfl, hbecomes⟩

/-- A program that succeeds on the plain state a well-formed stack stands for
succeeds on the stack's top layer with the same result, and leaves the stack
standing for the plain state the program ends with. -/
theorem run_Serve_simulates (hmode : g.g_con_elementsmode = true) {α : Type} {x : ViewM α}
    {v : CCoinsView} {a : α} {s' : CoinsState} (hwf : v.WF g) (hdepth : 0 < v.depth)
    (h : x.run (CoinsState.Serve g) (v.state g) = Except.ok (a, s')) :
    ∃ v', x.run (CCoinsView.Serve g) v = Except.ok (a, v') ∧ v.Becomes g s' v' := by
  refine CallTree.run_simulates (fun s t => v.Becomes g s t) ?_ x (Becomes.refl hwf) h
  intro s t op ans s₁ hR hs
  -- the stack keeps its depth, so the calls go to a cache layer
  cases t with
  | db view => exact absurd (hR.depth_eq ▸ hdepth) (by simp [depth])
  | cache layer base =>
    rw [← hR.state_eq] at hs
    obtain ⟨t', hserve, hbecomes⟩ := Serve_simulates hmode hR.wf hs
    exact ⟨t', hserve, hR.trans hbecomes⟩

end Simulation

end Elements
