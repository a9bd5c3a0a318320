import Elements.Validation.Connect
import Elements.Data.ExceptFold

/-!
# What a coinbase may pay

In Elements mode, `ConnectBlock` lets the coinbase of every block but the
genesis block pay, in each asset, at most the block's fees in that asset, and
in the subsidy asset the block subsidy on top; every coinbase output has an
explicit asset and an explicit value.

The bound is assembled from four places: `HasValidFee` keeps the running fee
totals of a transaction in range, `CheckTxInputs` and `ConnectBlock` the
block's running fee map, `ConnectBlock` the block reward, and
`CheckTransaction`, which `CheckBlock` runs on the coinbase, the running total
of the coinbase's explicit outputs.  Every sum on the way is in the money
range, or its negation while the coinbase is paid out, so none of them wraps
in `int64_t`; the statements read the amounts as integers.

Outside Elements mode a transaction's fee is the implicit difference of its
inputs and outputs and there are no fee outputs; and the genesis block's
outputs are added unchecked.
-/

namespace Elements

open ExceptFold

/-!
## The amounts as integers
-/

def CTxOut.FeeIn (g : Globals) (asset : CAsset) (txout : CTxOut) : Int :=
  match txout.Fee g with
  | some (a, fee) => if a = asset then fee.toInt else 0
  | none => 0

def FeesIn (g : Globals) (asset : CAsset) (vout : List CTxOut) : Int :=
  (vout.map (CTxOut.FeeIn g asset)).sum

/-- The fees the transactions other than a coinbase pay in `asset`. -/
def BlockFeesIn (g : Globals) (asset : CAsset) (vtx : List CTransaction) : Int :=
  (vtx.map fun tx => if tx.IsCoinBase then 0 else FeesIn g asset tx.vout).sum

/-- The explicit value of an output, in whatever asset. -/
def CTxOut.ExplicitValue (g : Globals) (txout : CTxOut) : Int :=
  if txout.nValue.IsExplicit then
    match txout.nValue.GetAmount g with
    | some amount => amount.toInt
    | none => 0
  else 0

/-- The explicit value an output pays in the explicit asset `asset`. -/
def CTxOut.PaidIn (g : Globals) (asset : CAsset) (txout : CTxOut) : Int :=
  if txout.nAsset.GetAsset = some asset then txout.ExplicitValue g else 0

def PaidIn (g : Globals) (asset : CAsset) (vout : List CTxOut) : Int :=
  (vout.map (CTxOut.PaidIn g asset)).sum

def ExplicitValueOut (g : Globals) (vout : List CTxOut) : Int :=
  (vout.map (CTxOut.ExplicitValue g)).sum

/-- What the block subsidy adds in `asset`. -/
def SubsidyIn (subsidy_asset : CAsset) (subsidy : CAmount) (asset : CAsset) : Int :=
  if asset = subsidy_asset then subsidy.toInt else 0

/-- The integer values of the sums `ConnectBlock` forms on its way to the
coinbase check, each in `int64_t` range: the running fee totals of each
transaction (`HasValidFee`, `GetFeeMap`), the block's fee map after each
transaction, the block reward, and what remains of it after each coinbase
output. -/
structure RewardSumsInRange (g : Globals) (vtx : List CTransaction) (coinbase : CTransaction)
    (reward : CAsset -> Int) : Prop where
  fee_totals : ∀ tx ∈ vtx, tx.IsCoinBase = false ->
    ∀ asset k, InInt64 (FeesIn g asset (tx.vout.take k))
  fee_map : ∀ asset n, InInt64 (BlockFeesIn g asset (vtx.take n))
  block_reward : ∀ asset, InInt64 (reward asset)
  remaining : ∀ asset k, InInt64 (reward asset - PaidIn g asset (coinbase.vout.take k))

variable {g : Globals}

@[simp] theorem FeesIn_nil (asset : CAsset) : FeesIn g asset [] = 0 := rfl

@[simp] theorem FeesIn_append (asset : CAsset) (l l' : List CTxOut) :
    FeesIn g asset (l ++ l') = FeesIn g asset l + FeesIn g asset l' := by
  simp [FeesIn]

@[simp] theorem FeesIn_singleton (asset : CAsset) (txout : CTxOut) :
    FeesIn g asset [txout] = txout.FeeIn g asset := by
  simp [FeesIn]

@[simp] theorem BlockFeesIn_append (asset : CAsset) (l l' : List CTransaction) :
    BlockFeesIn g asset (l ++ l') = BlockFeesIn g asset l + BlockFeesIn g asset l' := by
  simp [BlockFeesIn]

@[simp] theorem BlockFeesIn_singleton (asset : CAsset) (tx : CTransaction) :
    BlockFeesIn g asset [tx] = if tx.IsCoinBase then 0 else FeesIn g asset tx.vout := by
  simp [BlockFeesIn]

@[simp] theorem PaidIn_nil (asset : CAsset) : PaidIn g asset [] = 0 := rfl

@[simp] theorem PaidIn_cons (asset : CAsset) (txout : CTxOut) (l : List CTxOut) :
    PaidIn g asset (txout :: l) = txout.PaidIn g asset + PaidIn g asset l := by
  simp [PaidIn]

@[simp] theorem ExplicitValueOut_nil : ExplicitValueOut g [] = 0 := rfl

@[simp] theorem ExplicitValueOut_cons (txout : CTxOut) (l : List CTxOut) :
    ExplicitValueOut g (txout :: l) = txout.ExplicitValue g + ExplicitValueOut g l := by
  simp [ExplicitValueOut]

theorem PaidIn_bounds {l : List CTxOut} (asset : CAsset)
    (hnonneg : ∀ txout ∈ l, 0 ≤ txout.ExplicitValue g) :
    0 ≤ PaidIn g asset l ∧ PaidIn g asset l ≤ ExplicitValueOut g l := by
  induction l with
  | nil => simp
  | cons txout rest ih =>
    have hhead := hnonneg txout List.mem_cons_self
    have hrest := ih fun t ht => hnonneg t (List.mem_cons_of_mem _ ht)
    simp only [PaidIn_cons, ExplicitValueOut_cons, CTxOut.PaidIn]
    split_ifs <;> omega

/-!
## A transaction's fees
-/

/-- The loop body of `GetFeeMap`. -/
def FeeStep (g : Globals) (fee : CAmountMap) (txout : CTxOut) : CAmountMap :=
  match txout.Fee g with
  | some (asset, amount) => CAmountMap.addAt fee asset amount
  | none => fee

theorem GetFeeMap_eq_foldl (tx : CTransaction) : GetFeeMap g tx = tx.vout.foldl (FeeStep g) ∅ :=
  rfl

/-- `m` is `m₀` with the fees of `l` added, in range and unwrapped. -/
def FeesAdded (g : Globals) (m₀ : CAmountMap) (l : List CTxOut) (m : CAmountMap) : Prop :=
  CAmountMap.MoneyRange m = true ∧
    ∀ asset, (CAmountMap.get m asset).toInt = (CAmountMap.get m₀ asset).toInt + FeesIn g asset l

theorem FeesAdded.snoc {m₀ m : CAmountMap} {done : List CTxOut} {txout : CTxOut}
    (hm : FeesAdded g m₀ done m) (hrange : CAmountMap.MoneyRange (FeeStep g m txout) = true) :
    FeesAdded g m₀ (done ++ [txout]) (FeeStep g m txout) := by
  refine ⟨hrange, fun a => ?_⟩
  rw [FeesIn_append, FeesIn_singleton, ← Int.add_assoc, ← hm.2 a]
  unfold FeeStep at hrange ⊢
  unfold CTxOut.FeeIn
  cases hfee : txout.Fee g with
  | none => simp
  | some paid =>
    obtain ⟨asset, fee⟩ := paid
    simp only [hfee] at hrange ⊢
    by_cases ha : asset = a
    · -- the asset paid: the sum of two amounts that lands in range
      subst ha
      simp only [CAmountMap.get_addAt_self, if_true]
      apply toInt_add_of_MoneyRange (CAmountMap.MoneyRange_get hm.1 asset)
      simpa using CAmountMap.MoneyRange_get hrange asset
    · rw [CAmountMap.get_addAt_ne m (Ne.symm ha), if_neg ha, Int.add_zero]

theorem HasValidFee_go_prefix {m₀ : CAmountMap} :
    ∀ {l done : List CTxOut} {m : CAmountMap}, HasValidFee.go g l m = true ->
      FeesAdded g m₀ done m -> ∀ k, FeesAdded g m₀ (done ++ l.take k) ((l.take k).foldl (FeeStep g) m)
  | [], done, m, _, hm, k => by simpa using hm
  | txout :: rest, done, m, hgo, hm, k => by
    cases k with
    | zero => simpa using hm
    | succ k =>
      have hstep : CAmountMap.MoneyRange (FeeStep g m txout) = true ∧
          HasValidFee.go g rest (FeeStep g m txout) = true := by
        unfold HasValidFee.go at hgo
        unfold FeeStep
        cases hfee : txout.Fee g with
        | none =>
          simp only [hfee] at hgo ⊢
          exact ⟨hm.1, hgo⟩
        | some paid =>
          obtain ⟨asset, fee⟩ := paid
          simp only [hfee, Bool.or_eq_true, beq_iff_eq, Bool.not_eq_eq_eq_not, Bool.not_true]
            at hgo ⊢
          split_ifs at hgo with hbad hrange
          exact ⟨by simpa using hrange, hgo⟩
      have ih := HasValidFee_go_prefix hstep.2 (hm.snoc hstep.1) k
      simpa using ih

theorem HasValidFee_sound {tx : CTransaction} (h : HasValidFee g tx = true) :
    (∀ k, FeesAdded g ∅ (tx.vout.take k) ((tx.vout.take k).foldl (FeeStep g) ∅)) ∧
      FeesAdded g ∅ tx.vout (GetFeeMap g tx) := by
  have hnil : FeesAdded g ∅ [] ∅ := ⟨rfl, fun asset => by simp⟩
  have hprefix := fun k => HasValidFee_go_prefix h hnil k
  refine ⟨fun k => by simpa using hprefix k, ?_⟩
  simpa [GetFeeMap_eq_foldl] using hprefix tx.vout.length

theorem FeesIn_bounds {l : List CTxOut} {m : CAmountMap} (h : FeesAdded g ∅ l m)
    (asset : CAsset) : 0 ≤ FeesIn g asset l ∧ FeesIn g asset l ≤ 2100000000000000 := by
  have hrange := MoneyRange_iff_toInt.mp (CAmountMap.MoneyRange_get h.1 asset)
  have hexact := h.2 asset
  simp only [CAmountMap.get_empty, Int64.toInt_zero, Int.zero_add] at hexact
  omega

/-!
## The block's fees
-/

section Loop

variable {ctx : ConnectParams} {H : Hashes} {pindex : CBlockIndex}
  {fedpegscripts : List (CScript × CScript)} {fScriptChecks : Bool}

theorem CheckTxFees_fee_map (hmode : g.g_con_elementsmode = true)
    {VerifyAmounts : List CTxOut -> CTransaction -> Bool} {tx : CTransaction}
    {fee_map fee_map' : CAmountMap} {tally : InputTally}
    (h : CheckTxFees g VerifyAmounts tx fee_map fScriptChecks tally = Except.ok fee_map') :
    HasValidFee g tx = true ∧ fee_map' = CAmountMap.add fee_map (GetFeeMap g tx) ∧
      CAmountMap.MoneyRange fee_map' = true := by
  simp only [CheckTxFees, hmode, if_true, throw_bind, ite_throw_eq_ok, pure_eq_ok] at h
  obtain ⟨hfee, -, hrange, rfl⟩ := h
  exact ⟨by simpa using hfee, rfl, by simpa using hrange⟩

theorem CheckTxConnect_fee_map (hmode : g.g_con_elementsmode = true) {acc : ConnectLoop}
    {tx : CTransaction} {checked : CAmountMap × List CCoinsMapKey} {s s' : CoinsState}
    (h : (CheckTxConnect ctx g pindex fedpegscripts fScriptChecks acc tx).run (CoinsState.Serve g) s =
      Except.ok (checked, s')) :
    (tx.IsCoinBase = true ∧ checked.1 = acc.fee_map) ∨
      (tx.IsCoinBase = false ∧ HasValidFee g tx = true ∧
        checked.1 = CAmountMap.add acc.fee_map (GetFeeMap g tx) ∧
        CAmountMap.MoneyRange checked.1 = true) := by
  unfold CheckTxConnect at h
  cases hcoinbase : tx.IsCoinBase with
  | true =>
    simp only [hcoinbase, if_true, CallTree.run_pure, pure_eq_ok] at h
    exact .inl ⟨rfl, by rw [← (Prod.mk.inj h).1]⟩
  | false =>
    simp only [hcoinbase, Bool.false_eq_true, if_false, CallTree.run_bind, bind_eq_ok] at h
    obtain ⟨⟨inputs_checked, s₁⟩, hinputs, h⟩ := h
    simp only [CallTree.run_ite, CallTree.run_throw, ite_throw_eq_ok, CallTree.run_bind,
      bind_eq_ok, CallTree.run_pure, pure_eq_ok] at h
    obtain ⟨-, prevheights, -, -, hresult⟩ := h
    obtain ⟨rfl, -⟩ := Prod.mk.inj hresult
    obtain ⟨-, tally, -, hfees, -⟩ := CheckTxInputs_eq_ok hinputs
    exact .inr ⟨rfl, CheckTxFees_fee_map hmode hfees⟩

/-- The transaction loop of `ConnectBlock`, in Elements mode: the fee map holds
the fees of the transactions so far, in range and unwrapped; the fees of every
prefix of them are in range; and each of them but a coinbase has valid fees. -/
structure FeeLoop (g : Globals) (done : List CTransaction) (fee_map : CAmountMap) : Prop where
  in_range : CAmountMap.MoneyRange fee_map = true
  exact : ∀ asset, (CAmountMap.get fee_map asset).toInt = BlockFeesIn g asset done
  prefixes : ∀ pre, pre <+: done -> ∀ asset,
    0 ≤ BlockFeesIn g asset pre ∧ BlockFeesIn g asset pre ≤ 2100000000000000
  valid_fees : ∀ tx ∈ done, tx.IsCoinBase = false -> HasValidFee g tx = true

theorem FeeLoop.nil : FeeLoop g [] ∅ where
  in_range := rfl
  exact _ := rfl
  prefixes pre hpre _ := by
    rw [List.prefix_nil.mp hpre]
    simp [BlockFeesIn]
  valid_fees _ htx := absurd htx List.not_mem_nil

theorem FeeLoop.snoc {done : List CTransaction} {fee_map fee_map' : CAmountMap}
    {tx : CTransaction} (hloop : FeeLoop g done fee_map)
    (hstep : (tx.IsCoinBase = true ∧ fee_map' = fee_map) ∨
      (tx.IsCoinBase = false ∧ HasValidFee g tx = true ∧
        fee_map' = CAmountMap.add fee_map (GetFeeMap g tx) ∧
        CAmountMap.MoneyRange fee_map' = true)) :
    FeeLoop g (done ++ [tx]) fee_map' := by
  have hnew : CAmountMap.MoneyRange fee_map' = true ∧
      ∀ asset, (CAmountMap.get fee_map' asset).toInt = BlockFeesIn g asset (done ++ [tx]) := by
    rcases hstep with ⟨hcoinbase, rfl⟩ | ⟨hcoinbase, hvalid, rfl, hrange⟩
    · exact ⟨hloop.in_range, fun asset => by simp [hcoinbase, hloop.exact asset]⟩
    · refine ⟨hrange, fun asset => ?_⟩
      have hsum := CAmountMap.MoneyRange_get hrange asset
      rw [CAmountMap.get_add] at hsum ⊢
      rw [toInt_add_of_MoneyRange (CAmountMap.MoneyRange_get hloop.in_range asset) hsum,
        hloop.exact asset, ((HasValidFee_sound hvalid).2.2 asset)]
      simp [hcoinbase]
  refine ⟨hnew.1, hnew.2, fun pre hpre asset => ?_, fun t ht hcb => ?_⟩
  · rcases List.prefix_concat_iff.mp hpre with rfl | hpre
    · have hrange := MoneyRange_iff_toInt.mp (CAmountMap.MoneyRange_get hnew.1 asset)
      rw [hnew.2 asset] at hrange
      exact hrange
    · exact hloop.prefixes pre hpre asset
  · rcases List.mem_append.mp ht with ht | ht
    · exact hloop.valid_fees t ht hcb
    · rw [List.mem_singleton.mp ht] at hcb ⊢
      rcases hstep with ⟨hcoinbase, -⟩ | ⟨-, hvalid, -⟩
      · rw [hcoinbase] at hcb
        cases hcb
      · exact hvalid

theorem ConnectTransactions_fee_map (hmode : g.g_con_elementsmode = true)
    {vtx : List CTransaction} {setPeginsSpent : List CCoinsMapKey} {loop : ConnectLoop}
    {s s' : CoinsState}
    (h : (vtx.zipIdx.foldlM (ConnectTransaction ctx g H pindex fedpegscripts fScriptChecks)
      ⟨∅, setPeginsSpent, 0, []⟩).run (CoinsState.Serve g) s = Except.ok (loop, s')) :
    FeeLoop g vtx loop.fee_map := by
  have hloop := CallTree.run_foldlM_inv_nil _ _
    (fun done (acc : ConnectLoop) (_ : CoinsState) => FeeLoop g (done.map Prod.fst) acc.fee_map)
    (fun done entry acc _ acc' _ hinv hstep => by
      obtain ⟨checked, -, -, hcheck, -, -, -, -, rfl⟩ := ConnectTransaction_eq_ok hstep
      simpa using hinv.snoc (CheckTxConnect_fee_map hmode hcheck))
    FeeLoop.nil h
  simpa [List.zipIdx_map_fst] using hloop

end Loop

/-!
## The coinbase
-/

theorem CheckTransactionOutputs_sound :
    ∀ {l : List CTxOut} {total : CAmount}, CheckTransactionOutputs g l total = Except.ok () ->
      MoneyRange total = true ->
      (∀ txout ∈ l, 0 ≤ txout.ExplicitValue g) ∧
        ∀ k, total.toInt + ExplicitValueOut g (l.take k) ≤ 2100000000000000
  | [], total, _, htotal => by
    have := MoneyRange_iff_toInt.mp htotal
    exact ⟨fun _ h => absurd h List.not_mem_nil, fun k => by simpa using this.2⟩
  | txout :: rest, total, h, htotal => by
    have hbounds := MoneyRange_iff_toInt.mp htotal
    unfold CheckTransactionOutputs at h
    by_cases hvalid : txout.nValue.IsValid = true
    · by_cases hexplicit : txout.nValue.IsExplicit = true
      · -- an explicit value is added to the running total, which stays in range
        simp only [hvalid, hexplicit, Bool.not_true, Bool.false_eq_true, if_false,
          bind_eq_ok, assertSome_eq_ok, throw_bind, ite_throw_eq_ok] at h
        obtain ⟨amount, hamount, hneg, hlarge, hsum, hrest⟩ := h
        have hsum' : MoneyRange (total + amount) = true := by simpa using hsum
        have hexact := toInt_add_of_MoneyRange htotal hsum'
        have hvalue : txout.ExplicitValue g = amount.toInt := by
          simp [CTxOut.ExplicitValue, hexplicit, hamount]
        have hneg' : 0 ≤ amount.toInt := by
          simpa [Int64.lt_iff_toInt_lt] using hneg
        obtain ⟨ihnonneg, ihtotal⟩ := CheckTransactionOutputs_sound hrest hsum'
        refine ⟨fun t ht => ?_, fun k => ?_⟩
        · rcases List.mem_cons.mp ht with rfl | ht
          · rw [hvalue]
            exact hneg'
          · exact ihnonneg t ht
        · cases k with
          | zero => simpa using hbounds.2
          | succ k =>
            have := ihtotal k
            rw [hexact] at this
            simp only [List.take_succ_cons, ExplicitValueOut_cons, hvalue]
            omega
      · -- a committed value is skipped
        simp only [hvalid, Bool.not_true, Bool.false_eq_true, if_false, hexplicit,
          Bool.not_false, if_true] at h
        have hvalue : txout.ExplicitValue g = 0 := by simp [CTxOut.ExplicitValue, hexplicit]
        obtain ⟨ihnonneg, ihtotal⟩ := CheckTransactionOutputs_sound h htotal
        refine ⟨fun t ht => ?_, fun k => ?_⟩
        · rcases List.mem_cons.mp ht with rfl | ht
          · rw [hvalue]
          · exact ihnonneg t ht
        · cases k with
          | zero => simpa using hbounds.2
          | succ k =>
            simp only [List.take_succ_cons, ExplicitValueOut_cons, hvalue, Int.zero_add]
            exact ihtotal k
    · simp [hvalid] at h

theorem CheckTransaction_outputs {tx : CTransaction} (h : CheckTransaction g tx = Except.ok ()) :
    CheckTransactionOutputs g tx.vout 0 = Except.ok () := by
  unfold CheckTransaction at h
  simp only [bind_eq_ok, throw_bind, ite_throw_eq_ok, assertSome_eq_ok] at h
  obtain ⟨-, -, serialized, -, -, u, houtputs, -⟩ := h
  exact houtputs

theorem CheckBlockTransactions_coinbase {vtx : List CTransaction}
    (h : CheckBlockTransactions g vtx = Except.ok ()) :
    ∃ coinbase, vtx.head? = some coinbase ∧ coinbase.IsCoinBase = true ∧
      CheckTransaction g coinbase = Except.ok () := by
  cases vtx with
  | nil => simp [CheckBlockTransactions] at h
  | cons coinbase rest =>
    simp only [CheckBlockTransactions, ite_throw_eq_ok] at h
    obtain ⟨hcoinbase, -, hall⟩ := h
    refine ⟨coinbase, rfl, by simpa using hcoinbase, ?_⟩
    exact (forM_eq_ok.mp hall) coinbase List.mem_cons_self

theorem VerifyCoinbaseAmount_go_sound :
    ∀ {l : List CTxOut} {remaining : CAmountMap} {R : CAsset -> Int},
      VerifyCoinbaseAmount.go g l remaining = true ->
      (∀ asset, (CAmountMap.get remaining asset).toInt = R asset) ->
      (∀ asset k, InInt64 (R asset - PaidIn g asset (l.take k))) ->
      (∀ txout ∈ l, txout.nValue.IsExplicit = true ∧ txout.nAsset.IsExplicit = true) ∧
        ∀ asset, PaidIn g asset l ≤ R asset
  | [], remaining, R, h, hR, _ => by
    refine ⟨fun _ ht => absurd ht List.not_mem_nil, fun asset => ?_⟩
    have hrange := MoneyRange_iff_toInt.mp (CAmountMap.MoneyRange_get h asset)
    rw [hR asset] at hrange
    simpa using hrange.1
  | out :: rest, remaining, R, h, hR, hsmall => by
    unfold VerifyCoinbaseAmount.go at h
    by_cases hexplicit : out.nValue.IsExplicit = true ∧ out.nAsset.IsExplicit = true
    · simp only [hexplicit, Bool.not_true, Bool.or_self, Bool.false_eq_true, if_false] at h
      split at h
      · rename_i asset amount hasset hamount
        simp only [Bool.not_eq_eq_eq_not, Bool.not_true] at h
        split_ifs at h with hrange hzero
        have hpaid : ∀ a, out.PaidIn g a = if a = asset then amount.toInt else 0 := by
          intro a
          by_cases ha : a = asset
          · subst ha
            simp [CTxOut.PaidIn, CTxOut.ExplicitValue, hasset, hexplicit.1, hamount]
          · have hne : some asset ≠ some a := fun heq => ha (Option.some.inj heq).symm
            simp [CTxOut.PaidIn, hasset, hne, ha]
        have hR' : ∀ a, (CAmountMap.get (CAmountMap.subAt remaining asset amount) a).toInt =
            R a - out.PaidIn g a := by
          intro a
          rw [hpaid a]
          by_cases ha : a = asset
          · subst ha
            have hfirst := hsmall a 1
            simp only [List.take_succ_cons, List.take_zero, PaidIn_cons, PaidIn_nil,
              hpaid, if_true, Int.add_zero] at hfirst
            rw [CAmountMap.get_subAt_self, toInt_sub_of_InInt64 (by rwa [hR a]), hR a, if_pos rfl]
          · rw [CAmountMap.get_subAt_ne remaining ha, hR a, if_neg ha, Int.sub_zero]
        have hsmall' : ∀ a k, InInt64 (R a - out.PaidIn g a - PaidIn g a (rest.take k)) := by
          intro a k
          have := hsmall a (k + 1)
          simp only [List.take_succ_cons, PaidIn_cons] at this
          rwa [Int.sub_sub]
        obtain ⟨ihexplicit, ihpaid⟩ := VerifyCoinbaseAmount_go_sound h hR' hsmall'
        refine ⟨fun t ht => ?_, fun a => ?_⟩
        · rcases List.mem_cons.mp ht with rfl | ht
          · exact hexplicit
          · exact ihexplicit t ht
        · have := ihpaid a
          simp only [PaidIn_cons]
          omega
      · cases h
    · -- a committed output fails the check
      have hfalse : (!out.nValue.IsExplicit || !out.nAsset.IsExplicit) = true := by
        cases hvalue : out.nValue.IsExplicit <;> cases hasset : out.nAsset.IsExplicit <;>
          simp_all
      simp [hfalse] at h

/-- The fee map with the subsidy added reads the fees plus the subsidy, asset
by asset, when the sum is in range. -/
theorem FeeLoop.get_addAt {vtx : List CTransaction} {fee_map : CAmountMap} (hfees : FeeLoop g vtx fee_map)
    (subsidy_asset : CAsset) (subsidy : CAmount)
    (hrange : CAmountMap.MoneyRange (CAmountMap.addAt fee_map subsidy_asset subsidy) = true)
    (asset : CAsset) :
    (CAmountMap.get (CAmountMap.addAt fee_map subsidy_asset subsidy) asset).toInt =
      BlockFeesIn g asset vtx + SubsidyIn subsidy_asset subsidy asset := by
  by_cases ha : asset = subsidy_asset
  · rw [ha, CAmountMap.get_addAt_self, toInt_add_of_MoneyRange
      (CAmountMap.MoneyRange_get hfees.in_range _)
      (by simpa using CAmountMap.MoneyRange_get hrange subsidy_asset), hfees.exact]
    simp [SubsidyIn]
  · rw [CAmountMap.get_addAt_ne _ ha, hfees.exact asset]
    simp [SubsidyIn, ha]

/-!
## The bound
-/

section Bound

variable {ctx : ConnectParams} {H : Hashes}

/-- In Elements mode, the coinbase of a block that `ConnectBlock` accepts,
other than the genesis block, pays in explicit outputs only and, in each asset,
at most the block's fees plus the subsidy in the subsidy asset; and every sum
the check forms on the way is in `int64_t` range. -/
theorem coinbase_within_fees_and_subsidy (hmode : g.g_con_elementsmode = true)
    {block : CBlock} {pindex : CBlockIndex} {view : ChainView}
    {setPeginsSpent : List CCoinsMapKey} {result : CBlockUndo × ChainView × List CCoinsMapKey}
    (hgenesis : block.GetHash H g ≠ some ctx.hashGenesisBlock)
    (h : ConnectBlock ctx g H block pindex view setPeginsSpent = Except.ok result) :
    ∃ coinbase, block.vtx.head? = some coinbase ∧ coinbase.IsCoinBase = true ∧
      (∀ txout ∈ coinbase.vout, txout.nValue.IsExplicit = true ∧ txout.nAsset.IsExplicit = true) ∧
      (∀ asset, PaidIn g asset coinbase.vout ≤ BlockFeesIn g asset block.vtx +
        SubsidyIn ctx.subsidy_asset (ctx.GetBlockSubsidy pindex.nHeight) asset) ∧
      RewardSumsInRange g block.vtx coinbase (fun asset => BlockFeesIn g asset block.vtx +
        SubsidyIn ctx.subsidy_asset (ctx.GetBlockSubsidy pindex.nHeight) asset) := by
  -- the block is checked, not the genesis block
  obtain ⟨hash, connected, coins, hasserts, hcalls, -⟩ := ConnectBlock_eq_ok h
  obtain ⟨hhash, -, -⟩ := ConnectBlockAsserts_eq_ok hasserts
  obtain ⟨rfl, -⟩ | ⟨-, hchecked⟩ := ConnectBlockCalls_eq_ok hcalls
  · exact absurd hhash hgenesis
  obtain ⟨hblock, loop, hloop, hreward, -⟩ := ConnectCheckedBlock_eq_ok hchecked
  obtain ⟨hrewardRange, coinbase, hhead, hcoinbase_ok⟩ := CheckBlockReward_eq_ok hreward
  obtain ⟨coinbase', hhead', hcoinbase, hcheck_cb⟩ :=
    CheckBlockTransactions_coinbase (CheckBlock_transactions hblock)
  rw [hhead] at hhead'
  obtain rfl := Option.some.inj hhead'
  obtain ⟨hnonneg, htotal⟩ :=
    CheckTransactionOutputs_sound (CheckTransaction_outputs hcheck_cb) rfl
  have hfees := ConnectTransactions_fee_map hmode hloop
  obtain ⟨R, hRdef⟩ : ∃ R : CAsset -> Int, R = fun asset => BlockFeesIn g asset block.vtx +
      SubsidyIn ctx.subsidy_asset (ctx.GetBlockSubsidy pindex.nHeight) asset := ⟨_, rfl⟩
  have hR : ∀ asset, (CAmountMap.get (CAmountMap.addAt loop.fee_map ctx.subsidy_asset
      (ctx.GetBlockSubsidy pindex.nHeight)) asset).toInt = R asset := by
    intro asset
    rw [hRdef]
    exact hfees.get_addAt _ _ hrewardRange asset
  have hRrange : ∀ asset, 0 ≤ R asset ∧ R asset ≤ 2100000000000000 := by
    intro asset
    rw [← hR asset]
    exact MoneyRange_iff_toInt.mp (CAmountMap.MoneyRange_get hrewardRange asset)
  have hpaid : ∀ asset k, 0 ≤ PaidIn g asset (coinbase.vout.take k) ∧
      PaidIn g asset (coinbase.vout.take k) ≤ 2100000000000000 := by
    intro asset k
    have hbounds := @PaidIn_bounds g (coinbase.vout.take k) asset
      fun t ht => hnonneg t (List.mem_of_mem_take ht)
    have := htotal k
    simp only [Int64.toInt_zero, Int.zero_add] at this
    omega
  have hsmall : ∀ asset k, InInt64 (R asset - PaidIn g asset (coinbase.vout.take k)) := by
    intro asset k
    have := hRrange asset
    have := hpaid asset k
    exact InInt64_of_abs_le_MAX_MONEY (by omega)
  simp only [VerifyCoinbaseAmount, Bool.and_eq_true] at hcoinbase_ok
  obtain ⟨hexplicit, hbound⟩ := VerifyCoinbaseAmount_go_sound hcoinbase_ok.2 hR hsmall
  rw [← hRdef]
  refine ⟨coinbase, hhead, hcoinbase, hexplicit, fun asset => ?_, ⟨?_, ?_, ?_, hsmall⟩⟩
  · simpa [hRdef] using hbound asset
  · -- the running fee totals of each transaction
    intro tx htx hcb asset k
    have := FeesIn_bounds ((HasValidFee_sound (hfees.valid_fees tx htx hcb)).1 k) asset
    exact InInt64_of_abs_le_MAX_MONEY (by omega)
  · -- the fee map after each transaction
    intro asset n
    have := hfees.prefixes _ (List.take_prefix n block.vtx) asset
    exact InInt64_of_abs_le_MAX_MONEY (by omega)
  · intro asset
    have := hRrange asset
    exact InInt64_of_abs_le_MAX_MONEY (by omega)

end Bound

/-!
## A block paying a fee

Elements mode, proof of work that always passes, a subsidy of five units of
one asset, and hash functions that keep the first 32 bytes of what they hash.
A transaction spends a coin of ten units, pays seven on and three as a fee,
and the coinbase takes the fee and the subsidy.
-/

def rewardGlobals : Globals := ⟨false, false, true⟩

def rewardAsset : CAsset := ⟨List.replicate 31 0 ++ [7], rfl⟩

def firstBytesHash (bytes : List UInt8) : Uint256 :=
  ⟨(bytes.take 32 ++ List.replicate 32 0).take 32, by
    simp only [List.length_take, List.length_append, List.length_replicate]
    omega⟩

def rewardHashes : Hashes :=
  ⟨firstBytesHash, firstBytesHash, fun _ => BaseBlob.zero 20, fun _ _ => BaseBlob.zero 32⟩

def rewardCheckParams : CheckBlockParams where
  consensus :=
    { hashGenesisBlock := BaseBlob.zero 32
      max_block_signature_size := 0
      signblockscript := []
      dynamic_epoch_length := 1
      total_valid_epochs := 0
      genesis_style := "elements"
      dynafed_nStartTime := 0
      fedpegScript := []
      start_p2wsh_script := false
      first_extension_space := [] }
  GenericVerifyScript := fun _ _ _ _ _ => false
  CheckProofOfWork := fun _ _ _ => true
  signet_blocks := false
  CheckSignetBlockSolution := fun _ => false
  GetLegacySigOpCount := fun _ => 0

def rewardParams : ConnectParams where
  pegin := ⟨false, BaseBlob.zero 32, rewardAsset, 0, false, fun _ _ _ _ _ _ => throw "no parent chain",
    fun _ _ _ => false⟩
  check := rewardCheckParams
  connect_genesis_outputs := true
  mandatory_coinbase_destination := []
  subsidy_asset := rewardAsset
  enforce_pak := false
  GetValidFedpegScripts := fun _ => []
  fScriptChecks := fun _ => true
  fEnforceBIP30 := fun _ => false
  IsPAKValidTx := fun _ _ => true
  SequenceLocks := fun _ _ _ => true
  GetTransactionSigOpCost := fun _ _ => 0
  VerifyAmounts := fun _ _ => true
  CheckInputScripts := fun _ _ => pure ()
  GetBlockSubsidy := fun _ => 5

def rewardOutput (amount : CAmount) (script : CScript) : CTxOut :=
  ⟨CConfidentialAsset.SetToAsset rewardAsset, CConfidentialValue.SetToAmount amount, ⟨[]⟩, script⟩

def rewardCoinbase (amount : CAmount) : CTransaction :=
  ⟨1, [⟨COutPoint.empty, [1, 1], CTxIn.SEQUENCE_FINAL, CAssetIssuance.empty, false⟩],
    [rewardOutput amount [0x51]], 0, CTxWitness.empty⟩

def fundingOutpoint : COutPoint := ⟨⟨List.replicate 31 0 ++ [3], rfl⟩, 0⟩

/-- Spends the coin at `fundingOutpoint`: seven units to `OP_TRUE`, and a fee
output of three. -/
def feeTx : CTransaction :=
  ⟨2, [⟨fundingOutpoint, [], CTxIn.SEQUENCE_FINAL, CAssetIssuance.empty, false⟩],
    [rewardOutput 7 [0x51], rewardOutput 3 []], 0, CTxWitness.empty⟩

def rewardBlock : CBlock :=
  CBlock.SetMerkleRoot rewardHashes rewardGlobals
    ⟨{ CBlockHeader.empty with nVersion := 1 }, [rewardCoinbase 8, feeTx]⟩

def rewardBlockIndex : CBlockIndex :=
  ⟨(rewardBlock.GetHash rewardHashes rewardGlobals).getD (BaseBlob.zero 32), 1,
    some (BaseBlob.zero 32)⟩

def fundedView : ChainView :=
  ⟨⟨fun o => if o = fundingOutpoint then some ⟨rewardOutput 10 [0x51], false, 0⟩ else none,
    fun _ => false⟩, BaseBlob.zero 32⟩

theorem coinbase_within_fees_and_subsidy_rewardBlock :
    rewardGlobals.g_con_elementsmode = true ∧
    rewardBlock.GetHash rewardHashes rewardGlobals ≠ some rewardParams.hashGenesisBlock ∧
    BlockFeesIn rewardGlobals rewardAsset rewardBlock.vtx = 3 ∧
    ∃ result, ConnectBlock rewardParams rewardGlobals rewardHashes rewardBlock rewardBlockIndex
      fundedView [] = Except.ok result ∧
    ∃ coinbase, rewardBlock.vtx.head? = some coinbase ∧ coinbase.IsCoinBase = true ∧
      (∀ txout ∈ coinbase.vout,
        txout.nValue.IsExplicit = true ∧ txout.nAsset.IsExplicit = true) ∧
      (∀ asset, PaidIn rewardGlobals asset coinbase.vout ≤
        BlockFeesIn rewardGlobals asset rewardBlock.vtx + SubsidyIn rewardParams.subsidy_asset
          (rewardParams.GetBlockSubsidy rewardBlockIndex.nHeight) asset) ∧
      RewardSumsInRange rewardGlobals rewardBlock.vtx coinbase (fun asset =>
        BlockFeesIn rewardGlobals asset rewardBlock.vtx + SubsidyIn rewardParams.subsidy_asset
          (rewardParams.GetBlockSubsidy rewardBlockIndex.nHeight) asset) := by
  have hgenesis : rewardBlock.GetHash rewardHashes rewardGlobals ≠
      some rewardParams.hashGenesisBlock := by
    decide
  have hconnects : (ConnectBlock rewardParams rewardGlobals rewardHashes rewardBlock
      rewardBlockIndex fundedView []).toOption.isSome = true := by
    decide +kernel
  obtain ⟨result, h⟩ : ∃ result, ConnectBlock rewardParams rewardGlobals rewardHashes rewardBlock
      rewardBlockIndex fundedView [] = Except.ok result := by
    cases hc : ConnectBlock rewardParams rewardGlobals rewardHashes rewardBlock rewardBlockIndex
      fundedView [] with
    | error e => rw [hc] at hconnects; cases hconnects
    | ok result => exact ⟨result, rfl⟩
  exact ⟨rfl, hgenesis, by decide, result, h, coinbase_within_fees_and_subsidy rfl hgenesis h⟩

def rewardGenesis : CBlock := ⟨CBlockHeader.empty, [rewardCoinbase 7]⟩

def rewardGenesisIndex : CBlockIndex := ⟨BaseBlob.zero 32, 0, none⟩

def emptyChainView : ChainView := ⟨⟨fun _ => none, fun _ => false⟩, BaseBlob.zero 32⟩

/-- The genesis block is accepted with a coinbase paying seven units where the
block has no fees and the subsidy is five. -/
theorem genesis_coinbase_exceeds_reward :
    rewardGlobals.g_con_elementsmode = true ∧
    rewardGenesis.GetHash rewardHashes rewardGlobals = some rewardParams.hashGenesisBlock ∧
    (ConnectBlock rewardParams rewardGlobals rewardHashes rewardGenesis rewardGenesisIndex
      emptyChainView []).toOption.isSome = true ∧
    rewardGenesis.vtx.head?.map (fun coinbase => PaidIn rewardGlobals rewardAsset coinbase.vout) =
      some 7 ∧
    BlockFeesIn rewardGlobals rewardAsset rewardGenesis.vtx + SubsidyIn rewardParams.subsidy_asset
      (rewardParams.GetBlockSubsidy rewardGenesisIndex.nHeight) rewardAsset = 5 :=
  ⟨rfl, by decide, rfl, by decide, by decide⟩

end Elements
