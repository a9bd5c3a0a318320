import Elements.Primitives.Transaction
import Mathlib.Data.List.AList

/-!
# Amounts and amount maps

`amount.h` and `asset.h`: amounts are counted in base units and must lie in
`[0, MAX_MONEY]`; the tallies of an Elements transaction are kept per asset in
a `CAmountMap`, in which an asset that is not present counts as zero.

`CAmount` is an `int64_t`; the source's arithmetic on it is kept as `Int64`
arithmetic, which wraps where the C++ would overflow.
-/

namespace Elements

def COIN : CAmount := 100000000

def MAX_MONEY : CAmount := 21000000 * COIN

def MoneyRange (nValue : CAmount) : Bool :=
  decide (0 ≤ nValue) && decide (nValue ≤ MAX_MONEY)

/-- `CAsset`: the 32-byte id of an asset. -/
abbrev CAsset := Uint256

/-- `CConfidentialAsset::GetAsset`; `none` is the `assert(IsExplicit())` or the
size assert of the `CAsset` built from the bytes after the prefix. -/
def CConfidentialAsset.GetAsset (a : CConfidentialAsset) : Option CAsset :=
  if a.IsExplicit then
    if h : (a.vchCommitment.drop 1).length = 32 then some ⟨a.vchCommitment.drop 1, h⟩ else none
  else none

/-- `CAmountMap`, a `std::map<CAsset, CAmount>`. -/
abbrev CAmountMap := AList (fun _ : CAsset => CAmount)

namespace CAmountMap

/-- `mapValue[asset]` read: zero for an asset that is not present. -/
def get (m : CAmountMap) (asset : CAsset) : CAmount :=
  (m.lookup asset).getD 0

/-- `mapValue[asset] += amount`. -/
def addAt (m : CAmountMap) (asset : CAsset) (amount : CAmount) : CAmountMap :=
  m.insert asset (get m asset + amount)

/-- `mapValue[asset] -= amount`. -/
def subAt (m : CAmountMap) (asset : CAsset) (amount : CAmount) : CAmountMap :=
  m.insert asset (get m asset - amount)

/-- `operator+=`: every amount of `b` added at its asset. -/
def add (a b : CAmountMap) : CAmountMap :=
  b.entries.foldl (fun acc entry => addAt acc entry.1 entry.2) a

/-- `MoneyRange(const CAmountMap&)`: every amount present is in range. -/
def MoneyRange (m : CAmountMap) : Bool :=
  m.entries.all fun entry => Elements.MoneyRange entry.2

@[simp] theorem get_empty (asset : CAsset) : get ∅ asset = 0 := rfl

@[simp] theorem get_addAt_self (m : CAmountMap) (asset : CAsset) (amount : CAmount) :
    get (addAt m asset amount) asset = get m asset + amount := by
  simp [get, addAt]

theorem get_addAt_ne (m : CAmountMap) {asset asset' : CAsset} (h : asset' ≠ asset)
    (amount : CAmount) : get (addAt m asset amount) asset' = get m asset' := by
  simp [get, addAt, AList.lookup_insert_ne h]

@[simp] theorem get_subAt_self (m : CAmountMap) (asset : CAsset) (amount : CAmount) :
    get (subAt m asset amount) asset = get m asset - amount := by
  simp [get, subAt]

theorem get_subAt_ne (m : CAmountMap) {asset asset' : CAsset} (h : asset' ≠ asset)
    (amount : CAmount) : get (subAt m asset amount) asset' = get m asset' := by
  simp [get, subAt, AList.lookup_insert_ne h]

private theorem get_foldl_addAt (asset : CAsset) :
    ∀ (l : List (Sigma fun _ : CAsset => CAmount)) (m : CAmountMap), l.NodupKeys ->
      get (l.foldl (fun acc entry => addAt acc entry.1 entry.2) m) asset =
        get m asset + (l.dlookup asset).getD 0
  | [], m, _ => by simp
  | ⟨key, amount⟩ :: rest, m, hnodup => by
    rw [List.nodupKeys_cons] at hnodup
    rw [List.foldl_cons, get_foldl_addAt asset rest _ hnodup.2]
    by_cases h : asset = key
    · -- the asset's one entry; the rest has none
      subst h
      have hrest : rest.dlookup asset = none := List.dlookup_eq_none.mpr hnodup.1
      simp [hrest, List.dlookup_cons_eq]
    · rw [get_addAt_ne m h, List.dlookup_cons_ne _ _ h]

theorem get_add (a b : CAmountMap) (asset : CAsset) :
    get (add a b) asset = get a asset + get b asset := by
  rw [add, get_foldl_addAt asset b.entries a b.nodupKeys]
  rfl

theorem MoneyRange_iff (m : CAmountMap) :
    MoneyRange m = true ↔ ∀ asset amount, m.lookup asset = some amount ->
      Elements.MoneyRange amount = true := by
  simp only [MoneyRange, List.all_eq_true]
  constructor
  · intro h asset amount hlookup
    exact h ⟨asset, amount⟩ (AList.mem_lookup_iff.mp hlookup)
  · rintro h ⟨asset, amount⟩ hmem
    exact h asset amount (AList.mem_lookup_iff.mpr hmem)

theorem MoneyRange_get {m : CAmountMap} (h : MoneyRange m = true) (asset : CAsset) :
    Elements.MoneyRange (get m asset) = true := by
  unfold get
  cases hlookup : m.lookup asset with
  | none => rfl
  | some amount => exact (MoneyRange_iff m).mp h asset amount hlookup

end CAmountMap

/-!
## Exact arithmetic

`CAmount` arithmetic wraps at `2^64`.  Read as integers, a sum or difference
whose exact value is in `int64_t` range is that value, and a sum of an amount
in range with any amount that lands in range did not wrap.
-/

def InInt64 (x : Int) : Prop :=
  -2 ^ 63 ≤ x ∧ x < 2 ^ 63

theorem MAX_MONEY_toInt : MAX_MONEY.toInt = 2100000000000000 := by
  decide

theorem MoneyRange_iff_toInt {v : CAmount} :
    MoneyRange v = true ↔ 0 ≤ v.toInt ∧ v.toInt ≤ 2100000000000000 := by
  rw [← MAX_MONEY_toInt]
  simp [MoneyRange, Int64.le_iff_toInt_le]

/-- An amount in range passed on as a `uint64_t` keeps its value. -/
theorem toNat_toUInt64_of_MoneyRange {v : CAmount} (h : MoneyRange v = true) : (v.toUInt64.toNat : Int) = v.toInt := by
  have hle : 0 ≤ v.toBitVec.toInt := by
    rw [Int64.toInt_toBitVec]
    exact (MoneyRange_iff_toInt.mp h).1
  rw [← UInt64.toNat_toBitVec, Int64.toBitVec_toUInt64, ← Int64.toInt_toBitVec]
  rw [BitVec.toInt_eq_toNat_cond] at hle ⊢
  split_ifs at hle ⊢
  · rfl
  · have := v.toBitVec.isLt
    omega

theorem InInt64_of_abs_le_MAX_MONEY {x : Int} (h : -2100000000000000 ≤ x ∧ x ≤ 4200000000000000) :
    InInt64 x := by
  unfold InInt64
  omega

theorem toInt_sub_of_InInt64 {a b : CAmount} (h : InInt64 (a.toInt - b.toInt)) :
    (a - b).toInt = a.toInt - b.toInt := by
  rw [Int64.toInt_sub]
  exact Int.bmod_eq_of_le (by unfold InInt64 at h; omega) (by unfold InInt64 at h; omega)

theorem toInt_add_of_MoneyRange {a b : CAmount} (ha : MoneyRange a = true)
    (hab : MoneyRange (a + b) = true) : (a + b).toInt = a.toInt + b.toInt := by
  rw [MoneyRange_iff_toInt] at ha hab
  have hb := Int64.le_toInt b
  have hb' := Int64.toInt_lt b
  obtain ⟨k, hk⟩ : ((2 ^ 64 : Nat) : Int) ∣ (a + b).toInt - (a.toInt + b.toInt) := by
    rw [Int64.toInt_add]
    exact Int.dvd_bmod_sub_self
  push_cast at hk
  omega

end Elements
