import Elements.Confidential.BlindTargets
import Elements.Data.ReservedVector

/-!
# The commitment buffer of `VerifyAmounts`

`VerifyAmounts` reserves `vData` for `vin + vout + GetNumIssuances(tx)`
commitments, takes `p = vData.data()`, and for each commitment it pushes
records `p` in `vpCommitsIn` or `vpCommitsOut` and advances it.  The balance
check reads the commitments through those pointers, so they are right only if
no push moved the buffer.

The input loop pushes one commitment per input and one per non-null amount of
its issuance, which is what `GetNumIssuances` counts; the output loop pushes at
most one per output.  `GetNumIssuances` counts in an `unsigned int`, so the
reservation is right while that count stays below `2 ^ 32`, which any
transaction the node can deserialize guarantees: its input vector holds at
most `MAX_SIZE` entries (`VerifyAmounts_commit_pointers_valid`).
-/

namespace Elements

open ExceptFold ReservedVector

/-- The pseudo-inputs an issuance adds: its non-null amounts, of the asset and
of the tokens. -/
def NumPseudoInputs (issuance : CAssetIssuance) : Nat :=
  (if issuance.nAmount.IsNull then 0 else 1) + (if issuance.nInflationKeys.IsNull then 0 else 1)

/-- One turn of the loop of `GetNumIssuances`, on its `unsigned int` counter. -/
def GetNumIssuancesStep (num_issuances : UInt32) (txin : CTxIn) : UInt32 :=
  if !txin.assetIssuance.IsNull then
    let num_issuances := if !txin.assetIssuance.nAmount.IsNull then num_issuances + 1 else num_issuances
    if !txin.assetIssuance.nInflationKeys.IsNull then num_issuances + 1 else num_issuances
  else num_issuances

/-- `GetNumIssuances`.  Its index is an `unsigned int` too; the model visits
each input once, as the loop does for fewer than `2 ^ 32` inputs. -/
def GetNumIssuances (tx : CTransaction) : UInt32 :=
  tx.vin.foldl GetNumIssuancesStep 0

theorem NumPseudoInputs_of_IsNull {issuance : CAssetIssuance} (h : issuance.IsNull = true) :
    NumPseudoInputs issuance = 0 := by
  simp only [CAssetIssuance.IsNull, Bool.and_eq_true] at h
  simp [NumPseudoInputs, h.1, h.2]

theorem NumPseudoInputs_le (issuance : CAssetIssuance) : NumPseudoInputs issuance ≤ 2 := by
  unfold NumPseudoInputs
  split <;> split <;> decide

theorem GetNumIssuancesStep_toNat (num_issuances : UInt32) (txin : CTxIn) :
    (GetNumIssuancesStep num_issuances txin).toNat =
      (num_issuances.toNat + NumPseudoInputs txin.assetIssuance) % 2 ^ 32 := by
  have hacc := num_issuances.toNat_lt
  unfold GetNumIssuancesStep NumPseudoInputs
  cases hamount : txin.assetIssuance.nAmount.IsNull <;>
    cases hkeys : txin.assetIssuance.nInflationKeys.IsNull <;>
    simp [CAssetIssuance.IsNull, hamount, hkeys, UInt32.toNat_add]

theorem foldl_GetNumIssuancesStep_toNat (vin : List CTxIn) (num_issuances : UInt32) :
    (vin.foldl GetNumIssuancesStep num_issuances).toNat =
      (num_issuances.toNat + (vin.map fun txin => NumPseudoInputs txin.assetIssuance).sum) % 2 ^ 32 := by
  induction vin generalizing num_issuances with
  | nil => simp [Nat.mod_eq_of_lt num_issuances.toNat_lt]
  | cons txin rest ih =>
    rw [List.foldl_cons, ih, GetNumIssuancesStep_toNat, List.map_cons, List.sum_cons,
      Nat.mod_add_mod, Nat.add_assoc]

theorem GetNumIssuances_toNat (tx : CTransaction) :
    (GetNumIssuances tx).toNat = (tx.vin.map fun txin => NumPseudoInputs txin.assetIssuance).sum % 2 ^ 32 := by
  rw [GetNumIssuances, foldl_GetNumIssuancesStep_toNat, UInt32.toNat_zero, Nat.zero_add]

theorem GetNumIssuances_toNat_of_lt {tx : CTransaction} (hvin : tx.vin.length < 2 ^ 31) :
    (GetNumIssuances tx).toNat = (tx.vin.map fun txin => NumPseudoInputs txin.assetIssuance).sum := by
  have hsum : (tx.vin.map fun txin => NumPseudoInputs txin.assetIssuance).sum ≤ tx.vin.length * 2 := by
    have := List.sum_le_card_nsmul (tx.vin.map fun txin => NumPseudoInputs txin.assetIssuance) 2
      (by simp [NumPseudoInputs_le])
    simpa using this
  rw [GetNumIssuances_toNat, Nat.mod_eq_of_lt (by omega)]

/-!
## How many commitments the loops push
-/

section Pushes

variable {G C P : Type} (secp : Secp256k1Zkp G C P) (H : Hashes) (g : Globals)

theorem IssuancePseudoInput_length {tx : CTransaction} {i : Nat} {asset : CAsset}
    {value : CConfidentialValue} {rangeproof : CTxInWitness -> List UInt8}
    {tally tally' : AmountTally G C}
    (h : IssuancePseudoInput secp g tx i asset value rangeproof tally = .ok tally') :
    tally'.vpCommitsIn.length = tally.vpCommitsIn.length + (if value.IsNull then 0 else 1) := by
  rcases IssuancePseudoInput_cases secp h with ⟨hnull, rfl⟩ | ⟨hnull, -, commit, gen, -, -, rfl⟩
  · simp [hnull]
  · simp [hnull]

theorem VerifyIssuance_length {tx : CTransaction} {i : Nat} {input : CTxOut} {txin : CTxIn}
    {tally tally' : AmountTally G C} (h : VerifyIssuance secp H g tx i input txin tally = .ok tally') :
    tally'.vpCommitsIn.length = tally.vpCommitsIn.length + NumPseudoInputs txin.assetIssuance := by
  obtain ⟨-, tally₁, h₁, h₂⟩ := VerifyIssuance_eq_ok secp h
  rw [IssuancePseudoInput_length secp g h₂, IssuancePseudoInput_length secp g h₁, NumPseudoInputs,
    Nat.add_assoc]

theorem VerifyAmountsInput_length {tx : CTransaction} {tally tally' : AmountTally G C}
    {entry : (CTxOut × CTxIn) × Nat} (h : VerifyAmountsInput secp H g tx tally entry = .ok tally') :
    tally'.vpCommitsIn.length =
      tally.vpCommitsIn.length + (1 + NumPseudoInputs entry.1.2.assetIssuance) := by
  obtain ⟨gen, commit, -, -, ⟨hnull, rfl⟩ | ⟨-, h⟩⟩ := VerifyAmountsInput_eq_ok secp h
  · rw [NumPseudoInputs_of_IsNull hnull, List.length_append, List.length_singleton]
  · rw [VerifyIssuance_length secp H g h, List.length_append, List.length_singleton, Nat.add_assoc]

theorem VerifyAmountsInputs_length {tx : CTransaction} {inputs : List CTxOut}
    {tally : AmountTally G C} (hlen : inputs.length = tx.vin.length)
    (h : (inputs.zip tx.vin).zipIdx.foldlM (VerifyAmountsInput secp H g tx) ⟨[], []⟩ = .ok tally) :
    tally.vpCommitsIn.length =
      tx.vin.length + (tx.vin.map fun txin => NumPseudoInputs txin.assetIssuance).sum := by
  have hrun := foldlM_length_eq AmountTally.vpCommitsIn
    (fun entry => 1 + NumPseudoInputs entry.1.2.assetIssuance)
    (fun _ _ _ hstep => VerifyAmountsInput_length secp H g hstep) h
  have hsel : ((inputs.zip tx.vin).zipIdx.map fun entry => entry.1.2) = tx.vin := by
    have hcomp : (fun entry : (CTxOut × CTxIn) × Nat => entry.1.2) = Prod.snd ∘ Prod.fst := rfl
    rw [hcomp, ← List.map_map, List.zipIdx_map_fst, List.map_snd_zip (Nat.le_of_eq hlen.symm)]
  have hcount : ((inputs.zip tx.vin).zipIdx.map fun entry => NumPseudoInputs entry.1.2.assetIssuance) =
      tx.vin.map fun txin => NumPseudoInputs txin.assetIssuance := by
    conv_rhs => rw [← hsel]
    rw [List.map_map]
    rfl
  have hentries : (inputs.zip tx.vin).zipIdx.length = tx.vin.length := by
    rw [List.length_zipIdx, List.length_zip, hlen, Nat.min_self]
  rw [hrun, List.sum_map_add, hcount]
  simp [hentries]

theorem VerifyAmountsOutput_length {vpCommitsOut vpCommitsOut' : List C} {txout : CTxOut}
    (h : VerifyAmountsOutput secp g vpCommitsOut txout = .ok vpCommitsOut') :
    vpCommitsOut'.length ≤ vpCommitsOut.length + 1 := by
  unfold VerifyAmountsOutput at h
  dsimp only at h
  split at h
  · simp at h
  · rw [bind_eq_ok] at h
    obtain ⟨gen, -, h⟩ := h
    -- every branch that succeeds returns the list, or the list and one commitment
    split_ifs at h <;> (repeat' split at h) <;> simp only [pure_eq_ok, throw_ne_ok] at h <;>
      (subst h; simp)

theorem VerifyAmountsOutputs_length {vout : List CTxOut} {vpCommitsOut : List C}
    (h : vout.foldlM (VerifyAmountsOutput secp g) [] = .ok vpCommitsOut) :
    vpCommitsOut.length ≤ vout.length := by
  simpa using foldlM_length_le id (fun _ _ _ hstep => VerifyAmountsOutput_length secp g hstep) h

end Pushes

/-!
## The buffer and its pointers
-/

/-- `vData` and the pointers `VerifyAmounts` keeps into it, with the running
pointer `p`. -/
structure CommitBuffer (C : Type) where
  vData : Vec C
  vpCommitsIn : List Ptr
  vpCommitsOut : List Ptr
  p : Ptr

namespace CommitBuffer

variable {C : Type}

/-- At entry: `vData.reserve(vin + vout + GetNumIssuances(tx))`, then
`p = vData.data()`. -/
def init (address : Nat) (tx : CTransaction) : CommitBuffer C :=
  let vData : Vec C :=
    Vec.reserve address (tx.vin.length + tx.vout.length + (GetNumIssuances tx).toNat)
  ⟨vData, [], [], vData.begin⟩

/-- `vData.push_back(commit); vpCommitsIn.push_back(p); p++;` -/
def pushIn (s : CommitBuffer C) (commit : C) : CommitBuffer C :=
  ⟨s.vData.push_back commit, s.vpCommitsIn ++ [s.p], s.vpCommitsOut, s.p.succ⟩

/-- `vData.push_back(commit); vpCommitsOut.push_back(p); p++;` -/
def pushOut (s : CommitBuffer C) (commit : C) : CommitBuffer C :=
  ⟨s.vData.push_back commit, s.vpCommitsIn, s.vpCommitsOut ++ [s.p], s.p.succ⟩

/-- The buffer at the balance check, once the input loop has pushed
`commitsIn` and the output loop `commitsOut`. -/
def balance (address : Nat) (tx : CTransaction) (commitsIn commitsOut : List C) : CommitBuffer C :=
  commitsOut.foldl pushOut (commitsIn.foldl pushIn (init address tx))

def reserved (tx : CTransaction) : Nat := tx.vin.length + tx.vout.length + (GetNumIssuances tx).toNat

theorem foldl_pushIn (s : CommitBuffer C) (commits : List C) :
    commits.foldl pushIn s = ⟨s.vData.pushAll commits, s.vpCommitsIn ++ s.p.run commits.length,
      s.vpCommitsOut, ⟨s.p.address, s.p.offset + commits.length⟩⟩ := by
  induction commits generalizing s with
  | nil => simp
  | cons commit commits ih =>
    rw [List.foldl_cons, ih]
    simp only [pushIn, Vec.pushAll_cons, List.length_cons, Ptr.run_succ, List.append_assoc,
      List.singleton_append, Ptr.succ, mk.injEq, Ptr.mk.injEq, true_and]
    omega

theorem foldl_pushOut (s : CommitBuffer C) (commits : List C) :
    commits.foldl pushOut s = ⟨s.vData.pushAll commits, s.vpCommitsIn,
      s.vpCommitsOut ++ s.p.run commits.length, ⟨s.p.address, s.p.offset + commits.length⟩⟩ := by
  induction commits generalizing s with
  | nil => simp
  | cons commit commits ih =>
    rw [List.foldl_cons, ih]
    simp only [pushOut, Vec.pushAll_cons, List.length_cons, Ptr.run_succ, List.append_assoc,
      List.singleton_append, Ptr.succ, mk.injEq, Ptr.mk.injEq, true_and]
    omega

theorem balance_eq (address : Nat) (tx : CTransaction) (commitsIn commitsOut : List C) :
    balance address tx commitsIn commitsOut =
      ⟨(Vec.reserve address (reserved tx)).pushAll (commitsIn ++ commitsOut),
        Ptr.run ⟨address, 0⟩ commitsIn.length, Ptr.run ⟨address, commitsIn.length⟩ commitsOut.length,
        ⟨address, commitsIn.length + commitsOut.length⟩⟩ := by
  simp only [balance, foldl_pushIn, foldl_pushOut, init, reserved, Vec.begin, Vec.pushAll_append,
    Vec.reserve_address, List.nil_append, Nat.zero_add]

theorem balance_reads {address : Nat} {tx : CTransaction} {commitsIn commitsOut : List C}
    (hfits : commitsIn.length + commitsOut.length ≤ reserved tx) :
    let s := balance address tx commitsIn commitsOut
    s.vData.address = address ∧ s.vpCommitsIn.map s.vData.deref = commitsIn.map some ∧
      s.vpCommitsOut.map s.vData.deref = commitsOut.map some := by
  intro s
  have hroom : (Vec.reserve address (reserved tx) : Vec C).data.length +
      (commitsIn ++ commitsOut).length ≤ (Vec.reserve address (reserved tx) : Vec C).capacity := by
    simpa using hfits
  have haddress : s.vData.address = address := by
    simp only [s, balance_eq]
    exact Vec.pushAll_address_of_fits hroom
  have hdata : s.vData.data = commitsIn ++ commitsOut := by simp [s, balance_eq]
  refine ⟨haddress, ?_, ?_⟩
  · -- the input pointers read the first `commitsIn.length` commitments
    have hreads := @Vec.map_deref_run C s.vData 0 commitsIn.length
      (by rw [hdata, List.length_append]; omega)
    rw [haddress, hdata, List.drop_zero, List.take_left] at hreads
    simpa [s, balance_eq] using hreads
  · -- the output pointers read the rest
    have hreads := @Vec.map_deref_run C s.vData commitsIn.length commitsOut.length
      (by rw [hdata, List.length_append])
    rw [haddress, hdata, List.drop_left, List.take_length] at hreads
    simpa [s, balance_eq] using hreads

end CommitBuffer

/-!
## The pointers at the balance check
-/

section Pointers

variable {G C P : Type} (secp : Secp256k1Zkp G C P) (H : Hashes) (g : Globals)

/-- When `VerifyAmounts` reaches its balance check on a transaction whose
inputs a `CompactSize` prefix can announce, it has pushed no more commitments
than it reserved, so `vData` is where `p` was taken and every pointer in
`vpCommitsIn` and `vpCommitsOut` reads the commitment pushed with it. -/
theorem VerifyAmounts_commit_pointers_valid (address : Nat) (tx : CTransaction)
    (inputs : List CTxOut) (tally : AmountTally G C) (vpCommitsOut : List C)
    (hvin : tx.vin.length ≤ MAX_SIZE) (hlen : inputs.length = tx.vin.length)
    (hin : (inputs.zip tx.vin).zipIdx.foldlM (VerifyAmountsInput secp H g tx) ⟨[], []⟩ = .ok tally)
    (hout : tx.vout.foldlM (VerifyAmountsOutput secp g) [] = .ok vpCommitsOut) :
    tally.vpCommitsIn.length + vpCommitsOut.length ≤
        tx.vin.length + tx.vout.length + (GetNumIssuances tx).toNat ∧
      let s := CommitBuffer.balance address tx tally.vpCommitsIn vpCommitsOut
      s.vData.address = address ∧ s.vpCommitsIn.map s.vData.deref = tally.vpCommitsIn.map some ∧
        s.vpCommitsOut.map s.vData.deref = vpCommitsOut.map some := by
  have hpushes : tally.vpCommitsIn.length + vpCommitsOut.length ≤
      tx.vin.length + tx.vout.length + (GetNumIssuances tx).toNat := by
    have hout' := VerifyAmountsOutputs_length secp g hout
    have hvin' : tx.vin.length < 2 ^ 31 := Nat.lt_of_le_of_lt hvin (by decide)
    rw [VerifyAmountsInputs_length secp H g hlen hin, GetNumIssuances_toNat_of_lt hvin']
    omega
  exact ⟨hpushes, CommitBuffer.balance_reads hpushes⟩

end Pointers

/-!
## An issuance and a burnt output

`issuanceInput` issues 10 units and one token, both explicit, and spends 5
units of `assetA`; the transaction pays them out and burns an explicit zero.
Four commitments are pushed into a reservation of five.
-/

def burnOutput : CTxOut :=
  ⟨CConfidentialAsset.SetToAsset assetA, CConfidentialValue.SetToAmount 0, ⟨[]⟩, [OP_RETURN]⟩

def bufferTx : CTransaction :=
  ⟨2, [issuanceInput], [paymentOutput, burnOutput], 0, ⟨[CTxInWitness.empty], []⟩⟩

def bufferTally : AmountTally FreeGenerator FreeCommitment :=
  ⟨[.generate assetA, .generate (CalculateAsset sumHashes issuanceEntropy),
      .generate (CalculateReissuanceToken sumHashes issuanceEntropy false)],
    [.commit explicit_blinds 5 (.generate assetA),
      .commit explicit_blinds 10 (.generate (CalculateAsset sumHashes issuanceEntropy)),
      .commit explicit_blinds 1 (.generate (CalculateReissuanceToken sumHashes issuanceEntropy false))]⟩

theorem VerifyAmounts_commit_pointers_valid_bufferTx :
    bufferTx.vin.length ≤ MAX_SIZE ∧ [paymentOutput].length = bufferTx.vin.length ∧
      ([paymentOutput].zip bufferTx.vin).zipIdx.foldlM
          (VerifyAmountsInput FreeSecp sumHashes blindGlobals bufferTx) ⟨[], []⟩ = .ok bufferTally ∧
      bufferTx.vout.foldlM (VerifyAmountsOutput FreeSecp blindGlobals) [] =
        .ok [.commit explicit_blinds 5 (.generate assetA)] ∧
      (bufferTally.vpCommitsIn.length + 1 ≤
          bufferTx.vin.length + bufferTx.vout.length + (GetNumIssuances bufferTx).toNat ∧
        let s := CommitBuffer.balance 0 bufferTx bufferTally.vpCommitsIn
          [.commit explicit_blinds 5 (.generate assetA)]
        s.vData.address = 0 ∧ s.vpCommitsIn.map s.vData.deref = bufferTally.vpCommitsIn.map some ∧
          s.vpCommitsOut.map s.vData.deref =
            [FreeCommitment.commit explicit_blinds 5 (.generate assetA)].map some) := by
  have hvin : bufferTx.vin.length ≤ MAX_SIZE := by decide
  have hin : ([paymentOutput].zip bufferTx.vin).zipIdx.foldlM
      (VerifyAmountsInput FreeSecp sumHashes blindGlobals bufferTx) ⟨[], []⟩ = .ok bufferTally := rfl
  have hout : bufferTx.vout.foldlM (VerifyAmountsOutput FreeSecp blindGlobals) [] =
      .ok [.commit explicit_blinds 5 (.generate assetA)] := by decide
  exact ⟨hvin, rfl, hin, hout, VerifyAmounts_commit_pointers_valid FreeSecp sumHashes blindGlobals 0
    bufferTx [paymentOutput] bufferTally _ hvin rfl hin hout⟩

end Elements
