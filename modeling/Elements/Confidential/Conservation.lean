import Elements.Confidential.CommitBuffer

/-!
# Value conservation

What `VerifyAmounts` proves of a transaction whose amounts and assets are
explicit.  libsecp256k1-zkp is read in the free abelian group on the asset
generators (`Secp256k1Zkp.FreeTally`): a commitment to an explicit value `v`
under the generator `H_A` of asset `A` is `v·H_A`, the tally holds when the two
sides have the same sum, and distinct assets have distinct generators; `coeff
gen c` is the multiple of `gen` in `c`.

Read so, a step of the input loop adds to the input side, for every asset, what
the input holds of it and what the input's issuance makes of it, and a step of
the output loop adds to the output side what the output pays
(`VerifyAmountsInput_coeff`, `VerifyAmountsOutput_coeff`).  An accepted
transaction therefore balances asset by asset (`VerifyAmounts_conserves`).  A
reissuance never passes with explicit inputs, since the token it spends must
be a blinded generator, so every issuance counted is a new one.

Whatever libsecp256k1-zkp computes, an accepted transaction has its explicit
amounts in the money range, no explicit issuance of zero, and no spendable
explicit output of zero (`VerifyAmounts_explicit_amounts`).
-/

namespace Elements

open ExceptFold

/-! ## What a transaction holds of an asset -/

section Amounts

/-- The amount of an explicit value; zero for a null value or a commitment. -/
def ExplicitAmount (g : Globals) (value : CConfidentialValue) : Int :=
  if value.IsExplicit then ((value.GetAmount g).map Int64.toInt).getD 0 else 0

/-- What `txout` holds of asset `A`. -/
def AmountOfAsset (g : Globals) (A : CAsset) (txout : CTxOut) : Int :=
  if txout.nAsset.GetAsset = some A then ExplicitAmount g txout.nValue else 0

/-- What the issuance of `txin` makes of asset `A` as a new issuance: its
amount of the asset it issues, its inflation keys of the reissuance token. -/
def IssuedOfAsset (H : Hashes) (g : Globals) (A : CAsset) (txin : CTxIn) : Int :=
  let entropy := GenerateAssetEntropy H txin.prevout txin.assetIssuance.assetEntropy
  (if CalculateAsset H entropy = A then ExplicitAmount g txin.assetIssuance.nAmount else 0) +
    (if CalculateReissuanceToken H entropy txin.assetIssuance.nAmount.IsCommitment = A then
      ExplicitAmount g txin.assetIssuance.nInflationKeys else 0)

/-- Every amount and asset of the transaction and of the outputs it spends is
explicit, and so is every issuance amount that is not null. -/
structure AllExplicit (inputs : List CTxOut) (tx : CTransaction) : Prop where
  inputs : ∀ txout ∈ inputs, txout.nValue.IsExplicit = true ∧ txout.nAsset.IsExplicit = true
  outputs : ∀ txout ∈ tx.vout, txout.nValue.IsExplicit = true ∧ txout.nAsset.IsExplicit = true
  issuances : ∀ txin ∈ tx.vin,
    (txin.assetIssuance.nAmount.IsNull = true ∨ txin.assetIssuance.nAmount.IsExplicit = true) ∧
      (txin.assetIssuance.nInflationKeys.IsNull = true ∨ txin.assetIssuance.nInflationKeys.IsExplicit = true)

theorem CConfidentialCommitment.IsExplicit_of_IsNull {ExplicitSize : Nat} {PrefixA PrefixB : UInt8}
    {c : CConfidentialCommitment ExplicitSize PrefixA PrefixB} (h : c.IsNull = true) : c.IsExplicit = false := by
  simp only [CConfidentialCommitment.IsNull, List.isEmpty_iff] at h
  simp [CConfidentialCommitment.IsExplicit, h]

theorem ExplicitAmount_of_IsNull {g : Globals} {value : CConfidentialValue} (h : value.IsNull = true) :
    ExplicitAmount g value = 0 := by
  rw [ExplicitAmount, CConfidentialCommitment.IsExplicit_of_IsNull h]
  rfl

theorem ExplicitAmount_of_GetAmount {g : Globals} {value : CConfidentialValue} {amount : CAmount}
    (hexp : value.IsExplicit = true) (h : value.GetAmount g = some amount) :
    ExplicitAmount g value = amount.toInt := by
  rw [ExplicitAmount, if_pos hexp, h]
  rfl

theorem IssuedOfAsset_of_IsNull (H : Hashes) (g : Globals) (A : CAsset) {txin : CTxIn}
    (h : txin.assetIssuance.IsNull = true) : IssuedOfAsset H g A txin = 0 := by
  rw [CAssetIssuance.IsNull, Bool.and_eq_true] at h
  simp [IssuedOfAsset, ExplicitAmount_of_IsNull h.1, ExplicitAmount_of_IsNull h.2]

/-- The entries of the input loop pair each spent output with its input. -/
theorem map_zipIdx_zip_fst {α β γ : Type} (f : α → γ) {l₁ : List α} {l₂ : List β}
    (hlen : l₁.length = l₂.length) : ((l₁.zip l₂).zipIdx.map fun e => f e.1.1) = l₁.map f := by
  have hcomp : (fun e : (α × β) × Nat => f e.1.1) = f ∘ Prod.fst ∘ Prod.fst := rfl
  rw [hcomp, ← List.map_map, ← List.map_map, List.zipIdx_map_fst, List.map_fst_zip (Nat.le_of_eq hlen)]

theorem map_zipIdx_zip_snd {α β γ : Type} (f : β → γ) {l₁ : List α} {l₂ : List β}
    (hlen : l₁.length = l₂.length) : ((l₁.zip l₂).zipIdx.map fun e => f e.1.2) = l₂.map f := by
  have hcomp : (fun e : (α × β) × Nat => f e.1.2) = f ∘ Prod.snd ∘ Prod.fst := rfl
  rw [hcomp, ← List.map_map, ← List.map_map, List.zipIdx_map_fst, List.map_snd_zip (Nat.le_of_eq hlen.symm)]

end Amounts

/-! ## One step of each loop -/

section Steps

variable {G C P : Type} (secp : Secp256k1Zkp G C P)

theorem AssetGenerator_explicit {asset : CConfidentialAsset} {gen : G} (hexp : asset.IsExplicit = true)
    (h : AssetGenerator secp asset = .ok gen) :
    ∃ a, asset.GetAsset = some a ∧ secp.generator_generate a = some gen := by
  unfold AssetGenerator at h
  rw [if_pos hexp] at h
  split at h
  · rename_i gen' hgen
    rw [pure_eq_ok] at h
    subst h
    exact Option.bind_eq_some_iff.mp hgen
  · exact absurd h throw_ne_ok

theorem InputValueCommitment_explicit {g : Globals} {value : CConfidentialValue} {gen : G} {c : C}
    (hexp : value.IsExplicit = true) (h : InputValueCommitment secp g value gen = .ok c) :
    ∃ amount, value.GetAmount g = some amount ∧ MoneyRange amount = true ∧
      secp.pedersen_commit explicit_blinds amount.toUInt64 gen = some c := by
  unfold InputValueCommitment at h
  rw [if_pos hexp] at h
  split at h
  · exact absurd h throw_ne_ok
  · rename_i amount hamount
    by_cases hrange : MoneyRange amount = true
    · rw [if_neg (by simp [hrange])] at h
      split at h
      · rename_i c' hc
        rw [pure_eq_ok] at h
        subst h
        exact ⟨amount, hamount, hrange, hc⟩
      · exact absurd h throw_ne_ok
    · rw [if_pos (by simpa using hrange)] at h
      exact absurd h throw_ne_ok

theorem VerifyIssuanceAmount_explicit {g : Globals} {asset : CAsset} {value : CConfidentialValue}
    {rangeproof : List UInt8} {c : C} {gen : G} (hexp : value.IsExplicit = true)
    (h : VerifyIssuanceAmount secp g asset value rangeproof = .ok (c, gen)) :
    secp.generator_generate asset = some gen ∧ ∃ amount, value.GetAmount g = some amount ∧
      MoneyRange amount = true ∧ amount ≠ 0 ∧ secp.pedersen_commit explicit_blinds amount.toUInt64 gen = some c := by
  unfold VerifyIssuanceAmount at h
  split at h
  · exact absurd h throw_ne_ok
  · rename_i asset_gen hgen
    rw [if_pos hexp] at h
    split at h
    · exact absurd h throw_ne_ok
    · rename_i amount hamount
      simp only [ite_throw_eq_ok] at h
      obtain ⟨hbad, -, h⟩ := h
      split at h
      · rename_i c' hc
        rw [pure_eq_ok, Prod.mk.injEq] at h
        obtain ⟨rfl, rfl⟩ := h
        simp only [Bool.or_eq_true, Bool.not_eq_eq_eq_not, Bool.not_true, beq_iff_eq, not_or] at hbad
        exact ⟨hgen, amount, hamount, by simpa using hbad.1, hbad.2, hc⟩
      · exact absurd h throw_ne_ok

/-- An explicit issuance amount that passed is in range and not zero. -/
theorem IssuancePseudoInput_explicit {g : Globals} {tx : CTransaction} {i : Nat} {asset : CAsset}
    {value : CConfidentialValue} {rangeproof : CTxInWitness -> List UInt8} {tally tally' : AmountTally G C}
    (h : IssuancePseudoInput secp g tx i asset value rangeproof tally = .ok tally') (hexp : value.IsExplicit = true) :
    ∃ amount, value.GetAmount g = some amount ∧ MoneyRange amount = true ∧ amount ≠ 0 := by
  rcases IssuancePseudoInput_cases secp h with ⟨hnull, -⟩ | ⟨-, _, commit, gen, -, hamount, -⟩
  · rw [CConfidentialCommitment.IsExplicit_of_IsNull hnull] at hexp
    cases hexp
  · obtain ⟨-, amount, hget, hrange, hne, -⟩ := VerifyIssuanceAmount_explicit secp hexp hamount
    exact ⟨amount, hget, hrange, hne⟩

theorem VerifyAmountsInput_explicit {H : Hashes} {g : Globals} {tx : CTransaction}
    {tally tally' : AmountTally G C} {entry : (CTxOut × CTxIn) × Nat}
    (h : VerifyAmountsInput secp H g tx tally entry = .ok tally') :
    (entry.1.1.nValue.IsExplicit = true →
      ∃ amount, entry.1.1.nValue.GetAmount g = some amount ∧ MoneyRange amount = true) ∧
    ∀ value ∈ [entry.1.2.assetIssuance.nAmount, entry.1.2.assetIssuance.nInflationKeys],
      value.IsExplicit = true → ∃ amount, value.GetAmount g = some amount ∧ MoneyRange amount = true ∧ amount ≠ 0 := by
  unfold VerifyAmountsInput at h
  simp only [ite_throw_eq_ok, bind_eq_ok] at h
  obtain ⟨-, gen, -, commit, hcommit, h⟩ := h
  refine ⟨fun hexp => ?_, fun value hvalue hexp => ?_⟩
  · obtain ⟨amount, hamount, hrange, -⟩ := InputValueCommitment_explicit secp hexp hcommit
    exact ⟨amount, hamount, hrange⟩
  cases hnull : entry.1.2.assetIssuance.IsNull with
  | true =>
    -- a null issuance has two null amounts
    rw [CAssetIssuance.IsNull, Bool.and_eq_true] at hnull
    rcases List.mem_pair.mp hvalue with rfl | rfl
    · rw [CConfidentialCommitment.IsExplicit_of_IsNull hnull.1] at hexp
      cases hexp
    · rw [CConfidentialCommitment.IsExplicit_of_IsNull hnull.2] at hexp
      cases hexp
  | false =>
    simp only [hnull, Bool.false_eq_true, if_false] at h
    unfold VerifyIssuance at h
    simp only [bind_eq_ok, ite_throw_eq_ok] at h
    obtain ⟨_, -, -, tally₁, h₁, -, -, h₂⟩ := h
    rcases List.mem_pair.mp hvalue with rfl | rfl
    · exact IssuancePseudoInput_explicit secp h₁ hexp
    · exact IssuancePseudoInput_explicit secp h₂ hexp

/-- The explicit branch of the output loop: an explicit zero is burnt, any
other explicit value is committed under the output's generator. -/
theorem VerifyAmountsOutput_explicit_eq_ok {g : Globals} {vpCommitsOut vpCommitsOut' : List C} {txout : CTxOut}
    (hexp : txout.nValue.IsExplicit = true) (h : VerifyAmountsOutput secp g vpCommitsOut txout = .ok vpCommitsOut') :
    ∃ gen amount, AssetGenerator secp txout.nAsset = .ok gen ∧ txout.nValue.GetAmount g = some amount ∧
      MoneyRange amount = true ∧
      ((amount = 0 ∧ txout.scriptPubKey.IsUnspendable g = true ∧ vpCommitsOut' = vpCommitsOut) ∨
        (amount ≠ 0 ∧ ∃ c, secp.pedersen_commit explicit_blinds amount.toUInt64 gen = some c ∧
          vpCommitsOut' = vpCommitsOut ++ [c])) := by
  unfold VerifyAmountsOutput at h
  simp only [throw_bind, ite_throw_eq_ok, bind_eq_ok, hexp, if_true] at h
  obtain ⟨-, gen, hgen, h⟩ := h
  split at h
  · exact absurd h throw_ne_ok
  · rename_i amount hamount
    rw [ite_throw_eq_ok] at h
    obtain ⟨hrange, h⟩ := h
    refine ⟨gen, amount, hgen, hamount, by simpa using hrange, ?_⟩
    by_cases hzero : (amount == 0) = true
    · rw [if_pos hzero] at h
      by_cases hspend : txout.scriptPubKey.IsUnspendable g = true
      · rw [if_pos hspend, pure_eq_ok] at h
        exact .inl ⟨by simpa using hzero, hspend, h.symm⟩
      · rw [if_neg hspend] at h
        exact absurd h throw_ne_ok
    · rw [if_neg hzero] at h
      split at h
      · rename_i c hc
        exact .inr ⟨by simpa using hzero, c, hc, (pure_eq_ok.mp h).symm⟩
      · exact absurd h throw_ne_ok

theorem VerifyAmountsOutput_explicit {g : Globals} {vpCommitsOut vpCommitsOut' : List C} {txout : CTxOut}
    (h : VerifyAmountsOutput secp g vpCommitsOut txout = .ok vpCommitsOut') (hexp : txout.nValue.IsExplicit = true) :
    ∃ amount, txout.nValue.GetAmount g = some amount ∧ MoneyRange amount = true ∧
      (amount = 0 → txout.scriptPubKey.IsUnspendable g = true) := by
  obtain ⟨_, amount, -, hamount, hrange, hcases⟩ := VerifyAmountsOutput_explicit_eq_ok secp hexp h
  refine ⟨amount, hamount, hrange, fun h0 => ?_⟩
  rcases hcases with ⟨-, hspend, -⟩ | ⟨hne, -⟩
  · exact hspend
  · exact absurd h0 hne

/-- Whatever libsecp256k1-zkp computes, an accepted transaction has its
explicit amounts in range, no explicit issuance of zero and no spendable
explicit output of zero. -/
theorem VerifyAmounts_explicit_amounts {H : Hashes} {g : Globals} {inputs : List CTxOut} {tx : CTransaction}
    (hok : VerifyAmounts secp H g inputs tx = .ok ()) :
    (∀ txout ∈ inputs, txout.nValue.IsExplicit = true →
      ∃ amount, txout.nValue.GetAmount g = some amount ∧ MoneyRange amount = true) ∧
    (∀ txin ∈ tx.vin, ∀ value ∈ [txin.assetIssuance.nAmount, txin.assetIssuance.nInflationKeys],
      value.IsExplicit = true → ∃ amount, value.GetAmount g = some amount ∧ MoneyRange amount = true ∧ amount ≠ 0) ∧
    (∀ txout ∈ tx.vout, txout.nValue.IsExplicit = true →
      ∃ amount, txout.nValue.GetAmount g = some amount ∧ MoneyRange amount = true ∧
        (amount = 0 → txout.scriptPubKey.IsUnspendable g = true)) := by
  obtain ⟨hlen, tally, vpCommitsOut, hin, hout, -⟩ := VerifyAmounts_eq_ok secp hok
  refine ⟨fun txout hmem hexp => ?_, fun txin hmem value hvalue hexp => ?_, fun txout hmem hexp => ?_⟩
  · -- the entry of the input loop that spends `txout`
    have hentry : txout ∈ (inputs.zip tx.vin).zipIdx.map fun e => id e.1.1 := by
      rw [map_zipIdx_zip_fst id hlen, List.map_id]
      exact hmem
    obtain ⟨e, he, rfl⟩ := List.mem_map.mp hentry
    obtain ⟨_, _, hstep⟩ := foldlM_step_of_mem hin he
    exact (VerifyAmountsInput_explicit secp hstep).1 hexp
  · have hentry : txin ∈ (inputs.zip tx.vin).zipIdx.map fun e => id e.1.2 := by
      rw [map_zipIdx_zip_snd id hlen, List.map_id]
      exact hmem
    obtain ⟨e, he, rfl⟩ := List.mem_map.mp hentry
    obtain ⟨_, _, hstep⟩ := foldlM_step_of_mem hin he
    exact (VerifyAmountsInput_explicit secp hstep).2 value hvalue hexp
  · obtain ⟨_, _, hstep⟩ := foldlM_step_of_mem hout hmem
    exact VerifyAmountsOutput_explicit secp hstep hexp

end Steps

/-! ## The free reading of the commitments -/

section Free

variable {G C P : Type} [DecidableEq G]

/-- libsecp256k1-zkp read in the free abelian group on the generators, with
`coeff gen c` the multiple of `gen` in the commitment `c`. -/
structure Secp256k1Zkp.FreeTally (secp : Secp256k1Zkp G C P) (coeff : G → C → Int) : Prop where
  generator_generate_inj : ∀ {a b : Uint256} {gen : G}, secp.generator_generate a = some gen →
    secp.generator_generate b = some gen → a = b
  pedersen_commit_explicit : ∀ {v : UInt64} {gen : G} {c : C}, secp.pedersen_commit explicit_blinds v gen = some c →
    ∀ gen', coeff gen' c = if gen' = gen then (v.toNat : Int) else 0
  pedersen_verify_tally_sum : ∀ {ins outs : List C}, secp.pedersen_verify_tally ins outs = true →
    ∀ gen, (ins.map (coeff gen)).sum = (outs.map (coeff gen)).sum
  generator_serialize_head : ∀ gen : G,
    (secp.generator_serialize gen).head? = some 10 ∨ (secp.generator_serialize gen).head? = some 11

variable (secp : Secp256k1Zkp G C P) (coeff : G → C → Int)

/-- The multiple of asset `A`'s generator in `c`; zero where `A` has none. -/
def AssetCoeff (A : CAsset) (c : C) : Int :=
  match secp.generator_generate A with
  | some gen => coeff gen c
  | none => 0

variable {secp coeff}

omit [DecidableEq G] in
theorem AssetCoeff_of_generate {A : CAsset} {gen : G} (h : secp.generator_generate A = some gen) :
    AssetCoeff secp coeff A = coeff gen := by
  funext c
  rw [AssetCoeff, h]

omit [DecidableEq G] in
theorem AssetCoeff_of_generate_none {A : CAsset} (h : secp.generator_generate A = none) :
    AssetCoeff secp coeff A = fun _ => 0 := by
  funext c
  rw [AssetCoeff, h]

theorem AssetCoeff_commit (hfree : secp.FreeTally coeff) {a : CAsset} {gen : G} {v : UInt64} {c : C}
    (hgen : secp.generator_generate a = some gen) (hc : secp.pedersen_commit explicit_blinds v gen = some c)
    (A : CAsset) : AssetCoeff secp coeff A c = if a = A then (v.toNat : Int) else 0 := by
  cases hA : secp.generator_generate A with
  | none =>
    -- `A` has no generator, so it is not `a`
    have hne : a ≠ A := fun h => by rw [h, hA] at hgen; cases hgen
    rw [AssetCoeff_of_generate_none hA, if_neg hne]
  | some genA =>
    rw [AssetCoeff_of_generate hA, hfree.pedersen_commit_explicit hc genA]
    -- the generators agree exactly when the assets do
    have hiff : genA = gen ↔ a = A := by
      constructor
      · intro h
        exact hfree.generator_generate_inj hgen (h ▸ hA)
      · intro h
        rw [h, hA] at hgen
        exact Option.some.inj hgen
    by_cases haA : a = A
    · rw [if_pos (hiff.mpr haA), if_pos haA]
    · rw [if_neg (fun h => haA (hiff.mp h)), if_neg haA]

theorem AssetCoeff_tally (hfree : secp.FreeTally coeff) {ins outs : List C}
    (h : secp.pedersen_verify_tally ins outs = true) (A : CAsset) :
    (ins.map (AssetCoeff secp coeff A)).sum = (outs.map (AssetCoeff secp coeff A)).sum := by
  cases hA : secp.generator_generate A with
  | none => simp [AssetCoeff_of_generate_none hA]
  | some gen =>
    rw [AssetCoeff_of_generate hA]
    exact hfree.pedersen_verify_tally_sum h gen

/-- A spent output that is an explicit asset is not a blinded reissuance token. -/
theorem CheckReissuanceToken_explicit (hfree : secp.FreeTally coeff) {assetTokenID : CAsset}
    {issuance : CAssetIssuance} {asset : CConfidentialAsset} (hexp : asset.IsExplicit = true) :
    CheckReissuanceToken secp assetTokenID issuance asset ≠ .ok () := by
  intro h
  unfold CheckReissuanceToken at h
  split at h
  · exact throw_ne_ok h
  · rename_i gen _
    simp only [ite_throw_eq_ok, not_not] at h
    -- the token must serialize as a generator, with prefix 10 or 11, not 1
    have hhead : asset.vchCommitment.head? = some 1 := by
      simp only [CConfidentialCommitment.IsExplicit, Bool.and_eq_true, beq_iff_eq] at hexp
      exact hexp.2
    rw [h.2.1] at hhead
    rcases hfree.generator_serialize_head gen with hpfx | hpfx <;>
      exact absurd (hpfx.symm.trans hhead) (by decide)

theorem IssuancePseudoInput_coeff (hfree : secp.FreeTally coeff) {g : Globals} {tx : CTransaction} {i : Nat}
    {asset : CAsset} {value : CConfidentialValue} {rangeproof : CTxInWitness -> List UInt8}
    {tally tally' : AmountTally G C} (hexp : value.IsNull = true ∨ value.IsExplicit = true)
    (h : IssuancePseudoInput secp g tx i asset value rangeproof tally = .ok tally') (A : CAsset) :
    (tally'.vpCommitsIn.map (AssetCoeff secp coeff A)).sum =
      (tally.vpCommitsIn.map (AssetCoeff secp coeff A)).sum + if asset = A then ExplicitAmount g value else 0 := by
  rcases IssuancePseudoInput_cases secp h with ⟨hnull, rfl⟩ | ⟨hnull, _, commit, gen, -, hamount, rfl⟩
  · -- a null amount pushes nothing and counts zero
    rw [ExplicitAmount_of_IsNull hnull, ite_self, add_zero]
  · have hexp' : value.IsExplicit = true := hexp.resolve_left (by rw [hnull]; decide)
    obtain ⟨hgen, amount, hget, hrange, -, hc⟩ := VerifyIssuanceAmount_explicit secp hexp' hamount
    simp only [List.map_append, List.sum_append, List.map_singleton, List.sum_singleton,
      AssetCoeff_commit hfree hgen hc A, ExplicitAmount_of_GetAmount hexp' hget, toNat_toUInt64_of_MoneyRange hrange]

theorem VerifyIssuance_coeff (hfree : secp.FreeTally coeff) {H : Hashes} {g : Globals} {tx : CTransaction}
    {i : Nat} {input : CTxOut} {txin : CTxIn} {tally tally' : AmountTally G C}
    (hasset : input.nAsset.IsExplicit = true)
    (hexp : (txin.assetIssuance.nAmount.IsNull = true ∨ txin.assetIssuance.nAmount.IsExplicit = true) ∧
      (txin.assetIssuance.nInflationKeys.IsNull = true ∨ txin.assetIssuance.nInflationKeys.IsExplicit = true))
    (h : VerifyIssuance secp H g tx i input txin tally = .ok tally') (A : CAsset) :
    (tally'.vpCommitsIn.map (AssetCoeff secp coeff A)).sum =
      (tally.vpCommitsIn.map (AssetCoeff secp coeff A)).sum + IssuedOfAsset H g A txin := by
  unfold VerifyIssuance at h
  simp only [bind_eq_ok, ite_throw_eq_ok] at h
  obtain ⟨_, hreissue, -, tally₁, h₁, -, -, h₂⟩ := h
  -- a reissuance spends a blinded token, which an explicit input is not: this is a new issuance
  have hnew : txin.assetIssuance.assetBlindingNonce.IsNull = true := by
    by_contra hne
    rw [if_pos (by simpa using hne)] at hreissue
    exact CheckReissuanceToken_explicit hfree hasset hreissue
  simp only [IssuanceAssetIds, hnew, if_true] at h₁ h₂
  rw [IssuancePseudoInput_coeff hfree hexp.2 h₂ A, IssuancePseudoInput_coeff hfree hexp.1 h₁ A, add_assoc]
  rfl

theorem VerifyAmountsInput_coeff (hfree : secp.FreeTally coeff) {H : Hashes} {g : Globals} {tx : CTransaction}
    {tally tally' : AmountTally G C} {entry : (CTxOut × CTxIn) × Nat}
    (hinput : entry.1.1.nValue.IsExplicit = true ∧ entry.1.1.nAsset.IsExplicit = true)
    (hissuance : (entry.1.2.assetIssuance.nAmount.IsNull = true ∨
        entry.1.2.assetIssuance.nAmount.IsExplicit = true) ∧
      (entry.1.2.assetIssuance.nInflationKeys.IsNull = true ∨
        entry.1.2.assetIssuance.nInflationKeys.IsExplicit = true))
    (h : VerifyAmountsInput secp H g tx tally entry = .ok tally') (A : CAsset) :
    (tally'.vpCommitsIn.map (AssetCoeff secp coeff A)).sum =
      (tally.vpCommitsIn.map (AssetCoeff secp coeff A)).sum +
        (AmountOfAsset g A entry.1.1 + IssuedOfAsset H g A entry.1.2) := by
  unfold VerifyAmountsInput at h
  simp only [ite_throw_eq_ok, bind_eq_ok] at h
  obtain ⟨-, gen, hgen, commit, hcommit, h⟩ := h
  obtain ⟨a, hget, hgen'⟩ := AssetGenerator_explicit secp hinput.2 hgen
  obtain ⟨amount, hamount, hrange, hc⟩ := InputValueCommitment_explicit secp hinput.1 hcommit
  -- the input's own commitment counts what it holds of `A`
  have hself : AssetCoeff secp coeff A commit = AmountOfAsset g A entry.1.1 := by
    simp only [AssetCoeff_commit hfree hgen' hc A, AmountOfAsset, hget, Option.some.injEq,
      ExplicitAmount_of_GetAmount hinput.1 hamount, toNat_toUInt64_of_MoneyRange hrange]
  cases hnull : entry.1.2.assetIssuance.IsNull with
  | true =>
    simp only [hnull, if_true, pure_eq_ok] at h
    subst h
    simp only [List.map_append, List.sum_append, List.map_singleton, List.sum_singleton, hself,
      IssuedOfAsset_of_IsNull H g A hnull, add_zero]
  | false =>
    simp only [hnull, Bool.false_eq_true, if_false] at h
    rw [VerifyIssuance_coeff hfree hinput.2 hissuance h A]
    simp only [List.map_append, List.sum_append, List.map_singleton, List.sum_singleton, hself, add_assoc]

theorem VerifyAmountsOutput_coeff (hfree : secp.FreeTally coeff) {g : Globals} {vpCommitsOut vpCommitsOut' : List C}
    {txout : CTxOut} (hexp : txout.nValue.IsExplicit = true ∧ txout.nAsset.IsExplicit = true)
    (h : VerifyAmountsOutput secp g vpCommitsOut txout = .ok vpCommitsOut') (A : CAsset) :
    (vpCommitsOut'.map (AssetCoeff secp coeff A)).sum =
      (vpCommitsOut.map (AssetCoeff secp coeff A)).sum + AmountOfAsset g A txout := by
  obtain ⟨gen, amount, hgen, hamount, hrange, hcases⟩ := VerifyAmountsOutput_explicit_eq_ok secp hexp.1 h
  obtain ⟨a, hget, hgen'⟩ := AssetGenerator_explicit secp hexp.2 hgen
  have hamt : AmountOfAsset g A txout = if a = A then amount.toInt else 0 := by
    simp only [AmountOfAsset, hget, Option.some.injEq, ExplicitAmount_of_GetAmount hexp.1 hamount]
  rcases hcases with ⟨rfl, -, rfl⟩ | ⟨-, c, hc, rfl⟩
  · -- an explicit zero burnt: nothing pushed, and nothing held
    rw [hamt]
    simp
  · simp only [List.map_append, List.sum_append, List.map_singleton, List.sum_singleton,
      AssetCoeff_commit hfree hgen' hc A, hamt, toNat_toUInt64_of_MoneyRange hrange]

end Free

/-! ## An accepted transaction -/

section Accepted

variable {G C P : Type} [DecidableEq G] {secp : Secp256k1Zkp G C P} {coeff : G → C → Int}

/-- With explicit amounts and assets, an accepted transaction balances asset
by asset: what its inputs hold and its issuances make is what its outputs pay,
fee outputs included. -/
theorem VerifyAmounts_conserves (hfree : secp.FreeTally coeff) {H : Hashes} {g : Globals}
    {inputs : List CTxOut} {tx : CTransaction} (hexp : AllExplicit inputs tx)
    (hok : VerifyAmounts secp H g inputs tx = .ok ()) (A : CAsset) :
    (inputs.map (AmountOfAsset g A)).sum + (tx.vin.map (IssuedOfAsset H g A)).sum =
      (tx.vout.map (AmountOfAsset g A)).sum := by
  obtain ⟨hlen, tally, vpCommitsOut, hin, hout, htally⟩ := VerifyAmounts_eq_ok secp hok
  -- each loop adds up what its steps count
  have hinsum := foldlM_add_of_mem (fun t : AmountTally G C => (t.vpCommitsIn.map (AssetCoeff secp coeff A)).sum)
    (fun e => AmountOfAsset g A e.1.1 + IssuedOfAsset H g A e.1.2)
    (fun e he _ _ hstep => by
      have hmem := List.of_mem_zip (List.fst_mem_of_mem_zipIdx he)
      exact VerifyAmountsInput_coeff hfree (hexp.inputs _ hmem.1) (hexp.issuances _ hmem.2) hstep A) hin
  have houtsum := foldlM_add_of_mem (fun l : List C => (l.map (AssetCoeff secp coeff A)).sum) (AmountOfAsset g A)
    (fun o ho _ _ hstep => VerifyAmountsOutput_coeff hfree (hexp.outputs o ho) hstep A) hout
  have hbal := AssetCoeff_tally hfree htally A
  rw [hinsum, houtsum] at hbal
  simp only [List.map_nil, List.sum_nil, zero_add] at hbal
  rw [← hbal, List.sum_map_add, map_zipIdx_zip_fst (AmountOfAsset g A) hlen,
    map_zipIdx_zip_snd (IssuedOfAsset H g A) hlen]

/-- `VerifyAmounts` conserves value.  Read in the free abelian group on the
asset generators, a transaction it accepts with explicit amounts balances
asset by asset; and whatever the library computes, no transaction it accepts
has an explicit amount out of range, an explicit issuance of zero or a
spendable explicit output of zero. -/
theorem VerifyAmounts_value_conservation (hfree : secp.FreeTally coeff) (H : Hashes) (g : Globals)
    (inputs : List CTxOut) (tx : CTransaction) (hok : VerifyAmounts secp H g inputs tx = .ok ()) :
    (AllExplicit inputs tx → ∀ A, (inputs.map (AmountOfAsset g A)).sum + (tx.vin.map (IssuedOfAsset H g A)).sum =
      (tx.vout.map (AmountOfAsset g A)).sum) ∧
    (∀ txout ∈ inputs, txout.nValue.IsExplicit = true →
      ∃ amount, txout.nValue.GetAmount g = some amount ∧ MoneyRange amount = true) ∧
    (∀ txin ∈ tx.vin, ∀ value ∈ [txin.assetIssuance.nAmount, txin.assetIssuance.nInflationKeys],
      value.IsExplicit = true → ∃ amount, value.GetAmount g = some amount ∧ MoneyRange amount = true ∧ amount ≠ 0) ∧
    (∀ txout ∈ tx.vout, txout.nValue.IsExplicit = true →
      ∃ amount, txout.nValue.GetAmount g = some amount ∧ MoneyRange amount = true ∧
        (amount = 0 → txout.scriptPubKey.IsUnspendable g = true)) :=
  ⟨fun hexp A => VerifyAmounts_conserves hfree hexp hok A, VerifyAmounts_explicit_amounts secp hok⟩

end Accepted

/-!
## Commitments as formal sums

`SumSecp` commits to `v` under `gen` as the one term `v·gen`, and its tally
compares the two sides' multiples of every generator that occurs in them.  It
meets `FreeTally` for `FormalCoeff`.  `conservationTx` spends 5 units of
`assetA`, issues 10 units and one token, pays all three out and burns an
explicit zero.
-/

/-- The multiple of `gen` in a formal sum. -/
def FormalCoeff (gen : CAsset) (c : List (CAsset × Int)) : Int :=
  ((c.filter fun p => p.1 == gen).map Prod.snd).sum

def SumSecp : Secp256k1Zkp CAsset (List (CAsset × Int)) Unit where
  generator_generate tag := some tag
  generator_generate_blinded _ _ := none
  generator_parse _ := none
  generator_serialize tag := FreeEncoding 10 tag
  generator_of_data _ := BaseBlob.zero 32
  pedersen_commit _ value gen := some [(gen, value.toNat)]
  pedersen_commitment_parse _ := none
  pedersen_commitment_serialize _ := []
  pedersen_verify_tally ins outs :=
    (ins ++ outs).all fun c => c.all fun p => (ins.map (FormalCoeff p.1)).sum == (outs.map (FormalCoeff p.1)).sum
  rangeproof_sign _ _ _ _ _ _ _ _ _ _ := none
  VerifyRangeProof _ _ _ _ := false
  rangeproof_verify _ _ _ := none
  surjectionproof_initialize _ _ _ _ _ := none
  surjectionproof_generate _ _ _ _ _ _ := none
  surjectionproof_verify _ _ _ := false
  surjectionproof_serialize _ := []
  surjectionproof_parse _ := none
  ec_pubkey_parse _ := false
  GetPubKey key := ⟨FreeEncoding 2 key⟩
  ECDH key _ := key

theorem FormalCoeff_single (gen gen' : CAsset) (v : Int) :
    FormalCoeff gen' [(gen, v)] = if gen' = gen then v else 0 := by
  by_cases h : gen' = gen
  · subst h
    simp [FormalCoeff]
  · have hne : (gen == gen') = false := beq_false_of_ne (Ne.symm h)
    simp [FormalCoeff, h, hne]

theorem FormalCoeff_eq_zero {gen : CAsset} {c : List (CAsset × Int)} (h : ∀ p ∈ c, p.1 ≠ gen) :
    FormalCoeff gen c = 0 := by
  rw [FormalCoeff, List.filter_eq_nil_iff.mpr fun p hp => by simpa using h p hp]
  rfl

theorem SumSecp_FreeTally : SumSecp.FreeTally FormalCoeff where
  generator_generate_inj ha hb := (Option.some.inj ha).trans (Option.some.inj hb).symm
  pedersen_commit_explicit := by
    intro v gen c h gen'
    cases h
    exact FormalCoeff_single gen gen' _
  pedersen_verify_tally_sum := by
    intro ins outs h gen
    simp only [SumSecp, List.all_eq_true, beq_iff_eq] at h
    by_cases hocc : ∃ c ∈ ins ++ outs, ∃ p ∈ c, p.1 = gen
    · obtain ⟨c, hc, p, hp, rfl⟩ := hocc
      exact h c hc p hp
    · -- a generator that occurs nowhere has multiple zero on both sides
      have hside : ∀ l, l ⊆ ins ++ outs → (l.map (FormalCoeff gen)).sum = 0 := fun l hl =>
        List.sum_eq_zero (List.forall_mem_map.mpr fun c hc =>
          FormalCoeff_eq_zero fun p hp hgen => hocc ⟨c, hl hc, p, hp, hgen⟩)
      rw [hside ins (List.subset_append_left ins outs), hside outs (List.subset_append_right ins outs)]
  generator_serialize_head _ := .inl rfl

def issuedOutput : CTxOut :=
  ⟨CConfidentialAsset.SetToAsset (CalculateAsset sumHashes issuanceEntropy), CConfidentialValue.SetToAmount 10,
    ⟨[]⟩, [0x51]⟩

def tokenOutput : CTxOut :=
  ⟨CConfidentialAsset.SetToAsset (CalculateReissuanceToken sumHashes issuanceEntropy false),
    CConfidentialValue.SetToAmount 1, ⟨[]⟩, [0x51]⟩

def conservationTx : CTransaction :=
  ⟨2, [issuanceInput], [paymentOutput, issuedOutput, tokenOutput, burnOutput], 0, ⟨[CTxInWitness.empty], []⟩⟩

theorem VerifyAmounts_value_conservation_conservationTx :
    SumSecp.FreeTally FormalCoeff ∧
      VerifyAmounts SumSecp sumHashes blindGlobals [paymentOutput] conservationTx = .ok () ∧
      AllExplicit [paymentOutput] conservationTx ∧
      ([paymentOutput].map (AmountOfAsset blindGlobals (CalculateAsset sumHashes issuanceEntropy))).sum +
          (conservationTx.vin.map
            (IssuedOfAsset sumHashes blindGlobals (CalculateAsset sumHashes issuanceEntropy))).sum =
        (conservationTx.vout.map (AmountOfAsset blindGlobals (CalculateAsset sumHashes issuanceEntropy))).sum := by
  have hok : VerifyAmounts SumSecp sumHashes blindGlobals [paymentOutput] conservationTx = .ok () := by
    decide +kernel
  have hexp : AllExplicit [paymentOutput] conservationTx := ⟨by decide, by decide, by decide⟩
  exact ⟨SumSecp_FreeTally, hok, hexp,
    (VerifyAmounts_value_conservation SumSecp_FreeTally sumHashes blindGlobals _ _ hok).1 hexp _⟩


end Elements
