import Elements.Psbt.BlindPsbtTargets

/-!
# Balancing the blinding factors of a PSET

Pedersen commitments balance when, modulo the group order, the inputs'
`amount * asset_blinder + value_blinder` add up to the outputs'.  Each caller
of `BlindPSBT` knows the blinding factors of its own inputs and outputs only.
A caller that does not blind the last output publishes its outputs' scalars
less its inputs' in `m_scalar_offsets`.  The caller that blinds the last output
takes its value blinding factor as the one drawn, less that caller's own
outputs' scalars, plus its inputs', less every published offset.

A caller that owns a blinded input must therefore either publish or blind the
last output.  A caller that finds every output blinded returns `OK` before it
looks at its inputs, so its inputs never enter the balance.
-/

namespace Elements

/-!
## The last value blinding factor
-/

theorem foldlM_SubtractScalars_spec {offsets : List Uint256} {a r : Uint256}
    (h : offsets.foldlM SubtractScalars a = some r) :
    ScalarValue r = ScalarValue a - (offsets.map ScalarValue).sum := by
  induction offsets generalizing a with
  | nil =>
    simp only [List.foldlM_nil, Option.pure_def, Option.some.injEq] at h
    subst h
    simp
  | cons offset rest ih =>
    simp only [List.foldlM_cons, Option.bind_eq_bind, Option.bind_eq_some_iff] at h
    obtain ⟨a', ha', hrest⟩ := h
    rw [ih hrest, SubtractScalars_spec ha', List.map_cons, List.sum_cons]
    ring

/-- The last value blinding factor is the one drawn less the caller's output
scalar, plus its input scalar, less every published offset. -/
theorem LastValueBlinder_spec {output_scalar input_scalar value_blinder output_scalar' last : Uint256}
    {offsets : List Uint256}
    (h : LastValueBlinder output_scalar input_scalar value_blinder offsets = some (output_scalar', last)) :
    ScalarValue output_scalar' = ScalarValue output_scalar - ScalarValue input_scalar ∧
      ScalarValue last = ScalarValue value_blinder - ScalarValue output_scalar' -
        (offsets.map ScalarValue).sum := by
  unfold LastValueBlinder at h
  simp only [Option.bind_eq_bind, Option.bind_eq_some_iff, Option.some.injEq, Prod.mk.injEq] at h
  obtain ⟨net, hnet, blinder, hblinder, last', hlast, rfl, rfl⟩ := h
  exact ⟨SubtractScalars_spec hnet, by rw [foldlM_SubtractScalars_spec hlast, SubtractScalars_spec hblinder]⟩

/-- The caller that blinds the last output balances it against its own input
scalar and the published offsets, and nothing else: with `output_scalar` the
scalar of its outputs so far, the last one's with the drawn value blinding
factor, its other outputs' scalars, the last output's with the blinding factor
returned, and the offsets add up to its input scalar. -/
theorem LastValueBlinder_balances (others last_scalar : ZMod SECP256K1_N)
    {output_scalar input_scalar value_blinder output_scalar' last : Uint256}
    {offsets : List Uint256}
    (hscalar : ScalarValue output_scalar = others + (last_scalar + ScalarValue value_blinder))
    (h : LastValueBlinder output_scalar input_scalar value_blinder offsets = some (output_scalar', last)) :
    others + (last_scalar + ScalarValue last) + (offsets.map ScalarValue).sum =
      ScalarValue input_scalar := by
  obtain ⟨hout, hlast⟩ := LastValueBlinder_spec h
  rw [hlast, hout, hscalar]
  ring

/-!
## A caller that finds every output blinded
-/

theorem OutputsToBlind_of_IsFullyBlinded {psbt : PartiallySignedTransaction}
    (h : psbt.IsFullyBlinded = true) :
    (OutputsToBlind psbt).2 = (OutputsToBlind psbt).1.length := by
  have hsame : psbt.outputs.filter PSBTOutput.IsFullyBlinded =
      psbt.outputs.filter PSBTOutput.IsBlinded := by
    apply List.filter_congr
    intro out hout
    have hall := List.all_eq_true.mp h out hout
    cases hb : out.IsBlinded <;> simp_all [PSBTOutput.IsFullyBlinded]
  have hindices : (psbt.outputs.zipIdx.filter fun entry => entry.1.IsBlinded).map Prod.fst =
      psbt.outputs.filter PSBTOutput.IsBlinded := by
    conv_rhs => rw [← List.zipIdx_map_fst 0 psbt.outputs]
    rw [List.filter_map]
    rfl
  simp only [OutputsToBlind, List.length_map, hsame]
  rw [← hindices, List.length_map]

section LateOwner

variable {G C P : Type} (secp : Secp256k1Zkp G C P) (H : Hashes) (g : Globals)
  (pegged_asset : CAsset) (cfg : RangeproofArgs) (rand : BlindPsbtRandomness)
  (our_input_data : AList (fun _ : Nat => OurInputData))

/-- A call on a PSET whose outputs with a blinding key are all fully blinded
returns `OK` and leaves the PSET as it is, whatever inputs the caller owns:
its input scalar enters no output and no offset. -/
theorem BlindPSBT_fully_blinded {psbt : PartiallySignedTransaction}
    (h : psbt.IsFullyBlinded = true) :
    BlindPSBT secp H g pegged_asset cfg rand our_input_data psbt = some (.OK, psbt) := by
  have hcount := OutputsToBlind_of_IsFullyBlinded h
  simp only [BlindPSBT, BlindPSBTRun, hcount]
  rfl

end LateOwner

/-- The scalar an input contributes: `amount * asset_blinder + value_blinder`. -/
def OurInputData.Scalar (data : OurInputData) : ZMod SECP256K1_N :=
  data.1.toNatClampNeg * ScalarValue data.2.2.1 + ScalarValue data.2.2.2

/-!
## A caller that comes after the last blinding

Two inputs spend 5 units of asset A each, both blinded; the first is owned by
one caller and the second by another.  The one output pays the 10 units to a
blinding key, with the first input as its blinder.  The first caller blinds
the output, the last one, against its own input.  The second caller then finds
nothing left to blind and returns `OK` as well; its input is not balanced.
-/

/-- The asset commitment and the value commitment of a blinded input, as the
free model serializes them. -/
def blindedInput (prev_txid : Nat) (value_blinder : Nat) : PSBTInput :=
  { witness_utxo :=
      ⟨⟨FreeEncoding 11 assetA⟩, ⟨FreeEncoding 8 (b32_of_scalar value_blinder)⟩, ⟨[]⟩, [0x51]⟩
    prev_txid := b32_of_scalar prev_txid
    prev_out := some 0 }

def sharedPayment : PSBTOutput :=
  { amount := some 10
    script := some [0x51]
    m_asset := assetA
    m_blinding_pubkey := ⟨FreeEncoding 2 (b32_of_scalar 3)⟩
    m_blinder_index := some 0 }

def twoOwnerPset : PartiallySignedTransaction :=
  { tx_version := some 2
    inputs := [blindedInput 21 3, blindedInput 22 5]
    outputs := [sharedPayment] }

def firstOwner : AList (fun _ : Nat => OurInputData) :=
  (∅ : AList (fun _ : Nat => OurInputData)).insert 0 (5, assetA, b32_of_scalar 2, b32_of_scalar 3)

def secondOwner : AList (fun _ : Nat => OurInputData) :=
  (∅ : AList (fun _ : Nat => OurInputData)).insert 1 (5, assetA, b32_of_scalar 4, b32_of_scalar 5)

def blindedByFirst : PartiallySignedTransaction :=
  ((BlindPSBT FreeSecp sumHashes blindGlobals assetA ⟨0, 52⟩ psetDraws firstOwner twoOwnerPset).map
    Prod.snd).getD twoOwnerPset

def blindedBySecond : PartiallySignedTransaction :=
  ((BlindPSBT FreeSecp sumHashes blindGlobals assetA ⟨0, 52⟩ psetDraws secondOwner blindedByFirst).map
    Prod.snd).getD blindedByFirst

/-- Both calls return `OK` and the output ends fully blinded, committed with
the drawn asset blinding factor and the value blinding factor 3.  The
output's scalar is the first input's, not the sum of both inputs'. -/
theorem BlindPSBT_late_owner_unbalanced :
    (BlindPSBT FreeSecp sumHashes blindGlobals assetA ⟨0, 52⟩ psetDraws firstOwner twoOwnerPset).map
        Prod.fst = some .OK ∧
      (BlindPSBT FreeSecp sumHashes blindGlobals assetA ⟨0, 52⟩ psetDraws secondOwner blindedByFirst).map
        Prod.fst = some .OK ∧
      blindedBySecond.outputs.map PSBTOutput.IsFullyBlinded = [true] ∧
      blindedBySecond.outputs.map PSBTOutput.m_value_commitment = [⟨FreeEncoding 8 (b32_of_scalar 3)⟩] ∧
      (10 : ℕ) * ScalarValue (psetDraws.asset_blinder 0) + ScalarValue (b32_of_scalar 3) =
        OurInputData.Scalar (5, assetA, b32_of_scalar 2, b32_of_scalar 3) ∧
      OurInputData.Scalar (5, assetA, b32_of_scalar 2, b32_of_scalar 3) ≠
        OurInputData.Scalar (5, assetA, b32_of_scalar 2, b32_of_scalar 3) +
          OurInputData.Scalar (5, assetA, b32_of_scalar 4, b32_of_scalar 5) := by
  -- the first call blinds the one output, the last, and leaves it fully blinded
  have hfirst : (BlindPSBT FreeSecp sumHashes blindGlobals assetA ⟨0, 52⟩ psetDraws firstOwner
      twoOwnerPset).map Prod.fst = some .OK := by
    decide
  have hblinded : blindedByFirst.IsFullyBlinded = true := by decide
  -- so the second call returns at once, and its input never enters the balance
  have hsecond := BlindPSBT_fully_blinded FreeSecp sumHashes blindGlobals assetA ⟨0, 52⟩ psetDraws
    secondOwner hblinded
  have hsame : blindedBySecond = blindedByFirst := by
    simp only [blindedBySecond, hsecond, Option.map_some, Option.getD_some]
  have hinput : ComputeAndAddToScalarOffset (BaseBlob.zero 32) 5 (b32_of_scalar 2) (b32_of_scalar 3) =
      some ((ComputeAndAddToScalarOffset (BaseBlob.zero 32) 5 (b32_of_scalar 2)
        (b32_of_scalar 3)).getD (BaseBlob.zero 32)) := by
    decide
  have houtput : ComputeAndAddToScalarOffset (BaseBlob.zero 32) 10 (psetDraws.asset_blinder 0)
      (psetDraws.value_blinder 0) = some ((ComputeAndAddToScalarOffset (BaseBlob.zero 32) 10
        (psetDraws.asset_blinder 0) (psetDraws.value_blinder 0)).getD (BaseBlob.zero 32)) := by
    decide
  have hzero : ScalarValue (BaseBlob.zero 32) = 0 := ScalarValue_of_IsNull rfl
  obtain ⟨⟨output_scalar', last⟩, hlast, hthree⟩ := Option.map_eq_some_iff.mp (show
    (LastValueBlinder ((ComputeAndAddToScalarOffset (BaseBlob.zero 32) 10 (psetDraws.asset_blinder 0)
        (psetDraws.value_blinder 0)).getD (BaseBlob.zero 32))
      ((ComputeAndAddToScalarOffset (BaseBlob.zero 32) 5 (b32_of_scalar 2)
        (b32_of_scalar 3)).getD (BaseBlob.zero 32))
      (psetDraws.value_blinder 0) []).map Prod.snd = some (b32_of_scalar 3) by decide)
  obtain rfl : last = b32_of_scalar 3 := hthree
  have hbalance := LastValueBlinder_balances 0 ((10 : ℕ) * ScalarValue (psetDraws.asset_blinder 0))
    (by rw [ComputeAndAddToScalarOffset_spec houtput, hzero, zero_add, zero_add]; rfl) hlast
  rw [ComputeAndAddToScalarOffset_spec hinput, hzero] at hbalance
  refine ⟨hfirst, by rw [hsecond]; rfl, by rw [hsame]; decide, by rw [hsame]; decide, ?_, by decide⟩
  simpa [OurInputData.Scalar] using hbalance

end Elements
