import Vlse.Oprf.Evaluation
/-!
# Hiding of the input

`RandomScalar` returns exactly the scalars from 1 to the subgroup order less one. For every input
these blinds reach every element of the subgroup other than one, each once. So a request that one
input can send is sent for any other input under exactly one blind, and under a uniform blind the
owner sees the same distribution of requests whatever the input is.
-/

namespace Vlse.Oprf

variable {group : PrimeGroup} {shake256 : Shake256}

/-! ## Random scalars -/

/-- A scalar that a rejection loop returned lies in the range it tests. -/
theorem randomScalar_range {parameters : PublicParameters} {limit scalar : Nat}
    {blocks : Nat → Bytes scalarBytes}
    (drawn : randomScalar parameters limit blocks = some scalar) :
    scalar ∈ Set.Ico 1 parameters.subgroupOrder := by
  induction limit generalizing blocks with
  | zero => contradiction
  | succ limit ih =>
    rw [randomScalar] at drawn
    split at drawn
    · rename_i inside
      rw [← Option.some.inj drawn]
      exact inside
    · exact ih drawn

/-- The values `RandomScalar` can return. -/
def randomScalars (parameters : PublicParameters) : Set Nat :=
  {scalar | ∃ limit blocks, randomScalar parameters limit blocks = some scalar}

/-- They are the positive scalars below the subgroup order. -/
theorem randomScalars_eq (group : PrimeGroup) :
    randomScalars group.toPublicParameters = Set.Ico 1 group.subgroupOrder := by
  ext scalar
  constructor
  · rintro ⟨limit, blocks, drawn⟩
    exact randomScalar_range drawn
  · intro inside
    have fits : scalar < 256 ^ scalarBytes := inside.2.trans_le group.scalarFits
    have value := (storeBigEndian_of_lt fits).2
    refine ⟨1, fun _ => (storeBigEndian scalarBytes scalar).1, ?_⟩
    rw [randomScalar, value]
    exact if_pos inside

/-! ## Requests -/

/-- The blinds map to requests one to one, onto the elements of the subgroup other than one. -/
theorem bijOn_blindedRequest {input : List Byte} {element : Nat}
    (hashed : hashToGroup group.toPublicParameters shake256 input = some element) :
    Set.BijOn (blindedRequest group.toPublicParameters shake256 input)
      (Set.Ico 1 group.subgroupOrder) (some '' group.nonidentity) := by
  have powers := PrimeGroup.bijOn_powerMod (hashToGroup_nonidentity hashed)
  have wrapped : Set.BijOn some group.nonidentity (some '' group.nonidentity) :=
    (Option.some_injective Nat).injOn.bijOn_image
  have composed : blindedRequest group.toPublicParameters shake256 input =
      some ∘ fun scalar => powerMod element scalar group.modulus := by
    funext scalar
    rw [blindedRequest, hashed]
    rfl
  rw [composed]
  exact wrapped.comp powers

/-- A uniform blind scalar. -/
noncomputable def uniformScalar (group : PrimeGroup) : PMF Nat :=
  PMF.uniformOfFinset (Finset.Ico 1 group.subgroupOrder)
    (Finset.nonempty_Ico.mpr group.orderPrime.one_lt)

/-- Two inputs that hash have the same requests: the scalars `RandomScalar` can return are those
from 1 to the order less one, they map one to one onto the same requests for both, a request of one
is sent for the other under exactly one of them, and under a uniform one the requests are
distributed alike. -/
theorem blindedRequest_hides {left right : List Byte} {leftElement rightElement : Nat}
    (leftHashed : hashToGroup group.toPublicParameters shake256 left = some leftElement)
    (rightHashed : hashToGroup group.toPublicParameters shake256 right = some rightElement) :
    randomScalars group.toPublicParameters = Set.Ico 1 group.subgroupOrder ∧
    Set.BijOn (blindedRequest group.toPublicParameters shake256 left)
      (randomScalars group.toPublicParameters) (some '' group.nonidentity) ∧
    Set.BijOn (blindedRequest group.toPublicParameters shake256 right)
      (randomScalars group.toPublicParameters) (some '' group.nonidentity) ∧
    (∀ scalar ∈ randomScalars group.toPublicParameters,
      ∃! other, other ∈ randomScalars group.toPublicParameters ∧
        blindedRequest group.toPublicParameters shake256 right other =
          blindedRequest group.toPublicParameters shake256 left scalar) ∧
    (uniformScalar group).map (blindedRequest group.toPublicParameters shake256 left) =
      (uniformScalar group).map (blindedRequest group.toPublicParameters shake256 right) := by
  have range := randomScalars_eq group
  have leftOnto := bijOn_blindedRequest leftHashed
  have rightOnto := bijOn_blindedRequest rightHashed
  rw [range]
  refine ⟨rfl, leftOnto, rightOnto, ?_, ?_⟩
  · intro scalar inside
    obtain ⟨other, chosen, same⟩ := rightOnto.surjOn (leftOnto.mapsTo inside)
    refine ⟨other, ⟨chosen, same⟩, ?_⟩
    rintro another ⟨anotherChosen, sameAgain⟩
    exact rightOnto.injOn anotherChosen chosen (sameAgain.trans same.symm)
  · rw [← Finset.coe_Ico] at leftOnto rightOnto
    exact map_uniform_eq _ leftOnto rightOnto

/-- The requests for two inputs in the small group. -/
theorem blindedRequest_hides_small :
    randomScalars smallGroup.toPublicParameters = Set.Ico 1 smallGroup.subgroupOrder ∧
    Set.BijOn (blindedRequest smallGroup.toPublicParameters lengthShake256 [])
      (randomScalars smallGroup.toPublicParameters) (some '' smallGroup.nonidentity) ∧
    Set.BijOn (blindedRequest smallGroup.toPublicParameters lengthShake256 [0, 0])
      (randomScalars smallGroup.toPublicParameters) (some '' smallGroup.nonidentity) ∧
    (∀ scalar ∈ randomScalars smallGroup.toPublicParameters,
      ∃! other, other ∈ randomScalars smallGroup.toPublicParameters ∧
        blindedRequest smallGroup.toPublicParameters lengthShake256 [0, 0] other =
          blindedRequest smallGroup.toPublicParameters lengthShake256 [] scalar) ∧
    (uniformScalar smallGroup).map
        (blindedRequest smallGroup.toPublicParameters lengthShake256 []) =
      (uniformScalar smallGroup).map
        (blindedRequest smallGroup.toPublicParameters lengthShake256 [0, 0]) :=
  blindedRequest_hides hashToGroup_small hashToGroup_small_zeros

end Vlse.Oprf
