import Mathlib.Probability.Distributions.Uniform
import Mathlib.RingTheory.RootsOfUnity.PrimitiveRoots
/-!
# Powers of an element of prime order

In a domain an element other than one with a power of prime exponent equal to one has that prime as
its order. Its powers with positive exponents below the order are the other roots of one, each
reached once. Hence a uniform exponent hides the element: two such bases give the same
distribution of powers.
-/

namespace Vlse

section Powers

variable {R : Type*} [CommRing R] {order : Nat} {base : R}

/-- An element other than one whose power of prime exponent is one is a primitive root. -/
theorem isPrimitiveRoot_of_prime (prime : order.Prime) (power : base ^ order = 1)
    (nontrivial : base ≠ 1) : IsPrimitiveRoot base order := by
  have fact : Fact order.Prime := ⟨prime⟩
  have exact := IsPrimitiveRoot.orderOf base
  rwa [orderOf_eq_prime power nontrivial] at exact

/-- A power of a root of one depends on the exponent modulo the order alone. -/
theorem pow_eq_self_of_modEq (power : base ^ order = 1) {exponent : Nat}
    (inverse : exponent % order = 1) : base ^ exponent = base := by
  rw [← Nat.div_add_mod exponent order, inverse, pow_add, pow_mul, power, one_pow, one_mul, pow_one]

/-- The powers with positive exponents below the order are the other roots of one, each once. -/
theorem bijOn_pow [IsDomain R] (prime : order.Prime) (power : base ^ order = 1)
    (nontrivial : base ≠ 1) :
    Set.BijOn (fun exponent : Nat => base ^ exponent) (Set.Ico 1 order)
      {root | root ^ order = 1 ∧ root ≠ 1} := by
  have primitive := isPrimitiveRoot_of_prime prime power nontrivial
  have nonzero : NeZero order := ⟨prime.ne_zero⟩
  refine ⟨?_, ?_, ?_⟩
  · rintro exponent ⟨positive, below⟩
    constructor
    · rw [← pow_mul, mul_comm, pow_mul, power, one_pow]
    · intro trivial
      have divides := (primitive.pow_eq_one_iff_dvd exponent).mp trivial
      have atLeast := Nat.le_of_dvd positive divides
      omega
  · rintro left ⟨-, leftBelow⟩ right ⟨-, rightBelow⟩ same
    exact primitive.pow_inj leftBelow rightBelow same
  · rintro root ⟨rootPower, other⟩
    obtain ⟨exponent, below, reached⟩ := primitive.eq_pow_of_pow_eq_one rootPower
    refine ⟨exponent, ⟨?_, below⟩, reached⟩
    by_contra zero
    obtain rfl : exponent = 0 := by omega
    exact other (reached.symm.trans (pow_zero base))

end Powers

section Uniform

variable {α β : Type*} {support : Finset α} {image : Set β} {f g : α → β}

open Classical in
/-- A one-to-one image of a uniform choice is uniform on the image. -/
theorem map_uniform_apply (nonempty : support.Nonempty) (bijective : Set.BijOn f support image)
    (value : β) :
    (PMF.uniformOfFinset support nonempty).map f value =
      if value ∈ image then (support.card : ENNReal)⁻¹ else 0 := by
  rw [PMF.map_apply]
  split
  · rename_i inside
    obtain ⟨origin, chosen, rfl⟩ := bijective.surjOn inside
    rw [tsum_eq_single origin, if_pos rfl, PMF.uniformOfFinset_apply_of_mem _ chosen]
    intro other apart
    by_cases member : other ∈ support
    · exact if_neg fun same => apart (bijective.injOn member chosen same.symm)
    · rw [PMF.uniformOfFinset_apply_of_notMem _ member, ite_self]
  · rename_i outside
    refine ENNReal.tsum_eq_zero.mpr fun origin => ?_
    by_cases member : origin ∈ support
    · have hit := bijective.mapsTo member
      refine if_neg fun same => outside ?_
      rwa [same]
    · rw [PMF.uniformOfFinset_apply_of_notMem _ member, ite_self]

/-- Two one-to-one maps onto the same image give a uniform choice the same distribution. -/
theorem map_uniform_eq (nonempty : support.Nonempty) (left : Set.BijOn f support image)
    (right : Set.BijOn g support image) :
    (PMF.uniformOfFinset support nonempty).map f =
      (PMF.uniformOfFinset support nonempty).map g := by
  ext value
  rw [map_uniform_apply nonempty left, map_uniform_apply nonempty right]

end Uniform

end Vlse
