import Mathlib.Data.Nat.Size
import Mathlib.FieldTheory.Finite.Basic
import Vlse.Foundation.PrimeOrder
/-!
# The group of the OPRF

Public parameters are a modulus, a subgroup order and a generator; `Validate` checks them. A
`PrimeGroup` is what the protocol rests on: both numbers are prime, the order divides the modulus
less one, and both fit their encodings. Modular powers of an element other than one of its
subgroup of prime order reach every such element once.
-/

namespace Vlse.Oprf

/-- `kGroupElementBytes`. -/
def groupElementBytes : Nat := 384

/-- `kScalarBytes`. -/
def scalarBytes : Nat := 32

/-- `NTL::NumBits`. -/
def numBits (value : Nat) : Nat := value.size

/-- `NTL::PowerMod`. -/
def powerMod (base exponent modulus : Nat) : Nat := base ^ exponent % modulus

/-- `NTL::InvMod`, for coprime arguments. -/
def invMod (value modulus : Nat) : Nat := (Nat.gcdA value modulus % modulus).toNat

/-- `PublicParameters`. -/
structure PublicParameters where
  /-- `Modulus`. -/
  modulus : Nat
  /-- `SubgroupOrder`. -/
  subgroupOrder : Nat
  /-- `Generator`. -/
  generator : Nat

namespace PublicParameters

/-- `Cofactor`. -/
def cofactor (parameters : PublicParameters) : Nat :=
  (parameters.modulus - 1) / parameters.subgroupOrder

/-- `Validate`, over `NTL::ProbPrime`. -/
def validate (probPrime : Nat → Nat → Bool) (parameters : PublicParameters) : Bool :=
  let p := parameters.modulus
  let q := parameters.subgroupOrder
  let g := parameters.generator
  numBits p = 3072 && numBits q = 256 &&
    (p - 1) % q = 0 && parameters.cofactor * q = p - 1 &&
    probPrime p 32 && probPrime q 32 &&
    1 < g && g < p && powerMod g q p = 1

/-- What passing `Validate` says of the modulus and the subgroup order. -/
theorem validate_checks {probPrime : Nat → Nat → Bool} {parameters : PublicParameters}
    (valid : parameters.validate probPrime = true) :
    numBits parameters.modulus = 3072 ∧ numBits parameters.subgroupOrder = 256 ∧
      (parameters.modulus - 1) % parameters.subgroupOrder = 0 ∧
      probPrime parameters.modulus 32 = true ∧ probPrime parameters.subgroupOrder 32 = true := by
  simp only [validate, Bool.and_eq_true, decide_eq_true_eq] at valid
  exact ⟨valid.1.1.1.1.1.1.1.1, valid.1.1.1.1.1.1.1.2, valid.1.1.1.1.1.1.2, valid.1.1.1.1.2,
    valid.1.1.1.2⟩

end PublicParameters

/-- Parameters with a subgroup of prime order in a field that fits the fixed encodings. -/
structure PrimeGroup extends PublicParameters where
  /-- The modulus is prime. -/
  modulusPrime : modulus.Prime
  /-- The subgroup order is prime. -/
  orderPrime : subgroupOrder.Prime
  /-- The subgroup order divides the order of the unit group. -/
  divides : subgroupOrder ∣ modulus - 1
  /-- Reduction modulo the modulus less three is defined. -/
  wide : 3 < modulus
  /-- A field element fits its encoding. -/
  fits : modulus < 256 ^ groupElementBytes
  /-- A scalar fits the block it is drawn from. -/
  scalarFits : subgroupOrder ≤ 256 ^ scalarBytes

/-- Parameters that pass `Validate` form such a group when `ProbPrime` errs on no composite. -/
def PublicParameters.primeGroup {probPrime : Nat → Nat → Bool} (parameters : PublicParameters)
    (valid : parameters.validate probPrime = true)
    (sound : ∀ value rounds, probPrime value rounds = true → value.Prime) : PrimeGroup where
  toPublicParameters := parameters
  modulusPrime := sound _ _ (validate_checks valid).2.2.2.1
  orderPrime := sound _ _ (validate_checks valid).2.2.2.2
  divides := Nat.dvd_of_mod_eq_zero (validate_checks valid).2.2.1
  wide := by
    have bits : parameters.modulus.size = 3072 := (validate_checks valid).1
    have long : 2 < parameters.modulus.size := by omega
    exact lt_of_lt_of_le (by decide) (Nat.lt_size.mp long)
  fits := by
    have bits : parameters.modulus.size = 8 * groupElementBytes := (validate_checks valid).1
    have bound := Nat.lt_size_self parameters.modulus
    rwa [bits, pow_mul, show 2 ^ 8 = 256 from rfl] at bound
  scalarFits := by
    have bits : parameters.subgroupOrder.size = 8 * scalarBytes := (validate_checks valid).2.1
    have bound := Nat.lt_size_self parameters.subgroupOrder
    rw [bits, pow_mul, show 2 ^ 8 = 256 from rfl] at bound
    exact bound.le

/-! ## Modular arithmetic -/

/-- A power modulo the modulus is the power of the residue. -/
theorem cast_powerMod (base exponent modulus : Nat) :
    (powerMod base exponent modulus : ZMod modulus) = (base : ZMod modulus) ^ exponent := by
  rw [powerMod, ZMod.natCast_mod, Nat.cast_pow]

/-- The inverse of a coprime value multiplies to one. -/
theorem mul_invMod {value modulus : Nat} (coprime : value.Coprime modulus) (large : 1 < modulus) :
    value * invMod value modulus % modulus = 1 := by
  have bezout := Nat.gcd_eq_gcd_ab value modulus
  rw [coprime, Nat.cast_one] at bezout
  have nonnegative := Int.emod_nonneg (Nat.gcdA value modulus) (by omega : (modulus : Int) ≠ 0)
  have reduced : ((value * invMod value modulus : Nat) : Int) =
      1 + modulus * (-Nat.gcdB value modulus - value * (Nat.gcdA value modulus / modulus)) := by
    rw [invMod, Nat.cast_mul, Int.toNat_of_nonneg nonnegative, Int.emod_def]
    linarith
  have remainder : ((value * invMod value modulus : Nat) : Int) % modulus = 1 := by
    rw [reduced, Int.add_mul_emod_self_left]
    exact Int.emod_eq_of_lt (by decide) (by omega)
  exact_mod_cast remainder

/-- Numbers below the modulus are equal when their residues are. -/
theorem eq_of_cast_eq {modulus left right : Nat} (leftBelow : left < modulus)
    (rightBelow : right < modulus) (same : (left : ZMod modulus) = right) : left = right := by
  have residues := (ZMod.natCast_eq_natCast_iff' left right modulus).mp same
  rwa [Nat.mod_eq_of_lt leftBelow, Nat.mod_eq_of_lt rightBelow] at residues

namespace PrimeGroup

variable (group : PrimeGroup)

/-- The elements of the subgroup of prime order other than one. -/
def nonidentity : Set Nat :=
  {value | value < group.modulus ∧ powerMod value group.subgroupOrder group.modulus = 1 ∧
    value ≠ 1}

variable {group}

/-- In the field they are the roots of one other than one. -/
theorem mem_nonidentity_iff {value : Nat} (below : value < group.modulus) :
    value ∈ group.nonidentity ↔ (value : ZMod group.modulus) ^ group.subgroupOrder = 1 ∧
      (value : ZMod group.modulus) ≠ 1 := by
  have large : 1 < group.modulus := group.modulusPrime.one_lt
  have one : ∀ {other}, other < group.modulus → ((other : ZMod group.modulus) = 1 ↔ other = 1) := by
    intro other inside
    constructor
    · intro residue
      exact eq_of_cast_eq inside large (by rw [residue, Nat.cast_one])
    · rintro rfl
      exact Nat.cast_one
  have power := one (Nat.mod_lt (value ^ group.subgroupOrder) (by omega : 0 < group.modulus))
  rw [← powerMod, cast_powerMod] at power
  rw [power, Ne, one below]
  exact and_iff_right below

/-- Powers of an element other than one reach every such element once. -/
theorem bijOn_powerMod {element : Nat} (member : element ∈ group.nonidentity) :
    Set.BijOn (fun exponent => powerMod element exponent group.modulus)
      (Set.Ico 1 group.subgroupOrder) group.nonidentity := by
  have fact : Fact group.modulus.Prime := ⟨group.modulusPrime⟩
  have positive : 0 < group.modulus := group.modulusPrime.pos
  have below : ∀ exponent, powerMod element exponent group.modulus < group.modulus :=
    fun exponent => Nat.mod_lt _ positive
  obtain ⟨power, nontrivial⟩ := (mem_nonidentity_iff member.1).mp member
  obtain ⟨mapsTo, injOn, surjOn⟩ := bijOn_pow group.orderPrime power nontrivial
  refine ⟨?_, ?_, ?_⟩
  · intro exponent inside
    rw [mem_nonidentity_iff (below exponent), cast_powerMod]
    exact mapsTo inside
  · intro left leftInside right rightInside same
    apply injOn leftInside rightInside
    have residues := congrArg (Nat.cast : Nat → ZMod group.modulus) same
    simpa only [cast_powerMod] using residues
  · intro value inside
    obtain ⟨exponent, chosen, reached⟩ := surjOn ((mem_nonidentity_iff inside.1).mp inside)
    refine ⟨exponent, chosen, eq_of_cast_eq (below exponent) inside.1 ?_⟩
    rw [cast_powerMod, ← reached]

end PrimeGroup

end Vlse.Oprf
