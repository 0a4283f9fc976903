import Vlse.Foundation.Draws
import Vlse.Oprf.Session
/-!
# The law of the hash

`HashToGroup` reduces 128 more bits than the modulus has, which the source calls enough for the
bias to be negligible, and rejects the identity. For SHAKE256 with independent uniform answers the
hashes of distinct inputs are independent, every list of elements of the subgroup other than one
is as likely as any other up to a factor of `1 + 2 ^ -128` for each input, and a hash that never
returns is as unlikely as `2 ^ 32` draws of the identity.
-/

namespace Vlse.Oprf

open ByteBits Finset Vlse.Filter

variable {group : PrimeGroup}

/-! ## One turn -/

/-- What one turn of `HashToGroup` makes of the bytes of SHAKE256. -/
def readWide (parameters : PublicParameters) (wide : Bytes (groupElementBytes + 16)) :
    Option Nat :=
  let candidate := fromBigEndian wide % (parameters.modulus - 3) + 2
  let element := powerMod candidate parameters.cofactor parameters.modulus
  if element ≠ 1 then some element else none

/-- What a turn feeds to SHAKE256. -/
def hashFrame (input : List Byte) (counter : BitVec 32) : List Byte :=
  hashDomain ++ 0 :: input ++ encodedCounter counter

/-- A turn reads the answer to its frame. -/
theorem hashAttempt_eq (parameters : PublicParameters) (shake256 : Shake256) (input : List Byte)
    (counter : BitVec 32) :
    hashAttempt parameters shake256 input counter =
      readWide parameters (shake256 (hashFrame input counter)) := rfl

/-- The encoding of a counter tells it. -/
theorem encodedCounter_injective : Function.Injective encodedCounter := by
  intro left right same
  simp only [encodedCounter, List.cons.injEq, and_true] at same
  bv_omega

/-- A frame tells its input and its counter. -/
theorem hashFrame_injective : Function.Injective (Function.uncurry hashFrame) := by
  rintro ⟨left, leftCounter⟩ ⟨right, rightCounter⟩ same
  simp only [Function.uncurry, hashFrame] at same
  have sizes : (encodedCounter leftCounter).length = (encodedCounter rightCounter).length := rfl
  obtain ⟨inputs, counters⟩ := List.append_inj' same sizes
  rw [List.append_cancel_left_eq, List.cons.injEq] at inputs
  rw [inputs.2, encodedCounter_injective counters]

/-! ## The candidates of an element -/

/-- The candidates of an element are its roots in the unit group other than one and minus one. -/
theorem card_candidates {element : Nat} (below : element < group.modulus)
    [NeZero group.modulus] :
    #{residue ∈ range (group.modulus - 3) |
        powerMod (residue + 2) group.cofactor group.modulus = element} =
      #{root : (ZMod group.modulus)ˣ | (root : ZMod group.modulus) ^ group.cofactor = element ∧
        root ≠ 1 ∧ root ≠ -1} := by
  have fact : Fact group.modulus.Prime := ⟨group.modulusPrime⟩
  have wide := group.wide
  have coprime : ∀ residue < group.modulus - 3, (residue + 2).Coprime group.modulus := by
    intro residue inside
    exact (Nat.coprime_of_lt_prime (by omega) (by omega) group.modulusPrime).symm
  have power : ∀ value, powerMod value group.cofactor group.modulus = element ↔
      (value : ZMod group.modulus) ^ group.cofactor = element := by
    intro value
    rw [← cast_powerMod]
    constructor
    · intro same
      rw [same]
    · intro same
      exact eq_of_cast_eq (Nat.mod_lt _ (by omega)) below same
  -- minus one is the residue next to the modulus, so both excluded roots lie outside the range
  have minusOne : ∀ value : Nat, (value : ZMod group.modulus) = -1 ↔ group.modulus ∣ value + 1 := by
    intro value
    rw [← ZMod.natCast_eq_zero_iff, Nat.cast_succ, eq_neg_iff_add_eq_zero]
  refine card_bij (fun residue listed => ZMod.unitOfCoprime (residue + 2)
    (coprime residue (mem_range.mp (mem_filter.mp listed).1))) ?_ ?_ ?_
  · intro residue listed
    obtain ⟨inside, reached⟩ := mem_filter.mp listed
    rw [mem_range] at inside
    rw [mem_filter, ZMod.coe_unitOfCoprime]
    refine ⟨mem_univ _, (power _).mp reached, fun one => ?_, fun other => ?_⟩
    · have residues := congrArg Units.val one
      rw [ZMod.coe_unitOfCoprime, Units.val_one, ← Nat.cast_one] at residues
      have same := eq_of_cast_eq (by omega) (by omega) residues
      omega
    · have residues := congrArg Units.val other
      rw [ZMod.coe_unitOfCoprime, Units.val_neg, Units.val_one, minusOne] at residues
      have large := Nat.le_of_dvd (by omega) residues
      omega
  · intro left leftListed right rightListed same
    have leftInside := mem_range.mp (mem_filter.mp leftListed).1
    have rightInside := mem_range.mp (mem_filter.mp rightListed).1
    have residues := congrArg Units.val same
    rw [ZMod.coe_unitOfCoprime, ZMod.coe_unitOfCoprime] at residues
    have values := eq_of_cast_eq (by omega) (by omega) residues
    omega
  · intro root listed
    obtain ⟨-, reached, notOne, notMinusOne⟩ := mem_filter.mp listed
    have value : ((root : ZMod group.modulus).val : ZMod group.modulus) = root :=
      ZMod.natCast_zmod_val _
    have bounded := ZMod.val_lt (root : ZMod group.modulus)
    generalize (root : ZMod group.modulus).val = residue at value bounded
    have nonzero : residue ≠ 0 := by
      rintro rfl
      exact root.ne_zero (value.symm.trans Nat.cast_zero)
    have other : residue ≠ 1 := by
      rintro rfl
      exact notOne (Units.ext (value.symm.trans Nat.cast_one))
    have last : residue + 1 ≠ group.modulus := by
      intro last
      apply notMinusOne
      apply Units.ext
      rw [← value, Units.val_neg, Units.val_one, minusOne, last]
    have shifted : residue - 2 + 2 = residue := by omega
    refine ⟨residue - 2, ?_, ?_⟩
    · rw [mem_filter, mem_range, shifted, power, value]
      exact ⟨by omega, reached⟩
    · apply Units.ext
      rw [ZMod.coe_unitOfCoprime, shifted, value]

section Candidates

variable (group)

/-- The order of the unit group is the cofactor times the subgroup order. -/
theorem cofactor_mul : group.cofactor * group.subgroupOrder = group.modulus - 1 :=
  Nat.div_mul_cancel group.divides

/-- With an odd subgroup order the cofactor is even. -/
theorem even_cofactor (odd : group.subgroupOrder ≠ 2) : Even group.cofactor := by
  have wide := group.wide
  have oddModulus := group.modulusPrime.odd_of_ne_two (by omega)
  have oddOrder := group.orderPrime.odd_of_ne_two odd
  have product : Even (group.cofactor * group.subgroupOrder) := by
    rw [cofactor_mul]
    exact Nat.Odd.sub_odd oddModulus odd_one
  exact (Nat.even_mul.mp product).resolve_right (Nat.not_even_iff_odd.mpr oddOrder)

/-- At most as many candidates as the cofactor lead to the identity. -/
theorem card_candidates_one :
    #{residue ∈ range (group.modulus - 3) |
        powerMod (residue + 2) group.cofactor group.modulus = 1} ≤ group.cofactor := by
  have fact : Fact group.modulus.Prime := ⟨group.modulusPrime⟩
  have nonzero : NeZero group.modulus := ⟨group.modulusPrime.ne_zero⟩
  have size : Fintype.card (ZMod group.modulus)ˣ = group.cofactor * group.subgroupOrder := by
    rw [cofactor_mul, ZMod.card_units]
  rw [card_candidates group.modulusPrime.one_lt]
  refine (card_le_card fun root listed => ?_).trans (card_roots size (one_pow _)).le
  obtain ⟨-, power, -, -⟩ := mem_filter.mp listed
  rw [Nat.cast_one, ← Units.val_pow_eq_pow_val, Units.val_eq_one] at power
  exact mem_filter.mpr ⟨mem_univ _, power⟩

/-- With an odd subgroup order as many candidates as the cofactor lead to each element of the
subgroup other than one. -/
theorem card_candidates_nonidentity (odd : group.subgroupOrder ≠ 2) {element : Nat}
    (member : element ∈ group.nonidentity) :
    #{residue ∈ range (group.modulus - 3) |
        powerMod (residue + 2) group.cofactor group.modulus = element} = group.cofactor := by
  have fact : Fact group.modulus.Prime := ⟨group.modulusPrime⟩
  have nonzero : NeZero group.modulus := ⟨group.modulusPrime.ne_zero⟩
  have size : Fintype.card (ZMod group.modulus)ˣ = group.cofactor * group.subgroupOrder := by
    rw [cofactor_mul, ZMod.card_units]
  have wide := group.wide
  obtain ⟨power, notOne⟩ := (PrimeGroup.mem_nonidentity_iff member.1).mp member
  have even := even_cofactor group odd
  have unit : ∃ value : (ZMod group.modulus)ˣ, (value : ZMod group.modulus) = element := by
    have positive : (element : ZMod group.modulus) ≠ 0 := by
      intro zero
      rw [zero, zero_pow group.orderPrime.ne_zero] at power
      exact zero_ne_one power
    exact ⟨Units.mk0 _ positive, rfl⟩
  obtain ⟨value, same⟩ := unit
  rw [← same, ← Units.val_pow_eq_pow_val, Units.val_eq_one] at power
  rw [← same, Ne, Units.val_eq_one] at notOne
  rw [card_candidates member.1]
  refine Eq.trans (congrArg card ?_) (card_roots size power)
  refine filter_congr fun root _ => ?_
  rw [← same, ← Units.val_pow_eq_pow_val, Units.val_inj]
  refine and_iff_left_of_imp fun reached => ⟨?_, ?_⟩
  · rintro rfl
    exact notOne (reached.symm.trans (one_pow _))
  · rintro rfl
    exact notOne (reached.symm.trans even.neg_one_pow)

end Candidates

/-! ## One answer -/

/-- A string of bytes is read as a number with as many bits. -/
theorem fromBigEndian_lt {length : Nat} (input : Bytes length) :
    fromBigEndian input < 256 ^ length := by
  rw [show 256 = 2 ^ 8 from rfl, ← pow_mul]
  refine Nat.lt_pow_two_of_testBit _ fun bit beyond => ?_
  rw [testBit_fromBigEndian, decide_eq_false (by omega), Bool.false_and]

/-- The strings of a length are counted as the numbers they are read as. -/
theorem card_strings (length : Nat) (p : Nat → Prop) [DecidablePred p] :
    #{input : Bytes length | p (fromBigEndian input)} =
      #{value ∈ range (256 ^ length) | p value} := by
  refine card_bij (fun input _ => fromBigEndian input) ?_ ?_ ?_
  · intro input listed
    exact mem_filter.mpr ⟨mem_range.mpr (fromBigEndian_lt input), (mem_filter.mp listed).2⟩
  · intro left _ right _ same
    exact fromBigEndian_injective same
  · intro value listed
    obtain ⟨inside, holds⟩ := mem_filter.mp listed
    have written := (storeBigEndian_of_lt (mem_range.mp inside)).2
    exact ⟨_, mem_filter.mpr ⟨mem_univ _, by rwa [written]⟩, written⟩

section Answer

variable (group)

/-- How often each residue is read at least. -/
def residueShare : Nat := 256 ^ (groupElementBytes + 16) / (group.modulus - 3)

/-- The 128 bits beyond the modulus read each residue as often as they have values. -/
theorem le_residueShare : 2 ^ 128 ≤ residueShare group := by
  have wide := group.wide
  have fits := group.fits
  have bits : (2 : Nat) ^ 128 = 256 ^ 16 := by norm_num
  rw [residueShare, Nat.le_div_iff_mul_le (by omega), pow_add, bits, Nat.mul_comm]
  exact Nat.mul_le_mul_right _ (by omega)

/-- The answers read as an element, by the residues that lead to it. -/
theorem card_answers (element : Nat) :
    #{wide : Bytes (groupElementBytes + 16) |
        powerMod (fromBigEndian wide % (group.modulus - 3) + 2) group.cofactor group.modulus =
          element} =
      #{value ∈ range (256 ^ (groupElementBytes + 16)) | value % (group.modulus - 3) ∈
        {residue ∈ range (group.modulus - 3) |
          powerMod (residue + 2) group.cofactor group.modulus = element}} := by
  have wide := group.wide
  rw [card_strings (groupElementBytes + 16) fun value =>
    powerMod (value % (group.modulus - 3) + 2) group.cofactor group.modulus = element]
  refine congrArg card (filter_congr fun value _ => ?_)
  have inside : value % (group.modulus - 3) < group.modulus - 3 := Nat.mod_lt _ (by omega)
  simp only [mem_filter, mem_range, inside, true_and]

/-- An element of the subgroup other than one is read from its share of the answers. -/
theorem drawsReadAs_readWide (odd : group.subgroupOrder ≠ 2) {element : Nat}
    (member : element ∈ group.nonidentity) :
    residueShare group * group.cofactor ≤
        drawsReadAs (readWide group.toPublicParameters) (some element) ∧
      drawsReadAs (readWide group.toPublicParameters) (some element) ≤
        (residueShare group + 1) * group.cofactor := by
  have wide := group.wide
  have shares := card_residues (256 ^ (groupElementBytes + 16))
    (by omega : 0 < group.modulus - 3) {residue ∈ range (group.modulus - 3) |
      powerMod (residue + 2) group.cofactor group.modulus = element}
    fun residue listed => mem_range.mp (mem_filter.mp listed).1
  rw [← card_answers, card_candidates_nonidentity group odd member] at shares
  have read : ∀ answer : Bytes (groupElementBytes + 16),
      readWide group.toPublicParameters answer = some element ↔
        powerMod (fromBigEndian answer % (group.modulus - 3) + 2) group.cofactor group.modulus =
          element := by
    intro answer
    have other := member.2.2
    unfold readWide
    dsimp only
    split
    · exact Option.some_inj
    · rename_i one
      rw [not_not] at one
      rw [one]
      exact ⟨fun none => by contradiction, fun same => absurd same.symm other⟩
  rw [← card_filter_eq_drawsReadAs, filter_congr fun answer _ => read answer]
  exact shares

/-- The identity is read from at most such a share. -/
theorem drawsReadAs_readWide_none :
    drawsReadAs (readWide group.toPublicParameters) none ≤
      (residueShare group + 1) * group.cofactor := by
  have wide := group.wide
  have shares := card_residues (256 ^ (groupElementBytes + 16))
    (by omega : 0 < group.modulus - 3) {residue ∈ range (group.modulus - 3) |
      powerMod (residue + 2) group.cofactor group.modulus = 1}
    fun residue listed => mem_range.mp (mem_filter.mp listed).1
  rw [← card_answers] at shares
  have read : ∀ answer : Bytes (groupElementBytes + 16),
      readWide group.toPublicParameters answer = none ↔
        powerMod (fromBigEndian answer % (group.modulus - 3) + 2) group.cofactor group.modulus =
          1 := by
    intro answer
    unfold readWide
    dsimp only
    split
    · rename_i other
      exact ⟨fun none => by contradiction, fun one => absurd one other⟩
    · rename_i one
      exact ⟨fun _ => not_not.mp one, fun _ => rfl⟩
  rw [← card_filter_eq_drawsReadAs, filter_congr fun answer _ => read answer]
  exact shares.2.trans (Nat.mul_le_mul_left _ (card_candidates_one group))

/-- Two elements of the subgroup other than one are read from nearly as many answers. -/
theorem readWide_near (odd : group.subgroupOrder ≠ 2) {first second : Nat}
    (firstMember : first ∈ group.nonidentity) (secondMember : second ∈ group.nonidentity) :
    drawsReadAs (readWide group.toPublicParameters) (some first) * 2 ^ 128 ≤
      drawsReadAs (readWide group.toPublicParameters) (some second) * (2 ^ 128 + 1) := by
  have most := (drawsReadAs_readWide group odd firstMember).2
  have least := (drawsReadAs_readWide group odd secondMember).1
  have share := le_residueShare group
  generalize (2 : Nat) ^ 128 = scale at share
  calc drawsReadAs (readWide group.toPublicParameters) (some first) * scale
      ≤ (residueShare group + 1) * group.cofactor * scale := Nat.mul_le_mul_right _ most
    _ = group.cofactor * (residueShare group * scale + scale) := by ring
    _ ≤ group.cofactor * (residueShare group * scale + residueShare group) :=
        Nat.mul_le_mul_left _ (Nat.add_le_add_left share _)
    _ = residueShare group * group.cofactor * (scale + 1) := by ring
    _ ≤ drawsReadAs (readWide group.toPublicParameters) (some second) * (scale + 1) :=
        Nat.mul_le_mul_right _ least

/-- With an odd subgroup order the identity is read from few of the answers. -/
theorem readWide_none_few (odd : group.subgroupOrder ≠ 2) :
    drawsReadAs (readWide group.toPublicParameters) none * group.subgroupOrder ≤
      2 * 256 ^ (groupElementBytes + 16) := by
  have most := drawsReadAs_readWide_none group
  have wide := group.wide
  have total := cofactor_mul group
  have multiple := Nat.div_mul_le_self (256 ^ (groupElementBytes + 16)) (group.modulus - 3)
  have share := le_residueShare group
  have fits := group.fits
  have large : 7 ≤ group.modulus := by
    obtain ⟨half, double⟩ := even_cofactor group odd
    have positive : 0 < half := by
      rw [Nat.pos_iff_ne_zero]
      rintro rfl
      rw [double, Nat.zero_mul] at total
      omega
    have order : 3 ≤ group.subgroupOrder := by
      have atLeast := group.orderPrime.two_le
      omega
    have six : 2 * 3 ≤ group.cofactor * group.subgroupOrder :=
      Nat.mul_le_mul (by omega) order
    omega
  have short : 4 * group.modulus ≤ 256 ^ (groupElementBytes + 16) := by
    rw [pow_add, Nat.mul_comm]
    exact Nat.mul_le_mul (by omega) (by norm_num)
  have few : residueShare group * 4 ≤ residueShare group * (group.modulus - 3) :=
    Nat.mul_le_mul_left _ (by omega)
  have times : (residueShare group + 1) * (group.modulus - 1) =
      residueShare group * (group.modulus - 3) + 2 * residueShare group +
        (group.modulus - 3 + 2) := by
    rw [show group.modulus - 1 = group.modulus - 3 + 2 by omega]
    ring
  have product := Nat.mul_le_mul_right group.subgroupOrder most
  rw [Nat.mul_assoc, total, times] at product
  rw [← residueShare] at multiple
  omega

end Answer

/-! ## The hashes of distinct inputs -/

/-- How many values the counter of `HashToGroup` has. -/
abbrev turns : Nat := 2 ^ 32

section Laws

variable {count : Nat}

/-- SHAKE256 with given answers for every turn of some inputs. -/
noncomputable def answering (shake256 : Shake256) (inputs : Fin count → List Byte)
    (answers : Fin count → Fin turns → Bytes (groupElementBytes + 16)) : Shake256 :=
  Function.extend
    (fun turn : Fin count × Fin turns => hashFrame (inputs turn.1) (BitVec.ofFin turn.2))
    (fun turn => answers turn.1 turn.2) shake256

/-- The law of the hashes of some inputs when SHAKE256 answers their turns uniformly. -/
noncomputable def hashLaw (parameters : PublicParameters) (shake256 : Shake256)
    (inputs : Fin count → List Byte) : PMF (Fin count → Option Nat) :=
  (PMF.uniformOfFintype (Fin count → Fin turns → Bytes (groupElementBytes + 16))).map
    fun answers place => hashToGroup parameters (answering shake256 inputs answers) (inputs place)

variable {inputs : Fin count → List Byte} (shake256 : Shake256)

/-- The counter after some turns. -/
theorem iterate_counter (turn : Nat) :
    (fun counter => counter + 1#32)^[turn] 0#32 = BitVec.ofNat 32 turn := by
  induction turn with
  | zero => rfl
  | succ turn ih => rw [Function.iterate_succ_apply', ih, BitVec.ofNat_add]

/-- The hash of an input is the first hit among the answers to its own turns. -/
theorem hashToGroup_answering (parameters : PublicParameters)
    (distinct : Function.Injective inputs)
    (answers : Fin count → Fin turns → Bytes (groupElementBytes + 16)) (place : Fin count) :
    hashToGroup parameters (answering shake256 inputs answers) (inputs place) =
      firstHit (readWide parameters) turns (answers place) := by
  have frames : Function.Injective fun turn : Fin count × Fin turns =>
      hashFrame (inputs turn.1) (BitVec.ofFin turn.2) := by
    rintro ⟨left, leftTurn⟩ ⟨right, rightTurn⟩ same
    have framed : (inputs left, BitVec.ofFin leftTurn) =
        (inputs right, BitVec.ofFin rightTurn) := hashFrame_injective same
    have parts := Prod.mk.inj framed
    rw [BitVec.ofFin.injEq] at parts
    rw [distinct parts.1, parts.2]
  refine search_eq_firstHit fun turn => ?_
  have counter : BitVec.ofNat 32 turn = BitVec.ofFin turn := by
    apply BitVec.eq_of_toNat_eq
    rw [BitVec.toNat_ofNat, BitVec.toNat_ofFin, Nat.mod_eq_of_lt turn.isLt]
  rw [iterate_counter, counter, hashAttempt_eq]
  exact congrArg (readWide parameters) (frames.extend_apply _ _ (place, turn))

/-- The law counts the answers by input. -/
theorem hashLaw_apply (parameters : PublicParameters) (distinct : Function.Injective inputs)
    (elements : Fin count → Option Nat) :
    hashLaw parameters shake256 inputs elements =
      ((∏ place, drawsReadAs (firstHit (readWide parameters) turns) (elements place) : Nat) :
          ENNReal) /
        Fintype.card (Fin count → Fin turns → Bytes (groupElementBytes + 16)) := by
  have read : (fun answers place =>
        hashToGroup parameters (answering shake256 inputs answers) (inputs place)) =
      fun (answers : Fin count → Fin turns → Bytes (groupElementBytes + 16)) place =>
        firstHit (readWide parameters) turns (answers place) :=
    funext fun answers => funext fun place =>
      hashToGroup_answering shake256 parameters distinct answers place
  rw [hashLaw, read, map_uniform_eq_div, drawsReadAs_pi]

/-- Two lists of elements of the subgroup other than one are nearly as likely. -/
theorem hashLaw_le (odd : group.subgroupOrder ≠ 2) (distinct : Function.Injective inputs)
    {first second : Fin count → Nat} (firstMember : ∀ place, first place ∈ group.nonidentity)
    (secondMember : ∀ place, second place ∈ group.nonidentity) :
    hashLaw group.toPublicParameters shake256 inputs (fun place => some (first place)) ≤
      (1 + (2 ^ 128)⁻¹) ^ count *
        hashLaw group.toPublicParameters shake256 inputs fun place => some (second place) := by
  have near : ∀ place,
      (drawsReadAs (firstHit (readWide group.toPublicParameters) turns) (some (first place)) :
          ENNReal) ≤ (1 + (2 ^ 128)⁻¹) *
        drawsReadAs (firstHit (readWide group.toPublicParameters) turns) (some (second place)) := by
    intro place
    have once := natCast_le_near (pow_ne_zero 128 two_ne_zero)
      (readWide_near group odd (firstMember place) (secondMember place))
    rw [Nat.cast_pow, Nat.cast_ofNat] at once
    rw [drawsReadAs_firstHit, drawsReadAs_firstHit, Nat.cast_mul, Nat.cast_mul, ← mul_assoc]
    gcongr
  rw [hashLaw_apply shake256 _ distinct, hashLaw_apply shake256 _ distinct, ← mul_div_assoc]
  refine ENNReal.div_le_div_right ?_ _
  calc ((∏ place, drawsReadAs (firstHit (readWide group.toPublicParameters) turns)
            (some (first place)) : Nat) : ENNReal)
      ≤ ∏ place, (1 + (2 ^ 128)⁻¹) *
          (drawsReadAs (firstHit (readWide group.toPublicParameters) turns)
            (some (second place)) : ENNReal) := by
        rw [Nat.cast_prod]
        exact prod_le_prod' fun place _ => near place
    _ = _ := by rw [prod_mul_distrib, prod_const, card_univ, Fintype.card_fin, Nat.cast_prod]

/-- The hash of an input fails to return when all its draws are the identity. -/
theorem hashLaw_none (odd : group.subgroupOrder ≠ 2) (distinct : Function.Injective inputs)
    (place : Fin count) :
    (hashLaw group.toPublicParameters shake256 inputs).map (fun elements => elements place) none ≤
      (2 / group.subgroupOrder) ^ turns := by
  have read : (fun elements : Fin count → Option Nat => elements place) ∘
      (fun answers other =>
        hashToGroup group.toPublicParameters (answering shake256 inputs answers) (inputs other)) =
      fun answers => firstHit (readWide group.toPublicParameters) turns (answers place) :=
    funext fun answers =>
      hashToGroup_answering shake256 group.toPublicParameters distinct answers place
  have size : Fintype.card (Bytes (groupElementBytes + 16)) = 256 ^ (groupElementBytes + 16) := by
    have counted := card_strings (groupElementBytes + 16) fun _ => True
    rwa [filter_true, filter_true, card_univ, card_range] at counted
  have few : (drawsReadAs (readWide group.toPublicParameters) none : ENNReal) /
      Fintype.card (Bytes (groupElementBytes + 16)) ≤ 2 / group.subgroupOrder := by
    have bound := readWide_none_few group odd
    rw [← size] at bound
    have order : (group.subgroupOrder : ENNReal) ≠ 0 :=
      Nat.cast_ne_zero.mpr group.orderPrime.ne_zero
    refine ENNReal.div_le_of_le_mul ?_
    rw [ENNReal.div_eq_inv_mul, mul_assoc, ← ENNReal.div_eq_inv_mul,
      ENNReal.le_div_iff_mul_le (.inl order) (.inl (ENNReal.natCast_ne_top _))]
    exact_mod_cast bound
  rw [hashLaw, PMF.map_comp, read, map_uniform_place (firstHit _ _) place, map_uniform_eq_div,
    drawsReadAs_firstHit_none, Fintype.card_fun, Fintype.card_fin, Nat.cast_pow, Nat.cast_pow,
    ENNReal.div_eq_inv_mul, ENNReal.inv_pow, ← mul_pow, ← ENNReal.div_eq_inv_mul]
  exact pow_le_pow_left' few turns

/-- The hashes of distinct inputs are independent and nearly uniform: any two lists of elements of
the subgroup other than one are equally likely up to a factor of `1 + 2 ^ -128` for each input, no
other elements occur, and a hash that never returns is as unlikely as `2 ^ 32` draws that are each
the identity with probability `2 / q`. -/
theorem hashLaw_nearUniform (odd : group.subgroupOrder ≠ 2)
    (distinct : Function.Injective inputs) :
    (∀ first second : Fin count → Nat, (∀ place, first place ∈ group.nonidentity) →
      (∀ place, second place ∈ group.nonidentity) →
      hashLaw group.toPublicParameters shake256 inputs (fun place => some (first place)) ≤
        (1 + (2 ^ 128)⁻¹) ^ count *
          hashLaw group.toPublicParameters shake256 inputs fun place => some (second place)) ∧
    (∀ elements, hashLaw group.toPublicParameters shake256 inputs elements ≠ 0 →
      ∀ place element, elements place = some element → element ∈ group.nonidentity) ∧
    ∀ place, (hashLaw group.toPublicParameters shake256 inputs).map (fun elements =>
      elements place) none ≤ (2 / group.subgroupOrder) ^ turns := by
  refine ⟨fun _ _ first second => hashLaw_le shake256 odd distinct first second, ?_,
    hashLaw_none shake256 odd distinct⟩
  intro elements likely place element reached
  rw [← PMF.mem_support_iff, hashLaw, PMF.mem_support_map_iff] at likely
  obtain ⟨answers, -, hashed⟩ := likely
  have own := congrFun hashed place
  rw [reached] at own
  exact hashToGroup_nonidentity own

/-- The hashes of two inputs in the small group. -/
theorem hashLaw_nearUniform_small :
    (∀ first second : Fin 2 → Nat, (∀ place, first place ∈ smallGroup.nonidentity) →
      (∀ place, second place ∈ smallGroup.nonidentity) →
      hashLaw smallGroup.toPublicParameters lengthShake256 ![[], [0, 0]]
          (fun place => some (first place)) ≤
        (1 + (2 ^ 128)⁻¹) ^ 2 *
          hashLaw smallGroup.toPublicParameters lengthShake256 ![[], [0, 0]]
            fun place => some (second place)) ∧
    (∀ elements,
      hashLaw smallGroup.toPublicParameters lengthShake256 ![[], [0, 0]] elements ≠ 0 →
      ∀ place element, elements place = some element → element ∈ smallGroup.nonidentity) ∧
    ∀ place, (hashLaw smallGroup.toPublicParameters lengthShake256 ![[], [0, 0]]).map
      (fun elements => elements place) none ≤ (2 / (11 : Nat)) ^ turns :=
  hashLaw_nearUniform lengthShake256 (by decide) (by decide)

end Laws

end Vlse.Oprf
