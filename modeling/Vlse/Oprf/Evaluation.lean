import Vlse.Foundation.Search
import Vlse.Oprf.Encoding
/-!
# Evaluation

`HashToGroup` maps an input into the subgroup of prime order, rejecting the identity.
`DirectEvaluate` raises the hash to the key. `EvaluatePrepared` raises it to a prepared blind, to
the key and to the inverse of the blind modulo the subgroup order, which cancels the blind. SHAKE256
is any function of the bytes fed to it.
-/

namespace Vlse.Oprf

open ByteBits Vlse.Filter

/-- SHAKE256 of the bytes of all updates in order, truncated to `kWideBytes`. -/
abbrev Shake256 := List Byte → Bytes (groupElementBytes + 16)

/-- `kDomain`. -/
def hashDomain : List Byte := literalBytes "VLSE/LSE-H2G-FFC3072Q256-v1"

/-- `encoded_counter`. -/
def encodedCounter (counter : BitVec 32) : List Byte :=
  [(counter >>> 24).setWidth 8, (counter >>> 16).setWidth 8, (counter >>> 8).setWidth 8,
    counter.setWidth 8]

/-- One turn of the loop of `HashToGroup`: the element found, unless it is the identity. -/
def hashAttempt (parameters : PublicParameters) (shake256 : Shake256) (input : List Byte)
    (counter : BitVec 32) : Option Nat :=
  let wide := shake256 (hashDomain ++ 0 :: input ++ encodedCounter counter)
  let candidate := fromBigEndian wide % (parameters.modulus - 3) + 2
  let element := powerMod candidate parameters.cofactor parameters.modulus
  if element ≠ 1 then some element else none

/-- `HashToGroup`. Its counter has `2 ^ 32` values, so `none` means that it never returns. -/
def hashToGroup (parameters : PublicParameters) (shake256 : Shake256) (input : List Byte) :
    Option Nat :=
  search (fun counter => counter + 1#32) (hashAttempt parameters shake256 input) (2 ^ 32) 0#32

/-- `RandomScalar`, over the blocks `GenerateBlock` fills; `none` when none of the first `limit`
blocks is accepted. -/
def randomScalar (parameters : PublicParameters) : Nat → (Nat → Bytes scalarBytes) → Option Nat
  | 0, _ => none
  | limit + 1, blocks =>
    let scalar := fromBigEndian (blocks 0)
    if 0 < scalar ∧ scalar < parameters.subgroupOrder then some scalar
    else randomScalar parameters limit fun index => blocks (index + 1)

/-- `SecretKey`. -/
structure SecretKey (parameters : PublicParameters) where
  /-- `scalar_`. -/
  scalar : Nat
  /-- The scalar is positive. -/
  positive : 0 < scalar
  /-- The scalar is below the subgroup order. -/
  below : scalar < parameters.subgroupOrder

/-- The constructor of `SecretKey` for a given scalar. -/
def SecretKey.ofScalar (parameters : PublicParameters) (scalar : Int) :
    Except Fault (SecretKey parameters) :=
  if outside : scalar ≤ 0 ∨ parameters.subgroupOrder ≤ scalar then
    .error (.invalidArgument "OPRF secret scalar must be in [1,q-1]")
  else .ok ⟨scalar.toNat, by omega, by omega⟩

/-- `PreparedBlind`. -/
structure PreparedBlind where
  /-- `scalar_`. -/
  scalar : Nat
  /-- `inverse_`. -/
  inverse : Nat
  /-- `consumed_`. -/
  consumed : Bool := false
deriving DecidableEq

/-- `PrepareBlind`, once its scalar is drawn. -/
def prepareBlind (parameters : PublicParameters) (scalar : Nat) : PreparedBlind where
  scalar
  inverse := invMod scalar parameters.subgroupOrder

section Evaluation

variable (parameters : PublicParameters) (shake256 : Shake256) (key : SecretKey parameters)
  (input : List Byte)

/-- `DirectEvaluate`. -/
def directEvaluate : Option (Except Fault OprfOutput) :=
  (hashToGroup parameters shake256 input).map fun element =>
    toBigEndian parameters (powerMod element key.scalar parameters.modulus)

/-- The request the owner sees for an input under a blind scalar. -/
def blindedRequest (scalar : Nat) : Option Nat :=
  (hashToGroup parameters shake256 input).map fun element =>
    powerMod element scalar parameters.modulus

/-- `EvaluatePrepared`: what it returns, with the blind after the call. -/
def evaluatePrepared (prepared : PreparedBlind) :
    Option (Except Fault OprfOutput × PreparedBlind) :=
  if prepared.consumed then
    some (.error (.logicError "prepared OPRF blind was reused"), prepared)
  else
    let prepared := { prepared with consumed := true }
    (blindedRequest parameters shake256 input prepared.scalar).map fun request =>
      let response := powerMod request key.scalar parameters.modulus
      let unblinded := powerMod response prepared.inverse parameters.modulus
      (toBigEndian parameters unblinded, prepared)

end Evaluation

/-! ## The hash lands in the subgroup -/

variable {group : PrimeGroup} {shake256 : Shake256} {input : List Byte} {element : Nat}

/-- A power with the cofactor as exponent lies in the subgroup. -/
theorem pow_cofactor {candidate : Nat} (nonzero : (candidate : ZMod group.modulus) ≠ 0) :
    ((candidate : ZMod group.modulus) ^ group.cofactor) ^ group.subgroupOrder = 1 := by
  have fact : Fact group.modulus.Prime := ⟨group.modulusPrime⟩
  rw [← pow_mul, PublicParameters.cofactor, Nat.div_mul_cancel group.divides]
  exact ZMod.pow_card_sub_one_eq_one nonzero

/-- `HashToGroup` returns an element of the subgroup other than one. -/
theorem hashToGroup_nonidentity
    (hashed : hashToGroup group.toPublicParameters shake256 input = some element) :
    element ∈ group.nonidentity := by
  obtain ⟨count, -, hit⟩ := search_eq_some hashed
  generalize (fun counter => counter + 1#32)^[count] 0#32 = counter at hit
  unfold hashAttempt at hit
  dsimp only at hit
  split at hit
  · rename_i other
    generalize shake256 (hashDomain ++ 0 :: input ++ encodedCounter counter) = wide at hit other
    obtain rfl := Option.some.inj hit
    have wideModulus := group.wide
    -- the candidate lies between 2 and the modulus less two, so it is a unit
    have range : fromBigEndian wide % (group.modulus - 3) < group.modulus - 3 :=
      Nat.mod_lt _ (by omega)
    have nonzero : ((fromBigEndian wide % (group.modulus - 3) + 2 : Nat) :
        ZMod group.modulus) ≠ 0 := by
      rw [Ne, ZMod.natCast_eq_zero_iff]
      exact Nat.not_dvd_of_pos_of_lt (by omega) (by omega)
    refine ⟨Nat.mod_lt _ (by omega), ?_, other⟩
    apply eq_of_cast_eq (Nat.mod_lt _ (by omega)) (by omega : 1 < group.modulus)
    rw [ZMod.natCast_mod, Nat.cast_pow, cast_powerMod, pow_cofactor nonzero, Nat.cast_one]
  · contradiction

/-- Raising a subgroup element to a scalar, to the key and to the inverse of the scalar raises it
to the key. -/
theorem unblind (member : element ∈ group.nonidentity) (key : Nat) {scalar : Nat}
    (positive : 0 < scalar) (below : scalar < group.subgroupOrder) :
    powerMod (powerMod (powerMod element scalar group.modulus) key group.modulus)
        (invMod scalar group.subgroupOrder) group.modulus =
      powerMod element key group.modulus := by
  have modulusPositive : 0 < group.modulus := group.modulusPrime.pos
  have coprime : scalar.Coprime group.subgroupOrder :=
    (Nat.coprime_of_lt_prime positive.ne' below group.orderPrime).symm
  have inverse := mul_invMod coprime group.orderPrime.one_lt
  have power := ((PrimeGroup.mem_nonidentity_iff member.1).mp member).1
  apply eq_of_cast_eq (Nat.mod_lt _ modulusPositive) (Nat.mod_lt _ modulusPositive)
  calc (powerMod (powerMod (powerMod element scalar group.modulus) key group.modulus)
        (invMod scalar group.subgroupOrder) group.modulus : ZMod group.modulus)
      = ((element : ZMod group.modulus) ^ (scalar * invMod scalar group.subgroupOrder)) ^ key := by
        rw [cast_powerMod, cast_powerMod, cast_powerMod]
        ring
    _ = (element : ZMod group.modulus) ^ key := by rw [pow_eq_self_of_modEq power inverse]
    _ = (powerMod element key group.modulus : ZMod group.modulus) := by rw [cast_powerMod]

/-- A key raises elements of the subgroup other than one to such elements. -/
theorem powerMod_nonidentity (member : element ∈ group.nonidentity)
    (key : SecretKey group.toPublicParameters) :
    powerMod element key.scalar group.modulus ∈ group.nonidentity :=
  (PrimeGroup.bijOn_powerMod member).mapsTo ⟨key.positive, key.below⟩

/-- The direct evaluation of an input that hashes encodes an element other than one. -/
theorem directEvaluate_ok (key : SecretKey group.toPublicParameters)
    (hashed : hashToGroup group.toPublicParameters shake256 input = some element) :
    ∃ output, directEvaluate group.toPublicParameters shake256 key input = some (.ok output) ∧
      fromBigEndian output ∈ group.nonidentity := by
  have raised := powerMod_nonidentity (hashToGroup_nonidentity hashed) key
  obtain ⟨output, encoded, value⟩ := toBigEndian_ok group raised.1
  exact ⟨output, by rw [directEvaluate, hashed, Option.map_some, encoded], value ▸ raised⟩

/-- A fresh blind returns what the direct evaluation returns, and is consumed. -/
theorem evaluatePrepared_fresh (shake256 : Shake256)
    (key : SecretKey group.toPublicParameters) (input : List Byte) {scalar : Nat}
    (positive : 0 < scalar) (below : scalar < group.subgroupOrder) :
    evaluatePrepared group.toPublicParameters shake256 key input
        (prepareBlind group.toPublicParameters scalar) =
      (directEvaluate group.toPublicParameters shake256 key input).map fun returned =>
        (returned, { prepareBlind group.toPublicParameters scalar with consumed := true }) := by
  unfold evaluatePrepared directEvaluate blindedRequest
  rw [prepareBlind, if_neg Bool.false_ne_true]
  cases hashed : hashToGroup group.toPublicParameters shake256 input with
  | none => rfl
  | some element =>
    have cancelled := unblind (hashToGroup_nonidentity hashed) key.scalar positive below
    simp only [Option.map_some, cancelled]

/-- On an unused blind, whatever its scalar, `EvaluatePrepared` returns the bytes `DirectEvaluate`
returns, and they encode an element of the subgroup other than one. -/
theorem evaluatePrepared_eq_directEvaluate (key : SecretKey group.toPublicParameters)
    {scalar : Nat} (positive : 0 < scalar) (below : scalar < group.subgroupOrder)
    (hashed : hashToGroup group.toPublicParameters shake256 input = some element) :
    ∃ output, directEvaluate group.toPublicParameters shake256 key input = some (.ok output) ∧
      evaluatePrepared group.toPublicParameters shake256 key input
          (prepareBlind group.toPublicParameters scalar) =
        some (.ok output,
          { prepareBlind group.toPublicParameters scalar with consumed := true }) ∧
      fromBigEndian output ∈ group.nonidentity := by
  obtain ⟨output, direct, member⟩ := directEvaluate_ok key hashed
  have fresh := evaluatePrepared_fresh shake256 key input positive below
  rw [direct, Option.map_some] at fresh
  exact ⟨output, direct, fresh, member⟩

/-! ## Separation of inputs -/

/-- A scalar from 1 to the order less one raises different elements of the subgroup to different
powers: raising to its inverse leads back. -/
theorem powerMod_inj {left right scalar : Nat} (leftMember : left ∈ group.nonidentity)
    (rightMember : right ∈ group.nonidentity) (positive : 0 < scalar)
    (below : scalar < group.subgroupOrder)
    (same : powerMod left scalar group.modulus = powerMod right scalar group.modulus) :
    left = right := by
  have leftBack := unblind leftMember 1 positive below
  have rightBack := unblind rightMember 1 positive below
  rw [same, rightBack] at leftBack
  simp only [powerMod, pow_one, Nat.mod_eq_of_lt leftMember.1,
    Nat.mod_eq_of_lt rightMember.1] at leftBack
  exact leftBack.symm

/-- Every power `PowerMod` computes is encoded. -/
theorem toBigEndian_powerMod (group : PrimeGroup) (base exponent : Nat) :
    ∃ output, toBigEndian group.toPublicParameters (powerMod base exponent group.modulus) =
        .ok output ∧
      fromBigEndian output = powerMod base exponent group.modulus :=
  toBigEndian_ok group (Nat.mod_lt _ group.modulusPrime.pos)

/-- Inputs with the same direct evaluation have the same hash. -/
theorem directEvaluate_inj {key : SecretKey group.toPublicParameters} {left right : List Byte}
    (same : directEvaluate group.toPublicParameters shake256 key left =
      directEvaluate group.toPublicParameters shake256 key right) :
    hashToGroup group.toPublicParameters shake256 left =
      hashToGroup group.toPublicParameters shake256 right := by
  unfold directEvaluate at same
  cases leftHashed : hashToGroup group.toPublicParameters shake256 left with
  | none =>
    rw [leftHashed, Option.map_none] at same
    exact (Option.map_eq_none_iff.mp same.symm).symm
  | some leftElement =>
    cases rightHashed : hashToGroup group.toPublicParameters shake256 right with
    | none =>
      rw [leftHashed, rightHashed] at same
      contradiction
    | some rightElement =>
      obtain ⟨output, leftEncoded, leftValue⟩ := toBigEndian_powerMod group leftElement key.scalar
      obtain ⟨other, rightEncoded, rightValue⟩ :=
        toBigEndian_powerMod group rightElement key.scalar
      rw [leftHashed, rightHashed, Option.map_some, Option.map_some, leftEncoded, rightEncoded]
        at same
      obtain rfl := Except.ok.inj (Option.some.inj same)
      rw [powerMod_inj (hashToGroup_nonidentity leftHashed) (hashToGroup_nonidentity rightHashed)
        key.positive key.below (leftValue.symm.trans rightValue)]

/-- Two inputs that hash have the same direct evaluation exactly when they hash to the same element,
and `ToBigEndian` throws on no power `PowerMod` computes. -/
theorem directEvaluate_separates (key : SecretKey group.toPublicParameters)
    {left right : List Byte} {leftElement rightElement : Nat}
    (leftHashed : hashToGroup group.toPublicParameters shake256 left = some leftElement)
    (rightHashed : hashToGroup group.toPublicParameters shake256 right = some rightElement) :
    (∃ leftOutput rightOutput,
      directEvaluate group.toPublicParameters shake256 key left = some (.ok leftOutput) ∧
      directEvaluate group.toPublicParameters shake256 key right = some (.ok rightOutput) ∧
      (leftOutput = rightOutput ↔ leftElement = rightElement)) ∧
    ∀ base exponent, ∃ output,
      toBigEndian group.toPublicParameters (powerMod base exponent group.modulus) = .ok output := by
  constructor
  · obtain ⟨leftOutput, leftDirect, -⟩ := directEvaluate_ok key leftHashed
    obtain ⟨rightOutput, rightDirect, -⟩ := directEvaluate_ok key rightHashed
    refine ⟨leftOutput, rightOutput, leftDirect, rightDirect, ?_, ?_⟩
    · rintro rfl
      have hashes := directEvaluate_inj (leftDirect.trans rightDirect.symm)
      rw [leftHashed, rightHashed] at hashes
      exact Option.some.inj hashes
    · rintro rfl
      unfold directEvaluate at leftDirect rightDirect
      rw [leftHashed] at leftDirect
      rw [rightHashed, leftDirect] at rightDirect
      exact Except.ok.inj (Option.some.inj rightDirect)
  · intro base exponent
    have encoded := toBigEndian_powerMod group base exponent
    exact encoded.imp fun _ written => written.1

/-! ## A small group -/

/-- The subgroup of order 11 modulo 23. -/
def smallGroup : PrimeGroup where
  modulus := 23
  subgroupOrder := 11
  generator := 2
  modulusPrime := by decide
  orderPrime := by decide
  divides := by decide
  wide := by decide
  fits := lt_of_lt_of_le (by decide : 23 < 256 ^ 1) (Nat.pow_le_pow_right (by decide) (by decide))
  scalarFits := by decide

/-- An extendable output function that repeats the length of what it was fed. -/
def lengthShake256 : Shake256 := fun bytes => Vector.replicate _ (BitVec.ofNat 8 bytes.length)

/-- An extendable output function that repeats the sum of the bytes it was fed. -/
def sumShake256 : Shake256 := fun bytes => Vector.replicate _ (bytes.foldl (· + ·) 0)

/-- In the small group, by lengths, the empty input hashes to 4. -/
theorem hashToGroup_small :
    hashToGroup smallGroup.toPublicParameters lengthShake256 [] = some 4 := by
  decide +kernel

/-- Both evaluations of the empty input in the small group. -/
theorem evaluatePrepared_small :
    ∃ output, directEvaluate smallGroup.toPublicParameters lengthShake256
        ⟨3, by decide, by decide⟩ [] = some (.ok output) ∧
      evaluatePrepared smallGroup.toPublicParameters lengthShake256 ⟨3, by decide, by decide⟩ []
          (prepareBlind smallGroup.toPublicParameters 7) =
        some (.ok output, { prepareBlind smallGroup.toPublicParameters 7 with consumed := true }) ∧
      fromBigEndian output ∈ smallGroup.nonidentity :=
  evaluatePrepared_eq_directEvaluate _ (by decide) (by decide) hashToGroup_small

/-- There the input of two zero bytes hashes to 6. -/
theorem hashToGroup_small_zeros :
    hashToGroup smallGroup.toPublicParameters lengthShake256 [0, 0] = some 6 := by
  decide +kernel

/-- The empty input and the input of two zero bytes in the small group. -/
theorem directEvaluate_separates_small :
    (∃ leftOutput rightOutput,
      directEvaluate smallGroup.toPublicParameters lengthShake256 ⟨3, by decide, by decide⟩ [] =
        some (.ok leftOutput) ∧
      directEvaluate smallGroup.toPublicParameters lengthShake256 ⟨3, by decide, by decide⟩ [0, 0] =
        some (.ok rightOutput) ∧
      (leftOutput = rightOutput ↔ 4 = 6)) ∧
    ∀ base exponent, ∃ output,
      toBigEndian smallGroup.toPublicParameters (powerMod base exponent smallGroup.modulus) =
        .ok output :=
  directEvaluate_separates _ hashToGroup_small hashToGroup_small_zeros

end Vlse.Oprf
