import Mathlib.Data.FinEnum
import Vlse.Foundation.Rejection
import Vlse.Oprf.Hiding
/-!
# A session of queries

`PrepareBlindPool` draws the scalars of a pool one after another from one random generator, each by
rejection. A session evaluates keyword after keyword, each with its own blind of the pool. Over
uniform random blocks all pools are equally likely, and the owner sees the same distribution of
requests for any two equally long lists of keywords.
-/

namespace Vlse.Oprf

open ByteBits

section Calls

variable (parameters : PublicParameters) (shake256 : Shake256)

/-- `RandomScalar`, over the blocks the generator still has to give: the scalar and the blocks left
for the next call. -/
def randomScalarFrom : List (Bytes scalarBytes) → Option (Nat × List (Bytes scalarBytes))
  | [] => none
  | block :: blocks =>
    let scalar := fromBigEndian block
    if 0 < scalar ∧ scalar < parameters.subgroupOrder then some (scalar, blocks)
    else randomScalarFrom blocks

/-- `PrepareBlindPool`, with the blocks left. -/
def prepareBlindPool :
    Nat → List (Bytes scalarBytes) → Option (List PreparedBlind × List (Bytes scalarBytes))
  | 0, blocks => some ([], blocks)
  | count + 1, blocks =>
    (randomScalarFrom parameters blocks).bind fun drawn =>
      (prepareBlindPool count drawn.2).map fun pool =>
        (prepareBlind parameters drawn.1 :: pool.1, pool.2)

/-- The requests of the query loop, which evaluates each keyword with the blind at its position. -/
def poolRequests (keywords : List (List Byte)) (pool : List PreparedBlind) : Option (List Nat) :=
  (keywords.zip pool).mapM fun entry =>
    blindedRequest parameters shake256 entry.1 entry.2.scalar

/-- The requests of a session: a pool with a blind for each keyword is prepared first. -/
def sessionRequests (keywords : List (List Byte)) (blocks : List (Bytes scalarBytes)) :
    Option (List Nat) :=
  (prepareBlindPool parameters keywords.length blocks).bind fun pool =>
    poolRequests parameters shake256 keywords pool.1

/-- The blocks that `RandomScalar` accepts. -/
def admissible (block : Bytes scalarBytes) : Bool :=
  0 < fromBigEndian block ∧ fromBigEndian block < parameters.subgroupOrder

end Calls

variable {parameters : PublicParameters} {group : PrimeGroup} {shake256 : Shake256}

/-! ## The pool -/

/-- One call returns what it returns on an endless stream that starts with the blocks left. -/
theorem randomScalarFrom_fst (blocks : List (Bytes scalarBytes)) (beyond : Bytes scalarBytes) :
    (randomScalarFrom parameters blocks).map Prod.fst =
      randomScalar parameters blocks.length fun index => blocks.getD index beyond := by
  induction blocks with
  | nil => rfl
  | cons block blocks ih =>
    have first : (block :: blocks).getD 0 beyond = block := rfl
    rw [randomScalarFrom, List.length_cons, randomScalar]
    simp only [first]
    split
    · rfl
    · exact ih

/-- The blinds of a pool are those of the first admissible blocks. -/
theorem prepareBlindPool_fst (count : Nat) (blocks : List (Bytes scalarBytes)) :
    (prepareBlindPool parameters count blocks).map Prod.fst =
      (acceptedDraws (admissible parameters) count blocks).map
        (List.map fun block => prepareBlind parameters (fromBigEndian block)) := by
  induction blocks generalizing count with
  | nil => cases count <;> rfl
  | cons block blocks ih =>
    cases count with
    | zero => rfl
    | succ count =>
      by_cases inside : 0 < fromBigEndian block ∧ fromBigEndian block < parameters.subgroupOrder
      · have accepted : admissible parameters block = true := decide_eq_true inside
        have rest := ih count
        calc (prepareBlindPool parameters (count + 1) (block :: blocks)).map Prod.fst
            = ((prepareBlindPool parameters count blocks).map Prod.fst).map
                (prepareBlind parameters (fromBigEndian block) :: ·) := by
              rw [prepareBlindPool, randomScalarFrom, if_pos inside, Option.bind_some,
                Option.map_map, Option.map_map]
              rfl
          _ = ((acceptedDraws (admissible parameters) count blocks).map (block :: ·)).map
                (List.map fun block => prepareBlind parameters (fromBigEndian block)) := by
              rw [rest, Option.map_map, Option.map_map]
              rfl
          _ = _ := by rw [acceptedDraws, if_pos accepted]
      · have rejected : ¬ admissible parameters block = true := by
          rw [admissible, decide_eq_true_eq]
          exact inside
        have rest := ih (count + 1)
        rw [acceptedDraws, if_neg rejected, ← rest, prepareBlindPool, prepareBlindPool,
          randomScalarFrom, if_neg inside]

/-- Reading a block is one to one from the admissible blocks onto the scalars. -/
theorem bijOn_fromBigEndian (group : PrimeGroup) :
    Set.BijOn (fromBigEndian : Bytes scalarBytes → Nat)
      {block | admissible group.toPublicParameters block = true}
      (Set.Ico 1 group.subgroupOrder) := by
  refine ⟨?_, fun left _ right _ same => fromBigEndian_injective same, ?_⟩
  · intro block accepted
    exact of_decide_eq_true accepted
  · intro scalar inside
    have value := (storeBigEndian_of_lt (inside.2.trans_le group.scalarFits)).2
    refine ⟨(storeBigEndian scalarBytes scalar).1, ?_, value⟩
    have accepted : admissible group.toPublicParameters (storeBigEndian scalarBytes scalar).1 =
        true := by
      rw [admissible, value]
      exact decide_eq_true inside
    exact accepted

/-- The scalars of a pool are admissible, and its inverses undo them. -/
theorem prepareBlindPool_spec {count : Nat} {blocks left : List (Bytes scalarBytes)}
    {pool : List PreparedBlind}
    (prepared : prepareBlindPool parameters count blocks = some (pool, left)) :
    ∃ scalars : List Nat, scalars.length = count ∧
      (∀ scalar ∈ scalars, scalar ∈ Set.Ico 1 parameters.subgroupOrder) ∧
      pool = scalars.map (prepareBlind parameters) := by
  have taken := @prepareBlindPool_fst parameters count blocks
  rw [prepared, Option.map_some] at taken
  obtain ⟨drawn, accepted, read⟩ := Option.map_eq_some_iff.mp taken.symm
  obtain ⟨counted, inside⟩ := acceptedDraws_spec accepted
  refine ⟨drawn.map fromBigEndian, by rw [List.length_map, counted], ?_, ?_⟩
  · intro scalar member
    obtain ⟨block, drew, rfl⟩ := List.mem_map.mp member
    exact of_decide_eq_true (inside block drew)
  · rw [List.map_map]
    exact read.symm

/-! ## Laws -/

/-- There are finitely many byte strings of a length. -/
instance bytesFinite (length : Nat) : Finite (Bytes length) :=
  Finite.of_injective (fun bytes : Bytes length => fun place : Fin length => bytes[place])
    fun left right same => Vector.ext fun place below => congrFun same ⟨place, below⟩

/-- So they can be drawn uniformly. -/
noncomputable instance bytesFintype (length : Nat) : Fintype (Bytes length) := Fintype.ofFinite _

/-- There is a byte string of each length. -/
instance bytesNonempty (length : Nat) : Nonempty (Bytes length) := ⟨Vector.replicate length 0⟩

/-- Independent uniform blocks from the generator. -/
noncomputable def uniformBlocks (length : Nat) : PMF (List.Vector (Bytes scalarBytes) length) :=
  PMF.uniformOfFintype _

/-- The law of the pools that `PrepareBlindPool` returns, none when the blocks run out. -/
noncomputable def poolLaw (parameters : PublicParameters) (count length : Nat) :
    PMF (Option (List PreparedBlind)) :=
  (uniformBlocks length).map fun blocks =>
    (prepareBlindPool parameters count blocks.1).map Prod.fst

/-- The law of the requests of a session. -/
noncomputable def sessionLaw (parameters : PublicParameters) (shake256 : Shake256)
    (keywords : List (List Byte)) (length : Nat) : PMF (Option (List Nat)) :=
  (uniformBlocks length).map fun blocks =>
    sessionRequests parameters shake256 keywords blocks.1

/-- Scalars are read from admissible blocks. -/
theorem exists_blocks {scalars : List Nat}
    (inside : ∀ scalar ∈ scalars, scalar ∈ Set.Ico 1 group.subgroupOrder) :
    ∃ blocks : List (Bytes scalarBytes), blocks.map fromBigEndian = scalars ∧
      ∀ block ∈ blocks, admissible group.toPublicParameters block = true := by
  induction scalars with
  | nil => exact ⟨[], rfl, fun block member => by contradiction⟩
  | cons scalar scalars ih =>
    obtain ⟨blocks, read, accepted⟩ :=
      ih fun other member => inside other (List.mem_cons_of_mem scalar member)
    obtain ⟨block, first, value⟩ :=
      (bijOn_fromBigEndian group).surjOn (inside scalar List.mem_cons_self)
    refine ⟨block :: blocks, by rw [List.map_cons, value, read], fun other member => ?_⟩
    rcases List.mem_cons.mp member with rfl | later
    · exact first
    · exact accepted other later

/-- The pools for two lists of scalars of the length asked for are equally likely, and no others are
returned. -/
theorem poolLaw_uniform (group : PrimeGroup) (count length : Nat) :
    (∀ first second : List Nat, first.length = count → second.length = count →
      (∀ scalar ∈ first, scalar ∈ Set.Ico 1 group.subgroupOrder) →
      (∀ scalar ∈ second, scalar ∈ Set.Ico 1 group.subgroupOrder) →
      poolLaw group.toPublicParameters count length
          (some (first.map (prepareBlind group.toPublicParameters))) =
        poolLaw group.toPublicParameters count length
          (some (second.map (prepareBlind group.toPublicParameters)))) ∧
    ∀ pool, poolLaw group.toPublicParameters count length (some pool) ≠ 0 →
      ∃ scalars : List Nat, scalars.length = count ∧
        (∀ scalar ∈ scalars, scalar ∈ Set.Ico 1 group.subgroupOrder) ∧
        pool = scalars.map (prepareBlind group.toPublicParameters) := by
  constructor
  · intro first second firstCounted secondCounted firstInside secondInside
    obtain ⟨firstBlocks, rfl, firstAccepted⟩ := exists_blocks firstInside
    obtain ⟨secondBlocks, rfl, secondAccepted⟩ := exists_blocks secondInside
    rw [List.length_map] at firstCounted secondCounted
    have read : ∀ blocks other : List (Bytes scalarBytes),
        other.map (fun block => prepareBlind group.toPublicParameters (fromBigEndian block)) =
          (blocks.map fromBigEndian).map (prepareBlind group.toPublicParameters) ↔
        other = blocks := by
      intro blocks other
      rw [List.map_map]
      refine List.map_inj_right fun left right same => ?_
      exact fromBigEndian_injective (congrArg PreparedBlind.scalar same)
    have law : ∀ blocks : List (Bytes scalarBytes),
        poolLaw group.toPublicParameters count length
            (some ((blocks.map fromBigEndian).map (prepareBlind group.toPublicParameters))) =
          (PMF.uniformOfFintype (List.Vector (Bytes scalarBytes) length)).map
            (fun draws => acceptedDraws (admissible group.toPublicParameters) count draws.1)
            (some blocks) := by
      intro blocks
      refine map_uniformOfFintype_apply_eq (Equiv.refl _) fun draws => ?_
      rw [Equiv.refl_apply, prepareBlindPool_fst]
      cases acceptedDraws (admissible group.toPublicParameters) count draws.1 with
      | none => simp
      | some other => rw [Option.map_some, Option.some.injEq, Option.some.injEq, read]
    rw [law, law, ← secondCounted]
    exact acceptedDraws_uniform length (secondCounted.trans firstCounted.symm) secondAccepted
      firstAccepted
  · intro pool possible
    obtain ⟨blocks, -, prepared⟩ := (PMF.mem_support_map_iff _ _ _).mp
      ((PMF.mem_support_iff _ _).mpr possible)
    obtain ⟨⟨returned, left⟩, drawn, rfl⟩ := Option.map_eq_some_iff.mp prepared
    exact prepareBlindPool_spec drawn

/-! ## Requests -/

/-- The request for a keyword as a reading of the block its blind is drawn from. -/
def requestReading (parameters : PublicParameters) (shake256 : Shake256) (keyword : List Byte)
    (block : Bytes scalarBytes) : Option Nat :=
  blindedRequest parameters shake256 keyword (fromBigEndian block)

/-- For a keyword that hashes it is one to one onto the elements other than one. -/
theorem bijOn_requestReading {keyword : List Byte}
    (hashes : (hashToGroup group.toPublicParameters shake256 keyword).isSome) :
    Set.BijOn (requestReading group.toPublicParameters shake256 keyword)
      {block | admissible group.toPublicParameters block = true} (some '' group.nonidentity) := by
  obtain ⟨element, hashed⟩ := Option.isSome_iff_exists.mp hashes
  exact (bijOn_blindedRequest hashed).comp (bijOn_fromBigEndian group)

/-- The requests of a session are readings of the first admissible blocks. -/
theorem sessionRequests_eq (keywords : List (List Byte)) (blocks : List (Bytes scalarBytes)) :
    sessionRequests parameters shake256 keywords blocks =
      ((acceptedDraws (admissible parameters) (keywords.map
          (requestReading parameters shake256)).length blocks).map
        (List.zipWith (fun f draw => f draw)
          (keywords.map (requestReading parameters shake256)))).bind fun requests =>
        requests.mapM id := by
  have pool := @prepareBlindPool_fst parameters keywords.length blocks
  have split : sessionRequests parameters shake256 keywords blocks =
      ((prepareBlindPool parameters keywords.length blocks).map Prod.fst).bind
        (poolRequests parameters shake256 keywords) := by
    rw [Option.bind_map]
    rfl
  rw [split, pool, Option.bind_map, Option.bind_map, List.length_map]
  refine congrArg _ (funext fun draws => ?_)
  rw [Function.comp_apply, Function.comp_apply, poolRequests, List.zip_map_right, List.mapM_map,
    List.zipWith_map_left, ← List.map_uncurry_zip_eq_zipWith, List.mapM_map]
  rfl

/-- Requests that were all sent are those read. -/
theorem mapM_id_eq_some {requests : List (Option Nat)} {sent : List Nat} :
    requests.mapM id = some sent ↔ requests = sent.map some := by
  induction requests generalizing sent with
  | nil => cases sent <;> simp
  | cons request requests ih =>
    cases request with
    | none => cases sent <;> simp
    | some first =>
      cases sent with
      | nil => simp [Option.bind_eq_some_iff]
      | cons other sent =>
        simp only [List.mapM_cons, id_eq, Option.bind_eq_bind, Option.bind_some,
          Option.bind_eq_some_iff, Option.pure_def, Option.some.injEq, List.cons.injEq,
          List.map_cons, ih]
        exact ⟨fun found => by grind, fun both => ⟨sent, both.2, both.1, rfl⟩⟩

/-- Elements other than one are requests under admissible blocks. -/
theorem exists_readings {keywords : List (List Byte)} {elements : List Nat}
    (hash : ∀ keyword ∈ keywords,
      (hashToGroup group.toPublicParameters shake256 keyword).isSome)
    (counted : elements.length = keywords.length)
    (members : ∀ element ∈ elements, element ∈ group.nonidentity) :
    ∃ blocks : List (Bytes scalarBytes), blocks.length = keywords.length ∧
      (∀ block ∈ blocks, admissible group.toPublicParameters block = true) ∧
      List.zipWith (fun f draw => f draw)
          (keywords.map (requestReading group.toPublicParameters shake256)) blocks =
        elements.map some := by
  induction keywords generalizing elements with
  | nil =>
    rw [List.length_eq_zero_iff.mp counted]
    exact ⟨[], rfl, fun block member => by contradiction, rfl⟩
  | cons keyword keywords ih =>
    cases elements with
    | nil => contradiction
    | cons element elements =>
      obtain ⟨blocks, sameLength, accepted, read⟩ :=
        ih (fun other member => hash other (List.mem_cons_of_mem keyword member))
          (Nat.succ.inj counted) fun other member => members other (List.mem_cons_of_mem _ member)
      have onto := (bijOn_requestReading (hash keyword List.mem_cons_self)).surjOn
      obtain ⟨block, first, value⟩ := onto ⟨element, members element List.mem_cons_self, rfl⟩
      refine ⟨block :: blocks, by rw [List.length_cons, sameLength, List.length_cons], ?_, ?_⟩
      · intro other member
        rcases List.mem_cons.mp member with rfl | later
        · exact first
        · exact accepted other later
      · rw [List.map_cons, List.zipWith_cons_cons, value, read, List.map_cons]

/-- A list of requests is as likely as the blocks that lead to it. -/
theorem exists_sessionLaw {keywords : List (List Byte)} {elements : List Nat} (length : Nat)
    (hash : ∀ keyword ∈ keywords,
      (hashToGroup group.toPublicParameters shake256 keyword).isSome)
    (counted : elements.length = keywords.length)
    (members : ∀ element ∈ elements, element ∈ group.nonidentity) :
    ∃ blocks : List (Bytes scalarBytes), blocks.length = keywords.length ∧
      (∀ block ∈ blocks, admissible group.toPublicParameters block = true) ∧
      sessionLaw group.toPublicParameters shake256 keywords length (some elements) =
        (PMF.uniformOfFintype (List.Vector (Bytes scalarBytes) length)).map
          (fun draws => acceptedDraws (admissible group.toPublicParameters) keywords.length draws.1)
          (some blocks) := by
  obtain ⟨blocks, sameLength, accepted, read⟩ := exists_readings hash counted members
  refine ⟨blocks, sameLength, accepted, ?_⟩
  have oneToOne : ∀ f ∈ keywords.map (requestReading group.toPublicParameters shake256),
      Set.InjOn f {block | admissible group.toPublicParameters block = true} := by
    intro f inside
    obtain ⟨keyword, member, rfl⟩ := List.mem_map.mp inside
    exact (bijOn_requestReading (hash keyword member)).injOn
  refine map_uniformOfFintype_apply_eq (Equiv.refl _) fun draws => ?_
  rw [Equiv.refl_apply, sessionRequests_eq, List.length_map]
  cases taken : acceptedDraws (admissible group.toPublicParameters) keywords.length draws.1 with
  | none => simp
  | some drawn =>
    obtain ⟨drawnLength, drawnAccepted⟩ := acceptedDraws_spec taken
    rw [Option.map_some, Option.bind_some, mapM_id_eq_some, ← read, Option.some.injEq]
    constructor
    · intro same
      exact zipWith_readings_inj oneToOne (by rw [List.length_map, drawnLength])
        (by rw [List.length_map, sameLength]) drawnAccepted accepted same
    · rintro rfl
      rfl

/-- The owner sees equally long sessions of keywords that hash alike: the requests have the same
law, failure included, and all lists of elements other than one are equally likely. -/
theorem sessionLaw_hides (length : Nat) {left right : List (List Byte)}
    (counted : left.length = right.length)
    (leftHash : ∀ keyword ∈ left,
      (hashToGroup group.toPublicParameters shake256 keyword).isSome)
    (rightHash : ∀ keyword ∈ right,
      (hashToGroup group.toPublicParameters shake256 keyword).isSome) :
    sessionLaw group.toPublicParameters shake256 left length =
      sessionLaw group.toPublicParameters shake256 right length ∧
    ∀ first second : List Nat, first.length = left.length → second.length = left.length →
      (∀ element ∈ first, element ∈ group.nonidentity) →
      (∀ element ∈ second, element ∈ group.nonidentity) →
      sessionLaw group.toPublicParameters shake256 left length (some first) =
        sessionLaw group.toPublicParameters shake256 left length (some second) := by
  constructor
  · have law : ∀ keywords : List (List Byte),
        sessionLaw group.toPublicParameters shake256 keywords length =
          ((PMF.uniformOfFintype (List.Vector (Bytes scalarBytes) length)).map fun draws =>
            (acceptedDraws (admissible group.toPublicParameters) (keywords.map
                (requestReading group.toPublicParameters shake256)).length draws.1).map
              (List.zipWith (fun f draw => f draw)
                (keywords.map (requestReading group.toPublicParameters shake256)))).map
            fun read => read.bind fun requests => requests.mapM id := by
      intro keywords
      rw [PMF.map_comp, sessionLaw, uniformBlocks]
      exact congrArg (PMF.map · _) (funext fun blocks => sessionRequests_eq keywords blocks.1)
    rw [law, law]
    refine congrArg _ (acceptedDraws_readings length ?_)
    rw [List.forall₂_map_left_iff, List.forall₂_map_right_iff, List.forall₂_iff_zip]
    refine ⟨counted, fun member => ⟨some '' group.nonidentity, ?_, ?_⟩⟩
    · exact bijOn_requestReading (leftHash _ (List.of_mem_zip member).1)
    · exact bijOn_requestReading (rightHash _ (List.of_mem_zip member).2)
  · intro first second firstCounted secondCounted firstMembers secondMembers
    obtain ⟨firstBlocks, firstLength, firstAccepted, firstLaw⟩ :=
      exists_sessionLaw length leftHash firstCounted firstMembers
    obtain ⟨secondBlocks, secondLength, secondAccepted, secondLaw⟩ :=
      exists_sessionLaw length leftHash secondCounted secondMembers
    rw [firstLaw, secondLaw, ← secondLength]
    exact acceptedDraws_uniform length (secondLength.trans firstLength.symm) secondAccepted
      firstAccepted

/-- In the small group a session of two keywords looks like one of the same keyword twice. -/
theorem sessionLaw_hides_small :
    sessionLaw smallGroup.toPublicParameters lengthShake256 [[], [0, 0]] 5 =
      sessionLaw smallGroup.toPublicParameters lengthShake256 [[0, 0], [0, 0]] 5 ∧
    ∀ first second : List Nat, first.length = 2 → second.length = 2 →
      (∀ element ∈ first, element ∈ smallGroup.nonidentity) →
      (∀ element ∈ second, element ∈ smallGroup.nonidentity) →
      sessionLaw smallGroup.toPublicParameters lengthShake256 [[], [0, 0]] 5 (some first) =
        sessionLaw smallGroup.toPublicParameters lengthShake256 [[], [0, 0]] 5 (some second) := by
  have hash : ∀ keyword ∈ [[], [0, 0]],
      (hashToGroup smallGroup.toPublicParameters lengthShake256 keyword).isSome := by
    intro keyword inside
    rcases List.mem_pair.mp inside with rfl | rfl
    · rw [hashToGroup_small]
      rfl
    · rw [hashToGroup_small_zeros]
      rfl
  refine sessionLaw_hides 5 rfl hash fun keyword inside => hash keyword ?_
  rw [(List.mem_pair.mp inside).elim id id]
  exact List.mem_cons_of_mem _ List.mem_cons_self

end Vlse.Oprf
