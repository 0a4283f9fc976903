import Vlse.Benchmark.Common
import Vlse.Foundation.Guards
/-!
# The rows of the benchmarks and their validator

Both benchmarks print one `RESULT` row with the same fields, and `validate_row` of the summarizer
recomputes from it what the fields must be. A row passes exactly when its byte figures and counts
satisfy the equations, no timing flag is set, a checkpoint has a time exactly when the queries
reach it, and two times are close to sums of others.
-/

namespace Vlse.Benchmark

/-- A row as `parse_result` reads it. -/
structure Row where
  /-- `protocol`. -/
  protocol : String
  /-- `backend` and `group`. -/
  (backend group : String)
  /-- `modulus_bits` and `subgroup_bits`. -/
  (modulusBits subgroupBits : Int)
  /-- The options. -/
  (seed keywords queries dmax : Int)
  /-- `setup_ms`, and the phases it is made of. -/
  (setupMs setupInitializationMs setupGenuineMs setupInsertMs setupDummyMs : ℚ)
  /-- `blind_precompute_ms`. -/
  blindPrecomputeMs : ℚ
  /-- `tgen_ms`, `search_decrypt_ms` and `online_ms`, their sum. -/
  (tgenMs searchDecryptMs onlineMs : ℚ)
  /-- `serialized_bytes` and `cache_object_bytes`. -/
  (serializedBytes cacheObjectBytes : Int)
  /-- `communication_bytes` and `cold_total_bytes`. -/
  (communicationBytes coldTotalBytes : Int)
  /-- `cold_amortized_bytes_per_keyword`. -/
  coldAmortizedBytesPerKeyword : ℚ
  /-- `first_cold_query_bytes` and `warm_marginal_bytes_per_keyword`. -/
  (firstColdQueryBytes warmMarginalBytesPerKeyword : Int)
  /-- `oprf_evaluations_per_query` and `oprf_wire_bytes_per_query`. -/
  (oprfEvaluationsPerQuery oprfWireBytesPerQuery : Int)
  /-- `genuine_records`, `dummy_records`, `dummy_components` and `capacity_slots`. -/
  (genuineRecords dummyRecords dummyComponents capacitySlots : Int)
  /-- `setup_attempts` and `failed_setup_attempts`. -/
  (setupAttempts failedSetupAttempts : Int)
  /-- `successful_inserts` and `failed_inserts`. -/
  (successfulInserts failedInserts : Int)
  /-- `eviction_steps`, `rollback_count` and `maximum_eviction_chain`. -/
  (evictionSteps rollbackCount maximumEvictionChain : Int)
  /-- `relocation_steps` and `maximum_relocation_chain`. -/
  (relocationSteps maximumRelocationChain : Int)
  /-- `query_successes`. -/
  querySuccesses : Int
  /-- `candidate_records_total` and `candidate_records_max`. -/
  (candidateRecordsTotal candidateRecordsMax : Int)
  /-- `decrypt_component_attempts`. -/
  decryptComponentAttempts : Int
  /-- `keygen_included` and `blind_precompute_included_in_online`. -/
  (keygenIncluded blindPrecomputeIncludedInOnline : Int)
  /-- `dataset_generation_included`, `file_io_included` and `log_io_included`. -/
  (datasetGenerationIncluded fileIoIncluded logIoIncluded : Int)
  /-- `network_delay_included`. -/
  networkDelayIncluded : Int
  /-- `online_ms_q200` to `online_ms_q1000`. -/
  onlineMsAt : Vector ℚ 5

namespace Row

/-- The timing flags `validate_row` wants unset, by name. -/
def excluded (row : Row) : List (String × Int) :=
  [("keygen_included", row.keygenIncluded),
    ("blind_precompute_included_in_online", row.blindPrecomputeIncludedInOnline),
    ("dataset_generation_included", row.datasetGenerationIncluded),
    ("file_io_included", row.fileIoIncluded),
    ("log_io_included", row.logIoIncluded),
    ("network_delay_included", row.networkDelayIncluded)]

/-- `expected_total`. -/
def expectedTotal (row : Row) : Int :=
  row.cacheObjectBytes + row.queries * row.oprfWireBytesPerQuery

/-- `phase_sum`. -/
def phaseSum (doubles : Doubles) (row : Row) : ℚ :=
  doubles.add (doubles.add (doubles.add row.setupInitializationMs row.setupGenuineMs)
    row.setupInsertMs) row.setupDummyMs

end Row

/-- `abs(left - right) > 0.01`. -/
def apart (doubles : Doubles) (left right : ℚ) : Bool :=
  doubles.round (1 / 100) < |doubles.round (left - right)|

/-- The turn of `validate_row` for a checkpoint. -/
def checkCheckpoint (row : Row) (checkpoint : Fin 5) : Except String Unit := do
  let queries := queryCheckpoints.get checkpoint
  let value := row.onlineMsAt.get checkpoint
  raiseIf (row.queries ≥ queries ∧ value < 0)
    (row.protocol ++ ": missing query checkpoint " ++ toString queries)
  raiseIf (row.queries < queries ∧ value ≥ 0)
    (row.protocol ++ ": unexpected query checkpoint " ++ toString queries)

/-- `validate_row`; the exception is the message of its `SystemExit`. -/
def validateRow (doubles : Doubles) (row : Row) : Except String Unit := do
  raiseIf (row.serializedBytes ≠ row.cacheObjectBytes)
    (row.protocol ++ ": serialized/cache-object byte mismatch")
  raiseIf (row.communicationBytes ≠ row.expectedTotal)
    (row.protocol ++ ": communication is not S + s*c")
  raiseIf (row.coldTotalBytes ≠ row.expectedTotal)
    (row.protocol ++ ": cold-total byte mismatch")
  raiseIf (row.firstColdQueryBytes ≠ row.cacheObjectBytes + row.oprfWireBytesPerQuery)
    (row.protocol ++ ": first-cold-query byte mismatch")
  raiseIf (row.warmMarginalBytesPerKeyword ≠ row.oprfWireBytesPerQuery)
    (row.protocol ++ ": warm marginal is not c")
  raiseIf (row.genuineRecords + row.dummyRecords ≠ row.capacitySlots)
    (row.protocol ++ ": genuine + dummy does not equal capacity")
  raiseIf (row.dummyComponents ≠ row.dummyRecords * row.dmax)
    (row.protocol ++ ": dummy-component count mismatch")
  raiseIf (row.querySuccesses ≠ row.queries)
    (row.protocol ++ ": not every query succeeded")
  row.excluded.forM fun flag =>
    raiseIf (flag.2 ≠ 0) (row.protocol ++ ": unexpected timing flag " ++ flag.1 ++ "=1")
  raiseIf (apart doubles (row.phaseSum doubles) row.setupMs)
    (row.protocol ++ ": Setup phases do not partition setup_ms (" ++
      doubles.repr (row.phaseSum doubles) ++ " vs " ++ doubles.repr row.setupMs ++ ")")
  (List.finRange 5).forM (checkCheckpoint row)
  raiseIf (row.queries = 1000 ∧ apart doubles (row.onlineMsAt.get (Fin.last 4)) row.onlineMs)
    (row.protocol ++ ": q=1000 checkpoint does not equal online_ms")

/-- What `validate_row` demands of the byte figures, the counts, the flags and the checkpoints. -/
structure Row.Consistent (row : Row) : Prop where
  /-- The object is what was serialized. -/
  serialized : row.serializedBytes = row.cacheObjectBytes
  /-- Communication is the object and what every query sends. -/
  communication : row.communicationBytes =
    row.cacheObjectBytes + row.queries * row.oprfWireBytesPerQuery
  /-- So is the cold total. -/
  coldTotal : row.coldTotalBytes = row.cacheObjectBytes + row.queries * row.oprfWireBytesPerQuery
  /-- The first cold query costs the object and what one query sends. -/
  firstCold : row.firstColdQueryBytes = row.cacheObjectBytes + row.oprfWireBytesPerQuery
  /-- A warm query costs what one query sends. -/
  warm : row.warmMarginalBytesPerKeyword = row.oprfWireBytesPerQuery
  /-- Every slot holds a genuine record or a dummy. -/
  records : row.genuineRecords + row.dummyRecords = row.capacitySlots
  /-- Every dummy has `dmax` components. -/
  components : row.dummyComponents = row.dummyRecords * row.dmax
  /-- Every query succeeded. -/
  successes : row.querySuccesses = row.queries
  /-- No timing flag is set. -/
  flags : ∀ flag ∈ row.excluded, flag.2 = 0
  /-- A checkpoint has a time exactly when the queries reach it. -/
  checkpoints : ∀ checkpoint, 0 ≤ row.onlineMsAt.get checkpoint ↔
    (queryCheckpoints.get checkpoint : Int) ≤ row.queries

/-- The phases of Setup add up to its time. -/
def Row.PhasesClose (doubles : Doubles) (row : Row) : Prop :=
  apart doubles (row.phaseSum doubles) row.setupMs = false

/-- The last checkpoint, where it ends the queries, is the online time. -/
def Row.LastClose (doubles : Doubles) (row : Row) : Prop :=
  row.queries = 1000 → apart doubles (row.onlineMsAt.get (Fin.last 4)) row.onlineMs = false

/-- A checkpoint passes exactly when it has a time just in case the queries reach it. -/
theorem checkCheckpoint_eq_ok (row : Row) (checkpoint : Fin 5) :
    checkCheckpoint row checkpoint = .ok () ↔ (0 ≤ row.onlineMsAt.get checkpoint ↔
      (queryCheckpoints.get checkpoint : Int) ≤ row.queries) := by
  unfold checkCheckpoint
  rw [check_bind_eq_ok, raiseIf_eq_ok, raiseIf_eq_ok, ge_iff_le, ge_iff_le, not_and, not_and,
    not_lt, not_le]
  constructor
  · intro passes
    refine ⟨fun present => ?_, passes.1⟩
    by_contra beyond
    exact absurd (passes.2 (not_le.mp beyond)) (not_lt.mpr present)
  · intro present
    refine ⟨present.mpr, fun beyond => not_le.mp fun value => ?_⟩
    exact absurd (present.mp value) (not_le.mpr beyond)

/-- A row passes exactly when it is consistent and the two times are close. -/
theorem validateRow_eq_ok (doubles : Doubles) (row : Row) :
    validateRow doubles row = .ok () ↔
      row.Consistent ∧ row.PhasesClose doubles ∧ row.LastClose doubles := by
  unfold validateRow
  simp only [check_bind_eq_ok, raiseIf_eq_ok, forM_eq_ok, checkCheckpoint_eq_ok, not_not,
    Bool.not_eq_true, not_and]
  constructor
  · intro passes
    obtain ⟨serialized, communication, coldTotal, firstCold, warm, records, components, successes,
      flags, phases, checkpoints, last⟩ := passes
    exact ⟨{
      serialized, communication, coldTotal, firstCold, warm, records, components, successes, flags
      checkpoints := fun checkpoint => checkpoints checkpoint (List.mem_finRange checkpoint) },
      phases, last⟩
  · intro demanded
    have row := demanded.1
    exact ⟨row.serialized, row.communication, row.coldTotal, row.firstCold, row.warm, row.records,
      row.components, row.successes, row.flags, demanded.2.1,
      fun checkpoint _ => row.checkpoints checkpoint, demanded.2.2⟩

/-! ## Rows of exact figures -/

/-- A row with the figures of an object, of what a query sends and of the slots, as a benchmark
prints them when its own sums have not wrapped. -/
structure Row.Prints (doubles : Doubles) (clock : SteadyClock) (options : Options)
    (objectBytes wireBytes dummies slots : Nat) (row : Row) : Prop where
  /-- The options. -/
  asked : row.queries = options.queries ∧ row.dmax = options.dmax
  /-- The object. -/
  object : row.serializedBytes = objectBytes ∧ row.cacheObjectBytes = objectBytes
  /-- The object and what all queries send. -/
  total : row.communicationBytes = (objectBytes + options.queries * wireBytes : Nat) ∧
    row.coldTotalBytes = (objectBytes + options.queries * wireBytes : Nat)
  /-- The object and what one query sends. -/
  firstCold : row.firstColdQueryBytes = ((objectBytes + wireBytes) % 2 ^ 64 : Nat)
  /-- What one query sends. -/
  wire : row.warmMarginalBytesPerKeyword = wireBytes ∧ row.oprfWireBytesPerQuery = wireBytes
  /-- The records. -/
  records : row.genuineRecords = options.keywords ∧ row.dummyRecords = dummies
  /-- The components of the dummies. -/
  components : row.dummyComponents = (dummies * options.dmax % 2 ^ 64 : Nat)
  /-- The slots. -/
  capacity : row.capacitySlots = slots
  /-- The successes. -/
  successes : row.querySuccesses = options.queries
  /-- The flags. -/
  flags : ∀ flag ∈ row.excluded, flag.2 = 0
  /-- The checkpoints. -/
  checkpoints : row.onlineMsAt =
    (queryTimes doubles clock 6 options.queries).onlineCheckpointMs.map doubles.printed

/-- Such a row is consistent where the sums it is printed from do not wrap and the records take
all slots. -/
theorem Row.Prints.consistent {doubles : Doubles} {clock : SteadyClock} {options : Options}
    {objectBytes wireBytes dummies slots : Nat} {row : Row}
    (prints : row.Prints doubles clock options objectBytes wireBytes dummies slots)
    (positive : 0 < options.queries) (fits : objectBytes + options.queries * wireBytes < 2 ^ 64)
    (taken : options.keywords + dummies = slots) (few : dummies * options.dmax < 2 ^ 64) :
    row.Consistent := by
  have single : wireBytes ≤ options.queries * wireBytes := Nat.le_mul_of_pos_left _ positive
  exact {
    serialized := prints.object.1.trans prints.object.2.symm
    communication := by
      rw [prints.total.1, prints.object.2, prints.asked.1, prints.wire.2]
      push_cast
      rfl
    coldTotal := by
      rw [prints.total.2, prints.object.2, prints.asked.1, prints.wire.2]
      push_cast
      rfl
    firstCold := by
      rw [prints.firstCold, prints.object.2, prints.wire.2, Nat.mod_eq_of_lt (by omega)]
      push_cast
      rfl
    warm := prints.wire.1.trans prints.wire.2.symm
    records := by
      rw [prints.records.1, prints.records.2, prints.capacity, ← taken]
      push_cast
      rfl
    components := by
      rw [prints.components, prints.records.2, prints.asked.2, Nat.mod_eq_of_lt few]
      push_cast
      rfl
    successes := prints.successes.trans prints.asked.1.symm
    flags := prints.flags
    checkpoints := by
      intro checkpoint
      rw [prints.checkpoints, prints.asked.1, Nat.cast_le]
      exact printed_queryTimes doubles clock 6 options.queries checkpoint }

/-- No flag is set when each of the six is zero. -/
theorem Row.excluded_unset {row : Row} (keygen : row.keygenIncluded = 0)
    (blinds : row.blindPrecomputeIncludedInOnline = 0) (dataset : row.datasetGenerationIncluded = 0)
    (files : row.fileIoIncluded = 0) (log : row.logIoIncluded = 0)
    (network : row.networkDelayIncluded = 0) : ∀ flag ∈ row.excluded, flag.2 = 0 := by
  simp [Row.excluded, keygen, blinds, dataset, files, log, network]

end Vlse.Benchmark
