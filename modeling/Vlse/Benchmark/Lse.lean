import Vlse.Benchmark.Row
import Vlse.Lse.RunSpec
/-!
# The LSE benchmark

`Run` of the LSE protocol with the figures that `main` prints. A Setup that returns has put a token
of every keyword in a bin of its own and a dummy in every other bin, whatever relocations it took;
so a row that is printed is consistent where its sizes do not wrap.
-/

namespace Vlse.Benchmark

open ByteBits Vlse.Filter Vlse.Lse

/-! ## The run -/

/-- `Metrics`. -/
structure LseMetrics where
  /-- `blind_precomputation_ms`. -/
  blindPrecomputationMs : ℚ
  /-- `setup_ms`. -/
  setupMs : ℚ
  /-- `setup_initialization_ms`. -/
  setupInitializationMs : ℚ
  /-- `setup_genuine_ms`. -/
  setupGenuineMs : ℚ
  /-- `setup_dummy_ms`. -/
  setupDummyMs : ℚ
  /-- `tgen_ms`, `search_decrypt_ms` and `online_checkpoint_ms`. -/
  times : QueryTimes
  /-- `serialized_bytes`. -/
  serializedBytes : Nat
  /-- `communication_bytes`. -/
  communicationBytes : Nat
  /-- `dummy_records`. -/
  dummyRecords : Nat
  /-- `capacity_slots`. -/
  capacitySlots : Nat
  /-- The figures of the table. -/
  statistics : Lse.Statistics
  /-- The counters of the queries. -/
  queries : Environment.QueryTotals

/-- The keywords as the bytes that are hashed. -/
def lseKeywords (options : Options) : List (List Byte) :=
  (makeKeywords options.keywords options.seed).map literalBytes

/-- There are as many as asked for. -/
@[simp] theorem length_lseKeywords (options : Options) :
    (lseKeywords options).length = options.keywords := by
  rw [lseKeywords, List.length_map, length_makeKeywords]

/-- The metrics `Run` computes at its end. -/
def lseMetrics (doubles : Doubles) (clock : SteadyClock) (options : Options) {binCount : Nat}
    (index : Environment.Index binCount) (queries : Environment.QueryTotals) : LseMetrics :=
  let serializedBytes := binCount * ((384 + options.dmax * 16 % 2 ^ 64) % 2 ^ 64) % 2 ^ 64
  -- the readings before the queries are those of `pre`, then of the four ends of the Setup phases
  { blindPrecomputationMs := doubles.milliseconds (clock.between 0 1)
    setupMs := doubles.milliseconds (clock.between 2 5)
    setupInitializationMs := doubles.milliseconds (clock.between 2 3)
    setupGenuineMs := doubles.milliseconds (clock.between 3 4)
    setupDummyMs := doubles.milliseconds (clock.between 4 5)
    times := queryTimes doubles clock 6 options.queries
    serializedBytes
    communicationBytes := (serializedBytes +
      options.queries * 2 * communicationBytesPerEvaluation % 2 ^ 64) % 2 ^ 64
    dummyRecords := index.dummies
    capacitySlots := binCount
    statistics := index.table.statistics
    queries }

/-- `Run`, with the index it built; at most `limit` draws for each dummy token. -/
def runLse (doubles : Doubles) (clock : SteadyClock) (env : Environment) (options : Options)
    (limit : Nat) : Option (Except Fault LseMetrics) :=
  match env.run options.dmax (lseKeywords options) options.queries limit with
  | none => none
  | some (.error fault) => some (.error fault)
  | some (.ok (index, queries)) => some (.ok (lseMetrics doubles clock options index queries))

/-- The row `main` prints. -/
def lseRow (doubles : Doubles) (options : Options) (metrics : LseMetrics) : Row where
  protocol := "LSE"
  backend := "ntl_gmp_modp3072"
  group := groupIdentifier
  modulusBits := 3072
  subgroupBits := 256
  seed := options.seed
  keywords := options.keywords
  queries := options.queries
  dmax := options.dmax
  setupMs := doubles.printed metrics.setupMs
  setupInitializationMs := doubles.printed metrics.setupInitializationMs
  setupGenuineMs := doubles.printed metrics.setupGenuineMs
  setupInsertMs := 0
  setupDummyMs := doubles.printed metrics.setupDummyMs
  blindPrecomputeMs := doubles.printed metrics.blindPrecomputationMs
  tgenMs := doubles.printed metrics.times.tgenMs
  searchDecryptMs := doubles.printed metrics.times.searchMs
  onlineMs := doubles.printed (doubles.add metrics.times.tgenMs metrics.times.searchMs)
  serializedBytes := metrics.serializedBytes
  cacheObjectBytes := metrics.serializedBytes
  communicationBytes := metrics.communicationBytes
  coldTotalBytes := metrics.communicationBytes
  coldAmortizedBytesPerKeyword := doubles.printed
    (doubles.round (doubles.round metrics.communicationBytes / doubles.round options.queries))
  firstColdQueryBytes :=
    ((metrics.serializedBytes + 2 * communicationBytesPerEvaluation) % 2 ^ 64 : Nat)
  warmMarginalBytesPerKeyword := (2 * communicationBytesPerEvaluation : Nat)
  oprfEvaluationsPerQuery := 2
  oprfWireBytesPerQuery := (2 * communicationBytesPerEvaluation : Nat)
  genuineRecords := options.keywords
  dummyRecords := metrics.dummyRecords
  dummyComponents := (metrics.dummyRecords * options.dmax % 2 ^ 64 : Nat)
  capacitySlots := metrics.capacitySlots
  setupAttempts := 1
  failedSetupAttempts := 0
  successfulInserts := metrics.statistics.successfulInserts
  failedInserts := metrics.statistics.failedInserts
  evictionSteps := 0
  rollbackCount := 0
  maximumEvictionChain := 0
  relocationSteps := metrics.statistics.relocationSteps
  maximumRelocationChain := metrics.statistics.maximumRelocationChain
  querySuccesses := metrics.queries.querySuccesses
  candidateRecordsTotal := metrics.queries.querySuccesses
  candidateRecordsMax := if metrics.queries.querySuccesses = 0 then 0 else 1
  decryptComponentAttempts := (metrics.queries.decryptComponentAttempts % 2 ^ 64 : Nat)
  keygenIncluded := 0
  blindPrecomputeIncludedInOnline := 0
  datasetGenerationIncluded := 0
  fileIoIncluded := 0
  logIoIncluded := 0
  networkDelayIncluded := 0
  onlineMsAt := metrics.times.onlineCheckpointMs.map doubles.printed

/-! ## The row -/

/-- The bytes of a table for the options, in unbounded arithmetic. -/
def lseObjectBytes (options : Options) : Nat :=
  tableBins options.keywords * (384 + options.dmax * 16)

/-- The byte figures of a run that fits in 64 bits are exact. -/
theorem lseMetrics_bytes (doubles : Doubles) (clock : SteadyClock) {options : Options}
    {binCount : Nat} (bins : binCount = tableBins options.keywords)
    (index : Environment.Index binCount) (queries : Environment.QueryTotals)
    (fits : lseObjectBytes options + options.queries * (2 * communicationBytesPerEvaluation) <
      2 ^ 64) :
    (lseMetrics doubles clock options index queries).serializedBytes = lseObjectBytes options ∧
      (lseMetrics doubles clock options index queries).communicationBytes =
        lseObjectBytes options + options.queries * (2 * communicationBytesPerEvaluation) := by
  have positive : 1 ≤ tableBins options.keywords := Nat.le_max_left _ _
  have record : 384 + options.dmax * 16 ≤ lseObjectBytes options := by
    rw [lseObjectBytes]
    exact Nat.le_mul_of_pos_left _ positive
  have recordBytes : (384 + options.dmax * 16 % 2 ^ 64) % 2 ^ 64 = 384 + options.dmax * 16 := by
    omega
  unfold lseMetrics
  dsimp only
  rw [recordBytes, bins]
  unfold lseObjectBytes communicationBytesPerEvaluation at fits ⊢
  omega

/-- A row of the benchmark is consistent where its sizes fit in 64 bits. -/
theorem lseRow_consistent {doubles : Doubles} {clock : SteadyClock} {env : Environment}
    {options : Options} {limit : Nat} {metrics : LseMetrics} (accepted : options.Accepted)
    (ended : runLse doubles clock env options limit = some (.ok metrics))
    (fits : lseObjectBytes options + options.queries * (2 * communicationBytesPerEvaluation) <
      2 ^ 64) :
    (lseRow doubles options metrics).Consistent := by
  unfold runLse at ended
  split at ended
  · contradiction
  · simp at ended
  · rename_i index queries ran
    cases ended
    have enough : options.queries ≤ (lseKeywords options).length := by
      rw [length_lseKeywords]
      exact accepted.enough
    obtain ⟨total, successes⟩ := Environment.run_counts enough ran
    have bins := congrArg tableBins (length_lseKeywords options)
    obtain ⟨serialized, communication⟩ := lseMetrics_bytes doubles clock bins index queries fits
    have components : index.dummies * options.dmax ≤ lseObjectBytes options := by
      rw [lseObjectBytes]
      apply Nat.mul_le_mul
      · omega
      · omega
    have slots : options.keywords + index.dummies = tableBins (lseKeywords options).length := by
      have asked := length_lseKeywords options
      omega
    have prints : (lseRow doubles options (lseMetrics doubles clock options index queries)).Prints
        doubles clock options (lseObjectBytes options) (2 * communicationBytesPerEvaluation)
          index.dummies (tableBins (lseKeywords options).length) := {
      asked := ⟨rfl, rfl⟩
      object := ⟨congrArg Nat.cast serialized, congrArg Nat.cast serialized⟩
      total := ⟨congrArg Nat.cast communication, congrArg Nat.cast communication⟩
      firstCold := by rw [← serialized]; rfl
      wire := ⟨rfl, rfl⟩
      records := ⟨rfl, rfl⟩
      components := rfl
      capacity := rfl
      successes := congrArg Nat.cast successes
      flags := Row.excluded_unset rfl rfl rfl rfl rfl rfl
      checkpoints := rfl }
    exact prints.consistent accepted.queries.1 fits slots (by omega)

end Vlse.Benchmark
