import Vlse.Benchmark.Row
import Vlse.Filter.InitializeLayout
import Vlse.Filter.PaddingSpec
import Vlse.Protocol.EndToEnd
/-!
# The VLSE benchmark

`RunPaired` runs Setup and then the queries, checks every answer and computes the figures that
`main` prints. Every keyword takes one slot of the filter that an attempt completed and every
dummy one of those left, whatever attempts failed before; so a row that is printed is consistent
where its sizes do not wrap.
-/

namespace Vlse.Benchmark

open Vlse.Filter Label Oprf Protocol

variable {C T : Type*} {DMax : Nat}

/-! ## The run -/

/-- What the benchmark runs on: the environment of Setup, and the evaluations of the queries, which
may return anything, throw or not return. -/
structure PairedEnvironment (C T : Type*) extends Environment C T where
  /-- `EvaluatePrepared` on the blind with a number; `none` when the call never returns. -/
  evaluatePrepared : Nat → String → Option (Except Fault OprfOutput)

/-- The counters of the query loop. -/
structure PairedQueryTotals where
  /-- `query_successes`. -/
  querySuccesses : Nat := 0
  /-- `candidate_records_total`. -/
  candidateRecordsTotal : Nat := 0
  /-- `candidate_records_max`. -/
  candidateRecordsMax : Nat := 0
  /-- `decrypt_component_attempts`. -/
  decryptComponentAttempts : Nat := 0

/-- The query loop, from the keyword with number `i` on. -/
def pairedQueryLoop [Inhabited C] [Inhabited T] (env : PairedEnvironment C T) (epoch : Word)
    (index : Index (SealedRecord DMax C T)) :
    List String → Nat → PairedQueryTotals → Option (Except Fault PairedQueryTotals)
  | [], _, totals => some (.ok totals)
  | keyword :: keywords, i, totals =>
    match env.evaluatePrepared i keyword with
    | none => none
    | some (.error fault) => some (.error fault)
    | some (.ok output) =>
      let derived := deriveTokenAndKey env.sha256 output
      match queryAll index.config derived.token index.state with
      | none => none
      | some candidates =>
        match collectAuthenticatedResults (decryptLabel env.gcm) 8 candidates derived epoch
            totals.decryptComponentAttempts with
        | (.error fault, _) => some (.error fault)
        | (.ok documents, attempts) =>
          if documents ≠ keywordDocuments DMax i then
            some (.error (.runtimeError "paired authenticated result set mismatch"))
          else
            pairedQueryLoop env epoch index keywords (i + 1)
              { querySuccesses := totals.querySuccesses + 1
                candidateRecordsTotal :=
                  (totals.candidateRecordsTotal + candidates.length) % 2 ^ 64
                candidateRecordsMax := max totals.candidateRecordsMax candidates.length
                decryptComponentAttempts := attempts }

/-- `SerializedRecordBytes`. -/
def serializedRecordBytes (DMax : Nat) : Nat := DMax * 44

/-- The members `InitializeLayout` gave an index. -/
def indexMembers {P : Type*} (index : Index P) : LayoutMembers :=
  sized indexBits index.config.layout.bucketCount index.config.layout.alternateMasks

/-- `total_logical_bytes`, for payloads of a size. -/
def totalLogicalBytes (members : LayoutMembers) (payloadSize : Nat) : Nat :=
  (members.logicalFingerprintBytes + members.payloadSlots * payloadSize % 2 ^ 64) % 2 ^ 64

/-- `Metrics`. -/
structure PairedMetrics where
  /-- `blind_precomputation_ms`. -/
  blindPrecomputationMs : ℚ
  /-- `setup_ms`. -/
  setupMs : ℚ
  /-- `setup_genuine_ms`. -/
  setupGenuineMs : ℚ
  /-- `setup_insert_ms`. -/
  setupInsertMs : ℚ
  /-- `setup_dummy_ms`. -/
  setupDummyMs : ℚ
  /-- `tgen_ms`, `search_decrypt_ms` and `online_checkpoint_ms`. -/
  times : QueryTimes
  /-- `serialized_bytes`. -/
  serializedBytes : Nat
  /-- `communication_bytes`. -/
  communicationBytes : Nat
  /-- `dummy_records`. -/
  dummyRecords : Nat
  /-- `capacity_slots`. -/
  capacitySlots : Nat
  /-- The figures of the attempts. -/
  setup : SetupTotals
  /-- The counters of the queries. -/
  queries : PairedQueryTotals

/-- The metrics `RunPaired` computes at its end. -/
def pairedMetrics (doubles : Doubles) (clock : SteadyClock) (options : Options)
    (index : Index (SealedRecord DMax C T)) (dummies : Nat) (setup : SetupTotals)
    (queries : PairedQueryTotals) : PairedMetrics where
  -- the readings before the queries are those of `pre`, then of the four ends of the Setup phases
  blindPrecomputationMs := doubles.milliseconds (clock.between 0 1)
  setupMs := doubles.milliseconds (clock.between 2 5)
  setupGenuineMs := doubles.milliseconds (clock.between 2 3)
  setupInsertMs := doubles.milliseconds (clock.between 3 4)
  setupDummyMs := doubles.milliseconds (clock.between 4 5)
  times := queryTimes doubles clock 6 options.queries
  serializedBytes := ((indexMembers index).logicalFingerprintBytes +
    capacity64 index.config.layout.bucketCount * serializedRecordBytes DMax % 2 ^ 64) % 2 ^ 64
  communicationBytes := (totalLogicalBytes (indexMembers index) (DMax * 44) +
    options.queries * communicationBytesPerEvaluation % 2 ^ 64) % 2 ^ 64
  dummyRecords := dummies
  capacitySlots := capacity64 index.config.layout.bucketCount
  setup
  queries

variable [Inhabited C] [Inhabited T]

/-- `RunPaired`, with the index it built; at most `limit` draws for each dummy fingerprint. -/
def runPaired (doubles : Doubles) (clock : SteadyClock) (env : PairedEnvironment C T)
    (DMax : Nat) (options : Options) (limit : Nat) :
    Option (Except Fault (Index (SealedRecord DMax C T) × PairedMetrics)) :=
  let epoch := BitVec.ofNat 64 options.seed
  let keywords := makeKeywords options.keywords options.seed
  match setup env.toEnvironment DMax epoch keywords limit with
  | none => none
  | some run =>
    match run.result with
    | .error fault => some (.error fault)
    | .ok (index, dummies) =>
      match pairedQueryLoop env epoch index (keywords.take options.queries) 0 {} with
      | none => none
      | some (.error fault) => some (.error fault)
      | some (.ok queries) =>
        if queries.decryptComponentAttempts % 2 ^ 64 ≠
            queries.candidateRecordsTotal * DMax % 2 ^ 64 then
          some (.error (.runtimeError "incomplete candidate/component traversal"))
        else
          some (.ok (index,
            pairedMetrics doubles clock options index dummies run.totals queries))

/-- `Dispatch`. -/
def dispatch (doubles : Doubles) (clock : SteadyClock) (env : PairedEnvironment C T)
    (options : Options) (limit : Nat) :
    Option (Except Fault (Index (SealedRecord options.dmax C T) × PairedMetrics)) :=
  if options.dmax ∈ [1, 5, 10, 15, 20] then
    runPaired doubles clock env options.dmax options limit
  else some (.error (.invalidArgument "--dmax must be one of 1,5,10,15,20"))

/-- The row `main` prints. -/
def pairedRow (doubles : Doubles) (options : Options) (metrics : PairedMetrics) : Row where
  protocol := "paired_vlse"
  backend := "ntl_gmp_modp3072"
  group := groupIdentifier
  modulusBits := 3072
  subgroupBits := 256
  seed := options.seed
  keywords := options.keywords
  queries := options.queries
  dmax := options.dmax
  setupMs := doubles.printed metrics.setupMs
  setupInitializationMs := 0
  setupGenuineMs := doubles.printed metrics.setupGenuineMs
  setupInsertMs := doubles.printed metrics.setupInsertMs
  setupDummyMs := doubles.printed metrics.setupDummyMs
  blindPrecomputeMs := doubles.printed metrics.blindPrecomputationMs
  tgenMs := doubles.printed metrics.times.tgenMs
  searchDecryptMs := doubles.printed metrics.times.searchMs
  onlineMs := doubles.printed (doubles.add metrics.times.tgenMs metrics.times.searchMs)
  serializedBytes := metrics.serializedBytes
  cacheObjectBytes := metrics.serializedBytes
  communicationBytes := metrics.communicationBytes
  coldTotalBytes := metrics.communicationBytes
  coldAmortizedBytesPerKeyword := doubles.printed
    (doubles.round (doubles.round metrics.communicationBytes / doubles.round options.queries))
  firstColdQueryBytes :=
    ((metrics.serializedBytes + communicationBytesPerEvaluation) % 2 ^ 64 : Nat)
  warmMarginalBytesPerKeyword := communicationBytesPerEvaluation
  oprfEvaluationsPerQuery := 1
  oprfWireBytesPerQuery := communicationBytesPerEvaluation
  genuineRecords := options.keywords
  dummyRecords := metrics.dummyRecords
  dummyComponents := (metrics.dummyRecords * options.dmax % 2 ^ 64 : Nat)
  capacitySlots := metrics.capacitySlots
  setupAttempts := metrics.setup.setupAttempts
  failedSetupAttempts := metrics.setup.failedSetupAttempts
  successfulInserts := metrics.setup.successfulInserts
  failedInserts := metrics.setup.failedInserts
  evictionSteps := metrics.setup.evictionSteps
  rollbackCount := metrics.setup.rollbackCount
  maximumEvictionChain := metrics.setup.maximumEvictionChain
  relocationSteps := 0
  maximumRelocationChain := 0
  querySuccesses := metrics.queries.querySuccesses
  candidateRecordsTotal := metrics.queries.candidateRecordsTotal
  candidateRecordsMax := metrics.queries.candidateRecordsMax
  decryptComponentAttempts := (metrics.queries.decryptComponentAttempts % 2 ^ 64 : Nat)
  keygenIncluded := 0
  blindPrecomputeIncludedInOnline := 0
  datasetGenerationIncluded := 0
  fileIoIncluded := 0
  logIoIncluded := 0
  networkDelayIncluded := 0
  onlineMsAt := metrics.times.onlineCheckpointMs.map doubles.printed

/-! ## What a run that ends has counted -/

/-- The query loop counts a success for every query when it ends. -/
theorem pairedQueryLoop_successes {env : PairedEnvironment C T} {epoch : Word}
    {index : Index (SealedRecord DMax C T)} {keywords : List String} {i : Nat}
    {totals after : PairedQueryTotals}
    (ended : pairedQueryLoop env epoch index keywords i totals = some (.ok after)) :
    after.querySuccesses = totals.querySuccesses + keywords.length := by
  induction keywords generalizing i totals with
  | nil =>
    rw [pairedQueryLoop] at ended
    cases ended
    rfl
  | cons keyword keywords ih =>
    rw [pairedQueryLoop] at ended
    split at ended
    · contradiction
    · simp at ended
    · dsimp only at ended
      split at ended
      · contradiction
      · split at ended
        · simp at ended
        · split at ended
          · simp at ended
          · have later := ih ended
            dsimp only at later
            rw [later, List.length_cons]
            omega

/-- What the figures of a run come from: every slot has a keyword or a dummy, and every query
succeeded. -/
structure PairedFigures (doubles : Doubles) (clock : SteadyClock) (options : Options)
    (index : Index (SealedRecord DMax C T)) (dummies : Nat) (setup : SetupTotals)
    (queries : PairedQueryTotals) (metrics : PairedMetrics) : Prop where
  /-- The metrics are computed from these. -/
  computed : metrics = pairedMetrics doubles clock options index dummies setup queries
  /-- Slots are taken by keywords and dummies. -/
  total : options.keywords + dummies = index.config.layout.capacity
  /-- Queries succeeded. -/
  successes : queries.querySuccesses = options.queries

/-- A run that ends has such figures. -/
theorem runPaired_ok {doubles : Doubles} {clock : SteadyClock} {env : PairedEnvironment C T}
    {options : Options} {limit : Nat} {index : Index (SealedRecord DMax C T)}
    {metrics : PairedMetrics} (enough : options.queries ≤ options.keywords)
    (ended : runPaired doubles clock env DMax options limit = some (.ok (index, metrics))) :
    ∃ dummies setup queries,
      PairedFigures doubles clock options index dummies setup queries metrics := by
  unfold runPaired at ended
  dsimp only at ended
  split at ended
  · contradiction
  · rename_i run ran
    split at ended
    · simp at ended
    · rename_i built dummies completed
      split at ended
      · contradiction
      · simp at ended
      · rename_i queries looped
        split at ended
        · simp at ended
        · cases ended
          have total := setup_total ran completed
          have successes := pairedQueryLoop_successes looped
          rw [length_makeKeywords] at total
          rw [List.length_take, length_makeKeywords, Nat.min_eq_left enough] at successes
          exact ⟨dummies, run.totals, queries, rfl, total, by rw [successes]; exact Nat.zero_add _⟩

/-! ## Sizes -/

/-- The bytes of an index with a number of buckets, in unbounded arithmetic. -/
def pairedObjectBytes (DMax bucketCount : Nat) : Nat :=
  logicalFingerprintBytes indexBits bucketCount + bucketCount * 4 * serializedRecordBytes DMax

/-- The sizes of an index that fits in 64 bits are exact. -/
theorem indexMembers_exact {P : Type*} (index : Index P) (positive : 0 < DMax)
    (fits : pairedObjectBytes DMax index.config.layout.bucketCount < 2 ^ 64) :
    capacity64 index.config.layout.bucketCount = index.config.layout.capacity ∧
      (indexMembers index).logicalFingerprintBytes =
        logicalFingerprintBytes indexBits index.config.layout.bucketCount := by
  have buckets := index.config.layout.positive
  have payload : index.config.layout.bucketCount * 4 * 44 ≤
      index.config.layout.bucketCount * 4 * serializedRecordBytes DMax := by
    apply Nat.mul_le_mul_left
    rw [serializedRecordBytes]
    omega
  have bits : encodedBitsPerBucket indexBits = 168 := by decide
  unfold pairedObjectBytes at fits
  unfold indexMembers sized capacity64 totalBits Layout.capacity
  dsimp only
  unfold logicalFingerprintBytes
  rw [bits]
  omega

omit [Inhabited C] [Inhabited T] in
/-- The byte figures of a run that fits in 64 bits are exact. -/
theorem pairedMetrics_bytes (doubles : Doubles) (clock : SteadyClock) {options : Options}
    {index : Index (SealedRecord DMax C T)} (dummies : Nat) (setup : SetupTotals)
    (queries : PairedQueryTotals) (positive : 0 < DMax)
    (fits : pairedObjectBytes DMax index.config.layout.bucketCount +
      options.queries * communicationBytesPerEvaluation < 2 ^ 64) :
    (pairedMetrics doubles clock options index dummies setup queries).serializedBytes =
        pairedObjectBytes DMax index.config.layout.bucketCount ∧
      (pairedMetrics doubles clock options index dummies setup queries).communicationBytes =
        pairedObjectBytes DMax index.config.layout.bucketCount +
          options.queries * communicationBytesPerEvaluation := by
  obtain ⟨slots, fingerprints⟩ := indexMembers_exact index positive (by omega)
  unfold pairedMetrics totalLogicalBytes
  dsimp only
  have payloads : (indexMembers index).payloadSlots =
    capacity64 index.config.layout.bucketCount := rfl
  rw [payloads, slots, fingerprints]
  unfold pairedObjectBytes serializedRecordBytes at fits ⊢
  unfold Layout.capacity
  omega

/-! ## The row -/

/-- A row of the benchmark is consistent where its sizes fit in 64 bits. -/
theorem pairedRow_consistent {doubles : Doubles} {clock : SteadyClock}
    {env : PairedEnvironment C T} {options : Options} {limit : Nat}
    {index : Index (SealedRecord options.dmax C T)} {metrics : PairedMetrics}
    (accepted : options.Accepted)
    (ended : dispatch doubles clock env options limit = some (.ok (index, metrics)))
    (fits : pairedObjectBytes options.dmax index.config.layout.bucketCount +
      options.queries * communicationBytesPerEvaluation < 2 ^ 64) :
    (pairedRow doubles options metrics).Consistent := by
  unfold dispatch at ended
  split at ended
  · obtain ⟨dummies, setup, queries, rfl, total, successes⟩ := runPaired_ok accepted.enough ended
    have slots := (indexMembers_exact index accepted.dmax.1 (by omega)).1
    obtain ⟨serialized, communication⟩ :=
      pairedMetrics_bytes doubles clock dummies setup queries accepted.dmax.1 fits
    have components : dummies * options.dmax ≤
        index.config.layout.capacity * serializedRecordBytes options.dmax := by
      apply Nat.mul_le_mul
      · omega
      · rw [serializedRecordBytes]
        omega
    have object : index.config.layout.capacity * serializedRecordBytes options.dmax ≤
        pairedObjectBytes options.dmax index.config.layout.bucketCount := Nat.le_add_left _ _
    have prints : (pairedRow doubles options (pairedMetrics doubles clock options index dummies
        setup queries)).Prints doubles clock options
          (pairedObjectBytes options.dmax index.config.layout.bucketCount)
          communicationBytesPerEvaluation dummies (capacity64 index.config.layout.bucketCount) := {
      asked := ⟨rfl, rfl⟩
      object := ⟨congrArg Nat.cast serialized, congrArg Nat.cast serialized⟩
      total := ⟨congrArg Nat.cast communication, congrArg Nat.cast communication⟩
      firstCold := by rw [← serialized]; rfl
      wire := ⟨rfl, rfl⟩
      records := ⟨rfl, rfl⟩
      components := rfl
      capacity := rfl
      successes := congrArg Nat.cast successes
      flags := Row.excluded_unset rfl rfl rfl rfl rfl rfl
      checkpoints := rfl }
    exact prints.consistent accepted.queries.1 fits (total.trans slots.symm) (by omega)
  · simp at ended

end Vlse.Benchmark
