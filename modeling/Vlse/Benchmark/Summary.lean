import Mathlib.Algebra.BigOperators.Group.List.Lemmas
import Mathlib.Data.List.ProdSigma
import Vlse.Benchmark.Agreement
import Vlse.Foundation.Grouping
/-!
# The summarizer

`main` of the summarizer checks every row of `raw_results.txt`, groups the rows by protocol,
keywords, queries and `dmax`, and writes one summary row for each group. Times and counts of the
work done are averaged over the group; byte figures and record counts are copied from its first row,
with one exception, the averaged `cold_kib_per_query`. The communication points are derived from the
copies. The copies describe a whole group exactly when its rows agree on what is copied.
-/

namespace Vlse.Benchmark

/-! ## Rows and their groups -/

/-- The key of a group. -/
structure GroupKey where
  /-- `protocol`. -/
  protocol : String
  /-- `keywords`, `queries` and `dmax`. -/
  (keywords queries dmax : Int)
  deriving DecidableEq

/-- The order of two keys as tuples. -/
def GroupKey.precedes (left right : GroupKey) : Bool :=
  left.protocol < right.protocol ∨ left.protocol = right.protocol ∧
    (left.keywords < right.keywords ∨ left.keywords = right.keywords ∧
      (left.queries < right.queries ∨ left.queries = right.queries ∧ left.dmax ≤ right.dmax))

/-- An element of `parameter_profiles`. -/
structure Profile where
  /-- `backend` and `group`. -/
  (backend group : String)
  /-- `modulus_bits` and `subgroup_bits`. -/
  (modulusBits subgroupBits : Int)
  deriving DecidableEq

/-- The order of two profiles as tuples. -/
def Profile.precedes (left right : Profile) : Bool :=
  left.backend < right.backend ∨ left.backend = right.backend ∧
    (left.group < right.group ∨ left.group = right.group ∧
      (left.modulusBits < right.modulusBits ∨ left.modulusBits = right.modulusBits ∧
        left.subgroupBits ≤ right.subgroupBits))

/-- The text Python prints for a profile whose names need no escapes. -/
def Profile.repr (profile : Profile) : String :=
  "('" ++ profile.backend ++ "', '" ++ profile.group ++ "', " ++ toString profile.modulusBits ++
    ", " ++ toString profile.subgroupBits ++ ")"

namespace Row

/-- `key` of the loop over `groups`. -/
def groupKey (row : Row) : GroupKey := ⟨row.protocol, row.keywords, row.queries, row.dmax⟩

/-- The parameter profile of a row. -/
def profile (row : Row) : Profile := ⟨row.backend, row.group, row.modulusBits, row.subgroupBits⟩

/-- `tgen_ms_per_query`. -/
def tgenMsPerQuery (row : Row) : ℚ := row.tgenMs / row.queries

/-- `search_decrypt_ms_per_query`. -/
def searchDecryptMsPerQuery (row : Row) : ℚ := row.searchDecryptMs / row.queries

/-- `online_ms_per_query`. -/
def onlineMsPerQuery (row : Row) : ℚ := row.onlineMs / row.queries

/-- `cold_kib_per_query`. -/
def coldKibPerQuery (row : Row) : ℚ := row.communicationBytes / 1024 / row.queries

end Row

/-- `sorted(groups.items())`. -/
def sortedGroups (rows : List Row) : List (Group GroupKey Row) :=
  (groupRows Row.groupKey rows).mergeSort fun left right => left.key.precedes right.key

/-- `mean` over a group. -/
def mean (group : Group GroupKey Row) (field : Row → ℚ) : ℚ :=
  (group.rows.map field).sum / group.rows.length

/-- `max(int(row[...]) for row in group)`. -/
def maximum (group : Group GroupKey Row) (field : Row → Int) : Int :=
  (group.others.map field).foldl max (field group.first)

/-! ## What is written -/

/-- A row of `summary.csv`, less the sample deviations. -/
structure SummaryRow where
  /-- `protocol`, `backend` and `group`. -/
  (protocol backend group : String)
  /-- `modulus_bits` and `subgroup_bits`. -/
  (modulusBits subgroupBits : Int)
  /-- `keywords`, `queries` and `dmax`. -/
  (keywords queries dmax : Int)
  /-- `samples`. -/
  samples : Nat
  /-- The means of the Setup times. -/
  (setupMsMean setupInitializationMsMean setupGenuineMsMean setupInsertMsMean : ℚ)
  /-- `setup_dummy_ms_mean` and `blind_precompute_ms_mean`. -/
  (setupDummyMsMean blindPrecomputeMsMean : ℚ)
  /-- The means of the times of a query. -/
  (tgenMsPerQueryMean searchDecryptMsPerQueryMean onlineMsPerQueryMean : ℚ)
  /-- `serialized_bytes`. -/
  serializedBytes : Int
  /-- `serialized_mib`. -/
  serializedMib : ℚ
  /-- `oprf_wire_bytes_per_query` and `cold_communication_bytes`. -/
  (oprfWireBytesPerQuery coldCommunicationBytes : Int)
  /-- `cold_kib_per_query`. -/
  coldKibPerQuery : ℚ
  /-- `first_cold_query_bytes` and `warm_marginal_bytes_per_keyword`. -/
  (firstColdQueryBytes warmMarginalBytesPerKeyword : Int)
  /-- `genuine_records`, `dummy_records`, `dummy_components` and `capacity_slots`. -/
  (genuineRecords dummyRecords dummyComponents capacitySlots : Int)
  /-- The means of the attempts. -/
  (setupAttemptsMean failedSetupAttemptsMean : ℚ)
  /-- The means of the inserts. -/
  (successfulInsertsMean failedInsertsMean : ℚ)
  /-- `eviction_steps_mean` and `rollback_count_mean`. -/
  (evictionStepsMean rollbackCountMean : ℚ)
  /-- `maximum_eviction_chain_max`. -/
  maximumEvictionChainMax : Int
  /-- `relocation_steps_mean`. -/
  relocationStepsMean : ℚ
  /-- `maximum_relocation_chain_max` and `query_successes`. -/
  (maximumRelocationChainMax querySuccesses : Int)
  /-- `candidate_records_total_mean`. -/
  candidateRecordsTotalMean : ℚ
  /-- `candidate_records_max`. -/
  candidateRecordsMax : Int
  /-- `decrypt_component_attempts_mean`. -/
  decryptComponentAttemptsMean : ℚ

/-- The summary row of a group. -/
def summaryRow (group : Group GroupKey Row) : SummaryRow where
  protocol := group.key.protocol
  backend := group.first.backend
  group := group.first.group
  modulusBits := group.first.modulusBits
  subgroupBits := group.first.subgroupBits
  keywords := group.key.keywords
  queries := group.key.queries
  dmax := group.key.dmax
  samples := group.rows.length
  setupMsMean := mean group Row.setupMs
  setupInitializationMsMean := mean group Row.setupInitializationMs
  setupGenuineMsMean := mean group Row.setupGenuineMs
  setupInsertMsMean := mean group Row.setupInsertMs
  setupDummyMsMean := mean group Row.setupDummyMs
  blindPrecomputeMsMean := mean group Row.blindPrecomputeMs
  tgenMsPerQueryMean := mean group Row.tgenMsPerQuery
  searchDecryptMsPerQueryMean := mean group Row.searchDecryptMsPerQuery
  onlineMsPerQueryMean := mean group Row.onlineMsPerQuery
  serializedBytes := group.first.serializedBytes
  serializedMib := group.first.serializedBytes / 2 ^ 20
  oprfWireBytesPerQuery := group.first.oprfWireBytesPerQuery
  coldCommunicationBytes := group.first.communicationBytes
  coldKibPerQuery := mean group Row.coldKibPerQuery
  firstColdQueryBytes := group.first.firstColdQueryBytes
  warmMarginalBytesPerKeyword := group.first.warmMarginalBytesPerKeyword
  genuineRecords := group.first.genuineRecords
  dummyRecords := group.first.dummyRecords
  dummyComponents := group.first.dummyComponents
  capacitySlots := group.first.capacitySlots
  setupAttemptsMean := mean group fun row => row.setupAttempts
  failedSetupAttemptsMean := mean group fun row => row.failedSetupAttempts
  successfulInsertsMean := mean group fun row => row.successfulInserts
  failedInsertsMean := mean group fun row => row.failedInserts
  evictionStepsMean := mean group fun row => row.evictionSteps
  rollbackCountMean := mean group fun row => row.rollbackCount
  maximumEvictionChainMax := maximum group Row.maximumEvictionChain
  relocationStepsMean := mean group fun row => row.relocationSteps
  maximumRelocationChainMax := maximum group Row.maximumRelocationChain
  querySuccesses := group.first.querySuccesses
  candidateRecordsTotalMean := mean group fun row => row.candidateRecordsTotal
  candidateRecordsMax := maximum group Row.candidateRecordsMax
  decryptComponentAttemptsMean := mean group fun row => row.decryptComponentAttempts

/-- A row of `communication_points.csv`. -/
structure CommunicationRow where
  /-- `protocol` and `group`. -/
  (protocol group : String)
  /-- `modulus_bits` and `subgroup_bits`. -/
  (modulusBits subgroupBits : Int)
  /-- `keywords` and `queries`. -/
  (keywords queries : Int)
  /-- `cache_model`. -/
  cacheModel : String
  /-- `first_download_bytes`. -/
  firstDownloadBytes : Int
  /-- `first_download_mib`. -/
  firstDownloadMib : ℚ
  /-- `object_bytes`, `oprf_wire_bytes_per_query` and `first_cold_query_bytes`. -/
  (objectBytes oprfWireBytesPerQuery firstColdQueryBytes : Int)
  /-- `first_cold_query_mib`. -/
  firstColdQueryMib : ℚ
  /-- `cold_total_bytes`. -/
  coldTotalBytes : Int
  /-- `cold_total_mib`. -/
  coldTotalMib : ℚ
  /-- `cold_amortized_bytes_per_keyword` and `cold_amortized_kib_per_keyword`. -/
  (coldAmortizedBytesPerKeyword coldAmortizedKibPerKeyword : ℚ)
  /-- `cold_kib_per_query`. -/
  coldKibPerQuery : ℚ
  /-- `warm_total_bytes` and `cached_marginal_bytes_per_keyword`. -/
  (warmTotalBytes cachedMarginalBytesPerKeyword : Int)
  /-- `warm_kib_per_query`. -/
  warmKibPerQuery : ℚ

/-- How the summarizer ends without its files. -/
inductive SummaryFault where
  /-- `SystemExit` with its message. -/
  | systemExit (message : String)
  /-- `ZeroDivisionError`. -/
  | zeroDivision
  /-- `IndexError`. -/
  | outOfRange
  deriving DecidableEq

/-- The communication point of a summary row for a number of queries. -/
def communicationRow (summary : SummaryRow) (queryCount : Int) :
    Except SummaryFault CommunicationRow := do
  let objectBytes := summary.serializedBytes
  let wireBytes := summary.oprfWireBytesPerQuery
  let totalBytes := objectBytes + queryCount * wireBytes
  raiseIf (queryCount = 0) .zeroDivision
  return {
    protocol := summary.protocol
    group := summary.group
    modulusBits := summary.modulusBits
    subgroupBits := summary.subgroupBits
    keywords := summary.keywords
    queries := queryCount
    cacheModel := "one object download per static database/key epoch"
    firstDownloadBytes := objectBytes
    firstDownloadMib := objectBytes / 2 ^ 20
    objectBytes
    oprfWireBytesPerQuery := wireBytes
    firstColdQueryBytes := objectBytes + wireBytes
    firstColdQueryMib := (objectBytes + wireBytes) / 2 ^ 20
    coldTotalBytes := totalBytes
    coldTotalMib := totalBytes / 2 ^ 20
    coldAmortizedBytesPerKeyword := totalBytes / queryCount
    coldAmortizedKibPerKeyword := totalBytes / 1024 / queryCount
    coldKibPerQuery := totalBytes / 1024 / queryCount
    warmTotalBytes := queryCount * wireBytes
    cachedMarginalBytesPerKeyword := wireBytes
    warmKibPerQuery := wireBytes / 1024 }

/-- A row of `query_checkpoints.csv`, less the sample deviations. -/
structure CheckpointRow where
  /-- `protocol` and `group`. -/
  (protocol group : String)
  /-- `modulus_bits` and `subgroup_bits`. -/
  (modulusBits subgroupBits : Int)
  /-- `keywords`, `queries` and `dmax`. -/
  (keywords queries dmax : Int)
  /-- `samples`. -/
  samples : Nat
  /-- `online_ms_mean` and `batch_latency_s_mean`. -/
  (onlineMsMean batchLatencySMean : ℚ)

/-- The row of a group for a checkpoint. -/
def checkpointRow (group : Group GroupKey Row) (checkpoint : Fin 5) : CheckpointRow where
  protocol := group.key.protocol
  group := group.first.group
  modulusBits := group.first.modulusBits
  subgroupBits := group.first.subgroupBits
  keywords := group.key.keywords
  queries := queryCheckpoints.get checkpoint
  dmax := group.key.dmax
  samples := group.rows.length
  onlineMsMean := mean group fun row => row.onlineMsAt.get checkpoint
  batchLatencySMean := mean group (fun row => row.onlineMsAt.get checkpoint) / 1000

/-- The rows of a group for the checkpoints its queries reach. -/
def checkpointRows (group : Group GroupKey Row) : List CheckpointRow :=
  ((List.finRange 5).filter fun checkpoint =>
    ¬ (queryCheckpoints.get checkpoint : Int) > group.key.queries).map (checkpointRow group)

/-- The files of the summarizer. -/
structure Summary where
  /-- `summary_rows`. -/
  summaryRows : List SummaryRow
  /-- `communication_rows`. -/
  communicationRows : List CommunicationRow
  /-- `checkpoint_rows`. -/
  checkpointRows : List CheckpointRow

/-! ## The run -/

/-- `parameter_profiles`. -/
def parameterProfiles (rows : List Row) : List Profile := (rows.map Row.profile).dedup

/-- The text of `sorted(parameter_profiles)`. -/
def reprProfiles (profiles : List Profile) : String :=
  "[" ++ ", ".intercalate ((profiles.mergeSort Profile.precedes).map Profile.repr) ++ "]"

/-- The turn of a row: its check, and the figures that are divided by its queries. -/
def checkRow (doubles : Doubles) (row : Row) : Except SummaryFault Unit := do
  (validateRow doubles row).mapError .systemExit
  raiseIf (row.queries = 0) .zeroDivision

/-- `main` on the rows of `raw_results.txt` and the numbers in `--query-points`. -/
def summarize (doubles : Doubles) (rawPath : String) (queryPoints : List Int) (rows : List Row) :
    Except SummaryFault Summary := do
  raiseIf (rows = []) (.systemExit ("no RESULT lines found in " ++ rawPath))
  raiseIf ((parameterProfiles rows).length ≠ 1)
    (.systemExit ("raw_results.txt mixes incompatible OPRF parameter profiles: " ++
      reprProfiles (parameterProfiles rows)))
  rows.forM (checkRow doubles)
  let groups := sortedGroups rows
  let summaryRows := groups.map summaryRow
  let communicationRows ← (summaryRows.product queryPoints).mapM fun point =>
    communicationRow point.1 point.2
  raiseIf (communicationRows = []) .outOfRange
  return { summaryRows, communicationRows, checkpointRows := groups.flatMap checkpointRows }

/-! ## What is accepted -/

/-- The files the summarizer accepts. -/
structure Summarizable (doubles : Doubles) (rows : List Row) : Prop where
  /-- There is a row. -/
  present : rows ≠ []
  /-- The parameter profiles agree. -/
  profiles : ∀ row ∈ rows, ∀ other ∈ rows, row.profile = other.profile
  /-- Every row passes its check. -/
  valid : ∀ row ∈ rows, validateRow doubles row = .ok ()
  /-- Every row has queries to divide by. -/
  queried : ∀ row ∈ rows, row.queries ≠ 0

/-- There is one parameter profile exactly when there is a row and all rows have the same. -/
theorem length_parameterProfiles {rows : List Row} (present : rows ≠ []) :
    (parameterProfiles rows).length = 1 ↔
      ∀ row ∈ rows, ∀ other ∈ rows, row.profile = other.profile := by
  unfold parameterProfiles
  rw [List.length_eq_one_iff]
  constructor
  · rintro ⟨profile, single⟩ row member other second
    have listed : ∀ row ∈ rows, row.profile = profile := fun row member => by
      have kept : row.profile ∈ (rows.map Row.profile).dedup :=
        List.mem_dedup.mpr (List.mem_map_of_mem member)
      rwa [single, List.mem_singleton] at kept
    exact (listed row member).trans (listed other second).symm
  · intro agree
    obtain ⟨first, member⟩ := List.exists_mem_of_ne_nil rows present
    refine ⟨first.profile, List.perm_singleton.mp ?_⟩
    refine (List.perm_ext_iff_of_nodup (List.nodup_dedup _) (List.nodup_singleton _)).mpr ?_
    intro profile
    rw [List.mem_dedup, List.mem_map, List.mem_singleton]
    constructor
    · rintro ⟨row, inside, rfl⟩
      exact agree row inside first member
    · rintro rfl
      exact ⟨first, member, rfl⟩

/-- A row passes its turn exactly when it is valid and has queries. -/
theorem checkRow_eq_ok {doubles : Doubles} {row : Row} :
    checkRow doubles row = .ok () ↔ validateRow doubles row = .ok () ∧ row.queries ≠ 0 := by
  unfold checkRow
  rw [check_bind_eq_ok, mapError_eq_ok, raiseIf_eq_ok]

/-- A communication point is there exactly when its number of queries is not zero. -/
theorem exists_communicationRow {summary : SummaryRow} {queryCount : Int} :
    (∃ point, communicationRow summary queryCount = .ok point) ↔ queryCount ≠ 0 := by
  unfold communicationRow
  simp only [check_bind_eq_ok, raiseIf_eq_ok]
  constructor
  · rintro ⟨point, divides, -⟩
    exact divides
  · intro divides
    exact ⟨_, divides, rfl⟩

/-- The total of a communication point. -/
theorem coldTotalBytes_of_communicationRow {summary : SummaryRow} {queryCount : Int}
    {point : CommunicationRow} (derived : communicationRow summary queryCount = .ok point) :
    point.coldTotalBytes =
      summary.serializedBytes + queryCount * summary.oprfWireBytesPerQuery := by
  unfold communicationRow at derived
  simp only [check_bind_eq_ok, raiseIf_eq_ok] at derived
  obtain ⟨-, written⟩ := derived
  cases written
  rfl

/-- Every row has a group. -/
theorem exists_group {rows : List Row} {row : Row} (member : row ∈ rows) :
    ∃ group ∈ sortedGroups rows, group.key = row.groupKey := by
  have named := ((grouped_groupRows rows).keys row.groupKey).mpr ⟨row, member, rfl⟩
  obtain ⟨group, inside, same⟩ := List.mem_map.mp named
  exact ⟨group, List.mem_mergeSort.mpr inside, same⟩

/-- The rows of a group are those with its key. -/
theorem mem_group {rows : List Row} {group : Group GroupKey Row}
    (inside : group ∈ sortedGroups rows) {row : Row} :
    row ∈ group.rows ↔ row ∈ rows ∧ row.groupKey = group.key :=
  (grouped_groupRows rows).mem_rows (List.mem_mergeSort.mp inside)

/-- The loop over the communication points comes to a group with each query point. -/
theorem mem_points {rows : List Row} {group : Group GroupKey Row}
    (inside : group ∈ sortedGroups rows) {queryPoints : List Int} {queryCount : Int}
    (asked : queryCount ∈ queryPoints) :
    (summaryRow group, queryCount) ∈ ((sortedGroups rows).map summaryRow).product queryPoints :=
  List.mem_product.mpr ⟨List.mem_map_of_mem inside, asked⟩

/-- What the summarizer wrote when it wrote its files. -/
theorem summarize_eq_ok {doubles : Doubles} {rawPath : String} {queryPoints : List Int}
    {rows : List Row} {output : Summary} :
    summarize doubles rawPath queryPoints rows = .ok output ↔
      Summarizable doubles rows ∧ ∃ points ≠ [],
        (((sortedGroups rows).map summaryRow).product queryPoints).mapM
          (fun point => communicationRow point.1 point.2) = .ok points ∧
        output = {
          summaryRows := (sortedGroups rows).map summaryRow
          communicationRows := points
          checkpointRows := (sortedGroups rows).flatMap checkpointRows } := by
  unfold summarize
  rw [check_bind_eq_ok, raiseIf_eq_ok, check_bind_eq_ok, raiseIf_eq_ok, check_bind_eq_ok,
    forM_eq_ok, except_bind_eq_ok]
  simp only [check_bind_eq_ok, raiseIf_eq_ok, checkRow_eq_ok, not_not]
  constructor
  · rintro ⟨present, profiles, checked, points, derived, some, written⟩
    cases written
    refine ⟨⟨present, (length_parameterProfiles present).mp profiles, ?_, ?_⟩,
      points, some, derived, rfl⟩
    · exact fun row member => (checked row member).1
    · exact fun row member => (checked row member).2
  · rintro ⟨accepted, points, some, derived, rfl⟩
    exact ⟨accepted.present, (length_parameterProfiles accepted.present).mpr accepted.profiles,
      fun row member => ⟨accepted.valid row member, accepted.queried row member⟩,
      points, derived, some, rfl⟩

/-- The summarizer writes its files exactly when it accepts the rows and can divide by all query
points. -/
theorem exists_summarize {doubles : Doubles} {rawPath : String} {queryPoints : List Int}
    {rows : List Row} :
    (∃ output, summarize doubles rawPath queryPoints rows = .ok output) ↔
      Summarizable doubles rows ∧ queryPoints ≠ [] ∧ 0 ∉ queryPoints := by
  simp only [summarize_eq_ok]
  constructor
  · rintro ⟨output, accepted, points, some, derived, -⟩
    obtain ⟨row, member⟩ := List.exists_mem_of_ne_nil rows accepted.present
    obtain ⟨group, inside, -⟩ := exists_group member
    refine ⟨accepted, ?_, fun zero => ?_⟩
    · rintro rfl
      have nothing : ((sortedGroups rows).map summaryRow).product ([] : List Int) = [] :=
        List.product_nil _
      rw [nothing] at derived
      cases derived
      exact some rfl
    · obtain ⟨point, -, divided⟩ := exists_mem_of_mapM derived (mem_points inside zero)
      exact exists_communicationRow.mp ⟨point, divided⟩ rfl
  · rintro ⟨accepted, some, nonzero⟩
    obtain ⟨row, member⟩ := List.exists_mem_of_ne_nil rows accepted.present
    obtain ⟨group, inside, -⟩ := exists_group member
    obtain ⟨queryCount, asked⟩ := List.exists_mem_of_ne_nil queryPoints some
    have divides : ∀ pair ∈ ((sortedGroups rows).map summaryRow).product queryPoints,
        ∃ point, communicationRow pair.1 pair.2 = .ok point := by
      intro pair member
      refine exists_communicationRow.mpr fun zero => nonzero ?_
      rw [← zero]
      exact (List.mem_product.mp member).2
    obtain ⟨points, derived⟩ := exists_mapM_of_forall divides
    refine ⟨_, accepted, points, ?_, derived, rfl⟩
    obtain ⟨point, kept, -⟩ := exists_mem_of_mapM derived (mem_points inside asked)
    exact List.ne_nil_of_mem kept

/-- No mean in `query_checkpoints.csv` counts the mark of a missing time. -/
theorem onlineMsMean_nonneg {doubles : Doubles} {rawPath : String} {queryPoints : List Int}
    {rows : List Row} {output : Summary}
    (written : summarize doubles rawPath queryPoints rows = .ok output)
    {shown : CheckpointRow} (listed : shown ∈ output.checkpointRows) : 0 ≤ shown.onlineMsMean := by
  obtain ⟨accepted, points, -, -, rfl⟩ := summarize_eq_ok.mp written
  obtain ⟨group, inside, listed⟩ := List.mem_flatMap.mp listed
  obtain ⟨checkpoint, kept, rfl⟩ := List.mem_map.mp listed
  have reached : (queryCheckpoints.get checkpoint : Int) ≤ group.key.queries :=
    not_lt.mp (of_decide_eq_true (List.mem_filter.mp kept).2)
  refine div_nonneg (List.sum_nonneg fun value entered => ?_) (Nat.cast_nonneg _)
  obtain ⟨row, member, rfl⟩ := List.mem_map.mp entered
  have mine := (mem_group inside).mp member
  have consistent := ((validateRow_eq_ok doubles row).mp (accepted.valid row mine.1)).1
  have queried : row.queries = group.key.queries := congrArg GroupKey.queries mine.2
  exact (consistent.checkpoints checkpoint).mpr (queried ▸ reached)

/-! ## What a summary row says of its group -/

/-- The figures of a summary row and of its communication points hold for a row. -/
structure SummaryRow.Describes (summary : SummaryRow) (queryPoints : List Int)
    (points : List CommunicationRow) (row : Row) : Prop where
  /-- The average is the copied total, divided. -/
  averaged : summary.coldKibPerQuery = summary.coldCommunicationBytes / 1024 / summary.queries
  /-- The object has the size of the row's. -/
  serialized : summary.serializedBytes = row.serializedBytes
  /-- There are as many dummies as in the row. -/
  dummies : summary.dummyRecords = row.dummyRecords
  /-- The point for the queries of the group has the communication of the row. -/
  communication : summary.queries ∈ queryPoints →
    ∃ point ∈ points, communicationRow summary summary.queries = .ok point ∧
      point.coldTotalBytes = row.communicationBytes

/-- Whatever the query points, each summary row describes all rows of its group. -/
def DescribesGroups (doubles : Doubles) (rawPath : String) (rows : List Row) : Prop :=
  ∀ (queryPoints : List Int) (output : Summary),
    summarize doubles rawPath queryPoints rows = .ok output →
    ∀ summary ∈ output.summaryRows, ∀ row ∈ rows,
      row.groupKey = ⟨summary.protocol, summary.keywords, summary.queries, summary.dmax⟩ →
      summary.Describes queryPoints output.communicationRows row

/-- Rows with one key agree on the sizes that are copied from the first of them. -/
def GroupsAgree (rows : List Row) : Prop :=
  ∀ row ∈ rows, ∀ other ∈ rows, row.groupKey = other.groupKey →
    row.serializedBytes = other.serializedBytes ∧
      row.oprfWireBytesPerQuery = other.oprfWireBytesPerQuery ∧
      row.dummyRecords = other.dummyRecords

/-- The mean of a constant is the constant. -/
theorem mean_eq {group : Group GroupKey Row} {field : Row → ℚ} {value : ℚ}
    (constant : ∀ row ∈ group.rows, field row = value) : mean group field = value := by
  have total : (group.rows.map field).sum = group.rows.length * value := by
    rw [List.sum_eq_card_nsmul _ value fun entry inside => ?_, List.length_map, nsmul_eq_mul]
    obtain ⟨row, member, rfl⟩ := List.mem_map.mp inside
    exact constant row member
  have counted : (group.rows.length : ℚ) ≠ 0 := Nat.cast_ne_zero.mpr (Nat.succ_ne_zero _)
  rw [mean, total, mul_div_cancel_left₀ value counted]

/-- A valid row has the communication of its object and of what its queries send. -/
theorem communicationBytes_eq {doubles : Doubles} {row : Row}
    (valid : validateRow doubles row = .ok ()) :
    row.communicationBytes = row.serializedBytes + row.queries * row.oprfWireBytesPerQuery := by
  have consistent := ((validateRow_eq_ok doubles row).mp valid).1
  rw [consistent.communication, consistent.serialized]

/-- Where the summary rows describe their groups, the rows of a group agree. -/
theorem groupsAgree_of_describesGroups {doubles : Doubles} {rawPath : String} {rows : List Row}
    (accepted : Summarizable doubles rows) (describes : DescribesGroups doubles rawPath rows) :
    GroupsAgree rows := by
  intro row member other second same
  have nonzero : (0 : Int) ∉ [row.queries] := fun zero =>
    accepted.queried row member (List.mem_singleton.mp zero).symm
  obtain ⟨output, written⟩ := exists_summarize.mpr
    ⟨accepted, List.cons_ne_nil row.queries [], nonzero⟩
  obtain ⟨-, points, -, -, rfl⟩ := summarize_eq_ok.mp written
  obtain ⟨group, inside, named⟩ := exists_group member
  have described : ∀ row ∈ rows, row.groupKey = group.key →
      (summaryRow group).Describes _ points row := fun row member mine =>
    describes _ _ written _ (List.mem_map_of_mem inside) row member mine
  have mine := described row member named.symm
  have others := described other second (same.symm.trans named.symm)
  have asked : (summaryRow group).queries ∈ [row.queries] :=
    List.mem_singleton.mpr (congrArg GroupKey.queries named)
  obtain ⟨point, -, derived, total⟩ := mine.communication asked
  obtain ⟨point', -, derived', total'⟩ := others.communication asked
  have single : point = point' := Except.ok.inj (derived.symm.trans derived')
  have object : row.serializedBytes = other.serializedBytes :=
    mine.serialized.symm.trans others.serialized
  have sent : row.communicationBytes = other.communicationBytes := by
    rw [← total, ← total', single]
  have queried : row.queries = other.queries := congrArg GroupKey.queries same
  rw [communicationBytes_eq (accepted.valid row member),
    communicationBytes_eq (accepted.valid other second), object, ← queried] at sent
  refine ⟨object, ?_, mine.dummies.symm.trans others.dummies⟩
  exact mul_left_cancel₀ (accepted.queried row member) (add_left_cancel sent)

/-- Where the rows of a group agree, its summary row describes each of them. -/
theorem summaryRow_describes {doubles : Doubles} {rows : List Row} {queryPoints : List Int}
    {points : List CommunicationRow} (accepted : Summarizable doubles rows)
    (agree : GroupsAgree rows)
    (derived : (((sortedGroups rows).map summaryRow).product queryPoints).mapM
      (fun point => communicationRow point.1 point.2) = .ok points)
    {group : Group GroupKey Row} (inside : group ∈ sortedGroups rows) {row : Row}
    (member : row ∈ group.rows) : (summaryRow group).Describes queryPoints points row := by
  have first := (mem_group inside).mp (List.mem_cons_self : group.first ∈ group.rows)
  have firstQueried : group.first.queries = group.key.queries := congrArg GroupKey.queries first.2
  have agrees : ∀ row ∈ group.rows, row.queries = group.key.queries ∧
      group.first.serializedBytes = row.serializedBytes ∧
      group.first.dummyRecords = row.dummyRecords ∧
      group.first.communicationBytes = row.communicationBytes := by
    intro row member
    have mine := (mem_group inside).mp member
    obtain ⟨object, wire, dummies⟩ := agree _ first.1 row mine.1 (first.2.trans mine.2.symm)
    have queried : row.queries = group.key.queries := congrArg GroupKey.queries mine.2
    refine ⟨queried, object, dummies, ?_⟩
    rw [communicationBytes_eq (accepted.valid _ first.1),
      communicationBytes_eq (accepted.valid row mine.1), object, wire, queried, firstQueried]
  obtain ⟨queried, object, dummies, sent⟩ := agrees row member
  refine ⟨mean_eq fun other second => ?_, object, dummies, fun asked => ?_⟩
  · obtain ⟨otherQueried, -, -, otherSent⟩ := agrees other second
    rw [Row.coldKibPerQuery, otherQueried, ← otherSent]
    rfl
  · obtain ⟨point, kept, made⟩ := exists_mem_of_mapM derived (mem_points inside asked)
    refine ⟨point, kept, made, ?_⟩
    rw [coldTotalBytes_of_communicationRow made, ← sent,
      communicationBytes_eq (accepted.valid _ first.1), firstQueried]
    rfl

/-- For every file the summarizer accepts, its summary rows and the communication points derived
from them describe all rows of their groups exactly when rows with one protocol, keywords, queries
and `dmax` agree on the bytes of the object, on the bytes a query sends and on the dummies. -/
theorem summary_describes_groups_iff {doubles : Doubles} (rawPath : String) {rows : List Row}
    (accepted : Summarizable doubles rows) :
    DescribesGroups doubles rawPath rows ↔ GroupsAgree rows := by
  constructor
  · exact groupsAgree_of_describesGroups accepted
  · intro agree queryPoints output written summary listed row member same
    obtain ⟨-, points, -, derived, rfl⟩ := summarize_eq_ok.mp written
    obtain ⟨group, inside, rfl⟩ := List.mem_map.mp listed
    exact summaryRow_describes accepted agree derived inside
      ((mem_group inside).mpr ⟨member, same⟩)

/-- The row of the VLSE benchmark for 60 keywords and 40 queries, where Setup ended with some
buckets after some attempts. -/
def roundRow (seed buckets attempts : Nat) : Row :=
  pairedRow exactDoubles { keywords := 60, queries := 40, dmax := 1, seed } {
    blindPrecomputationMs := 1
    setupMs := 3
    setupGenuineMs := 1
    setupInsertMs := 1
    setupDummyMs := 1
    times := { tgenMs := 40, searchMs := 40 }
    serializedBytes := pairedObjectBytes 1 buckets
    communicationBytes := pairedObjectBytes 1 buckets + 40 * communicationBytesPerEvaluation
    dummyRecords := 4 * buckets - 60
    capacitySlots := 4 * buckets
    setup := {
      setupAttempts := attempts
      failedSetupAttempts := attempts - 1
      successfulInserts := 59 * (attempts - 1) + 60
      failedInserts := attempts - 1
      evictionSteps := 500 * (attempts - 1)
      rollbackCount := attempts - 1
      maximumEvictionChain := 500 * (attempts - 1) }
    queries := {
      querySuccesses := 40
      candidateRecordsTotal := 40
      candidateRecordsMax := 1
      decryptComponentAttempts := 40 } }

/-- Two rounds. In the second one the first attempt of Setup failed, and the next one asked for 63
items instead of 60 and so for twice as many buckets. -/
def retriedRows : List Row := [roundRow 1 16 1, roundRow 2 32 2]

/-- The summarizer accepts them. -/
theorem summarizable_retriedRows : Summarizable exactDoubles retriedRows := by
  have valid : ∀ row ∈ retriedRows, validateRow exactDoubles row = .ok () := by
    intro row member
    rcases List.mem_pair.mp member with rfl | rfl
    · decide +kernel
    · decide +kernel
  exact ⟨by decide, by decide, valid, by decide⟩

/-- A retry of Setup enlarges the object and the dummies of one round only, and the summary row has
those of the other. -/
theorem summary_of_retried_round :
    Summarizable exactDoubles retriedRows ∧
      ¬ DescribesGroups exactDoubles "raw_results.txt" retriedRows := by
  refine ⟨summarizable_retriedRows, fun describes => ?_⟩
  have agree := groupsAgree_of_describesGroups summarizable_retriedRows describes
  have sizes := agree _ List.mem_cons_self _ (List.mem_cons_of_mem _ List.mem_cons_self) rfl
  exact absurd sizes.1 (by decide)

/-- For these two rounds. -/
theorem summary_describes_groups_iff_retried :
    DescribesGroups exactDoubles "raw_results.txt" retriedRows ↔ GroupsAgree retriedRows :=
  summary_describes_groups_iff "raw_results.txt" summarizable_retriedRows

end Vlse.Benchmark
