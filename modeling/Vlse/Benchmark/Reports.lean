import Vlse.Benchmark.ResultLine
import Vlse.Benchmark.Summary
import Vlse.Protocol.Outcomes
/-!
# From the runs to the reports

The runs of both benchmarks print their rows into one file, and the summarizer reads them back,
accepts all of them, counts each in one summary row, and describes every run by the summary row of
its options as long as runs with the same options took the same number of Setup attempts.
-/

namespace Vlse.Benchmark

open Vlse.Filter Label Oprf Protocol TextLines NumberText

section Runs

variable {C T : Type*} [Inhabited C] [Inhabited T]

/-- A run that ends has the index and the totals of its Setup. -/
theorem runPaired_setup {DMax : Nat} {doubles : Doubles} {clock : SteadyClock}
    {env : PairedEnvironment C T} {options : Options} {limit : Nat}
    {index : Index (SealedRecord DMax C T)} {metrics : PairedMetrics}
    (ended : runPaired doubles clock env DMax options limit = some (.ok (index, metrics))) :
    ∃ run dummies,
      setup env.toEnvironment DMax (BitVec.ofNat 64 options.seed)
        (makeKeywords options.keywords options.seed) limit = some run ∧
      run.result = .ok (index, dummies) ∧ metrics.setup = run.totals := by
  unfold runPaired at ended
  dsimp only at ended
  split at ended
  · contradiction
  · rename_i run ran
    split at ended
    · simp at ended
    · rename_i built dummies completed
      split at ended
      · contradiction
      · simp at ended
      · split at ended
        · simp at ended
        · cases ended
          exact ⟨run, dummies, ran, completed, rfl⟩

/-- The index of a run has the layout of its last attempt. -/
theorem runPaired_layout {DMax : Nat} {doubles : Doubles} {clock : SteadyClock}
    {env : PairedEnvironment C T} {options : Options} {limit : Nat}
    {index : Index (SealedRecord DMax C T)} {metrics : PairedMetrics}
    (ended : runPaired doubles clock env DMax options limit = some (.ok (index, metrics))) :
    index.config.layout =
      env.layoutOf (scheduledItems options.keywords (metrics.setup.setupAttempts - 1)) := by
  obtain ⟨run, dummies, ran, completed, totals⟩ := runPaired_setup ended
  rw [totals, setup_config ran completed, length_makeKeywords]
  rfl

/-- That attempt is one of four. -/
theorem runPaired_attempts {DMax : Nat} {doubles : Doubles} {clock : SteadyClock}
    {env : PairedEnvironment C T} {options : Options} {limit : Nat}
    {index : Index (SealedRecord DMax C T)} {metrics : PairedMetrics}
    (ended : runPaired doubles clock env DMax options limit = some (.ok (index, metrics))) :
    metrics.setup.setupAttempts - 1 < 4 := by
  obtain ⟨run, dummies, ran, completed, totals⟩ := runPaired_setup ended
  have few := setup_attempts_le ran completed
  rw [totals]
  omega

end Runs

/-! ## The figures of a row -/

/-- The sizes a row reports, as they follow from its options and its attempts. -/
structure Row.Sizes (row : Row) (objectBytes wireBytes capacity : Nat) : Prop where
  /-- `serialized_bytes`. -/
  serialized : row.serializedBytes = objectBytes
  /-- `oprf_wire_bytes_per_query`. -/
  wire : row.oprfWireBytesPerQuery = wireBytes
  /-- `dummy_records`. -/
  dummies : row.dummyRecords = (capacity : Int) - row.keywords

/-- Rows with the same sizes and keywords agree on what is copied. -/
theorem Row.Sizes.agree {row other : Row} {objectBytes wireBytes capacity : Nat}
    (sizes : row.Sizes objectBytes wireBytes capacity)
    (others : other.Sizes objectBytes wireBytes capacity) (same : row.keywords = other.keywords) :
    row.serializedBytes = other.serializedBytes ∧
      row.oprfWireBytesPerQuery = other.oprfWireBytesPerQuery ∧
      row.dummyRecords = other.dummyRecords := by
  refine ⟨sizes.serialized.trans others.serialized.symm, sizes.wire.trans others.wire.symm, ?_⟩
  rw [sizes.dummies, others.dummies, same]

/-- The sizes of a row of the VLSE benchmark come from the layout of its last attempt. -/
theorem pairedRow_sizes {C T : Type*} [Inhabited C] [Inhabited T] {doubles : Doubles}
    {clock : SteadyClock} {env : PairedEnvironment C T} {options : Options} {limit : Nat}
    {index : Index (SealedRecord options.dmax C T)} {metrics : PairedMetrics}
    (accepted : options.Accepted)
    (ended : dispatch doubles clock env options limit = some (.ok (index, metrics)))
    (fits : pairedObjectBytes options.dmax index.config.layout.bucketCount +
      options.queries * communicationBytesPerEvaluation < 2 ^ 64) :
    (pairedRow doubles options metrics).Sizes
      (pairedObjectBytes options.dmax (env.layoutOf
        (scheduledItems options.keywords (metrics.setup.setupAttempts - 1))).bucketCount)
      communicationBytesPerEvaluation
      (env.layoutOf
        (scheduledItems options.keywords (metrics.setup.setupAttempts - 1))).capacity := by
  unfold dispatch at ended
  split at ended
  · rw [← runPaired_layout ended]
    obtain ⟨dummies, setup, queries, rfl, total, -⟩ := runPaired_ok accepted.enough ended
    have serialized :=
      (pairedMetrics_bytes doubles clock dummies setup queries accepted.dmax.1 fits).1
    refine ⟨congrArg Nat.cast serialized, rfl, ?_⟩
    have slots : (options.keywords : Int) + dummies = index.config.layout.capacity := by
      exact_mod_cast total
    exact eq_sub_of_add_eq' slots
  · simp at ended

/-- The sizes of a row of the LSE benchmark come from its options. -/
theorem lseRow_sizes {doubles : Doubles} {clock : SteadyClock} {env : Lse.Environment}
    {options : Options} {limit : Nat} {metrics : LseMetrics} (accepted : options.Accepted)
    (ended : runLse doubles clock env options limit = some (.ok metrics))
    (fits : lseObjectBytes options + options.queries * (2 * communicationBytesPerEvaluation) <
      2 ^ 64) :
    (lseRow doubles options metrics).Sizes (lseObjectBytes options)
      (2 * communicationBytesPerEvaluation) (Lse.tableBins options.keywords) := by
  unfold runLse at ended
  split at ended
  · contradiction
  · simp at ended
  · rename_i index queries ran
    cases ended
    have enough : options.queries ≤ (lseKeywords options).length := by
      rw [length_lseKeywords]
      exact accepted.enough
    have asked := length_lseKeywords options
    have bins := congrArg Lse.tableBins asked
    have total := (Lse.Environment.run_counts enough ran).1.trans bins
    have serialized := (lseMetrics_bytes doubles clock bins index queries fits).1
    refine ⟨congrArg Nat.cast serialized, rfl, ?_⟩
    have slots : (options.keywords : Int) + index.dummies = Lse.tableBins options.keywords := by
      omega
    exact eq_sub_of_add_eq' slots

/-! ## The lines of the runs -/

/-- The lines of a log: those of runs with accepted options that reach their row, whose Setup takes
at most `2 ^ 60` nanoseconds and whose sizes fit in 64 bits, and other lines. The runs of the VLSE
benchmark lay out their filters alike. -/
inductive LogLine.Produced (C T : Type*) [Inhabited C] [Inhabited T] (doubles : Doubles)
    (layoutOf : Nat → Layout indexBits) : LogLine → Prop
  /-- A run of the VLSE benchmark. -/
  | paired {clock : SteadyClock} {env : PairedEnvironment C T} {options : Options} {limit : Nat}
    {index : Index (SealedRecord options.dmax C T)} {metrics : PairedMetrics}
    (accepted : options.Accepted) (short : clock.between 2 5 ≤ 2 ^ 60)
    (shaped : env.layoutOf = layoutOf)
    (ended : dispatch doubles clock env options limit = some (.ok (index, metrics)))
    (fits : pairedObjectBytes options.dmax index.config.layout.bucketCount +
      options.queries * communicationBytesPerEvaluation < 2 ^ 64) :
    Produced C T doubles layoutOf (.paired options metrics)
  /-- A run of the LSE benchmark. -/
  | lse {clock : SteadyClock} {env : Lse.Environment} {options : Options} {limit : Nat}
    {metrics : LseMetrics} (accepted : options.Accepted) (short : clock.between 2 5 ≤ 2 ^ 60)
    (ended : runLse doubles clock env options limit = some (.ok metrics))
    (fits : lseObjectBytes options + options.queries * (2 * communicationBytesPerEvaluation) <
      2 ^ 64) : Produced C T doubles layoutOf (.lse options metrics)
  /-- A line that is no row. -/
  | other {text : List Char} (foreign : "RESULT ".toList.isPrefixOf text = false)
    (solid : ∀ letter ∈ text, isLineEnd letter = false) :
    Produced C T doubles layoutOf (.other text foreign solid)

namespace LogLine.Produced

variable {C T : Type*} [Inhabited C] [Inhabited T] {doubles : Doubles}
  {layoutOf : Nat → Layout indexBits} {line : LogLine} {row : Row}

/-- The profile of both benchmarks. -/
def profile : Profile := ⟨"ntl_gmp_modp3072", groupIdentifier, 3072, 256⟩

/-- The rows of the runs pass, have one profile and are of runs with queries. -/
theorem summarizable (nearest : doubles.Nearest) (produced : line.Produced C T doubles layoutOf)
    (shown : line.row? doubles = some row) :
    validateRow doubles row = .ok () ∧ row.profile = profile ∧ row.queries ≠ 0 := by
  cases produced with
  | paired accepted short shaped ended fits =>
    cases shown
    have queried := accepted.queries.1
    refine ⟨validateRow_paired nearest accepted short ended fits, rfl, ?_⟩
    exact Int.natCast_ne_zero.mpr (by omega)
  | lse accepted short ended fits =>
    cases shown
    have queried := accepted.queries.1
    refine ⟨validateRow_lse nearest accepted short ended fits, rfl, ?_⟩
    exact Int.natCast_ne_zero.mpr (by omega)
  | other foreign solid => cases shown

/-- Rows of runs with the same options and the same number of Setup attempts agree on their
sizes. -/
theorem agree {other : LogLine} {second : Row} (produced : line.Produced C T doubles layoutOf)
    (producedOther : other.Produced C T doubles layoutOf)
    (shown : line.row? doubles = some row) (shownOther : other.row? doubles = some second)
    (same : row.groupKey = second.groupKey) (attempts : row.setupAttempts = second.setupAttempts) :
    row.serializedBytes = second.serializedBytes ∧
      row.oprfWireBytesPerQuery = second.oprfWireBytesPerQuery ∧
      row.dummyRecords = second.dummyRecords := by
  have protocols := congrArg GroupKey.protocol same
  have keywords := congrArg GroupKey.keywords same
  have components := congrArg GroupKey.dmax same
  have distinct : "paired_vlse" ≠ "LSE" := by decide
  cases produced with
  | paired accepted short shaped ended fits =>
    cases shown
    have sizes := pairedRow_sizes accepted ended fits
    cases producedOther with
    | paired acceptedOther shortOther shapedOther endedOther fitsOther =>
      cases shownOther
      have others := pairedRow_sizes acceptedOther endedOther fitsOther
      rw [shaped, Int.natCast_inj.mp keywords, Int.natCast_inj.mp components,
        Int.natCast_inj.mp attempts, ← shapedOther] at sizes
      exact sizes.agree others keywords
    | lse acceptedOther shortOther endedOther fitsOther =>
      cases shownOther
      exact absurd protocols distinct
    | other foreign solid => cases shownOther
  | lse accepted short ended fits =>
    cases shown
    have sizes := lseRow_sizes accepted ended fits
    cases producedOther with
    | paired acceptedOther shortOther shapedOther endedOther fitsOther =>
      cases shownOther
      exact absurd protocols distinct.symm
    | lse acceptedOther shortOther endedOther fitsOther =>
      cases shownOther
      have others := lseRow_sizes acceptedOther endedOther fitsOther
      rw [lseObjectBytes, Int.natCast_inj.mp keywords, Int.natCast_inj.mp components,
        ← lseObjectBytes] at sizes
      exact sizes.agree others keywords
    | other foreign solid => cases shownOther
  | other foreign solid => cases shown

end LogLine.Produced

/-! ## The reports -/

/-- The key of a summary row. -/
def SummaryRow.groupKey (summary : SummaryRow) : GroupKey :=
  ⟨summary.protocol, summary.keywords, summary.queries, summary.dmax⟩

/-- Runs with the same options took the same number of Setup attempts. -/
def SameAttempts (rows : List Row) : Prop :=
  ∀ row ∈ rows, ∀ other ∈ rows, row.groupKey = other.groupKey →
    row.setupAttempts = other.setupAttempts

/-- What the files of the summarizer say of the rows. -/
structure Summary.Reports (output : Summary) (queryPoints : List Int) (rows : List Row) :
    Prop where
  /-- Every row is counted, and once. -/
  counted : (output.summaryRows.map SummaryRow.samples).sum = rows.length
  /-- No two summary rows have one key. -/
  distinct : (output.summaryRows.map SummaryRow.groupKey).Nodup
  /-- A summary row counts the rows with its key. -/
  samples : ∀ summary ∈ output.summaryRows,
    summary.samples = rows.countP fun row => row.groupKey = summary.groupKey
  /-- Every row has a summary row. -/
  listed : ∀ row ∈ rows, ∃ summary ∈ output.summaryRows, summary.groupKey = row.groupKey
  /-- Summary rows are of some row. -/
  grounded : ∀ summary ∈ output.summaryRows, ∃ row ∈ rows, summary.groupKey = row.groupKey
  /-- A summary row describes all of its rows when the attempts agree. -/
  described : SameAttempts rows → ∀ summary ∈ output.summaryRows, ∀ row ∈ rows,
    summary.groupKey = row.groupKey → summary.Describes queryPoints output.communicationRows row

/-- Sorting keeps the numbers of rows. -/
theorem sum_length_sortedGroups (rows : List Row) :
    ((sortedGroups rows).map fun group => group.rows.length).sum = rows.length := by
  have counted : ((groupRows Row.groupKey rows).map fun group => group.rows.length).sum =
      rows.length := sum_length_groupRows rows
  rw [← counted]
  exact ((List.mergeSort_perm _ _).map _).sum_eq

/-- The summary row of a group counts the rows with its key. -/
theorem samples_summaryRow {rows : List Row} {group : Group GroupKey Row}
    (held : group ∈ sortedGroups rows) :
    (summaryRow group).samples = rows.countP fun row => row.groupKey = group.key := by
  rw [List.countP_eq_length_filter]
  exact congrArg List.length ((grouped_groupRows rows).members group (List.mem_mergeSort.mp held))

/-- The summary rows have the keys of the groups, each once. -/
theorem nodup_groupKey_summaryRows (rows : List Row) :
    (((sortedGroups rows).map summaryRow).map SummaryRow.groupKey).Nodup := by
  have keys : ((sortedGroups rows).map summaryRow).map SummaryRow.groupKey =
      (sortedGroups rows).map Group.key := by
    rw [List.map_map]
    rfl
  rw [keys]
  exact ((List.mergeSort_perm _ _).map Group.key).nodup_iff.mpr (grouped_groupRows rows).distinct

/-- Where rows with the same key and attempts agree on their sizes, the files report the rows. -/
theorem summary_reports {doubles : Doubles} {rawPath : String} {queryPoints : List Int}
    {rows : List Row} {output : Summary}
    (agree : ∀ row ∈ rows, ∀ other ∈ rows, row.groupKey = other.groupKey →
      row.setupAttempts = other.setupAttempts →
        row.serializedBytes = other.serializedBytes ∧
          row.oprfWireBytesPerQuery = other.oprfWireBytesPerQuery ∧
          row.dummyRecords = other.dummyRecords)
    (written : summarize doubles rawPath queryPoints rows = .ok output) :
    output.Reports queryPoints rows := by
  obtain ⟨accepted, points, -, derived, rfl⟩ := summarize_eq_ok.mp written
  refine ⟨?_, nodup_groupKey_summaryRows rows, fun summary shown => ?_, fun row member => ?_,
    fun summary shown => ?_, fun attempts => ?_⟩
  · rw [← sum_length_sortedGroups rows, List.map_map]
    rfl
  · obtain ⟨group, inside, rfl⟩ := List.mem_map.mp shown
    exact samples_summaryRow inside
  · obtain ⟨group, inside, named⟩ := exists_group member
    exact ⟨summaryRow group, List.mem_map_of_mem inside, named⟩
  · obtain ⟨group, inside, rfl⟩ := List.mem_map.mp shown
    have first := (mem_group inside).mp (List.mem_cons_self : group.first ∈ group.rows)
    exact ⟨group.first, first.1, first.2.symm⟩
  · intro summary shown row member named
    obtain ⟨group, inside, rfl⟩ := List.mem_map.mp shown
    have agreeing : GroupsAgree rows := fun row member other second same =>
      agree row member other second same (attempts row member other second same)
    exact summaryRow_describes accepted agreeing derived inside
      ((mem_group inside).mpr ⟨member, named.symm⟩)

section Files

variable {C T : Type*} [Inhabited C] [Inhabited T] {doubles : Doubles}
  {layoutOf : Nat → Layout indexBits} {lines : List LogLine}

/-- The rows of the logs of runs are accepted. -/
theorem summarizable_of_produced (nearest : doubles.Nearest)
    (produced : ∀ line ∈ lines, line.Produced C T doubles layoutOf)
    (present : lines.filterMap (LogLine.row? doubles) ≠ []) :
    Summarizable doubles (lines.filterMap (LogLine.row? doubles)) := by
  have each : ∀ row ∈ lines.filterMap (LogLine.row? doubles),
      validateRow doubles row = .ok () ∧ row.profile = LogLine.Produced.profile ∧
        row.queries ≠ 0 := by
    intro row listed
    obtain ⟨line, member, shown⟩ := List.mem_filterMap.mp listed
    exact (produced line member).summarizable nearest shown
  exact {
    present
    profiles := fun row listed other second =>
      (each row listed).2.1.trans (each other second).2.1.symm
    valid := fun row listed => (each row listed).1
    queried := fun row listed => (each row listed).2.2 }

/-- The files that `main` writes for the text of `raw_results.txt` and the points in
`--query-points`, where each row has its fields. -/
def Summarizes (doubles : Doubles) (rawPath : String) (queryPoints : List Int) (text : List Char)
    (output : Summary) : Prop :=
  ∃ rows : List Row, readRows doubles text = .ok (rows.map Row.fields) ∧
    summarize doubles rawPath queryPoints rows = .ok output

/-- The files written for a log are those for its rows. -/
theorem summarizes_fileText (six : doubles.SixDecimals) {rawPath : String}
    {queryPoints : List Int} {output : Summary} :
    Summarizes doubles rawPath queryPoints (fileText doubles lines) output ↔
      summarize doubles rawPath queryPoints (lines.filterMap (LogLine.row? doubles)) =
        .ok output := by
  have read : readRows doubles (fileText doubles lines) =
      .ok ((lines.filterMap (LogLine.row? doubles)).map Row.fields) := by
    rw [readRows, splitLines_fileText, LogLine.readings six lines]
  constructor
  · rintro ⟨rows, same, written⟩
    have fields := Except.ok.inj (same.symm.trans read)
    rw [← Row.fields_injective.list_map fields]
    exact written
  · intro written
    exact ⟨_, read, written⟩

end Files

/-! ## A few runs -/

end Vlse.Benchmark
