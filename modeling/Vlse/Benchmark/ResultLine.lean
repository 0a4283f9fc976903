import Vlse.Benchmark.Validation
import Vlse.Foundation.Grouping
import Vlse.Foundation.NumberText
/-!
# The lines of the rows

Both benchmarks print a row as one line that starts with `RESULT` and lists its fields as keys and
values. The summarizer splits the text of `raw_results.txt` into lines, keeps those that start with
`RESULT`, splits each at blanks, splits every item at its first `=` and converts the values that
`NUMERIC_FIELDS` names. What it reads is the fields of the rows that were printed.
-/

namespace Vlse.Benchmark

open TextLines NumberText

/-! ## Reading -/

/-- The converters in `NUMERIC_FIELDS`. -/
inductive Converter where
  /-- `int`. -/
  | int
  /-- `float`. -/
  | float
deriving DecidableEq

/-- What a converter returns. -/
inductive FieldValue where
  /-- An `int`. -/
  | int (value : Int)
  /-- A `float`. -/
  | float (value : ℚ)
  /-- A `str`. -/
  | str (value : String)
deriving DecidableEq

/-- `NUMERIC_FIELDS`. -/
def numericFields : List (String × Converter) :=
  ([("modulus_bits", .int), ("subgroup_bits", .int), ("seed", .int), ("keywords", .int),
    ("queries", .int), ("dmax", .int), ("setup_ms", .float), ("setup_initialization_ms", .float),
    ("setup_genuine_ms", .float), ("setup_insert_ms", .float), ("setup_dummy_ms", .float),
    ("blind_precompute_ms", .float), ("tgen_ms", .float), ("search_decrypt_ms", .float),
    ("online_ms", .float), ("serialized_bytes", .int), ("cache_object_bytes", .int),
    ("communication_bytes", .int), ("cold_total_bytes", .int),
    ("cold_amortized_bytes_per_keyword", .float), ("first_cold_query_bytes", .int),
    ("warm_marginal_bytes_per_keyword", .int), ("oprf_evaluations_per_query", .int),
    ("oprf_wire_bytes_per_query", .int), ("genuine_records", .int), ("dummy_records", .int),
    ("dummy_components", .int), ("capacity_slots", .int), ("setup_attempts", .int),
    ("failed_setup_attempts", .int), ("successful_inserts", .int), ("failed_inserts", .int),
    ("eviction_steps", .int), ("rollback_count", .int), ("maximum_eviction_chain", .int),
    ("relocation_steps", .int), ("maximum_relocation_chain", .int), ("query_successes", .int),
    ("candidate_records_total", .int), ("candidate_records_max", .int),
    ("decrypt_component_attempts", .int), ("keygen_included", .int),
    ("blind_precompute_included_in_online", .int), ("dataset_generation_included", .int),
    ("file_io_included", .int), ("log_io_included", .int), ("network_delay_included", .int)] :
      List (String × Converter)) ++
    (List.finRange 5).map fun checkpoint =>
      ("online_ms_q" ++ toString (queryCheckpoints.get checkpoint), .float)

/-- The exceptions of `parse_result`. -/
inductive ParseFault where
  /-- An item has no `=`. -/
  | notEnoughValues
  /-- A text is no numeral of `int`. -/
  | invalidInt (text : List Char)
  /-- A text is no numeral of `float`. -/
  | invalidFloat (text : List Char)
deriving DecidableEq

/-- `converter(value)`. -/
def convert (doubles : Doubles) (key : String) (value : List Char) :
    Except ParseFault FieldValue :=
  match numericFields.lookup key with
  | some .int =>
    match readInt value with
    | some number => .ok (.int number)
    | none => .error (.invalidInt value)
  | some .float =>
    match readDecimal value with
    | some number => .ok (.float (doubles.round number))
    | none => .error (.invalidFloat value)
  | none => .ok (.str (String.ofList value))

/-- `fields`, in the order of insertion. -/
abbrev Fields := List (String × FieldValue)

/-- The loop of `parse_result` over the items. -/
def parseItems (doubles : Doubles) (fields : Fields) :
    List (List Char) → Except ParseFault Fields
  | [] => .ok fields
  | item :: items =>
    match splitOnce '=' item with
    | none => .error .notEnoughValues
    | some (key, value) =>
      match convert doubles (String.ofList key) value with
      | .error fault => .error fault
      | .ok converted => parseItems doubles (setKey (String.ofList key) converted fields) items

/-- `parse_result`. -/
def parseResult (doubles : Doubles) (line : List Char) : Except ParseFault Fields :=
  parseItems doubles [] ((words isBlank (strip isBlank line)).drop 1)

/-- The rows that `main` reads from the text of `raw_results.txt`. -/
def readRows (doubles : Doubles) (text : List Char) : Except ParseFault (List Fields) :=
  ((splitLines text).filter ("RESULT ".toList.isPrefixOf ·)).mapM (parseResult doubles)

/-! ## Printing -/

/-- What `main` streams into a row. -/
inductive Printed where
  /-- A word of the program. -/
  | word (text : String)
  /-- An unsigned integer. -/
  | count (value : Nat)
  /-- A double. -/
  | real (value : ℚ)

/-- A double with `std::fixed` and `std::setprecision(6)`. -/
def doubleText (doubles : Doubles) (value : ℚ) : List Char :=
  fixedText 6 (value < 0) (|doubles.fixed value| * 10 ^ 6).num.natAbs

/-- The text that is streamed. -/
def Printed.text (doubles : Doubles) : Printed → List Char
  | word text => text.toList
  | count value => natText value
  | real value => doubleText doubles value

/-- An item as it stands on a line. -/
def itemText (doubles : Doubles) (item : String × Printed) : List Char :=
  item.1.toList ++ '=' :: item.2.text doubles

/-- The line of a row. -/
def resultLine (doubles : Doubles) (items : List (String × Printed)) : List Char :=
  "RESULT".toList ++ items.flatMap fun item => ' ' :: itemText doubles item

/-- The loop over the checkpoints at the end of both. -/
def checkpointItems (onlineCheckpointMs : Vector ℚ 5) : List (String × Printed) :=
  (List.finRange 5).map fun checkpoint =>
    ("online_ms_q" ++ toString (queryCheckpoints.get checkpoint),
      .real (onlineCheckpointMs.get checkpoint))

/-- What `main` of the VLSE benchmark prints. -/
def pairedItems (doubles : Doubles) (options : Options) (metrics : PairedMetrics) :
    List (String × Printed) :=
  ([("protocol", .word "paired_vlse"), ("backend", .word "ntl_gmp_modp3072"),
    ("group", .word groupIdentifier), ("modulus_bits", .count 3072), ("subgroup_bits", .count 256),
    ("seed", .count options.seed), ("keywords", .count options.keywords),
    ("queries", .count options.queries), ("dmax", .count options.dmax),
    ("setup_ms", .real metrics.setupMs), ("setup_initialization_ms", .count 0),
    ("setup_genuine_ms", .real metrics.setupGenuineMs),
    ("setup_insert_ms", .real metrics.setupInsertMs),
    ("setup_dummy_ms", .real metrics.setupDummyMs),
    ("blind_precompute_ms", .real metrics.blindPrecomputationMs),
    ("tgen_ms", .real metrics.times.tgenMs), ("search_decrypt_ms", .real metrics.times.searchMs),
    ("online_ms", .real (doubles.add metrics.times.tgenMs metrics.times.searchMs)),
    ("serialized_bytes", .count metrics.serializedBytes),
    ("cache_object_bytes", .count metrics.serializedBytes),
    ("communication_bytes", .count metrics.communicationBytes),
    ("cold_total_bytes", .count metrics.communicationBytes),
    ("cold_amortized_bytes_per_keyword", .real
      (doubles.round (doubles.round metrics.communicationBytes / doubles.round options.queries))),
    ("first_cold_query_bytes",
      .count ((metrics.serializedBytes + communicationBytesPerEvaluation) % 2 ^ 64)),
    ("warm_marginal_bytes_per_keyword", .count communicationBytesPerEvaluation),
    ("oprf_evaluations_per_query", .count 1),
    ("oprf_wire_bytes_per_query", .count communicationBytesPerEvaluation),
    ("genuine_records", .count options.keywords), ("dummy_records", .count metrics.dummyRecords),
    ("dummy_components", .count (metrics.dummyRecords * options.dmax % 2 ^ 64)),
    ("capacity_slots", .count metrics.capacitySlots),
    ("setup_attempts", .count metrics.setup.setupAttempts),
    ("failed_setup_attempts", .count metrics.setup.failedSetupAttempts),
    ("successful_inserts", .count metrics.setup.successfulInserts),
    ("failed_inserts", .count metrics.setup.failedInserts),
    ("eviction_steps", .count metrics.setup.evictionSteps),
    ("rollback_count", .count metrics.setup.rollbackCount),
    ("maximum_eviction_chain", .count metrics.setup.maximumEvictionChain),
    ("relocation_steps", .count 0), ("maximum_relocation_chain", .count 0),
    ("query_successes", .count metrics.queries.querySuccesses),
    ("candidate_records_total", .count metrics.queries.candidateRecordsTotal),
    ("candidate_records_max", .count metrics.queries.candidateRecordsMax),
    ("decrypt_component_attempts",
      .count (metrics.queries.decryptComponentAttempts % 2 ^ 64)),
    ("keygen_included", .count 0), ("blind_precompute_included_in_online", .count 0),
    ("dataset_generation_included", .count 0), ("file_io_included", .count 0),
    ("log_io_included", .count 0), ("network_delay_included", .count 0)] :
      List (String × Printed)) ++
    checkpointItems metrics.times.onlineCheckpointMs

/-- What `main` of the LSE benchmark prints. -/
def lseItems (doubles : Doubles) (options : Options) (metrics : LseMetrics) :
    List (String × Printed) :=
  ([("protocol", .word "LSE"), ("backend", .word "ntl_gmp_modp3072"),
    ("group", .word groupIdentifier), ("modulus_bits", .count 3072), ("subgroup_bits", .count 256),
    ("seed", .count options.seed), ("keywords", .count options.keywords),
    ("queries", .count options.queries), ("dmax", .count options.dmax),
    ("setup_ms", .real metrics.setupMs),
    ("setup_initialization_ms", .real metrics.setupInitializationMs),
    ("setup_genuine_ms", .real metrics.setupGenuineMs), ("setup_insert_ms", .count 0),
    ("setup_dummy_ms", .real metrics.setupDummyMs),
    ("blind_precompute_ms", .real metrics.blindPrecomputationMs),
    ("tgen_ms", .real metrics.times.tgenMs), ("search_decrypt_ms", .real metrics.times.searchMs),
    ("online_ms", .real (doubles.add metrics.times.tgenMs metrics.times.searchMs)),
    ("serialized_bytes", .count metrics.serializedBytes),
    ("cache_object_bytes", .count metrics.serializedBytes),
    ("communication_bytes", .count metrics.communicationBytes),
    ("cold_total_bytes", .count metrics.communicationBytes),
    ("cold_amortized_bytes_per_keyword", .real
      (doubles.round (doubles.round metrics.communicationBytes / doubles.round options.queries))),
    ("first_cold_query_bytes",
      .count ((metrics.serializedBytes + 2 * communicationBytesPerEvaluation) % 2 ^ 64)),
    ("warm_marginal_bytes_per_keyword", .count (2 * communicationBytesPerEvaluation)),
    ("oprf_evaluations_per_query", .count 2),
    ("oprf_wire_bytes_per_query", .count (2 * communicationBytesPerEvaluation)),
    ("genuine_records", .count options.keywords), ("dummy_records", .count metrics.dummyRecords),
    ("dummy_components", .count (metrics.dummyRecords * options.dmax % 2 ^ 64)),
    ("capacity_slots", .count metrics.capacitySlots), ("setup_attempts", .count 1),
    ("failed_setup_attempts", .count 0),
    ("successful_inserts", .count metrics.statistics.successfulInserts),
    ("failed_inserts", .count metrics.statistics.failedInserts), ("eviction_steps", .count 0),
    ("rollback_count", .count 0), ("maximum_eviction_chain", .count 0),
    ("relocation_steps", .count metrics.statistics.relocationSteps),
    ("maximum_relocation_chain", .count metrics.statistics.maximumRelocationChain),
    ("query_successes", .count metrics.queries.querySuccesses),
    ("candidate_records_total", .count metrics.queries.querySuccesses),
    ("candidate_records_max", .count (if metrics.queries.querySuccesses = 0 then 0 else 1)),
    ("decrypt_component_attempts",
      .count (metrics.queries.decryptComponentAttempts % 2 ^ 64)),
    ("keygen_included", .count 0), ("blind_precompute_included_in_online", .count 0),
    ("dataset_generation_included", .count 0), ("file_io_included", .count 0),
    ("log_io_included", .count 0), ("network_delay_included", .count 0)] :
      List (String × Printed)) ++
    checkpointItems metrics.times.onlineCheckpointMs

/-- The fields of a row, as `parse_result` keeps them. -/
def Row.fields (row : Row) : Fields :=
  ([("protocol", .str row.protocol), ("backend", .str row.backend), ("group", .str row.group),
    ("modulus_bits", .int row.modulusBits), ("subgroup_bits", .int row.subgroupBits),
    ("seed", .int row.seed), ("keywords", .int row.keywords), ("queries", .int row.queries),
    ("dmax", .int row.dmax), ("setup_ms", .float row.setupMs),
    ("setup_initialization_ms", .float row.setupInitializationMs),
    ("setup_genuine_ms", .float row.setupGenuineMs),
    ("setup_insert_ms", .float row.setupInsertMs), ("setup_dummy_ms", .float row.setupDummyMs),
    ("blind_precompute_ms", .float row.blindPrecomputeMs), ("tgen_ms", .float row.tgenMs),
    ("search_decrypt_ms", .float row.searchDecryptMs), ("online_ms", .float row.onlineMs),
    ("serialized_bytes", .int row.serializedBytes),
    ("cache_object_bytes", .int row.cacheObjectBytes),
    ("communication_bytes", .int row.communicationBytes),
    ("cold_total_bytes", .int row.coldTotalBytes),
    ("cold_amortized_bytes_per_keyword", .float row.coldAmortizedBytesPerKeyword),
    ("first_cold_query_bytes", .int row.firstColdQueryBytes),
    ("warm_marginal_bytes_per_keyword", .int row.warmMarginalBytesPerKeyword),
    ("oprf_evaluations_per_query", .int row.oprfEvaluationsPerQuery),
    ("oprf_wire_bytes_per_query", .int row.oprfWireBytesPerQuery),
    ("genuine_records", .int row.genuineRecords), ("dummy_records", .int row.dummyRecords),
    ("dummy_components", .int row.dummyComponents), ("capacity_slots", .int row.capacitySlots),
    ("setup_attempts", .int row.setupAttempts),
    ("failed_setup_attempts", .int row.failedSetupAttempts),
    ("successful_inserts", .int row.successfulInserts), ("failed_inserts", .int row.failedInserts),
    ("eviction_steps", .int row.evictionSteps), ("rollback_count", .int row.rollbackCount),
    ("maximum_eviction_chain", .int row.maximumEvictionChain),
    ("relocation_steps", .int row.relocationSteps),
    ("maximum_relocation_chain", .int row.maximumRelocationChain),
    ("query_successes", .int row.querySuccesses),
    ("candidate_records_total", .int row.candidateRecordsTotal),
    ("candidate_records_max", .int row.candidateRecordsMax),
    ("decrypt_component_attempts", .int row.decryptComponentAttempts),
    ("keygen_included", .int row.keygenIncluded),
    ("blind_precompute_included_in_online", .int row.blindPrecomputeIncludedInOnline),
    ("dataset_generation_included", .int row.datasetGenerationIncluded),
    ("file_io_included", .int row.fileIoIncluded), ("log_io_included", .int row.logIoIncluded),
    ("network_delay_included", .int row.networkDelayIncluded)] : Fields) ++
    (List.finRange 5).map fun checkpoint =>
      ("online_ms_q" ++ toString (queryCheckpoints.get checkpoint),
        .float (row.onlineMsAt.get checkpoint))

/-- The fields of a row determine it. -/
theorem Row.fields_injective : Function.Injective Row.fields := by
  intro left right same
  unfold Row.fields at same
  have parts := List.append_inj' same rfl
  have first := parts.1
  have times := List.map_inj_left.mp parts.2
  cases left
  cases right
  simp only [List.cons.injEq, Prod.mk.injEq, FieldValue.int.injEq, FieldValue.float.injEq,
    FieldValue.str.injEq, true_and, and_true] at first
  simp only [Row.mk.injEq, first, true_and]
  refine Vector.ext fun place bound => ?_
  have one := times ⟨place, bound⟩ (List.mem_finRange _)
  simp only [Prod.mk.injEq, FieldValue.float.injEq, true_and] at one
  exact one

/-- What is read of a printed value under a converter. -/
def Printed.reading (doubles : Doubles) : Printed → Option Converter → FieldValue
  | word text, _ => .str text
  | count value, some .int => .int value
  | count value, some .float => .float (doubles.round value)
  | count value, none => .str (String.ofList (natText value))
  | real value, _ => .float (doubles.printed value)

/-- The fields read of the printed items. -/
def readings (doubles : Doubles) (items : List (String × Printed)) : Fields :=
  items.map fun item => (item.1, item.2.reading doubles (numericFields.lookup item.1))

/-- A checkpoint is read as it was printed. -/
theorem readings_checkpoints (doubles : Doubles) (online : Vector ℚ 5) :
    readings doubles (checkpointItems online) =
      (List.finRange 5).map fun checkpoint =>
        ("online_ms_q" ++ toString (queryCheckpoints.get checkpoint),
          .float ((online.map doubles.printed).get checkpoint)) := by
  rw [readings, checkpointItems, List.map_map]
  refine List.map_congr_left fun checkpoint _ => ?_
  have mapped : (online.map doubles.printed).get checkpoint =
      doubles.printed (online.get checkpoint) := Vector.getElem_map ..
  rw [mapped]
  rfl

/-- The items of the VLSE benchmark are read as its row. -/
theorem readings_pairedItems (doubles : Doubles) (options : Options) (metrics : PairedMetrics) :
    readings doubles (pairedItems doubles options metrics) =
      (pairedRow doubles options metrics).fields := by
  -- the initialization phase is printed as an integer and read as a float
  have zero : doubles.round (0 : Nat) = 0 := by rw [Nat.cast_zero, doubles.round_zero]
  have read : readings doubles (pairedItems doubles options metrics) =
      Row.fields { pairedRow doubles options metrics with
        setupInitializationMs := doubles.round (0 : Nat) } := by
    refine (List.map_append ..).trans (congrArg₂ (· ++ ·) rfl ?_)
    exact readings_checkpoints doubles metrics.times.onlineCheckpointMs
  rw [read, zero]
  rfl

/-- The items of the LSE benchmark are read as its row. -/
theorem readings_lseItems (doubles : Doubles) (options : Options) (metrics : LseMetrics) :
    readings doubles (lseItems doubles options metrics) =
      (lseRow doubles options metrics).fields := by
  -- here it is the insertion phase, which a table of bins does not have
  have zero : doubles.round (0 : Nat) = 0 := by rw [Nat.cast_zero, doubles.round_zero]
  have most : ((if metrics.queries.querySuccesses = 0 then 0 else 1 : Nat) : Int) =
      if metrics.queries.querySuccesses = 0 then 0 else 1 := by
    split
    · rfl
    · rfl
  have read : readings doubles (lseItems doubles options metrics) =
      Row.fields { lseRow doubles options metrics with
        setupInsertMs := doubles.round (0 : Nat)
        candidateRecordsMax := (if metrics.queries.querySuccesses = 0 then 0 else 1 : Nat) } := by
    refine (List.map_append ..).trans (congrArg₂ (· ++ ·) rfl ?_)
    exact readings_checkpoints doubles metrics.times.onlineCheckpointMs
  have same : ∀ insertMs recordsMax, insertMs = 0 →
      recordsMax = (if metrics.queries.querySuccesses = 0 then 0 else 1) →
      Row.fields { lseRow doubles options metrics with
        setupInsertMs := insertMs, candidateRecordsMax := recordsMax } =
        (lseRow doubles options metrics).fields := by
    rintro _ _ rfl rfl
    rfl
  exact read.trans (same _ _ zero most)

/-! ## Texts -/

/-- Six decimals are printed. -/
def Doubles.SixDecimals (doubles : Doubles) : Prop :=
  ∀ value, ∃ units : Nat, |doubles.fixed value| * 10 ^ 6 = units

/-- Doubles that do not round when they compute, and print the nearest number of millionths. -/
def sixDoubles : Doubles := { exactDoubles with
  fixed value := (⌊value * 1000000 + 1 / 2⌋ : Int) / 1000000
  fixed_mono first last ordered := by
    have floors : ⌊first * 1000000 + 1 / 2⌋ ≤ ⌊last * 1000000 + 1 / 2⌋ :=
      Int.floor_mono (by linarith)
    have casts : ((⌊first * 1000000 + 1 / 2⌋ : Int) : ℚ) ≤ (⌊last * 1000000 + 1 / 2⌋ : Int) :=
      Int.cast_le.mpr floors
    dsimp only
    linarith
  fixed_zero := by norm_num
  fixed_minusOne := by norm_num }

/-- They print six decimals. -/
theorem sixDoubles_sixDecimals : sixDoubles.SixDecimals := by
  intro value
  refine ⟨⌊value * 1000000 + 1 / 2⌋.natAbs, ?_⟩
  have printed : sixDoubles.fixed value = (⌊value * 1000000 + 1 / 2⌋ : Int) / 1000000 := rfl
  rw [printed, abs_div, abs_of_pos (by norm_num : (0 : ℚ) < 1000000), Nat.cast_natAbs, Int.cast_abs]
  ring

/-- They are as close as wanted. -/
theorem sixDoubles_nearest : sixDoubles.Nearest where
  round := ⟨by positivity, fun value => by
    have same : sixDoubles.round value = value := rfl
    rw [same, sub_self, abs_zero]
    positivity⟩
  fixed := ⟨le_rfl, fun value => by
    have printed : sixDoubles.fixed value = (⌊value * 1000000 + 1 / 2⌋ : Int) / 1000000 := rfl
    have below := Int.floor_le (value * 1000000 + 1 / 2)
    have above := Int.lt_floor_add_one (value * 1000000 + 1 / 2)
    rw [printed, zero_mul, zero_add, abs_le]
    constructor
    · linarith
    · linarith⟩

/-- What is printed for a double reads as the number printed. -/
theorem readDecimal_doubleText {doubles : Doubles} (six : doubles.SixDecimals) (value : ℚ) :
    readDecimal (doubleText doubles value) = some (doubles.fixed value) := by
  obtain ⟨units, printed⟩ := six value
  have size : |doubles.fixed value| = units / 10 ^ 6 := by
    rw [← printed]
    field_simp
  rw [doubleText, readDecimal_fixedText (by decide), printed, Rat.num_natCast, Int.natAbs_natCast,
    ← size]
  by_cases negative : value < 0
  · have below : doubles.fixed value ≤ 0 := by
      rw [← doubles.fixed_zero]
      exact doubles.fixed_mono negative.le
    rw [decide_eq_true negative, abs_of_nonpos below]
    exact congrArg some (neg_neg _)
  · have above : 0 ≤ doubles.fixed value := by
      rw [← doubles.fixed_zero]
      exact doubles.fixed_mono (not_lt.mp negative)
    rw [decide_eq_false negative, abs_of_nonneg above]
    rfl

/-- The words of the program hold no blanks and are read under no converter, and doubles are read
under `float`. -/
def Printed.fits : Printed → Option Converter → Bool
  | word text, kind => kind.isNone && text.toList.all fun letter => !isBlank letter
  | count _, kind => kind.isSome
  | real _, kind => kind = some .float

/-- A value that fits its converter is read as it should be. -/
theorem convert_text {doubles : Doubles} (six : doubles.SixDecimals) {key : String}
    {value : Printed} (fits : value.fits (numericFields.lookup key) = true) :
    convert doubles key (value.text doubles) =
      .ok (value.reading doubles (numericFields.lookup key)) := by
  unfold convert
  generalize numericFields.lookup key = kind at fits
  cases value with
  | word text =>
    rw [Printed.fits, Bool.and_eq_true, Option.isNone_iff_eq_none] at fits
    rw [fits.1, Printed.text, String.ofList_toList]
    rfl
  | count value =>
    cases kind with
    | none => contradiction
    | some kind =>
      cases kind with
      | int => simp only [Printed.text, readInt_natText, Printed.reading]
      | float => simp only [Printed.text, readDecimal_natText, Printed.reading]
  | real value =>
    obtain rfl := of_decide_eq_true fits
    simp only [Printed.text, readDecimal_doubleText six, Printed.reading, Doubles.printed]

/-- The text of a value holds no blanks. -/
theorem Printed.text_solid {doubles : Doubles} {value : Printed} {kind : Option Converter}
    (fits : value.fits kind = true) : ∀ letter ∈ value.text doubles, isBlank letter = false := by
  intro letter listed
  cases value with
  | word text =>
    rw [Printed.fits, Bool.and_eq_true] at fits
    exact none_of_all fits.2 letter listed
  | count value =>
    have digit : NumberLetter letter := .inl (isDigit_natText listed)
    exact digit.solid.1
  | real value => exact (numberLetter_fixedText listed).solid.1

/-! ## Lines -/

/-- The letters of a key are printable and not the separator. -/
def keyLetters (key : String) : Bool :=
  key.toList.all fun letter => 47 < letter.toNat ∧ letter.toNat < 128 ∧ letter.toNat ≠ 61

/-- So they neither are blanks nor separate a key. -/
theorem keyLetters_solid {key : String} (letters : keyLetters key = true) :
    ∀ letter ∈ key.toList, isBlank letter = false ∧ letter ≠ '=' := by
  intro letter listed
  have range := of_decide_eq_true (List.all_eq_true.mp letters letter listed)
  refine ⟨decide_eq_false (by omega), ?_⟩
  rintro rfl
  exact absurd range (by decide)

/-- Items that can be told apart on a line. -/
structure Legible (items : List (String × Printed)) : Prop where
  /-- The keys are distinct. -/
  distinct : (items.map Prod.fst).Nodup
  /-- Their letters do not separate. -/
  keys : ∀ item ∈ items, keyLetters item.1 = true
  /-- The values fit their converters. -/
  values : ∀ item ∈ items, item.2.fits (numericFields.lookup item.1) = true

/-- The loop reads the fields of legible items after those it has. -/
theorem parseItems_texts {doubles : Doubles} (six : doubles.SixDecimals)
    {items : List (String × Printed)} {fields : Fields}
    (distinct : (fields.map Prod.fst ++ items.map Prod.fst).Nodup)
    (keys : ∀ item ∈ items, keyLetters item.1 = true)
    (values : ∀ item ∈ items, item.2.fits (numericFields.lookup item.1) = true) :
    parseItems doubles fields (items.map (itemText doubles)) =
      .ok (fields ++ readings doubles items) := by
  induction items generalizing fields with
  | nil => simp [parseItems, readings]
  | cons item items ih =>
    have free : '=' ∉ item.1.toList := fun listed =>
      (keyLetters_solid (keys item List.mem_cons_self) _ listed).2 rfl
    have own := convert_text six (values item List.mem_cons_self)
    have new : item.1 ∉ fields.map Prod.fst := by
      intro listed
      have apart := (List.nodup_append.mp distinct).2.2 item.1 listed item.1 (by simp)
      exact apart rfl
    have later := @ih (fields ++ [(item.1, item.2.reading doubles (numericFields.lookup item.1))])
      (by simpa using distinct) (fun other member => keys other (List.mem_cons_of_mem item member))
      (fun other member => values other (List.mem_cons_of_mem item member))
    rw [List.map_cons, itemText, parseItems, splitOnce_append free]
    dsimp only
    rw [String.ofList_toList, own]
    dsimp only
    rw [setKey_append new, later, List.append_assoc]
    rfl

/-- The line of legible items is parsed to what they read as. -/
theorem parseResult_resultLine {doubles : Doubles} (six : doubles.SixDecimals)
    {items : List (String × Printed)} (legible : Legible items) :
    parseResult doubles (resultLine doubles items) = .ok (readings doubles items) := by
  have joined : resultLine doubles items =
      "RESULT".toList ++ (items.map (itemText doubles)).flatMap (' ' :: ·) :=
    congrArg ("RESULT".toList ++ ·) (List.flatMap_map ..).symm
  have solid : ∀ word ∈ "RESULT".toList :: items.map (itemText doubles),
      word ≠ [] ∧ ∀ letter ∈ word, isBlank letter = false := by
    intro word listed
    rcases List.mem_cons.mp listed with rfl | member
    · exact ⟨List.cons_ne_nil _ _, none_of_all rfl⟩
    · obtain ⟨item, inside, rfl⟩ := List.mem_map.mp member
      refine ⟨by simp [itemText], fun letter found => ?_⟩
      rw [itemText, List.mem_append, List.mem_cons] at found
      rcases found with key | rfl | value
      · exact (keyLetters_solid (legible.keys item inside) letter key).1
      · rfl
      · exact Printed.text_solid (legible.values item inside) letter value
  rw [parseResult, words_strip, joined, words_join (by decide) solid, List.drop_one, List.tail_cons]
  exact parseItems_texts six legible.distinct legible.keys legible.values

/-- Its letters end no line. -/
theorem resultLine_solid {doubles : Doubles} {items : List (String × Printed)}
    (legible : Legible items) :
    ∀ letter ∈ resultLine doubles items, isLineEnd letter = false := by
  have solid : ∀ {letter}, isBlank letter = false → isLineEnd letter = false := by
    intro letter other
    have codes := of_decide_eq_false other
    exact decide_eq_false (by omega)
  have word : ∀ letter ∈ "RESULT".toList, isLineEnd letter = false := none_of_all rfl
  intro letter listed
  rcases List.mem_append.mp listed with first | member
  · exact word letter first
  · obtain ⟨item, inside, found⟩ := List.mem_flatMap.mp member
    rw [itemText, List.mem_cons, List.mem_append, List.mem_cons] at found
    rcases found with rfl | key | rfl | value
    · rfl
    · exact solid (keyLetters_solid (legible.keys item inside) letter key).1
    · rfl
    · exact solid (Printed.text_solid (legible.values item inside) letter value)

/-- The keys of a row: three words, and what `NUMERIC_FIELDS` names. -/
def rowKeys : List String :=
  "protocol" :: "backend" :: "group" :: numericFields.map Prod.fst

/-- They are distinct. -/
theorem rowKeys_nodup : rowKeys.Nodup := by
  -- as numbers they are compared faster
  have codes : (rowKeys.map fun key =>
      key.toList.foldl (fun code letter => 256 * code + letter.toNat) 0).Nodup := by
    decide +kernel
  exact codes.of_map

/-- Their letters do not separate. -/
theorem rowKeys_letters : ∀ key ∈ rowKeys, keyLetters key = true := by
  decide +kernel

/-- Items with these keys and values that fit are legible. -/
theorem legible_of_rowKeys {items : List (String × Printed)}
    (keys : items.map Prod.fst = rowKeys)
    (values : items.all (fun item => item.2.fits (numericFields.lookup item.1)) = true) :
    Legible items := by
  refine ⟨keys ▸ rowKeys_nodup, fun item inside => ?_, List.all_eq_true.mp values⟩
  apply rowKeys_letters
  rw [← keys]
  exact List.mem_map_of_mem inside

/-- The items of the VLSE benchmark are legible. -/
theorem legible_pairedItems (doubles : Doubles) (options : Options) (metrics : PairedMetrics) :
    Legible (pairedItems doubles options metrics) := legible_of_rowKeys rfl rfl

/-- So are those of the LSE benchmark. -/
theorem legible_lseItems (doubles : Doubles) (options : Options) (metrics : LseMetrics) :
    Legible (lseItems doubles options metrics) := legible_of_rowKeys rfl rfl

/-! ## Files -/

/-- A line of the logs: the row of a benchmark, or another line. -/
inductive LogLine where
  /-- The row of a run of the VLSE benchmark. -/
  | paired (options : Options) (metrics : PairedMetrics)
  /-- The row of a run of the LSE benchmark. -/
  | lse (options : Options) (metrics : LseMetrics)
  /-- A line that is no row. -/
  | other (text : List Char) (foreign : "RESULT ".toList.isPrefixOf text = false)
    (solid : ∀ letter ∈ text, isLineEnd letter = false)

namespace LogLine

/-- The text of a line. -/
def text (doubles : Doubles) : LogLine → List Char
  | paired options metrics => resultLine doubles (pairedItems doubles options metrics)
  | lse options metrics => resultLine doubles (lseItems doubles options metrics)
  | other text _ _ => text

/-- The row of a line. -/
def row? (doubles : Doubles) : LogLine → Option Row
  | paired options metrics => some (pairedRow doubles options metrics)
  | lse options metrics => some (lseRow doubles options metrics)
  | other _ _ _ => none

end LogLine

/-- The lines of a file hold no line ends. -/
theorem LogLine.text_solid {doubles : Doubles} (line : LogLine) :
    ∀ letter ∈ line.text doubles, isLineEnd letter = false := by
  cases line with
  | paired options metrics => exact resultLine_solid (legible_pairedItems doubles options metrics)
  | lse options metrics => exact resultLine_solid (legible_lseItems doubles options metrics)
  | other text foreign solid => exact solid

/-- What is read of a line: its row, if it is one. -/
theorem LogLine.reading {doubles : Doubles} (six : doubles.SixDecimals) (line : LogLine) :
    ([line.text doubles].filter ("RESULT ".toList.isPrefixOf ·)).mapM (parseResult doubles) =
      .ok ((line.row? doubles).toList.map Row.fields) := by
  cases line with
  | paired options metrics =>
    have starts : "RESULT ".toList.isPrefixOf
        (resultLine doubles (pairedItems doubles options metrics)) = true := rfl
    have parsed := parseResult_resultLine six (legible_pairedItems doubles options metrics)
    rw [readings_pairedItems] at parsed
    simp only [LogLine.text, List.filter_cons, starts, if_true, List.filter_nil, List.mapM_cons,
      List.mapM_nil, parsed]
    rfl
  | lse options metrics =>
    have starts : "RESULT ".toList.isPrefixOf
        (resultLine doubles (lseItems doubles options metrics)) = true := rfl
    have parsed := parseResult_resultLine six (legible_lseItems doubles options metrics)
    rw [readings_lseItems] at parsed
    simp only [LogLine.text, List.filter_cons, starts, if_true, List.filter_nil, List.mapM_cons,
      List.mapM_nil, parsed]
    rfl
  | other text foreign solid =>
    simp only [LogLine.text, List.filter_cons, foreign, Bool.false_eq_true, if_false,
      List.filter_nil, List.mapM_nil]
    rfl

/-- The text of the lines of a file. -/
def fileText (doubles : Doubles) (lines : List LogLine) : List Char :=
  (lines.map (LogLine.text doubles)).flatMap (· ++ ['\n'])

/-- The lines of a file are found again. -/
theorem splitLines_fileText (doubles : Doubles) (lines : List LogLine) :
    splitLines (fileText doubles lines) = lines.map (LogLine.text doubles) := by
  refine splitLines_join _ fun text listed => ?_
  obtain ⟨line, -, rfl⟩ := List.mem_map.mp listed
  exact line.text_solid

/-- What is read of lines: the rows among them. -/
theorem LogLine.readings {doubles : Doubles} (six : doubles.SixDecimals) (lines : List LogLine) :
    ((lines.map (LogLine.text doubles)).filter ("RESULT ".toList.isPrefixOf ·)).mapM
        (parseResult doubles) =
      .ok ((lines.filterMap (LogLine.row? doubles)).map Row.fields) := by
  induction lines with
  | nil => rfl
  | cons line lines ih =>
    have first := line.reading six
    have parts : ((line :: lines).map (LogLine.text doubles)).filter
        ("RESULT ".toList.isPrefixOf ·) =
      [line.text doubles].filter ("RESULT ".toList.isPrefixOf ·) ++
        (lines.map (LogLine.text doubles)).filter ("RESULT ".toList.isPrefixOf ·) := by
      rw [← List.filter_append]
      rfl
    rw [parts, List.mapM_append, first, ih]
    cases line with
    | paired options metrics => rfl
    | lse options metrics => rfl
    | other text foreign solid => rfl

/-- From a file of log lines the summarizer reads the rows that the benchmarks printed, in order,
and nothing else. -/
theorem readRows_printed {doubles : Doubles} (six : doubles.SixDecimals) (lines : List LogLine) :
    readRows doubles (fileText doubles lines) =
      .ok ((lines.filterMap (LogLine.row? doubles)).map Row.fields) := by
  rw [readRows, splitLines_fileText]
  exact LogLine.readings six lines

/-- The rows of a run of each benchmark between the lines around them. -/
theorem readRows_printed_pair :
    ∃ before lseMetrics metrics after, LogLine.text sixDoubles before = "utc_start=0".toList ∧
      readRows sixDoubles (fileText sixDoubles
        [before, .lse pairOptions lseMetrics, .paired pairOptions metrics, after]) =
          .ok [(lseRow sixDoubles pairOptions lseMetrics).fields,
            (pairedRow sixDoubles pairOptions metrics).fields] := by
  obtain ⟨index, metrics, -⟩ := dispatch_pair
  obtain ⟨lseMetrics, -⟩ := runLse_pair
  exact ⟨.other "utc_start=0".toList rfl (none_of_all rfl), lseMetrics, metrics,
    .other "utc_end=1".toList rfl (none_of_all rfl), rfl, readRows_printed sixDoubles_sixDecimals _⟩

end Vlse.Benchmark
