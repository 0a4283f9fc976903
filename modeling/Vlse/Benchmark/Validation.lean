import Vlse.Benchmark.Agreement
import Vlse.Foundation.RoundingError
/-!
# Times that add up

`validate_row` compares the sum of the printed Setup phases with the printed Setup time, and the
last checkpoint with the online time. The checkpoint is the same double. The phases are rounded when
they are converted, printed, read back and added; for doubles that round to nearest and a Setup of
at most `2 ^ 60` nanoseconds this stays below the tolerance. So every row printed passes.
-/

namespace Vlse.Benchmark

open Vlse.Filter Label Oprf Protocol

/-- What double arithmetic that rounds to nearest and printing with six decimals are off by. -/
structure Doubles.Nearest (doubles : Doubles) : Prop where
  /-- Half a unit in the last place, or half the smallest double. -/
  round : RoundsWithin (1 / 2 ^ 53) (1 / 2 ^ 1075) doubles.round
  /-- Half a unit in the sixth decimal. -/
  fixed : RoundsWithin 0 (1 / 2000000) doubles.fixed

/-- Half the smallest double is small beside the units here. -/
theorem underflow_le : (1 : ℚ) / 2 ^ 1075 ≤ 1 / 2 ^ 30 :=
  one_div_le_one_div_of_le (by norm_num) (pow_le_pow_right₀ (by norm_num) (by norm_num))

namespace Doubles.Nearest

variable {doubles : Doubles} (nearest : doubles.Nearest)

include nearest

/-- Rounding a value of at most `2 ^ 41` adds an error below a four thousandth. -/
theorem close_round {bound computed exact : ℚ} (close : Close bound computed exact)
    (small : bound ≤ 1) (sized : |exact| ≤ 2 ^ 41) :
    Close (bound + 1 / 4000) (doubles.round computed) exact := by
  have tiny := underflow_le
  have stepped := nearest.round.step close sized
  generalize (1 : ℚ) / 2 ^ 1075 = underflow at tiny stepped
  refine stepped.mono ?_
  linarith

/-- A duration of at most `2 ^ 60` nanoseconds is printed and read back in milliseconds with an
error below a fifteen hundredth. -/
theorem close_printed {nanoseconds : Int} (elapsed : 0 ≤ nanoseconds)
    (short : nanoseconds ≤ 2 ^ 60) :
    Close (1 / 1500) (doubles.printed (doubles.milliseconds nanoseconds))
      (nanoseconds / 1000000) := by
  have nonnegative : (0 : ℚ) ≤ nanoseconds := Int.cast_nonneg elapsed
  have bounded : (nanoseconds : ℚ) ≤ 2 ^ 60 := by exact_mod_cast short
  have tiny := underflow_le
  have counted : Close 129 (doubles.round nanoseconds) (nanoseconds : ℚ) := by
    have error := nearest.round.close nanoseconds
    generalize (1 : ℚ) / 2 ^ 1075 = underflow at tiny error
    rw [abs_of_nonneg nonnegative] at error
    refine error.trans ?_
    linarith
  have sized : |(nanoseconds : ℚ) / 1000000| ≤ 2 ^ 41 := by
    rw [abs_of_nonneg (by positivity)]
    linarith
  have scaled := counted.div (by norm_num : (0 : ℚ) < 1000000)
  have converted := nearest.close_round scaled (by norm_num) sized
  have shown := nearest.fixed.step converted sized
  have read := nearest.close_round shown (by norm_num) sized
  exact read.mono (by norm_num)

/-- A sum of printed times that is read back as one. -/
theorem close_add {bound other left right leftExact rightExact : ℚ}
    (first : Close bound left leftExact) (second : Close other right rightExact)
    (small : bound + other ≤ 1) (sized : |leftExact + rightExact| ≤ 2 ^ 41) :
    Close (bound + other + 1 / 4000) (doubles.add left right) (leftExact + rightExact) :=
  nearest.close_round (first.add second) small sized

/-- Times that are close to one another are not apart for the validator. -/
theorem not_apart {bound other left right exact : ℚ} (first : Close bound left exact)
    (second : Close other right exact) (small : bound + other ≤ 1 / 200) :
    apart doubles left right = false := by
  have difference := first.sub second
  rw [sub_self] at difference
  have rounded := nearest.close_round difference (by linarith) (by rw [abs_zero]; positivity)
  have within := rounded.abs_le (abs_zero.le : |(0 : ℚ)| ≤ 0)
  have tolerance := nearest.close_round (Close.refl (le_refl (0 : ℚ)) (1 / 100)) (by norm_num)
    (by rw [abs_of_pos (by norm_num)]; norm_num)
  have below := (abs_le.mp tolerance).1
  refine decide_eq_false (not_lt.mpr ?_)
  linarith

/-- The printed phases of Setup add up to its printed time. -/
theorem phasesClose {row : Row} {initialization genuine insert dummy : Int}
    (initializationTime : 0 ≤ initialization) (genuineTime : 0 ≤ genuine) (insertTime : 0 ≤ insert)
    (dummyTime : 0 ≤ dummy) (short : initialization + genuine + insert + dummy ≤ 2 ^ 60)
    (first : Close (1 / 1500) row.setupInitializationMs (initialization / 1000000))
    (second : Close (1 / 1500) row.setupGenuineMs (genuine / 1000000))
    (third : Close (1 / 1500) row.setupInsertMs (insert / 1000000))
    (fourth : Close (1 / 1500) row.setupDummyMs (dummy / 1000000))
    (whole : Close (1 / 1500) row.setupMs
      ((initialization + genuine + insert + dummy : Int) / 1000000)) :
    row.PhasesClose doubles := by
  have initializationNonneg : (0 : ℚ) ≤ initialization := Int.cast_nonneg initializationTime
  have genuineNonneg : (0 : ℚ) ≤ genuine := Int.cast_nonneg genuineTime
  have insertNonneg : (0 : ℚ) ≤ insert := Int.cast_nonneg insertTime
  have dummyNonneg : (0 : ℚ) ≤ dummy := Int.cast_nonneg dummyTime
  have bounded : (initialization : ℚ) + genuine + insert + dummy ≤ 2 ^ 60 := by
    exact_mod_cast short
  have sumTwo := nearest.close_add first second (by norm_num) (by
    rw [abs_of_nonneg (by positivity)]
    linarith)
  have sumThree := nearest.close_add sumTwo third (by norm_num) (by
    rw [abs_of_nonneg (by positivity)]
    linarith)
  have sumFour := nearest.close_add sumThree fourth (by norm_num) (by
    rw [abs_of_nonneg (by positivity)]
    linarith)
  have exact : (initialization / 1000000 + genuine / 1000000 + insert / 1000000 + dummy / 1000000 :
      ℚ) = (initialization + genuine + insert + dummy : Int) / 1000000 := by
    push_cast
    ring
  rw [exact] at sumFour
  exact nearest.not_apart sumFour whole (by norm_num)

end Doubles.Nearest

/-! ## Rows -/

/-- A checkpoint that ends the queries has the online time. -/
theorem queryTimes_checkpoint (doubles : Doubles) (clock : SteadyClock) (firstReading : Nat)
    (checkpoint : Fin 5) :
    (queryTimes doubles clock firstReading
        (queryCheckpoints.get checkpoint)).onlineCheckpointMs.get checkpoint =
      doubles.add (queryTimes doubles clock firstReading (queryCheckpoints.get checkpoint)).tgenMs
        (queryTimes doubles clock firstReading (queryCheckpoints.get checkpoint)).searchMs := by
  have positive : ∀ checkpoint, queryCheckpoints.get checkpoint ≠ 0 := by decide
  obtain ⟨last, reached⟩ := Nat.exists_eq_succ_of_ne_zero (positive checkpoint)
  rw [reached, queryTimes, QueryTimes.add, get_keepCheckpoint,
    if_pos ⟨List.mem_finRange checkpoint, reached.symm⟩]

/-- The last checkpoint of a row whose times are those of its queries is the online time. -/
theorem lastClose_of_queryTimes {doubles : Doubles} {clock : SteadyClock} {queries : Nat}
    {row : Row} (asked : row.queries = queries)
    (checkpoints : row.onlineMsAt =
      (queryTimes doubles clock 6 queries).onlineCheckpointMs.map doubles.printed)
    (online : row.onlineMs = doubles.printed (doubles.add
      (queryTimes doubles clock 6 queries).tgenMs (queryTimes doubles clock 6 queries).searchMs)) :
    row.LastClose doubles := by
  intro thousand
  have last : queries = queryCheckpoints.get (Fin.last 4) := by
    rw [asked] at thousand
    exact_mod_cast thousand
  have shown : row.onlineMsAt.get (Fin.last 4) = doubles.printed
      ((queryTimes doubles clock 6 queries).onlineCheckpointMs.get (Fin.last 4)) := by
    rw [checkpoints]
    exact Vector.getElem_map _ (Fin.last 4).isLt
  rw [shown, online, last, queryTimes_checkpoint, apart, sub_self, doubles.round_zero, abs_zero]
  exact decide_eq_false (not_lt.mpr (Doubles.round_nonneg (by norm_num)))

/-- Readings in order split the time between the first and the last. -/
theorem between_split (clock : SteadyClock) (first second third fourth : Nat) :
    clock.between first second + clock.between second third + clock.between third fourth =
      clock.between first fourth := by
  unfold SteadyClock.between
  omega

/-- A printed row of the VLSE benchmark passes. -/
theorem validateRow_paired {C T : Type*} [Inhabited C] [Inhabited T] {doubles : Doubles}
    {clock : SteadyClock} {env : PairedEnvironment C T} {options : Options} {limit : Nat}
    {index : Index (SealedRecord options.dmax C T)} {metrics : PairedMetrics}
    (nearest : doubles.Nearest) (accepted : options.Accepted)
    (short : clock.between 2 5 ≤ 2 ^ 60)
    (ended : dispatch doubles clock env options limit = some (.ok (index, metrics)))
    (fits : pairedObjectBytes options.dmax index.config.layout.bucketCount +
      options.queries * communicationBytesPerEvaluation < 2 ^ 64) :
    validateRow doubles (pairedRow doubles options metrics) = .ok () := by
  have row := pairedRow_consistent accepted ended fits
  unfold dispatch at ended
  split at ended
  · obtain ⟨dummies, setup, queries, rfl, -, -⟩ := runPaired_ok accepted.enough ended
    have split := between_split clock 2 3 4 5
    have genuine := clock.between_nonneg (by decide : 2 ≤ 3)
    have insert := clock.between_nonneg (by decide : 3 ≤ 4)
    have dummy := clock.between_nonneg (by decide : 4 ≤ 5)
    have phases : 0 + clock.between 2 3 + clock.between 3 4 + clock.between 4 5 =
        clock.between 2 5 := by omega
    have none : Close (1 / 1500) (0 : ℚ) ((0 : Int) / 1000000) := by
      rw [Int.cast_zero, zero_div]
      exact Close.refl (by norm_num) 0
    have close : (pairedRow doubles options (pairedMetrics doubles clock options index dummies setup
        queries)).PhasesClose doubles :=
      nearest.phasesClose le_rfl genuine insert dummy (by omega) none
      (nearest.close_printed genuine (by omega)) (nearest.close_printed insert (by omega))
      (nearest.close_printed dummy (by omega))
      (by rw [phases]; exact nearest.close_printed (by omega) short)
    exact (validateRow_eq_ok _ _).mpr ⟨row, close, lastClose_of_queryTimes rfl rfl rfl⟩
  · simp at ended

/-- A printed row of the LSE benchmark passes. -/
theorem validateRow_lse {doubles : Doubles} {clock : SteadyClock} {env : Lse.Environment}
    {options : Options} {limit : Nat} {metrics : LseMetrics} (nearest : doubles.Nearest)
    (accepted : options.Accepted) (short : clock.between 2 5 ≤ 2 ^ 60)
    (ended : runLse doubles clock env options limit = some (.ok metrics))
    (fits : lseObjectBytes options + options.queries * (2 * communicationBytesPerEvaluation) <
      2 ^ 64) :
    validateRow doubles (lseRow doubles options metrics) = .ok () := by
  have row := lseRow_consistent accepted ended fits
  unfold runLse at ended
  split at ended
  · contradiction
  · simp at ended
  · rename_i index queries ran
    cases ended
    have split := between_split clock 2 3 4 5
    have initialization := clock.between_nonneg (by decide : 2 ≤ 3)
    have genuine := clock.between_nonneg (by decide : 3 ≤ 4)
    have dummy := clock.between_nonneg (by decide : 4 ≤ 5)
    have phases : clock.between 2 3 + clock.between 3 4 + 0 + clock.between 4 5 =
        clock.between 2 5 := by omega
    have none : Close (1 / 1500) (0 : ℚ) ((0 : Int) / 1000000) := by
      rw [Int.cast_zero, zero_div]
      exact Close.refl (by norm_num) 0
    have close : (lseRow doubles options (lseMetrics doubles clock options index
        queries)).PhasesClose doubles :=
      nearest.phasesClose initialization genuine le_rfl dummy (by omega)
      (nearest.close_printed initialization (by omega)) (nearest.close_printed genuine (by omega))
      none (nearest.close_printed dummy (by omega))
      (by rw [phases]; exact nearest.close_printed (by omega) short)
    exact (validateRow_eq_ok _ _).mpr ⟨row, close, lastClose_of_queryTimes rfl rfl rfl⟩

/-- Doubles that never round are as close as wanted. -/
theorem exactDoubles_nearest : exactDoubles.Nearest where
  round := ⟨by positivity, fun value => by
    rw [show exactDoubles.round value = value from rfl, sub_self, abs_zero]
    positivity⟩
  fixed := ⟨le_rfl, fun value => by
    rw [show exactDoubles.fixed value = value from rfl, sub_self, abs_zero]
    positivity⟩

/-- With doubles that round to nearest, accepted options, sizes that fit in 64 bits and a Setup of
at most `2 ^ 60` nanoseconds, every row that either benchmark prints passes `validate_row`. -/
theorem rows_pass {C T : Type*} [Inhabited C] [Inhabited T] {doubles : Doubles}
    {clock : SteadyClock} {options : Options} (nearest : doubles.Nearest)
    (accepted : options.Accepted) (short : clock.between 2 5 ≤ 2 ^ 60) :
    (∀ (env : PairedEnvironment C T) (limit : Nat)
        (index : Index (SealedRecord options.dmax C T)) (metrics : PairedMetrics),
      dispatch doubles clock env options limit = some (.ok (index, metrics)) →
      pairedObjectBytes options.dmax index.config.layout.bucketCount +
        options.queries * communicationBytesPerEvaluation < 2 ^ 64 →
      validateRow doubles (pairedRow doubles options metrics) = .ok ()) ∧
    ∀ (env : Lse.Environment) (limit : Nat) (metrics : LseMetrics),
      runLse doubles clock env options limit = some (.ok metrics) →
      lseObjectBytes options + options.queries * (2 * communicationBytesPerEvaluation) < 2 ^ 64 →
      validateRow doubles (lseRow doubles options metrics) = .ok () :=
  ⟨fun _ _ _ _ ended fits => validateRow_paired nearest accepted short ended fits,
    fun _ _ _ ended fits => validateRow_lse nearest accepted short ended fits⟩

/-- The rows of both benchmarks for two keywords pass. -/
theorem rows_pass_pair :
    (∃ index metrics,
      dispatch exactDoubles countingClock steadyPaired pairOptions 1 =
        some (.ok (index, metrics)) ∧
      validateRow exactDoubles (pairedRow exactDoubles pairOptions metrics) = .ok ()) ∧
    ∃ metrics,
      runLse exactDoubles countingClock Lse.smallEnvironment pairOptions 1 =
        some (.ok metrics) ∧
      validateRow exactDoubles (lseRow exactDoubles pairOptions metrics) = .ok () := by
  have short : countingClock.between 2 5 ≤ 2 ^ 60 := by decide
  constructor
  · obtain ⟨index, metrics, ended, single⟩ := dispatch_pair
    have fits : pairedObjectBytes pairOptions.dmax index.config.layout.bucketCount +
        pairOptions.queries * communicationBytesPerEvaluation < 2 ^ 64 := by
      rw [single]
      decide
    exact ⟨index, metrics, ended, (rows_pass exactDoubles_nearest pairOptions_accepted short).1
      steadyPaired 1 index metrics ended fits⟩
  · obtain ⟨metrics, ended⟩ := runLse_pair
    exact ⟨metrics, ended, (rows_pass (C := Unit) (T := Unit) exactDoubles_nearest
      pairOptions_accepted short).2 Lse.smallEnvironment 1 metrics ended (by decide)⟩

end Vlse.Benchmark
