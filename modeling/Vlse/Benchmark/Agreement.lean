import Vlse.Benchmark.Lse
import Vlse.Benchmark.Paired
/-!
# Rows pass the validator

Every row that one of the benchmarks prints passes the checks of `validate_row` on integers and on
checkpoints, so only its two comparisons of times are left to decide whether the row passes.
-/

namespace Vlse.Benchmark

open Vlse.Filter Label Oprf Protocol

/-- For options that are accepted, a run of the VLSE or of the LSE benchmark that reaches its row,
with sizes that fit in 64 bits, prints one that satisfies every equation of `validate_row` and has
a time for a checkpoint exactly when the queries reach it; the validator accepts the row exactly
when its times are close. -/
theorem rows_consistent {C T : Type*} [Inhabited C] [Inhabited T] (doubles : Doubles)
    (clock : SteadyClock) {options : Options} (accepted : options.Accepted) :
    (∀ (env : PairedEnvironment C T) (limit : Nat)
        (index : Index (SealedRecord options.dmax C T)) (metrics : PairedMetrics),
      dispatch doubles clock env options limit = some (.ok (index, metrics)) →
      pairedObjectBytes options.dmax index.config.layout.bucketCount +
        options.queries * communicationBytesPerEvaluation < 2 ^ 64 →
      (pairedRow doubles options metrics).Consistent ∧
        (validateRow doubles (pairedRow doubles options metrics) = .ok () ↔
          (pairedRow doubles options metrics).PhasesClose doubles ∧
          (pairedRow doubles options metrics).LastClose doubles)) ∧
    (∀ (env : Lse.Environment) (limit : Nat) (metrics : LseMetrics),
      runLse doubles clock env options limit = some (.ok metrics) →
      lseObjectBytes options + options.queries * (2 * communicationBytesPerEvaluation) < 2 ^ 64 →
      (lseRow doubles options metrics).Consistent ∧
        (validateRow doubles (lseRow doubles options metrics) = .ok () ↔
          (lseRow doubles options metrics).PhasesClose doubles ∧
          (lseRow doubles options metrics).LastClose doubles)) := by
  constructor
  · intro env limit index metrics ended fits
    have row := pairedRow_consistent accepted ended fits
    exact ⟨row, (validateRow_eq_ok _ _).trans (and_iff_right row)⟩
  · intro env limit metrics ended fits
    have row := lseRow_consistent accepted ended fits
    exact ⟨row, (validateRow_eq_ok _ _).trans (and_iff_right row)⟩

/-- Doubles that never round. -/
def exactDoubles : Doubles where
  round value := value
  fixed value := value
  repr value := toString value
  round_mono := monotone_id
  round_zero := rfl
  round_minusOne := rfl
  fixed_mono := monotone_id
  fixed_zero := rfl
  fixed_minusOne := rfl

/-- A clock that reads the number of its call. -/
def countingClock : SteadyClock where
  reading call := call
  steady _ _ ordered := Int.ofNat_le.mpr ordered

/-- Two keywords, and a query for each. -/
def pairOptions : Options := { keywords := 2, queries := 2 }

/-- They are accepted. -/
theorem pairOptions_accepted : pairOptions.Accepted where
  keywords := by decide
  queries := by decide
  dmax := by decide
  seed := by decide
  enough := by decide

/-- The small environment, in which an evaluation on a blind is a direct one. -/
def steadyPaired : PairedEnvironment (AeadKey128 × Nonce × AssociatedData × Plaintext) Unit :=
  { steadyEnvironment with
    evaluatePrepared _ keyword := some (.ok (steadyEnvironment.directEvaluate keyword)) }

/-- The VLSE benchmark reaches its row for two keywords, with a single bucket. -/
theorem dispatch_pair :
    ∃ index metrics, dispatch exactDoubles countingClock steadyPaired pairOptions 1 =
      some (.ok (index, metrics)) ∧ index.config.layout.bucketCount = 1 := by
  have checked : (dispatch exactDoubles countingClock steadyPaired pairOptions 1).any
      (fun ending => ending.toOption.any fun run => run.1.config.layout.bucketCount = 1) =
        true := by
    decide +kernel
  obtain ⟨⟨index, metrics⟩, ended, single⟩ := exists_of_any checked
  exact ⟨index, metrics, ended, of_decide_eq_true single⟩

/-- In the small environment the LSE benchmark reaches its row when its Setup completes. -/
theorem runLse_small {options : Options} (doubles : Doubles) (clock : SteadyClock)
    (distinct : ((lseKeywords options).map Lse.smallEnvironment.directToken).Nodup)
    (completes : ((Lse.smallEnvironment.setup options.dmax (lseKeywords options) 1).any
      fun ending => ending.toOption.any fun _ => true) = true) :
    ∃ metrics, runLse doubles clock Lse.smallEnvironment options 1 = some (.ok metrics) := by
  obtain ⟨index, completed, -⟩ := exists_of_any completes
  obtain ⟨records, complete⟩ := Lse.Environment.setup_complete distinct completed
  have looped := complete.queryLoop Lse.xorAes_inverts
    ((lseKeywords options).take options.queries) 0 {} (by simp)
  rw [runLse, Lse.Environment.run, completed]
  dsimp only
  rw [looped]
  exact ⟨_, rfl⟩

/-- So it does for two keywords. -/
theorem runLse_pair :
    ∃ metrics, runLse exactDoubles countingClock Lse.smallEnvironment pairOptions 1 =
      some (.ok metrics) :=
  runLse_small exactDoubles countingClock (Lse.Environment.nodup_directToken (by decide +kernel))
    (by decide +kernel)

/-- The rows of both benchmarks for two keywords. -/
theorem rows_consistent_pair :
    (∃ index metrics,
      dispatch exactDoubles countingClock steadyPaired pairOptions 1 =
        some (.ok (index, metrics)) ∧
      (pairedRow exactDoubles pairOptions metrics).Consistent ∧
      (validateRow exactDoubles (pairedRow exactDoubles pairOptions metrics) = .ok () ↔
        (pairedRow exactDoubles pairOptions metrics).PhasesClose exactDoubles ∧
        (pairedRow exactDoubles pairOptions metrics).LastClose exactDoubles)) ∧
    ∃ metrics,
      runLse exactDoubles countingClock Lse.smallEnvironment pairOptions 1 =
        some (.ok metrics) ∧
      (lseRow exactDoubles pairOptions metrics).Consistent ∧
      (validateRow exactDoubles (lseRow exactDoubles pairOptions metrics) = .ok () ↔
        (lseRow exactDoubles pairOptions metrics).PhasesClose exactDoubles ∧
        (lseRow exactDoubles pairOptions metrics).LastClose exactDoubles) := by
  constructor
  · obtain ⟨index, metrics, ended, single⟩ := dispatch_pair
    have fits : pairedObjectBytes pairOptions.dmax index.config.layout.bucketCount +
        pairOptions.queries * communicationBytesPerEvaluation < 2 ^ 64 := by
      rw [single]
      decide
    exact ⟨index, metrics, ended, (rows_consistent exactDoubles countingClock
      pairOptions_accepted).1 steadyPaired 1 index metrics ended fits⟩
  · obtain ⟨metrics, ended⟩ := runLse_pair
    exact ⟨metrics, ended, (rows_consistent (C := Unit) (T := Unit) exactDoubles countingClock
      pairOptions_accepted).2 Lse.smallEnvironment 1 metrics ended (by decide)⟩

end Vlse.Benchmark
