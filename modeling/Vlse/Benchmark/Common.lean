import Mathlib.Algebra.Order.Field.Rat
import Mathlib.Tactic.Linarith
import Mathlib.Tactic.Positivity
import Vlse.Foundation.ByteBits
/-!
# What the two benchmarks share

Both benchmarks take the same options, make the same keywords and time their queries in the same
way: after each query they add the time of its token generation and of its search to two totals,
and when the number of queries is a checkpoint they keep the sum of the totals. Doubles are exact
rationals with a rounding of which only the order and two values are known, and the readings of
the clock never decrease.
-/

namespace Vlse.Benchmark

/-! ## Options -/

/-- `Options`. -/
structure Options where
  /-- `keywords`. -/
  keywords : Nat := 4096
  /-- `queries`. -/
  queries : Nat := 40
  /-- `dmax`. -/
  dmax : Nat := 1
  /-- `seed`. -/
  seed : Nat := 1

/-- The options `ParseOptions` returns. -/
structure Options.Accepted (options : Options) : Prop where
  /-- `ParseSize` returns positive 64-bit values. -/
  keywords : 0 < options.keywords ∧ options.keywords < 2 ^ 64
  /-- Also for `--queries`. -/
  queries : 0 < options.queries ∧ options.queries < 2 ^ 64
  /-- Also for `--dmax`. -/
  dmax : 0 < options.dmax ∧ options.dmax < 2 ^ 64
  /-- Also for `--seed`. -/
  seed : 0 < options.seed ∧ options.seed < 2 ^ 64
  /-- Queries cannot exceed keywords. -/
  enough : options.queries ≤ options.keywords

/-- `MakeKeywords`. -/
def makeKeywords (count seed : Nat) : List String :=
  (List.range count).map fun i => "keyword/" ++ toString seed ++ "/" ++ toString i

/-- There are as many keywords as asked for. -/
@[simp] theorem length_makeKeywords (count seed : Nat) :
    (makeKeywords count seed).length = count := by
  rw [makeKeywords, List.length_map, List.length_range]

/-- `NtlOprf::CommunicationBytesPerEvaluation`: the request and the response. -/
def communicationBytesPerEvaluation : Nat := 384 + 384

/-- `PublicParameters::Identifier`. -/
def groupIdentifier : String := "ffc3072-q256-shake256-v1"

/-! ## Doubles -/

/-- Doubles as exact rationals. No figure of a benchmark comes near the largest double. -/
structure Doubles where
  /-- The double an exact result is rounded to. -/
  round : ℚ → ℚ
  /-- The number `std::fixed` prints for a double with six decimals. -/
  fixed : ℚ → ℚ
  /-- The text Python prints for a double. -/
  repr : ℚ → String
  /-- Rounding keeps the order. -/
  round_mono : Monotone round
  /-- Zero is a double. -/
  round_zero : round 0 = 0
  /-- Minus one is a double. -/
  round_minusOne : round (-1) = -1
  /-- Printing keeps the order. -/
  fixed_mono : Monotone fixed
  /-- Zero is printed exactly. -/
  fixed_zero : fixed 0 = 0
  /-- Minus one is printed exactly. -/
  fixed_minusOne : fixed (-1) = -1

namespace Doubles

variable (doubles : Doubles)

/-- Addition. -/
def add (left right : ℚ) : ℚ := doubles.round (left + right)

/-- `Milliseconds`: nanoseconds as a double, divided by a million. -/
def milliseconds (nanoseconds : Int) : ℚ := doubles.round (doubles.round nanoseconds / 1000000)

/-- A double as it is read back from a row. -/
def printed (value : ℚ) : ℚ := doubles.round (doubles.fixed value)

variable {doubles}

/-- Rounding keeps what is not negative so. -/
theorem round_nonneg {value : ℚ} (nonnegative : 0 ≤ value) : 0 ≤ doubles.round value := by
  have kept := doubles.round_mono nonnegative
  rwa [doubles.round_zero] at kept

/-- A sum of times is not negative. -/
theorem sum_nonneg {left right : ℚ} (leftTime : 0 ≤ left) (rightTime : 0 ≤ right) :
    0 ≤ doubles.add left right :=
  round_nonneg (add_nonneg leftTime rightTime)

/-- A duration that is not negative has a time that is not. -/
theorem milliseconds_nonneg {nanoseconds : Int} (elapsed : 0 ≤ nanoseconds) :
    0 ≤ doubles.milliseconds nanoseconds := by
  have counted : 0 ≤ doubles.round nanoseconds := round_nonneg (Int.cast_nonneg elapsed)
  exact round_nonneg (by positivity)

/-- A time that is not negative is read back as one. -/
theorem printed_nonneg {value : ℚ} (time : 0 ≤ value) : 0 ≤ doubles.printed value := by
  have kept := doubles.fixed_mono time
  rw [doubles.fixed_zero] at kept
  exact round_nonneg kept

/-- The mark of a missing time is read back as it is. -/
theorem printed_minusOne : doubles.printed (-1) = -1 := by
  rw [printed, doubles.fixed_minusOne, doubles.round_minusOne]

end Doubles

/-! ## The clock -/

/-- `std::chrono::steady_clock`: its readings in nanoseconds, in the order of the calls. -/
structure SteadyClock where
  /-- What each call of `now` returns. -/
  reading : Nat → Int
  /-- The clock is never set back. -/
  steady : ∀ first last, first ≤ last → reading first ≤ reading last

/-- The time between two readings. -/
def SteadyClock.between (clock : SteadyClock) (first last : Nat) : Int :=
  clock.reading last - clock.reading first

/-- The time from a reading to a later one is not negative. -/
theorem SteadyClock.between_nonneg (clock : SteadyClock) {first last : Nat}
    (ordered : first ≤ last) : 0 ≤ clock.between first last :=
  Int.sub_nonneg_of_le (clock.steady first last ordered)

/-! ## Query times -/

/-- `kQueryCheckpoints`. -/
def queryCheckpoints : Vector Nat 5 := #v[200, 400, 600, 800, 1000]

/-- The times of the query loop. -/
structure QueryTimes where
  /-- `tgen_ms`. -/
  tgenMs : ℚ := 0
  /-- `search_ms`. -/
  searchMs : ℚ := 0
  /-- `online_checkpoint_ms`. -/
  onlineCheckpointMs : Vector ℚ 5 := Vector.replicate 5 (-1)

/-- The loop over the checkpoints, which ends at the one reached. -/
def keepCheckpoint (reached : Nat) (onlineMs : ℚ) :
    List (Fin 5) → Vector ℚ 5 → Vector ℚ 5
  | [], online => online
  | checkpoint :: checkpoints, online =>
    if reached = queryCheckpoints.get checkpoint then
      online.set checkpoint.val onlineMs checkpoint.isLt
    else keepCheckpoint reached onlineMs checkpoints online

/-- What the loop adds for the query with number `i`. -/
def QueryTimes.add (doubles : Doubles) (times : QueryTimes) (i : Nat) (tgen search : Int) :
    QueryTimes :=
  let tgenMs := doubles.add times.tgenMs (doubles.milliseconds tgen)
  let searchMs := doubles.add times.searchMs (doubles.milliseconds search)
  { tgenMs, searchMs
    onlineCheckpointMs := keepCheckpoint (i + 1) (doubles.add tgenMs searchMs) (List.finRange 5)
      times.onlineCheckpointMs }

/-- The times after a number of queries, with four readings of the clock for each. -/
def queryTimes (doubles : Doubles) (clock : SteadyClock) (firstReading : Nat) : Nat → QueryTimes
  | 0 => {}
  | i + 1 => (queryTimes doubles clock firstReading i).add doubles i
      (clock.between (firstReading + 4 * i) (firstReading + 4 * i + 1))
      (clock.between (firstReading + 4 * i + 2) (firstReading + 4 * i + 3))

/-- The checkpoints are distinct. -/
theorem queryCheckpoints_injective : Function.Injective queryCheckpoints.get := by
  decide

/-- The loop over the checkpoints changes the one reached and no other. -/
theorem get_keepCheckpoint (reached : Nat) (onlineMs : ℚ) (online : Vector ℚ 5)
    (checkpoints : List (Fin 5)) (checkpoint : Fin 5) :
    (keepCheckpoint reached onlineMs checkpoints online).get checkpoint =
      if checkpoint ∈ checkpoints ∧ reached = queryCheckpoints.get checkpoint then onlineMs
      else online.get checkpoint := by
  induction checkpoints with
  | nil => simp [keepCheckpoint]
  | cons first checkpoints ih =>
    rw [keepCheckpoint]
    split
    · rename_i hit
      rw [ByteBits.get_set]
      by_cases same : first = checkpoint
      · subst same
        rw [if_pos rfl, if_pos ⟨List.mem_cons_self, hit⟩]
      · rw [if_neg same, if_neg]
        intro found
        exact same (queryCheckpoints_injective (hit.symm.trans found.2))
    · rename_i missed
      rw [ih]
      by_cases same : first = checkpoint
      · subst same
        rw [if_neg fun found => missed found.2, if_neg fun found => missed found.2]
      · simp only [List.mem_cons, Ne.symm same, false_or]

/-- What the loop over the queries keeps: times are not negative, and a checkpoint has a time when
it was reached and is marked as missing before. -/
structure QueryTimes.After (times : QueryTimes) (queries : Nat) : Prop where
  /-- `tgen_ms` is a time. -/
  tgenMs : 0 ≤ times.tgenMs
  /-- `search_ms` is a time. -/
  searchMs : 0 ≤ times.searchMs
  /-- A checkpoint reached has a time. -/
  reached : ∀ checkpoint, queryCheckpoints.get checkpoint ≤ queries →
    0 ≤ times.onlineCheckpointMs.get checkpoint
  /-- Others are marked. -/
  missing : ∀ checkpoint, queries < queryCheckpoints.get checkpoint →
    times.onlineCheckpointMs.get checkpoint = -1

/-- One more query keeps it, for the next number. -/
theorem QueryTimes.After.add {doubles : Doubles} {times : QueryTimes} {i : Nat}
    (after : times.After i) {tgen search : Int} (tgenTime : 0 ≤ tgen) (searchTime : 0 ≤ search) :
    (times.add doubles i tgen search).After (i + 1) := by
  have tgenMs : 0 ≤ doubles.add times.tgenMs (doubles.milliseconds tgen) :=
    Doubles.sum_nonneg after.tgenMs (Doubles.milliseconds_nonneg tgenTime)
  have searchMs : 0 ≤ doubles.add times.searchMs (doubles.milliseconds search) :=
    Doubles.sum_nonneg after.searchMs (Doubles.milliseconds_nonneg searchTime)
  refine ⟨tgenMs, searchMs, fun checkpoint within => ?_, fun checkpoint beyond => ?_⟩
  · rw [QueryTimes.add, get_keepCheckpoint]
    split
    · exact Doubles.sum_nonneg tgenMs searchMs
    · rename_i other
      apply after.reached
      have apart : i + 1 ≠ queryCheckpoints.get checkpoint :=
        fun same => other ⟨List.mem_finRange checkpoint, same⟩
      omega
  · rw [QueryTimes.add, get_keepCheckpoint, if_neg fun hit => by omega]
    exact after.missing checkpoint (by omega)

/-- The times of a number of queries. -/
theorem queryTimes_after (doubles : Doubles) (clock : SteadyClock) (firstReading queries : Nat) :
    (queryTimes doubles clock firstReading queries).After queries := by
  induction queries with
  | zero =>
    refine ⟨le_refl 0, le_refl 0, fun checkpoint within => ?_, fun checkpoint beyond => ?_⟩
    · have positive : ∀ checkpoint, 0 < queryCheckpoints.get checkpoint := by decide
      exact absurd within (not_le.mpr (positive checkpoint))
    · exact Vector.getElem_replicate checkpoint.isLt
  | succ i ih =>
    exact ih.add (clock.between_nonneg (by omega)) (clock.between_nonneg (by omega))

/-- As a row shows them, a checkpoint has a time exactly when the queries reach it. -/
theorem printed_queryTimes (doubles : Doubles) (clock : SteadyClock) (firstReading queries : Nat)
    (checkpoint : Fin 5) :
    0 ≤ ((queryTimes doubles clock firstReading queries).onlineCheckpointMs.map
        doubles.printed).get checkpoint ↔ queryCheckpoints.get checkpoint ≤ queries := by
  have after := queryTimes_after doubles clock firstReading queries
  have shown : ((queryTimes doubles clock firstReading queries).onlineCheckpointMs.map
      doubles.printed).get checkpoint = doubles.printed
        ((queryTimes doubles clock firstReading queries).onlineCheckpointMs.get checkpoint) :=
    Vector.getElem_map _ checkpoint.isLt
  rw [shown]
  constructor
  · intro present
    by_contra beyond
    rw [after.missing checkpoint (not_le.mp beyond), Doubles.printed_minusOne] at present
    exact absurd present (by decide)
  · intro within
    exact Doubles.printed_nonneg (after.reached checkpoint within)

end Vlse.Benchmark
