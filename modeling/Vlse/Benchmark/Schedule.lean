import Vlse.Benchmark.Main
import Vlse.Foundation.Grouping
/-!
# The schedule of the experiment

`run_paired_vs_lse.sh` runs both benchmarks with the same seed in every round for every size, the
LSE benchmark first in odd rounds and second in even ones. Whatever the order, the summarizer counts
the rounds of each protocol as the script does. The programs read the numbers of the script as they
are written.
-/

namespace Vlse.Benchmark

open ByteBits NumberText TextLines

/-! ## The schedule -/

/-- The settings of the script, in numbers that reach the programs as they are written: the
arithmetic of the shell does not wrap, and `seq` prints digits. -/
structure Settings where
  /-- The words of `sizes_text`. -/
  sizes : List Nat
  /-- `rounds`. -/
  rounds : Nat
  /-- `queries`. -/
  queries : Nat
  /-- `dmax`. -/
  dmax : Nat
  /-- The sizes are small. -/
  sized : ∀ n ∈ sizes, n < 2 ^ 58
  /-- There is a round. -/
  started : 0 < rounds
  /-- The rounds are few. -/
  few : rounds < 10 ^ 6
  /-- The queries are a word. -/
  queryWord : queries < 2 ^ 64
  /-- So are the components. -/
  dmaxWord : dmax < 2 ^ 64

/-- A call of `run_one`. -/
structure Scheduled where
  /-- `scheme`. -/
  scheme : Program
  /-- `n`. -/
  n : Nat
  /-- `round`. -/
  round : Nat
deriving DecidableEq

/-- `seed`. -/
def Scheduled.seed (run : Scheduled) : Nat := 20260917 + run.round * 1000003 + run.n * 17

/-- The calls in one round. -/
def roundRuns (n round : Nat) : List Scheduled :=
  if round % 2 = 1 then [⟨.lse, n, round⟩, ⟨.vlse, n, round⟩]
  else [⟨.vlse, n, round⟩, ⟨.lse, n, round⟩]

/-- The calls in the loops over the sizes and the rounds. -/
def Settings.schedule (settings : Settings) : List Scheduled :=
  settings.sizes.flatMap fun n => (List.range' 1 settings.rounds).flatMap (roundRuns n)

/-- Both programs run in a round. -/
theorem mem_roundRuns {n round : Nat} {run : Scheduled} :
    run ∈ roundRuns n round ↔ run.n = n ∧ run.round = round := by
  obtain ⟨scheme, m, other⟩ := run
  unfold roundRuns
  split
  · cases scheme <;> simp
  · cases scheme <;> simp

/-- Both programs run for every size and every round. -/
theorem Settings.mem_schedule {settings : Settings} {run : Scheduled} :
    run ∈ settings.schedule ↔
      run.n ∈ settings.sizes ∧ 1 ≤ run.round ∧ run.round ≤ settings.rounds := by
  simp only [schedule, List.mem_flatMap, mem_roundRuns, List.mem_range'_1]
  constructor
  · rintro ⟨n, listed, round, range, rfl, rfl⟩
    exact ⟨listed, by omega, by omega⟩
  · rintro ⟨listed, first, last⟩
    exact ⟨run.n, listed, run.round, by omega, rfl, rfl⟩

/-- The rounds of all sizes are scheduled with both programs. -/
theorem Settings.length_schedule (settings : Settings) :
    settings.schedule.length = settings.sizes.length * settings.rounds * 2 := by
  have round : ∀ n number, (roundRuns n number).length = 2 := by
    intro n number
    unfold roundRuns
    split
    · rfl
    · rfl
  have size : ∀ n, ((List.range' 1 settings.rounds).flatMap (roundRuns n)).length =
      settings.rounds * 2 := by
    intro n
    rw [List.length_flatMap, List.map_congr_left fun number _ => round n number, List.map_const',
      List.sum_replicate, List.length_range', smul_eq_mul]
  rw [schedule, List.length_flatMap, List.map_congr_left fun n _ => size n,
    List.map_const', List.sum_replicate, smul_eq_mul, Nat.mul_assoc]

/-- The seeds of the runs are positive and fit in the signed words of the shell. -/
theorem Settings.seed_bounds {settings : Settings} {run : Scheduled}
    (member : run ∈ settings.schedule) : 0 < run.seed ∧ run.seed < 2 ^ 63 := by
  have place := mem_schedule.mp member
  have size := settings.sized run.n place.1
  have few := settings.few
  unfold Scheduled.seed
  omega

/-- In up to seventeen rounds the runs of one program have different seeds. -/
theorem Settings.seed_separates {settings : Settings} (short : settings.rounds ≤ 17)
    {run other : Scheduled} (member : run ∈ settings.schedule)
    (second : other ∈ settings.schedule) (same : run.seed = other.seed) :
    run.n = other.n ∧ run.round = other.round := by
  have place := mem_schedule.mp member
  have placeOther := mem_schedule.mp second
  unfold Scheduled.seed at same
  omega

/-! ## The numbers of the rounds -/

/-- The protocol in the rows of a program. -/
def Program.protocol : Program → String
  | vlse => "paired_vlse"
  | lse => "LSE"

/-- What the summarizer counts rounds by, for a run. -/
def Scheduled.counterKey (run : Scheduled) : String × Int := (run.scheme.protocol, run.n)

/-- And for a row: `key` of the loop over the rows. -/
def Row.counterKey (row : Row) : String × Int := (row.protocol, row.keywords)

/-- The rows of `raw_results.csv` with their `round`. -/
def numberRounds (rows : List Row) : List (Row × Nat) :=
  numberRows Row.counterKey (fun _ => 0) rows

/-- The protocols differ. -/
theorem protocol_injective : Function.Injective Program.protocol := by
  intro first second
  cases first <;> cases second <;> decide

section Numbers

variable {counters : String × Int → Nat}

/-- A round counts once for each protocol. -/
theorem countRows_roundRuns (counters : String × Int → Nat) (n round : Nat) (scheme : Program)
    (size : Nat) :
    countRows Scheduled.counterKey counters (roundRuns n round) (scheme.protocol, size) =
      counters (scheme.protocol, size) + if n = size then 1 else 0 := by
  have key : ∀ other : Program,
      Scheduled.counterKey ⟨other, n, round⟩ = (scheme.protocol, (size : Int)) ↔
        other = scheme ∧ n = size := by
    intro other
    rw [Scheduled.counterKey, Prod.mk.injEq, protocol_injective.eq_iff, Int.natCast_inj]
  unfold countRows roundRuns
  split
  · simp only [List.countP_cons, List.countP_nil, key]
    cases scheme <;> by_cases here : n = size <;> simp [here]
  · simp only [List.countP_cons, List.countP_nil, key]
    cases scheme <;> by_cases here : n = size <;> simp [here]

/-- Some rounds count each once. -/
theorem countRows_rounds (counters : String × Int → Nat) (n start count : Nat) (scheme : Program)
    (size : Nat) :
    countRows Scheduled.counterKey counters ((List.range' start count).flatMap (roundRuns n))
        (scheme.protocol, size) =
      counters (scheme.protocol, size) + if n = size then count else 0 := by
  induction count generalizing start counters with
  | zero => simp [countRows]
  | succ count ih =>
    rw [List.range'_succ, List.flatMap_cons, countRows_append, ih, countRows_roundRuns]
    split
    · omega
    · omega

/-- The loops over the sizes count the rounds of each. -/
theorem countRows_sizes (counters : String × Int → Nat) (sizes : List Nat) (count : Nat)
    (scheme : Program) (size : Nat) :
    countRows Scheduled.counterKey counters
        (sizes.flatMap fun n => (List.range' 1 count).flatMap (roundRuns n))
        (scheme.protocol, size) =
      counters (scheme.protocol, size) + count * sizes.count size := by
  induction sizes generalizing counters with
  | nil => simp [countRows]
  | cons n sizes ih =>
    rw [List.flatMap_cons, countRows_append, ih, countRows_rounds, List.count_cons]
    by_cases here : n = size
    · simp only [here, if_true, beq_self_eq_true, Nat.mul_add]
      omega
    · simp [here]

/-- A round has its number in both protocols when the rounds before it were counted. -/
theorem numberRows_roundRuns {n round : Nat}
    (ready : ∀ scheme : Program, counters (scheme.protocol, n) + 1 = round) :
    (numberRows Scheduled.counterKey counters (roundRuns n round)).map Prod.snd =
      (roundRuns n round).map Scheduled.round := by
  have apart : Program.vlse.protocol ≠ Program.lse.protocol := by decide
  have other : Program.lse.protocol ≠ Program.vlse.protocol := by decide
  unfold roundRuns
  split
  · simp [numberRows, Scheduled.counterKey, ready, apart]
  · simp [numberRows, Scheduled.counterKey, ready, other]

/-- So have some rounds in a row. -/
theorem numberRows_rounds {n start count : Nat}
    (ready : ∀ scheme : Program, counters (scheme.protocol, n) + 1 = start) :
    (numberRows Scheduled.counterKey counters
        ((List.range' start count).flatMap (roundRuns n))).map Prod.snd =
      ((List.range' start count).flatMap (roundRuns n)).map Scheduled.round := by
  induction count generalizing start counters with
  | zero => rfl
  | succ count ih =>
    rw [List.range'_succ, List.flatMap_cons, numberRows_append, List.map_append, List.map_append,
      numberRows_roundRuns ready, ih]
    intro scheme
    rw [countRows_roundRuns, if_pos rfl, ready]

/-- In the whole schedule every run is numbered with its round, when no size is repeated. -/
theorem numberRows_sizes {sizes : List Nat} (distinct : sizes.Nodup) (count : Nat)
    (fresh : ∀ n ∈ sizes, ∀ scheme : Program, counters (scheme.protocol, n) = 0) :
    (numberRows Scheduled.counterKey counters
        (sizes.flatMap fun n => (List.range' 1 count).flatMap (roundRuns n))).map Prod.snd =
      (sizes.flatMap fun n => (List.range' 1 count).flatMap (roundRuns n)).map
        Scheduled.round := by
  induction sizes generalizing counters with
  | nil => rfl
  | cons n sizes ih =>
    rw [List.nodup_cons] at distinct
    have ready : ∀ scheme : Program, counters (scheme.protocol, n) + 1 = 1 := fun scheme => by
      rw [fresh n List.mem_cons_self scheme]
    rw [List.flatMap_cons, numberRows_append, List.map_append, List.map_append,
      numberRows_rounds ready, ih distinct.2]
    intro m listed scheme
    have other : n ≠ m := fun same => distinct.1 (same ▸ listed)
    rw [countRows_rounds, if_neg other, Nat.add_zero]
    exact fresh m (List.mem_cons_of_mem n listed) scheme

end Numbers

/-! ## The arguments -/

namespace Scheduled

variable (settings : Settings) (run : Scheduled)

/-- The numbers a program is given. -/
def numbers : List (NumericOption × Nat) :=
  [(.keywords, run.n), (.queries, settings.queries), (.dmax, settings.dmax), (.seed, run.seed)]

/-- The words after the name of the program. -/
def arguments : List (List Char) :=
  match run.scheme with
  | .lse => settingWords (run.numbers settings)
  | .vlse => "--layout".toList :: "paired".toList :: settingWords (run.numbers settings)

/-- The line of the log that shows the command. -/
def commandText : List Char :=
  "command=".toList ++ run.scheme.name.toList ++ (run.arguments settings).flatMap (' ' :: ·)

/-- The options meant. -/
def options : Options where
  keywords := run.n
  queries := settings.queries
  dmax := settings.dmax
  seed := run.seed

variable {settings run}

/-- `ParseOptions` returns the options meant, or throws. -/
theorem parseOptions_arguments (member : run ∈ settings.schedule) :
    (∃ message, parseOptions run.scheme ((run.arguments settings).map wordBytes) =
        .error (.threw message)) ∨
      parseOptions run.scheme ((run.arguments settings).map wordBytes) =
        .ok (run.options settings) := by
  have words : ∀ setting ∈ run.numbers settings, setting.2 < 2 ^ 64 := by
    have size := settings.sized run.n (Settings.mem_schedule.mp member).1
    have seed := (Settings.seed_bounds member).2
    have queries := settings.queryWord
    have components := settings.dmaxWord
    intro setting listed
    simp only [numbers, List.mem_cons, List.not_mem_nil, or_false] at listed
    rcases listed with rfl | rfl | rfl | rfl
    · dsimp only
      omega
    · exact queries
    · exact components
    · dsimp only
      omega
  have plain := commandLine_settingWords run.scheme (run.numbers settings)
  have line : CommandLine run.scheme ((run.arguments settings).map wordBytes)
      (settingBytes (run.numbers settings)) false := by
    unfold arguments
    split
    · exact plain
    · rename_i scheme
      have named : run.scheme.kind (wordBytes "--layout".toList) = .layout := by
        rw [scheme]
        decide +kernel
      exact .layout named plain
  exact parseOptions_numbers line words

end Scheduled

/-- Words of the arguments have no line ends. -/
theorem settingWords_solid {settings : List (NumericOption × Nat)} {word : List Char}
    (listed : word ∈ settingWords settings) : ∀ letter ∈ word, isLineEnd letter = false := by
  obtain ⟨setting, -, one⟩ := List.mem_flatMap.mp listed
  rcases List.mem_pair.mp one with rfl | rfl
  · have names : (setting.1.name.toList.all fun letter => !isLineEnd letter) = true := by
      cases setting.1 <;> rfl
    exact none_of_all names
  · intro letter inside
    exact (NumberLetter.solid (.inl (isDigit_natText inside))).2.1

/-- Nor has the line that shows the command. -/
theorem Scheduled.commandText_solid (settings : Settings) (run : Scheduled) :
    ∀ letter ∈ run.commandText settings, isLineEnd letter = false := by
  have names : (("command=".toList ++ run.scheme.name.toList).all fun letter =>
      !isLineEnd letter) = true := by
    cases run.scheme <;> rfl
  have words : ∀ word ∈ run.arguments settings, ∀ letter ∈ word, isLineEnd letter = false := by
    intro word listed
    have plain : ∀ other ∈ settingWords (run.numbers settings), ∀ letter ∈ other,
        isLineEnd letter = false := fun other => settingWords_solid
    unfold arguments at listed
    split at listed
    · exact plain word listed
    · rcases List.mem_cons.mp listed with rfl | later
      · exact none_of_all rfl
      · rcases List.mem_cons.mp later with rfl | rest
        · exact none_of_all rfl
        · exact plain word rest
  intro letter inside
  rcases List.mem_append.mp inside with start | argument
  · exact none_of_all names letter start
  · obtain ⟨word, listed, here⟩ := List.mem_flatMap.mp argument
    rcases List.mem_cons.mp here with rfl | one
    · rfl
    · exact words word listed letter one

end Vlse.Benchmark
