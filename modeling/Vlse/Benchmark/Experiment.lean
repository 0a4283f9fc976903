import Vlse.Benchmark.Reports
import Vlse.Benchmark.Schedule
/-!
# The experiment

In its loops `run_paired_vs_lse.sh` makes the calls of its schedule and collects the rows, which it
then has summarized. From the loops it comes to the summarizer when the host is quiescent before
every call and no benchmark throws, and then the summary has one row for each protocol and size,
over all the rounds.
-/

namespace Vlse.Benchmark

open Vlse.Filter Label Oprf Protocol ByteBits NumberText TextLines

/-! ## The script -/

/-- The host of an experiment: what the processes it starts run on, its names and its dates. The
filters of all runs are laid out alike, no Setup takes more than `2 ^ 60` nanoseconds, and dates
stand on one line. A process is not killed, `caffeinate` ends with its status, and the other
commands in the loops do not fail. -/
structure Host (C T : Type*) where
  /-- How doubles round. -/
  doubles : Doubles
  /-- The shape `InitializeLayout` gives a filter for a number of items. -/
  layoutOf : Nat → Layout indexBits
  /-- The process of each call of `run_one`. -/
  process : Nat → Process C T
  /-- What the filter of the logs replaces. -/
  redaction : Redaction
  /-- Whether `wait_for_quiescence` returns in each call; else it ends the script. -/
  quiescent : Nat → Bool
  /-- The date before each run. -/
  utcStart : Nat → List Char
  /-- The date after it. -/
  utcEnd : Nat → List Char
  /-- All filters have such shapes. -/
  shaped : ∀ call, (process call).paired.layoutOf = layoutOf
  /-- No Setup is longer. -/
  short : ∀ call, (process call).clock.between 2 5 ≤ 2 ^ 60
  /-- The dates have no line ends. -/
  dated : ∀ call, ∀ letter ∈ utcStart call ++ utcEnd call, isLineEnd letter = false

namespace Host

variable {C T : Type*} [Inhabited C] [Inhabited T] (host : Host C T) (settings : Settings)

/-- The benchmark of a call of `run_one`. -/
def benchmark (call : Nat) (run : Scheduled) : Option CapturedRun :=
  (host.process call).main host.doubles run.scheme ((run.arguments settings).map wordBytes)

/-- The lines before the output of a benchmark. -/
def heading (call : Nat) (run : Scheduled) : List Char :=
  "utc_start=".toList ++ host.utcStart call ++ '\n' :: run.commandText settings ++ ['\n']

/-- The commands whose output is filtered; the last is not reached when the benchmark fails. -/
def commands (call : Nat) (run : Scheduled) : Option CapturedRun :=
  (host.benchmark settings call run).map fun ended =>
    if ended.status ≠ 0 then
      ⟨host.heading settings call run ++ ended.output, ended.status⟩
    else
      ⟨host.heading settings call run ++ ended.output ++
        ("utc_end=".toList ++ host.utcEnd call ++ ['\n']), 0⟩

/-- Some calls of `run_one`, numbered: `raw_file` afterwards or the exit status of the script, and
none when a benchmark never ends. -/
def runCalls : List (Scheduled × Nat) → List Char → Option (Except Nat (List Char))
  | [], raw => some (.ok raw)
  | (run, call) :: calls, raw =>
    if host.quiescent call then
      match host.commands settings call run with
      | none => none
      | some captured =>
        match runOne host.redaction raw captured with
        | .error status => some (.error status)
        | .ok raw => runCalls calls raw
    else some (.error 5)

/-- The script from its loops on, up to the call of the summarizer, with its files at hand. -/
def experiment : Option (Except Nat (List Char)) :=
  match host.runCalls settings settings.schedule.zipIdx [] with
  | none => none
  | some (.error status) => some (.error status)
  | some (.ok raw) =>
    let expectedResults := settings.sizes.length * settings.rounds * 2
    let actualResults := (resultLines raw).length
    -- without a match the status of `grep` is that of the script
    if actualResults = 0 then some (.error 1)
    else if actualResults ≠ expectedResults then some (.error 4)
    else some (.ok raw)

end Host

/-! ## The lines of a log -/

/-- A text that starts with another letter is no row. -/
theorem foreign_of_head {letter : Char} (other : letter ≠ 'R') (text : List Char) :
    "RESULT ".toList.isPrefixOf (letter :: text) = false := by
  have start : "RESULT ".toList = 'R' :: "ESULT ".toList := rfl
  have apart : ('R' == letter) = false := beq_false_of_ne (Ne.symm other)
  rw [start, List.isPrefixOf_cons_cons, apart, Bool.false_and]

/-- A date stands on one line with the word before it. -/
theorem Host.date_solid {C T : Type*} {host : Host C T} {call : Nat} {word : List Char}
    (plain : (word.all fun letter => !isLineEnd letter) = true) {date : List Char}
    (known : ∀ letter ∈ date, letter ∈ host.utcStart call ++ host.utcEnd call) :
    ∀ letter ∈ word ++ date, isLineEnd letter = false := by
  intro letter inside
  rcases List.mem_append.mp inside with start | later
  · exact none_of_all plain letter start
  · exact host.dated call letter (known letter later)

/-- A row is that of a run: it has its protocol, its options and its seed. -/
structure Scheduled.Shows (settings : Settings) (run : Scheduled) (row : Row) : Prop where
  /-- The protocol and the options. -/
  key : row.groupKey = ⟨run.scheme.protocol, run.n, settings.queries, settings.dmax⟩
  /-- The seed. -/
  seed : row.seed = run.seed

/-- The settings are such that the sizes in all rows fit in 64 bits. -/
structure Settings.Fits (settings : Settings) (layoutOf : Nat → Layout indexBits) : Prop where
  /-- The sizes of the VLSE protocol, in each of the four attempts. -/
  paired : ∀ n ∈ settings.sizes, ∀ attempt < 4,
    pairedObjectBytes settings.dmax (layoutOf (scheduledItems n attempt)).bucketCount +
      settings.queries * communicationBytesPerEvaluation < 2 ^ 64
  /-- The sizes of the LSE protocol. -/
  lse : ∀ run ∈ settings.schedule, lseObjectBytes (run.options settings) +
    settings.queries * (2 * communicationBytesPerEvaluation) < 2 ^ 64

section Lines

variable {C T : Type*} [Inhabited C] [Inhabited T] {doubles : Doubles} {process : Process C T}
  {settings : Settings} {run : Scheduled} {line : LogLine}

/-- The row of a run that completes is that of the run. -/
theorem Process.Completes.shows
    (completes : process.Completes doubles (run.options settings) run.scheme line) :
    ∃ row, line.row? doubles = some row ∧ run.Shows settings row := by
  obtain ⟨scheme, n, round⟩ := run
  cases completes with
  | vlse ended => exact ⟨_, rfl, rfl, rfl⟩
  | lse ended => exact ⟨_, rfl, rfl, rfl⟩

/-- Its line is one of those the summarizer accepts. -/
theorem Process.Completes.produced {layoutOf : Nat → Layout indexBits}
    (fits : settings.Fits layoutOf) (shaped : process.paired.layoutOf = layoutOf)
    (short : process.clock.between 2 5 ≤ 2 ^ 60) (member : run ∈ settings.schedule)
    (accepted : (run.options settings).Accepted)
    (completes : process.Completes doubles (run.options settings) run.scheme line) :
    line.Produced C T doubles layoutOf := by
  have place := Settings.mem_schedule.mp member
  have small := fits.lse run member
  obtain ⟨scheme, n, round⟩ := run
  cases completes with
  | vlse ended =>
    refine .paired accepted short shaped ended ?_
    have ran := ended
    unfold dispatch at ran
    split at ran
    · rw [runPaired_layout ran, shaped]
      exact fits.paired n place.1 _ (runPaired_attempts ran)
    · simp at ran
  | lse ended => exact .lse accepted short ended small

end Lines

namespace Host

variable {C T : Type*} [Inhabited C] [Inhabited T] {host : Host C T} {settings : Settings}

/-- A call succeeds: the host is quiescent and the benchmark ends with the status zero. -/
def Succeeds (host : Host C T) (settings : Settings) (entry : Scheduled × Nat) : Prop :=
  host.quiescent entry.2 = true ∧
    ∃ output, host.benchmark settings entry.2 entry.1 = some ⟨output, 0⟩

/-- The log of a benchmark that printed a line has that line among others that are no rows. -/
theorem exists_log (host : Host C T) (settings : Settings) (call : Nat) (run : Scheduled)
    (line : LogLine) :
    ∃ lines : List LogLine,
      host.heading settings call run ++ fileText host.doubles [line] ++
        ("utc_end=".toList ++ host.utcEnd call ++ ['\n']) = fileText host.doubles lines ∧
      lines.filterMap (LogLine.row? host.doubles) = [line].filterMap (LogLine.row? host.doubles) ∧
      (line.Produced C T host.doubles host.layoutOf →
        ∀ other ∈ lines, other.Produced C T host.doubles host.layoutOf) := by
  have first : ∀ letter ∈ "utc_start=".toList ++ host.utcStart call, isLineEnd letter = false :=
    date_solid rfl fun letter => List.mem_append_left _
  have last : ∀ letter ∈ "utc_end=".toList ++ host.utcEnd call, isLineEnd letter = false :=
    date_solid rfl fun letter => List.mem_append_right _
  have foreignFirst : "RESULT ".toList.isPrefixOf
      ("utc_start=".toList ++ host.utcStart call) = false :=
    foreign_of_head (by decide) ("tc_start=".toList ++ host.utcStart call)
  have foreignCommand : "RESULT ".toList.isPrefixOf (run.commandText settings) = false :=
    foreign_of_head (by decide) (("ommand=".toList ++ run.scheme.name.toList) ++
      (run.arguments settings).flatMap (' ' :: ·))
  have foreignLast : "RESULT ".toList.isPrefixOf
      ("utc_end=".toList ++ host.utcEnd call) = false :=
    foreign_of_head (by decide) ("tc_end=".toList ++ host.utcEnd call)
  refine ⟨[.other _ foreignFirst first, .other _ foreignCommand (run.commandText_solid settings),
    line, .other _ foreignLast last], ?_, ?_, ?_⟩
  · have none : fileText host.doubles [] = [] := rfl
    unfold heading
    simp only [fileText_cons, LogLine.text, none, List.append_assoc, List.cons_append,
      List.nil_append]
  · rw [List.filterMap_cons_none rfl, List.filterMap_cons_none rfl]
    cases line.row? host.doubles <;> rfl
  · intro produced other inside
    simp only [List.mem_cons, List.not_mem_nil, or_false] at inside
    rcases inside with rfl | rfl | rfl | rfl
    · exact .other foreignFirst first
    · exact .other foreignCommand (run.commandText_solid settings)
    · exact produced
    · exact .other foreignLast last

/-- A benchmark that ends has caught an exception, or its log is made of lines with one row, that of
the run. -/
theorem commands_cases {call : Nat} {run : Scheduled}
    (member : run ∈ settings.schedule) {captured : CapturedRun}
    (ended : host.commands settings call run = some captured) :
    (captured.status = 1 ∧
        ∃ message, host.benchmark settings call run = some (run.scheme.caught message)) ∨
      (∃ output, host.benchmark settings call run = some ⟨output, 0⟩) ∧
        ∃ lines : List LogLine, captured = ⟨fileText host.doubles lines, 0⟩ ∧
          (settings.Fits host.layoutOf →
            ∀ line ∈ lines, line.Produced C T host.doubles host.layoutOf) ∧
          ∃ row, lines.filterMap (LogLine.row? host.doubles) = [row] ∧
            run.Shows settings row := by
  obtain ⟨output, ran, rfl⟩ := Option.map_eq_some_iff.mp ended
  rcases Scheduled.parseOptions_arguments member with ⟨message, threw⟩ | parsed
  · have caught : host.benchmark settings call run =
        some (run.scheme.caught (asciiText message)) := Process.main_of_error threw
    have same := Option.some.inj (ran.symm.trans caught)
    rw [same]
    exact .inl ⟨rfl, _, caught⟩
  · rcases Process.main_of_ok parsed ran with ⟨message, rfl⟩ | ⟨line, completes, rfl⟩
    · exact .inl ⟨rfl, message, ran⟩
    · obtain ⟨row, shown, shows⟩ := completes.shows
      obtain ⟨lines, log, rows, produced⟩ := host.exists_log settings call run line
      refine .inr ⟨⟨_, ran⟩, lines, ?_, fun fits => ?_, row, ?_, shows⟩
      · have success : ¬ (0 : Nat) ≠ 0 := by omega
        dsimp only
        rw [if_neg success, log]
      · have accepted := parseOptions_accepted parsed
        exact produced
          (completes.produced fits (host.shaped call) (host.short call) member accepted)
      · rw [rows, List.filterMap_cons_some shown, List.filterMap_nil]

/-- The names of a host are usual, one of its paths is known, and it is not called like a word of a
row. -/
structure Named (host : Host C T) : Prop where
  /-- The names are usual. -/
  usual : host.redaction.Usual
  /-- A path is known. -/
  located : ∃ candidate ∈ host.redaction.candidates, 1 < candidate.1.length
  /-- The name is no word. -/
  apart : ∀ line : LogLine, host.redaction.hostname ∉ line.words host.doubles

/-- Why the script ended at one of some calls. -/
inductive Stopped (host : Host C T) (settings : Settings) (calls : List (Scheduled × Nat)) :
    Nat → Prop
  /-- The host did not become quiescent. -/
  | busy {entry : Scheduled × Nat} (listed : entry ∈ calls)
    (loud : host.quiescent entry.2 = false) : Stopped host settings calls 5
  /-- The benchmark caught an exception. -/
  | failed {entry : Scheduled × Nat} (listed : entry ∈ calls) {message : List Char}
    (caught : host.benchmark settings entry.2 entry.1 = some (entry.1.scheme.caught message)) :
    Stopped host settings calls 1

/-- A later call may have ended it, too. -/
theorem Stopped.cons {calls : List (Scheduled × Nat)} {status : Nat} (entry : Scheduled × Nat)
    (stopped : host.Stopped settings calls status) :
    host.Stopped settings (entry :: calls) status := by
  cases stopped with
  | busy listed loud => exact .busy (List.mem_cons_of_mem entry listed) loud
  | failed listed caught => exact .failed (List.mem_cons_of_mem entry listed) caught

/-- What some calls that all succeed leave behind: lines with one row of each run, in order. -/
structure Collected (host : Host C T) (settings : Settings) (calls : List (Scheduled × Nat))
    (kept : List LogLine) : Prop where
  /-- All succeed. -/
  succeed : ∀ entry ∈ calls, host.Succeeds settings entry
  /-- Each has its row. -/
  rows : List.Forall₂ (fun entry row => entry.1.Shows settings row) calls
    (kept.filterMap (LogLine.row? host.doubles))
  /-- The rows were printed by the benchmarks. -/
  produced : settings.Fits host.layoutOf → ∃ lines : List LogLine,
    lines.filterMap (LogLine.row? host.doubles) = kept.filterMap (LogLine.row? host.doubles) ∧
      ∀ line ∈ lines, line.Produced C T host.doubles host.layoutOf

/-- One more call before. -/
theorem Collected.cons {calls : List (Scheduled × Nat)} {kept first : List LogLine}
    (collected : host.Collected settings calls kept) {entry : Scheduled × Nat}
    (succeeds : host.Succeeds settings entry) {lines : List LogLine}
    (same : first.filterMap (LogLine.row? host.doubles) =
      lines.filterMap (LogLine.row? host.doubles))
    (produced : settings.Fits host.layoutOf →
      ∀ line ∈ lines, line.Produced C T host.doubles host.layoutOf) {row : Row}
    (single : lines.filterMap (LogLine.row? host.doubles) = [row])
    (shows : entry.1.Shows settings row) :
    host.Collected settings (entry :: calls) (first ++ kept) := by
  refine ⟨?_, ?_, fun fits => ?_⟩
  · intro other listed
    rcases List.mem_cons.mp listed with rfl | later
    · exact succeeds
    · exact collected.succeed other later
  · rw [List.filterMap_append, same, single]
    exact .cons shows collected.rows
  · obtain ⟨others, rows, all⟩ := collected.produced fits
    refine ⟨lines ++ others, ?_, fun line listed => ?_⟩
    · rw [List.filterMap_append, List.filterMap_append, rows, same]
    · rcases List.mem_append.mp listed with early | late
      · exact produced fits line early
      · exact all line late

/-- Calls that end stop the script for a reason or are all collected. -/
theorem runCalls_cases (named : host.Named)
    {calls : List (Scheduled × Nat)} (members : ∀ entry ∈ calls, entry.1 ∈ settings.schedule)
    {before : List LogLine} {ending : Except Nat (List Char)}
    (ended : host.runCalls settings calls (fileText host.doubles before) = some ending) :
    (∃ status, ending = .error status ∧ host.Stopped settings calls status) ∨
      ∃ kept, ending = .ok (fileText host.doubles (before ++ kept)) ∧
        host.Collected settings calls kept := by
  induction calls generalizing before with
  | nil =>
    refine .inr ⟨[], ?_, fun _ listed => absurd listed List.not_mem_nil, .nil, fun _ => ⟨[], rfl,
      fun _ listed => absurd listed List.not_mem_nil⟩⟩
    rw [List.append_nil]
    exact (Option.some.inj ended).symm
  | cons entry calls ih =>
    obtain ⟨run, call⟩ := entry
    have member := members (run, call) List.mem_cons_self
    have later := fun other inside => members other (List.mem_cons_of_mem (run, call) inside)
    rw [runCalls] at ended
    by_cases quiet : host.quiescent call = true
    · rw [if_pos quiet] at ended
      cases captured : host.commands settings call run with
      | none => simp [captured] at ended
      | some output =>
        rw [captured] at ended
        dsimp only at ended
        rcases commands_cases member captured with
          ⟨failed, message, caught⟩ | ⟨⟨text, succeeded⟩, lines, rfl, produced, row, single, shows⟩
        · have log := Redaction.redact_eq named.usual
            (Redaction.paths_ne_nil named.located) output.output
          have stops : runOne host.redaction (fileText host.doubles before) output =
              .error 1 := by
            rw [runOne, log]
            dsimp only
            rw [failed, if_pos (by omega)]
          rw [stops] at ended
          exact .inl ⟨1, (Option.some.inj ended).symm, .failed List.mem_cons_self caught⟩
        · have one : OneRow host.doubles lines := by
            rw [OneRow, single]
            rfl
          obtain ⟨rows, ran, same⟩ := (runOne_fileText named.usual
            (Redaction.paths_ne_nil named.located) (fun line _ => named.apart line) before).1 one
          rw [ran] at ended
          rcases ih later ended with ⟨status, rfl, stopped⟩ | ⟨kept, rfl, collected⟩
          · exact .inl ⟨status, rfl, stopped.cons _⟩
          · refine .inr ⟨rows ++ kept, ?_, ?_⟩
            · rw [List.append_assoc]
            · exact collected.cons ⟨quiet, text, succeeded⟩ same produced single shows
    · rw [if_neg quiet] at ended
      have loud : host.quiescent call = false := Bool.eq_false_iff.mpr quiet
      exact .inl ⟨5, (Option.some.inj ended).symm, .busy List.mem_cons_self loud⟩

/-- A call that succeeds stopped nothing. -/
theorem Stopped.not_succeeds {calls : List (Scheduled × Nat)} {status : Nat}
    (stopped : host.Stopped settings calls status) :
    ¬ ∀ entry ∈ calls, host.Succeeds settings entry := by
  intro all
  cases stopped with
  | busy listed loud =>
    have quiet := (all _ listed).1
    rw [loud] at quiet
    contradiction
  | failed listed caught =>
    obtain ⟨output, succeeded⟩ := (all _ listed).2
    have status := congrArg CapturedRun.status (Option.some.inj (caught.symm.trans succeeded))
    contradiction

/-- Calls that all succeed end. -/
theorem runCalls_ends {calls : List (Scheduled × Nat)}
    (all : ∀ entry ∈ calls, host.Succeeds settings entry) (raw : List Char) :
    ∃ ending, host.runCalls settings calls raw = some ending := by
  induction calls generalizing raw with
  | nil => exact ⟨.ok raw, rfl⟩
  | cons entry calls ih =>
    obtain ⟨run, call⟩ := entry
    obtain ⟨quiet, output, succeeded⟩ := all (run, call) List.mem_cons_self
    rw [runCalls, if_pos quiet, commands, succeeded, Option.map_some]
    dsimp only
    split
    · exact ⟨_, rfl⟩
    · exact ih (fun other later => all other (List.mem_cons_of_mem (run, call) later)) _

/-- A script that ends was stopped in a call or had none to make, or its calls are collected. -/
theorem experiment_cases (named : host.Named) {ending : Except Nat (List Char)}
    (ended : host.experiment settings = some ending) :
    (∃ status, ending = .error status ∧
        (host.Stopped settings settings.schedule.zipIdx status ∨
          settings.sizes = [] ∧ status = 1)) ∨
      settings.sizes ≠ [] ∧ ∃ kept, ending = .ok (fileText host.doubles kept) ∧
        host.Collected settings settings.schedule.zipIdx kept := by
  unfold experiment at ended
  cases ran : host.runCalls settings settings.schedule.zipIdx [] with
  | none => simp [ran] at ended
  | some outcome =>
    rw [ran] at ended
    have started : host.runCalls settings settings.schedule.zipIdx (fileText host.doubles []) =
        some outcome := ran
    rcases runCalls_cases named (fun _ => List.fst_mem_of_mem_zipIdx) started with
      ⟨status, rfl, stopped⟩ | ⟨kept, rfl, collected⟩
    · exact .inl ⟨status, (Option.some.inj ended).symm, .inl stopped⟩
    · have count : (resultLines (fileText host.doubles kept)).length =
          settings.sizes.length * settings.rounds * 2 := by
        have rows := collected.rows.length_eq
        rw [List.length_zipIdx, List.length_filterMap_eq_countP,
          List.countP_eq_length_filter] at rows
        rw [resultLines_fileText, List.length_map, ← settings.length_schedule, rows]
      rw [List.nil_append] at ended
      dsimp only at ended
      rw [count] at ended
      by_cases empty : settings.sizes = []
      · rw [empty, List.length_nil, Nat.zero_mul, Nat.zero_mul, if_pos rfl] at ended
        exact .inl ⟨1, (Option.some.inj ended).symm, .inr ⟨empty, rfl⟩⟩
      · have some : 0 < settings.sizes.length := List.length_pos_of_ne_nil empty
        have many : settings.sizes.length * settings.rounds * 2 ≠ 0 := by
          have product := Nat.mul_pos some settings.started
          omega
        have all : ¬ settings.sizes.length * settings.rounds * 2 ≠
          settings.sizes.length * settings.rounds * 2 := not_not.mpr rfl
        rw [if_neg many, if_neg all] at ended
        exact .inr ⟨empty, kept, (Option.some.inj ended).symm, collected⟩

/-- With a size, calls that all succeed bring the script to the summarizer. -/
theorem experiment_of_succeeds (named : host.Named) (sizes : settings.sizes ≠ [])
    (all : ∀ entry ∈ settings.schedule.zipIdx, host.Succeeds settings entry) :
    ∃ raw, host.experiment settings = some (.ok raw) := by
  obtain ⟨ending, ran⟩ := runCalls_ends all []
  have ended : ∃ ending, host.experiment settings = some ending := by
    unfold experiment
    rw [ran]
    cases ending with
    | error status => exact ⟨_, rfl⟩
    | ok raw =>
      dsimp only
      split
      · exact ⟨_, rfl⟩
      · split
        · exact ⟨_, rfl⟩
        · exact ⟨_, rfl⟩
  obtain ⟨ending, ended⟩ := ended
  rcases experiment_cases named ended with ⟨status, rfl, stopped | ⟨empty, -⟩⟩ | ⟨-, kept, rfl, -⟩
  · exact absurd all stopped.not_succeeds
  · exact absurd empty sizes
  · exact ⟨_, ended⟩

/-- From its loops on the script exits before the summarizer because a host was not quiescent, with
5, or a benchmark caught an exception or there was no size, with 1, and for no other reason. It
comes to the summarizer exactly when there is a size and all its calls succeed. -/
theorem experiment_exits (named : host.Named) :
    (∀ status, host.experiment settings = some (.error status) →
      host.Stopped settings settings.schedule.zipIdx status ∨
        settings.sizes = [] ∧ status = 1) ∧
    ((∃ raw, host.experiment settings = some (.ok raw)) ↔
      settings.sizes ≠ [] ∧
        ∀ entry ∈ settings.schedule.zipIdx, host.Succeeds settings entry) := by
  refine ⟨fun status ended => ?_, ?_, ?_⟩
  · rcases experiment_cases named ended with ⟨other, same, reason⟩ | ⟨-, kept, completed, -⟩
    · rw [Except.error.inj same]
      exact reason
    · contradiction
  · rintro ⟨raw, ended⟩
    rcases experiment_cases named ended with ⟨status, threw, -⟩ | ⟨sizes, kept, -, collected⟩
    · contradiction
    · exact ⟨sizes, collected.succeed⟩
  · rintro ⟨sizes, all⟩
    exact experiment_of_succeeds named sizes all

end Host

/-! ## What the summarizer makes of it -/

/-- `--query-points`, by default. -/
def defaultQueryPoints : List Int := [200, 400, 600, 800, 1000]

/-- The key of the summary row of a run. -/
def Settings.summaryKey (settings : Settings) (scheme : Program) (n : Nat) : GroupKey :=
  ⟨scheme.protocol, n, settings.queries, settings.dmax⟩

/-- The raw results hold the row of each call, and its round is that of the call. -/
structure Settings.Recorded (settings : Settings) (rows : List Row) : Prop where
  /-- Each call has its row, in order. -/
  shown : List.Forall₂ (fun run row => run.Shows settings row) settings.schedule rows
  /-- When no size is repeated, the summarizer counts the rounds as the script does. -/
  rounds : settings.sizes.Nodup →
    (numberRounds rows).map Prod.snd = settings.schedule.map Scheduled.round

/-- The summary has one row for each protocol and size, over all rounds. -/
structure Settings.Summarized (settings : Settings) (output : Summary) : Prop where
  /-- Every size has a row for both protocols. -/
  listed : ∀ scheme, ∀ n ∈ settings.sizes, ∃ summary ∈ output.summaryRows,
    summary.groupKey = settings.summaryKey scheme n
  /-- Each row is of such a size, and counts all its rounds. -/
  counted : ∀ summary ∈ output.summaryRows, ∃ scheme, ∃ n ∈ settings.sizes,
    summary.groupKey = settings.summaryKey scheme n ∧
      summary.samples = settings.rounds * settings.sizes.count n

section Reports

variable {settings : Settings} {rows : List Row}

/-- Lists whose items correspond have the same values. -/
theorem map_eq_of_forall₂ {First Second Value : Type*} {relation : First → Second → Prop}
    {value : First → Value} {other : Second → Value}
    (same : ∀ first second, relation first second → value first = other second)
    {firsts : List First} {seconds : List Second} (pairs : List.Forall₂ relation firsts seconds) :
    firsts.map value = seconds.map other := by
  induction pairs with
  | nil => rfl
  | cons first rest ih => rw [List.map_cons, List.map_cons, same _ _ first, ih]

/-- Rows of the calls, one for each, are recorded. -/
theorem Settings.recorded
    (shown : List.Forall₂ (fun run row => run.Shows settings row) settings.schedule rows) :
    settings.Recorded rows := by
  refine ⟨shown, fun distinct => ?_⟩
  have keys : settings.schedule.map Scheduled.counterKey = rows.map Row.counterKey := by
    refine map_eq_of_forall₂ (fun run row shows => ?_) shown
    have protocol : row.protocol = run.scheme.protocol := congrArg GroupKey.protocol shows.key
    have keywords : row.keywords = run.n := congrArg GroupKey.keywords shows.key
    rw [Scheduled.counterKey, Row.counterKey, protocol, keywords]
  have numbers := @numberRows_sizes (fun _ => 0) settings.sizes distinct settings.rounds
    fun _ _ _ => rfl
  rw [numberRounds, ← numbers_eq_of_keys keys]
  exact numbers

/-- What is written for them has one row for each protocol and size. -/
theorem Settings.summarized
    (shown : List.Forall₂ (fun run row => run.Shows settings row) settings.schedule rows)
    {doubles : Doubles} {rawPath : String} {queryPoints : List Int} {output : Summary}
    (written : summarize doubles rawPath queryPoints rows = .ok output) :
    settings.Summarized output := by
  obtain ⟨-, points, -, -, rfl⟩ := summarize_eq_ok.mp written
  have keys : settings.schedule.map (fun run => settings.summaryKey run.scheme run.n) =
      rows.map Row.groupKey :=
    map_eq_of_forall₂ (fun run row shows => shows.key.symm) shown
  constructor
  · intro scheme n listed
    have member : (⟨scheme, n, 1⟩ : Scheduled) ∈ settings.schedule :=
      mem_schedule.mpr ⟨listed, le_refl 1, settings.started⟩
    have key := List.mem_map_of_mem (f := fun run : Scheduled =>
      settings.summaryKey run.scheme run.n) member
    rw [keys] at key
    obtain ⟨row, inside, same⟩ := List.mem_map.mp key
    obtain ⟨group, held, named⟩ := exists_group inside
    exact ⟨summaryRow group, List.mem_map_of_mem held, named.trans same⟩
  · intro summary inside
    obtain ⟨group, held, rfl⟩ := List.mem_map.mp inside
    have first := (mem_group held).mp (List.mem_cons_self : group.first ∈ group.rows)
    have key := List.mem_map_of_mem (f := Row.groupKey) first.1
    rw [← keys] at key
    obtain ⟨run, member, same⟩ := List.mem_map.mp key
    have named : group.key = settings.summaryKey run.scheme run.n := (same.trans first.2).symm
    refine ⟨run.scheme, run.n, (mem_schedule.mp member).1, named, ?_⟩
    have alike : ∀ other : Scheduled, settings.summaryKey other.scheme other.n = group.key ↔
        other.counterKey = (run.scheme.protocol, (run.n : Int)) := by
      intro other
      rw [named, summaryKey, summaryKey, GroupKey.mk.injEq, Scheduled.counterKey, Prod.mk.injEq]
      simp only [and_true]
    have counted := countRows_sizes (fun _ => 0) settings.sizes settings.rounds run.scheme run.n
    rw [countRows, Nat.zero_add, Nat.zero_add] at counted
    calc (summaryRow group).samples
        = rows.countP fun row => row.groupKey = group.key := samples_summaryRow held
      _ = (rows.map Row.groupKey).count group.key := by
          rw [List.count, List.countP_map]
          rfl
      _ = settings.schedule.countP fun other =>
            other.counterKey = (run.scheme.protocol, (run.n : Int)) := by
          rw [← keys, List.count, List.countP_map]
          refine List.countP_congr fun other _ => ?_
          simp only [Function.comp_apply, beq_iff_eq, decide_eq_true_eq]
          exact alike other
      _ = settings.rounds * settings.sizes.count run.n := counted

/-- An experiment that comes to the summarizer has recorded every call, and the summarizer writes
its files for them: these report every run, and have one summary row for each protocol and size. -/
theorem Host.experiment_reports {C T : Type*} [Inhabited C] [Inhabited T] {host : Host C T}
    (named : host.Named) (nearest : host.doubles.Nearest) (six : host.doubles.SixDecimals)
    (fits : settings.Fits host.layoutOf) {raw : List Char}
    (completed : host.experiment settings = some (.ok raw)) (rawPath : String) :
    ∃ rows, readRows host.doubles raw = .ok (rows.map Row.fields) ∧ settings.Recorded rows ∧
      (∃ output, Summarizes host.doubles rawPath defaultQueryPoints raw output) ∧
      ∀ output, Summarizes host.doubles rawPath defaultQueryPoints raw output →
        output.Reports defaultQueryPoints rows ∧ settings.Summarized output := by
  rcases experiment_cases named completed with ⟨status, threw, -⟩ | ⟨sizes, kept, same, collected⟩
  · contradiction
  · cases same
    obtain ⟨lines, rows, produced⟩ := collected.produced fits
    have shown : List.Forall₂ (fun run row => run.Shows settings row) settings.schedule
        (kept.filterMap (LogLine.row? host.doubles)) := by
      have firsts := settings.schedule.zipIdx_map_fst 0
      rw [← firsts, List.forall₂_map_left_iff]
      exact collected.rows
    have present : lines.filterMap (LogLine.row? host.doubles) ≠ [] := by
      intro none
      have length := shown.length_eq
      rw [settings.length_schedule, ← rows, none, List.length_nil] at length
      have some := List.length_pos_of_ne_nil sizes
      have many := Nat.mul_pos some settings.started
      omega
    have accepted := summarizable_of_produced nearest produced present
    rw [rows] at accepted
    simp only [summarizes_fileText six]
    refine ⟨kept.filterMap (LogLine.row? host.doubles), ?_, Settings.recorded shown, ?_, ?_⟩
    · rw [readRows, splitLines_fileText]
      exact LogLine.readings six kept
    · exact exists_summarize.mpr ⟨accepted, by decide, by decide⟩
    · intro output written
      refine ⟨summary_reports ?_ written, Settings.summarized shown written⟩
      rw [← rows]
      intro row listed other second same attempts
      obtain ⟨line, member, here⟩ := List.mem_filterMap.mp listed
      obtain ⟨line', member', there⟩ := List.mem_filterMap.mp second
      exact (produced line member).agree (produced line' member') here there same attempts

end Reports

/-! ## A small experiment -/

/-- Two rounds for two keywords. -/
def labSettings : Settings where
  sizes := [2]
  rounds := 2
  queries := 1
  dmax := 1
  sized n listed := by
    obtain rfl := List.mem_singleton.mp listed
    omega
  started := Nat.two_pos
  few := by omega
  queryWord := by omega
  dmaxWord := by omega

/-- The options of its rounds, which both programs read. -/
def labOptions (round : Nat) : Options := Scheduled.options labSettings ⟨.vlse, 2, round⟩

/-- Each call has the options of its round. -/
theorem options_labSettings {run : Scheduled} (member : run ∈ labSettings.schedule) :
    run.round ∈ [1, 2] ∧ run.options labSettings = labOptions run.round := by
  obtain ⟨scheme, n, round⟩ := run
  obtain ⟨size, first, last⟩ := Settings.mem_schedule.mp member
  obtain rfl := List.mem_singleton.mp size
  have rounds : 1 ≤ round ∧ round ≤ 2 := ⟨first, last⟩
  have either : round = 1 ∨ round = 2 := by omega
  exact ⟨List.mem_pair.mpr either, rfl⟩

/-- A host that is always quiescent, on the small environments. -/
def labHost : Host (AeadKey128 × Nonce × AssociatedData × Plaintext) Unit where
  doubles := sixDoubles
  layoutOf := steadyPaired.layoutOf
  process _ :=
    { clock := countingClock, paired := steadyPaired, lse := Lse.smallEnvironment, limit := 1
      lengthErrorText := "vector".toList }
  redaction := labRedaction
  quiescent _ := true
  utcStart _ := "0".toList
  utcEnd _ := "1".toList
  shaped _ := rfl
  short _ := by decide
  dated _ := none_of_all rfl

/-- Its names are usual. -/
theorem labHost_named : labHost.Named where
  usual := labRedaction_usual
  located := labRedaction_located
  apart line := by
    have dotted : '.' ∈ labRedaction.hostname := by decide
    have letter : 'm' ∈ labRedaction.hostname := by decide
    have other : ¬ NumberLetter 'm' := by simp [NumberLetter, Char.isDigit]
    exact line.not_mem_words dotted letter other

/-- The programs read the options of its calls. -/
theorem labSettings_parsed : ∀ run ∈ labSettings.schedule,
    (parseOptions run.scheme ((run.arguments labSettings).map wordBytes)).isOk = true := by
  decide +kernel

/-- The VLSE benchmark completes for them. -/
theorem labOptions_dispatch : ∀ round ∈ [1, 2],
    ((dispatch sixDoubles countingClock steadyPaired (labOptions round) 1).any fun ending =>
      ending.toOption.any fun _ => true) = true := by
  decide +kernel

/-- Setup of the LSE benchmark completes for them. -/
theorem labOptions_setup : ∀ round ∈ [1, 2],
    ((Lse.smallEnvironment.setup 1 (lseKeywords (labOptions round)) 1).any fun ending =>
      ending.toOption.any fun _ => true) = true := by
  decide +kernel

/-- Its keywords have distinct hashes. -/
theorem labOptions_distinct : ∀ round ∈ [1, 2],
    ((lseKeywords (labOptions round)).map (hashToGroup
      Lse.smallEnvironment.group.toPublicParameters Lse.smallEnvironment.shake256)).Nodup := by
  decide +kernel

/-- So the calls complete. -/
theorem labHost_completes {run : Scheduled} (member : run ∈ labSettings.schedule) :
    ∃ line, (labHost.process 0).Completes sixDoubles (run.options labSettings) run.scheme line := by
  obtain ⟨listed, same⟩ := options_labSettings member
  rw [same]
  cases run.scheme with
  | vlse =>
    obtain ⟨⟨index, metrics⟩, ended, -⟩ := exists_of_any (labOptions_dispatch run.round listed)
    exact ⟨_, .vlse ended⟩
  | lse =>
    obtain ⟨metrics, ended⟩ := runLse_small sixDoubles countingClock
      (Lse.Environment.nodup_directToken (labOptions_distinct run.round listed))
      (labOptions_setup run.round listed)
    exact ⟨_, .lse ended⟩

/-- And succeed. -/
theorem labHost_succeeds :
    ∀ entry ∈ labSettings.schedule.zipIdx, labHost.Succeeds labSettings entry := by
  intro entry listed
  have member := List.fst_mem_of_mem_zipIdx listed
  obtain ⟨line, completes⟩ := labHost_completes member
  rcases Scheduled.parseOptions_arguments member with ⟨message, threw⟩ | parsed
  · have accepted := labSettings_parsed entry.1 member
    rw [threw] at accepted
    contradiction
  · exact ⟨rfl, _, completes.main parsed⟩

/-- So it comes to the summarizer. -/
theorem experiment_exits_lab : ∃ raw, labHost.experiment labSettings = some (.ok raw) :=
  (Host.experiment_exits labHost_named).2.mpr ⟨List.cons_ne_nil _ _, labHost_succeeds⟩

/-- The sizes of its rows fit. -/
theorem labSettings_fits : labSettings.Fits labHost.layoutOf where
  paired := by decide +kernel
  lse := by decide +kernel

/-- What the summarizer makes of it. -/
theorem experiment_reports_lab :
    ∃ raw rows, labHost.experiment labSettings = some (.ok raw) ∧
      readRows sixDoubles raw = .ok (rows.map Row.fields) ∧ labSettings.Recorded rows ∧
      (∃ output, Summarizes sixDoubles "raw_results.txt" defaultQueryPoints raw output) ∧
      ∀ output, Summarizes sixDoubles "raw_results.txt" defaultQueryPoints raw output →
        output.Reports defaultQueryPoints rows ∧ labSettings.Summarized output := by
  obtain ⟨raw, completed⟩ := Host.experiment_of_succeeds labHost_named (List.cons_ne_nil _ _)
    labHost_succeeds
  obtain ⟨rows, reports⟩ := Host.experiment_reports labHost_named sixDoubles_nearest
    sixDoubles_sixDecimals labSettings_fits completed "raw_results.txt"
  exact ⟨raw, rows, completed, reports⟩

end Vlse.Benchmark
