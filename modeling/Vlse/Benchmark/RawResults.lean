import Vlse.Benchmark.Redaction
/-!
# The raw results

`run_paired_vs_lse.sh` runs the benchmarks one after the other, redacts what each writes, and
appends its row to `raw_results.txt`. A row holds no path, and no name of the host unless a host is
called like one of its words, so it passes the filter. What the summarizer reads is the rows of the
runs.
-/

namespace Vlse.Benchmark

open TextLines NumberText Substitution

/-! ## The rows -/

/-- Letters that separate no words and stand in no path. -/
def isPlain (letter : Char) : Bool :=
  letter.toNat < 128 && (letter.isAlphanum || letter = '_' || letter = '.' || letter = '-')

/-- A plain letter is one of host names, and not the slash. -/
theorem isPlain_hostLetter {letter : Char} (plain : isPlain letter = true) (redaction : Redaction) :
    redaction.hostLetter letter = true ∧ letter ≠ '/' := by
  have parts := plain
  rw [isPlain, Bool.and_eq_true, decide_eq_true_eq] at parts
  refine ⟨?_, ?_⟩
  · rw [Redaction.hostLetter_ascii parts.1]
    exact parts.2
  · rintro rfl
    exact absurd plain (by decide)

/-- So are those of a number. -/
theorem isPlain_of_numberLetter {letter : Char} (number : NumberLetter letter) :
    isPlain letter = true := by
  rcases number with digit | rfl | rfl
  · have below : letter.toNat < 128 := by
      simp only [Char.isDigit, Bool.and_eq_true, decide_eq_true_eq] at digit
      exact Nat.lt_of_le_of_lt digit.2 (by decide)
    simp [isPlain, below, Char.isAlphanum, digit]
  · rfl
  · rfl

/-- The words of the program in a row are plain. -/
def Printed.plain : Printed → Bool
  | word text => text.toList.all isPlain
  | count _ => true
  | real _ => true

/-- So every text of a row is. -/
theorem Printed.text_plain {doubles : Doubles} {value : Printed} (plain : value.plain = true) :
    ∀ letter ∈ value.text doubles, isPlain letter = true := by
  intro letter listed
  cases value with
  | word text => exact List.all_eq_true.mp plain letter listed
  | count value =>
    exact isPlain_of_numberLetter (.inl (isDigit_natText listed))
  | real value => exact isPlain_of_numberLetter (numberLetter_fixedText listed)

/-- Items with plain keys and words. -/
structure PlainItems (items : List (String × Printed)) : Prop where
  /-- The keys. -/
  keys : ∀ item ∈ items, ∀ letter ∈ item.1.toList, isPlain letter = true
  /-- The values. -/
  values : ∀ item ∈ items, item.2.plain = true

/-- The keys of a row are plain. -/
theorem rowKeys_plain : ∀ key ∈ rowKeys, (key.toList.all isPlain) = true := by
  decide +kernel

/-- Items with these keys and plain words. -/
theorem plainItems_of_rowKeys {items : List (String × Printed)}
    (keys : items.map Prod.fst = rowKeys) (values : (items.all fun item => item.2.plain) = true) :
    PlainItems items := by
  refine ⟨fun item inside => List.all_eq_true.mp (rowKeys_plain item.1 ?_),
    List.all_eq_true.mp values⟩
  rw [← keys]
  exact List.mem_map_of_mem inside

/-- The items of the VLSE benchmark are plain. -/
theorem plainItems_pairedItems (doubles : Doubles) (options : Options) (metrics : PairedMetrics) :
    PlainItems (pairedItems doubles options metrics) := plainItems_of_rowKeys rfl rfl

/-- So are those of the LSE benchmark. -/
theorem plainItems_lseItems (doubles : Doubles) (options : Options) (metrics : LseMetrics) :
    PlainItems (lseItems doubles options metrics) := plainItems_of_rowKeys rfl rfl

/-- The words on the line of a row. -/
def rowWords (doubles : Doubles) (items : List (String × Printed)) : List (List Char) :=
  "RESULT".toList :: items.flatMap fun item => [item.1.toList, item.2.text doubles]

section Lines

variable {redaction : Redaction} {doubles : Doubles} {items : List (String × Printed)}

/-- A letter between words. -/
theorem hostLetter_separator {letter : Char}
    (separator : letter = ' ' ∨ letter = '=' ∨ letter = '\n') :
    redaction.hostLetter letter = false := by
  rcases separator with rfl | rfl | rfl
  · rw [Redaction.hostLetter_ascii (by decide)]
    rfl
  · rw [Redaction.hostLetter_ascii (by decide)]
    rfl
  · rw [Redaction.hostLetter_ascii (by decide)]
    rfl

/-- In the items of a row the host is not named unless it is called like one of their words. -/
theorem noMatch_items (usual : redaction.Usual) (named : redaction.hostname ≠ [])
    (plain : PlainItems items)
    (apart : ∀ item ∈ items, item.1.toList ≠ redaction.hostname ∧
      item.2.text doubles ≠ redaction.hostname) :
    ∃ separator text, (items.flatMap fun item => ' ' :: itemText doubles item) ++ ['\n'] =
        separator :: text ∧ redaction.hostLetter separator = false ∧
      NoMatch redaction.hostFinder (some separator) text := by
  induction items with
  | nil => exact ⟨'\n', [], rfl, hostLetter_separator (.inr (.inr rfl)), trivial⟩
  | cons item items ih =>
    obtain ⟨separator, text, same, separates, rest⟩ := ih
      ⟨fun other inside => plain.keys other (List.mem_cons_of_mem item inside),
        fun other inside => plain.values other (List.mem_cons_of_mem item inside)⟩
      fun other inside => apart other (List.mem_cons_of_mem item inside)
    have different := apart item List.mem_cons_self
    have value := noMatch_word usual.host named
      (fun letter listed => (isPlain_hostLetter
        (Printed.text_plain (plain.values item List.mem_cons_self) letter listed) redaction).1)
      different.2 separates rest (some '=')
    have key := noMatch_word usual.host named
      (fun letter listed => (isPlain_hostLetter
        (plain.keys item List.mem_cons_self letter listed) redaction).1)
      different.1 (hostLetter_separator (.inr (.inl rfl))) value (some ' ')
    refine ⟨' ', _, ?_, hostLetter_separator (.inl rfl), key⟩
    rw [List.flatMap_cons, List.append_assoc, same, itemText]
    simp

/-- Nothing local stands on the line of a row. -/
theorem clean_resultLine (usual : redaction.Usual) (plain : PlainItems items)
    (apart : redaction.hostname ∉ rowWords doubles items) :
    redaction.Clean (resultLine doubles items) := by
  have word : ∀ letter ∈ "RESULT".toList, isPlain letter = true :=
    List.all_eq_true.mp (by rfl)
  constructor
  · intro candidate listed _ stands
    obtain ⟨path, slash⟩ := List.head?_eq_some_iff.mp (Redaction.candidate_forms listed).1
    rw [slash] at stands
    have inside := stands.subset List.mem_cons_self
    rcases List.mem_append.mp inside with first | later
    · exact (isPlain_hostLetter (word _ first) redaction).2 rfl
    · obtain ⟨item, member, found⟩ := List.mem_flatMap.mp later
      rw [itemText, List.mem_cons, List.mem_append, List.mem_cons] at found
      rcases found with blank | key | equals | value
      · exact absurd blank (by decide)
      · exact (isPlain_hostLetter (plain.keys item member _ key) redaction).2 rfl
      · exact absurd equals (by decide)
      · exact (isPlain_hostLetter
          (Printed.text_plain (plain.values item member) _ value) redaction).2 rfl
  · intro front rest named same free
    rw [rowWords, List.mem_cons, not_or] at apart
    have different : ∀ item ∈ items, item.1.toList ≠ redaction.hostname ∧
        item.2.text doubles ≠ redaction.hostname := by
      intro item inside
      have listed : ∀ word ∈ [item.1.toList, item.2.text doubles], word ≠ redaction.hostname :=
        fun word one equal => apart.2 (List.mem_flatMap.mpr ⟨item, inside, equal ▸ one⟩)
      exact ⟨listed _ (.head _), listed _ (.tail _ (.head _))⟩
    obtain ⟨separator, text, joined, separates, behind⟩ :=
      noMatch_items usual named plain different
    have clean := noMatch_word usual.host named
      (fun letter listed => (isPlain_hostLetter (word letter listed) redaction).1)
      (Ne.symm apart.1) separates behind none
    have line : "RESULT".toList ++ separator :: text =
        front ++ (redaction.hostname ++ (rest ++ ['\n'])) := by
      rw [← joined, ← List.append_assoc, ← resultLine, same, List.append_assoc, List.append_assoc]
    rw [line] at clean
    have unmatched := clean.at_append (List.append_ne_nil_of_left_ne_nil named _)
    rw [Option.or_none] at unmatched
    have closed := wordFinder_eq_none.mp unmatched _ rfl free
    cases rest with
    | nil =>
      have free : redaction.hostLetter '\n' = false := hostLetter_separator (.inr (.inr rfl))
      simp [outside, free] at closed
    | cons letter rest => exact closed

end Lines

/-! ## The raw results -/

/-- The words of a line, if it is a row. -/
def LogLine.words (doubles : Doubles) : LogLine → List (List Char)
  | paired options metrics => rowWords doubles (pairedItems doubles options metrics)
  | lse options metrics => rowWords doubles (lseItems doubles options metrics)
  | other _ _ _ => []

/-- A run of a benchmark as `run_one` sees it. -/
structure CapturedRun where
  /-- What is written to both streams. -/
  output : List Char
  /-- The exit status. -/
  status : Nat

/-- `grep '^RESULT '`. -/
def resultLines (log : List Char) : List (List Char) :=
  (log.splitOn '\n').filter ("RESULT ".toList.isPrefixOf ·)

/-- `run_one`: the text of `raw_file` afterwards, or the exit status of the script. -/
def runOne (redaction : Redaction) (raw : List Char) (run : CapturedRun) : Except Nat (List Char) :=
  match redaction.redact run.output with
  | .error _ => .error 1
  | .ok log =>
    if run.status ≠ 0 then .error run.status
    else if (resultLines log).length ≠ 1 then .error 3
    else .ok (raw ++ (resultLines log).flatMap (· ++ ['\n']))

/-- The loops over the sizes and rounds: `raw_file` after some runs. -/
def rawResults (redaction : Redaction) (runs : List CapturedRun) : Except Nat (List Char) :=
  runs.foldlM (runOne redaction) []

/-- The words of the program in a row hold no point. -/
def Printed.dotless : Printed → Bool
  | word text => text.toList.all fun letter => letter != '.'
  | count _ => true
  | real _ => true

/-- Nor do the keys. -/
theorem rowKeys_dotless : ∀ key ∈ rowKeys, (key.toList.all fun letter => letter != '.') = true := by
  decide +kernel

/-- So a name with a point and a letter of no number is none of the words of a row. -/
theorem not_mem_rowWords {doubles : Doubles} {items : List (String × Printed)}
    (keys : items.map Prod.fst = rowKeys) (values : (items.all fun item => item.2.dotless) = true)
    {name : List Char} (dotted : '.' ∈ name) {letter : Char} (listed : letter ∈ name)
    (other : ¬ NumberLetter letter) : name ∉ rowWords doubles items := by
  have dot : ∀ {text : List Char}, (text.all fun letter => letter != '.') = true → name ≠ text := by
    rintro text all rfl
    have apart := List.all_eq_true.mp all '.' dotted
    contradiction
  intro found
  rcases List.mem_cons.mp found with first | later
  · exact dot rfl first
  · obtain ⟨item, inside, one⟩ := List.mem_flatMap.mp later
    rcases List.mem_cons.mp one with key | one
    · have named : item.1 ∈ rowKeys := keys ▸ List.mem_map_of_mem inside
      exact dot (rowKeys_dotless item.1 named) key
    · have value := List.mem_singleton.mp one
      have free := List.all_eq_true.mp values item inside
      generalize item.2 = printed at value free
      cases printed with
      | word text => exact dot free value
      | count number =>
        rw [value] at listed
        exact other (.inl (isDigit_natText listed))
      | real number =>
        rw [value] at listed
        exact other (numberLetter_fixedText listed)

/-- Such a name is none of the words of a line. -/
theorem LogLine.not_mem_words {doubles : Doubles} (line : LogLine) {name : List Char}
    (dotted : '.' ∈ name) {letter : Char} (listed : letter ∈ name) (other : ¬ NumberLetter letter) :
    name ∉ line.words doubles := by
  cases line with
  | paired options metrics => exact not_mem_rowWords rfl rfl dotted listed other
  | lse options metrics => exact not_mem_rowWords rfl rfl dotted listed other
  | other text foreign solid => exact List.not_mem_nil

/-- There is one row among some lines. -/
def OneRow (doubles : Doubles) (lines : List LogLine) : Prop :=
  (lines.filterMap (LogLine.row? doubles)).length = 1

section Logs

variable {redaction : Redaction} {doubles : Doubles}

/-- A line is changed to a line of the same kind. -/
theorem LogLine.exists_changed (usual : redaction.Usual) (line : LogLine)
    (apart : redaction.hostname ∉ line.words doubles) :
    ∃ changed : LogLine, changed.text doubles = redaction.change (line.text doubles) ∧
      changed.row? doubles = line.row? doubles := by
  cases line with
  | paired options metrics =>
    have clean := clean_resultLine usual (plainItems_pairedItems doubles options metrics) apart
    exact ⟨.paired options metrics, clean.change_eq.symm, rfl⟩
  | lse options metrics =>
    have clean := clean_resultLine usual (plainItems_lseItems doubles options metrics) apart
    exact ⟨.lse options metrics, clean.change_eq.symm, rfl⟩
  | other text foreign solid =>
    have unmarked : '<' ∉ "RESULT ".toList := by decide
    have paths : Marked (literalFinder redaction.paths) '<' := by
      intro before text length label matched
      obtain ⟨path, found, rfl⟩ := literalFinder_eq_some matched
      exact (Redaction.label_forms (Redaction.mem_candidates_of_mem_paths found).1).1
    have starts : "RESULT ".toList <+: redaction.change text → "RESULT ".toList <+: text := by
      intro starts
      rw [Redaction.change, Redaction.subHost] at starts
      split at starts
      · exact prefix_of_prefix paths unmarked starts
      · have before := prefix_of_prefix (marked_wordFinder '<' "host>".toList) unmarked starts
        exact prefix_of_prefix paths unmarked before
    have still : "RESULT ".toList.isPrefixOf (redaction.change text) = false := by
      rw [Bool.eq_false_iff]
      intro found
      have before := starts (List.isPrefixOf_iff_prefix.mp found)
      rw [← List.isPrefixOf_iff_prefix, foreign] at before
      contradiction
    refine ⟨.other (redaction.change text) still fun letter listed => ?_, rfl, rfl⟩
    rcases Redaction.mem_change listed with inside | label
    · exact solid letter inside
    · have ends : (Redaction.labelLetters.all fun letter => !isLineEnd letter) = true := rfl
      exact none_of_all ends letter label

/-- A file starts with its first line. -/
theorem fileText_cons (line : LogLine) (lines : List LogLine) :
    fileText doubles (line :: lines) = line.text doubles ++ '\n' :: fileText doubles lines := by
  rw [fileText, List.map_cons, List.flatMap_cons, List.append_assoc]
  rfl

/-- So a file of log lines is changed to one with the same rows. -/
theorem exists_changed_file (usual : redaction.Usual) (lines : List LogLine)
    (apart : ∀ line ∈ lines, redaction.hostname ∉ line.words doubles) :
    ∃ changed, redaction.change (fileText doubles lines) = fileText doubles changed ∧
      changed.filterMap (LogLine.row? doubles) = lines.filterMap (LogLine.row? doubles) := by
  induction lines with
  | nil =>
    refine ⟨[], ?_, rfl⟩
    rw [fileText, List.map_nil, List.flatMap_nil, Redaction.change, Redaction.subHost]
    split
    · rfl
    · rfl
  | cons line lines ih =>
    obtain ⟨rest, texts, rows⟩ := ih fun other inside =>
      apart other (List.mem_cons_of_mem line inside)
    obtain ⟨first, text, row⟩ := line.exists_changed usual (apart line List.mem_cons_self)
    refine ⟨first :: rest, ?_, ?_⟩
    · rw [fileText_cons, fileText_cons, Redaction.change_append usual, texts, text]
    · rw [List.filterMap_cons, List.filterMap_cons, row, rows]

/-- The lines that `grep` finds in a file are its rows. -/
theorem resultLines_fileText (lines : List LogLine) :
    resultLines (fileText doubles lines) =
      (lines.filter fun line => (line.row? doubles).isSome).map (LogLine.text doubles) := by
  induction lines with
  | nil => rfl
  | cons line lines ih =>
    have free : '\n' ∉ line.text doubles := fun listed => by
      have solid := line.text_solid '\n' listed
      contradiction
    have row : "RESULT ".toList.isPrefixOf (line.text doubles) = (line.row? doubles).isSome := by
      cases line with
      | paired options metrics => rfl
      | lse options metrics => rfl
      | other text foreign solid => exact foreign
    rw [resultLines] at ih
    rw [resultLines, fileText_cons, List.splitOn_append_cons_self_of_not_mem free,
      List.filter_cons, ih, row, List.filter_cons]
    split
    · rfl
    · rfl

/-- What one run of a benchmark does: a log with one row adds that row, another stops the script. -/
theorem runOne_fileText (usual : redaction.Usual) (known : redaction.paths ≠ [])
    {lines : List LogLine} (apart : ∀ line ∈ lines, redaction.hostname ∉ line.words doubles)
    (before : List LogLine) :
    (OneRow doubles lines →
      ∃ rows, runOne redaction (fileText doubles before) ⟨fileText doubles lines, 0⟩ =
          .ok (fileText doubles (before ++ rows)) ∧
        rows.filterMap (LogLine.row? doubles) = lines.filterMap (LogLine.row? doubles)) ∧
    (¬ OneRow doubles lines →
      runOne redaction (fileText doubles before) ⟨fileText doubles lines, 0⟩ = .error 3) := by
  obtain ⟨changed, text, rows⟩ := exists_changed_file usual lines apart
  have free : '\r' ∉ fileText doubles lines := by
    intro listed
    obtain ⟨line, inside, found⟩ := List.mem_flatMap.mp listed
    obtain ⟨line, -, rfl⟩ := List.mem_map.mp inside
    rcases List.mem_append.mp found with letter | last
    · have solid := line.text_solid '\r' letter
      contradiction
    · exact absurd last (by decide)
  have log := Redaction.redact_eq usual known (fileText doubles lines)
  rw [universalNewlines_eq_self free, text] at log
  have count : (resultLines (fileText doubles changed)).length =
      (lines.filterMap (LogLine.row? doubles)).length := by
    rw [resultLines_fileText, List.length_map, ← rows, List.length_filterMap_eq_countP,
      List.countP_eq_length_filter]
  have kept : (changed.filter fun line => (line.row? doubles).isSome).filterMap
      (LogLine.row? doubles) = changed.filterMap (LogLine.row? doubles) := by
    rw [List.filterMap_filter]
    refine List.filterMap_congr fun line _ => ?_
    cases line.row? doubles with
    | none => rfl
    | some row => rfl
  rw [runOne, log]
  dsimp only
  rw [if_neg (not_not.mpr rfl), count]
  refine ⟨fun single => ?_, fun several => if_pos several⟩
  refine ⟨changed.filter fun line => (line.row? doubles).isSome, ?_, kept.trans rows⟩
  have one : (lines.filterMap (LogLine.row? doubles)).length = 1 := single
  rw [if_neg (not_not.mpr one), resultLines_fileText, fileText, fileText, List.map_append,
    List.flatMap_append]

/-- What some runs do, from raw results that hold some rows. -/
theorem runs_fileText (usual : redaction.Usual) (known : redaction.paths ≠ [])
    {runs : List (List LogLine)}
    (apart : ∀ lines ∈ runs, ∀ line ∈ lines, redaction.hostname ∉ line.words doubles)
    (before : List LogLine) :
    ((∀ lines ∈ runs, OneRow doubles lines) →
      ∃ rows, (runs.map fun lines => ⟨fileText doubles lines, 0⟩).foldlM (runOne redaction)
          (fileText doubles before) = .ok (fileText doubles (before ++ rows)) ∧
        rows.filterMap (LogLine.row? doubles) = runs.flatten.filterMap (LogLine.row? doubles)) ∧
    ((∃ lines ∈ runs, ¬ OneRow doubles lines) →
      (runs.map fun lines => ⟨fileText doubles lines, 0⟩).foldlM (runOne redaction)
        (fileText doubles before) = .error 3) := by
  induction runs generalizing before with
  | nil =>
    refine ⟨fun _ => ⟨[], by rw [List.append_nil]; rfl, rfl⟩, ?_⟩
    rintro ⟨lines, listed, -⟩
    contradiction
  | cons lines runs ih =>
    have first := runOne_fileText usual known (apart lines List.mem_cons_self) before
    have later := ih fun lines inside => apart lines (List.mem_cons_of_mem _ inside)
    rw [List.map_cons, List.foldlM_cons]
    by_cases single : OneRow doubles lines
    · obtain ⟨rows, ran, same⟩ := first.1 single
      have rest := later (before ++ rows)
      rw [ran]
      constructor
      · intro all
        obtain ⟨others, ended, found⟩ := rest.1 fun lines inside => all lines (.tail _ inside)
        refine ⟨rows ++ others, ?_, ?_⟩
        · rw [← List.append_assoc]
          exact ended
        · rw [List.filterMap_append, List.flatten_cons, List.filterMap_append, same, found]
      · rintro ⟨other, listed, several⟩
        rcases List.mem_cons.mp listed with rfl | inside
        · exact absurd single several
        · exact rest.2 ⟨other, inside, several⟩
    · rw [first.2 single]
      exact ⟨fun all => absurd (all lines List.mem_cons_self) single, fun _ => rfl⟩

/-- From its raw results the summarizer reads the rows that the benchmarks printed, one for each run
and in their order; the script stops at a run whose log holds no row or several. -/
theorem rawResults_printed (six : doubles.SixDecimals) (usual : redaction.Usual)
    (located : ∃ candidate ∈ redaction.candidates, 1 < candidate.1.length)
    (runs : List (List LogLine))
    (apart : ∀ lines ∈ runs, ∀ line ∈ lines, redaction.hostname ∉ line.words doubles) :
    ((∀ lines ∈ runs, OneRow doubles lines) →
      ∃ raw, rawResults redaction (runs.map fun lines => ⟨fileText doubles lines, 0⟩) = .ok raw ∧
        readRows doubles raw =
          .ok ((runs.flatten.filterMap (LogLine.row? doubles)).map Row.fields)) ∧
    ((∃ lines ∈ runs, ¬ OneRow doubles lines) →
      rawResults redaction (runs.map fun lines => ⟨fileText doubles lines, 0⟩) = .error 3) := by
  have ran := runs_fileText usual (Redaction.paths_ne_nil located) apart []
  refine ⟨fun all => ?_, ran.2⟩
  obtain ⟨rows, ended, found⟩ := ran.1 all
  refine ⟨_, ended, ?_⟩
  rw [readRows, splitLines_fileText, LogLine.readings six, List.nil_append, found]

/-- The logs of a run of each benchmark, one of them between other lines. -/
theorem rawResults_printed_lab :
    ∃ before metrics after lseMetrics raw,
      LogLine.text sixDoubles before = "built in /home/user".toList ∧
      rawResults labRedaction
        [⟨fileText sixDoubles [before, .paired pairOptions metrics, after], 0⟩,
          ⟨fileText sixDoubles [.lse pairOptions lseMetrics], 0⟩] = .ok raw ∧
      readRows sixDoubles raw = .ok [(pairedRow sixDoubles pairOptions metrics).fields,
        (lseRow sixDoubles pairOptions lseMetrics).fields] := by
  obtain ⟨index, metrics, -⟩ := dispatch_pair
  obtain ⟨lseMetrics, -⟩ := runLse_pair
  have dotted : '.' ∈ labRedaction.hostname := by decide
  have letter : 'm' ∈ labRedaction.hostname := by decide
  have other : ¬ NumberLetter 'm' := by simp [NumberLetter, Char.isDigit]
  obtain ⟨raw, ran, read⟩ := (rawResults_printed sixDoubles_sixDecimals labRedaction_usual
    labRedaction_located [[.other "built in /home/user".toList rfl (none_of_all rfl),
      .paired pairOptions metrics, .other "utc_end=1".toList rfl (none_of_all rfl)],
      [.lse pairOptions lseMetrics]]
    fun _ _ line _ => line.not_mem_words dotted letter other).1
    fun lines listed => by rcases List.mem_pair.mp listed with rfl | rfl <;> rfl
  exact ⟨_, metrics, _, lseMetrics, raw, rfl, ran, read⟩

end Logs

end Vlse.Benchmark
