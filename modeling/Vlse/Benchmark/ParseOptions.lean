import Vlse.Benchmark.Common
import Vlse.Foundation.Decimal
/-!
# Command lines

Both benchmarks read their options in one loop over the arguments: an option consumes the argument
after it, and the last occurrence of an option counts. Numbers go through `strtoull`, of which
`ParseSize` checks the end and the word but not the error channel. A grammar says which argument
vectors are command lines at all; against it, the numbers returned are the numbers written unless
one of them is negative or is too large for a word.
-/

namespace Vlse.Benchmark

open ByteBits Decimal

/-! ## The programs -/

/-- The options that take a number. -/
inductive NumericOption where
  /-- `--keywords`. -/
  | keywords
  /-- `--queries`. -/
  | queries
  /-- `--dmax`. -/
  | dmax
  /-- `--seed`. -/
  | seed
deriving DecidableEq

/-- The name of an option. -/
def NumericOption.name : NumericOption → String
  | keywords => "--keywords"
  | queries => "--queries"
  | dmax => "--dmax"
  | seed => "--seed"

/-- The field of an option. -/
def Options.get (options : Options) : NumericOption → Nat
  | .keywords => options.keywords
  | .queries => options.queries
  | .dmax => options.dmax
  | .seed => options.seed

/-- Assign to the field of an option. -/
def Options.set (options : Options) (value : Nat) : NumericOption → Options
  | .keywords => { options with keywords := value }
  | .queries => { options with queries := value }
  | .dmax => { options with dmax := value }
  | .seed => { options with seed := value }

/-- Assigning to one field leaves the others alone. -/
theorem Options.get_set (options : Options) (value : Nat) (option other : NumericOption) :
    (options.set value option).get other = if option = other then value else options.get other := by
  cases option <;> cases other <;> rfl

/-- The two benchmark programs. -/
inductive Program where
  /-- `vlse_protocol_benchmark`. -/
  | vlse
  /-- `lse_protocol_benchmark`. -/
  | lse
deriving DecidableEq

/-- What `--help` prints. -/
def Program.usage : Program → String
  | vlse => "Usage: vlse_protocol_benchmark [--layout paired] [--keywords N] [--queries Q] " ++
      "[--dmax 1|5|10|15|20] [--seed S]\n"
  | lse => "Usage: lse_protocol_benchmark [--keywords N] [--queries Q] [--dmax D] [--seed S]\n"

/-- What an argument asks for. -/
inductive ArgumentKind where
  /-- A layout. -/
  | layout
  /-- A number. -/
  | numeric (option : NumericOption)
  /-- The usage. -/
  | help
  /-- Nothing known. -/
  | unknown
deriving DecidableEq

/-- The comparisons of the loop of `ParseOptions`, in their order; only one program has layouts. -/
def Program.kind (program : Program) (argument : List Byte) : ArgumentKind :=
  if program = vlse ∧ argument = literalBytes "--layout" then .layout
  else if argument = literalBytes "--keywords" then .numeric .keywords
  else if argument = literalBytes "--queries" then .numeric .queries
  else if argument = literalBytes "--dmax" then .numeric .dmax
  else if argument = literalBytes "--seed" then .numeric .seed
  else if argument = literalBytes "--help" then .help
  else .unknown

/-! ## Parsing -/

/-- How `ParseOptions` can end without options. -/
inductive ParseExit where
  /-- It threw `std::invalid_argument` with this message. -/
  | threw (message : List Byte)
  /-- It printed this and ended the program. -/
  | helped (usage : String)

/-- `ParseSize`. -/
def parseSize (text : List Byte) (name : String) : Except ParseExit Nat :=
  let conversion := strtoull text
  if conversion.rest = text ∨ conversion.rest ≠ [] ∨ conversion.value = 0 then
    .error (.threw (literalBytes ("invalid " ++ name)))
  else .ok conversion.value

/-- The loop of `ParseOptions` over the arguments left. -/
def parseLoop (program : Program) : List (List Byte) → Options → Except ParseExit Options
  | [], options => .ok options
  | argument :: arguments, options =>
    match program.kind argument, arguments with
    | .layout, [] => .error (.threw (literalBytes "missing value for --layout"))
    | .layout, layout :: arguments =>
      if layout ≠ literalBytes "paired" then
        .error (.threw (literalBytes "--layout supports only paired"))
      else parseLoop program arguments options
    | .numeric option, [] => .error (.threw (literalBytes ("missing value for " ++ option.name)))
    | .numeric option, text :: arguments =>
      match parseSize text option.name with
      | .error exit => .error exit
      | .ok value => parseLoop program arguments (options.set value option)
    | .help, _ => .error (.helped program.usage)
    | .unknown, _ => .error (.threw (literalBytes "unknown option: " ++ argument))

/-- `ParseOptions` on the arguments after the name of the program. -/
def parseOptions (program : Program) (arguments : List (List Byte)) : Except ParseExit Options :=
  match parseLoop program arguments {} with
  | .error exit => .error exit
  | .ok options =>
    if options.keywords < options.queries then
      .error (.threw (literalBytes "queries cannot exceed keywords"))
    else .ok options

/-! ## Command lines -/

/-- An option with the text of its number. -/
abbrev Setting := NumericOption × List Byte

/-- The arguments follow the usage: they set these options in this order, and end there or ask for
help after them. -/
inductive CommandLine (program : Program) : List (List Byte) → List Setting → Bool → Prop
  /-- No arguments are left. -/
  | done : CommandLine program [] [] false
  /-- Help is asked for, and what follows is not read. -/
  | help {argument : List Byte} {arguments : List (List Byte)}
    (named : program.kind argument = .help) : CommandLine program (argument :: arguments) [] true
  /-- The one layout there is. -/
  | layout {argument : List Byte} {arguments : List (List Byte)} {settings : List Setting}
    {asked : Bool} (named : program.kind argument = .layout)
    (others : CommandLine program arguments settings asked) :
    CommandLine program (argument :: literalBytes "paired" :: arguments) settings asked
  /-- An option with its text. -/
  | numeric {argument text : List Byte} {arguments : List (List Byte)} {settings : List Setting}
    {asked : Bool} {option : NumericOption} (named : program.kind argument = .numeric option)
    (others : CommandLine program arguments settings asked) :
    CommandLine program (argument :: text :: arguments) ((option, text) :: settings) asked

/-- An argument vector is a command line in one way. -/
theorem CommandLine.unique {program : Program} {arguments : List (List Byte)}
    {settings others : List Setting} {asked again : Bool}
    (first : CommandLine program arguments settings asked)
    (second : CommandLine program arguments others again) : settings = others ∧ asked = again := by
  induction first generalizing others again with
  | done =>
    cases second
    exact ⟨rfl, rfl⟩
  | help named =>
    cases second with
    | help => exact ⟨rfl, rfl⟩
    | layout other => simp [named] at other
    | numeric other => simp [named] at other
  | layout named _ ih =>
    cases second with
    | help other => simp [named] at other
    | layout other rest => exact ih rest
    | numeric other => simp [named] at other
  | numeric named _ ih =>
    cases second with
    | help other => simp [named] at other
    | layout other => simp [named] at other
    | numeric other rest =>
      rw [named, ArgumentKind.numeric.injEq] at other
      have same := ih rest
      rw [other, same.1]
      exact ⟨rfl, same.2⟩

/-- The text of the last occurrence of an option. -/
def lastText (settings : List Setting) (option : NumericOption) : Option (List Byte) :=
  ((settings.filter fun setting => setting.1 = option).getLast?).map Prod.snd

/-- The options after the settings of a command line, as `strtoull` reads them. -/
def applySettings (settings : List Setting) (options : Options) : Options :=
  settings.foldl (fun options setting => options.set (strtoull setting.2).value setting.1) options

/-- The text is read whole, as a word other than zero. -/
def Readable (text : List Byte) : Prop :=
  (strtoull text).rest ≠ text ∧ (strtoull text).rest = [] ∧ (strtoull text).value ≠ 0

/-- `ParseSize` returns the word of a text that is read so, and throws for every other. -/
theorem parseSize_eq (text : List Byte) (name : String) :
    (Readable text ∧ parseSize text name = .ok (strtoull text).value) ∨
      parseSize text name = .error (.threw (literalBytes ("invalid " ++ name))) := by
  unfold parseSize
  dsimp only
  split
  · exact .inr rfl
  · rename_i read
    simp only [not_or, not_not] at read
    exact .inl ⟨read, rfl⟩

/-- A text that is read so is returned. -/
theorem parseSize_of_readable {text : List Byte} (readable : Readable text) (name : String) :
    parseSize text name = .ok (strtoull text).value := by
  unfold parseSize
  apply if_neg
  rintro (start | rest | zero)
  · exact readable.1 start
  · exact rest readable.2.1
  · exact readable.2.2 zero

/-- A command line whose numbers are read is accepted by the loop. -/
theorem parseLoop_of_commandLine {program : Program} {arguments : List (List Byte)}
    {settings : List Setting} {asked : Bool}
    (line : CommandLine program arguments settings asked)
    (readable : ∀ setting ∈ settings, Readable setting.2) (options : Options) :
    parseLoop program arguments options =
      if asked then .error (.helped program.usage) else .ok (applySettings settings options) := by
  induction line generalizing options with
  | done => rfl
  | help named =>
    unfold parseLoop
    rw [named]
    rfl
  | layout named _ ih =>
    unfold parseLoop
    rw [named]
    dsimp only
    rw [if_neg (not_not.mpr rfl), ih readable]
  | numeric named _ ih =>
    have read := parseSize_of_readable (readable _ List.mem_cons_self)
    unfold parseLoop
    rw [named]
    dsimp only
    rw [read]
    exact ih (fun setting inside => readable setting (List.mem_cons_of_mem _ inside)) _

/-- The loop throws, or its arguments are a command line whose numbers are read. -/
theorem parseLoop_cases (program : Program) (arguments : List (List Byte)) (options : Options) :
    (∃ message, parseLoop program arguments options = .error (.threw message)) ∨
      ∃ settings asked, CommandLine program arguments settings asked ∧
        ∀ setting ∈ settings, Readable setting.2 := by
  induction arguments, options using parseLoop.induct program with
  | case1 options => exact .inr ⟨[], false, .done, by simp⟩
  | case2 argument options named =>
    unfold parseLoop
    rw [named]
    exact .inl ⟨_, rfl⟩
  | case3 argument options layout arguments named foreign =>
    unfold parseLoop
    rw [named]
    exact .inl ⟨_, if_pos foreign⟩
  | case4 argument options layout arguments named paired ih =>
    rw [not_not] at paired
    unfold parseLoop
    rw [named, paired]
    dsimp only
    rw [if_neg (not_not.mpr rfl)]
    refine ih.imp id fun line => ?_
    obtain ⟨settings, asked, others, readable⟩ := line
    exact ⟨settings, asked, .layout named others, readable⟩
  | case5 argument options option named =>
    unfold parseLoop
    rw [named]
    exact .inl ⟨_, rfl⟩
  | case6 argument options option text arguments named exit refused =>
    unfold parseLoop
    rw [named]
    dsimp only
    rw [refused]
    cases parseSize_eq text option.name with
    | inl read => simp [read.2] at refused
    | inr threw =>
      rw [threw] at refused
      rw [← Except.error.inj refused]
      exact .inl ⟨_, rfl⟩
  | case7 argument options option text arguments named value returned ih =>
    unfold parseLoop
    rw [named]
    dsimp only
    rw [returned]
    refine ih.imp id fun line => ?_
    obtain ⟨settings, asked, others, readable⟩ := line
    refine ⟨(option, text) :: settings, asked, .numeric named others, ?_⟩
    intro setting inside
    cases parseSize_eq text option.name with
    | inl read =>
      rcases List.mem_cons.mp inside with rfl | later
      · exact read.1
      · exact readable setting later
    | inr threw => simp [threw] at returned
  | case8 argument arguments options named => exact .inr ⟨[], true, .help named, by simp⟩
  | case9 argument arguments options named =>
    unfold parseLoop
    rw [named]
    exact .inl ⟨_, rfl⟩

/-! ## The numbers written -/

/-- The text writes a positive number below `2 ^ 64`. -/
def WritesWord (text : List Byte) : Prop :=
  ∃ value, Denotes text value ∧ 0 < value ∧ value < 2 ^ 64

/-- The text writes a negative number or one from `2 ^ 64` on. -/
def WritesForeign (text : List Byte) : Prop :=
  ∃ value, Denotes text value ∧ (value < 0 ∨ 2 ^ 64 ≤ value)

/-- `strtoull` reads a text whole and as a word other than zero exactly when it writes a number
other than zero. -/
theorem readable_iff (text : List Byte) :
    Readable text ↔ ∃ value, Denotes text value ∧ value ≠ 0 := by
  constructor
  · intro readable
    obtain ⟨numeral, rfl⟩ := exists_numeral readable.2.1 readable.1
    refine ⟨numeral.value, ⟨numeral, rfl, rfl⟩, (convert_ne_zero_iff numeral).mp ?_⟩
    have word := readable.2.2
    rwa [strtoull_text] at word
  · rintro ⟨value, ⟨numeral, rfl, rfl⟩, nonzero⟩
    have text : numeral.text ≠ [] := by
      simp [Numeral.text, numeral.nonempty]
    rw [Readable, strtoull_text]
    exact ⟨text.symm, rfl, (convert_ne_zero_iff numeral).mpr nonzero⟩

/-- A text that is read writes the word read, or a number that is not one. -/
theorem Readable.denotes {text : List Byte} (readable : Readable text)
    (domestic : ¬ WritesForeign text) : WritesWord text ∧ Denotes text (strtoull text).value := by
  obtain ⟨value, written, nonzero⟩ := (readable_iff text).mp readable
  have bounds : 0 < value ∧ value < 2 ^ 64 := by
    have inside : ¬ (value < 0 ∨ 2 ^ 64 ≤ value) := fun outside =>
      domestic ⟨value, written, outside⟩
    omega
  refine ⟨⟨value, written, bounds⟩, ?_⟩
  obtain ⟨numeral, rfl, rfl⟩ := written
  rw [strtoull_text, convert_of_word bounds.1 bounds.2]
  exact ⟨numeral, rfl, rfl⟩

/-- A text that writes a word writes nothing else. -/
theorem WritesWord.not_foreign {text : List Byte} (word : WritesWord text) :
    ¬ WritesForeign text := by
  rintro ⟨other, again, outside⟩
  obtain ⟨value, written, bounds⟩ := word
  rw [written.unique again] at bounds
  omega

/-- The word `strtoull` reads for an option, from the last of its texts, or the default. -/
def lastWord (settings : List Setting) (option : NumericOption) : Nat :=
  match lastText settings option with
  | none => Options.get {} option
  | some text => (strtoull text).value

/-- The last setting of an option decides its field. -/
theorem get_applySettings (settings : List Setting) (option : NumericOption) :
    (applySettings settings {}).get option = lastWord settings option := by
  induction settings using List.reverseRecOn with
  | nil => rfl
  | append_singleton settings setting ih =>
    rw [applySettings, List.foldl_append, List.foldl_cons, List.foldl_nil, ← applySettings,
      Options.get_set, ih]
    by_cases here : setting.1 = option
    · simp [lastWord, lastText, List.filter_append, here]
    · simp [lastWord, lastText, List.filter_append, here]

/-- A last text is one of the texts. -/
theorem mem_of_lastText {settings : List Setting} {option : NumericOption} {text : List Byte}
    (last : lastText settings option = some text) : (option, text) ∈ settings := by
  obtain ⟨setting, found, rfl⟩ := Option.map_eq_some_iff.mp last
  have member := List.mem_filter.mp (List.mem_of_getLast? found)
  have named : setting.1 = option := of_decide_eq_true member.2
  rw [← named]
  exact member.1

/-- A command line whose numbers are read gives its last words, unless they ask for more queries
than keywords. -/
theorem parseOptions_of_commandLine {program : Program} {arguments : List (List Byte)}
    {settings : List Setting} {asked : Bool}
    (line : CommandLine program arguments settings asked)
    (readable : ∀ setting ∈ settings, Readable setting.2) :
    parseOptions program arguments =
      if asked then .error (.helped program.usage)
      else if lastWord settings .keywords < lastWord settings .queries then
        .error (.threw (literalBytes "queries cannot exceed keywords"))
      else .ok (applySettings settings {}) := by
  rw [parseOptions, parseLoop_of_commandLine line readable, ← get_applySettings,
    ← get_applySettings]
  cases asked
  · rfl
  · rfl

/-- An exact result: an exception, or else the arguments are a command line whose texts write words,
and options returned are the words of the last texts or defaults, with no more queries than
keywords. -/
def ParsedExactly (program : Program) (arguments : List (List Byte)) :
    Except ParseExit Options → Prop
  | .error (.threw _) => True
  | .error (.helped _) => ∃ settings, CommandLine program arguments settings true ∧
      ∀ setting ∈ settings, WritesWord setting.2
  | .ok options => ∃ settings, CommandLine program arguments settings false ∧
      (∀ setting ∈ settings, WritesWord setting.2) ∧
      (∀ option, match lastText settings option with
        | none => options.get option = Options.get {} option
        | some text => Denotes text (options.get option)) ∧
      options.queries ≤ options.keywords

/-- Settings whose texts are read and write words give an exact result. -/
theorem parsedExactly_applySettings {program : Program} {arguments : List (List Byte)}
    {settings : List Setting} (line : CommandLine program arguments settings false)
    (readable : ∀ setting ∈ settings, Readable setting.2)
    (domestic : ∀ setting ∈ settings, ¬ WritesForeign setting.2)
    (enough : lastWord settings .queries ≤ lastWord settings .keywords) :
    ParsedExactly program arguments (.ok (applySettings settings {})) := by
  refine ⟨settings, line, fun setting inside =>
    ((readable setting inside).denotes (domestic setting inside)).1, fun option => ?_, ?_⟩
  · have field := get_applySettings settings option
    rw [lastWord] at field
    cases last : lastText settings option with
    | none =>
      rw [last] at field
      exact field
    | some text =>
      have inside := mem_of_lastText last
      rw [last] at field
      dsimp only at field ⊢
      rw [field]
      exact ((readable _ inside).denotes (domestic _ inside)).2
  · rw [← get_applySettings, ← get_applySettings] at enough
    exact enough

/-- Numeric options are parsed exactly just in case the command line is refused for another reason,
or none of its texts writes a negative number or one from `2 ^ 64` on. Other reasons are arguments
that follow no usage, a text that writes no number or zero, and more queries than keywords as
`strtoull` reads them. -/
theorem parseOptions_exact_iff (program : Program) (arguments : List (List Byte)) :
    ParsedExactly program arguments (parseOptions program arguments) ↔
      ∀ settings asked, CommandLine program arguments settings asked →
        (∀ setting ∈ settings, ∃ value, Denotes setting.2 value ∧ value ≠ 0) →
        (asked = false → lastWord settings .queries ≤ lastWord settings .keywords) →
          ∀ setting ∈ settings, ¬ WritesForeign setting.2 := by
  constructor
  · intro exact_ settings asked line numbers enough setting inside
    have readable : ∀ setting ∈ settings, Readable setting.2 := fun setting inside =>
      (readable_iff setting.2).mpr (numbers setting inside)
    rw [parseOptions_of_commandLine line readable] at exact_
    have words : ∀ setting ∈ settings, WritesWord setting.2 := by
      cases asked with
      | true =>
        obtain ⟨others, again, words⟩ := exact_
        rw [(line.unique again).1]
        exact words
      | false =>
        have fine := not_lt.mpr (enough rfl)
        simp only [Bool.false_eq_true, if_false, if_neg fine] at exact_
        obtain ⟨others, again, words, -⟩ := exact_
        rw [(line.unique again).1]
        exact words
    exact (words setting inside).not_foreign
  · intro condition
    cases parseLoop_cases program arguments {} with
    | inl threw =>
      obtain ⟨message, threw⟩ := threw
      rw [parseOptions, threw]
      trivial
    | inr accepted =>
      obtain ⟨settings, asked, line, readable⟩ := accepted
      have numbers := fun setting inside => (readable_iff setting.2).mp (readable setting inside)
      rw [parseOptions_of_commandLine line readable]
      cases asked with
      | true =>
        have domestic := condition settings true line numbers (by simp)
        exact ⟨settings, line, fun setting inside =>
          ((readable setting inside).denotes (domestic setting inside)).1⟩
      | false =>
        by_cases excess : lastWord settings .keywords < lastWord settings .queries
        · simp only [Bool.false_eq_true, if_false, if_pos excess]
          trivial
        · have enough := not_lt.mp excess
          have domestic := condition settings false line numbers fun _ => enough
          simp only [Bool.false_eq_true, if_false, if_neg excess]
          exact parsedExactly_applySettings line readable domestic enough

/-- A seed of minus one is returned as the largest word. -/
theorem parseOptions_negative_seed :
    parseOptions .vlse [literalBytes "--seed", literalBytes "-1"] =
        .ok { seed := 18446744073709551615 } ∧
      ¬ ParsedExactly .vlse [literalBytes "--seed", literalBytes "-1"]
        (parseOptions .vlse [literalBytes "--seed", literalBytes "-1"]) := by
  have line : CommandLine .vlse [literalBytes "--seed", literalBytes "-1"]
      [(.seed, literalBytes "-1")] false := .numeric (by decide +kernel) .done
  have readable : ∀ setting ∈ [(NumericOption.seed, literalBytes "-1")], Readable setting.2 := by
    intro setting inside
    rw [List.mem_singleton.mp inside]
    unfold Readable
    decide +kernel
  have returned := parseOptions_of_commandLine line readable
  have foreign : WritesForeign (literalBytes "-1") :=
    ⟨-1, ⟨⟨[], .minus, [49], by simp, by decide, by simp⟩, by decide +kernel, by decide⟩,
      .inl (by decide)⟩
  have options : parseOptions .vlse [literalBytes "--seed", literalBytes "-1"] =
      .ok { seed := 18446744073709551615 } := by
    rw [returned]
    rfl
  refine ⟨options, fun parsed => ?_⟩
  rw [options] at parsed
  obtain ⟨settings, again, words, -⟩ := parsed
  have same := (line.unique again).1
  exact (words (.seed, literalBytes "-1") (same ▸ List.mem_singleton_self _)).not_foreign foreign

/-! ## The options of a run -/

/-- The word of an option that is read is positive, and a word. -/
theorem lastWord_bounds {settings : List Setting}
    (readable : ∀ setting ∈ settings, Readable setting.2) (option : NumericOption) :
    0 < lastWord settings option ∧ lastWord settings option < 2 ^ 64 := by
  rw [lastWord]
  cases last : lastText settings option with
  | none => cases option <;> decide
  | some text =>
    have read := readable _ (mem_of_lastText last)
    exact ⟨Nat.pos_of_ne_zero read.2.2, strtoull_lt text⟩

/-- Options that are returned are positive words, with no more queries than keywords. -/
theorem parseOptions_accepted {program : Program} {arguments : List (List Byte)}
    {options : Options} (returned : parseOptions program arguments = .ok options) :
    options.Accepted := by
  cases parseLoop_cases program arguments {} with
  | inl threw =>
    obtain ⟨message, threw⟩ := threw
    simp [parseOptions, threw] at returned
  | inr accepted =>
    obtain ⟨settings, asked, line, readable⟩ := accepted
    rw [parseOptions_of_commandLine line readable] at returned
    cases asked with
    | true => simp at returned
    | false =>
      by_cases excess : lastWord settings .keywords < lastWord settings .queries
      · simp [excess] at returned
      · have enough := not_lt.mp excess
        simp only [Bool.false_eq_true, if_false, if_neg excess, Except.ok.injEq] at returned
        have field := fun option => (get_applySettings settings option).symm
        rw [returned] at field
        have bounds := lastWord_bounds readable
        simp only [field] at bounds enough
        exact ⟨bounds .keywords, bounds .queries, bounds .dmax, bounds .seed, enough⟩

end Vlse.Benchmark
