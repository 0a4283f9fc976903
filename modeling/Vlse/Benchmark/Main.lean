import Vlse.Benchmark.ParseOptions
import Vlse.Benchmark.RawResults
/-!
# The programs

`main` of a benchmark parses its arguments, runs and prints one row; an exception ends it with a
message and the status one, and `--help` with its usage. The arguments it is given by the scripts
are words and numbers in decimal digits, which are read as they are written.
-/

namespace Vlse.Benchmark

open Vlse.Filter Label Oprf Protocol ByteBits Decimal NumberText

/-! ## The programs -/

/-- The name of a program, which starts its messages. -/
def Program.name : Program → String
  | vlse => "vlse_protocol_benchmark"
  | lse => "lse_protocol_benchmark"

/-- The letters of bytes of ASCII. -/
def asciiText (bytes : List Byte) : List Char := bytes.map fun byte => Char.ofNat byte.toNat

/-- `what` of an exception, for the library's text in a `std::length_error`; there is none for a
call that never ends. -/
def what (lengthErrorText : List Char) : Fault → Option (List Char)
  | .logicError message => some message.toList
  | .invalidArgument message => some message.toList
  | .runtimeError message => some message.toList
  | .lengthError => some lengthErrorText
  | .unending => none

/-- The end of a program that caught an exception with this message. -/
def Program.caught (program : Program) (message : List Char) : CapturedRun :=
  ⟨program.name.toList ++ ": ".toList ++ message ++ ['\n'], 1⟩

/-- The end of a program whose arguments gave no options. -/
def Program.refused (program : Program) : ParseExit → CapturedRun
  | .threw message => program.caught (asciiText message)
  | .helped usage => ⟨usage.toList, 0⟩

/-- What a process runs on. -/
structure Process (C T : Type*) where
  /-- Its clock. -/
  clock : SteadyClock
  /-- What the VLSE protocol runs on. -/
  paired : PairedEnvironment C T
  /-- What the LSE protocol runs on. -/
  lse : Lse.Environment
  /-- The most draws for each dummy. -/
  limit : Nat
  /-- The text of a `std::length_error`. -/
  lengthErrorText : List Char

/-- The rest of `main`: the line of a run that completes, or the message of what it threw; none when
it never ends. -/
def Program.finish {Result : Type*} (program : Program) (lengthErrorText : List Char)
    (line : Result → List Char) : Option (Except Fault Result) → Option CapturedRun
  | none => none
  | some (.error fault) => (what lengthErrorText fault).map program.caught
  | some (.ok result) => some ⟨line result ++ ['\n'], 0⟩

/-- A program that ends has printed the line of its result or a message. -/
theorem Program.finish_cases {Result : Type*} {program : Program} {lengthErrorText : List Char}
    {line : Result → List Char} {ending : Option (Except Fault Result)} {run : CapturedRun}
    (ended : program.finish lengthErrorText line ending = some run) :
    (∃ message, run = program.caught message) ∨
      ∃ result, ending = some (.ok result) ∧ run = ⟨line result ++ ['\n'], 0⟩ := by
  cases ending with
  | none => contradiction
  | some ending =>
    cases ending with
    | error fault =>
      obtain ⟨message, -, caught⟩ := Option.map_eq_some_iff.mp ended
      exact .inl ⟨message, caught.symm⟩
    | ok result => exact .inr ⟨result, rfl, (Option.some.inj ended).symm⟩

section Main

variable {C T : Type*} [Inhabited C] [Inhabited T] (doubles : Doubles) (process : Process C T)

/-- `main` of the VLSE benchmark. -/
def vlseMain (arguments : List (List Byte)) : Option CapturedRun :=
  match parseOptions .vlse arguments with
  | .error exit => some (Program.vlse.refused exit)
  | .ok options =>
    Program.vlse.finish process.lengthErrorText
      (fun result => resultLine doubles (pairedItems doubles options result.2))
      (dispatch doubles process.clock process.paired options process.limit)

/-- `main` of the LSE benchmark. -/
def lseMain (arguments : List (List Byte)) : Option CapturedRun :=
  match parseOptions .lse arguments with
  | .error exit => some (Program.lse.refused exit)
  | .ok options =>
    Program.lse.finish process.lengthErrorText
      (fun metrics => resultLine doubles (lseItems doubles options metrics))
      (runLse doubles process.clock process.lse options process.limit)

/-- `main` of a benchmark. -/
def Process.main : Program → List (List Byte) → Option CapturedRun
  | .vlse => vlseMain doubles process
  | .lse => lseMain doubles process

/-- A line is the row of a run that completes. -/
inductive Process.Completes (options : Options) : Program → LogLine → Prop
  /-- A run of the VLSE benchmark. -/
  | vlse {index : Index (SealedRecord options.dmax C T)} {metrics : PairedMetrics}
    (ended : dispatch doubles process.clock process.paired options process.limit =
      some (.ok (index, metrics))) : Completes options .vlse (.paired options metrics)
  /-- A run of the LSE benchmark. -/
  | lse {metrics : LseMetrics}
    (ended : runLse doubles process.clock process.lse options process.limit =
      some (.ok metrics)) : Completes options .lse (.lse options metrics)

variable {doubles process} {options : Options} {program : Program} {line : LogLine}
  {arguments : List (List Byte)}

/-- A program without options ends as it refuses them. -/
theorem Process.main_of_error {exit : ParseExit}
    (parsed : parseOptions program arguments = .error exit) :
    process.main doubles program arguments = some (program.refused exit) := by
  cases program with
  | vlse =>
    change vlseMain doubles process arguments = _
    rw [vlseMain, parsed]
  | lse =>
    change lseMain doubles process arguments = _
    rw [lseMain, parsed]

/-- The row of a run that completes is printed. -/
theorem Process.Completes.main (completes : process.Completes doubles options program line)
    (parsed : parseOptions program arguments = .ok options) :
    process.main doubles program arguments = some ⟨fileText doubles [line], 0⟩ := by
  rw [fileText_cons]
  cases completes with
  | vlse ended =>
    change vlseMain doubles process arguments = _
    rw [vlseMain, parsed]
    dsimp only
    rw [ended]
    rfl
  | lse ended =>
    change lseMain doubles process arguments = _
    rw [lseMain, parsed]
    dsimp only
    rw [ended]
    rfl

/-- A program that was given options and ends has printed the row of a run that completes, or caught
an exception. -/
theorem Process.main_of_ok {run : CapturedRun}
    (parsed : parseOptions program arguments = .ok options)
    (ended : process.main doubles program arguments = some run) :
    (∃ message, run = program.caught message) ∨
      ∃ line, process.Completes doubles options program line ∧
        run = ⟨fileText doubles [line], 0⟩ := by
  cases program with
  | vlse =>
    have shown : vlseMain doubles process arguments = some run := ended
    rw [vlseMain, parsed] at shown
    refine (Program.finish_cases shown).imp_right fun completed => ?_
    obtain ⟨⟨index, metrics⟩, ran, rfl⟩ := completed
    refine ⟨.paired options metrics, .vlse ran, ?_⟩
    rw [fileText_cons]
    rfl
  | lse =>
    have shown : lseMain doubles process arguments = some run := ended
    rw [lseMain, parsed] at shown
    refine (Program.finish_cases shown).imp_right fun completed => ?_
    obtain ⟨metrics, ran, rfl⟩ := completed
    refine ⟨.lse options metrics, .lse ran, ?_⟩
    rw [fileText_cons]
    rfl

end Main

/-! ## Arguments in digits -/

/-- The bytes of a word of ASCII. -/
def wordBytes (word : List Char) : List Byte := word.map fun letter => BitVec.ofNat 8 letter.toNat

/-- A digit keeps its code. -/
theorem toNat_ofNat_of_isDigit {letter : Char} (digit : letter.isDigit = true) :
    48 ≤ letter.toNat ∧ letter.toNat ≤ 57 ∧ (BitVec.ofNat 8 letter.toNat).toNat = letter.toNat := by
  have range : 48 ≤ letter.toNat ∧ letter.toNat ≤ 57 := by
    simp only [Char.isDigit, Bool.and_eq_true, decide_eq_true_eq] at digit
    exact digit
  refine ⟨range.1, range.2, ?_⟩
  rw [BitVec.toNat_ofNat]
  omega

/-- The digits of a number write it as bytes, too. -/
theorem digitsValue_wordBytes (value : Nat) :
    Decimal.digitsValue (wordBytes (natText value)) = value := by
  have same : ∀ (digits : List Char) (start : Nat), (∀ letter ∈ digits, letter.isDigit = true) →
      (wordBytes digits).foldl (fun value digit => 10 * value + (digit.toNat - 48)) start =
        Nat.ofDigitChars 10 digits start := by
    intro digits
    induction digits with
    | nil =>
      intro start all
      rfl
    | cons letter digits ih =>
      intro start all
      have code := (toNat_ofNat_of_isDigit (all letter List.mem_cons_self)).2.2
      have rest := ih (10 * start + (letter.toNat - 48)) fun other later =>
        all other (List.mem_cons_of_mem letter later)
      rw [wordBytes, List.map_cons, List.foldl_cons, code, Nat.ofDigitChars_cons]
      exact rest
  have read := same (natText value) 0 fun letter => isDigit_natText
  exact read.trans (digitsValue_natText value)

/-- `strtoull` reads a number in digits that is a word. -/
theorem strtoull_natText {value : Nat} (word : value < 2 ^ 64) :
    strtoull (wordBytes (natText value)) = { value, rest := [] } := by
  have digits : ∀ byte ∈ wordBytes (natText value), Decimal.isDigit byte = true := by
    intro byte listed
    obtain ⟨letter, inside, rfl⟩ := List.mem_map.mp listed
    have range := toNat_ofNat_of_isDigit (isDigit_natText inside)
    unfold Decimal.isDigit
    exact decide_eq_true (by omega)
  have nonempty : wordBytes (natText value) ≠ [] := by
    have some : natText value ≠ [] := Nat.toDigits_ne_nil
    exact fun empty => some (List.map_eq_nil_iff.mp empty)
  have read := strtoull_text ⟨[], .absent, _, by simp, digits, nonempty⟩
  have magnitude := digitsValue_wordBytes value
  simp only [Numeral.text, Numeral.magnitude, Sign.bytes, List.nil_append, magnitude] at read
  have kept : Decimal.convert .absent value = value := by
    rw [Decimal.convert, if_neg (by omega), if_neg (by decide)]
  rw [read, kept]

/-- Options with numbers, as words. -/
def settingWords (settings : List (NumericOption × Nat)) : List (List Char) :=
  settings.flatMap fun setting => [setting.1.name.toList, natText setting.2]

/-- The settings that are read of them. -/
def settingBytes (settings : List (NumericOption × Nat)) : List Setting :=
  settings.map fun setting => (setting.1, wordBytes (natText setting.2))

/-- They are a command line of both programs. -/
theorem commandLine_settingWords (program : Program) (settings : List (NumericOption × Nat)) :
    CommandLine program ((settingWords settings).map wordBytes) (settingBytes settings) false := by
  induction settings with
  | nil => exact .done
  | cons setting settings ih =>
    have named : program.kind (wordBytes setting.1.name.toList) = .numeric setting.1 := by
      cases program <;> cases setting.1 <;> decide +kernel
    exact .numeric named ih

/-- The options that words of numbers set. -/
def setOptions (settings : List (NumericOption × Nat)) : Options :=
  settings.foldl (fun options setting => options.set setting.2 setting.1) {}

/-- `ParseOptions` on a command line of numbers that are words returns them, or throws. -/
theorem parseOptions_numbers {program : Program} {arguments : List (List Byte)}
    {settings : List (NumericOption × Nat)}
    (line : CommandLine program arguments (settingBytes settings) false)
    (words : ∀ setting ∈ settings, setting.2 < 2 ^ 64) :
    (∃ message, parseOptions program arguments = .error (.threw message)) ∨
      parseOptions program arguments = .ok (setOptions settings) := by
  have applied : applySettings (settingBytes settings) {} = setOptions settings := by
    rw [applySettings, settingBytes, List.foldl_map, setOptions]
    refine List.foldl_ext _ _ _ fun options setting inside => ?_
    rw [strtoull_natText (words setting inside)]
  rcases parseLoop_cases program arguments {} with threw | accepted
  · obtain ⟨message, threw⟩ := threw
    refine .inl ⟨message, ?_⟩
    rw [parseOptions, threw]
  · obtain ⟨others, asked, again, readable⟩ := accepted
    obtain ⟨rfl, rfl⟩ := line.unique again
    have parsed := parseOptions_of_commandLine line readable
    rw [applied] at parsed
    by_cases excess : lastWord (settingBytes settings) .keywords <
        lastWord (settingBytes settings) .queries
    · refine .inl ⟨literalBytes "queries cannot exceed keywords", ?_⟩
      rw [parsed]
      simp [excess]
    · refine .inr ?_
      rw [parsed]
      simp [excess]

end Vlse.Benchmark
