import Vlse.Benchmark.ResultLine
import Vlse.Foundation.Substitution
/-!
# Redacted logs

`redact_local_identifiers.py` replaces the paths of the user, of the repository and of the results
in a stream, and then the name of the host where it stands between other letters. It works line by
line, which treats the text like a whole. Nothing local is left in what it writes, and it changes
only a text that holds something local.
-/

namespace Vlse.Benchmark

open TextLines NumberText Substitution

/-! ## The filter -/

/-- An absolute path. -/
structure AbsolutePath where
  /-- Its text. -/
  text : List Char
  /-- It starts at the root. -/
  rooted : text.head? = some '/'

/-- A path as `Path.absolute` and `Path.resolve` give it. -/
structure Location where
  /-- `str(Path(value).absolute())`. -/
  absolute : AbsolutePath
  /-- `str(Path(value).resolve())`. -/
  resolved : AbsolutePath

/-- The letters of `\w`. -/
structure WordClass where
  /-- Whether a letter is of it. -/
  isWord : Char → Bool
  /-- Those of ASCII are letters, digits and the underscore. -/
  ascii : ∀ letter : Char, letter.toNat < 128 →
    isWord letter = (letter.isAlphanum || letter = '_')

/-- What `main` knows before it reads. -/
structure Redaction where
  /-- `Path.home()`. -/
  home : Location
  /-- `args.repo_root`. -/
  repoRoot : Location
  /-- `args.result_root`. -/
  resultRoot : Location
  /-- `hostname`. -/
  hostname : List Char
  /-- The letters of words in `host_pattern`. -/
  wordClass : WordClass

/-- Why the filter stops. -/
inductive RedactionFault where
  /-- What is matched is no key of `replacements`. -/
  | keyError
deriving DecidableEq

namespace Redaction

variable (redaction : Redaction)

/-- The candidates with their labels, in the order of the loops. -/
def candidates : List (List Char × List Char) :=
  [(redaction.home, "<home>"), (redaction.repoRoot, "<repo>"),
    (redaction.resultRoot, "<results>")].flatMap fun labelled : Location × String =>
      [(labelled.1.absolute.text, labelled.2.toList), (labelled.1.resolved.text, labelled.2.toList)]

/-- `replacements`. -/
def replacements : List (List Char × List Char) :=
  setKeys [] (redaction.candidates.filter fun candidate => 1 < candidate.1.length)

/-- `paths`, with what they are replaced by. -/
def paths : List (List Char × List Char) :=
  redaction.replacements.mergeSort fun left right => right.1.length ≤ left.1.length

/-- `[\w.-]`. -/
def hostLetter (letter : Char) : Bool :=
  redaction.wordClass.isWord letter || letter = '.' || letter = '-'

/-- `path_pattern.sub`. -/
def subPaths (line : List Char) : List Char := sub (literalFinder redaction.paths) line

/-- `host_pattern`. -/
def hostFinder : Finder Char :=
  wordFinder redaction.hostLetter redaction.hostname "<host>".toList

/-- `host_pattern.sub`, if there is a pattern. -/
def subHost (line : List Char) : List Char :=
  if redaction.hostname = [] then line else sub redaction.hostFinder line

/-- The body of the loop: without paths the pattern matches the empty text, which is no key. -/
def redactLine (line : List Char) : Except RedactionFault (List Char) :=
  if redaction.paths = [] then .error .keyError
  else .ok (redaction.subHost (redaction.subPaths line))

/-- `main`: what is written for the text of `sys.stdin`. -/
def redact (text : List Char) : Except RedactionFault (List Char) :=
  ((inputLines text).mapM redaction.redactLine).map List.flatten

/-! ## What is replaced -/

/-- The names are as they usually are. -/
structure Usual : Prop where
  /-- Paths hold no label and no line end. -/
  paths : ∀ candidate ∈ redaction.candidates, '<' ∉ candidate.1 ∧ '\n' ∉ candidate.1
  /-- The name of the host is made of its letters. -/
  host : ∀ letter ∈ redaction.hostname, redaction.hostLetter letter = true
  /-- It is not the one in the label. -/
  labelled : redaction.hostname ≠ "host".toList

/-- Nothing local stands in a text. -/
structure Clean (text : List Char) : Prop where
  /-- None of the paths does. -/
  paths : ∀ candidate ∈ redaction.candidates, 1 < candidate.1.length → ¬ candidate.1 <:+: text
  /-- Nor does the name of the host between other letters. -/
  host : ∀ front rest, redaction.hostname ≠ [] → text = front ++ redaction.hostname ++ rest →
    outside redaction.hostLetter front.getLast? = true →
    outside redaction.hostLetter rest.head? = false

variable {redaction}

/-- The paths are candidates. -/
theorem mem_candidates_of_mem_paths {path : List Char × List Char}
    (listed : path ∈ redaction.paths) :
    path ∈ redaction.candidates ∧ 1 < path.1.length := by
  have entry := (mem_or_mem_of_mem_setKeys (List.mem_mergeSort.mp listed)).resolve_right
    List.not_mem_nil
  simpa using entry

/-- Every candidate but the root is one of them, with the label that was set last. -/
theorem exists_path_of_mem_candidates {candidate : List Char × List Char}
    (listed : candidate ∈ redaction.candidates) (long : 1 < candidate.1.length) :
    ∃ label, (candidate.1, label) ∈ redaction.paths := by
  have kept : candidate ∈ redaction.candidates.filter fun candidate => 1 < candidate.1.length := by
    simpa using ⟨listed, long⟩
  have key : candidate.1 ∈ redaction.replacements.map Prod.fst :=
    mem_keys_setKeys.mpr (.inl (List.mem_map_of_mem kept))
  obtain ⟨⟨text, label⟩, entry, rfl⟩ := List.mem_map.mp key
  exact ⟨label, List.mem_mergeSort.mpr entry⟩

/-- So there are paths. -/
theorem paths_ne_nil (located : ∃ candidate ∈ redaction.candidates, 1 < candidate.1.length) :
    redaction.paths ≠ [] := by
  obtain ⟨candidate, listed, long⟩ := located
  obtain ⟨label, path⟩ := exists_path_of_mem_candidates listed long
  exact List.ne_nil_of_mem path

/-- A candidate starts at the root, and its label is one of three. -/
theorem candidate_forms {candidate : List Char × List Char}
    (listed : candidate ∈ redaction.candidates) :
    candidate.1.head? = some '/' ∧
      (candidate.2 = "<home>".toList ∨ candidate.2 = "<repo>".toList ∨
        candidate.2 = "<results>".toList) := by
  simp only [candidates, List.flatMap_cons, List.flatMap_nil, List.append_nil, List.cons_append,
    List.nil_append, List.mem_cons, List.not_mem_nil, or_false] at listed
  rcases listed with rfl | rfl | rfl | rfl | rfl | rfl
  · exact ⟨redaction.home.absolute.rooted, .inl rfl⟩
  · exact ⟨redaction.home.resolved.rooted, .inl rfl⟩
  · exact ⟨redaction.repoRoot.absolute.rooted, .inr (.inl rfl)⟩
  · exact ⟨redaction.repoRoot.resolved.rooted, .inr (.inl rfl)⟩
  · exact ⟨redaction.resultRoot.absolute.rooted, .inr (.inr rfl)⟩
  · exact ⟨redaction.resultRoot.resolved.rooted, .inr (.inr rfl)⟩

/-- The letters of the labels. -/
def labelLetters : List Char := "<home><repo><results><host>".toList

/-- A label opens with a bracket and holds no slash. -/
theorem label_forms {candidate : List Char × List Char}
    (listed : candidate ∈ redaction.candidates) :
    (∃ label, candidate.2 = '<' :: label) ∧ '/' ∉ candidate.2 ∧
      ∀ letter ∈ candidate.2, letter ∈ labelLetters := by
  have kept : ∀ {label : List Char}, (label.all fun letter => labelLetters.contains letter) = true →
      ∀ letter ∈ label, letter ∈ labelLetters := fun all letter inside =>
    List.contains_iff_mem.mp (List.all_eq_true.mp all letter inside)
  rcases (candidate_forms listed).2 with same | same | same
  · rw [same]
    exact ⟨⟨_, rfl⟩, by decide, kept rfl⟩
  · rw [same]
    exact ⟨⟨_, rfl⟩, by decide, kept rfl⟩
  · rw [same]
    exact ⟨⟨_, rfl⟩, by decide, kept rfl⟩

/-- The letters of host names in ASCII. -/
theorem hostLetter_ascii {letter : Char} (ascii : letter.toNat < 128) :
    redaction.hostLetter letter =
      (letter.isAlphanum || letter = '_' || letter = '.' || letter = '-') := by
  rw [hostLetter, redaction.wordClass.ascii letter ascii]

/-! ## The text as a whole -/

variable (redaction)

/-- Both replacements in a text. -/
def change (text : List Char) : List Char := redaction.subHost (redaction.subPaths text)

variable {redaction}

/-- Line ends stop paths. -/
theorem stops_paths (usual : redaction.Usual) : Stops (literalFinder redaction.paths) '\n' := by
  refine stops_literalFinder fun path listed => ?_
  obtain ⟨candidate, long⟩ := mem_candidates_of_mem_paths listed
  exact ⟨List.ne_nil_of_length_pos (by omega), (usual.paths path candidate).2⟩

/-- They stop the name of the host. -/
theorem stops_host (usual : redaction.Usual) (named : redaction.hostname ≠ []) :
    Stops redaction.hostFinder '\n' := by
  refine stops_wordFinder usual.host named ?_
  rw [hostLetter_ascii (by decide)]
  rfl

/-- So lines are changed apart. -/
theorem change_append (usual : redaction.Usual) (line text : List Char) :
    redaction.change (line ++ '\n' :: text) =
      redaction.change line ++ '\n' :: redaction.change text := by
  have first : redaction.subPaths (line ++ '\n' :: text) =
      redaction.subPaths line ++ '\n' :: redaction.subPaths text :=
    (stops_paths usual).sub_append line text
  rw [change, change, change, first, subHost, subHost, subHost]
  split
  · rfl
  · exact (stops_host usual ‹_›).sub_append _ _

/-- What is written is the text with both replacements. -/
theorem redact_eq (usual : redaction.Usual) (located : redaction.paths ≠ []) (text : List Char) :
    redaction.redact text = .ok (redaction.change (universalNewlines text)) := by
  have lines : ∀ lines, List.mapM redaction.redactLine lines =
      .ok (lines.map redaction.change) := by
    intro lines
    induction lines with
    | nil => rfl
    | cons line lines ih =>
      rw [List.mapM_cons, ih, redactLine, if_neg located]
      rfl
  have empty : redaction.change [] = [] := by
    rw [change, subHost]
    split
    · rfl
    · rfl
  rw [redact, lines, inputLines]
  exact congrArg Except.ok (flatten_map_keepEnds (change_append usual) empty _)

/-- Its letters are those of the text and of the labels. -/
theorem mem_change {text : List Char} {letter : Char} (listed : letter ∈ redaction.change text) :
    letter ∈ text ∨ letter ∈ labelLetters := by
  have paths : letter ∈ redaction.subPaths text → letter ∈ text ∨ letter ∈ labelLetters := by
    refine mem_subFrom fun before text length replacement matched => ?_
    obtain ⟨path, found, rfl⟩ := literalFinder_eq_some matched
    exact (label_forms (mem_candidates_of_mem_paths found).1).2.2
  rw [change, subHost] at listed
  split at listed
  · exact paths listed
  · refine (mem_subFrom (fun before text length replacement matched => ?_) listed).elim paths .inr
    obtain ⟨-, rfl, -⟩ := wordFinder_eq_some matched
    intro letter inside
    exact (List.suffix_append "<home><repo><results>".toList _).subset inside

/-- What nothing local stands in is unchanged. -/
theorem Clean.change_eq {text : List Char} (clean : redaction.Clean text) :
    redaction.change text = text := by
  have paths : redaction.subPaths text = text := by
    refine subFrom_eq_self (noMatch_literals fun path listed => ?_)
    obtain ⟨candidate, long⟩ := mem_candidates_of_mem_paths listed
    exact clean.paths path candidate long
  rw [change, paths, subHost]
  split
  · rfl
  · rename_i named
    refine subFrom_eq_self (noMatch_of_places fun front rest same _ => ?_)
    refine wordFinder_eq_none.mpr fun after starts free => ?_
    rw [Option.or_none] at free
    rw [starts, ← List.append_assoc] at same
    exact clean.host front after named same free

/-- No path stands in what is written: labels hold no slash, and paths no label. -/
theorem not_infix_change (usual : redaction.Usual) {candidate : List Char × List Char}
    (listed : candidate ∈ redaction.candidates) (long : 1 < candidate.1.length)
    (text : List Char) : ¬ candidate.1 <:+: redaction.change text := by
  intro stands
  have unmarked := (usual.paths candidate listed).1
  obtain ⟨label, path⟩ := exists_path_of_mem_candidates listed long
  have replaced : ¬ candidate.1 <:+: redaction.subPaths text :=
    not_infix_sub (fun path found => (label_forms (mem_candidates_of_mem_paths found).1).1)
      (fun path found => (label_forms (mem_candidates_of_mem_paths found).1).2.1) path
      (candidate_forms listed).1 unmarked text
  rw [change, subHost] at stands
  split at stands
  · exact replaced stands
  · obtain ⟨rest, slash⟩ := List.head?_eq_some_iff.mp (candidate_forms listed).1
    rw [slash] at stands replaced unmarked
    have fresh : ∀ before text length replacement,
        redaction.hostFinder before text = some (length, replacement) → '/' ∉ replacement := by
      intro before text length replacement matched
      obtain ⟨-, rfl, -⟩ := wordFinder_eq_some matched
      decide
    obtain ⟨-, behind, inside, starts, -⟩ :=
      exists_of_infix (marked_wordFinder '<' "host>".toList) unmarked fresh stands
    exact replaced (starts.isInfix.trans inside.isInfix)

/-- The brackets of a label are no letters of host names, and those between them are. -/
theorem hostLetter_label :
    redaction.hostLetter '<' = false ∧ redaction.hostLetter '>' = false ∧
      ∀ letter ∈ "host".toList, redaction.hostLetter letter = true := by
  refine ⟨?_, ?_, fun letter listed => ?_⟩
  · rw [hostLetter_ascii (by decide)]
    rfl
  · rw [hostLetter_ascii (by decide)]
    rfl
  · have kept : ("host".toList.all fun letter =>
        letter.toNat < 128 && letter.isAlphanum) = true := rfl
    have ascii := List.all_eq_true.mp kept letter listed
    rw [Bool.and_eq_true, decide_eq_true_eq] at ascii
    rw [hostLetter_ascii ascii.1, ascii.2]
    rfl

/-- The name of the host is not left between other letters. -/
theorem noMatch_change (usual : redaction.Usual) (named : redaction.hostname ≠ [])
    (text : List Char) : NoMatch redaction.hostFinder none (redaction.change text) := by
  obtain ⟨opens, closes, letters⟩ := @hostLetter_label redaction
  rw [change, subHost, if_neg named]
  exact noMatch_subFrom usual.host named opens closes letters usual.labelled.symm
    (redaction.subPaths text) none none (.inl rfl)

/-- Nothing local stands in what is written. -/
theorem clean_change (usual : redaction.Usual) (text : List Char) :
    redaction.Clean (redaction.change text) := by
  refine ⟨fun candidate listed long => not_infix_change usual listed long text, ?_⟩
  intro front rest named same free
  have replaced := noMatch_change usual named text
  rw [same, List.append_assoc] at replaced
  have unmatched := replaced.at_append (List.append_ne_nil_of_left_ne_nil named rest)
  rw [Option.or_none] at unmatched
  exact wordFinder_eq_none.mp unmatched rest rfl free

/-- Without a path to replace the first line is a fault. -/
theorem redact_keyError (none : ∀ candidate ∈ redaction.candidates, candidate.1.length ≤ 1)
    {text : List Char} (nonempty : text ≠ []) : redaction.redact text = .error .keyError := by
  have nothing : redaction.paths = [] := by
    refine List.eq_nil_iff_forall_not_mem.mpr fun path listed => ?_
    obtain ⟨candidate, long⟩ := mem_candidates_of_mem_paths listed
    have short := none path candidate
    omega
  obtain ⟨letter, rest, same⟩ : ∃ letter rest, universalNewlines text = letter :: rest := by
    cases text with
    | nil => contradiction
    | cons letter text =>
      rw [universalNewlines.eq_def]
      split
      · contradiction
      · exact ⟨_, _, rfl⟩
      · exact ⟨_, _, rfl⟩
  obtain ⟨line, lines, read⟩ : ∃ line lines, inputLines text = line :: lines := by
    rw [inputLines, same, keepEnds]
    split
    · exact ⟨_, _, rfl⟩
    · split
      · exact ⟨_, _, rfl⟩
      · exact ⟨_, _, rfl⟩
  rw [redact, read, List.mapM_cons, redactLine, if_pos nothing]
  rfl

/-- Where there is a path to replace, nothing local stands in what is written, and only a text where
something local stands is changed. -/
theorem redact_clean (usual : redaction.Usual)
    (located : ∃ candidate ∈ redaction.candidates, 1 < candidate.1.length) (text : List Char) :
    (∃ log, redaction.redact text = .ok log ∧ redaction.Clean log ∧
      redaction.redact log = .ok log) ∧
      ('\r' ∉ text → (redaction.redact text = .ok text ↔ redaction.Clean text)) := by
  have known := paths_ne_nil located
  have unchanged : ∀ {text}, '\r' ∉ text → redaction.Clean text →
      redaction.redact text = .ok text := by
    intro text free clean
    rw [redact_eq usual known, universalNewlines_eq_self free, clean.change_eq]
  refine ⟨⟨_, redact_eq usual known text, clean_change usual _,
    unchanged ?_ (clean_change usual _)⟩, fun free => ⟨fun same => ?_, unchanged free⟩⟩
  · intro listed
    rcases mem_change listed with inside | label
    · exact not_mem_universalNewlines text inside
    · exact absurd label (by decide)
  · rw [redact_eq usual known, universalNewlines_eq_self free] at same
    rw [← Except.ok.inj same]
    exact clean_change usual text

end Redaction

/-- A path without symbolic links. -/
def Location.plain (text : List Char) (rooted : text.head? = some '/') : Location :=
  ⟨⟨text, rooted⟩, ⟨text, rooted⟩⟩

/-- A host with the repository in a home directory. -/
def labRedaction : Redaction where
  home := .plain "/home/user".toList rfl
  repoRoot := .plain "/home/user/vlse".toList rfl
  resultRoot := .plain "/home/user/vlse/results/paired_vlse".toList rfl
  hostname := "mars.local".toList
  wordClass := ⟨fun letter => letter.isAlphanum || letter = '_', fun _ _ => rfl⟩

/-- Its names are as usual. -/
theorem labRedaction_usual : labRedaction.Usual where
  paths candidate listed := by
    have plain : (labRedaction.candidates.all fun candidate =>
        !candidate.1.contains '<' && !candidate.1.contains '\n') = true := rfl
    simpa using List.all_eq_true.mp plain candidate listed
  host := List.all_eq_true.mp (by rfl)
  labelled := by decide

/-- It has paths. -/
theorem labRedaction_located : ∃ candidate ∈ labRedaction.candidates, 1 < candidate.1.length :=
  ⟨("/home/user".toList, "<home>".toList), .head _, by decide⟩

/-- A line with a path and the name of the host. -/
theorem redact_clean_lab :
    ∃ log, labRedaction.redact "mars.local:/home/user/vlse\n".toList = .ok log ∧
      labRedaction.Clean log ∧ labRedaction.redact log = .ok log :=
  (Redaction.redact_clean labRedaction_usual labRedaction_located _).1

end Vlse.Benchmark
