import Mathlib.Data.List.TakeWhile
/-!
# Words and lines of a text

A text is split into words at blanks, into lines at line ends, and a word into a key and a value at
the first separator. Splitting undoes joining: words without blanks joined by a blank are found
again, and so are lines without line ends, each followed by one. A stream is read line by line, each
line with its end; what treats the lines alone and leaves their ends treats the text alike.
-/

namespace Vlse.TextLines

variable {α : Type*}

/-- A text passes a search for letters with a property. -/
theorem none_of_all {property : α → Bool} {text : List α}
    (all : (text.all fun letter => !property letter) = true) :
    ∀ letter ∈ text, property letter = false := fun letter listed => by
  simpa using List.all_eq_true.mp all letter listed

/-! ## Words -/

section Words

variable (blank : α → Bool)

/-- Split at blanks, with the letters of the current word in reverse. -/
def wordsFrom : List α → List α → List (List α)
  | current, [] => if current.isEmpty then [] else [current.reverse]
  | current, letter :: text =>
    if blank letter then
      if current.isEmpty then wordsFrom [] text else current.reverse :: wordsFrom [] text
    else wordsFrom (letter :: current) text

/-- The longest stretches of a text without blanks. -/
def words (text : List α) : List (List α) := wordsFrom blank [] text

/-- A text without the blanks at both ends. -/
def strip (text : List α) : List α :=
  ((text.dropWhile blank).reverse.dropWhile blank).reverse

variable {blank}

/-- Letters other than blanks are gathered. -/
theorem wordsFrom_append {word : List α} (solid : ∀ letter ∈ word, blank letter = false)
    (current text : List α) :
    wordsFrom blank current (word ++ text) = wordsFrom blank (word.reverse ++ current) text := by
  induction word generalizing current with
  | nil => rfl
  | cons letter word ih =>
    have first := solid letter List.mem_cons_self
    have later := ih fun other member => solid other (List.mem_cons_of_mem letter member)
    rw [List.cons_append, wordsFrom, if_neg (by simp [first]), later, List.reverse_cons,
      List.append_assoc, List.singleton_append]

/-- Blanks after a text hold no word. -/
theorem wordsFrom_append_blanks {blanks : List α} (all : ∀ letter ∈ blanks, blank letter = true)
    (current text : List α) :
    wordsFrom blank current (text ++ blanks) = wordsFrom blank current text := by
  induction text generalizing current with
  | nil =>
    induction blanks generalizing current with
    | nil => rfl
    | cons letter blanks ih =>
      have first := all letter List.mem_cons_self
      have later := ih (fun other member => all other (List.mem_cons_of_mem letter member)) []
      rw [List.nil_append] at later
      rw [List.nil_append, wordsFrom.eq_2, if_pos first, later]
      cases current with
      | nil => rfl
      | cons last current => rfl
  | cons letter text ih =>
    rw [List.cons_append, wordsFrom, wordsFrom, ih, ih]

/-- Nor do blanks before it. -/
theorem words_dropWhile (text : List α) :
    words blank (text.dropWhile blank) = words blank text := by
  induction text with
  | nil => rfl
  | cons letter text ih =>
    by_cases first : blank letter
    · rw [List.dropWhile_cons_of_pos first, ih, words, words, wordsFrom, if_pos first]
      rfl
    · rw [List.dropWhile_cons_of_neg first]

/-- Stripping keeps the words. -/
theorem words_strip (text : List α) : words blank (strip blank text) = words blank text := by
  have parts : text.dropWhile blank = strip blank text ++
      ((text.dropWhile blank).reverse.takeWhile blank).reverse := by
    rw [strip, ← List.reverse_append, List.takeWhile_append_dropWhile, List.reverse_reverse]
  have blanks : ∀ letter ∈ ((text.dropWhile blank).reverse.takeWhile blank).reverse,
      blank letter = true := by
    intro letter listed
    exact List.mem_takeWhile_imp (List.mem_reverse.mp listed)
  calc words blank (strip blank text)
      = words blank (strip blank text ++
          ((text.dropWhile blank).reverse.takeWhile blank).reverse) :=
        (wordsFrom_append_blanks blanks [] _).symm
    _ = words blank (text.dropWhile blank) := by rw [← parts]
    _ = words blank text := words_dropWhile text

/-- A text without blanks is stripped of nothing. -/
theorem strip_eq_self {text : List α} (solid : ∀ letter ∈ text, blank letter = false) :
    strip blank text = text := by
  have front : ∀ {text : List α}, (∀ letter ∈ text, blank letter = false) →
      text.dropWhile blank = text := by
    intro text solid
    cases text with
    | nil => rfl
    | cons letter text =>
      exact List.dropWhile_cons_of_neg (by simp [solid letter List.mem_cons_self])
  rw [strip, front solid, front fun letter member => solid letter (List.mem_reverse.mp member),
    List.reverse_reverse]

/-- Words joined by a blank are found again. -/
theorem words_join {separator : α} (separates : blank separator = true) {first : List α}
    {others : List (List α)}
    (solid : ∀ word ∈ first :: others, word ≠ [] ∧ ∀ letter ∈ word, blank letter = false) :
    words blank (first ++ others.flatMap (separator :: ·)) = first :: others := by
  induction others generalizing first with
  | nil =>
    obtain ⟨nonempty, letters⟩ := solid first List.mem_cons_self
    rw [words, wordsFrom_append letters, List.append_nil, List.flatMap_nil, wordsFrom]
    simp [nonempty]
  | cons second others ih =>
    obtain ⟨nonempty, letters⟩ := solid first List.mem_cons_self
    have rest := ih fun word member => solid word (List.mem_cons_of_mem first member)
    rw [words] at rest
    rw [words, wordsFrom_append letters, List.append_nil, List.flatMap_cons, List.cons_append,
      wordsFrom, if_pos separates, rest]
    simp [nonempty]

end Words

/-! ## Keys and values -/

/-- The parts of a text before and after the first separator, if it has one. -/
def splitOnce [DecidableEq α] (separator : α) (text : List α) : Option (List α × List α) :=
  match text.dropWhile (· ≠ separator) with
  | [] => none
  | _ :: value => some (text.takeWhile (· ≠ separator), value)

/-- A key without the separator is split off. -/
theorem splitOnce_append [DecidableEq α] {separator : α} {key : List α} (free : separator ∉ key)
    (value : List α) : splitOnce separator (key ++ separator :: value) = some (key, value) := by
  have other : ∀ letter ∈ key, decide (letter ≠ separator) = true := by
    intro letter member
    refine decide_eq_true fun same => free ?_
    rwa [← same]
  have before : (key ++ separator :: value).takeWhile (· ≠ separator) = key := by
    rw [List.takeWhile_append_of_pos other, List.takeWhile_cons_of_neg (by simp), List.append_nil]
  have after : (key ++ separator :: value).dropWhile (· ≠ separator) = separator :: value := by
    rw [List.dropWhile_append_of_pos other, List.dropWhile_cons_of_neg (by simp)]
  rw [splitOnce, after, before]

/-! ## Lines -/

/-- The line ends of a text, other than the two letters that make one. -/
def isLineEnd (letter : Char) : Bool :=
  (10 ≤ letter.toNat ∧ letter.toNat ≤ 13) ∨ (28 ≤ letter.toNat ∧ letter.toNat ≤ 30) ∨
    letter.toNat = 0x85 ∨ letter.toNat = 0x2028 ∨ letter.toNat = 0x2029

/-- Split at line ends, with the letters of the current line in reverse. -/
def linesFrom : List Char → List Char → List (List Char)
  | current, [] => if current.isEmpty then [] else [current.reverse]
  | current, '\r' :: '\n' :: text => current.reverse :: linesFrom [] text
  | current, letter :: text =>
    if isLineEnd letter then current.reverse :: linesFrom [] text
    else linesFrom (letter :: current) text

/-- `str.splitlines`. -/
def splitLines (text : List Char) : List (List Char) := linesFrom [] text

/-- Letters other than line ends are gathered. -/
theorem linesFrom_append {line : List Char} (solid : ∀ letter ∈ line, isLineEnd letter = false)
    (current text : List Char) :
    linesFrom current (line ++ text) = linesFrom (line.reverse ++ current) text := by
  induction line generalizing current with
  | nil => rfl
  | cons letter line ih =>
    have first := solid letter List.mem_cons_self
    have later := ih fun other member => solid other (List.mem_cons_of_mem letter member)
    have other : letter ≠ '\r' := by
      rintro rfl
      exact absurd first (by decide)
    rw [List.cons_append, linesFrom, if_neg (by simp [first]), later, List.reverse_cons,
      List.append_assoc, List.singleton_append]
    intro text same
    exact absurd same other

/-- Lines without line ends, each followed by one, are found again. -/
theorem splitLines_join (lines : List (List Char))
    (solid : ∀ line ∈ lines, ∀ letter ∈ line, isLineEnd letter = false) :
    splitLines (lines.flatMap (· ++ ['\n'])) = lines := by
  induction lines with
  | nil => rfl
  | cons line lines ih =>
    have first := solid line List.mem_cons_self
    have rest := ih fun other member => solid other (List.mem_cons_of_mem line member)
    rw [splitLines] at rest
    rw [splitLines, List.flatMap_cons, List.append_assoc, linesFrom_append first,
      List.singleton_append, linesFrom, if_pos (by decide), rest, List.append_nil,
      List.reverse_reverse]
    intro text same
    exact absurd same (by decide)

/-! ## Streams -/

/-- A stream writes every line end as one letter. -/
def universalNewlines : List Char → List Char
  | [] => []
  | '\r' :: '\n' :: text => '\n' :: universalNewlines text
  | letter :: text => (if letter = '\r' then '\n' else letter) :: universalNewlines text

/-- The lines of a text, each with the separator behind it. -/
def keepEnds [DecidableEq α] (separator : α) : List α → List (List α)
  | [] => []
  | letter :: text =>
    if letter = separator then [letter] :: keepEnds separator text
    else match keepEnds separator text with
      | [] => [[letter]]
      | line :: lines => (letter :: line) :: lines

/-- The lines that a loop over a stream takes. -/
def inputLines (text : List Char) : List (List Char) := keepEnds '\n' (universalNewlines text)

/-- A text without returns is read as it is. -/
theorem universalNewlines_eq_self {text : List Char} (free : '\r' ∉ text) :
    universalNewlines text = text := by
  induction text with
  | nil => rfl
  | cons letter text ih =>
    rw [List.mem_cons, not_or] at free
    rw [universalNewlines, if_neg (Ne.symm free.1), ih free.2]
    rintro text rfl
    exact absurd rfl free.1

/-- Nothing that is read is a return. -/
theorem not_mem_universalNewlines (text : List Char) : '\r' ∉ universalNewlines text := by
  induction text using universalNewlines.induct with
  | case1 => exact List.not_mem_nil
  | case2 text ih =>
    rw [universalNewlines, List.mem_cons, not_or]
    exact ⟨by decide, ih⟩
  | case3 letter text other ih =>
    rw [universalNewlines, List.mem_cons, not_or]
    · refine ⟨?_, ih⟩
      split
      · decide
      · exact fun same => absurd same.symm ‹_›
    · exact other

/-- The first line. -/
theorem keepEnds_append [DecidableEq α] {separator : α} {line : List α} (free : separator ∉ line)
    (text : List α) :
    keepEnds separator (line ++ separator :: text) =
      (line ++ [separator]) :: keepEnds separator text := by
  induction line with
  | nil => rw [List.nil_append, keepEnds, if_pos rfl, List.nil_append]
  | cons letter line ih =>
    rw [List.mem_cons, not_or] at free
    rw [List.cons_append, keepEnds, if_neg (Ne.symm free.1), ih free.2]
    rfl

/-- A text without the separator is one line. -/
theorem keepEnds_of_not_mem [DecidableEq α] {separator letter : α} {text : List α}
    (free : separator ∉ letter :: text) :
    keepEnds separator (letter :: text) = [letter :: text] := by
  induction text generalizing letter with
  | nil => rw [keepEnds, if_neg (Ne.symm (List.ne_of_not_mem_cons free)), keepEnds]
  | cons second text ih =>
    rw [List.mem_cons, not_or] at free
    rw [keepEnds, if_neg (Ne.symm free.1), ih free.2]

/-- What maps lines one by one and leaves out their ends maps the text. -/
theorem flatten_map_keepEnds [DecidableEq α] {separator : α} {change : List α → List α}
    (lines : ∀ line text, change (line ++ separator :: text) =
      change line ++ separator :: change text)
    (empty : change [] = []) (text : List α) :
    ((keepEnds separator text).map change).flatten = change text := by
  induction size : text.length using Nat.strong_induction_on generalizing text with
  | _ size ih =>
    subst size
    by_cases listed : separator ∈ text
    · obtain ⟨line, rest, rfl, free⟩ := List.eq_append_cons_of_mem listed
      have later := ih rest.length (by simp; omega) rest rfl
      rw [keepEnds_append free, List.map_cons, List.flatten_cons, lines, lines, empty, later,
        List.append_assoc, List.singleton_append]
    · cases text with
      | nil => exact empty.symm
      | cons letter text =>
        rw [keepEnds_of_not_mem listed, List.map_singleton, List.flatten_singleton]

end Vlse.TextLines
