import Mathlib.Data.List.Infix
import Mathlib.Tactic.Common
/-!
# Substitution in a text

The `sub` of a regular expression goes through a text from the left. Where a match starts, it writes
the replacement and goes on behind the match; elsewhere it keeps the letter. When replacements start
with a mark that a pattern does not hold, what it finds afterwards stood in the text before. So no
match of a literal pattern is left, and none of a word between other letters, unless the replacement
holds the word itself.
-/

namespace Vlse.Substitution

variable {α : Type*}

/-- What is matched at a place: from the letter before it and the text there, the length of the
match and its replacement. -/
abbrev Finder (α : Type*) := Option α → List α → Option (Nat × List α)

/-- The text with its matches replaced, from a place on where some letters of the last match are
left over. -/
def subFrom (find : Finder α) : Option α → Nat → List α → List α
  | _, _, [] => []
  | _, left + 1, letter :: text => subFrom find (some letter) left text
  | before, 0, letter :: text =>
    match find before (letter :: text) with
    | some (length, replacement) => replacement ++ subFrom find (some letter) (length - 1) text
    | none => letter :: subFrom find (some letter) 0 text

/-- The text with its matches replaced. -/
def sub (find : Finder α) (text : List α) : List α := subFrom find none 0 text

/-- Nothing is matched in a text. -/
def NoMatch (find : Finder α) : Option α → List α → Prop
  | _, [] => True
  | before, letter :: text => find before (letter :: text) = none ∧ NoMatch find (some letter) text

/-- Replacements start with a mark. -/
def Marked (find : Finder α) (mark : α) : Prop :=
  ∀ before text length replacement, find before text = some (length, replacement) →
    ∃ label, replacement = mark :: label

/-- A pattern does not start in letters without its first one. -/
theorem infix_of_append {first : α} {word label text : List α} (outside : first ∉ label)
    (stands : first :: word <:+: label ++ text) : first :: word <:+: text := by
  induction label with
  | nil => exact stands
  | cons letter label ih =>
    rw [List.mem_cons, not_or] at outside
    rcases List.infix_cons_iff.mp stands with starts | inside
    · exact absurd (List.cons_prefix_cons.mp starts).1 outside.1
    · exact ih outside.2 inside

/-- A pattern starts before a letter that is not of it, if it does. -/
theorem prefix_append_iff {word text rest : List α} {stop : α} (free : stop ∉ word) :
    word <+: text ++ stop :: rest ↔ word <+: text := by
  refine ⟨fun starts => ?_, fun starts => starts.trans (List.prefix_append text _)⟩
  obtain ⟨after, same⟩ := starts
  rcases List.append_eq_append_iff.mp same with ⟨behind, rfl, -⟩ | ⟨overlap, rfl, later⟩
  · exact List.prefix_append word behind
  · cases overlap with
    | nil => simp
    | cons letter overlap =>
      obtain ⟨rfl, -⟩ := List.cons.inj later
      exact absurd (List.mem_append_right text List.mem_cons_self) free

section Texts

variable {find : Finder α}

/-- A text without matches is unchanged. -/
theorem subFrom_eq_self {before : Option α} {text : List α} (clean : NoMatch find before text) :
    subFrom find before 0 text = text := by
  induction text generalizing before with
  | nil => rfl
  | cons letter text ih =>
    rw [subFrom, clean.1]
    exact congrArg (letter :: ·) (ih clean.2)

/-- Where nothing is matched in a text, nothing is at any of its places. -/
theorem NoMatch.at_append {before : Option α} {front rest : List α}
    (clean : NoMatch find before (front ++ rest)) (some : rest ≠ []) :
    find ((front.getLast?).or before) rest = none := by
  induction front generalizing before with
  | nil =>
    obtain ⟨letter, rest, rfl⟩ := List.exists_cons_of_ne_nil some
    exact clean.1
  | cons letter front ih =>
    have later := ih clean.2
    cases front with
    | nil => exact later
    | cons second front =>
      rw [List.getLast?_cons_cons, List.getLast?_cons, Option.some_or]
      rwa [List.getLast?_cons, Option.some_or] at later

/-- Nothing is matched in a text where nothing is at its places. -/
theorem noMatch_of_places {before : Option α} {text : List α}
    (places : ∀ front rest, text = front ++ rest → rest ≠ [] →
      find ((front.getLast?).or before) rest = none) : NoMatch find before text := by
  induction text generalizing before with
  | nil => trivial
  | cons letter text ih =>
    refine ⟨places [] _ rfl (List.cons_ne_nil _ _), ih fun front rest same some => ?_⟩
    have place := places (letter :: front) rest (congrArg (letter :: ·) same) some
    cases front with
    | nil => exact place
    | cons second front =>
      rw [List.getLast?_cons_cons, List.getLast?_cons, Option.some_or] at place
      rwa [List.getLast?_cons, Option.some_or]

/-- The letters left over are passed. -/
theorem subFrom_drop (before : Option α) (left : Nat) (text : List α) :
    ∃ passed, subFrom find before left text = subFrom find passed 0 (text.drop left) := by
  induction text generalizing before left with
  | nil => exact ⟨before, by rw [List.drop_nil]; cases left <;> rfl⟩
  | cons letter text ih =>
    cases left with
    | zero => exact ⟨before, rfl⟩
    | succ left =>
      obtain ⟨passed, same⟩ := ih (some letter) left
      exact ⟨passed, by rw [subFrom, same, List.drop_succ_cons]⟩

/-- The letters of the result are those of the text and of the replacements. -/
theorem mem_subFrom {labels : List α} (written : ∀ before text length replacement,
      find before text = some (length, replacement) → ∀ letter ∈ replacement, letter ∈ labels)
    {before : Option α} {left : Nat} {text : List α} {letter : α}
    (listed : letter ∈ subFrom find before left text) : letter ∈ text ∨ letter ∈ labels := by
  induction text generalizing before left with
  | nil =>
    cases left with
    | zero => contradiction
    | succ left => contradiction
  | cons first text ih =>
    have later : ∀ {before left}, letter ∈ subFrom find before left text →
        letter ∈ first :: text ∨ letter ∈ labels :=
      fun listed => (ih listed).imp_left (List.mem_cons_of_mem first)
    cases left with
    | succ left => exact later listed
    | zero =>
      rw [subFrom] at listed
      split at listed
      · rename_i matched
        rcases List.mem_append.mp listed with label | rest
        · exact .inr (written _ _ _ _ matched letter label)
        · exact later rest
      · rcases List.mem_cons.mp listed with rfl | rest
        · exact .inl List.mem_cons_self
        · exact later rest

variable {mark : α} (marked : Marked find mark)

include marked

/-- Letters other than the mark at the start of the result stood there in the text. -/
theorem exists_rest_of_append {word : List α} (unmarked : mark ∉ word) {before : Option α}
    {text rest : List α} (result : subFrom find before 0 text = word ++ rest) :
    ∃ after, text = word ++ after ∧
      rest = subFrom find ((word.getLast?).or before) 0 after := by
  induction word generalizing before text with
  | nil => exact ⟨text, rfl, result.symm⟩
  | cons letter word ih =>
    rw [List.mem_cons, not_or] at unmarked
    cases text with
    | nil => contradiction
    | cons first text =>
      rw [subFrom, List.cons_append] at result
      split at result
      · rename_i matched
        obtain ⟨label, rfl⟩ := marked _ _ _ _ matched
        rw [List.cons_append] at result
        exact absurd (List.cons.inj result).1 unmarked.1
      · obtain ⟨rfl, later⟩ := List.cons.inj result
        obtain ⟨after, rfl, same⟩ := ih unmarked.2 later
        refine ⟨after, rfl, same.trans ?_⟩
        congr 1
        cases word with
        | nil => rfl
        | cons second word => rw [List.getLast?_cons_cons, List.getLast?_cons, Option.some_or,
            Option.some_or]

/-- So a pattern without the mark starts the result only where it starts the text. -/
theorem prefix_of_prefix {word : List α} (unmarked : mark ∉ word) {before : Option α}
    {text : List α} (starts : word <+: subFrom find before 0 text) : word <+: text := by
  obtain ⟨rest, result⟩ := starts
  obtain ⟨after, rfl, -⟩ := exists_rest_of_append marked unmarked result.symm
  exact List.prefix_append word after

/-- A pattern without the mark whose first letter is in no replacement stands in the result only
where it stood in the text and nothing was matched. -/
theorem exists_of_infix {first : α} {word : List α} (unmarked : mark ∉ first :: word)
    (fresh : ∀ before text length replacement, find before text = some (length, replacement) →
      first ∉ replacement)
    {before : Option α} {left : Nat} {text : List α}
    (stands : first :: word <:+: subFrom find before left text) :
    ∃ passed rest, rest <:+ text ∧ first :: word <+: rest ∧ find passed rest = none := by
  induction text generalizing before left with
  | nil =>
    cases left with
    | zero => exact absurd (List.infix_nil.mp stands) (List.cons_ne_nil _ _)
    | succ left => exact absurd (List.infix_nil.mp stands) (List.cons_ne_nil _ _)
  | cons letter text ih =>
    have later : ∀ {before left}, first :: word <:+: subFrom find before left text →
        ∃ passed rest, rest <:+ letter :: text ∧ first :: word <+: rest ∧
          find passed rest = none := by
      intro before left stands
      obtain ⟨passed, rest, inside, starts, unmatched⟩ := ih stands
      exact ⟨passed, rest, inside.trans (List.suffix_cons letter text), starts, unmatched⟩
    cases left with
    | succ left => exact later stands
    | zero =>
      rw [subFrom] at stands
      split at stands
      · rename_i matched
        exact later (infix_of_append (fresh _ _ _ _ matched) stands)
      · rename_i unmatched
        rcases List.infix_cons_iff.mp stands with starts | inside
        · obtain ⟨rfl, rest⟩ := List.cons_prefix_cons.mp starts
          have before := prefix_of_prefix marked (fun held =>
            unmarked (List.mem_cons_of_mem first held)) rest
          exact ⟨_, first :: text, List.suffix_refl _, List.cons_prefix_cons.mpr ⟨rfl, before⟩,
            unmatched⟩
        · exact later inside

end Texts

/-! ## Stops -/

section Stops

/-- A letter that stops matches: a text goes on behind it as if it started there. -/
structure Stops (find : Finder α) (stop : α) : Prop where
  /-- No letter from it on is needed to match before it. -/
  ahead : ∀ before text rest, find before (text ++ stop :: rest) = find before text
  /-- Behind it a text is matched as at its start. -/
  behind : ∀ text, find (some stop) text = find none text
  /-- Matches are of letters of the text. -/
  within : ∀ before text length replacement, find before text = some (length, replacement) →
    0 < length ∧ length ≤ text.length

variable {find : Finder α} {stop : α} (stops : Stops find stop)

include stops

/-- Texts on both sides of a stop are treated apart. -/
theorem Stops.subFrom_append {before : Option α} {left : Nat} {text : List α}
    (inside : left ≤ text.length) (rest : List α) :
    subFrom find before left (text ++ stop :: rest) =
      subFrom find before left text ++ stop :: sub find rest := by
  induction text generalizing before left with
  | nil =>
    obtain rfl := Nat.le_zero.mp inside
    have unmatched : find before (stop :: rest) = none := by
      by_contra matched
      obtain ⟨found, matched⟩ := Option.ne_none_iff_exists'.mp matched
      have short := stops.ahead before [] rest
      rw [List.nil_append, matched] at short
      have bounds := stops.within _ _ _ _ short.symm
      exact absurd bounds.1 (by simpa using bounds.2)
    have after : subFrom find (some stop) 0 rest = sub find rest := by
      cases rest with
      | nil => rfl
      | cons letter rest => rw [sub, subFrom, subFrom, stops.behind]
    have nothing : subFrom find before 0 [] = [] := rfl
    rw [nothing, List.nil_append, List.nil_append, subFrom, unmatched]
    exact congrArg (stop :: ·) after
  | cons letter text ih =>
    cases left with
    | succ left =>
      rw [List.cons_append, subFrom, subFrom]
      exact ih (Nat.le_of_succ_le_succ inside)
    | zero =>
      have same := stops.ahead before (letter :: text) rest
      rw [List.cons_append] at same
      rw [List.cons_append, subFrom, subFrom, same]
      split
      · rename_i length label matched
        have bounds := stops.within _ _ _ _ matched
        rw [List.length_cons] at bounds
        have later := @ih (some letter) (length - 1) (by omega)
        rw [later, List.append_assoc]
      · rw [ih (Nat.zero_le _), List.cons_append]

/-- So the lines of a text are. -/
theorem Stops.sub_append (text rest : List α) :
    sub find (text ++ stop :: rest) = sub find text ++ stop :: sub find rest :=
  stops.subFrom_append (Nat.zero_le _) rest

end Stops

/-! ## Literals -/

section Literals

variable [DecidableEq α]

/-- Literals are matched in their order, and each replaced by its label. -/
def literalFinder (literals : List (List α × List α)) : Finder α := fun _ text =>
  (literals.find? fun literal => literal.1.isPrefixOf text).map fun literal =>
    (literal.1.length, literal.2)

variable {literals : List (List α × List α)}

/-- Nothing is matched where no literal starts. -/
theorem literalFinder_eq_none {before : Option α} {text : List α} :
    literalFinder literals before text = none ↔ ∀ literal ∈ literals, ¬ literal.1 <+: text := by
  simp [literalFinder]

/-- A match is that of a literal. -/
theorem literalFinder_eq_some {before : Option α} {text label : List α} {length : Nat}
    (matched : literalFinder literals before text = some (length, label)) :
    ∃ literal ∈ literals, label = literal.2 := by
  obtain ⟨literal, found, same⟩ := Option.map_eq_some_iff.mp matched
  exact ⟨literal, List.mem_of_find?_eq_some found, (Prod.mk.inj same).2.symm⟩

/-- Nothing is matched in a text that holds no literal. -/
theorem noMatch_literals {before : Option α} {text : List α}
    (free : ∀ literal ∈ literals, ¬ literal.1 <:+: text) :
    NoMatch (literalFinder literals) before text := by
  induction text generalizing before with
  | nil => trivial
  | cons letter text ih =>
    refine ⟨literalFinder_eq_none.mpr fun literal listed starts =>
      free literal listed starts.isInfix, ih fun literal listed stands => ?_⟩
    exact free literal listed (stands.trans (List.suffix_cons letter text).isInfix)

/-- Where labels start with a mark that no literal holds, and hold the first letter of none, no
literal is left. -/
theorem not_infix_sub {mark : α}
    (labelled : ∀ literal ∈ literals, ∃ label, literal.2 = mark :: label) {first : α}
    (fresh : ∀ literal ∈ literals, first ∉ literal.2) {literal : List α × List α}
    (listed : literal ∈ literals) (starts : literal.1.head? = some first)
    (unmarked : mark ∉ literal.1) (text : List α) :
    ¬ literal.1 <:+: sub (literalFinder literals) text := by
  have marked : Marked (literalFinder literals) mark := by
    intro before text length label matched
    obtain ⟨literal, listed, rfl⟩ := literalFinder_eq_some matched
    exact labelled literal listed
  have absent : ∀ before text length label, literalFinder literals before text =
      some (length, label) → first ∉ label := by
    intro before text length label matched
    obtain ⟨literal, listed, rfl⟩ := literalFinder_eq_some matched
    exact fresh literal listed
  obtain ⟨pattern, label⟩ := literal
  obtain ⟨word, rfl⟩ := List.head?_eq_some_iff.mp starts
  intro stands
  obtain ⟨passed, rest, -, begins, unmatched⟩ := exists_of_infix marked unmarked absent stands
  exact literalFinder_eq_none.mp unmatched _ listed begins

/-- A letter in no literal stops them. -/
theorem stops_literalFinder {stop : α}
    (free : ∀ literal ∈ literals, literal.1 ≠ [] ∧ stop ∉ literal.1) :
    Stops (literalFinder literals) stop where
  ahead before text rest := by
    have same : ∀ literal ∈ literals,
        literal.1.isPrefixOf (text ++ stop :: rest) = literal.1.isPrefixOf text := by
      intro literal listed
      rw [Bool.eq_iff_iff, List.isPrefixOf_iff_prefix, List.isPrefixOf_iff_prefix]
      exact prefix_append_iff (free literal listed).2
    rw [literalFinder, literalFinder, ← List.head?_filter, ← List.head?_filter,
      List.filter_congr same]
  behind text := rfl
  within before text length label matched := by
    obtain ⟨literal, found, same⟩ := Option.map_eq_some_iff.mp matched
    obtain ⟨rfl, rfl⟩ := Prod.mk.inj same
    have listed := List.mem_of_find?_eq_some found
    have begins := List.find?_some found
    have starts := List.isPrefixOf_iff_prefix.mp begins
    exact ⟨List.length_pos_iff.mpr (free literal listed).1, starts.length_le⟩

end Literals

/-! ## Words -/

section Words

variable [DecidableEq α] (inWord : α → Bool)

/-- A letter that is there is not of a word. -/
def outside (letter : Option α) : Bool := letter.all fun letter => !inWord letter

omit [DecidableEq α] in
/-- A word before other letters is what a search for its end takes. -/
theorem takeWhile_word {inWord : α → Bool} {word rest : List α}
    (letters : ∀ letter ∈ word, inWord letter = true)
    (free : outside inWord rest.head? = true) : (word ++ rest).takeWhile inWord = word := by
  rw [List.takeWhile_append_of_pos letters]
  cases rest with
  | nil => exact List.append_nil word
  | cons letter rest =>
    have other : ¬ inWord letter = true := by simpa [outside] using free
    rw [List.takeWhile_cons_of_neg other, List.append_nil]

/-- A word is matched between other letters, and replaced. -/
def wordFinder (word replacement : List α) : Finder α := fun before text =>
  if outside inWord before && word.isPrefixOf text && outside inWord (text.drop word.length).head?
  then some (word.length, replacement) else none

variable {inWord} {word replacement : List α}

/-- Where a word is matched. -/
theorem wordFinder_eq_none {before : Option α} {text : List α} :
    wordFinder inWord word replacement before text = none ↔
      ∀ rest, text = word ++ rest → outside inWord before = true →
        outside inWord rest.head? = false := by
  unfold wordFinder
  rw [ite_eq_right_iff]
  constructor
  · intro unmatched rest same free
    by_contra closed
    rw [Bool.not_eq_false] at closed
    have starts : word.isPrefixOf text = true := by
      rw [same]
      exact List.isPrefixOf_iff_prefix.mpr (List.prefix_append word rest)
    have dropped : text.drop word.length = rest := by rw [same, List.drop_left]
    rw [free, starts, dropped, closed] at unmatched
    exact absurd (unmatched rfl) (Option.some_ne_none _)
  · intro free matched
    rw [Bool.and_eq_true, Bool.and_eq_true] at matched
    obtain ⟨rest, same⟩ := List.isPrefixOf_iff_prefix.mp matched.1.2
    have closed := free rest same.symm matched.1.1
    rw [← same, List.drop_left, closed] at matched
    exact absurd matched.2 Bool.false_ne_true

variable (letters : ∀ letter ∈ word, inWord letter = true) (nonempty : word ≠ [])

include letters nonempty

/-- Nothing is matched at a letter outside words. -/
theorem wordFinder_outside {before : Option α} {letter : α} (other : inWord letter = false)
    (text : List α) : wordFinder inWord word replacement before (letter :: text) = none := by
  refine wordFinder_eq_none.mpr fun rest same _ => ?_
  obtain ⟨first, word, rfl⟩ := List.exists_cons_of_ne_nil nonempty
  rw [List.cons_append] at same
  have head := letters first List.mem_cons_self
  rw [← (List.cons.inj same).1, other] at head
  contradiction

/-- Nothing is matched in another word and at the letter after it. -/
theorem noMatch_word {other : List α} (otherLetters : ∀ letter ∈ other, inWord letter = true)
    (apart : other ≠ word) {separator : α} (separates : inWord separator = false) {text : List α}
    (rest : NoMatch (wordFinder inWord word replacement) (some separator) text)
    (before : Option α) :
    NoMatch (wordFinder inWord word replacement) before (other ++ separator :: text) := by
  have inside : ∀ {tail : List α} {before : Option α}, tail <:+ other →
      (outside inWord before = true → tail = other) →
      NoMatch (wordFinder inWord word replacement) before (tail ++ separator :: text) := by
    intro tail
    induction tail with
    | nil => exact fun _ _ => ⟨wordFinder_outside letters nonempty separates text, rest⟩
    | cons letter tail ih =>
      intro before suffix whole
      refine ⟨wordFinder_eq_none.mpr fun after same free => ?_, ?_⟩
      · by_contra closed
        rw [Bool.not_eq_false] at closed
        have joined : other ++ separator :: text = word ++ after := by rw [← whole free]; exact same
        have mine : (other ++ separator :: text).takeWhile inWord = other :=
          takeWhile_word otherLetters (by simp [outside, separates])
        rw [joined, takeWhile_word letters closed] at mine
        exact apart mine.symm
      · have mine := otherLetters letter (suffix.subset List.mem_cons_self)
        refine ih ((List.suffix_cons letter tail).trans suffix) fun free => ?_
        rw [outside, Option.all_some, mine] at free
        contradiction
  exact inside (List.suffix_refl other) fun _ => rfl

omit letters nonempty in
/-- A replaced word is matched as long as it is. -/
theorem wordFinder_eq_some {before : Option α} {text label : List α} {length : Nat}
    (matched : wordFinder inWord word replacement before text = some (length, label)) :
    length = word.length ∧ label = replacement ∧
      ∃ rest, text = word ++ rest ∧ outside inWord rest.head? = true := by
  unfold wordFinder at matched
  split at matched
  · rename_i found
    rw [Bool.and_eq_true, Bool.and_eq_true] at found
    obtain ⟨rest, same⟩ := List.isPrefixOf_iff_prefix.mp found.1.2
    obtain ⟨rfl, rfl⟩ := Prod.mk.inj (Option.some.inj matched)
    refine ⟨rfl, rfl, rest, same.symm, ?_⟩
    have closed := found.2
    rwa [← same, List.drop_left] at closed
  · contradiction

omit letters nonempty in
/-- Words are replaced by what starts with the mark. -/
theorem marked_wordFinder (mark : α) (label : List α) :
    Marked (wordFinder inWord word (mark :: label)) mark := fun _ _ _ _ matched =>
  ⟨label, (wordFinder_eq_some matched).2.1⟩

/-- A letter outside words stops them. -/
theorem stops_wordFinder {stop : α} (separates : inWord stop = false) :
    Stops (wordFinder inWord word replacement) stop where
  ahead before text rest := by
    have free : stop ∉ word := fun listed => by
      rw [letters stop listed] at separates
      contradiction
    have starts : word.isPrefixOf (text ++ stop :: rest) = word.isPrefixOf text := by
      rw [Bool.eq_iff_iff, List.isPrefixOf_iff_prefix, List.isPrefixOf_iff_prefix]
      exact prefix_append_iff free
    rw [wordFinder, wordFinder, starts]
    by_cases begins : word <+: text
    · obtain ⟨after, rfl⟩ := begins
      have next : outside inWord (after ++ stop :: rest).head? = outside inWord after.head? := by
        cases after with
        | nil => simp [outside, separates]
        | cons letter after => rfl
      rw [List.append_assoc, List.drop_left, List.drop_left, next]
    · rw [Bool.eq_false_iff.mpr fun found => begins (List.isPrefixOf_iff_prefix.mp found)]
      simp
  behind text := by
    have start : outside inWord (some stop) = outside inWord (none : Option α) := by
      simp [outside, separates]
    rw [wordFinder, wordFinder, start]
  within before text length label matched := by
    obtain ⟨rfl, -, rest, rfl, -⟩ := wordFinder_eq_some matched
    exact ⟨List.length_pos_iff.mpr nonempty, by simp⟩

omit nonempty in
/-- Nothing is matched right behind a word. -/
theorem wordFinder_behind {last : α} (listed : last ∈ word) (text : List α) :
    wordFinder inWord word replacement (some last) text = none := by
  refine wordFinder_eq_none.mpr fun rest _ free => ?_
  rw [outside, Option.all_some, letters last listed] at free
  contradiction

/-- Where words are replaced by a label between letters outside words, no such word is left: neither
behind the letter of the text nor behind a replacement. -/
theorem noMatch_subFrom {mark closing : α} {label : List α} (opens : inWord mark = false)
    (closes : inWord closing = false) (labelLetters : ∀ letter ∈ label, inWord letter = true)
    (apart : label ≠ word) (text : List α) :
    ∀ before shown, (shown = before ∨ outside inWord text.head? = true) →
      NoMatch (wordFinder inWord word (mark :: (label ++ [closing]))) shown
        (subFrom (wordFinder inWord word (mark :: (label ++ [closing]))) before 0 text) := by
  have marked : Marked (wordFinder inWord word (mark :: (label ++ [closing]))) mark :=
    marked_wordFinder mark (label ++ [closing])
  have unmarked : mark ∉ word := fun listed => by
    rw [letters mark listed] at opens
    contradiction
  generalize found : wordFinder inWord word (mark :: (label ++ [closing])) = find at marked ⊢
  have free_iff : ∀ {before text}, find before text = none ↔
      ∀ rest, text = word ++ rest → outside inWord before = true →
        outside inWord rest.head? = false := by
    rw [← found]
    exact wordFinder_eq_none
  induction size : text.length using Nat.strong_induction_on generalizing text with
  | _ size ih =>
    subst size
    intro before shown related
    cases text with
    | nil => trivial
    | cons letter text =>
      rw [subFrom]
      split
      · rename_i matched
        rw [← found] at matched
        obtain ⟨rfl, rfl, rest, same, free⟩ := wordFinder_eq_some matched
        obtain ⟨first, others, rfl⟩ := List.exists_cons_of_ne_nil nonempty
        rw [List.cons_append] at same
        obtain ⟨rfl, rfl⟩ := List.cons.inj same
        obtain ⟨passed, skipped⟩ :=
          @subFrom_drop _ find (some letter) ((letter :: others).length - 1) (others ++ rest)
        have dropped : (others ++ rest).drop ((letter :: others).length - 1) = rest :=
          List.drop_left
        rw [skipped, dropped]
        have shorter : rest.length < (letter :: (others ++ rest)).length := by
          rw [List.length_cons, List.length_append]
          omega
        have later := ih rest.length shorter rest rfl passed (some closing) (.inr free)
        rw [← found] at later ⊢
        have behind := noMatch_word letters nonempty labelLetters apart closes later (some mark)
        rw [List.cons_append, List.append_assoc]
        exact noMatch_word letters nonempty (fun _ none => by contradiction)
          (Ne.symm nonempty) opens behind shown
      · rename_i unmatched
        have result : subFrom find before 0 (letter :: text) =
            letter :: subFrom find (some letter) 0 text := by rw [subFrom, unmatched]
        refine ⟨?_, ih text.length (Nat.lt_succ_self _) text rfl _ _ (.inl rfl)⟩
        rcases related with rfl | free
        · refine free_iff.mpr fun rest same free => ?_
          obtain ⟨after, stood, later⟩ :=
            exists_rest_of_append marked unmarked (result.trans same)
          have closed := free_iff.mp unmatched after stood free
          cases after with
          | nil => contradiction
          | cons next after =>
            have last := List.getLast?_eq_some_getLast nonempty
            have kept : find (some (word.getLast nonempty)) (next :: after) = none := by
              rw [← found]
              exact wordFinder_behind letters (List.getLast_mem nonempty) _
            rw [last, Option.some_or, subFrom, kept] at later
            rw [later]
            exact closed
        · rw [← found]
          exact wordFinder_outside letters nonempty (by simpa [outside] using free) _

end Words

end Vlse.Substitution
