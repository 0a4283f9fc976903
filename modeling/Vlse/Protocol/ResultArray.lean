import Vlse.Foundation.Folds
import Vlse.Protocol.Results
/-!
# The result array

`CollectAuthenticatedResults` writes the documents it finds into an array of fixed size, sorts the
part written and drops repetitions in place. Here every access is checked against the array, and
the attempts are a 64-bit counter. The array refines the list of documents of the module before:
no access fails, since each component writes at most one document and the array has room for all
components of as many candidates as are accepted.
-/

namespace Vlse.Protocol

open Vlse.Filter Label

/-- `AuthenticatedResults`. -/
structure AuthenticatedResults (capacity : Nat) where
  /-- `documents`. -/
  documents : Vector Word capacity
  /-- `size`. -/
  size : Nat

namespace AuthenticatedResults

variable {capacity : Nat}

/-- The array before the first candidate. -/
def blank (capacity : Nat) : AuthenticatedResults capacity where
  documents := Vector.replicate capacity 0
  size := 0

/-- The prefix `[0, size)`. -/
def found (results : AuthenticatedResults capacity) : List Word :=
  results.documents.toList.take results.size

/-- `results.documents[results.size++] = document`, failing outside the array. -/
def push (results : AuthenticatedResults capacity) (document : Word) :
    Option (AuthenticatedResults capacity) :=
  if inside : results.size < capacity then
    some { documents := results.documents.set results.size document, size := results.size + 1 }
  else none

/-- The array with its first places overwritten. -/
def overwrite (documents : Vector Word capacity) (values : List Word) : Vector Word capacity :=
  Vector.ofFn fun place => values.getD place.val (documents.get place)

/-- `std::sort` over the prefix, failing outside the array. -/
def sort (results : AuthenticatedResults capacity) : Option (AuthenticatedResults capacity) :=
  if results.size ≤ capacity then
    some { results with
      documents := overwrite results.documents (results.found.insertionSort (· ≤ ·)) }
  else none

/-- `std::unique` over the prefix and the new size, failing outside the array. The places after the
new size are read by nobody; they keep their documents. -/
def unique (results : AuthenticatedResults capacity) : Option (AuthenticatedResults capacity) :=
  if results.size ≤ capacity then
    some {
      documents := overwrite results.documents (Vlse.unique results.found)
      size := (Vlse.unique results.found).length }
  else none

end AuthenticatedResults

variable {L : Type*} {DMax : Nat}

/-- The array and `component_attempts`. -/
structure ArrayCollection (capacity : Nat) where
  /-- `results`. -/
  results : AuthenticatedResults capacity
  /-- `component_attempts`. -/
  componentAttempts : Word

section Collect

variable (decrypt : Decrypt L) (derived : TokenKeyPair) (epoch : Word) {capacity : Nat}

/-- The inner loop body, on the array. -/
def collectComponentInto (candidate : AeadRecord DMax L) (collection : ArrayCollection capacity)
    (j : Fin DMax) : Option (ArrayCollection capacity) :=
  let componentAttempts := collection.componentAttempts + 1#64
  let decoded := decrypt derived.key epoch derived.token (BitVec.ofNat 32 j) (candidate.get j)
    ⟨false, 0⟩
  if decoded.1 ∧ decoded.2.valid then
    (collection.results.push decoded.2.documentIdentifier).map fun results =>
      { results, componentAttempts }
  else some { collection with componentAttempts }

/-- The loop over the components of a candidate, on the array. -/
def collectCandidateInto (collection : ArrayCollection capacity)
    (candidate : AeadRecord DMax L) : Option (ArrayCollection capacity) :=
  (List.finRange DMax).foldlM (collectComponentInto decrypt derived epoch candidate) collection

/-- `CollectAuthenticatedResults` on the array: how it ended, and `component_attempts` after it;
`none` when an access left the array. -/
def collectAuthenticatedResultsInto (maxCandidates : Nat) (candidates : List (AeadRecord DMax L))
    (componentAttempts : Word) :
    Option (Except Fault (AuthenticatedResults (DMax * maxCandidates)) × Word) :=
  if maxCandidates < candidates.length then
    some (.error (.runtimeError "candidate bound exceeded"), componentAttempts)
  else
    (candidates.foldlM (collectCandidateInto decrypt derived epoch)
        ⟨.blank (DMax * maxCandidates), componentAttempts⟩).bind fun collection =>
      if 1 < collection.results.size then
        (collection.results.sort.bind AuthenticatedResults.unique).map fun results =>
          (.ok results, collection.componentAttempts)
      else some (.ok collection.results, collection.componentAttempts)

end Collect

/-! ## The prefix -/

namespace AuthenticatedResults

variable {capacity : Nat}

/-- The prefix has as many documents as `size` says. -/
theorem length_found {results : AuthenticatedResults capacity} (inside : results.size ≤ capacity) :
    results.found.length = results.size := by
  rw [found, List.length_take, Vector.length_toList, min_eq_left inside]

/-- A document written inside the array is the last of the prefix. -/
theorem push_found {results : AuthenticatedResults capacity} (room : results.size < capacity)
    (document : Word) :
    ∃ after, results.push document = some after ∧ after.size = results.size + 1 ∧
      after.found = results.found ++ [document] := by
  refine ⟨_, dif_pos room, rfl, ?_⟩
  have long : results.size < results.documents.toList.length := by
    rw [Vector.length_toList]
    exact room
  have written : results.size <
      (results.documents.toList.set results.size document).length := by
    rwa [List.length_set]
  rw [found, found, Vector.toList_set, List.take_succ_eq_append_getElem written,
    List.take_set_of_le (le_refl _), List.getElem_set_self]

/-- The prefix overwritten is the values written. -/
theorem found_overwrite (documents : Vector Word capacity) {values : List Word}
    (inside : values.length ≤ capacity) :
    found ⟨overwrite documents values, values.length⟩ = values := by
  apply List.ext_getElem
  · rw [length_found inside]
  · intro index here there
    simp [found, overwrite, there]

/-- Sorting and dropping repetitions leaves the ascending list of the prefix. -/
theorem sort_unique_found {results : AuthenticatedResults capacity}
    (inside : results.size ≤ capacity) :
    ∃ after, results.sort.bind unique = some after ∧ after.size ≤ capacity ∧
      after.found = ascending results.found := by
  have sortedLength : (results.found.insertionSort (· ≤ ·)).length = results.size := by
    rw [List.length_insertionSort, length_found inside]
  have sortedFound : found ⟨overwrite results.documents (results.found.insertionSort (· ≤ ·)),
      results.size⟩ = results.found.insertionSort (· ≤ ·) := by
    have written := found_overwrite results.documents (sortedLength.trans_le inside)
    rwa [sortedLength] at written
  have shorter : (Vlse.unique (results.found.insertionSort (· ≤ ·))).length ≤ capacity := by
    have sublist := (unique_sublist (results.found.insertionSort (· ≤ ·))).length_le
    omega
  rw [sort, if_pos inside, Option.bind_some, unique]
  dsimp only
  rw [if_pos inside, sortedFound]
  exact ⟨_, rfl, shorter, found_overwrite _ shorter⟩

end AuthenticatedResults

/-! ## The array refines the list -/

section Refines

variable (decrypt : Decrypt L) (derived : TokenKeyPair) (epoch : Word) {capacity : Nat}

/-- The array holds the documents of a list, with room for some more, and the counters agree. -/
structure Represents (capacity budget : Nat) (collection : ArrayCollection capacity)
    (abstract : Collection) : Prop where
  /-- The prefix is the list. -/
  found : collection.results.found = abstract.documents
  /-- There is room for more documents. -/
  room : collection.results.size + budget ≤ capacity
  /-- The counter agrees modulo its width. -/
  attempts : collection.componentAttempts = BitVec.ofNat 64 abstract.componentAttempts

/-- A component writes at most one document, inside the array. -/
theorem collectComponentInto_refines (candidate : AeadRecord DMax L) (budget : Nat)
    (collection : ArrayCollection capacity) (abstract : Collection) (j : Fin DMax)
    (before : Represents capacity (budget + 1) collection abstract) :
    ∃ after, collectComponentInto decrypt derived epoch candidate collection j = some after ∧
      Represents capacity budget after
        (collectComponent decrypt derived epoch candidate abstract j) := by
  have counted : collection.componentAttempts + 1#64 =
      BitVec.ofNat 64 (abstract.componentAttempts + 1) := by
    rw [before.attempts, BitVec.ofNat_add]
  have room := before.room
  unfold collectComponentInto collectComponent
  generalize decrypt derived.key epoch derived.token (BitVec.ofNat 32 j) (candidate.get j)
    ⟨false, 0⟩ = decoded
  dsimp only
  split
  · obtain ⟨results, pushed, size, found⟩ := AuthenticatedResults.push_found
      (by omega : collection.results.size < capacity) decoded.2.documentIdentifier
    rw [pushed]
    refine ⟨_, rfl, ?_, ?_, counted⟩
    · rw [found, before.found]
    · dsimp only
      omega
  · refine ⟨_, rfl, before.found, ?_, counted⟩
    dsimp only
    omega

/-- A candidate writes at most as many documents as it has components, inside the array. -/
theorem collectCandidateInto_refines (budget : Nat) (collection : ArrayCollection capacity)
    (abstract : Collection) (candidate : AeadRecord DMax L)
    (before : Represents capacity (budget + DMax) collection abstract) :
    ∃ after, collectCandidateInto decrypt derived epoch collection candidate = some after ∧
      Represents capacity budget after
        (collectCandidate decrypt derived epoch abstract candidate) := by
  apply foldlM_refines (Represents capacity) 1
    (collectComponentInto_refines decrypt derived epoch candidate)
  rwa [List.length_finRange, Nat.one_mul]

/-- The list collection counts every component. -/
theorem componentAttempts_collect (candidates : List (AeadRecord DMax L))
    (collection : Collection) :
    (candidates.foldl (collectCandidate decrypt derived epoch) collection).componentAttempts =
      collection.componentAttempts + candidates.length * DMax := by
  have components : ∀ (candidate : AeadRecord DMax L) (places : List (Fin DMax))
      (collection : Collection), (places.foldl
        (collectComponent decrypt derived epoch candidate) collection).componentAttempts =
          collection.componentAttempts + places.length := by
    intro candidate places
    induction places with
    | nil => intro collection; rfl
    | cons j places ih =>
      intro collection
      rw [List.foldl_cons, ih, List.length_cons, collectComponent]
      dsimp only
      omega
  induction candidates generalizing collection with
  | nil => simp
  | cons candidate candidates ih =>
    rw [List.foldl_cons, ih, collectCandidate, components, List.length_finRange,
      List.length_cons, Nat.succ_mul]
    omega

/-- Within the bound no access leaves the array, and its prefix is what the list collects. -/
theorem collectAuthenticatedResultsInto_refines {maxCandidates : Nat}
    {candidates : List (AeadRecord DMax L)} (bounded : candidates.length ≤ maxCandidates)
    (componentAttempts : Word) :
    ∃ results documents attempts,
      collectAuthenticatedResultsInto decrypt derived epoch maxCandidates candidates
        componentAttempts = some (.ok results,
          componentAttempts + BitVec.ofNat 64 (candidates.length * DMax)) ∧
      collectAuthenticatedResults decrypt maxCandidates candidates derived epoch
        componentAttempts.toNat = (.ok documents, attempts) ∧
      results.size ≤ DMax * maxCandidates ∧ results.found = documents := by
  have start : Represents (DMax * maxCandidates) (0 + DMax * candidates.length)
      ⟨.blank (DMax * maxCandidates), componentAttempts⟩ ⟨[], componentAttempts.toNat⟩ := by
    refine ⟨rfl, ?_, ?_⟩
    · have enough := Nat.mul_le_mul_left DMax bounded
      simpa [AuthenticatedResults.blank] using enough
    · rw [BitVec.ofNat_toNat, BitVec.setWidth_eq]
  obtain ⟨collection, ran, reached⟩ := foldlM_refines (Represents (DMax * maxCandidates)) DMax
    (collectCandidateInto_refines decrypt derived epoch) candidates 0 _ _ start
  have inside : collection.results.size ≤ DMax * maxCandidates := by simpa using reached.room
  have counted : collection.componentAttempts =
      componentAttempts + BitVec.ofNat 64 (candidates.length * DMax) := by
    rw [reached.attempts, componentAttempts_collect, BitVec.ofNat_add, BitVec.ofNat_toNat,
      BitVec.setWidth_eq]
  have long := AuthenticatedResults.length_found inside
  unfold collectAuthenticatedResultsInto collectAuthenticatedResults
  rw [if_neg (not_lt.mpr bounded), if_neg (not_lt.mpr bounded), ran, Option.bind_some]
  dsimp only
  rw [← reached.found, long, counted]
  split
  · obtain ⟨after, sorted, size, found⟩ := AuthenticatedResults.sort_unique_found inside
    rw [sorted]
    exact ⟨after, _, _, rfl, rfl, size, found⟩
  · exact ⟨collection.results, _, _, rfl, rfl, inside, rfl⟩

/-- A collection that returns within its array: the attempts it adds, and a strictly ascending
prefix of exactly the documents that components yield. -/
structure Collects (maxCandidates : Nat) (candidates : List (AeadRecord DMax L))
    (componentAttempts : Word) (results : AuthenticatedResults (DMax * maxCandidates)) : Prop where
  /-- No access leaves the array, and every component is one attempt. -/
  returned : collectAuthenticatedResultsInto decrypt derived epoch maxCandidates candidates
    componentAttempts = some (.ok results,
      componentAttempts + BitVec.ofNat 64 (candidates.length * DMax))
  /-- The prefix lies in the array. -/
  size : results.found.length = results.size
  /-- It is strictly ascending. -/
  ascending : results.found.Pairwise (· < ·)
  /-- It has the documents that components decrypt to at their own index. -/
  members : ∀ document, document ∈ results.found ↔
    ∃ candidate ∈ candidates, ∃ j, Yields decrypt derived epoch candidate document j

/-- Within the bound the collection returns. -/
theorem exists_collects {maxCandidates : Nat} {candidates : List (AeadRecord DMax L)}
    (bounded : candidates.length ≤ maxCandidates) (componentAttempts : Word) :
    ∃ results, Collects decrypt derived epoch maxCandidates candidates componentAttempts
      results := by
  obtain ⟨results, documents, attempts, returned, listed, inside, rfl⟩ :=
    collectAuthenticatedResultsInto_refines decrypt derived epoch bounded componentAttempts
  obtain ⟨found, counter, listed', ascending, members⟩ :=
    collectAuthenticatedResults_ok decrypt derived epoch bounded componentAttempts.toNat
  rw [listed] at listed'
  cases listed'
  exact ⟨results, returned, AuthenticatedResults.length_found inside, ascending, members⟩

/-- Candidates with the same members give the same prefix. -/
theorem Collects.found_eq {maxCandidates : Nat} {candidates others : List (AeadRecord DMax L)}
    {componentAttempts otherAttempts : Word}
    {results otherResults : AuthenticatedResults (DMax * maxCandidates)}
    (first : Collects decrypt derived epoch maxCandidates candidates componentAttempts results)
    (second : Collects decrypt derived epoch maxCandidates others otherAttempts otherResults)
    (same : ∀ candidate, candidate ∈ others ↔ candidate ∈ candidates) :
    otherResults.found = results.found := by
  apply eq_of_ascending second.ascending first.ascending
  intro document
  rw [second.members, first.members]
  simp only [same]

/-- `CollectAuthenticatedResults` for any decryption. A list within the bound is collected, and
every list within the bound with the same members gives the same results; a longer list is refused
and the attempts stay as they are. -/
theorem collectAuthenticatedResultsInto_spec (maxCandidates : Nat)
    (candidates : List (AeadRecord DMax L)) (componentAttempts : Word) :
    (candidates.length ≤ maxCandidates → ∃ results,
      Collects decrypt derived epoch maxCandidates candidates componentAttempts results ∧
      ∀ others : List (AeadRecord DMax L), others.length ≤ maxCandidates →
        (∀ candidate, candidate ∈ others ↔ candidate ∈ candidates) →
          ∃ otherResults, Collects decrypt derived epoch maxCandidates others componentAttempts
              otherResults ∧
            otherResults.size = results.size ∧ otherResults.found = results.found) ∧
    (maxCandidates < candidates.length →
      collectAuthenticatedResultsInto decrypt derived epoch maxCandidates candidates
        componentAttempts =
          some (.error (.runtimeError "candidate bound exceeded"), componentAttempts)) := by
  constructor
  · intro bounded
    obtain ⟨results, collects⟩ := exists_collects decrypt derived epoch bounded componentAttempts
    refine ⟨results, collects, fun others within same => ?_⟩
    obtain ⟨otherResults, otherCollects⟩ :=
      exists_collects decrypt derived epoch within componentAttempts
    have found := collects.found_eq decrypt derived epoch otherCollects same
    exact ⟨otherResults, otherCollects, by rw [← otherCollects.size, ← collects.size, found], found⟩
  · intro longer
    exact if_pos longer

end Refines

/-- A decryption that accepts every label as valid, with the label as its document. -/
def openDecrypt : Decrypt Word := fun _ _ _ _ label _ => (true, ⟨true, label⟩)

/-- The token 5 with a zero key. -/
def zeroKeyPair : TokenKeyPair := ⟨5, Vector.replicate 16 0⟩

/-- Two candidates of two components under the bound of two, and three candidates beyond it. -/
theorem collectAuthenticatedResultsInto_spec_open :
    (∃ results, Collects openDecrypt zeroKeyPair 7 2 [#v[5#64, 3], #v[3, 4]] 1 results) ∧
      collectAuthenticatedResultsInto openDecrypt zeroKeyPair 7 2 [#v[5#64], #v[3], #v[3]] 1 =
        some (.error (.runtimeError "candidate bound exceeded"), 1) := by
  have within := (collectAuthenticatedResultsInto_spec openDecrypt zeroKeyPair 7 2
    [#v[5#64, 3], #v[3, 4]] 1).1 (by decide)
  have beyond := (collectAuthenticatedResultsInto_spec openDecrypt zeroKeyPair 7 2
    [#v[5#64], #v[3], #v[3]] 1).2 (by decide)
  exact ⟨within.imp fun _ collected => collected.1, beyond⟩

end Vlse.Protocol
