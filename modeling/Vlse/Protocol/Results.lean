import Vlse.Foundation.Ascending
import Vlse.Label.Aead
import Vlse.Protocol.Derivation
/-!
# Authenticated results

`CollectAuthenticatedResults` decrypts every component of every candidate record under the key
and the context of the query, keeps the documents of the valid ones, sorts them and drops
repetitions. What it returns is the strictly ascending list of those documents.
-/

namespace Vlse.Protocol

open Vlse.Filter Label Oprf

/-- Words in their numerical order. -/
instance wordLinearOrder : LinearOrder Word where
  le := (· ≤ ·)
  lt := (· < ·)
  le_refl := BitVec.le_refl
  le_trans _ _ _ := BitVec.le_trans
  lt_iff_le_not_ge _ _ := by
    rw [BitVec.lt_def, BitVec.le_def, BitVec.le_def]
    omega
  le_antisymm _ _ := BitVec.le_antisymm
  le_total := BitVec.le_total
  toDecidableLE := inferInstance

/-- `AeadRecord`: one label for each component. -/
abbrev AeadRecord (DMax : Nat) (L : Type*) := Vector L DMax

/-- A label decryption with the outputs it writes, as `DecryptLabel`. -/
abbrev Decrypt (L : Type*) :=
  AeadKey128 → Word → Token128 → BitVec 32 → L → DecryptOutputs → Bool × DecryptOutputs

variable {L : Type*} {DMax : Nat}

/-- The documents found so far and `component_attempts`. -/
structure Collection where
  /-- `documents`, up to `size`. -/
  documents : List Word
  /-- `component_attempts`. -/
  componentAttempts : Nat

/-- The inner loop body of `CollectAuthenticatedResults`. -/
def collectComponent (decrypt : Decrypt L) (derived : TokenKeyPair) (epoch : Word)
    (candidate : AeadRecord DMax L) (collection : Collection) (j : Fin DMax) : Collection :=
  let decoded := decrypt derived.key epoch derived.token (BitVec.ofNat 32 j) (candidate.get j)
    ⟨false, 0⟩
  { documents :=
      if decoded.1 ∧ decoded.2.valid then collection.documents ++ [decoded.2.documentIdentifier]
      else collection.documents
    componentAttempts := collection.componentAttempts + 1 }

/-- The loop over the components of a candidate. -/
def collectCandidate (decrypt : Decrypt L) (derived : TokenKeyPair) (epoch : Word)
    (collection : Collection) (candidate : AeadRecord DMax L) : Collection :=
  (List.finRange DMax).foldl (collectComponent decrypt derived epoch candidate) collection

/-- `CollectAuthenticatedResults`: the prefix of `documents` up to `size`, and
`component_attempts` after the call. -/
def collectAuthenticatedResults (decrypt : Decrypt L) (maxCandidates : Nat)
    (candidates : List (AeadRecord DMax L)) (derived : TokenKeyPair) (epoch : Word)
    (componentAttempts : Nat) : Except Fault (List Word) × Nat :=
  if maxCandidates < candidates.length then
    (.error (.runtimeError "candidate bound exceeded"), componentAttempts)
  else
    let collection := candidates.foldl (collectCandidate decrypt derived epoch)
      ⟨[], componentAttempts⟩
    let documents :=
      if 1 < collection.documents.length then ascending collection.documents
      else collection.documents
    (.ok documents, collection.componentAttempts)

/-! ## What is collected -/

/-- The document a component of a candidate yields, when it decrypts as valid. -/
def Yields (decrypt : Decrypt L) (derived : TokenKeyPair) (epoch : Word)
    (candidate : AeadRecord DMax L) (document : Word) (j : Fin DMax) : Prop :=
  ∃ outputs, decrypt derived.key epoch derived.token (BitVec.ofNat 32 j) (candidate.get j)
    ⟨false, 0⟩ = (true, outputs) ∧ outputs.valid = true ∧ outputs.documentIdentifier = document

variable (decrypt : Decrypt L) (derived : TokenKeyPair) (epoch : Word)

/-- One component adds the document it yields. -/
theorem mem_collectComponent (candidate : AeadRecord DMax L) (collection : Collection)
    (j : Fin DMax) (document : Word) :
    document ∈ (collectComponent decrypt derived epoch candidate collection j).documents ↔
      document ∈ collection.documents ∨ Yields decrypt derived epoch candidate document j := by
  unfold collectComponent Yields
  generalize decrypt derived.key epoch derived.token (BitVec.ofNat 32 j) (candidate.get j)
    ⟨false, 0⟩ = decoded
  obtain ⟨accepted, outputs⟩ := decoded
  dsimp only
  constructor
  · intro inside
    split at inside
    · rename_i genuine
      rcases List.mem_append.mp inside with earlier | here
      · exact .inl earlier
      · exact .inr ⟨outputs, by rw [genuine.1], genuine.2, (List.mem_singleton.mp here).symm⟩
    · exact .inl inside
  · rintro (earlier | ⟨result, decoded, valid, rfl⟩)
    · split
      · exact List.mem_append_left _ earlier
      · exact earlier
    · obtain ⟨rfl, rfl⟩ := Prod.mk.inj decoded
      rw [if_pos ⟨rfl, valid⟩]
      exact List.mem_append_right _ (List.mem_singleton_self _)

/-- A loop that only adds members adds those of its turns. -/
theorem mem_foldl_collect {γ : Type*} (step : Collection → γ → Collection)
    (yields : γ → Word → Prop)
    (turn : ∀ collection item document, document ∈ (step collection item).documents ↔
      document ∈ collection.documents ∨ yields item document)
    (items : List γ) (collection : Collection) (document : Word) :
    document ∈ (items.foldl step collection).documents ↔
      document ∈ collection.documents ∨ ∃ item ∈ items, yields item document := by
  induction items generalizing collection with
  | nil => simp
  | cons item items ih =>
    rw [List.foldl_cons, ih, turn]
    simp only [List.mem_cons, exists_eq_or_imp, or_assoc]

/-- The loop over the candidates collects what their components yield. -/
theorem mem_foldl_collectCandidate (candidates : List (AeadRecord DMax L))
    (collection : Collection) (document : Word) :
    document ∈ (candidates.foldl (collectCandidate decrypt derived epoch) collection).documents ↔
      document ∈ collection.documents ∨
        ∃ candidate ∈ candidates, ∃ j, Yields decrypt derived epoch candidate document j := by
  refine mem_foldl_collect _ (fun candidate document =>
    ∃ j, Yields decrypt derived epoch candidate document j) ?_ candidates collection document
  intro collection candidate document
  rw [collectCandidate, mem_foldl_collect _
    (fun j document => Yields decrypt derived epoch candidate document j)
    (mem_collectComponent decrypt derived epoch candidate · · ·)]
  simp only [List.mem_finRange, true_and]

/-- What is returned for candidates within the bound: the strictly ascending list of the documents
their components yield. -/
theorem collectAuthenticatedResults_ok {maxCandidates : Nat}
    {candidates : List (AeadRecord DMax L)} (bounded : candidates.length ≤ maxCandidates)
    (componentAttempts : Nat) :
    ∃ documents attempts, collectAuthenticatedResults decrypt maxCandidates candidates derived
        epoch componentAttempts = (.ok documents, attempts) ∧
      documents.Pairwise (· < ·) ∧ ∀ document, document ∈ documents ↔
        ∃ candidate ∈ candidates, ∃ j, Yields decrypt derived epoch candidate document j := by
  have collected := mem_foldl_collectCandidate decrypt derived epoch candidates
    ⟨[], componentAttempts⟩
  unfold collectAuthenticatedResults
  rw [if_neg (not_lt.mpr bounded)]
  dsimp only
  refine ⟨_, _, rfl, ?_, fun document => ?_⟩
  · split
    · exact ascending_pairwise _
    · rename_i short
      generalize (candidates.foldl (collectCandidate decrypt derived epoch)
        ⟨[], componentAttempts⟩).documents = documents at short
      match documents, short with
      | [], _ => exact .nil
      | [_], _ => exact List.pairwise_singleton _ _
      | _ :: _ :: _, short => exact absurd (by simp) short
  · have members := collected document
    simp only [List.not_mem_nil, false_or] at members
    rw [← members]
    split
    · exact mem_ascending _ _
    · rfl

end Vlse.Protocol
