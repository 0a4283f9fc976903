import Vlse.Protocol.Completion
/-!
# Queries after Setup, and the trace of Setup

After a completed Setup the query for the keyword with number `i` returns the documents
`i * DMax + 1` to `i * DMax + DMax` in order, and a query under a key of no keyword returns nothing.
Over the whole of Setup no key is used twice with one nonce: keys tell records apart, and within a
record the nonces count the components.
-/

namespace Vlse.Protocol

open Vlse.Filter Label Oprf

variable {C T : Type*} {DMax : Nat} {env : Environment C T} {seed : Word}
  {keywords : List String} {limit : Nat} {run : SetupRun DMax C T}
  {index : Index (SealedRecord DMax C T)} {dummies : Nat}

/-! ## What the records yield -/

/-- The entry of a record whose token is known. -/
theorem mem_recordEntry {P : Type*} {config : Config indexBits} {record : TokenKeyPair × P}
    {metadata : KeyMetadata config.layout}
    (derived : config.metadata record.1.token = some metadata) (item : Home config.layout × P) :
    item ∈ recordEntry config record ↔ item = (metadata.home, record.2) := by
  rw [recordEntry, acceptedEntry, derived]
  exact Multiset.mem_singleton

/-- The members of a sum of multisets over a list. -/
theorem mem_sum_map {α β : Type*} (items : List α) (part : α → Multiset β) (member : β) :
    member ∈ (items.map part).sum ↔ ∃ item ∈ items, member ∈ part item := by
  induction items with
  | nil => simp
  | cons item items ih => simp [ih]

/-- A payload held under a home that yields a document is that of a genuine record with the home:
what the table holds beside the genuine records is sealed as dummies. -/
theorem genuine_of_yields (symbolic : env.gcm.Symbolic) {config : Config indexBits}
    {metadata : KeyMetadata config.layout} {derived : TokenKeyPair}
    {added : Multiset (Home config.layout × SealedRecord DMax C T)}
    (sealed : ∀ item ∈ added, ∃ owner,
      item.2 = sealRecord env.gcm (recordCalls DMax owner seed 0 false))
    (genuineKnown : ∀ record ∈ genuineRecords env DMax seed keywords,
      ∃ other, config.metadata record.1.token = some other)
    {candidate : SealedRecord DMax C T}
    (listed : (metadata.home, candidate) ∈ added +
      ((genuineRecords env DMax seed keywords).map fun record => recordEntry config record).sum)
    {document : Word} {j : Fin DMax}
    (yields : Yields (decryptLabel env.gcm) derived seed candidate document j) :
    ∃ record ∈ genuineRecords env DMax seed keywords,
      (∃ other, config.metadata record.1.token = some other ∧ other.home = metadata.home) ∧
      candidate = record.2 := by
  rw [Multiset.mem_add, mem_sum_map] at listed
  cases listed with
  | inl dummy =>
    obtain ⟨owner, dummySealed⟩ := sealed _ dummy
    dsimp only at dummySealed
    rw [dummySealed] at yields
    exact absurd yields (not_yields_dummy symbolic _ _ _ _ _ _ _)
  | inr held =>
    obtain ⟨record, genuine, entry⟩ := held
    obtain ⟨other, derivedOther⟩ := genuineKnown record genuine
    obtain ⟨sameHome, samePayload⟩ := Prod.mk.inj ((mem_recordEntry derivedOther _).mp entry)
    exact ⟨record, genuine, ⟨other, derivedOther, sameHome.symm⟩, samePayload⟩

/-- The numbers of the documents of a keyword fit in 64 bits. -/
theorem document_lt (bounded : keywords.length * genuineRecordBytes DMax ≤ 2 ^ 63 - 1) {i : Nat}
    (inside : i < keywords.length) {j : Nat} (component : j < DMax) :
    i * DMax + 1 + j < 2 ^ 64 := by
  have size : 44 * DMax ≤ genuineRecordBytes DMax := by
    unfold genuineRecordBytes
    omega
  have place : (i + 1) * DMax ≤ keywords.length * DMax := Nat.mul_le_mul_right _ inside
  have total : keywords.length * (44 * DMax) ≤ keywords.length * genuineRecordBytes DMax :=
    Nat.mul_le_mul_left _ size
  rw [Nat.mul_left_comm] at total
  rw [Nat.succ_mul] at place
  omega

/-- The documents of the keyword with number `i`. -/
def keywordDocuments (DMax i : Nat) : List Word :=
  (List.finRange DMax).map fun j : Fin DMax =>
    BitVec.ofNat 64 (i * DMax + 1) + BitVec.ofNat 64 j.val

/-- They are the numbers from `i * DMax + 1` to `i * DMax + DMax`. -/
theorem toNat_keywordDocuments
    (bounded : keywords.length * genuineRecordBytes DMax ≤ 2 ^ 63 - 1) {i : Nat}
    (inside : i < keywords.length) :
    (keywordDocuments DMax i).map BitVec.toNat =
      (List.range DMax).map fun j => i * DMax + 1 + j := by
  rw [keywordDocuments, List.map_map, ← List.map_coe_finRange_eq_range, List.map_map]
  refine List.map_congr_left fun j _ => ?_
  have fits := document_lt bounded inside j.isLt
  simp only [Function.comp_apply, BitVec.toNat_add, BitVec.toNat_ofNat]
  omega

/-- They ascend. -/
theorem keywordDocuments_ascending
    (bounded : keywords.length * genuineRecordBytes DMax ≤ 2 ^ 63 - 1) {i : Nat}
    (inside : i < keywords.length) : (keywordDocuments DMax i).Pairwise (· < ·) := by
  have numbers : ((keywordDocuments DMax i).map BitVec.toNat).Pairwise (· < ·) := by
    rw [toNat_keywordDocuments bounded inside]
    refine List.Pairwise.map _ (fun left right before => ?_) List.pairwise_lt_range
    omega
  exact (List.pairwise_map.mp numbers).imp fun before => BitVec.lt_def.mpr before

/-- Distinct keys tell the keywords apart. -/
theorem index_eq_of_key
    (distinctKeys : (keywords.map fun keyword => (env.derive keyword).key).Nodup) {i k : Nat}
    (inside : i < keywords.length) (insideOther : k < keywords.length)
    (sameKey : (env.derive keywords[i]).key = (env.derive keywords[k]).key) : i = k := by
  have places : ∀ place < keywords.length,
      place < (keywords.map fun keyword => (env.derive keyword).key).length := by simp
  have samePlace : (⟨i, places i inside⟩ : Fin _) = ⟨k, places k insideOther⟩ :=
    List.nodup_iff_injective_get.mp distinctKeys (by simpa using sameKey)
  exact Fin.mk.inj samePlace

/-- Under the key of a keyword the genuine records yield no documents but its own. -/
theorem document_of_yields (symbolic : env.gcm.Symbolic)
    (distinctKeys : (keywords.map fun keyword => (env.derive keyword).key).Nodup) {i : Nat}
    (inside : i < keywords.length) {record : TokenKeyPair × SealedRecord DMax C T}
    (genuine : record ∈ genuineRecords env DMax seed keywords) {document : Word} {j : Fin DMax}
    (yields : Yields (decryptLabel env.gcm) (env.derive keywords[i]) seed record.2 document j) :
    document ∈ keywordDocuments DMax i := by
  obtain ⟨k, insideOther, rfl⟩ := exists_of_mem_genuineRecords genuine
  have same : i = k := by
    by_contra apart
    exact not_yields_other symbolic
      (fun sameKey => apart (index_eq_of_key distinctKeys inside insideOther sameKey))
      _ _ _ _ _ _ yields
  subst same
  rw [(yields_own symbolic _ _ _ _ _).mp yields]
  exact List.mem_map_of_mem (List.mem_finRange j)

/-- Under the key of no keyword the genuine records yield nothing. -/
theorem not_yields_foreign (symbolic : env.gcm.Symbolic) {derived : TokenKeyPair}
    (unused : derived.key ∉ keywords.map fun keyword => (env.derive keyword).key)
    {record : TokenKeyPair × SealedRecord DMax C T}
    (genuine : record ∈ genuineRecords env DMax seed keywords) (document : Word) (j : Fin DMax) :
    ¬ Yields (decryptLabel env.gcm) derived seed record.2 document j := by
  obtain ⟨k, inside, rfl⟩ := exists_of_mem_genuineRecords genuine
  apply not_yields_other symbolic
  intro sameKey
  exact unused (List.mem_map.mpr ⟨keywords[k], List.getElem_mem inside, sameKey.symm⟩)

/-! ## Queries -/

section Queries

variable [Inhabited C] [Inhabited T]

/-- A query with a token whose metadata is known returns the strictly ascending list of the
documents that genuine records with the home of the token yield. -/
theorem query_ok (symbolic : env.gcm.Symbolic)
    (ended : setup env DMax seed keywords limit = some run)
    (completed : run.result = .ok (index, dummies)) {derived : TokenKeyPair}
    {metadata : KeyMetadata index.config.layout}
    (known : index.config.metadata derived.token = some metadata) (componentAttempts : Nat) :
    ∃ documents attempts,
      query env seed index derived componentAttempts = some (.ok documents, attempts) ∧
      documents.Pairwise (· < ·) ∧
      ∀ document, document ∈ documents ↔ ∃ record ∈ genuineRecords env DMax seed keywords,
        (∃ other, index.config.metadata record.1.token = some other ∧
          other.home = metadata.home) ∧
        ∃ j, Yields (decryptLabel env.gcm) derived seed record.2 document j := by
  obtain ⟨-, genuineKnown, added, account, sealed⟩ := setup_accounts ended completed
  obtain ⟨candidates, found, few, members⟩ := account.queryAll known
  obtain ⟨documents, attempts, collected, sorted, yielded⟩ :=
    collectAuthenticatedResults_ok (decryptLabel env.gcm) derived seed few componentAttempts
  refine ⟨documents, attempts, by rw [query, found, Option.map_some, collected], sorted,
    fun document => ?_⟩
  rw [yielded]
  constructor
  · rintro ⟨candidate, listed, j, yields⟩
    rw [members] at listed
    obtain ⟨record, genuine, home, rfl⟩ :=
      genuine_of_yields symbolic sealed genuineKnown listed yields
    exact ⟨record, genuine, home, j, yields⟩
  · rintro ⟨record, genuine, ⟨other, derivedOther, sameHome⟩, j, yields⟩
    refine ⟨record.2, ?_, j, yields⟩
    rw [members, Multiset.mem_add, mem_sum_map]
    exact .inr ⟨record, genuine, (mem_recordEntry derivedOther _).mpr (by rw [sameHome])⟩

/-- After a completed Setup for keywords with distinct keys, the query for keyword `i` returns its
documents in order, and a query under a key of no keyword returns none; it fails to return only
when the rehash loop of its token never ends. -/
theorem setup_query (symbolic : env.gcm.Symbolic)
    (distinctKeys : (keywords.map fun keyword => (env.derive keyword).key).Nodup)
    (ended : setup env DMax seed keywords limit = some run)
    (completed : run.result = .ok (index, dummies)) (componentAttempts : Nat) :
    (∀ (i : Nat) (inside : i < keywords.length), ∃ documents attempts,
      query env seed index (env.derive keywords[i]) componentAttempts =
        some (.ok documents, attempts) ∧
      documents.map BitVec.toNat = (List.range DMax).map fun j => i * DMax + 1 + j) ∧
    ∀ derived : TokenKeyPair, derived.key ∉ keywords.map (fun keyword => (env.derive keyword).key) →
      (query env seed index derived componentAttempts).map Prod.fst =
        (index.config.metadata derived.token).map fun _ => .ok [] := by
  obtain ⟨bounded, genuineKnown, -⟩ := setup_accounts ended completed
  constructor
  · intro i inside
    obtain ⟨metadata, known⟩ := genuineKnown _ (mem_genuineRecords env seed inside)
    obtain ⟨documents, attempts, answered, sorted, members⟩ :=
      query_ok symbolic ended completed known componentAttempts
    have collected : documents = keywordDocuments DMax i := by
      refine eq_of_ascending sorted (keywordDocuments_ascending bounded inside) fun document => ?_
      rw [members]
      constructor
      · rintro ⟨record, genuine, -, j, yields⟩
        exact document_of_yields symbolic distinctKeys inside genuine yields
      · intro listed
        obtain ⟨j, -, rfl⟩ := List.mem_map.mp listed
        exact ⟨_, mem_genuineRecords env seed inside, ⟨metadata, known, rfl⟩, j,
          (yields_own symbolic _ _ _ _ _).mpr rfl⟩
    exact ⟨documents, attempts, answered, by rw [collected, toNat_keywordDocuments bounded inside]⟩
  · intro derived unused
    cases known : index.config.metadata derived.token with
    | none =>
      rw [query, queryAll_eq, known]
      rfl
    | some metadata =>
      obtain ⟨documents, attempts, answered, -, members⟩ :=
        query_ok symbolic ended completed known componentAttempts
      have empty : documents = [] := by
        refine List.eq_nil_iff_forall_not_mem.mpr fun document listed => ?_
        obtain ⟨record, genuine, -, j, yields⟩ := (members document).mp listed
        exact not_yields_foreign symbolic unused genuine document j yields
      rw [answered, empty]
      rfl

end Queries

/-- A small environment whose random source never fails. -/
def steadyEnvironment : Environment (AeadKey128 × Nonce × AssociatedData × Plaintext) Unit :=
  plainEnvironment fun _ => some (Vector.replicate _ 1)

/-- Two keywords with different keys. -/
def pairKeywords : List String := ["first", "second"]

/-- A Setup that is seen to complete has an index and a number of dummies. -/
theorem exists_of_completes {ended : Option (SetupRun DMax C T)}
    (completes : ended.any (fun run => run.result.toOption.isSome) = true) :
    ∃ run index dummies, ended = some run ∧ run.result = .ok (index, dummies) := by
  obtain ⟨run, ended, returned⟩ := (Option.any_eq_true _ _).mp completes
  cases result : run.result with
  | error fault =>
    rw [result] at returned
    contradiction
  | ok padded => exact ⟨run, padded.1, padded.2, ended, result⟩

/-- The queries after Setup for two keywords with two documents each. -/
theorem setup_query_pair :
    ∃ run index dummies, setup steadyEnvironment 2 7 pairKeywords 1 = some run ∧
      run.result = .ok (index, dummies) ∧
      (∀ (i : Nat) (inside : i < pairKeywords.length), ∃ documents attempts,
        query steadyEnvironment 7 index (steadyEnvironment.derive pairKeywords[i]) 0 =
          some (.ok documents, attempts) ∧
        documents.map BitVec.toNat = (List.range 2).map fun j => i * 2 + 1 + j) ∧
      ∀ derived : TokenKeyPair,
        derived.key ∉ pairKeywords.map (fun keyword => (steadyEnvironment.derive keyword).key) →
          (query steadyEnvironment 7 index derived 0).map Prod.fst =
            (index.config.metadata derived.token).map fun _ => .ok [] := by
  have completes : (setup steadyEnvironment 2 7 pairKeywords 1).any
      (fun run => run.result.toOption.isSome) = true := by
    decide +kernel
  obtain ⟨run, index, dummies, ended, completed⟩ := exists_of_completes completes
  have distinctKeys :
      (pairKeywords.map fun keyword => (steadyEnvironment.derive keyword).key).Nodup := by
    decide +kernel
  exact ⟨run, index, dummies, ended, completed,
    setup_query transparentGcm_symbolic distinctKeys ended completed 0⟩

/-! ## The trace -/

/-- The calls for the dummy of the shape with a number. -/
def shapeCalls (env : Environment C T) (DMax : Nat) (epoch : Word) (k : Nat) : List EncryptCall :=
  (env.oprfShape k).elim [] fun shape =>
    (recordCalls DMax (deriveTokenAndKey env.sha256 shape) epoch 0 false).toList

/-- The trace holds what it held at the start and the calls for every shape drawn. -/
def TraceOf (env : Environment C T) (epoch : Word) (start : List EncryptCall)
    (state : DummyState DMax C T) : Prop :=
  state.trace = start ++ (List.range state.drawn).flatMap (shapeCalls env DMax epoch)

/-- Drawing a shape keeps the account of the trace, whether or not the draw succeeds. -/
theorem fingerprintGenerator_trace (start : List EncryptCall) (config : Config indexBits) :
    (dummySource env DMax seed config).fingerprintGenerator.Keeps (TraceOf env seed start) := by
  intro state ending after ended holds
  have grown : ∀ calls, shapeCalls env DMax seed state.drawn = calls →
      state.trace ++ calls = start ++ (List.range (state.drawn + 1)).flatMap
        (shapeCalls env DMax seed) := by
    intro calls here
    rw [List.range_succ, List.flatMap_append, List.flatMap_singleton, here, ← List.append_assoc,
      ← holds]
  unfold dummySource at ended
  dsimp only at ended
  split at ended
  · rename_i failed
    obtain ⟨-, rfl⟩ := Prod.mk.inj (Option.some.inj ended)
    have extended := grown [] (by rw [shapeCalls, failed, Option.elim_none])
    rw [List.append_nil] at extended
    exact extended
  · rename_i shape drawn
    have extended := grown _ (by rw [shapeCalls, drawn, Option.elim_some])
    split at ended
    · obtain ⟨-, rfl⟩ := Prod.mk.inj (Option.some.inj ended)
      exact extended
    · obtain ⟨-, rfl⟩ := Prod.mk.inj (Option.some.inj ended)
      exact extended

/-- The keys derived for the first shapes drawn. -/
def dummyKeys (env : Environment C T) (count : Nat) : List AeadKey128 :=
  (List.range count).filterMap fun k =>
    (env.oprfShape k).map fun shape => (deriveTokenAndKey env.sha256 shape).key

/-- The keys of a keyword list. -/
def keywordKeys (env : Environment C T) (keywords : List String) : List AeadKey128 :=
  keywords.map fun keyword => (env.derive keyword).key

/-- The pairs a record is sealed with: its key with the nonce of every component. -/
def recordNonces (DMax : Nat) (key : AeadKey128) : List (AeadKey128 × Nonce) :=
  (List.finRange DMax).map fun j : Fin DMax => (key, makeComponentNonce (BitVec.ofNat 32 j.val))

/-- Sealing a record uses the pairs of its key. -/
theorem keyNonce_recordCalls (derived : TokenKeyPair) (epoch documentBase : Word) (valid : Bool) :
    (recordCalls DMax derived epoch documentBase valid).toList.map EncryptCall.keyNonce =
      recordNonces DMax derived.key := by
  unfold recordCalls recordNonces
  rw [Vector.toList_ofFn, List.map_ofFn, List.ofFn_eq_map]
  rfl

/-- Sealing the genuine records uses the pairs of the keyword keys. -/
theorem keyNonce_genuine :
    ((keywords.zipIdx).flatMap fun keyword =>
        (genuineCalls env DMax seed keyword.1 keyword.2).toList).map EncryptCall.keyNonce =
      (keywordKeys env keywords).flatMap (recordNonces DMax) := by
  have names : keywords.zipIdx.map Prod.fst = keywords := List.zipIdx_map_fst 0 keywords
  rw [List.map_flatMap, keywordKeys]
  conv_rhs => rw [← names, List.map_map, List.flatMap_map]
  refine List.flatMap_congr fun keyword _ => ?_
  rw [genuineCalls, keyNonce_recordCalls]
  rfl

/-- Sealing dummies uses the pairs of the keys derived for them. -/
theorem keyNonce_dummies (count : Nat) :
    ((List.range count).flatMap (shapeCalls env DMax seed)).map EncryptCall.keyNonce =
      (dummyKeys env count).flatMap (recordNonces DMax) := by
  unfold dummyKeys
  induction List.range count with
  | nil => rfl
  | cons k shapes ih =>
    rw [List.flatMap_cons, List.map_append, ih, shapeCalls]
    cases drawn : env.oprfShape k with
    | none => simp [drawn]
    | some shape =>
      rw [List.filterMap_cons, drawn, Option.map_some, List.flatMap_cons, Option.elim_some,
        keyNonce_recordCalls]

/-- Component indices below `2 ^ 32` have different nonces. -/
theorem recordNonces_nodup (small : DMax ≤ 2 ^ 32) (key : AeadKey128) :
    (recordNonces DMax key).Nodup := by
  refine (List.nodup_finRange DMax).map fun left right same => ?_
  have indices := congrArg BitVec.toNat (makeComponentNonce_injective (Prod.mk.inj same).2)
  have leftInside := left.isLt
  have rightInside := right.isLt
  rw [BitVec.toNat_ofNat, BitVec.toNat_ofNat, Nat.mod_eq_of_lt (by omega),
    Nat.mod_eq_of_lt (by omega)] at indices
  exact Fin.ext indices

variable [Inhabited C] [Inhabited T]

/-- The pairs of a run of Setup: those of every keyword, then those of every dummy drawn, or none
when Setup does not begin. -/
theorem setup_keyNonce (ended : setup env DMax seed keywords limit = some run) :
    run.trace = [] ∨ run.trace.map EncryptCall.keyNonce =
      (keywordKeys env keywords ++ dummyKeys env run.drawn).flatMap (recordNonces DMax) := by
  unfold setup at ended
  split at ended
  · exact .inl (by rw [← Option.some.inj ended])
  · right
    rw [makeGenuine_eq] at ended
    dsimp only at ended
    rw [List.nil_append] at ended
    split at ended
    · rw [← Option.some.inj ended]
      dsimp only
      rw [keyNonce_genuine, dummyKeys, List.range_zero, List.filterMap_nil, List.append_nil]
    · rename_i tried found
      obtain ⟨padding, padded, rfl⟩ := Option.map_eq_some_iff.mp ended
      have traced : TraceOf env seed ((keywords.zipIdx).flatMap fun keyword =>
          (genuineCalls env DMax seed keyword.1 keyword.2).toList) padding.2 := by
        refine DummySource.fillEmptySlots_keeps (fingerprintGenerator_trace _ tried.config)
          (fun state ending after given holds => ?_) (fun candidate => Callback.keeps_pure true)
          padded ?_
        · obtain ⟨-, rfl⟩ := Prod.mk.inj (Option.some.inj given)
          exact holds
        · rw [TraceOf, List.range_zero, List.flatMap_nil, List.append_nil]
      dsimp only
      rw [traced, List.map_append, keyNonce_genuine, keyNonce_dummies, List.flatMap_append]

/-- In a run of Setup whose genuine and dummy keys are distinct, no call of `EncryptLabel` uses a
key with a nonce that another call used it with. -/
theorem setup_nonces_fresh (small : DMax ≤ 2 ^ 32)
    (ended : setup env DMax seed keywords limit = some run)
    (distinctKeys : (keywordKeys env keywords ++ dummyKeys env run.drawn).Nodup) :
    (run.trace.map EncryptCall.keyNonce).Nodup := by
  rcases setup_keyNonce ended with none | pairs
  · rw [none]
    exact List.nodup_nil
  · rw [pairs]
    refine nodup_flatMap_of_key Prod.fst distinctKeys
      (fun key _ => recordNonces_nodup small key) fun key _ pair inside => ?_
    obtain ⟨j, -, rfl⟩ := List.mem_map.mp inside
    rfl

/-- A random source whose shapes are numbered from one on. -/
def numberedShape (k : Nat) : Option OprfOutput :=
  some (Vector.replicate _ (BitVec.ofNat 8 (k + 1)))

/-- Setup for two keywords with three documents each, where padding draws two shapes. -/
theorem setup_nonces_fresh_pair :
    ∃ run, setup (plainEnvironment numberedShape) 3 7 pairKeywords 1 = some run ∧
      run.drawn = 2 ∧ (run.trace.map EncryptCall.keyNonce).Nodup := by
  have checked : (setup (plainEnvironment numberedShape) 3 7 pairKeywords 1).any
      (fun run => run.drawn = 2) = true := by
    decide +kernel
  obtain ⟨run, ended, drawn⟩ := (Option.any_eq_true _ _).mp checked
  have drawn : run.drawn = 2 := of_decide_eq_true drawn
  have distinctKeys : (keywordKeys (plainEnvironment numberedShape) pairKeywords ++
      dummyKeys (plainEnvironment numberedShape) run.drawn).Nodup := by
    rw [drawn]
    decide +kernel
  exact ⟨run, ended, drawn, setup_nonces_fresh (by decide) ended distinctKeys⟩

end Vlse.Protocol
