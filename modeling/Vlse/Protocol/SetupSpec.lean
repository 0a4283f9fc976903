import Vlse.Protocol.Setup
/-!
# What Setup leaves for a query

A completed Setup holds exactly one entry for every keyword, whatever attempts failed before and
in whatever order the records went in, and beside them only records sealed as invalid. A genuine
record yields its documents under its own key and nothing under any other; a dummy yields nothing
under any key. Hence a query for a keyword returns its documents and nothing else.
-/

namespace Vlse.Protocol

open Vlse.Filter Label Oprf

variable {C T : Type*} {DMax : Nat}

/-! ## Sealed records -/

/-- The record sealed for given calls. -/
def sealRecord (gcm : Gcm C T) (calls : Vector EncryptCall DMax) : SealedRecord DMax C T :=
  calls.map (encryptLabel gcm)

/-- The record of the keyword with a number. -/
def genuineCalls (env : Environment C T) (DMax : Nat) (epoch : Word) (keyword : String)
    (i : Nat) : Vector EncryptCall DMax :=
  recordCalls DMax (env.derive keyword) epoch (BitVec.ofNat 64 (i * DMax + 1)) true

/-- The genuine records are sealed one for each keyword in order, and the trace says so. -/
theorem makeGenuine_eq (env : Environment C T) (DMax : Nat) (epoch : Word) (keywords : List String)
    (i : Nat) (trace : List EncryptCall) :
    makeGenuine env DMax epoch keywords i trace =
      ((keywords.zipIdx i).map fun keyword => (env.derive keyword.1,
          sealRecord env.gcm (genuineCalls env DMax epoch keyword.1 keyword.2)),
        trace ++ (keywords.zipIdx i).flatMap fun keyword =>
          (genuineCalls env DMax epoch keyword.1 keyword.2).toList) := by
  induction keywords generalizing i trace with
  | nil => simp [makeGenuine]
  | cons keyword keywords ih =>
    rw [makeGenuine, ih, List.zipIdx_cons, List.map_cons, List.flatMap_cons, ← List.append_assoc]
    rfl

/-- The call for a component of a record. -/
theorem get_recordCalls (derived : TokenKeyPair) (epoch documentBase : Word) (valid : Bool)
    (j : Fin DMax) :
    (recordCalls DMax derived epoch documentBase valid).get j =
      { key := derived.key, epoch, token := derived.token, componentIndex := BitVec.ofNat 32 j,
        valid, documentIdentifier := if valid then documentBase + BitVec.ofNat 64 j else 0 } := by
  unfold recordCalls
  exact Vector.getElem_ofFn j.isLt

/-- The label for a component of a record. -/
theorem get_sealRecord (gcm : Gcm C T) (calls : Vector EncryptCall DMax) (j : Fin DMax) :
    (sealRecord gcm calls).get j = encryptLabel gcm (calls.get j) :=
  Vector.getElem_map _ j.isLt

/-- The genuine records of a keyword list. -/
def genuineRecords (env : Environment C T) (DMax : Nat) (epoch : Word) (keywords : List String) :
    List (TokenKeyPair × SealedRecord DMax C T) :=
  (keywords.zipIdx).map fun keyword => (env.derive keyword.1,
    sealRecord env.gcm (genuineCalls env DMax epoch keyword.1 keyword.2))

/-- The record of the keyword with number `i`. -/
theorem mem_genuineRecords (env : Environment C T) (seed : Word) {keywords : List String} {i : Nat}
    (inside : i < keywords.length) :
    (env.derive keywords[i],
      sealRecord env.gcm (genuineCalls env DMax seed keywords[i] i)) ∈
        genuineRecords env DMax seed keywords :=
  List.mem_map.mpr ⟨(keywords[i], i), List.mem_zipIdx_iff_getElem?.mpr (by simp [inside]), rfl⟩

/-- Every genuine record is that of some keyword. -/
theorem exists_of_mem_genuineRecords {env : Environment C T} {seed : Word}
    {keywords : List String} {record : TokenKeyPair × SealedRecord DMax C T}
    (genuine : record ∈ genuineRecords env DMax seed keywords) :
    ∃ (k : Nat) (inside : k < keywords.length), record = (env.derive keywords[k],
      sealRecord env.gcm (genuineCalls env DMax seed keywords[k] k)) := by
  obtain ⟨⟨keyword, k⟩, placed, rfl⟩ := List.mem_map.mp genuine
  obtain ⟨inside, same⟩ := List.getElem?_eq_some_iff.mp (List.mem_zipIdx_iff_getElem?.mp placed)
  dsimp only at inside same
  exact ⟨k, inside, by rw [← same]⟩

section Yields

variable {gcm : Gcm C T} (symbolic : gcm.Symbolic)

include symbolic

/-- A genuine record yields its documents under its own key and context. -/
theorem yields_own (derived : TokenKeyPair) (epoch documentBase document : Word) (j : Fin DMax) :
    Yields (decryptLabel gcm) derived epoch
        (sealRecord gcm (recordCalls DMax derived epoch documentBase true)) document j ↔
      document = documentBase + BitVec.ofNat 64 j := by
  have opened := decryptLabel_own symbolic
    ((recordCalls DMax derived epoch documentBase true).get j) ⟨false, 0⟩
  rw [get_recordCalls] at opened
  unfold Yields
  rw [get_sealRecord, get_recordCalls, opened]
  constructor
  · rintro ⟨outputs, decoded, -, rfl⟩
    rw [← (Prod.mk.inj decoded).2]
    rfl
  · rintro rfl
    exact ⟨_, rfl, rfl, rfl⟩

/-- A record yields nothing under another key. -/
theorem not_yields_other {owner derived : TokenKeyPair} (apart : derived.key ≠ owner.key)
    (epoch sealedEpoch documentBase document : Word) (valid : Bool) (j : Fin DMax) :
    ¬ Yields (decryptLabel gcm) derived epoch
      (sealRecord gcm (recordCalls DMax owner sealedEpoch documentBase valid)) document j := by
  rintro ⟨outputs, decoded, -, -⟩
  rw [get_sealRecord, get_recordCalls, decryptLabel_other symbolic _ apart] at decoded
  simp at decoded

/-- A dummy yields nothing under any key, its own included. -/
theorem not_yields_dummy (owner derived : TokenKeyPair) (epoch sealedEpoch documentBase : Word)
    (document : Word) (j : Fin DMax) :
    ¬ Yields (decryptLabel gcm) derived epoch
      (sealRecord gcm (recordCalls DMax owner sealedEpoch documentBase false)) document j := by
  rintro ⟨outputs, decoded, valid, -⟩
  rw [get_sealRecord, get_recordCalls] at decoded
  rw [decryptLabel_accepted symbolic _ decoded] at valid
  contradiction

end Yields

/-! ## Insertion of the genuine records -/

/-- Walking all places of a list walks its items. -/
theorem map_finRange_get {α β : Type*} (items : List α) (f : α → β) :
    (List.finRange items.length).map (fun place => f (items.get place)) = items.map f := by
  conv_rhs => rw [← List.map_get_finRange items, List.map_map]
  rfl

section Insertion

variable {P : Type*} {config : Config indexBits} {records : List (TokenKeyPair × P)}

/-- What a record adds to the contents once its insertion returned true. -/
def recordEntry (config : Config indexBits) (record : TokenKeyPair × P) :
    Multiset (Home config.layout × P) :=
  acceptedEntry config record.1.token record.2 (.ok true)

/-- An insertion that returned true had a token whose metadata is known. -/
theorem metadata_of_accepted {token : Token128} {payload : P}
    {state after : State indexBits config.layout.bucketCount P} (canonical : Canonical state.store)
    (accepted : insert config token payload state = (.ok true, after)) :
    ∃ metadata, config.metadata token = some metadata := by
  have outcome := insert_outcome config token payload state canonical
  rw [accepted] at outcome
  cases outcome with
  | stored unpadded below derived canonical gained => exact ⟨_, derived⟩

/-- An insertion loop that runs through has added the entry of every record it walked. -/
theorem insertAll_accounts {order : List (Fin records.length)}
    {state after : State indexBits config.layout.bucketCount P}
    {held : Multiset (Home config.layout × P)} (account : Accounts config.layout state held)
    (inserted : insertAll config records order state = (.ok true, after)) :
    Accounts config.layout after
        ((order.map fun index => recordEntry config (records.get index)).sum + held) ∧
      ∀ index ∈ order, ∃ metadata, config.metadata (records.get index).1.token = some metadata := by
  induction order generalizing state held with
  | nil =>
    rw [insertAll] at inserted
    obtain ⟨-, rfl⟩ := Prod.mk.inj inserted
    exact ⟨by simpa using account, by simp⟩
  | cons index order ih =>
    rw [insertAll] at inserted
    split at inserted
    · rename_i between accepted
      have step := account.insert (records.get index).1.token (records.get index).2
      rw [accepted] at step
      obtain ⟨total, rest⟩ := ih step inserted
      constructor
      · rw [List.map_cons, List.sum_cons, add_comm (recordEntry _ _), add_assoc]
        exact total
      · intro other walked
        rcases List.mem_cons.mp walked with rfl | later
        · exact metadata_of_accepted account.canonical accepted
        · exact rest other later
    · rename_i refused
      exact absurd inserted (refused after)

/-- An insertion loop over every place of a record list, in any order, has added the entry of
every record once. -/
theorem insertAll_complete {order : List (Fin records.length)}
    {state after : State indexBits config.layout.bucketCount P}
    (complete : order.Perm (List.finRange records.length))
    (account : Accounts config.layout state 0)
    (inserted : insertAll config records order state = (.ok true, after)) :
    Accounts config.layout after ((records.map (recordEntry config)).sum) ∧
      ∀ record ∈ records, ∃ metadata, config.metadata record.1.token = some metadata := by
  obtain ⟨total, known⟩ := insertAll_accounts account inserted
  have reordered := (complete.map fun index => recordEntry config (records.get index)).sum_eq
  rw [map_finRange_get] at reordered
  rw [reordered, add_zero] at total
  refine ⟨total, fun record inside => ?_⟩
  obtain ⟨place, rfl⟩ := List.get_of_mem inside
  exact known place (complete.mem_iff.mpr (List.mem_finRange place))

/-- A record with known metadata has one entry. -/
theorem card_recordEntry {record : TokenKeyPair × P}
    (known : ∃ metadata, config.metadata record.1.token = some metadata) :
    (recordEntry config record).card = 1 := by
  obtain ⟨metadata, derived⟩ := known
  rw [recordEntry, acceptedEntry, derived]
  exact Multiset.card_singleton _

/-- Records with known metadata have one entry each. -/
theorem card_recordEntries
    (known : ∀ record ∈ records, ∃ metadata, config.metadata record.1.token = some metadata) :
    (records.map (recordEntry config)).sum.card = records.length := by
  induction records with
  | nil => rfl
  | cons record records ih =>
    have rest := ih fun other inside => known other (List.mem_cons_of_mem record inside)
    have first := card_recordEntry (known record List.mem_cons_self)
    rw [List.map_cons, List.sum_cons, Multiset.card_add, first, rest, List.length_cons,
      Nat.add_comm]

variable [Inhabited P] {env : Environment C T} {seed : Word}

/-- A retry loop that ends with an index has inserted every record once in some attempt. -/
theorem retryLoop_accounts {remaining attempt : Nat} {order : List (Fin records.length)}
    {totals : SetupTotals} {index : Index P}
    (complete : order.Perm (List.finRange records.length))
    (ended : (retryLoop env seed records remaining attempt order totals).1 = .ok index) :
    Accounts index.config.layout index.state
        ((records.map fun record => recordEntry index.config record).sum) ∧
      ∀ record ∈ records, ∃ metadata, index.config.metadata record.1.token = some metadata := by
  induction remaining generalizing attempt order totals with
  | zero =>
    rw [retryLoop] at ended
    contradiction
  | succ remaining ih =>
    rw [retryLoop] at ended
    split at ended
    · contradiction
    · -- the next attempt starts from an empty filter and a further reordering
      have shuffled := (env.shuffle.perm
        (seed ^^^ (0x3c6ef372fe94f82b#64 + BitVec.ofNat 64 attempt)) order).trans complete
      dsimp only at ended
      split at ended
      · contradiction
      · rename_i inserted
        obtain rfl := Except.ok.inj ended
        exact insertAll_complete shuffled (accounts_construct _ _) inserted
      · exact ih shuffled ended

/-- A retry loop that ends with an index has filled one slot of it for each record. -/
theorem retryLoop_filledSlots {remaining attempt : Nat} {order : List (Fin records.length)}
    {totals : SetupTotals} {index : Index P}
    (complete : order.Perm (List.finRange records.length))
    (ended : (retryLoop env seed records remaining attempt order totals).1 = .ok index) :
    index.state.filledSlots = records.length := by
  have held := retryLoop_accounts complete ended
  exact held.1.counted.trans (card_recordEntries held.2)

end Insertion

/-! ## Dummies -/

section Dummies

variable {env : Environment C T} {epoch : Word} {config : Config indexBits}
  {state after : DummyState DMax C T}

/-- The pending record was sealed as a dummy. -/
def PendingDummy (env : Environment C T) (epoch : Word) (state : DummyState DMax C T) : Prop :=
  ∃ owner, state.pendingRecord = sealRecord env.gcm (recordCalls DMax owner epoch 0 false)

/-- The fingerprint callback leaves a dummy pending. -/
theorem fingerprintGenerator_pending {word : Word}
    (generated : (dummySource env DMax epoch config).fingerprintGenerator state =
      some (.ok word, after)) : PendingDummy env epoch after := by
  unfold dummySource at generated
  dsimp only at generated
  split at generated
  · simp at generated
  · split at generated
    · simp at generated
    · rename_i shape _ _ _ _
      obtain ⟨-, rfl⟩ := Prod.mk.inj (Option.some.inj generated)
      exact ⟨deriveTokenAndKey env.sha256 shape, rfl⟩

/-- A fingerprint leaves the rejection loop with a dummy pending. -/
theorem drawFingerprint_pending {draws : Nat} {fingerprint : Fingerprint indexBits}
    (drawn : (dummySource env DMax epoch config).drawFingerprint draws state =
      some (.ok fingerprint, after)) : PendingDummy env epoch after := by
  induction draws generalizing state with
  | zero => simp [DummySource.drawFingerprint] at drawn
  | succ draws ih =>
    rw [DummySource.drawFingerprint] at drawn
    obtain ⟨word, between, generated, drawn⟩ := Callback.bind_eq_ok drawn
    dsimp only at drawn
    split at drawn
    · exact ih drawn
    · obtain ⟨allowed, later, asked, drawn⟩ := Callback.bind_eq_ok drawn
      obtain ⟨-, rfl⟩ := Prod.mk.inj (Option.some.inj asked)
      split at drawn
      · obtain ⟨-, rfl⟩ := Prod.mk.inj (Option.some.inj drawn)
        exact fingerprintGenerator_pending generated
      · exact ih drawn

/-- A dummy drawn carries a record sealed as a dummy. -/
theorem drawRecord_sealed {limit : Nat} {record : Record indexBits (SealedRecord DMax C T)}
    (drawn : (dummySource env DMax epoch config).drawRecord limit state =
      some (.ok record, after)) :
    ∃ owner, record.payload = sealRecord env.gcm (recordCalls DMax owner epoch 0 false) := by
  obtain ⟨fingerprint, between, found, drawn⟩ := Callback.bind_eq_ok drawn
  obtain ⟨payload, later, given, drawn⟩ := Callback.bind_eq_ok drawn
  obtain ⟨samePayload, rfl⟩ := Prod.mk.inj (Option.some.inj given)
  obtain ⟨sameRecord, -⟩ := Prod.mk.inj (Option.some.inj drawn)
  obtain ⟨owner, pending⟩ := drawFingerprint_pending found
  exact ⟨owner, by rw [← Except.ok.inj sameRecord, ← Except.ok.inj samePayload, pending]⟩

/-- All dummies drawn carry records sealed as dummies. -/
theorem drawRecords_sealed {limit count : Nat} {record : Record indexBits (SealedRecord DMax C T)}
    (drawn : record ∈ (dummySource env DMax epoch config).drawRecords limit count state) :
    ∃ owner, record.payload = sealRecord env.gcm (recordCalls DMax owner epoch 0 false) := by
  induction count generalizing state with
  | zero => simp [DummySource.drawRecords] at drawn
  | succ count ih =>
    rw [DummySource.drawRecords] at drawn
    split at drawn
    · rename_i first _ here
      rcases List.mem_cons.mp drawn with rfl | later
      · exact drawRecord_sealed here
      · exact ih later
    · simp at drawn

/-- A completed padding adds only records sealed as dummies. -/
theorem padding_accounts {limit dummies : Nat}
    {unpadded reached : State indexBits config.layout.bucketCount (SealedRecord DMax C T)}
    {held : Multiset (Home config.layout × SealedRecord DMax C T)}
    (account : Accounts config.layout unpadded held)
    (padded : fillEmptySlots (dummySource env DMax epoch config) limit unpadded state =
      some ((.ok dummies, reached), after)) :
    ∃ added, Accounts config.layout reached (added + held) ∧ ∀ item ∈ added, ∃ owner,
      item.2 = sealRecord env.gcm (recordCalls DMax owner epoch 0 false) := by
  obtain ⟨added, total, sealed⟩ := account.fill padded
  refine ⟨added, total, fun item inside => ?_⟩
  have listed : itemRecord item ∈ added.map itemRecord := Multiset.mem_map_of_mem _ inside
  rw [sealed] at listed
  exact drawRecords_sealed (Multiset.mem_coe.mp listed)

end Dummies

/-! ## The padded index -/

variable [Inhabited C] [Inhabited T] {env : Environment C T} {seed : Word}
  {keywords : List String} {limit : Nat} {run : SetupRun DMax C T}
  {index : Index (SealedRecord DMax C T)} {dummies : Nat}

/-- A completed Setup has padded the index that some attempt filled with the genuine records;
document numbers have not wrapped. -/
theorem setup_ok (ended : setup env DMax seed keywords limit = some run)
    (completed : run.result = .ok (index, dummies)) :
    keywords.length * genuineRecordBytes DMax ≤ 2 ^ 63 - 1 ∧
    ∃ (tried : Index (SealedRecord DMax C T))
      (reached : State indexBits tried.config.layout.bucketCount (SealedRecord DMax C T))
      (start after : DummyState DMax C T),
      (retryLoop env seed (genuineRecords env DMax seed keywords) 4 0 (List.finRange _) {}).1 =
        .ok tried ∧
      fillEmptySlots (dummySource env DMax seed tried.config) limit tried.state start =
        some ((.ok dummies, reached), after) ∧
      index = ⟨tried.config, reached⟩ := by
  unfold setup at ended
  split at ended
  · rw [← Option.some.inj ended] at completed
    contradiction
  · rename_i bounded
    rw [makeGenuine_eq] at ended
    dsimp only at ended
    split at ended
    · rw [← Option.some.inj ended] at completed
      contradiction
    · rename_i tried found
      obtain ⟨⟨⟨ending, reached⟩, after⟩, padded, rfl⟩ := Option.map_eq_some_iff.mp ended
      cases ending with
      | ok generated =>
        obtain ⟨rfl, rfl⟩ := Prod.mk.inj (Except.ok.inj completed)
        exact ⟨not_lt.mp bounded, tried, reached, _, after, found, padded, rfl⟩
      | error fault => contradiction

/-- A completed Setup holds the entries of all genuine records, and beside them only records
sealed as dummies; document numbers have not wrapped. -/
theorem setup_accounts (ended : setup env DMax seed keywords limit = some run)
    (completed : run.result = .ok (index, dummies)) :
    keywords.length * genuineRecordBytes DMax ≤ 2 ^ 63 - 1 ∧
    (∀ record ∈ genuineRecords env DMax seed keywords,
      ∃ metadata, index.config.metadata record.1.token = some metadata) ∧
    ∃ added, Accounts index.config.layout index.state (added +
        ((genuineRecords env DMax seed keywords).map fun record =>
          recordEntry index.config record).sum) ∧
      ∀ item ∈ added, ∃ owner,
        item.2 = sealRecord env.gcm (recordCalls DMax owner seed 0 false) := by
  obtain ⟨bounded, tried, reached, start, after, found, padded, rfl⟩ := setup_ok ended completed
  have held := retryLoop_accounts (List.Perm.refl _) found
  exact ⟨bounded, held.2, padding_accounts held.1 padded⟩

/-- A completed Setup has a slot for every keyword and a dummy for every other slot. -/
theorem setup_total (ended : setup env DMax seed keywords limit = some run)
    (completed : run.result = .ok (index, dummies)) :
    keywords.length + dummies = index.config.layout.capacity := by
  obtain ⟨bounded, tried, reached, start, after, found, padded, rfl⟩ := setup_ok ended completed
  have filled := retryLoop_filledSlots (List.Perm.refl _) found
  have account := (retryLoop_accounts (List.Perm.refl _) found).1
  have total := account.fill_total padded
  rwa [filled, genuineRecords, List.length_map, List.length_zipIdx] at total

end Vlse.Protocol
