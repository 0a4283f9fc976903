import Vlse.Protocol.SetupSpec
/-!
# When Setup ends

Padding draws each dummy until its masked fingerprint is nonzero, and the fingerprint of a token
always is, so one draw for each empty slot is enough and Setup ends, unless a token rehashes for
ever. It completes when some attempt inserts every record, as the first does for up to four
keywords, and the random source never fails.
-/

namespace Vlse.Protocol

open ByteBits Vlse.Filter Label Oprf

variable {C T : Type*} {DMax : Nat} {env : Environment C T} {seed : Word}

/-! ## Padding ends -/

/-- Masking a fingerprint widened to a word gives it back. -/
theorem maskFingerprint_setWidth (F : FingerprintBits) (fingerprint : Fingerprint F) :
    maskFingerprint F (fingerprint.setWidth 64) = fingerprint := by
  have narrow := F.upper
  ext bit inside
  simp only [maskFingerprint, fingerprintMask, BitVec.getElem_setWidth, BitVec.getLsbD_and,
    BitVec.getLsbD_setWidth, BitVec.getLsbD_ushiftRight, BitVec.getLsbD_allOnes]
  have low : bit < 64 := by omega
  have mask : 64 - F.bits + bit < 64 := by omega
  simp [low, mask, BitVec.getLsbD_eq_getElem inside]

/-- What keeps padding from completing: a failed random source or an endless rehash. -/
def PaddingFails (env : Environment C T) (config : Config indexBits) : Prop :=
  (∃ k, env.oprfShape k = none) ∨ ∃ token, config.metadata token = none

/-- The fingerprint callback ends. -/
theorem fingerprintGenerator_ends (config : Config indexBits) :
    (dummySource env DMax seed config).fingerprintGenerator.Ends (PaddingFails env config) := by
  intro state
  unfold dummySource
  dsimp only
  cases drawn : env.oprfShape state.drawn with
  | none => exact ⟨_, _, rfl, .inr (.inl ⟨_, drawn⟩)⟩
  | some shape =>
    dsimp only
    cases known : config.metadata (deriveTokenAndKey env.sha256 shape).token with
    | none => exact ⟨_, _, rfl, .inr (.inr ⟨_, known⟩)⟩
    | some metadata => exact ⟨_, _, rfl, .inl ⟨_, rfl⟩⟩

/-- Every word the fingerprint callback returns masks to a nonzero fingerprint. -/
theorem fingerprintGenerator_ne_zero {config : Config indexBits}
    {state after : DummyState DMax C T} {word : Word}
    (generated : (dummySource env DMax seed config).fingerprintGenerator state =
      some (.ok word, after)) : maskFingerprint indexBits word ≠ 0 := by
  unfold dummySource at generated
  dsimp only at generated
  split at generated
  · simp at generated
  · split at generated
    · simp at generated
    · rename_i metadata known
      obtain ⟨returned, -⟩ := Prod.mk.inj (Option.some.inj generated)
      rw [← Except.ok.inj returned, maskFingerprint_setWidth]
      exact Config.metadata_fingerprint known

/-- Padding ends with one draw for each empty slot, and returns unless a callback may throw. -/
theorem fillEmptySlots_dummySource (env : Environment C T) (seed : Word)
    (config : Config indexBits) (draws : Nat)
    (state : State indexBits config.layout.bucketCount (SealedRecord DMax C T))
    (start : DummyState DMax C T) :
    ∃ result reached after,
      fillEmptySlots (dummySource env DMax seed config) (draws + 1) state start =
        some ((result, reached), after) ∧
      (state.padded = false → (∃ generated, result = .ok generated) ∨ PaddingFails env config) := by
  apply DummySource.fillEmptySlots_ends
  · apply DummySource.drawFingerprint_ends (fingerprintGenerator_ends config)
    · exact fun state word after => fingerprintGenerator_ne_zero
    · exact fun candidate => rfl
  · exact fun state => ⟨_, _, rfl, .inl ⟨_, rfl⟩⟩

/-! ## The retry loop -/

section Insertion

variable {P : Type*} {config : Config indexBits} {records : List (TokenKeyPair × P)}

/-- `Insert` leaves an index as padded as it was. -/
theorem insert_padded (config : Config indexBits) (token : Token128) (payload : P)
    {state : State indexBits config.layout.bucketCount P} (canonical : Canonical state.store) :
    (insert config token payload state).2.padded = state.padded := by
  have outcome := insert_outcome config token payload state canonical
  generalize insert config token payload state = ended at outcome ⊢
  cases outcome with
  | padded closed => rfl
  | atCapacity unpadded taken => rfl
  | unending unpadded never => rfl
  | stored unpadded below derived canonical gained => rfl
  | rolledBack unpadded below derived firstFull secondFull => rfl

/-- An insertion loop leaves an index as padded as it was. -/
theorem insertAll_padded {order : List (Fin records.length)}
    {state after : State indexBits config.layout.bucketCount P}
    {held : Multiset (Home config.layout × P)} (account : Accounts config.layout state held)
    (inserted : insertAll config records order state = (.ok true, after)) :
    after.padded = state.padded := by
  induction order generalizing state held with
  | nil =>
    rw [insertAll] at inserted
    obtain ⟨-, rfl⟩ := Prod.mk.inj inserted
    rfl
  | cons index order ih =>
    have kept := insert_padded config (records.get index).1.token (records.get index).2
      account.canonical
    have step := account.insert (records.get index).1.token (records.get index).2
    rw [insertAll] at inserted
    split at inserted
    · rename_i between accepted
      rw [accepted] at kept step
      rw [ih step inserted, kept]
    · rename_i refused
      exact absurd inserted (refused after)

/-- A filter with room for four records takes them without an eviction, because no bucket is full
before the last of them. -/
theorem insertAll_few {order : List (Fin records.length)}
    {state : State indexBits config.layout.bucketCount P}
    {held : Multiset (Home config.layout × P)} (account : Accounts config.layout state held)
    (unpadded : state.padded = false) (few : state.filledSlots + order.length ≤ 4)
    (known : ∀ token, ∃ metadata, config.metadata token = some metadata) :
    ∃ after, insertAll config records order state = (.ok true, after) := by
  induction order generalizing state held with
  | nil => exact ⟨state, rfl⟩
  | cons index order ih =>
    obtain ⟨metadata, derived⟩ := known (records.get index).1.token
    rw [List.length_cons] at few
    have positive := config.layout.positive
    have below : state.filledSlots < config.layout.capacity := by
      rw [Layout.capacity]
      omega
    have total : ∑ position, occupied (readBucket state.store position) = state.filledSlots := by
      rw [account.counted, ← account.contents, card_contents]
    have one := Finset.single_le_sum
      (fun position _ => Nat.zero_le (occupied (readBucket state.store position)))
      (Finset.mem_univ metadata.firstBucket)
    obtain ⟨store, stored⟩ := insert_of_room (records.get index).2 state unpadded below derived
      (by omega)
    have step := account.insert (records.get index).1.token (records.get index).2
    rw [stored] at step
    have less : (state.filledSlots + 1) + order.length ≤ 4 := by omega
    obtain ⟨after, rest⟩ := ih step unpadded less
    rw [insertAll, stored]
    exact ⟨after, rest⟩

variable [Inhabited P]

/-- The retry loop hands over an index that is not padded. -/
theorem retryLoop_padded {remaining attempt : Nat} {order : List (Fin records.length)}
    {totals : SetupTotals} {index : Index P}
    (ended : (retryLoop env seed records remaining attempt order totals).1 = .ok index) :
    index.state.padded = false := by
  induction remaining generalizing attempt order totals with
  | zero =>
    rw [retryLoop] at ended
    contradiction
  | succ remaining ih =>
    rw [retryLoop] at ended
    split at ended
    · contradiction
    · dsimp only at ended
      split at ended
      · contradiction
      · rename_i state inserted
        obtain rfl := Except.ok.inj ended
        exact insertAll_padded (accounts_construct _ _) inserted
      · exact ih ended

/-- The first attempt inserts up to four records. -/
theorem retryLoop_few (env : Environment C T) (seed : Word) (remaining : Nat)
    (totals : SetupTotals) (present : records ≠ []) (few : records.length ≤ 4)
    (known : ∀ token, ∃ metadata,
      (attemptConfig env seed records.length 0).metadata token = some metadata) :
    ∃ state after,
      retryLoop env seed records (remaining + 1) 0 (List.finRange records.length) totals =
        (.ok ⟨attemptConfig env seed records.length 0, state⟩, after) := by
  have asked : scheduledItems records.length 0 ≠ 0 := by
    have positive := List.length_pos_of_ne_nil present
    rw [scheduledItems]
    omega
  have shuffled := (env.shuffle.perm (seed ^^^ (0x3c6ef372fe94f82b#64 + BitVec.ofNat 64 0))
    (List.finRange records.length)).length_eq
  rw [List.length_finRange] at shuffled
  rw [retryLoop, if_neg asked]
  dsimp only
  have fits : (construct (P := P) (attemptConfig env seed records.length 0).layout (env.engineOf
      (seed ^^^ (0xbb67ae8584caa73b#64 + BitVec.ofNat 64 0)))).filledSlots +
        (env.shuffle.apply (seed ^^^ (0x3c6ef372fe94f82b#64 + BitVec.ofNat 64 0))
          (List.finRange records.length)).length ≤ 4 := by
    rw [shuffled]
    exact (Nat.zero_add _).trans_le few
  obtain ⟨after, inserted⟩ := insertAll_few (accounts_construct _ _) rfl fits known
  rw [inserted]
  exact ⟨_, _, rfl⟩

end Insertion

/-! ## Setup ends -/

section Setup

variable [Inhabited C] [Inhabited T]

/-- Draws never run out, whatever the environment: Setup returns, throws or meets a token that
rehashes for ever. -/
theorem setup_ends (env : Environment C T) (DMax : Nat) (seed : Word) (keywords : List String)
    (draws : Nat) : ∃ run, setup env DMax seed keywords (draws + 1) = some run := by
  unfold setup
  split
  · exact ⟨_, rfl⟩
  · dsimp only
    split
    · exact ⟨_, rfl⟩
    · rename_i index found
      obtain ⟨result, reached, after, filled, -⟩ := fillEmptySlots_dummySource env seed
        index.config draws index.state ⟨0, default, Vector.replicate DMax default,
          (makeGenuine env DMax seed keywords 0 []).2⟩
      rw [filled]
      exact ⟨_, rfl⟩

/-- Setup completes when the retry loop hands over an index that padding cannot fail on. -/
theorem setup_completes {keywords : List String} {index : Index (SealedRecord DMax C T)}
    {totals : SetupTotals} (draws : Nat)
    (bounded : keywords.length * genuineRecordBytes DMax ≤ 2 ^ 63 - 1)
    (tried : retryLoop env seed (genuineRecords env DMax seed keywords) 4 0 (List.finRange _) {} =
      (.ok index, totals))
    (sound : ¬ PaddingFails env index.config) :
    ∃ run padded dummies, setup env DMax seed keywords (draws + 1) = some run ∧
      run.result = .ok (padded, dummies) := by
  have unpadded : index.state.padded = false :=
    retryLoop_padded (congrArg Prod.fst tried)
  unfold setup
  rw [if_neg (not_lt.mpr bounded), makeGenuine_eq]
  dsimp only
  unfold genuineRecords at tried
  rw [tried]
  obtain ⟨result, reached, after, filled, kind⟩ := fillEmptySlots_dummySource env seed
    index.config draws index.state ⟨0, default, Vector.replicate DMax default,
      [] ++ keywords.zipIdx.flatMap fun keyword =>
        (genuineCalls env DMax seed keyword.1 keyword.2).toList⟩
  rcases kind unpadded with ⟨generated, rfl⟩ | fails
  · dsimp only
    rw [filled]
    exact ⟨_, _, _, rfl, rfl⟩
  · exact absurd fails sound

/-- For up to four keywords the first attempt succeeds, so Setup completes. -/
theorem setup_few (env : Environment C T) (seed : Word) {keywords : List String} (draws : Nat)
    (asked : keywords ≠ []) (few : keywords.length ≤ 4)
    (bounded : keywords.length * genuineRecordBytes DMax ≤ 2 ^ 63 - 1)
    (sound : ¬ PaddingFails env (attemptConfig env seed keywords.length 0)) :
    ∃ run index dummies, setup env DMax seed keywords (draws + 1) = some run ∧
      run.result = .ok (index, dummies) := by
  have counted : (genuineRecords env DMax seed keywords).length = keywords.length := by
    rw [genuineRecords, List.length_map, List.length_zipIdx]
  have known : ∀ token, ∃ metadata,
      (attemptConfig env seed (genuineRecords env DMax seed keywords).length 0).metadata token =
        some metadata := by
    rw [counted]
    exact fun token => Option.ne_none_iff_exists'.mp fun unending => sound (.inr ⟨token, unending⟩)
  have present : genuineRecords env DMax seed keywords ≠ [] := by
    rw [← List.length_pos_iff, counted]
    exact List.length_pos_of_ne_nil asked
  obtain ⟨state, totals, tried⟩ := retryLoop_few env seed 3 {} present (counted.trans_le few) known
  rw [← counted] at sound
  exact setup_completes draws bounded tried sound

end Setup

/-! ## A small environment -/

/-- An environment in the symbolic model: a keyword evaluates to its last letter, the digest repeats
the last byte hashed, every token has fingerprint 1, the filter has the least power of two of
buckets that holds its items at the target load, and the shapes drawn are given. -/
def plainEnvironment (oprfShape : Nat → Option OprfOutput) :
    Environment (AeadKey128 × Nonce × AssociatedData × Plaintext) Unit where
  directEvaluate keyword := Vector.replicate _ ((literalBytes keyword).getLast?.getD 0)
  sha256 bytes := Vector.replicate 32 (bytes.getLast?.getD 0)
  gcm := transparentGcm
  murmurHash64 _ := 1
  layoutOf items := .powerOfTwo indexBits (Nat.log2 (2 * ((items * 20 + 75) / 76) - 1))
  engineOf _ := countingEngine
  shuffle := ⟨fun _ items => items, fun _ items => .refl items⟩
  oprfShape

/-- Padding cannot fail in it while shapes are drawn. -/
theorem plainEnvironment_sound {oprfShape : Nat → Option OprfOutput}
    (drawn : ∀ k, oprfShape k ≠ none) (seed : Word) (keywordCount attempt : Nat) :
    ¬ PaddingFails (plainEnvironment oprfShape)
      (attemptConfig (plainEnvironment oprfShape) seed keywordCount attempt) := by
  rintro (⟨k, failed⟩ | ⟨token, unending⟩)
  · exact drawn k failed
  · have never := (Config.fingerprintOf_eq_none _ _).mp (Option.map_eq_none_iff.mp unending)
    exact absurd (never 0) (by decide : maskFingerprint indexBits 1 ≠ 0)

end Vlse.Protocol
