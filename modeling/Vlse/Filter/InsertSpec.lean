import Vlse.Filter.Contents
/-!
# What an insertion does

The invariant of an eviction chain says that the table and the carried record together hold what
the table held before the call and the incoming record, and that the journal leads back to the
table before the call. It is kept by every turn of the loop, whether or not a record meets its
own bucket again, so a chain that ends in a placement has added exactly the incoming entry and a
chain that is rolled back has changed nothing. The exceptions of `FirstEmpty` are never reached.
-/

namespace Vlse.Filter

variable {F : FingerprintBits} {P : Type*} {layout : Layout F}

/-- The journalled table leads back to `origin` and holds what `origin` held and one entry more. -/
structure Extends (origin : Store F layout.bucketCount P) (added : Home layout × P)
    (journalled : Journalled F layout.bucketCount P) : Prop where
  /-- The journal restores the origin. -/
  leadsBack : (bucketAccess F layout.bucketCount P).LeadsBack Canonical origin journalled
  /-- Nothing but the added entry is new, and nothing is lost. -/
  contents : contents layout journalled.1 = added ::ₘ contents layout origin

/-- The invariant of an eviction chain. -/
structure ChainInvariant (origin : Store F layout.bucketCount P) (added : Home layout × P)
    (chain : Chain F layout.bucketCount P) : Prop where
  /-- The journal restores the origin. -/
  leadsBack : (bucketAccess F layout.bucketCount P).LeadsBack Canonical origin chain.journalled
  /-- The carried record is not an empty slot. -/
  carried : Present chain.carried
  /-- Table and carried record hold what the origin held and the added entry. -/
  conserved : entry layout chain.currentBucket chain.carried ::ₘ
    contents layout chain.journalled.1 = added ::ₘ contents layout origin

variable {origin : Store F layout.bucketCount P} {added : Home layout × P}
  {chain : Chain F layout.bucketCount P}

/-- A journalled write keeps the way back. -/
theorem leadsBack_journalWrite {journalled : Journalled F layout.bucketCount P}
    (before : (bucketAccess F layout.bucketCount P).LeadsBack Canonical origin journalled)
    (position : Fin layout.bucketCount) (bucket : Bucket F P) :
    (bucketAccess F layout.bucketCount P).LeadsBack Canonical origin
      (journalWrite position bucket journalled) :=
  before.journalWrite bucketAccess_undoable position bucket

/-- Placing the carried record in a bucket with room ends the chain with everything stored. -/
theorem ChainInvariant.place (invariant : ChainInvariant origin added chain)
    (room : occupied (readBucket chain.journalled.1 chain.currentBucket) < 4) :
    Extends origin added (journalWrite chain.currentBucket
      (setRecord (readBucket chain.journalled.1 chain.currentBucket)
        (firstEmpty (readBucket chain.journalled.1 chain.currentBucket) room) chain.carried)
      chain.journalled) where
  leadsBack := leadsBack_journalWrite invariant.leadsBack _ _
  contents := by
    rw [← invariant.conserved]
    exact spread_place (entry layout) _ _ _ _ (firstEmpty_empty _ room) invariant.carried

/-- Displacing a resident of a full bucket keeps the invariant: the resident is carried on to
its own alternate bucket, where its entry is the same. -/
theorem ChainInvariant.displace (invariant : ChainInvariant origin added chain)
    (full : ¬ occupied (readBucket chain.journalled.1 chain.currentBucket) < 4)
    (slot : Fin 4) (randomEngine : RandomEngine) :
    ChainInvariant origin added (displace layout chain
      (readBucket chain.journalled.1 chain.currentBucket) slot randomEngine) where
  leadsBack := leadsBack_journalWrite invariant.leadsBack _ _
  carried := present_of_full _ full slot
  conserved := by
    rw [← invariant.conserved, Filter.displace, entry_alternate]
    exact spread_exchange (entry layout) _ _ _ _ (present_of_full _ full slot) invariant.carried

/-- Moving a resident to its alternate bucket, when that is another one with room, and putting the
carried record in its slot ends the chain with everything stored. -/
theorem ChainInvariant.move (invariant : ChainInvariant origin added chain)
    (full : ¬ occupied (readBucket chain.journalled.1 chain.currentBucket) < 4) (slot : Fin 4)
    {record : Record F P}
    (resident : recordAt (readBucket chain.journalled.1 chain.currentBucket) slot = record)
    (apart : layout.alternate chain.currentBucket record.fingerprint ≠ chain.currentBucket)
    (room : occupied (readBucket chain.journalled.1
      (layout.alternate chain.currentBucket record.fingerprint)) < 4) :
    Extends origin added
      (journalWrite (layout.alternate chain.currentBucket record.fingerprint)
        (setRecord (readBucket chain.journalled.1
            (layout.alternate chain.currentBucket record.fingerprint)) (firstEmpty _ room) record)
        (journalWrite chain.currentBucket
          (setRecord (readBucket chain.journalled.1 chain.currentBucket) slot chain.carried)
          chain.journalled)) := by
  subst resident
  have moved := invariant.displace full slot chain.randomEngine
  -- the bucket with room was read before the first write, which did not touch it
  have untouched := readBucket_writeBucket_other chain.journalled.1
    (setRecord (readBucket chain.journalled.1 chain.currentBucket) slot chain.carried)
    (Ne.symm apart)
  have stored := moved.place (by
    rw [Filter.displace, journalWrite_store, untouched]
    exact room)
  simp only [Filter.displace, journalWrite_store, untouched] at stored
  exact stored

/-- The shortcut stores both the carried record and the resident it moves. -/
theorem ChainInvariant.shortcut (invariant : ChainInvariant origin added chain)
    (full : ¬ occupied (readBucket chain.journalled.1 chain.currentBucket) < 4)
    (slots : List (Fin 4)) {outcome : Except Fault (Journalled F layout.bucketCount P)}
    (taken : shortcut layout chain (readBucket chain.journalled.1 chain.currentBucket) slots =
      some outcome) :
    ∃ journalled, outcome = .ok journalled ∧ Extends origin added journalled := by
  induction slots with
  | nil => simp [Filter.shortcut] at taken
  | cons slot slots ih =>
    rw [Filter.shortcut] at taken
    dsimp only at taken
    split at taken
    · exact ih taken
    · rename_i apart
      split at taken
      · exact ih taken
      · rename_i notFull
        have room := lt_of_le_of_ne (occupied_le _) notFull
        rw [placeFirstEmpty_of_room _ _ room] at taken
        cases taken
        exact ⟨_, rfl, invariant.move full slot rfl apart room⟩

/-- How the chain of a call can end: with everything stored after between one and the permitted
number of evictions, or exhausted with the invariant intact. It never throws. -/
inductive ChainOutcome (origin : Store F layout.bucketCount P) (added : Home layout × P) :
    ChainEnd F layout.bucketCount P → Prop
  | placed {length journalled randomEngine} (stored : Extends origin added journalled) :
    ChainOutcome origin added (.placed length journalled randomEngine)
  | exhausted {length chain} (invariant : ChainInvariant origin added chain) :
    ChainOutcome origin added (.exhausted length chain)

/-- Every turn of the loop keeps the invariant, so the loop ends in one of the two ways. -/
theorem evictLoop_outcome (chainLength remaining : Nat)
    (invariant : ChainInvariant origin added chain) :
    ChainOutcome origin added (evictLoop layout chain chainLength remaining) := by
  induction remaining generalizing chain chainLength with
  | zero => exact .exhausted invariant
  | succ remaining ih =>
    rw [evictLoop]
    split
    · rename_i room
      rw [placeFirstEmpty_of_room _ _ room]
      exact .placed (invariant.place room)
    · rename_i full
      cases taken : shortcut layout chain (readBucket chain.journalled.1 chain.currentBucket)
          allSlots with
      | none => exact ih _ (invariant.displace full _ _)
      | some outcome =>
        obtain ⟨journalled, rfl, stored⟩ := invariant.shortcut full _ taken
        exact .placed stored

/-! ## The call -/

variable {config : Config F} {token : Token128} {payload : P}
  {metadata : KeyMetadata config.layout}

/-- What a token with its payload adds to the contents. -/
def KeyMetadata.entry {layout : Layout F} (metadata : KeyMetadata layout) (payload : P) :
    Home layout × P :=
  (home layout metadata.firstBucket metadata.fingerprint, payload)

/-- A record with the fingerprint of a token contributes the entry of the token from either
candidate bucket. -/
theorem entry_of_candidate (derived : config.metadata token = some metadata) (payload : P)
    {position : Fin config.layout.bucketCount}
    (candidate : position = metadata.firstBucket ∨ position = metadata.secondBucket) :
    Filter.entry config.layout position ⟨metadata.fingerprint, payload⟩ =
      metadata.entry payload := by
  rcases candidate with rfl | rfl
  · rfl
  · rw [Config.metadata_secondBucket derived, Filter.entry, home_alternate, KeyMetadata.entry]

/-- The chain of a call ends with the record stored or exhausted with the invariant intact. -/
theorem evict_outcome (derived : config.metadata token = some metadata) (payload : P)
    {store : Store F config.layout.bucketCount P} (canonical : Canonical store)
    (firstFull : ¬ occupied (readBucket store metadata.firstBucket) < 4)
    (secondFull : ¬ occupied (readBucket store metadata.secondBucket) < 4)
    (randomEngine : RandomEngine) :
    ChainOutcome store (metadata.entry payload)
      (evict config metadata ⟨metadata.fingerprint, payload⟩ store randomEngine) := by
  have start : ∀ position, position = metadata.firstBucket ∨ position = metadata.secondBucket →
      ∀ engine, ChainInvariant store (metadata.entry payload)
        { journalled := (store, []), carried := ⟨metadata.fingerprint, payload⟩
          currentBucket := position, randomEngine := engine } := by
    intro position candidate engine
    refine ⟨CellAccess.LeadsBack.start canonical, Config.metadata_fingerprint derived, ?_⟩
    dsimp only
    rw [entry_of_candidate derived payload candidate]
  unfold evict
  dsimp only
  split
  · exact evictLoop_outcome _ _ ((start _ (.inl rfl) _).displace firstFull _ _)
  · exact evictLoop_outcome _ _ ((start _ (.inr rfl) _).displace secondFull _ _)

/-- The bucket a direct placement goes to. -/
def destination {layout : Layout F} (metadata : KeyMetadata layout)
    (store : Store F layout.bucketCount P) : Fin layout.bucketCount :=
  if useFirst metadata (occupied (readBucket store metadata.firstBucket))
      (occupied (readBucket store metadata.secondBucket)) then metadata.firstBucket
  else metadata.secondBucket

/-- The bucket placed in is the one read at the destination. -/
theorem lookup_destination {layout : Layout F} (metadata : KeyMetadata layout)
    (store : Store F layout.bucketCount P) :
    (if useFirst metadata (occupied (readBucket store metadata.firstBucket))
        (occupied (readBucket store metadata.secondBucket)) then
      readBucket store metadata.firstBucket else readBucket store metadata.secondBucket) =
        readBucket store (destination metadata store) := by
  unfold destination
  split <;> rfl

/-- The destination is a candidate bucket. -/
theorem destination_candidate {layout : Layout F} (metadata : KeyMetadata layout)
    (store : Store F layout.bucketCount P) :
    destination metadata store = metadata.firstBucket ∨
      destination metadata store = metadata.secondBucket := by
  unfold destination
  split
  · exact .inl rfl
  · exact .inr rfl

/-- When either candidate bucket has room, the destination has. -/
theorem destination_room {layout : Layout F} {metadata : KeyMetadata layout}
    {store : Store F layout.bucketCount P}
    (room : occupied (readBucket store metadata.firstBucket) < 4 ∨
      occupied (readBucket store metadata.secondBucket) < 4) :
    occupied (readBucket store (destination metadata store)) < 4 := by
  unfold destination useFirst
  by_cases same : metadata.firstBucket = metadata.secondBucket
  · simpa [same] using room
  · simp only [same, false_or, decide_eq_true_eq]
    split <;> omega

/-- A direct placement adds the entry of the token to the contents. -/
theorem direct_placement (derived : config.metadata token = some metadata) (payload : P)
    {store : Store F config.layout.bucketCount P}
    (room : occupied (readBucket store metadata.firstBucket) < 4 ∨
      occupied (readBucket store metadata.secondBucket) < 4) :
    contents config.layout (writeBucket store (destination metadata store)
      (setRecord (readBucket store (destination metadata store))
        (firstEmpty _ (destination_room room)) ⟨metadata.fingerprint, payload⟩)) =
      metadata.entry payload ::ₘ contents config.layout store := by
  rw [← entry_of_candidate derived payload (destination_candidate metadata store)]
  exact spread_place (Filter.entry config.layout) _ _ _ _ (firstEmpty_empty _ _)
    (Config.metadata_fingerprint derived)

/-- Everything a call of `Insert` can do from a canonical table. -/
inductive InsertOutcome (config : Config F) (token : Token128) (payload : P)
    (state : State F config.layout.bucketCount P) :
    Except Fault Bool × State F config.layout.bucketCount P → Prop
  /-- The table is padded: the call throws. -/
  | padded (closed : state.padded = true) :
    InsertOutcome config token payload state
      (.error (.logicError "cannot insert genuine records after dummy padding"), state)
  /-- Every slot is taken: the call is refused. -/
  | atCapacity (unpadded : state.padded = false)
    (taken : config.layout.capacity ≤ state.filledSlots) :
    InsertOutcome config token payload state
      (.ok false, { state with statistics :=
        { state.statistics with failedInserts := state.statistics.failedInserts + 1 } })
  /-- The rehash loop of the token never ends. -/
  | unending (unpadded : state.padded = false) (never : config.metadata token = none) :
    InsertOutcome config token payload state (.error .unending, state)
  /-- The record is stored, directly or by a chain; the contents gain its entry. -/
  | stored {metadata : KeyMetadata config.layout} {length : Nat}
    {store : Store F config.layout.bucketCount P} {randomEngine : RandomEngine}
    (unpadded : state.padded = false) (below : state.filledSlots < config.layout.capacity)
    (derived : config.metadata token = some metadata) (canonical : Canonical store)
    (gained : contents config.layout store =
      metadata.entry payload ::ₘ contents config.layout state.store) :
    InsertOutcome config token payload state (.ok true, succeed state length store randomEngine)
  /-- The chain is rolled back: the table is the one before the call. -/
  | rolledBack {metadata : KeyMetadata config.layout} {length : Nat} {randomEngine : RandomEngine}
    (unpadded : state.padded = false) (below : state.filledSlots < config.layout.capacity)
    (derived : config.metadata token = some metadata)
    (firstFull : occupied (readBucket state.store metadata.firstBucket) = 4)
    (secondFull : occupied (readBucket state.store metadata.secondBucket) = 4) :
    InsertOutcome config token payload state
      (.ok false, giveUp state length state.store randomEngine)

/-- Where the first candidate bucket is read in place of an equal second one, the second is read. -/
theorem read_secondBucket {layout : Layout F} (metadata : KeyMetadata layout)
    (store : Store F layout.bucketCount P) :
    (if metadata.secondBucket = metadata.firstBucket then readBucket store metadata.firstBucket
      else readBucket store metadata.secondBucket) = readBucket store metadata.secondBucket := by
  split
  · rename_i same
    rw [same]
  · rfl

/-- A call that gets as far as the candidate buckets stores its record or is rolled back. -/
theorem insertRecord_outcome (payload : P) {state : State F config.layout.bucketCount P}
    (canonical : Canonical state.store) (unpadded : state.padded = false)
    (below : state.filledSlots < config.layout.capacity)
    (derived : config.metadata token = some metadata) :
    InsertOutcome config token payload state (insertRecord config metadata payload state) := by
  simp only [insertRecord, read_secondBucket]
  split
  · rename_i room
    have stored := direct_placement derived payload room
    rw [lookup_destination, placeFirstEmpty_of_room _ _ (destination_room room)]
    exact .stored unpadded below derived (canonical_writeBucket canonical _ _) stored
  · rename_i full
    rw [not_or] at full
    have ended := evict_outcome derived payload canonical full.1 full.2 state.randomEngine
    generalize evict config metadata ⟨metadata.fingerprint, payload⟩ state.store
      state.randomEngine = chainEnd at ended ⊢
    cases ended with
    | placed stored =>
      exact .stored unpadded below derived stored.leadsBack.admitted stored.contents
    | exhausted invariant =>
      have restored : rollBack _ = state.store := invariant.leadsBack.back
      dsimp only
      rw [restored]
      exact .rolledBack unpadded below derived
        (le_antisymm (occupied_le _) (not_lt.mp full.1))
        (le_antisymm (occupied_le _) (not_lt.mp full.2))

/-- `Insert` does one of these. -/
theorem insert_outcome (config : Config F) (token : Token128) (payload : P)
    (state : State F config.layout.bucketCount P) (canonical : Canonical state.store) :
    InsertOutcome config token payload state (insert config token payload state) := by
  unfold insert
  split
  · rename_i closed
    exact .padded closed
  · rename_i unpadded
    rw [Bool.not_eq_true] at unpadded
    split
    · rename_i taken
      exact .atCapacity unpadded taken
    · rename_i below
      cases derived : config.metadata token with
      | none => exact .unending unpadded derived
      | some metadata =>
        exact insertRecord_outcome payload canonical unpadded (not_le.mp below) derived

/-- With room in a candidate bucket the record is placed there at once. -/
theorem insert_of_room (payload : P) (state : State F config.layout.bucketCount P)
    (unpadded : state.padded = false) (below : state.filledSlots < config.layout.capacity)
    (derived : config.metadata token = some metadata)
    (room : occupied (readBucket state.store metadata.firstBucket) < 4) :
    ∃ store, insert config token payload state =
      (.ok true, succeed state 0 store state.randomEngine) := by
  have either : occupied (readBucket state.store metadata.firstBucket) < 4 ∨
      occupied (readBucket state.store metadata.secondBucket) < 4 := .inl room
  rw [insert, unpadded, if_neg Bool.false_ne_true, if_neg (not_le.mpr below), derived]
  simp only [insertRecord, read_secondBucket]
  rw [if_pos either, lookup_destination, placeFirstEmpty_of_room _ _ (destination_room either)]
  exact ⟨_, rfl⟩

end Vlse.Filter
