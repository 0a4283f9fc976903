import Vlse.Filter.Statistics
import Vlse.Filter.Transactions
/-!
# Journals within their reservation

`Insert` and `FillEmptySlots` reserve room for their journals before they overwrite a bucket. Here
both are followed with a vector of that room that must not grow: where a `push_back` would have to
reallocate, the call has no result. Both always have one, and it is the result of the filter, so no
allocation can fail while a record is carried. A chain writes once before its loop, once in every
turn that displaces a record, and twice in a turn that ends with the shortcut.
-/

namespace Vlse.Filter

variable {F : FingerprintBits} {P : Type*}

section Twins

variable (room : Nat)

/-- `JournalWrite` within the room of the journal. -/
def journalWriteWithin {bucketCount : Nat} (position : Fin bucketCount) (bucket : Bucket F P)
    (journalled : Journalled F bucketCount P) : Option (Journalled F bucketCount P) :=
  (bucketAccess F bucketCount P).journalWriteWithin room position bucket journalled

/-- The one-step shortcut within the room of the journal. -/
def shortcutWithin (layout : Layout F) (chain : Chain F layout.bucketCount P)
    (bucket : Bucket F P) :
    List (Fin 4) → Option (Option (Except Fault (Journalled F layout.bucketCount P)))
  | [] => some none
  | slot :: slots =>
    let nextBucket := layout.alternate chain.currentBucket (recordAt bucket slot).fingerprint
    if nextBucket = chain.currentBucket then shortcutWithin layout chain bucket slots
    else
      let next := readBucket chain.journalled.1 nextBucket
      if occupied next = 4 then shortcutWithin layout chain bucket slots
      else
        match placeFirstEmpty next (recordAt bucket slot) with
        | .error fault => some (some (.error fault))
        | .ok next => do
          let journalled ← journalWriteWithin room chain.currentBucket
            (setRecord bucket slot chain.carried) chain.journalled
          let journalled ← journalWriteWithin room nextBucket next journalled
          return some (.ok journalled)

/-- The exchange of the carried record within the room of the journal. -/
def displaceWithin (layout : Layout F) (chain : Chain F layout.bucketCount P)
    (bucket : Bucket F P) (slot : Fin 4) (randomEngine : RandomEngine) :
    Option (Chain F layout.bucketCount P) := do
  let journalled ← journalWriteWithin room chain.currentBucket
    (setRecord bucket slot chain.carried) chain.journalled
  return {
    journalled
    carried := recordAt bucket slot
    currentBucket := layout.alternate chain.currentBucket (recordAt bucket slot).fingerprint
    randomEngine }

/-- The loop of a chain within the room of the journal. -/
def evictLoopWithin (layout : Layout F) (chain : Chain F layout.bucketCount P)
    (chainLength : Nat) : Nat → Option (ChainEnd F layout.bucketCount P)
  | 0 => some (.exhausted chainLength chain)
  | remaining + 1 =>
    let bucket := readBucket chain.journalled.1 chain.currentBucket
    if occupied bucket < 4 then
      match placeFirstEmpty bucket chain.carried with
      | .error fault => some (.threw fault chain.journalled chain.randomEngine)
      | .ok bucket =>
        (journalWriteWithin room chain.currentBucket bucket chain.journalled).map fun journalled =>
          .placed (chainLength + 1) journalled chain.randomEngine
    else
      match shortcutWithin room layout chain bucket allSlots with
      | none => none
      | some (some (.error fault)) => some (.threw fault chain.journalled chain.randomEngine)
      | some (some (.ok journalled)) =>
        some (.placed (chainLength + 1) journalled chain.randomEngine)
      | some none =>
        match displaceWithin room layout chain bucket chain.randomEngine.slot
            chain.randomEngine.advance with
        | none => none
        | some chain => evictLoopWithin layout chain (chainLength + 1) remaining

/-- The chain of a call within the room of the journal. -/
def evictWithin (config : Config F) (metadata : KeyMetadata config.layout)
    (incoming : Record F P) (store : Store F config.layout.bucketCount P)
    (randomEngine : RandomEngine) : Option (ChainEnd F config.layout.bucketCount P) :=
  let currentBucket :=
    if randomEngine.word &&& 1#64 ≠ 0#64 then metadata.firstBucket else metadata.secondBucket
  let start : Chain F config.layout.bucketCount P :=
    { journalled := (store, []), carried := incoming, currentBucket
      randomEngine := randomEngine.advance }
  match displaceWithin room config.layout start (readBucket store currentBucket)
      start.randomEngine.slot start.randomEngine.advance with
  | none => none
  | some chain => evictLoopWithin room config.layout chain 0 config.maximumEvictions

end Twins

/-- The table and the journal at the end of a chain. -/
def ChainEnd.journalled {bucketCount : Nat} :
    ChainEnd F bucketCount P → Journalled F bucketCount P
  | .placed _ journalled _ => journalled
  | .exhausted _ chain => chain.journalled
  | .threw _ journalled _ => journalled

/-- How `Insert` ends after its chain. -/
def concludeChain {bucketCount : Nat} (state : State F bucketCount P) :
    ChainEnd F bucketCount P → Except Fault Bool × State F bucketCount P
  | .placed length journalled randomEngine =>
    (.ok true, succeed state length journalled.1 randomEngine)
  | .exhausted length chain =>
    (.ok false, giveUp state length (rollBack chain.journalled) chain.randomEngine)
  | .threw fault journalled randomEngine =>
    (.error fault, { state with store := journalled.1, randomEngine })

/-- `Insert` with a journal that has room for so many snapshots, once the metadata of the token is
known: the number of its `JournalWrite` calls and its result. -/
def insertRecordWithin (room : Nat) (config : Config F) (metadata : KeyMetadata config.layout)
    (payload : P) (state : State F config.layout.bucketCount P) :
    Option (Nat × Except Fault Bool × State F config.layout.bucketCount P) :=
  if occupied (readBucket state.store metadata.firstBucket) < 4 ∨
      occupied (readBucket state.store metadata.secondBucket) < 4 then
    some (0, insertRecord config metadata payload state)
  else
    (evictWithin room config metadata ⟨metadata.fingerprint, payload⟩ state.store
      state.randomEngine).map fun chainEnd =>
        (chainEnd.journalled.2.length, concludeChain state chainEnd)

/-- `Insert` with a journal that has room for so many snapshots: the number of its `JournalWrite`
calls and its result. -/
def insertWithin (room : Nat) (config : Config F) (token : Token128) (payload : P)
    (state : State F config.layout.bucketCount P) :
    Option (Nat × Except Fault Bool × State F config.layout.bucketCount P) :=
  if state.padded then
    some (0, .error (.logicError "cannot insert genuine records after dummy padding"), state)
  else if config.layout.capacity ≤ state.filledSlots then
    some (0, .ok false, { state with statistics :=
      { state.statistics with failedInserts := state.statistics.failedInserts + 1 } })
  else
    match config.metadata token with
    | none => some (0, .error .unending, state)
    | some metadata => insertRecordWithin room config metadata payload state

/-! ## Chains stay within the reservation -/

section Chains

variable {room : Nat} {layout : Layout F}

/-- A write with room left is the write of the filter. -/
theorem journalWriteWithin_of_lt {bucketCount : Nat} {journalled : Journalled F bucketCount P}
    (fits : journalled.2.length < room) (position : Fin bucketCount) (bucket : Bucket F P) :
    journalWriteWithin room position bucket journalled =
      some (journalWrite position bucket journalled) :=
  CellAccess.journalWriteWithin_of_lt _ fits position bucket

/-- Every write adds one snapshot. -/
theorem length_journalWrite {bucketCount : Nat} (position : Fin bucketCount)
    (bucket : Bucket F P) (journalled : Journalled F bucketCount P) :
    (journalWrite position bucket journalled).2.length = journalled.2.length + 1 :=
  CellAccess.length_journalWrite _ position bucket journalled

/-- The shortcut needs room for two snapshots. -/
theorem shortcutWithin_eq {chain : Chain F layout.bucketCount P}
    (fits : chain.journalled.2.length + 2 ≤ room) (bucket : Bucket F P) (slots : List (Fin 4)) :
    shortcutWithin room layout chain bucket slots = some (shortcut layout chain bucket slots) := by
  induction slots with
  | nil => rfl
  | cons slot slots ih =>
    rw [shortcutWithin, shortcut]
    dsimp only
    split
    · exact ih
    · split
      · exact ih
      · cases placeFirstEmpty (readBucket chain.journalled.1
            (layout.alternate chain.currentBucket (recordAt bucket slot).fingerprint))
            (recordAt bucket slot) with
        | error fault => rfl
        | ok next =>
          have first : chain.journalled.2.length < room := by omega
          have second : (journalWrite chain.currentBucket (setRecord bucket slot chain.carried)
              chain.journalled).2.length < room := by
            rw [length_journalWrite]
            omega
          simp only [journalWriteWithin_of_lt first, journalWriteWithin_of_lt second,
            Option.bind_eq_bind, Option.bind_some, Option.pure_def]

/-- The shortcut writes twice. -/
theorem length_shortcut {chain : Chain F layout.bucketCount P} {bucket : Bucket F P}
    {slots : List (Fin 4)} {journalled : Journalled F layout.bucketCount P}
    (taken : shortcut layout chain bucket slots = some (.ok journalled)) :
    journalled.2.length = chain.journalled.2.length + 2 := by
  induction slots with
  | nil => simp [shortcut] at taken
  | cons slot slots ih =>
    rw [shortcut] at taken
    dsimp only at taken
    split at taken
    · exact ih taken
    · split at taken
      · exact ih taken
      · split at taken
        · simp at taken
        · have written := Except.ok.inj (Option.some.inj taken)
          rw [← written, length_journalWrite, length_journalWrite]

/-- Displacing a record needs room for one snapshot. -/
theorem displaceWithin_eq {chain : Chain F layout.bucketCount P}
    (fits : chain.journalled.2.length < room) (bucket : Bucket F P) (slot : Fin 4)
    (randomEngine : RandomEngine) :
    displaceWithin room layout chain bucket slot randomEngine =
      some (displace layout chain bucket slot randomEngine) := by
  rw [displaceWithin, journalWriteWithin_of_lt fits]
  rfl

/-- Displacing a record writes once. -/
theorem length_displace (chain : Chain F layout.bucketCount P) (bucket : Bucket F P)
    (slot : Fin 4) (randomEngine : RandomEngine) :
    (displace layout chain bucket slot randomEngine).journalled.2.length =
      chain.journalled.2.length + 1 :=
  length_journalWrite _ _ _

/-- A loop writes at most once for each permitted eviction, and once more with a shortcut in the
last turn; with that much room it runs as the loop of the filter. -/
theorem evictLoopWithin_eq (chain : Chain F layout.bucketCount P) (chainLength remaining : Nat)
    (fits : chain.journalled.2.length + remaining + 1 ≤ room) :
    evictLoopWithin room layout chain chainLength remaining =
        some (evictLoop layout chain chainLength remaining) ∧
      (evictLoop layout chain chainLength remaining).journalled.2.length ≤
        chain.journalled.2.length + remaining + 1 := by
  induction remaining generalizing chain chainLength with
  | zero =>
    refine ⟨rfl, ?_⟩
    rw [evictLoop, ChainEnd.journalled]
    omega
  | succ remaining ih =>
    have first : chain.journalled.2.length < room := by omega
    rw [evictLoopWithin, evictLoop]
    split
    · rename_i free
      rw [placeFirstEmpty_of_room _ _ free]
      dsimp only
      rw [journalWriteWithin_of_lt first, ChainEnd.journalled, length_journalWrite]
      refine ⟨rfl, ?_⟩
      omega
    · rw [shortcutWithin_eq (by omega)]
      cases taken : shortcut layout chain (readBucket chain.journalled.1 chain.currentBucket)
          allSlots with
      | some outcome =>
        cases outcome with
        | error fault => exact absurd taken (shortcut_ne_error _ _ _ _)
        | ok journalled =>
          refine ⟨rfl, ?_⟩
          rw [ChainEnd.journalled, length_shortcut taken]
          omega
      | none =>
        have longer := length_displace chain (readBucket chain.journalled.1 chain.currentBucket)
          chain.randomEngine.slot chain.randomEngine.advance
        dsimp only
        rw [displaceWithin_eq first]
        have later := ih (displace layout chain
          (readBucket chain.journalled.1 chain.currentBucket) chain.randomEngine.slot
          chain.randomEngine.advance) (chainLength + 1) (by omega)
        refine ⟨later.1, later.2.trans ?_⟩
        rw [longer]
        omega

/-- A chain writes at most twice more than evictions are permitted. -/
theorem evictWithin_eq (config : Config F) (metadata : KeyMetadata config.layout)
    (incoming : Record F P) (store : Store F config.layout.bucketCount P)
    (randomEngine : RandomEngine) (fits : config.maximumEvictions + 2 ≤ room) :
    evictWithin room config metadata incoming store randomEngine =
        some (evict config metadata incoming store randomEngine) ∧
      (evict config metadata incoming store randomEngine).journalled.2.length ≤
        config.maximumEvictions + 2 := by
  have first : ([] : Journal F config.layout.bucketCount P).length < room := by
    rw [List.length_nil]
    omega
  have one : ∀ position engine bucket slot later,
      (displace config.layout { journalled := (store, []), carried := incoming
                                currentBucket := position, randomEngine := engine }
        bucket slot later).journalled.2.length = 1 :=
    fun _ _ _ _ _ => length_displace _ _ _ _
  unfold evictWithin evict
  dsimp only
  rw [displaceWithin_eq first]
  refine (evictLoopWithin_eq _ 0 config.maximumEvictions ?_).imp_right fun bounded =>
    bounded.trans ?_
  · rw [one]
    omega
  · rw [one]
    omega

end Chains

/-! ## Calls stay within the reservation -/

/-- With both candidate buckets full, a call concludes its chain. -/
theorem insertRecord_of_full (config : Config F) (metadata : KeyMetadata config.layout)
    (payload : P) (state : State F config.layout.bucketCount P)
    (full : ¬ (occupied (readBucket state.store metadata.firstBucket) < 4 ∨
      occupied (readBucket state.store metadata.secondBucket) < 4)) :
    insertRecord config metadata payload state = concludeChain state
      (evict config metadata ⟨metadata.fingerprint, payload⟩ state.store state.randomEngine) := by
  simp only [insertRecord, read_secondBucket]
  rw [if_neg full]
  cases evict config metadata ⟨metadata.fingerprint, payload⟩ state.store state.randomEngine with
  | placed length journalled randomEngine => rfl
  | exhausted length chain => rfl
  | threw fault journalled randomEngine => rfl

/-- `Insert` never has to grow a journal with room for two snapshots more than evictions are
permitted. -/
theorem insertWithin_eq {room : Nat} (config : Config F) (token : Token128) (payload : P)
    (state : State F config.layout.bucketCount P) (fits : config.maximumEvictions + 2 ≤ room) :
    ∃ calls ≤ config.maximumEvictions + 2,
      insertWithin room config token payload state =
        some (calls, insert config token payload state) := by
  unfold insertWithin insert
  split
  · exact ⟨0, Nat.zero_le _, rfl⟩
  · split
    · exact ⟨0, Nat.zero_le _, rfl⟩
    · cases config.metadata token with
      | none => exact ⟨0, Nat.zero_le _, rfl⟩
      | some metadata =>
        dsimp only
        rw [insertRecordWithin]
        split
        · exact ⟨0, Nat.zero_le _, rfl⟩
        · rename_i full
          have chain := evictWithin_eq config metadata ⟨metadata.fingerprint, payload⟩ state.store
            state.randomEngine fits
          rw [chain.1, insertRecord_of_full config metadata payload state full]
          exact ⟨_, chain.2, rfl⟩

namespace DummySource

variable {G E : Type*} (source : DummySource F P G E) (limit room : Nat)

/-- The loop of `FillEmptySlots` over the buckets, within the room of the journal. -/
def fillBucketsWithin {bucketCount : Nat} : List (Fin bucketCount) →
    Journalled F bucketCount P → Nat → G →
      Option (Option ((Except E Nat × Journalled F bucketCount P) × G))
  | [], journalled, generated, state => some (some ((.ok generated, journalled), state))
  | position :: positions, journalled, generated, state =>
    match source.fillBucket limit allSlots (readBucket journalled.1 position) 0 state with
    | none => some none
    | some (.error exception, state) => some (some ((.error exception, journalled), state))
    | some (.ok (bucket, filled), state) =>
      if filled = 0 then fillBucketsWithin positions journalled (generated + filled) state
      else
        match journalWriteWithin room position bucket journalled with
        | none => none
        | some journalled => fillBucketsWithin positions journalled (generated + filled) state

/-- The loop writes each bucket at most once; with that much room it runs as the loop of the
filter. -/
theorem fillBucketsWithin_eq {bucketCount : Nat} (positions : List (Fin bucketCount))
    (journalled : Journalled F bucketCount P) (generated : Nat) (state : G)
    (fits : journalled.2.length + positions.length ≤ room) :
    source.fillBucketsWithin limit room positions journalled generated state =
        some (source.fillBuckets limit positions journalled generated state) ∧
      ∀ ended ∈ source.fillBuckets limit positions journalled generated state,
        ended.1.2.2.length ≤ journalled.2.length + positions.length := by
  induction positions generalizing journalled generated state with
  | nil =>
    refine ⟨rfl, fun ended returned => ?_⟩
    cases returned
    exact Nat.le_refl _
  | cons position positions ih =>
    rw [List.length_cons] at fits
    rw [fillBucketsWithin, fillBuckets, List.length_cons]
    cases source.fillBucket limit allSlots (readBucket journalled.1 position) 0 state with
    | none => exact ⟨rfl, fun ended returned => by simp at returned⟩
    | some ending =>
      rcases ending with ⟨exception | ⟨bucket, filled⟩, middle⟩
      · refine ⟨rfl, fun ended returned => ?_⟩
        cases returned
        exact Nat.le_add_right _ _
      · dsimp only
        by_cases unchanged : filled = 0
        · have later := ih journalled (generated + filled) middle (by omega)
          rw [if_pos unchanged, if_pos unchanged]
          refine ⟨later.1, fun ended returned => (later.2 ended returned).trans ?_⟩
          omega
        · have written := length_journalWrite position bucket journalled
          have later := ih (journalWrite position bucket journalled) (generated + filled) middle
            (by omega)
          rw [if_neg unchanged, if_neg unchanged, journalWriteWithin_of_lt (by omega)]
          refine ⟨later.1, fun ended returned => (later.2 ended returned).trans ?_⟩
          omega

end DummySource

/-- `FillEmptySlots` with a journal that has room for so many snapshots: the number of its
`JournalWrite` calls and its result. -/
def fillEmptySlotsWithin {bucketCount : Nat} {G E : Type*} (room : Nat)
    (source : DummySource F P G E) (limit : Nat) (state : State F bucketCount P)
    (callbackState : G) :
    Option (Option (Nat × (Except (Fault ⊕ E) Nat × State F bucketCount P) × G)) :=
  if state.padded then
    some (some (0, (.error (.inl (.logicError "dummy padding was already applied")), state),
      callbackState))
  else
    (source.fillBucketsWithin limit room (List.finRange bucketCount) (state.store, []) 0
        callbackState).map fun looped =>
      match looped with
      | none => none
      | some ((.error exception, journalled), callbackState) =>
        some (journalled.2.length, (.error (.inr exception),
          { state with store := rollBack journalled }), callbackState)
      | some ((.ok generated, journalled), callbackState) =>
        some (journalled.2.length, (.ok generated, { state with
          store := journalled.1
          filledSlots := state.filledSlots + generated
          padded := true }), callbackState)

/-- `FillEmptySlots` never has to grow a journal with room for one snapshot a bucket. -/
theorem fillEmptySlotsWithin_eq {bucketCount : Nat} {G E : Type*} {room : Nat}
    (source : DummySource F P G E) (limit : Nat) (state : State F bucketCount P)
    (callbackState : G) (fits : bucketCount ≤ room) :
    ∃ calls ≤ bucketCount, fillEmptySlotsWithin room source limit state callbackState =
      some ((fillEmptySlots source limit state callbackState).map (Prod.mk calls)) := by
  have fresh : ([] : Journal F bucketCount P).length + (List.finRange bucketCount).length =
      bucketCount := by
    rw [List.length_nil, List.length_finRange, Nat.zero_add]
  unfold fillEmptySlotsWithin fillEmptySlots
  split
  · exact ⟨0, Nat.zero_le _, rfl⟩
  · have looped := source.fillBucketsWithin_eq limit room (List.finRange bucketCount)
      (state.store, []) 0 callbackState (by rw [fresh]; exact fits)
    rw [looped.1]
    have short := looped.2
    rw [fresh] at short
    generalize source.fillBuckets limit (List.finRange bucketCount) (state.store, []) 0
      callbackState = ended at short
    rcases ended with _ | ⟨⟨exception | generated, journalled⟩, after⟩
    · exact ⟨0, Nat.zero_le _, rfl⟩
    · exact ⟨journalled.2.length, short _ rfl, rfl⟩
    · exact ⟨journalled.2.length, short _ rfl, rfl⟩

/-- The journals never outgrow their reservation. In every state, as long as
`maximum_evictions_ + 2` does not wrap, `Insert` makes at most that many `JournalWrite` calls
whichever exit it takes, and `FillEmptySlots` at most `bucket_count_`; with any room that the two
`reserve` calls can have left, no `push_back` has to reallocate, so both calls end as the filter
says. -/
theorem journals_reserved (config : Config F)
    (unwrapped : config.maximumEvictions + 2 < 2 ^ 64)
    (state : State F config.layout.bucketCount P) :
    (∀ token payload room, (config.maximumEvictions + 2) % 2 ^ 64 ≤ room →
      ∃ calls ≤ config.maximumEvictions + 2, insertWithin room config token payload state =
        some (calls, insert config token payload state)) ∧
    ∀ {G E : Type} (source : DummySource F P G E) (limit : Nat) (callbackState : G) (room : Nat),
      config.layout.bucketCount ≤ room →
      ∃ calls ≤ config.layout.bucketCount,
        fillEmptySlotsWithin room source limit state callbackState =
          some ((fillEmptySlots source limit state callbackState).map (Prod.mk calls)) := by
  constructor
  · intro token payload room reserved
    rw [Nat.mod_eq_of_lt unwrapped] at reserved
    exact insertWithin_eq config token payload state reserved
  · intro G E source limit callbackState room reserved
    exact fillEmptySlotsWithin_eq source limit state callbackState reserved

/-- A chain of one permitted eviction stays within three snapshots. -/
theorem journals_reserved_crowded :
    ∃ calls ≤ 3, insertWithin 3 twinConfig 5 (8 : Nat) (crowdedState 4) =
      some (calls, insert twinConfig 5 8 (crowdedState 4)) :=
  (journals_reserved twinConfig (by decide) (crowdedState 4)).1 5 8 3 (by decide)

end Vlse.Filter
