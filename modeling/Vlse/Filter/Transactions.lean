import Mathlib.Algebra.BigOperators.Fin
import Vlse.Filter.Runs
/-!
# All or nothing

A call of `Insert` that returns false and a call of `FillEmptySlots` that throws leave the filter
as it was, byte for byte. The first may change the statistics and the random engine; the second
changes nothing at all. A padding throws exactly when its callbacks throw for one of the empty
slots, after they returned for any number of slots before it: the journal is then rolled back from
whatever buckets were already rewritten.
-/

namespace Vlse.Filter

variable {F : FingerprintBits} {P G E : Type*}

/-- Every reachable state has a canonical table. -/
theorem Reachable.canonical [Inhabited P] {config : Config F} {seeded : RandomEngine}
    {state : State F config.layout.bucketCount P} {inserted dummies : Multiset (Record F P)}
    (reachable : Reachable config seeded state inserted dummies) : Canonical state.store := by
  have account := reachable.accounts
  exact account.choose_spec.1.canonical

/-! ## Refused insertions -/

/-- From every reachable state and under any outputs of the random engine, a call of `Insert` that
returns false leaves the fingerprint bytes, the payloads, `size` and `padded` alone. -/
theorem insert_refused [Inhabited P] {config : Config F} {seeded randomEngine : RandomEngine}
    {state after : State F config.layout.bucketCount P} {inserted dummies : Multiset (Record F P)}
    (reachable : Reachable config seeded state inserted dummies)
    (token : Token128) (payload : P)
    (refused : insert config token payload { state with randomEngine } = (.ok false, after)) :
    after.store = state.store ∧ after.filledSlots = state.filledSlots ∧
      after.padded = state.padded := by
  have outcome := insert_outcome config token payload { state with randomEngine }
    reachable.canonical
  rw [refused] at outcome
  cases outcome with
  | atCapacity open_ taken => exact ⟨rfl, rfl, rfl⟩
  | rolledBack open_ below derived firstFull secondFull => exact ⟨rfl, rfl, rfl⟩

/-- With one bucket full and the other one empty, a fifth insertion of the token is rolled back. -/
theorem insert_refused_crowded :
    (insert twinConfig 5 (8 : Nat) (crowdedState 4)).1 = .ok false ∧
      (insert twinConfig 5 8 (crowdedState 4)).2.store = (crowdedState 4).store ∧
      (insert twinConfig 5 8 (crowdedState 4)).2.filledSlots = (crowdedState 4).filledSlots ∧
      (insert twinConfig 5 8 (crowdedState 4)).2.padded = (crowdedState 4).padded := by
  have refused : (insert twinConfig 5 (8 : Nat) (crowdedState 4)).1 = .ok false := by
    decide +kernel
  have unchanged : ∀ state inserted, Reachable twinConfig countingEngine state inserted 0 →
      (insert twinConfig 5 (8 : Nat) state).1 = .ok false →
        (insert twinConfig 5 8 state).2.store = state.store ∧
          (insert twinConfig 5 8 state).2.filledSlots = state.filledSlots ∧
          (insert twinConfig 5 8 state).2.padded = state.padded := by
    intro state inserted before ended
    have whole : insert twinConfig 5 8 { state with randomEngine := state.randomEngine } =
        (.ok false, (insert twinConfig 5 8 state).2) := Prod.ext ended rfl
    exact insert_refused before 5 8 whole
  obtain ⟨inserted, before⟩ := reachable_crowdedState 4
  exact ⟨refused, unchanged _ inserted before refused⟩

/-! ## The slots a padding has to fill -/

/-- The number of empty slots among some slots of a bucket. -/
def emptySlots (slots : List (Fin 4)) (bucket : Bucket F P) : Nat :=
  slots.countP fun slot => ¬ Present (recordAt bucket slot)

/-- The number of empty slots in some buckets of a table. -/
def emptySlotsIn {bucketCount : Nat} (positions : List (Fin bucketCount))
    (store : Store F bucketCount P) : Nat :=
  (positions.map fun position => emptySlots allSlots (readBucket store position)).sum

/-- Filling a slot leaves the count of the other slots. -/
theorem emptySlots_setRecord {slots : List (Fin 4)} {slot : Fin 4} (bucket : Bucket F P)
    (record : Record F P) (apart : slot ∉ slots) :
    emptySlots slots (setRecord bucket slot record) = emptySlots slots bucket := by
  apply List.countP_congr
  intro other inside
  have different : slot ≠ other := fun same => apart (same ▸ inside)
  rw [recordAt_setRecord_of_ne _ _ different]

/-- Writing a bucket leaves the count of the other buckets. -/
theorem emptySlotsIn_writeBucket {bucketCount : Nat} {positions : List (Fin bucketCount)}
    {position : Fin bucketCount} (store : Store F bucketCount P) (bucket : Bucket F P)
    (apart : position ∉ positions) :
    emptySlotsIn positions (writeBucket store position bucket) = emptySlotsIn positions store := by
  refine congrArg List.sum (List.map_congr_left fun other inside => ?_)
  have different : position ≠ other := fun same => apart (same ▸ inside)
  rw [readBucket_writeBucket_other _ _ different]

/-- The records of a bucket are those of its slots in order. -/
theorem toList_eq_map_allSlots (bucket : Bucket F P) :
    bucket.toList = allSlots.map (recordAt bucket) := by
  apply List.ext_getElem
  · simp [allSlots]
  · intro index inside inside'
    have small : index < 4 := by simpa using inside
    match index, small with
    | 0, _ | 1, _ | 2, _ | 3, _ => rfl

/-- The slots of a bucket are empty or occupied. -/
theorem emptySlots_add_occupied (bucket : Bucket F P) :
    emptySlots allSlots bucket + occupied bucket = 4 := by
  have split := List.length_eq_countP_add_countP
    (fun slot => decide (Present (recordAt bucket slot))) (l := allSlots)
  have length : allSlots.length = 4 := rfl
  rw [occupied, toList_eq_map_allSlots, List.countP_map, emptySlots]
  simp only [Function.comp_def, decide_not] at split ⊢
  simp only [decide_eq_true_eq] at split
  omega

/-- The empty slots of a table are those `size` has not counted. -/
theorem emptySlotsIn_all {bucketCount : Nat} (store : Store F bucketCount P) :
    emptySlotsIn (List.finRange bucketCount) store +
      ∑ position, occupied (readBucket store position) = bucketCount * 4 := by
  rw [emptySlotsIn, ← Fin.sum_univ_def, ← Finset.sum_add_distrib]
  simp only [emptySlots_add_occupied, Finset.sum_const, Finset.card_univ, Fintype.card_fin,
    smul_eq_mul]

/-! ## Exceptions of the callbacks -/

namespace DummySource

variable (source : DummySource F P G E) (limit : Nat)

/-- The loop over the slots of a bucket calls the callbacks for its empty slots, one record after
the other, and ends as they do. -/
theorem fillBucket_calls {slots : List (Fin 4)} (distinct : slots.Nodup) (bucket : Bucket F P)
    (filled : Nat) :
    (source.fillBucket limit slots bucket filled).bind (fun _ => .pure ()) =
      (source.drawRecord limit).times (emptySlots slots bucket) := by
  induction slots generalizing bucket filled with
  | nil => rfl
  | cons slot slots ih =>
    have later := (List.nodup_cons.mp distinct).2
    have apart := (List.nodup_cons.mp distinct).1
    rw [fillBucket]
    split
    · rename_i taken
      have skipped : emptySlots (slot :: slots) bucket = emptySlots slots bucket :=
        List.countP_cons_of_neg (by simpa using taken)
      rw [skipped, ih later]
    · rename_i empty
      have counted : emptySlots (slot :: slots) bucket = emptySlots slots bucket + 1 :=
        List.countP_cons_of_pos (by simpa using empty)
      rw [counted, Callback.bind_assoc, Callback.times]
      congr 1
      funext record
      rw [ih later, emptySlots_setRecord _ _ apart]

/-- The loop over the buckets calls the callbacks for all empty slots and ends as they do. -/
theorem fillBuckets_calls {bucketCount : Nat} {positions : List (Fin bucketCount)}
    (distinct : positions.Nodup) (journalled : Journalled F bucketCount P) (generated : Nat)
    (state : G) :
    (source.fillBuckets limit positions journalled generated state).map
        (fun ended => (ended.1.1.map fun _ => (), ended.2)) =
      (source.drawRecord limit).times (emptySlotsIn positions journalled.1) state := by
  induction positions generalizing journalled generated state with
  | nil => rfl
  | cons position positions ih =>
    have later := (List.nodup_cons.mp distinct).2
    have apart := (List.nodup_cons.mp distinct).1
    have counted : emptySlotsIn (position :: positions) journalled.1 =
        emptySlots allSlots (readBucket journalled.1 position) +
          emptySlotsIn positions journalled.1 := rfl
    rw [counted, Callback.times_add,
      ← source.fillBucket_calls limit (by decide) (readBucket journalled.1 position) 0,
      Callback.bind_assoc, fillBuckets, Callback.bind]
    cases ended : source.fillBucket limit allSlots (readBucket journalled.1 position) 0 state with
    | none => rfl
    | some ending =>
      rcases ending with ⟨exception | ⟨bucket, filled⟩, middle⟩
      · rfl
      · have untouched := emptySlotsIn_writeBucket journalled.1 bucket apart
        dsimp only
        rw [ih later, Callback.pure_bind]
        split
        · rfl
        · rw [journalWrite_store, untouched]

end DummySource

/-- Padding an unpadded table ends with an exception exactly when its callbacks throw for one of
the empty slots. -/
theorem fillEmptySlots_error_iff {bucketCount : Nat} (source : DummySource F P G E) (limit : Nat)
    {state : State F bucketCount P} (unpadded : state.padded = false) (callbackState : G)
    (exception : E) (after : G) :
    (∃ reached, fillEmptySlots source limit state callbackState =
        some ((.error (.inr exception), reached), after)) ↔
      (source.drawRecord limit).times
        (emptySlotsIn (List.finRange bucketCount) state.store) callbackState =
          some (.error exception, after) := by
  rw [← source.fillBuckets_calls limit (List.nodup_finRange bucketCount) (state.store, []) 0,
    fillEmptySlots, unpadded, if_neg Bool.false_ne_true]
  split
  · rename_i unended
    simp [unended]
  · rename_i threw
    simp [threw, Except.map]
  · rename_i completed
    simp [completed, Except.map]

/-- In a reachable state the empty slots are those between `size` and `capacity`. -/
theorem Reachable.emptySlotsIn [Inhabited P] {config : Config F} {seeded : RandomEngine}
    {state : State F config.layout.bucketCount P} {inserted dummies : Multiset (Record F P)}
    (reachable : Reachable config seeded state inserted dummies) :
    emptySlotsIn (List.finRange config.layout.bucketCount) state.store =
      config.layout.capacity - state.filledSlots := by
  obtain ⟨held, account, split⟩ := reachable.accounts
  have counted := card_contents config.layout state.store
  have slots := emptySlotsIn_all state.store
  rw [account.counted, ← account.contents, Layout.capacity, counted]
  omega

/-- A padding that throws has changed nothing. -/
theorem fillEmptySlots_restores {bucketCount : Nat} {source : DummySource F P G E} {limit : Nat}
    {state reached : State F bucketCount P} {callbackState after : G} {fault : Fault ⊕ E}
    (canonical : Canonical state.store)
    (threw : fillEmptySlots source limit state callbackState =
      some ((.error fault, reached), after)) : reached = state := by
  cases fillEmptySlots_outcome canonical threw with
  | padded closed => rfl
  | threw unpadded exception after => rfl

/-- Padding is all or nothing. From every reachable unpadded state the exception of a callback comes
out of `FillEmptySlots` exactly when the callbacks return for some records, fewer than the empty
slots, and throw it for the next one; the filter is then the one before the call. -/
theorem fillEmptySlots_threw_iff [Inhabited P] {config : Config F} {seeded : RandomEngine}
    {state reached : State F config.layout.bucketCount P} {inserted dummies : Multiset (Record F P)}
    (reachable : Reachable config seeded state inserted dummies)
    (unpadded : state.padded = false) (source : DummySource F P G E) (limit : Nat)
    (callbackState : G) (exception : E) (after : G) :
    fillEmptySlots source limit state callbackState =
        some ((.error (.inr exception), reached), after) ↔
      reached = state ∧ ∃ done < config.layout.capacity - state.filledSlots, ∃ middle,
        (source.drawRecord limit).times done callbackState = some (.ok (), middle) ∧
          source.drawRecord limit middle = some (.error exception, after) := by
  have calls := fillEmptySlots_error_iff source limit unpadded callbackState exception after
  rw [reachable.emptySlotsIn, Callback.times_eq_error_iff] at calls
  rw [← calls]
  constructor
  · intro threw
    exact ⟨fillEmptySlots_restores reachable.canonical threw, reached, threw⟩
  · rintro ⟨rfl, other, threw⟩
    rw [fillEmptySlots_restores reachable.canonical threw] at threw
    exact threw

/-- Over three records the callbacks throw once they have filled the first bucket, rejecting two
candidates on the way; the filter is left with its three records. -/
theorem fillEmptySlots_threw_counting :
    fillEmptySlots (countingSource shortBits 5) 2 (crowdedState 3) 0 =
      some ((.error (.inr ()), crowdedState 3), 7) := by
  have threw : ∀ state inserted, Reachable twinConfig countingEngine state inserted 0 →
      state.padded = false → 4 < twinConfig.layout.capacity - state.filledSlots →
        fillEmptySlots (countingSource shortBits 5) 2 state 0 =
          some ((.error (.inr ()), state), 7) := by
    intro state inserted before unpadded room
    apply (fillEmptySlots_threw_iff before unpadded (countingSource shortBits 5) 2 0 () 7).mpr
    exact ⟨rfl, 4, room, 6, by decide +kernel, by decide +kernel⟩
  obtain ⟨inserted, before⟩ := reachable_crowdedState 3
  exact threw _ inserted before (by decide +kernel) (by decide +kernel)

end Vlse.Filter
