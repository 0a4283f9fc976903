import Vlse.Filter.Transactions
/-!
# What a completed padding adds

The rejection loop of `FillEmptySlots` skips candidates that mask to zero or that the predicate
refuses; the one it keeps is paired with the payload generated right after the predicate accepted
it. A completed padding fills every empty slot with one such pair and keeps every record in its
bucket, so a lookup gains only dummies that share its fingerprint and stand in its buckets.
-/

namespace Vlse.Filter

variable {F : FingerprintBits} {P G E : Type*}

/-! ## The records the callbacks produce -/

namespace DummySource

variable (source : DummySource F P G E)

/-- Candidates thrown away one after the other, from the first callback state to the last. -/
inductive Rejected : G → G → Prop
  /-- Nothing is thrown away. -/
  | nil (state : G) : Rejected state state
  /-- A candidate that masks to the empty-slot sentinel. -/
  | zero {state between after : G} {word : Word}
    (candidate : source.fingerprintGenerator state = some (.ok word, between))
    (sentinel : maskFingerprint F word = 0) (later : Rejected between after) :
    Rejected state after
  /-- A candidate that the predicate refuses. -/
  | refused {state between middle after : G} {word : Word}
    (candidate : source.fingerprintGenerator state = some (.ok word, between))
    (genuine : maskFingerprint F word ≠ 0)
    (answer : source.fingerprintAllowed (maskFingerprint F word) between =
      some (.ok false, middle)) (later : Rejected middle after) :
    Rejected state after

/-- A record comes from the callbacks: after candidates thrown away, its fingerprint is nonzero and
accepted, and its payload is the one generated next. -/
structure Accepted (state : G) (record : Record F P) (after : G) : Prop where
  /-- The fingerprint is not the empty-slot sentinel. -/
  genuine : record.fingerprint ≠ 0
  /-- How the callbacks were called. -/
  calls : ∃ word first second third, source.Rejected state first ∧
    source.fingerprintGenerator first = some (.ok word, second) ∧
    maskFingerprint F word = record.fingerprint ∧
    source.fingerprintAllowed record.fingerprint second = some (.ok true, third) ∧
    source.payloadGenerator third = some (.ok record.payload, after)

/-- Records that come from the callbacks one after the other. -/
inductive Produced : G → List (Record F P) → G → Prop
  /-- No record. -/
  | nil (state : G) : Produced state [] state
  /-- One record, then the others. -/
  | cons {state between after : G} {record : Record F P} {others : List (Record F P)}
    (first : source.Accepted state record between) (later : Produced between others after) :
    Produced state (record :: others) after

variable {source} {limit : Nat} {state after : G}

/-- The rejection loop throws candidates away until one is accepted. -/
theorem drawFingerprint_calls {draws : Nat} {fingerprint : Fingerprint F}
    (drawn : source.drawFingerprint draws state = some (.ok fingerprint, after)) :
    ∃ word first second, source.Rejected state first ∧
      source.fingerprintGenerator first = some (.ok word, second) ∧
      maskFingerprint F word = fingerprint ∧
      source.fingerprintAllowed fingerprint second = some (.ok true, after) := by
  induction draws generalizing state with
  | zero => simp [drawFingerprint] at drawn
  | succ draws ih =>
    rw [drawFingerprint] at drawn
    obtain ⟨word, between, candidate, drawn⟩ := Callback.bind_eq_ok drawn
    dsimp only at drawn
    split at drawn
    · rename_i sentinel
      obtain ⟨accepted, first, second, skipped, rest⟩ := ih drawn
      exact ⟨accepted, first, second, .zero candidate sentinel skipped, rest⟩
    · rename_i genuine
      obtain ⟨allowed, middle, answer, drawn⟩ := Callback.bind_eq_ok drawn
      cases allowed with
      | false =>
        obtain ⟨accepted, first, second, skipped, rest⟩ := ih drawn
        exact ⟨accepted, first, second, .refused candidate genuine answer skipped, rest⟩
      | true =>
        cases drawn
        exact ⟨word, state, between, .nil state, candidate, rfl, answer⟩

/-- A record drawn comes from the callbacks. -/
theorem drawRecord_accepted {record : Record F P}
    (drawn : source.drawRecord limit state = some (.ok record, after)) :
    source.Accepted state record after := by
  refine ⟨drawRecord_present drawn, ?_⟩
  obtain ⟨fingerprint, third, found, drawn⟩ := Callback.bind_eq_ok drawn
  obtain ⟨payload, last, produced, drawn⟩ := Callback.bind_eq_ok drawn
  obtain ⟨word, first, second, skipped, candidate, masked, answer⟩ := drawFingerprint_calls found
  cases drawn
  exact ⟨word, first, second, third, skipped, candidate, masked, answer, produced⟩

/-- Records drawn one after the other come from the callbacks one after the other. -/
theorem Draws.produced {drawn : List (Record F P)} (run : Draws source limit state drawn after) :
    source.Produced state drawn after := by
  induction run with
  | nil state => exact .nil state
  | cons first _ ih => exact .cons (drawRecord_accepted first) ih

end DummySource

/-! ## The call -/

variable {bucketCount : Nat}

/-- The dummies placed in a bucket. -/
def dummiesAt (placed : List (Fin bucketCount × Record F P)) (position : Fin bucketCount) :
    Multiset (Record F P) :=
  ((placed.filter fun place => place.1 = position).map Prod.snd : List (Record F P))

/-- The payloads of the dummies with the fingerprint of a token that stand in one of its candidate
buckets. -/
def dummyMatches {layout : Layout F} (metadata : KeyMetadata layout)
    (placed : List (Fin layout.bucketCount × Record F P)) : Multiset P :=
  ((placed.filter fun place => place.2.fingerprint = metadata.fingerprint ∧
    (place.1 = metadata.firstBucket ∨ place.1 = metadata.secondBucket)).map
      fun place => place.2.payload : List P)

/-- A completed padding, with the places its dummies took. -/
structure PaddingCompleted [Inhabited P] (config : Config F) (source : DummySource F P G E)
    (state reached : State F config.layout.bucketCount P) (callbackState after : G)
    (generated : Nat) (placed : List (Fin config.layout.bucketCount × Record F P)) : Prop where
  /-- The number returned makes up the difference between `size` and `capacity`. -/
  total : state.filledSlots + generated = config.layout.capacity
  /-- It is the number of dummies. -/
  counted : placed.length = generated
  /-- The table is then full. -/
  size : reached.filledSlots = config.layout.capacity
  /-- No slot is empty. -/
  full : ∀ position slot, Present (recordAt (readBucket reached.store position) slot)
  /-- The dummies come from the callbacks, one after the other. -/
  produced : source.Produced callbackState (placed.map Prod.snd) after
  /-- Every bucket keeps its records and gains the dummies placed in it. -/
  kept : ∀ position, residentsAt reached.store position =
    dummiesAt placed position + residentsAt state.store position
  /-- Every lookup keeps its answer and gains the dummies that match. -/
  lookups : ∀ token, (queryAll config token reached).map Multiset.ofList =
    (config.metadata token).bind fun metadata => (queryAll config token state).map fun answer =>
      dummyMatches metadata placed + Multiset.ofList answer

/-- What a bucket holds once all dummies have their places. -/
theorem residentsAt_of_gained {before reached : Store F bucketCount P}
    {placed : List (Fin bucketCount × Record F P)}
    (gained : placements (residentsAt reached) =
      (placed : Multiset (Fin bucketCount × Record F P)) + placements (residentsAt before))
    (position : Fin bucketCount) :
    residentsAt reached position = dummiesAt placed position + residentsAt before position := by
  rw [cell_eq_map_placements (residentsAt reached), gained, Multiset.filter_add, Multiset.map_add,
    ← cell_eq_map_placements, dummiesAt, Multiset.filter_coe, Multiset.map_coe]

/-- The matches of a bucket gain the dummies in it that share the fingerprint. -/
theorem bucketMatches_of_kept {layout : Layout F} {before reached : Store F layout.bucketCount P}
    {placed : List (Fin layout.bucketCount × Record F P)} {position : Fin layout.bucketCount}
    (kept : residentsAt reached position =
      dummiesAt placed position + residentsAt before position)
    {fingerprint : Fingerprint F} (present : fingerprint ≠ 0) :
    (bucketMatches reached position fingerprint : Multiset P) =
      ((placed.filter fun place => place.2.fingerprint = fingerprint ∧ place.1 = position).map
        fun place => place.2.payload : List P) +
          (bucketMatches before position fingerprint : Multiset P) := by
  rw [coe_bucketMatches reached position present, coe_bucketMatches before position present, kept,
    Multiset.filter_add, Multiset.map_add]
  congr 1
  rw [dummiesAt, Multiset.filter_coe, Multiset.map_coe, List.filter_map, List.map_map,
    List.filter_filter]
  simp [Function.comp_def]

/-- The matches of a token gain the dummies that share its fingerprint in its buckets. -/
theorem tokenMatches_of_kept {layout : Layout F} {before reached : Store F layout.bucketCount P}
    {placed : List (Fin layout.bucketCount × Record F P)}
    (kept : ∀ position, residentsAt reached position =
      dummiesAt placed position + residentsAt before position)
    (metadata : KeyMetadata layout) (present : metadata.fingerprint ≠ 0) :
    (tokenMatches metadata reached : Multiset P) =
      dummyMatches metadata placed + (tokenMatches metadata before : Multiset P) := by
  have first := bucketMatches_of_kept (kept metadata.firstBucket) present
  have second := bucketMatches_of_kept (kept metadata.secondBucket) present
  unfold tokenMatches dummyMatches
  by_cases same : metadata.secondBucket = metadata.firstBucket
  · simp only [same, ne_eq, not_true_eq_false, if_false, List.append_nil, or_self, first]
  · rw [if_pos same, if_pos same, ← Multiset.coe_add, ← Multiset.coe_add, first, second]
    have split := filter_pair (placed : Multiset (Fin layout.bucketCount × Record F P)) same
      fun record => record.fingerprint = metadata.fingerprint
    simp only [Multiset.filter_coe] at split
    simp only [← Multiset.map_coe, split, Multiset.map_add]
    ac_rfl

/-- A full bucket has no empty slot. -/
theorem present_of_occupied {bucket : Bucket F P} (full : occupied bucket = 4) (slot : Fin 4) :
    Present (recordAt bucket slot) :=
  present_of_full bucket (by omega) slot

/-- A call of `FillEmptySlots` that returns from a reachable state has completed the padding. -/
theorem fillEmptySlots_completed [Inhabited P] {config : Config F} {seeded : RandomEngine}
    {state reached : State F config.layout.bucketCount P} {inserted dummies : Multiset (Record F P)}
    (reachable : Reachable config seeded state inserted dummies)
    {source : DummySource F P G E} {limit generated : Nat} {callbackState after : G}
    (returned : fillEmptySlots source limit state callbackState =
      some ((.ok generated, reached), after)) :
    ∃ placed,
      PaddingCompleted config source state reached callbackState after generated placed := by
  obtain ⟨held, account, split⟩ := reachable.accounts
  have total := account.fill_total returned
  have outcome := fillEmptySlots_outcome account.canonical returned
  cases outcome with
  | @completed unpadded store after drawn canonical padded =>
    obtain ⟨placed, listed, gained⟩ := padded.gained
    have kept := residentsAt_of_gained gained
    have length : placed.length = drawn.length := by rw [← listed, List.length_map]
    exact ⟨placed, {
      total
      counted := length
      size := total
      full := fun position slot => present_of_occupied (padded.full_all position) slot
      produced := listed ▸ padded.draws.produced
      kept
      lookups := by
        intro token
        rw [queryAll_eq, queryAll_eq]
        cases derived : config.metadata token with
        | none => rfl
        | some metadata =>
          have present := Config.metadata_fingerprint derived
          exact congrArg some (tokenMatches_of_kept kept metadata present) }⟩

/-- Around three records counting callbacks complete a padding with five dummies and reject two
candidates. -/
theorem fillEmptySlots_completed_counting :
    ∃ reached placed, PaddingCompleted twinConfig (countingSource shortBits 6) (crowdedState 3)
      reached 0 7 5 placed := by
  obtain ⟨reached, returned⟩ := exists_reached (by decide +kernel :
    (fillEmptySlots (countingSource shortBits 6) 2 (crowdedState 3) 0).map
      (fun ended => (ended.1.1, ended.2)) = some (.ok 5, 7))
  obtain ⟨inserted, before⟩ := reachable_crowdedState 3
  exact ⟨reached, fillEmptySlots_completed before returned⟩

end Vlse.Filter
