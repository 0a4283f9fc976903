import Vlse.Filter.Contents
import Vlse.Foundation.Callback
/-!
# Dummy padding

`FillEmptySlots` walks the buckets in order and gives every empty slot a fingerprint and a
payload from its callbacks, which share a state, may throw and may fail to return. A fingerprint
is drawn again while it is the empty-slot sentinel or is not allowed. A bucket is written back
through the journal once its four slots are done; an exception rolls everything back.
-/

namespace Vlse.Filter

variable {F : FingerprintBits} {P G E : Type*}

/-- The three callbacks of `FillEmptySlots`. -/
structure DummySource (F : FingerprintBits) (P G E : Type*) where
  /-- `fingerprint_generator`. -/
  fingerprintGenerator : Callback G E Word
  /-- `payload_generator`. -/
  payloadGenerator : Callback G E P
  /-- `fingerprint_allowed`. -/
  fingerprintAllowed : Fingerprint F → Callback G E Bool

namespace DummySource

variable (source : DummySource F P G E) (limit : Nat)

/-- The rejection loop for one fingerprint; `none` when it has not ended after `limit` draws. -/
def drawFingerprint : Nat → Callback G E (Fingerprint F)
  | 0 => fun _ => none
  | limit + 1 => source.fingerprintGenerator.bind fun word =>
    let candidate := maskFingerprint F word
    if candidate = 0 then drawFingerprint limit
    else (source.fingerprintAllowed candidate).bind fun allowed =>
      if allowed then .pure candidate else drawFingerprint limit

/-- The record for one empty slot. -/
def drawRecord : Callback G E (Record F P) :=
  (source.drawFingerprint limit).bind fun fingerprint =>
    source.payloadGenerator.bind fun payload => .pure ⟨fingerprint, payload⟩

/-- The loop over the slots of a bucket, with the number of records generated in it. -/
def fillBucket : List (Fin 4) → Bucket F P → Nat → Callback G E (Bucket F P × Nat)
  | [], bucket, filled => .pure (bucket, filled)
  | slot :: slots, bucket, filled =>
    if Present (recordAt bucket slot) then fillBucket slots bucket filled
    else (source.drawRecord limit).bind fun record =>
      fillBucket slots (setRecord bucket slot record) (filled + 1)

/-- The loop over the buckets: how it ended, with the table and the journal at that point. -/
def fillBuckets {bucketCount : Nat} : List (Fin bucketCount) → Journalled F bucketCount P → Nat →
    G → Option ((Except E Nat × Journalled F bucketCount P) × G)
  | [], journalled, generated, state => some ((.ok generated, journalled), state)
  | position :: positions, journalled, generated, state =>
    match source.fillBucket limit allSlots (readBucket journalled.1 position) 0 state with
    | none => none
    | some (.error exception, state) => some ((.error exception, journalled), state)
    | some (.ok (bucket, filled), state) =>
      fillBuckets positions
        (if filled = 0 then journalled else journalWrite position bucket journalled)
        (generated + filled) state

end DummySource

/-- `FillEmptySlots`, with at most `limit` draws for each fingerprint; `none` when a callback or
a rejection loop has not ended. -/
def fillEmptySlots {bucketCount : Nat} (source : DummySource F P G E) (limit : Nat)
    (state : State F bucketCount P) (callbackState : G) :
    Option ((Except (Fault ⊕ E) Nat × State F bucketCount P) × G) :=
  if state.padded then
    some ((.error (.inl (.logicError "dummy padding was already applied")), state), callbackState)
  else
    match source.fillBuckets limit (List.finRange bucketCount) (state.store, []) 0
        callbackState with
    | none => none
    | some ((.error exception, journalled), callbackState) =>
      some ((.error (.inr exception), { state with store := rollBack journalled }), callbackState)
    | some ((.ok generated, journalled), callbackState) =>
      some ((.ok generated, { state with
        store := journalled.1
        filledSlots := state.filledSlots + generated
        padded := true }), callbackState)

/-! ## The records drawn -/

namespace DummySource

variable {source : DummySource F P G E} {limit : Nat} {state after : G}

/-- Only nonzero fingerprints leave the rejection loop. -/
theorem drawFingerprint_ne_zero {draws : Nat} {fingerprint : Fingerprint F}
    (drawn : source.drawFingerprint draws state = some (.ok fingerprint, after)) :
    fingerprint ≠ 0 := by
  induction draws generalizing state with
  | zero => simp [drawFingerprint] at drawn
  | succ draws ih =>
    rw [drawFingerprint] at drawn
    obtain ⟨word, between, -, drawn⟩ := Callback.bind_eq_ok drawn
    dsimp only at drawn
    split at drawn
    · exact ih drawn
    · rename_i genuine
      obtain ⟨allowed, later, -, drawn⟩ := Callback.bind_eq_ok drawn
      split at drawn
      · cases drawn
        exact genuine
      · exact ih drawn

/-- A record drawn occupies its slot. -/
theorem drawRecord_present {record : Record F P}
    (drawn : source.drawRecord limit state = some (.ok record, after)) : Present record := by
  obtain ⟨fingerprint, between, found, drawn⟩ := Callback.bind_eq_ok drawn
  obtain ⟨payload, later, -, drawn⟩ := Callback.bind_eq_ok drawn
  cases drawn
  exact drawFingerprint_ne_zero found

/-- Records drawn one after the other, from the first callback state to the last. -/
inductive Draws (source : DummySource F P G E) (limit : Nat) : G → List (Record F P) → G → Prop
  /-- Nothing is drawn. -/
  | nil (state : G) : Draws source limit state [] state
  /-- One record, then the others. -/
  | cons {state between after : G} {record : Record F P} {others : List (Record F P)}
    (first : source.drawRecord limit state = some (.ok record, between))
    (later : Draws source limit between others after) :
    Draws source limit state (record :: others) after

/-- Two runs of draws join. -/
theorem Draws.append {between : G} {first second : List (Record F P)}
    (before : Draws source limit state first between)
    (later : Draws source limit between second after) :
    Draws source limit state (first ++ second) after := by
  induction before with
  | nil state => exact later
  | cons drawn _ ih => exact .cons drawn (ih later)

/-- The records the callbacks produce for so many empty slots, whatever the table. -/
def drawRecords (source : DummySource F P G E) (limit : Nat) : Nat → G → List (Record F P)
  | 0, _ => []
  | count + 1, state =>
    match source.drawRecord limit state with
    | some (.ok record, state) => record :: drawRecords source limit count state
    | _ => []

/-- The records drawn depend on nothing but their number and the callbacks. -/
theorem Draws.drawRecords_eq {drawn : List (Record F P)}
    (run : Draws source limit state drawn after) :
    source.drawRecords limit drawn.length state = drawn := by
  induction run with
  | nil state => rfl
  | cons first _ ih =>
    rw [List.length_cons, drawRecords, first]
    exact congrArg _ ih

/-! ## One bucket -/

/-- What filling a bucket does: the empty slots walked take the records drawn, the others stay. -/
structure Filled (source : DummySource F P G E) (limit : Nat) (slots : List (Fin 4))
    (before bucket : Bucket F P) (state after : G) (drawn : List (Record F P)) : Prop where
  /-- The records come from the callbacks. -/
  draws : Draws source limit state drawn after
  /-- They are what the bucket gains. -/
  gained : residents bucket = (drawn : Multiset (Record F P)) + residents before
  /-- Occupied slots stay as they are. -/
  kept : ∀ slot, Present (recordAt before slot) → recordAt bucket slot = recordAt before slot
  /-- The slots walked are occupied. -/
  present : ∀ slot ∈ slots, Present (recordAt bucket slot)

/-- Walking past an occupied slot fills no more than the slots after it. -/
theorem Filled.skip {slot : Fin 4} {slots : List (Fin 4)} {before bucket : Bucket F P}
    {drawn : List (Record F P)} (taken : Present (recordAt before slot))
    (rest : Filled source limit slots before bucket state after drawn) :
    Filled source limit (slot :: slots) before bucket state after drawn where
  draws := rest.draws
  gained := rest.gained
  kept := rest.kept
  present other walked := by
    cases List.mem_cons.mp walked with
    | inl here =>
      rw [here, rest.kept slot taken]
      exact taken
    | inr later => exact rest.present other later

/-- Giving an empty slot the record drawn for it comes before filling the slots after it. -/
theorem Filled.place {slot : Fin 4} {slots : List (Fin 4)} {before bucket : Bucket F P}
    {record : Record F P} {drawn : List (Record F P)} {between : G}
    (empty : ¬ Present (recordAt before slot))
    (first : source.drawRecord limit state = some (.ok record, between))
    (rest : Filled source limit slots (setRecord before slot record) bucket between after drawn) :
    Filled source limit (slot :: slots) before bucket state after (record :: drawn) where
  draws := .cons first rest.draws
  gained := by
    rw [rest.gained, residents_place _ _ _ empty (drawRecord_present first), Multiset.add_cons,
      ← Multiset.cons_coe, Multiset.cons_add]
  kept other taken := by
    have apart : slot ≠ other := fun same => empty (same ▸ taken)
    have untouched := recordAt_setRecord_of_ne before record apart
    rw [rest.kept other (untouched ▸ taken), untouched]
  present other walked := by
    cases List.mem_cons.mp walked with
    | inl here =>
      have settled : Present (recordAt (setRecord before slot record) slot) := by
        rw [recordAt_setRecord_self]
        exact drawRecord_present first
      rw [here, rest.kept slot settled]
      exact settled
    | inr later => exact rest.present other later

/-- The loop over the slots of a bucket fills them. -/
theorem fillBucket_filled {slots : List (Fin 4)} {before bucket : Bucket F P}
    {filled total : Nat}
    (returned : source.fillBucket limit slots before filled state =
      some (.ok (bucket, total), after)) :
    ∃ drawn, total = filled + drawn.length ∧
      Filled source limit slots before bucket state after drawn := by
  induction slots generalizing before filled state with
  | nil =>
    cases returned
    exact ⟨[], rfl, .nil _, by simp, fun _ _ => rfl, by simp⟩
  | cons slot slots ih =>
    rw [fillBucket] at returned
    split at returned
    · rename_i taken
      obtain ⟨drawn, counted, rest⟩ := ih returned
      exact ⟨drawn, counted, rest.skip taken⟩
    · rename_i empty
      obtain ⟨record, between, first, returned⟩ := Callback.bind_eq_ok returned
      obtain ⟨drawn, counted, rest⟩ := ih returned
      exact ⟨record :: drawn, by rw [counted, List.length_cons]; omega, rest.place empty first⟩

/-! ## All buckets -/

variable {bucketCount : Nat}

/-- What a loop over buckets has done to a table: it gained the records drawn, each in one place,
the buckets walked are full and full buckets stay full. -/
structure Padded (source : DummySource F P G E) (limit : Nat) (positions : List (Fin bucketCount))
    (before reached : Store F bucketCount P) (state after : G) (drawn : List (Record F P)) :
    Prop where
  /-- The records come from the callbacks. -/
  draws : Draws source limit state drawn after
  /-- Each is given one place, and nothing else moves. -/
  gained : ∃ placed : List (Fin bucketCount × Record F P), placed.map Prod.snd = drawn ∧
    placements (residentsAt reached) =
      (placed : Multiset (Fin bucketCount × Record F P)) + placements (residentsAt before)
  /-- Buckets walked, and buckets full before, are full. -/
  full : ∀ position, position ∈ positions ∨ occupied (readBucket before position) = 4 →
    occupied (readBucket reached position) = 4

/-- Writing a filled bucket places the records drawn for it. -/
theorem Filled.placements {before : Store F bucketCount P} {position : Fin bucketCount}
    {bucket : Bucket F P} {slots : List (Fin 4)} {drawn : List (Record F P)}
    (filled : Filled source limit slots (readBucket before position) bucket state after drawn) :
    placements (residentsAt (writeBucket before position bucket)) =
      (drawn.map (Prod.mk position) : Multiset (Fin bucketCount × Record F P)) +
        Vlse.placements (residentsAt before) := by
  have traded := spread_update Prod.mk (residentsAt before) position (residents bucket)
  have gained : residents bucket =
      (drawn : Multiset (Record F P)) + residentsAt before position := filled.gained
  rw [gained, Multiset.map_add, ← add_assoc] at traded
  rw [residentsAt_writeBucket, gained, Vlse.placements, Vlse.placements,
    add_right_cancel traded, add_comm, Multiset.map_coe]

/-- A bucket whose four slots are walked is full. -/
theorem Filled.occupied {before bucket : Bucket F P} {drawn : List (Record F P)}
    (filled : Filled source limit allSlots before bucket state after drawn) :
    occupied bucket = 4 := by
  have long : bucket.toList.length = 4 := Vector.length_toList
  refine Eq.trans (List.countP_eq_length.mpr ?_) long
  intro record inside
  obtain ⟨slot, rfl⟩ := (mem_toList_iff bucket record).mp inside
  exact decide_eq_true (filled.present slot (mem_allSlots slot))

/-- After the loop over all buckets every bucket is full. -/
theorem Padded.full_all {before reached : Store F bucketCount P} {drawn : List (Record F P)}
    (padded : Padded source limit (List.finRange bucketCount) before reached state after drawn)
    (position : Fin bucketCount) : occupied (readBucket reached position) = 4 :=
  padded.full position (.inl (List.mem_finRange position))

/-- Padding no bucket changes nothing. -/
theorem Padded.refl (store : Store F bucketCount P) (state : G) :
    Padded source limit [] store store state state [] where
  draws := .nil state
  gained := ⟨[], rfl, by simp⟩
  full position walked := by simpa using walked

/-- Two stretches of the loop add up. -/
theorem Padded.trans {first second : List (Fin bucketCount)}
    {before between reached : Store F bucketCount P} {middle : G}
    {drawn others : List (Record F P)}
    (earlier : Padded source limit first before between state middle drawn)
    (later : Padded source limit second between reached middle after others) :
    Padded source limit (first ++ second) before reached state after (drawn ++ others) where
  draws := earlier.draws.append later.draws
  gained := by
    obtain ⟨placed, rfl, gained⟩ := earlier.gained
    obtain ⟨more, rfl, gainedLater⟩ := later.gained
    refine ⟨placed ++ more, List.map_append, ?_⟩
    rw [gainedLater, gained, ← Multiset.coe_add, add_left_comm, add_assoc]
  full position walked := by
    rw [List.mem_append] at walked
    refine later.full position ?_
    rcases walked with (inFirst | inSecond) | wasFull
    · exact .inr (earlier.full position (.inl inFirst))
    · exact .inl inSecond
    · exact .inr (earlier.full position (.inr wasFull))

/-- A bucket for which nothing is drawn was full and stays unwritten. -/
theorem Filled.padded_nil {store : Store F bucketCount P} {position : Fin bucketCount}
    {bucket : Bucket F P}
    (filled : Filled source limit allSlots (readBucket store position) bucket state after []) :
    Padded source limit [position] store store state after [] where
  draws := filled.draws
  gained := ⟨[], rfl, by simp⟩
  full other walked := by
    cases walked with
    | inl only =>
      have full := filled.occupied
      rw [← card_residents, filled.gained, Multiset.coe_nil, zero_add, card_residents] at full
      rw [List.mem_singleton.mp only]
      exact full
    | inr wasFull => exact wasFull

/-- Writing a filled bucket pads it. -/
theorem Filled.padded {store : Store F bucketCount P} {position : Fin bucketCount}
    {bucket : Bucket F P} {drawn : List (Record F P)}
    (filled : Filled source limit allSlots (readBucket store position) bucket state after drawn) :
    Padded source limit [position] store (writeBucket store position bucket) state after drawn where
  draws := filled.draws
  gained := ⟨drawn.map (Prod.mk position), by simp, filled.placements⟩
  full other walked := by
    by_cases same : position = other
    · rw [← same, readBucket_writeBucket_same, ← card_residents, residents_sortBucket,
        card_residents, filled.occupied]
    · rw [readBucket_writeBucket_other _ _ same]
      cases walked with
      | inl only => exact absurd (List.mem_singleton.mp only).symm same
      | inr wasFull => exact wasFull

/-- One turn of the loop over the buckets pads its bucket; a full bucket is not written. -/
theorem padded_bucket {journalled : Journalled F bucketCount P} {position : Fin bucketCount}
    {bucket : Bucket F P} {filled : Nat}
    (returned : source.fillBucket limit allSlots (readBucket journalled.1 position) 0 state =
      some (.ok (bucket, filled), after)) :
    ∃ drawn, filled = drawn.length ∧ Padded source limit [position] journalled.1
      (if filled = 0 then journalled else journalWrite position bucket journalled).1 state after
        drawn := by
  obtain ⟨drawn, counted, done⟩ := fillBucket_filled returned
  rw [Nat.zero_add] at counted
  refine ⟨drawn, counted, ?_⟩
  split
  · rename_i none
    have nothing := List.length_eq_zero_iff.mp (counted.symm.trans none)
    subst nothing
    exact done.padded_nil
  · exact done.padded

/-- However the loop over the buckets ends, the journal leads back; when it completes, it has
padded the buckets walked. -/
theorem fillBuckets_outcome {origin : Store F bucketCount P} {positions : List (Fin bucketCount)}
    {journalled reached : Journalled F bucketCount P} {generated : Nat} {result : Except E Nat}
    (before : (bucketAccess F bucketCount P).LeadsBack Canonical origin journalled)
    (ended : source.fillBuckets limit positions journalled generated state =
      some ((result, reached), after)) :
    (bucketAccess F bucketCount P).LeadsBack Canonical origin reached ∧
      ∀ total, result = .ok total → ∃ drawn, total = generated + drawn.length ∧
        Padded source limit positions journalled.1 reached.1 state after drawn := by
  induction positions generalizing journalled generated state with
  | nil =>
    cases ended
    refine ⟨before, fun total completed => ?_⟩
    cases completed
    exact ⟨[], rfl, .refl _ _⟩
  | cons position positions ih =>
    rw [fillBuckets] at ended
    split at ended
    · contradiction
    · cases ended
      exact ⟨before, fun _ completed => by contradiction⟩
    · rename_i bucket filled middle returned
      obtain ⟨drawn, counted, padded⟩ := padded_bucket returned
      have kept : (bucketAccess F bucketCount P).LeadsBack Canonical origin
          (if filled = 0 then journalled else journalWrite position bucket journalled) := by
        split
        · exact before
        · exact before.journalWrite bucketAccess_undoable position bucket
      obtain ⟨leadsBack, completes⟩ := ih kept ended
      refine ⟨leadsBack, fun total completed => ?_⟩
      obtain ⟨others, sum, rest⟩ := completes total completed
      exact ⟨drawn ++ others, by rw [sum, counted, List.length_append]; omega, padded.trans rest⟩

end DummySource

/-! ## What the callbacks keep -/

namespace DummySource

section Keeps

variable {source : DummySource F P G E} {invariant : G → Prop}
  (fingerprints : source.fingerprintGenerator.Keeps invariant)
  (payloads : source.payloadGenerator.Keeps invariant)
  (allowed : ∀ candidate, (source.fingerprintAllowed candidate).Keeps invariant)

include fingerprints allowed

/-- The rejection loop keeps what the callbacks keep. -/
theorem drawFingerprint_keeps (draws : Nat) : (source.drawFingerprint draws).Keeps invariant := by
  induction draws with
  | zero =>
    intro state ending after ended
    simp [drawFingerprint] at ended
  | succ draws ih =>
    refine fingerprints.bind fun word => ?_
    dsimp only
    split
    · exact ih
    · refine (allowed _).bind fun accepted => ?_
      split
      · exact Callback.keeps_pure _
      · exact ih

include payloads

/-- Filling a bucket keeps what the callbacks keep. -/
theorem fillBucket_keeps (limit : Nat) (slots : List (Fin 4)) (bucket : Bucket F P)
    (filled : Nat) : (source.fillBucket limit slots bucket filled).Keeps invariant := by
  induction slots generalizing bucket filled with
  | nil => exact Callback.keeps_pure _
  | cons slot slots ih =>
    rw [fillBucket]
    split
    · exact ih bucket filled
    · refine Callback.Keeps.bind ?_ fun record => ih _ _
      exact (drawFingerprint_keeps fingerprints allowed limit).bind fun fingerprint =>
        payloads.bind fun payload => Callback.keeps_pure _

/-- However the loop over the buckets ends, it keeps what the callbacks keep. -/
theorem fillBuckets_keeps {bucketCount limit : Nat} {positions : List (Fin bucketCount)}
    {journalled : Journalled F bucketCount P} {generated : Nat} {before after : G}
    {ending : Except E Nat × Journalled F bucketCount P}
    (ended : source.fillBuckets limit positions journalled generated before = some (ending, after))
    (holds : invariant before) : invariant after := by
  induction positions generalizing journalled generated before with
  | nil =>
    cases ended
    exact holds
  | cons position positions ih =>
    have bucket := fillBucket_keeps fingerprints payloads allowed limit allSlots
      (readBucket journalled.1 position) 0
    rw [fillBuckets] at ended
    split at ended
    · contradiction
    · rename_i threw
      cases ended
      exact bucket _ _ _ threw holds
    · rename_i returned
      exact ih ended (bucket _ _ _ returned holds)

/-- However padding ends, it keeps what the callbacks keep. -/
theorem fillEmptySlots_keeps {bucketCount limit : Nat} {state : State F bucketCount P}
    {callbackState after : G} {ending : Except (Fault ⊕ E) Nat × State F bucketCount P}
    (ended : fillEmptySlots source limit state callbackState = some (ending, after))
    (holds : invariant callbackState) : invariant after := by
  unfold fillEmptySlots at ended
  split at ended
  · cases ended
    exact holds
  · split at ended
    · contradiction
    · rename_i threw
      cases ended
      exact fillBuckets_keeps fingerprints payloads allowed threw holds
    · rename_i completed
      cases ended
      exact fillBuckets_keeps fingerprints payloads allowed completed holds

end Keeps

/-! ## What padding throws -/

section Throws

variable {source : DummySource F P G E} {described : E → Prop}
  (fingerprints : source.fingerprintGenerator.Throws described)
  (payloads : source.payloadGenerator.Throws described)
  (allowed : ∀ candidate, (source.fingerprintAllowed candidate).Throws described)

include fingerprints allowed

/-- The rejection loop throws what the callbacks throw. -/
theorem drawFingerprint_throws (draws : Nat) :
    (source.drawFingerprint draws).Throws described := by
  induction draws with
  | zero =>
    intro state exception after threw
    simp [drawFingerprint] at threw
  | succ draws ih =>
    refine fingerprints.bind fun word => ?_
    dsimp only
    split
    · exact ih
    · refine (allowed _).bind fun accepted => ?_
      split
      · exact Callback.throws_pure _
      · exact ih

include payloads

/-- Filling a bucket throws what the callbacks throw. -/
theorem fillBucket_throws (limit : Nat) (slots : List (Fin 4)) (bucket : Bucket F P)
    (filled : Nat) : (source.fillBucket limit slots bucket filled).Throws described := by
  induction slots generalizing bucket filled with
  | nil => exact Callback.throws_pure _
  | cons slot slots ih =>
    rw [fillBucket]
    split
    · exact ih bucket filled
    · refine Callback.Throws.bind ?_ fun record => ih _ _
      exact (drawFingerprint_throws fingerprints allowed limit).bind fun fingerprint =>
        payloads.bind fun payload => Callback.throws_pure _

/-- The loop over the buckets throws what the callbacks throw. -/
theorem fillBuckets_throws {bucketCount limit : Nat} {positions : List (Fin bucketCount)}
    {journalled reached : Journalled F bucketCount P} {generated : Nat} {before after : G}
    {exception : E}
    (threw : source.fillBuckets limit positions journalled generated before =
      some ((.error exception, reached), after)) : described exception := by
  induction positions generalizing journalled generated before with
  | nil => cases threw
  | cons position positions ih =>
    have bucket := fillBucket_throws fingerprints payloads allowed limit allSlots
      (readBucket journalled.1 position) 0
    rw [fillBuckets] at threw
    split at threw
    · contradiction
    · rename_i here
      cases threw
      exact bucket _ _ _ here
    · exact ih threw

/-- Padding an unpadded table throws what the callbacks throw. -/
theorem fillEmptySlots_throws {bucketCount limit : Nat} {state reached : State F bucketCount P}
    {callbackState after : G} {fault : Fault ⊕ E} (unpadded : state.padded = false)
    (threw : fillEmptySlots source limit state callbackState =
      some ((.error fault, reached), after)) : ∃ exception, fault = .inr exception ∧
        described exception := by
  unfold fillEmptySlots at threw
  rw [unpadded, if_neg Bool.false_ne_true] at threw
  split at threw
  · contradiction
  · rename_i here
    cases threw
    exact ⟨_, rfl, fillBuckets_throws fingerprints payloads allowed here⟩
  · cases threw

end Throws

/-! ## That padding ends -/

section Ends

variable {source : DummySource F P G E} {mayThrow : Prop}

/-- The rejection loop ends when the first candidate is always taken. -/
theorem drawFingerprint_ends (fingerprints : source.fingerprintGenerator.Ends mayThrow)
    (nonzero : ∀ state word after, source.fingerprintGenerator state = some (.ok word, after) →
      maskFingerprint F word ≠ 0)
    (allowed : ∀ candidate, source.fingerprintAllowed candidate = .pure true) (draws : Nat) :
    (source.drawFingerprint (draws + 1)).Ends mayThrow := by
  intro state
  rw [drawFingerprint]
  unfold Callback.bind
  obtain ⟨ending, between, ended, kind⟩ := fingerprints state
  rw [ended]
  cases ending with
  | ok word =>
    dsimp only
    rw [if_neg (nonzero _ _ _ ended), allowed]
    exact ⟨_, _, rfl, .inl ⟨_, rfl⟩⟩
  | error exception =>
    refine ⟨.error exception, between, rfl, .inr ?_⟩
    rcases kind with ⟨result, impossible⟩ | thrown
    · contradiction
    · exact thrown

variable {limit : Nat} (fingerprints : (source.drawFingerprint limit).Ends mayThrow)
  (payloads : source.payloadGenerator.Ends mayThrow)

include fingerprints payloads

/-- Filling a bucket ends. -/
theorem fillBucket_ends (slots : List (Fin 4)) (bucket : Bucket F P) (filled : Nat) :
    (source.fillBucket limit slots bucket filled).Ends mayThrow := by
  induction slots generalizing bucket filled with
  | nil => exact Callback.ends_pure _ _
  | cons slot slots ih =>
    rw [fillBucket]
    split
    · exact ih bucket filled
    · refine Callback.Ends.bind ?_ fun record => ih _ _
      exact fingerprints.bind fun fingerprint => payloads.bind fun payload =>
        Callback.ends_pure _ _

/-- The loop over the buckets ends, and returns unless a callback may throw. -/
theorem fillBuckets_ends {bucketCount : Nat} (positions : List (Fin bucketCount))
    (journalled : Journalled F bucketCount P) (generated : Nat) (before : G) :
    ∃ ending reached after, source.fillBuckets limit positions journalled generated before =
      some ((ending, reached), after) ∧ ((∃ total, ending = .ok total) ∨ mayThrow) := by
  induction positions generalizing journalled generated before with
  | nil => exact ⟨_, _, _, rfl, .inl ⟨_, rfl⟩⟩
  | cons position positions ih =>
    obtain ⟨ending, between, ended, kind⟩ := fillBucket_ends fingerprints payloads allSlots
      (readBucket journalled.1 position) 0 before
    rw [fillBuckets, ended]
    cases ending with
    | ok filled => exact ih _ _ _
    | error exception =>
      refine ⟨_, _, _, rfl, .inr (kind.resolve_left fun returned => ?_)⟩
      obtain ⟨result, impossible⟩ := returned
      contradiction

/-- Padding ends, and returns from an unpadded table unless a callback may throw. -/
theorem fillEmptySlots_ends {bucketCount : Nat} (state : State F bucketCount P)
    (callbackState : G) :
    ∃ result reached after, fillEmptySlots source limit state callbackState =
        some ((result, reached), after) ∧
      (state.padded = false → (∃ generated, result = .ok generated) ∨ mayThrow) := by
  obtain ⟨ending, reached, after, ended, kind⟩ := fillBuckets_ends fingerprints payloads
    (List.finRange bucketCount) (state.store, []) 0 callbackState
  by_cases closed : state.padded = true
  · rw [fillEmptySlots, if_pos closed]
    exact ⟨_, _, _, rfl, fun unpadded => absurd (closed.symm.trans unpadded) (by decide)⟩
  · rw [fillEmptySlots, if_neg closed, ended]
    cases ending with
    | ok generated => exact ⟨_, _, _, rfl, fun _ => .inl ⟨_, rfl⟩⟩
    | error exception =>
      refine ⟨_, _, _, rfl, fun _ => .inr (kind.resolve_left fun returned => ?_)⟩
      obtain ⟨result, impossible⟩ := returned
      contradiction

end Ends

end DummySource

/-! ## The call -/

/-- Everything a call of `FillEmptySlots` that ends can do from a canonical table. -/
inductive PaddingOutcome {bucketCount : Nat} (source : DummySource F P G E) (limit : Nat)
    (state : State F bucketCount P) (callbackState : G) :
    (Except (Fault ⊕ E) Nat × State F bucketCount P) × G → Prop
  /-- The table is padded already: the call throws. -/
  | padded (closed : state.padded = true) :
    PaddingOutcome source limit state callbackState
      ((.error (.inl (.logicError "dummy padding was already applied")), state), callbackState)
  /-- A callback threw: the table is the one before the call. -/
  | threw (unpadded : state.padded = false) (exception : E) (after : G) :
    PaddingOutcome source limit state callbackState ((.error (.inr exception), state), after)
  /-- Every slot is taken, the empty ones by the records drawn. -/
  | completed (unpadded : state.padded = false) {store : Store F bucketCount P} {after : G}
    {drawn : List (Record F P)} (canonical : Canonical store)
    (padded : DummySource.Padded source limit (List.finRange bucketCount) state.store store
      callbackState after drawn) :
    PaddingOutcome source limit state callbackState
      ((.ok drawn.length, { state with
        store, filledSlots := state.filledSlots + drawn.length, padded := true }), after)

/-- `FillEmptySlots` does one of these. -/
theorem fillEmptySlots_outcome {bucketCount : Nat} {source : DummySource F P G E} {limit : Nat}
    {state : State F bucketCount P} {callbackState : G}
    {outcome : (Except (Fault ⊕ E) Nat × State F bucketCount P) × G}
    (canonical : Canonical state.store)
    (ended : fillEmptySlots source limit state callbackState = some outcome) :
    PaddingOutcome source limit state callbackState outcome := by
  unfold fillEmptySlots at ended
  split at ended
  · rename_i closed
    cases ended
    exact .padded closed
  · rename_i unpadded
    rw [Bool.not_eq_true] at unpadded
    split at ended
    · contradiction
    · rename_i exception journalled after threw
      have restored : rollBack journalled = state.store :=
        (DummySource.fillBuckets_outcome (.start canonical) threw).1.back
      cases ended
      rw [restored]
      exact .threw unpadded exception after
    · rename_i generated journalled after completed
      obtain ⟨leadsBack, completes⟩ :=
        DummySource.fillBuckets_outcome (.start canonical) completed
      obtain ⟨drawn, counted, padded⟩ := completes generated rfl
      cases ended
      rw [Nat.zero_add] at counted
      rw [counted]
      exact .completed unpadded leadsBack.admitted padded

/-- A call that is seen to end has reached a state. -/
theorem exists_reached {bucketCount : Nat} {source : DummySource F P G E} {limit : Nat}
    {state : State F bucketCount P} {callbackState after : G} {result : Except (Fault ⊕ E) Nat}
    (seen : (fillEmptySlots source limit state callbackState).map
      (fun ended => (ended.1.1, ended.2)) = some (result, after)) :
    ∃ reached, fillEmptySlots source limit state callbackState =
      some ((result, reached), after) := by
  obtain ⟨⟨⟨other, reached⟩, last⟩, ended, same⟩ := Option.map_eq_some_iff.mp seen
  obtain ⟨rfl, rfl⟩ := Prod.mk.inj same
  exact ⟨reached, ended⟩

end Vlse.Filter
