import Vlse.Filter.Runs
/-!
# Insertion statistics

`Insert` updates its counters separately on each of its exits. Here every call of a run is kept
with the state it found, so that the counters can be compared with counts over the run: what one
call adds is derived once from the ways it can end, and a run adds it up. The length of a chain is
bounded by the loop alone, whatever the table holds.
-/

namespace Vlse.Filter

variable {F : FingerprintBits} {P : Type*}

/-! ## The length of a chain -/

variable {layout : Layout F}

/-- The shortcut places what it moves, so it never throws. -/
theorem shortcut_ne_error (chain : Chain F layout.bucketCount P) (bucket : Bucket F P)
    (slots : List (Fin 4)) (fault : Fault) :
    shortcut layout chain bucket slots ≠ some (.error fault) := by
  induction slots with
  | nil => simp [shortcut]
  | cons slot slots ih =>
    rw [shortcut]
    dsimp only
    split
    · exact ih
    · split
      · exact ih
      · rename_i notFull
        have room := lt_of_le_of_ne (occupied_le _) notFull
        rw [placeFirstEmpty_of_room _ _ room]
        simp

/-- How a loop can end after so many evictions, with so many still permitted. -/
inductive LoopLength (chainLength remaining : Nat) : ChainEnd F layout.bucketCount P → Prop
  /-- A placement counts as one eviction more. -/
  | placed {length : Nat} {journalled : Journalled F layout.bucketCount P}
    {randomEngine : RandomEngine} (longer : chainLength < length)
    (permitted : length ≤ chainLength + remaining) :
    LoopLength chainLength remaining (.placed length journalled randomEngine)
  /-- Otherwise all permitted evictions were made. -/
  | exhausted {chain : Chain F layout.bucketCount P} :
    LoopLength chainLength remaining (.exhausted (chainLength + remaining) chain)

/-- The loop keeps within the permitted evictions and never throws. -/
theorem evictLoop_length (chain : Chain F layout.bucketCount P) (chainLength remaining : Nat) :
    LoopLength chainLength remaining (evictLoop layout chain chainLength remaining) := by
  induction remaining generalizing chain chainLength with
  | zero => exact .exhausted
  | succ remaining ih =>
    rw [evictLoop]
    split
    · rename_i room
      rw [placeFirstEmpty_of_room _ _ room]
      exact .placed (by omega) (by omega)
    · cases taken : shortcut layout chain (readBucket chain.journalled.1 chain.currentBucket)
          allSlots with
      | some outcome =>
        cases outcome with
        | error fault => exact absurd taken (shortcut_ne_error _ _ _ _)
        | ok journalled => exact .placed (by omega) (by omega)
      | none =>
        dsimp only
        have later := ih (displace layout chain
          (readBucket chain.journalled.1 chain.currentBucket) chain.randomEngine.slot
          chain.randomEngine.advance) (chainLength + 1)
        generalize evictLoop layout _ (chainLength + 1) remaining = ended at later ⊢
        cases later with
        | placed longer permitted => exact .placed (by omega) (by omega)
        | exhausted =>
          rw [show chainLength + 1 + remaining = chainLength + (remaining + 1) by omega]
          exact .exhausted

/-- So does the chain of a call. -/
theorem evict_length (config : Config F) (metadata : KeyMetadata config.layout)
    (incoming : Record F P) (store : Store F config.layout.bucketCount P)
    (randomEngine : RandomEngine) :
    LoopLength 0 config.maximumEvictions (evict config metadata incoming store randomEngine) :=
  evictLoop_length _ _ _

/-! ## One call -/

/-- A call of `Insert` in a run: its arguments and the state it found. -/
structure InsertStep (config : Config F) (P : Type*) where
  /-- The token. -/
  token : Token128
  /-- The payload. -/
  payload : P
  /-- The filter before the call. -/
  before : State F config.layout.bucketCount P

namespace InsertStep

variable {config : Config F} (step : InsertStep config P)

/-- What the call returned or threw, and the filter after it. -/
def ended : Except Fault Bool × State F config.layout.bucketCount P :=
  insert config step.token step.payload step.before

/-- The call returned this answer. -/
def returned (answer : Bool) : Bool := step.ended.1 = .ok answer

/-- The table was below capacity. -/
def belowCapacity : Bool := step.before.filledSlots < config.layout.capacity

/-- Both candidate buckets of the token were full. -/
def bothFull : Bool :=
  (config.metadata step.token).any fun metadata =>
    occupied (readBucket step.before.store metadata.firstBucket) = 4 ∧
      occupied (readBucket step.before.store metadata.secondBucket) = 4

/-- The call entered the eviction path. -/
def evicts : Bool := !step.before.padded && step.belowCapacity && step.bothFull

end InsertStep

/-- The exits of `Insert`, with what they do to the counters. -/
inductive InsertExit {config : Config F} (step : InsertStep config P) :
    Except Fault Bool × State F config.layout.bucketCount P → Prop
  /-- The call threw before it touched anything. -/
  | threw (fault : Fault) : InsertExit step (.error fault, step.before)
  /-- The table was full. -/
  | refused (taken : step.belowCapacity = false) :
    InsertExit step (.ok false, { step.before with statistics :=
      { step.before.statistics with
        failedInserts := step.before.statistics.failedInserts + 1 } })
  /-- The record was stored, after a chain only when the eviction path was entered. -/
  | stored {length : Nat} {store : Store F config.layout.bucketCount P}
    {randomEngine : RandomEngine}
    (permitted : length ≤ config.maximumEvictions * step.evicts.toNat) :
    InsertExit step (.ok true, succeed step.before length store randomEngine)
  /-- The chain was rolled back, after all permitted evictions. -/
  | rolledBack {store : Store F config.layout.bucketCount P} {randomEngine : RandomEngine}
    (below : step.belowCapacity = true) (full : step.bothFull = true)
    (entered : step.evicts = true) :
    InsertExit step (.ok false, giveUp step.before config.maximumEvictions store randomEngine)

/-- A call that gets as far as the candidate buckets leaves by one of the last two exits. -/
theorem insertRecord_exit {config : Config F} (step : InsertStep config P)
    {metadata : KeyMetadata config.layout} (unpadded : step.before.padded = false)
    (below : step.before.filledSlots < config.layout.capacity)
    (derived : config.metadata step.token = some metadata) :
    InsertExit step (insertRecord config metadata step.payload step.before) := by
  simp only [insertRecord, read_secondBucket]
  split
  · rename_i room
    rw [lookup_destination, placeFirstEmpty_of_room _ _ (destination_room room)]
    exact .stored (Nat.zero_le _)
  · rename_i notRoom
    rw [not_or] at notRoom
    have firstFull : occupied (readBucket step.before.store metadata.firstBucket) = 4 :=
      le_antisymm (occupied_le _) (not_lt.mp notRoom.1)
    have secondFull : occupied (readBucket step.before.store metadata.secondBucket) = 4 :=
      le_antisymm (occupied_le _) (not_lt.mp notRoom.2)
    have full : step.bothFull = true := by
      simp [InsertStep.bothFull, derived, firstFull, secondFull]
    have open_ : step.belowCapacity = true := decide_eq_true below
    have entered : step.evicts = true := by
      simp [InsertStep.evicts, unpadded, open_, full]
    have chain := evict_length config metadata ⟨metadata.fingerprint, step.payload⟩
      step.before.store step.before.randomEngine
    generalize evict config metadata ⟨metadata.fingerprint, step.payload⟩ step.before.store
      step.before.randomEngine = chainEnd at chain ⊢
    cases chain with
    | placed longer permitted =>
      apply InsertExit.stored
      rw [entered, Bool.toNat_true]
      omega
    | exhausted =>
      dsimp only
      rw [Nat.zero_add]
      exact .rolledBack open_ full entered

/-- Every call leaves by one of the exits. -/
theorem insert_exit {config : Config F} (step : InsertStep config P) :
    InsertExit step step.ended := by
  rw [InsertStep.ended, insert]
  split
  · exact .threw _
  · rename_i unpadded
    rw [Bool.not_eq_true] at unpadded
    split
    · rename_i taken
      apply InsertExit.refused
      exact decide_eq_false (not_lt.mpr taken)
    · rename_i below
      rw [not_le] at below
      cases derived : config.metadata step.token with
      | none => exact .threw _
      | some metadata => exact insertRecord_exit step unpadded below derived

/-- What a call adds to the counters. -/
structure InsertStep.Counts {config : Config F} (step : InsertStep config P)
    (after : State F config.layout.bucketCount P) : Prop where
  /-- A call that returns true counts as a success. -/
  successes : after.statistics.successfulInserts =
    step.before.statistics.successfulInserts + (step.returned true).toNat
  /-- And as one record more. -/
  size : after.filledSlots = step.before.filledSlots + (step.returned true).toNat
  /-- A call that returns false counts as a failure. -/
  failures : after.statistics.failedInserts =
    step.before.statistics.failedInserts + (step.returned false).toNat
  /-- And as a roll back below capacity. -/
  rollbacks : after.statistics.rollbackCount =
    step.before.statistics.rollbackCount + (step.returned false && step.belowCapacity).toNat
  /-- Then both candidate buckets were full. -/
  full : step.returned false = true → step.belowCapacity = true → step.bothFull = true
  /-- Its chain is added, and is within the permitted evictions on the eviction path. -/
  chain : ∃ length, length ≤ config.maximumEvictions * step.evicts.toNat ∧
    after.statistics.evictionSteps = step.before.statistics.evictionSteps + length ∧
    after.statistics.maximumEvictionChain =
      max step.before.statistics.maximumEvictionChain length

/-- What a call adds, by the exit it leaves. -/
theorem insertStep_counts {config : Config F} (step : InsertStep config P) :
    step.Counts step.ended.2 := by
  have exit := insert_exit step
  have answer : ∀ answer, step.returned answer = decide (step.ended.1 = .ok answer) := fun _ => rfl
  generalize step.ended = ended at exit answer ⊢
  cases exit with
  | threw fault =>
    exact {
      successes := by simp [answer]
      size := by simp [answer]
      failures := by simp [answer]
      rollbacks := by simp [answer]
      full := by simp [answer]
      chain := ⟨0, Nat.zero_le _, rfl, (Nat.max_zero _).symm⟩ }
  | refused taken =>
    exact {
      successes := by simp [answer]
      size := by simp [answer]
      failures := by simp [answer]
      rollbacks := by simp [taken]
      full := by simp [taken]
      chain := ⟨0, Nat.zero_le _, rfl, (Nat.max_zero _).symm⟩ }
  | stored permitted =>
    exact {
      successes := by simp [answer, succeed]
      size := by simp [answer, succeed]
      failures := by simp [answer, succeed]
      rollbacks := by simp [answer, succeed]
      full := by simp [answer]
      chain := ⟨_, permitted, rfl, rfl⟩ }
  | rolledBack below full entered =>
    exact {
      successes := by simp [answer, giveUp]
      size := by simp [answer, giveUp]
      failures := by simp [answer, giveUp]
      rollbacks := by simp [answer, giveUp, below]
      full := fun _ _ => full
      chain := ⟨_, by rw [entered, Bool.toNat_true, Nat.mul_one], rfl, rfl⟩ }

/-! ## A run -/

/-- The calls of a run of `Insert` from a state, each with the state it found. -/
def insertSteps (config : Config F) : List (Token128 × P) →
    State F config.layout.bucketCount P → List (InsertStep config P)
  | [], _ => []
  | call :: calls, state =>
    let step : InsertStep config P := ⟨call.1, call.2, state⟩
    step :: insertSteps config calls step.ended.2

/-- The statistics and the size of a filter account for the calls made on it since it was fresh. -/
structure CallsAccounted {config : Config F} (steps : List (InsertStep config P))
    (reached : State F config.layout.bucketCount P) : Prop where
  /-- `successful_inserts` counts the calls that returned true. -/
  successes : reached.statistics.successfulInserts = steps.countP (·.returned true)
  /-- So does `size`. -/
  size : reached.filledSlots = steps.countP (·.returned true)
  /-- `failed_inserts` counts the calls that returned false. -/
  failures : reached.statistics.failedInserts = steps.countP (·.returned false)
  /-- `rollback_count` counts those of them made below capacity. -/
  rollbacks : reached.statistics.rollbackCount =
    steps.countP fun step => step.returned false && step.belowCapacity
  /-- These found both candidate buckets full. -/
  full : ∀ step ∈ steps, step.returned false = true → step.belowCapacity = true →
    step.bothFull = true
  /-- No chain is longer than permitted. -/
  longest : reached.statistics.maximumEvictionChain ≤ config.maximumEvictions
  /-- The longest chain is one of those added up. -/
  longest_le_total : reached.statistics.maximumEvictionChain ≤ reached.statistics.evictionSteps
  /-- Every chain is at most as long as permitted, and belongs to a call on the eviction path. -/
  total : reached.statistics.evictionSteps ≤ config.maximumEvictions * steps.countP (·.evicts)

/-- A fresh filter accounts for no calls. -/
theorem callsAccounted_construct [Inhabited P] (config : Config F) (randomEngine : RandomEngine) :
    CallsAccounted ([] : List (InsertStep config P)) (construct config.layout randomEngine) where
  successes := rfl
  size := rfl
  failures := rfl
  rollbacks := rfl
  full := by simp
  longest := Nat.zero_le _
  longest_le_total := Nat.zero_le _
  total := Nat.zero_le _

/-- One call more counts when it has the property. -/
theorem countP_append_step {α : Type*} (holds : α → Bool) (items : List α) (item : α) :
    (items ++ [item]).countP holds = items.countP holds + (holds item).toNat := by
  rw [List.countP_append, List.countP_singleton]
  cases holds item
  · rfl
  · rfl

/-- The next call is accounted for. -/
theorem CallsAccounted.step {config : Config F} {steps : List (InsertStep config P)}
    (step : InsertStep config P) (account : CallsAccounted steps step.before) :
    CallsAccounted (steps ++ [step]) step.ended.2 := by
  have counts := insertStep_counts step
  obtain ⟨length, permitted, total, longest⟩ := counts.chain
  have short : length ≤ config.maximumEvictions := by
    apply permitted.trans
    cases step.evicts
    · exact Nat.zero_le _
    · exact (Nat.mul_one _).le
  exact {
    successes := by rw [counts.successes, account.successes, countP_append_step]
    size := by rw [counts.size, account.size, countP_append_step]
    failures := by rw [counts.failures, account.failures, countP_append_step]
    rollbacks := by rw [counts.rollbacks, account.rollbacks, countP_append_step]
    full := by
      intro other inside refused below
      rcases List.mem_append.mp inside with earlier | last
      · exact account.full other earlier refused below
      · rw [List.mem_singleton.mp last] at refused below ⊢
        exact counts.full refused below
    longest := by
      rw [longest]
      exact max_le account.longest short
    longest_le_total := by
      have before := account.longest_le_total
      rw [longest, total]
      omega
    total := by
      have before := account.total
      rw [total, countP_append_step, Nat.mul_add]
      omega }

/-- A run is accounted for after what came before it. -/
theorem CallsAccounted.run {config : Config F} (calls : List (Token128 × P))
    {steps : List (InsertStep config P)} {state : State F config.layout.bucketCount P}
    (account : CallsAccounted steps state) :
    CallsAccounted (steps ++ insertSteps config calls state) (runInserts config calls state).2 := by
  induction calls generalizing steps state with
  | nil =>
    rw [insertSteps, List.append_nil]
    exact account
  | cons call calls ih =>
    have later := ih (account.step ⟨call.1, call.2, state⟩)
    rw [List.append_assoc] at later
    exact later

/-- A padding that returns leaves the statistics alone and closes the filter. -/
theorem fillEmptySlots_statistics {bucketCount : Nat} {G E : Type*}
    {source : DummySource F P G E} {limit generated : Nat}
    {state padded : State F bucketCount P} {callbackState after : G}
    (returned : fillEmptySlots source limit state callbackState =
      some ((.ok generated, padded), after)) :
    padded.statistics = state.statistics ∧ padded.padded = true := by
  unfold fillEmptySlots at returned
  split at returned
  · simp at returned
  · split at returned
    · simp at returned
    · simp at returned
    · cases returned
      exact ⟨rfl, rfl⟩

/-- On a padded filter every call of a run throws, and none changes it. -/
theorem runInserts_padded (config : Config F) (calls : List (Token128 × P))
    {state : State F config.layout.bucketCount P} (padded : state.padded = true) :
    runInserts config calls state = (calls.map fun call =>
      (call, .error (.logicError "cannot insert genuine records after dummy padding")), state) := by
  induction calls with
  | nil => rfl
  | cons call calls ih =>
    rw [runInserts, insert, if_pos padded]
    dsimp only
    rw [ih, List.map_cons]

/-- The statistics of every filter reached by a run of `Insert` calls on a fresh one, under any
random choices, account for the calls of the run. A padding that returns then changes none of them,
and the calls made after it all throw and change nothing. -/
theorem insert_statistics [Inhabited P] (config : Config F) (randomEngine : RandomEngine)
    (calls : List (Token128 × P)) :
    CallsAccounted (insertSteps config calls (construct config.layout randomEngine))
        (runInserts config calls (construct config.layout randomEngine)).2 ∧
      ∀ {G E : Type} (source : DummySource F P G E) (limit generated : Nat)
        (padded : State F config.layout.bucketCount P) (callbackState after : G),
        fillEmptySlots source limit
            (runInserts config calls (construct config.layout randomEngine)).2 callbackState =
          some ((.ok generated, padded), after) →
        padded.statistics =
            (runInserts config calls (construct config.layout randomEngine)).2.statistics ∧
          ∀ later : List (Token128 × P), runInserts config later padded = (later.map fun call =>
            (call, .error (.logicError "cannot insert genuine records after dummy padding")),
            padded) := by
  constructor
  · exact (callsAccounted_construct config randomEngine).run calls
  · intro G E source limit generated padded callbackState after returned
    have closed := fillEmptySlots_statistics returned
    exact ⟨closed.1, fun later => runInserts_padded config later closed.2⟩

end Vlse.Filter
