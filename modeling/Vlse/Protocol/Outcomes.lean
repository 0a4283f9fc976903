import Vlse.Filter.Capacity
import Vlse.Filter.Statistics
import Vlse.Protocol.EndToEnd
/-!
# How Setup ends

An attempt inserts every record, is refused once, or meets a token that rehashes for ever; no guard
of the filter fires. So where the keywords evaluate, their labels encrypt and the filters can be
constructed, a run of Setup throws for four reasons only, completes, or never ends, and its figures
follow from the number of attempts refused. A completed Setup has found room for every record, so it
never holds more than eight keywords whose tokens `HashToken128` does not tell apart.
-/

namespace Vlse.Protocol

open Vlse.Filter Label Oprf

variable {C T : Type*} {DMax : Nat}

/-! ## One attempt -/

/-- The counters of a filter after some calls of `Insert` returned true and some false. -/
structure AttemptFigures (maximumEvictions : Nat) (statistics : Statistics)
    (inserted refused : Nat) : Prop where
  /-- Every call that returned true counts. -/
  successes : statistics.successfulInserts = inserted
  /-- So does every call that returned false. -/
  failures : statistics.failedInserts = refused
  /-- Only these were rolled back. -/
  rollbacks : statistics.rollbackCount ≤ refused
  /-- No chain is longer than permitted. -/
  longest : statistics.maximumEvictionChain ≤ maximumEvictions
  /-- The longest chain is one of those added up. -/
  longest_le_total : statistics.maximumEvictionChain ≤ statistics.evictionSteps
  /-- Each call made at most one chain. -/
  total : statistics.evictionSteps ≤ maximumEvictions * (inserted + refused)

section Attempt

variable {P : Type*} {config : Config indexBits} {records : List (TokenKeyPair × P)}

/-- How an insertion loop over so many records can end. -/
inductive AttemptOutcome (config : Config indexBits) (records : List (TokenKeyPair × P))
    (count : Nat) : Except Fault Bool × State indexBits config.layout.bucketCount P → Prop
  /-- Every record was inserted. -/
  | inserted {state : State indexBits config.layout.bucketCount P} (unpadded : state.padded = false)
    (figures : AttemptFigures config.maximumEvictions state.statistics count 0) :
    AttemptOutcome config records count (.ok true, state)
  /-- One record was refused, by a roll back when there is room for all of them. -/
  | refused {state : State indexBits config.layout.bucketCount P} {inserted : Nat}
    (fewer : inserted < count)
    (figures : AttemptFigures config.maximumEvictions state.statistics inserted 1)
    (rolledBack : count ≤ config.layout.capacity → state.statistics.rollbackCount = 1) :
    AttemptOutcome config records count (.ok false, state)
  /-- A token rehashes for ever. -/
  | unending {state : State indexBits config.layout.bucketCount P} {record : TokenKeyPair × P}
    (inside : record ∈ records) (never : config.metadata record.1.token = none) :
    AttemptOutcome config records count (.error .unending, state)

/-- What a call adds to the counters of a filter that has refused nothing yet. -/
theorem insert_figures {token : Token128} {payload : P} {inserted : Nat} {answer : Bool}
    {state after : State indexBits config.layout.bucketCount P}
    (figures : AttemptFigures config.maximumEvictions state.statistics inserted 0)
    (ended : insert config token payload state = (.ok answer, after)) :
    AttemptFigures config.maximumEvictions after.statistics (inserted + answer.toNat)
        (!answer).toNat ∧
      after.filledSlots = state.filledSlots + answer.toNat ∧
      (answer = false → state.filledSlots < config.layout.capacity →
        after.statistics.rollbackCount = 1) := by
  let step : InsertStep config P := ⟨token, payload, state⟩
  have reached : step.ended = (.ok answer, after) := ended
  have returned : ∀ other, step.returned other = decide (answer = other) := by
    intro other
    rw [InsertStep.returned, reached]
    simp
  have counts := insertStep_counts step
  rw [reached] at counts
  obtain ⟨length, permitted, total, longest⟩ := counts.chain
  have short : length ≤ config.maximumEvictions := by
    apply permitted.trans
    cases step.evicts
    · exact Nat.zero_le _
    · exact (Nat.mul_one _).le
  have before := figures.total
  have earlier := figures.longest
  have within := figures.longest_le_total
  have count := figures.successes
  have none := figures.failures
  have unrolled := figures.rollbacks
  have successes : after.statistics.successfulInserts =
      state.statistics.successfulInserts + (step.returned true).toNat := counts.successes
  have size : after.filledSlots = state.filledSlots + (step.returned true).toNat := counts.size
  have failures : after.statistics.failedInserts =
      state.statistics.failedInserts + (step.returned false).toNat := counts.failures
  have rollbacks : after.statistics.rollbackCount =
      state.statistics.rollbackCount + (step.returned false && step.belowCapacity).toNat :=
    counts.rollbacks
  have evictions : after.statistics.evictionSteps = state.statistics.evictionSteps + length := total
  have chain : after.statistics.maximumEvictionChain =
      max state.statistics.maximumEvictionChain length := longest
  have bound : config.maximumEvictions * (inserted + answer.toNat + (!answer).toNat) =
      config.maximumEvictions * (inserted + 0) + config.maximumEvictions := by
    cases answer
    · exact Nat.mul_succ _ _
    · exact Nat.mul_succ _ _
  rw [returned] at successes size failures rollbacks
  refine ⟨?_, ?_, ?_⟩
  · exact {
      successes := by
        cases answer
        · simp [successes, count]
        · simp [successes, count]
      failures := by
        cases answer
        · simp [failures, none]
        · simp [failures, none]
      rollbacks := by
        have atMost := Bool.toNat_le (decide (answer = false) && step.belowCapacity)
        cases answer
        · simp only [Bool.not_false, Bool.toNat_true]
          omega
        · simp only [Bool.true_eq_false, decide_false, Bool.false_and, Bool.toNat_false]
            at rollbacks
          omega
      longest := by
        rw [chain]
        exact max_le earlier short
      longest_le_total := by
        rw [chain, evictions]
        omega
      total := by
        rw [bound, evictions]
        omega }
  · cases answer
    · simpa using size
    · simpa using size
  · rintro rfl below
    have belowCapacity : step.belowCapacity = true := decide_eq_true below
    rw [belowCapacity] at rollbacks
    simp only [decide_true, Bool.and_self, Bool.toNat_true] at rollbacks
    omega

/-- An insertion loop, from a filter that has refused nothing yet. -/
theorem insertAll_outcome {order : List (Fin records.length)} {inserted : Nat}
    {state : State indexBits config.layout.bucketCount P}
    {held : Multiset (Home config.layout × P)} (account : Accounts config.layout state held)
    (unpadded : state.padded = false) (filled : state.filledSlots = inserted)
    (figures : AttemptFigures config.maximumEvictions state.statistics inserted 0) :
    AttemptOutcome config records (inserted + order.length)
      (insertAll config records order state) := by
  induction order generalizing state inserted held with
  | nil => exact .inserted unpadded figures
  | cons index order ih =>
    have outcome := insert_outcome config (records.get index).1.token (records.get index).2 state
      account.canonical
    have kept := account.insert (records.get index).1.token (records.get index).2
    have closed := insert_padded config (records.get index).1.token (records.get index).2
      account.canonical
    rw [insertAll, List.length_cons]
    cases ended : insert config (records.get index).1.token (records.get index).2 state with
    | mk answer after =>
      rw [ended] at outcome kept closed
      cases answer with
      | error fault =>
        cases outcome with
        | padded padded =>
          rw [unpadded] at padded
          contradiction
        | unending open_ never => exact .unending (List.get_mem records index) never
      | ok answer =>
        obtain ⟨next, size, rolledBack⟩ := insert_figures figures ended
        cases answer with
        | true =>
          have rest := ih kept (closed.trans unpadded) (size.trans (by rw [filled])) next
          rw [Nat.add_right_comm] at rest
          exact rest
        | false =>
          have fewer : inserted + false.toNat < inserted + (order.length + 1) := by
            rw [Bool.toNat_false]
            omega
          exact .refused fewer next fun room => rolledBack rfl (by omega)

/-- An attempt from a fresh filter. -/
theorem insertAll_fresh [Inhabited P] {order : List (Fin records.length)}
    (complete : order.Perm (List.finRange records.length)) (randomEngine : RandomEngine) :
    AttemptOutcome config records records.length
      (insertAll config records order (construct config.layout randomEngine)) := by
  have fresh : AttemptFigures config.maximumEvictions
      (construct (P := P) config.layout randomEngine).statistics 0 0 := by
    constructor
    all_goals simp [construct]
  have counted : order.length = records.length := by
    rw [complete.length_eq, List.length_finRange]
  have outcome : AttemptOutcome config records (0 + order.length)
      (insertAll config records order (construct config.layout randomEngine)) :=
    insertAll_outcome (accounts_construct config.layout randomEngine) rfl rfl fresh
  rw [Nat.zero_add, counted] at outcome
  exact outcome

end Attempt

/-! ## The retry loop -/

/-- The figures of so many attempts, of which so many were refused. -/
structure TotalsFigures (keywordCount : Nat) (roomy : Prop) (attempts failed : Nat)
    (totals : SetupTotals) : Prop where
  /-- `setup_attempts`. -/
  made : totals.setupAttempts = attempts
  /-- `failed_setup_attempts`. -/
  refused : totals.failedSetupAttempts = failed
  /-- A refused attempt ends at its first refused record. -/
  failures : totals.failedInserts = failed
  /-- Only these were rolled back. -/
  rollbacks : totals.rollbackCount ≤ failed
  /-- All of them, when every table has a slot for each record. -/
  rolledBack : roomy → totals.rollbackCount = failed
  /-- An attempt that was not refused inserted every record. -/
  successes : (attempts - failed) * keywordCount ≤ totals.successfulInserts
  /-- A refused attempt missed a record at least. -/
  missed : totals.successfulInserts + failed ≤ attempts * keywordCount
  /-- No chain is longer than the 500 evictions permitted. -/
  longest : totals.maximumEvictionChain ≤ 500
  /-- The longest chain is one of those added up. -/
  longest_le_total : totals.maximumEvictionChain ≤ totals.evictionSteps
  /-- Each call of `Insert` made at most one chain. -/
  total : totals.evictionSteps ≤ 500 * (totals.successfulInserts + totals.failedInserts)

/-- Before the first attempt there is nothing to account for. -/
theorem totalsFigures_initial (keywordCount : Nat) (roomy : Prop) :
    TotalsFigures keywordCount roomy 0 0 {} := by
  constructor
  all_goals simp

section Totals

variable {keywordCount attempts inserted : Nat} {roomy : Prop} {totals : SetupTotals}
  {statistics : Statistics}

/-- The figures after an attempt that inserted every record. -/
theorem TotalsFigures.add_inserted (figures : TotalsFigures keywordCount roomy attempts attempts
    totals) (attempt : AttemptFigures 500 statistics keywordCount 0) :
    TotalsFigures keywordCount roomy (attempts + 1) attempts (totals.add statistics true) where
  made := congrArg (· + 1) figures.made
  refused := figures.refused
  failures := congrArg₂ (· + ·) figures.failures attempt.failures
  rollbacks := Nat.add_le_add figures.rollbacks attempt.rollbacks
  rolledBack room := by
    have none := Nat.le_zero.mp attempt.rollbacks
    exact congrArg₂ (· + ·) (figures.rolledBack room) none
  successes := by
    have here := attempt.successes
    simp only [SetupTotals.add, Nat.add_sub_cancel_left, Nat.one_mul]
    omega
  missed := by
    have before := figures.missed
    have here := attempt.successes
    rw [Nat.succ_mul]
    simp only [SetupTotals.add]
    omega
  longest := max_le figures.longest attempt.longest
  longest_le_total := by
    have before := figures.longest_le_total
    have here := attempt.longest_le_total
    simp only [SetupTotals.add]
    omega
  total := by
    have before := figures.total
    have here := attempt.total
    have successes := attempt.successes
    have failures := attempt.failures
    simp only [SetupTotals.add]
    omega

/-- The figures after an attempt that was refused. -/
theorem TotalsFigures.add_refused (figures : TotalsFigures keywordCount roomy attempts attempts
    totals) (attempt : AttemptFigures 500 statistics inserted 1) (fewer : inserted < keywordCount)
    (rolledBack : roomy → statistics.rollbackCount = 1) :
    TotalsFigures keywordCount roomy (attempts + 1) (attempts + 1)
      (totals.add statistics false) where
  made := congrArg (· + 1) figures.made
  refused := congrArg (· + 1) figures.refused
  failures := congrArg₂ (· + ·) figures.failures attempt.failures
  rollbacks := Nat.add_le_add figures.rollbacks attempt.rollbacks
  rolledBack room := congrArg₂ (· + ·) (figures.rolledBack room) (rolledBack room)
  successes := by
    rw [Nat.sub_self, Nat.zero_mul]
    exact Nat.zero_le _
  missed := by
    have before := figures.missed
    have here := attempt.successes
    rw [Nat.succ_mul]
    simp only [SetupTotals.add]
    omega
  longest := max_le figures.longest attempt.longest
  longest_le_total := by
    have before := figures.longest_le_total
    have here := attempt.longest_le_total
    simp only [SetupTotals.add]
    omega
  total := by
    have before := figures.total
    have here := attempt.total
    have successes := attempt.successes
    have failures := attempt.failures
    simp only [SetupTotals.add]
    omega

end Totals

section Retry

variable {P : Type*} [Inhabited P] (env : Environment C T) (seed : Word)

/-- Every layout of the retry loop has a slot for each record. -/
def Roomy (keywordCount : Nat) : Prop :=
  ∀ attempt < 4, keywordCount ≤ (attemptConfig env seed keywordCount attempt).layout.capacity

/-- How the retry loop can end. -/
inductive RetryOutcome (records : List (TokenKeyPair × P)) :
    Except Fault (Index P) × SetupTotals → Prop
  /-- After some refused attempts, one inserted every record. -/
  | completed {index : Index P} {failed : Nat} {totals : SetupTotals} (few : failed < 4)
    (chosen : index.config = attemptConfig env seed records.length failed)
    (unpadded : index.state.padded = false)
    (figures : TotalsFigures records.length (Roomy env seed records.length) (failed + 1) failed
      totals) : RetryOutcome records (.ok index, totals)
  /-- All four attempts were refused. -/
  | exhausted {totals : SetupTotals}
    (figures : TotalsFigures records.length (Roomy env seed records.length) 4 4 totals) :
    RetryOutcome records
      (.error (.runtimeError "paired bounded Setup exhausted all retries"), totals)
  /-- The filter was asked for no items. -/
  | empty {attempt : Nat} {totals : SetupTotals} (few : attempt < 4)
    (none : scheduledItems records.length attempt = 0) :
    RetryOutcome records (.error (.invalidArgument "maximum_items must be positive"), totals)
  /-- A token rehashes for ever. -/
  | unending {attempt : Nat} {record : TokenKeyPair × P} {totals : SetupTotals} (few : attempt < 4)
    (inside : record ∈ records)
    (never : (attemptConfig env seed records.length attempt).metadata record.1.token = none) :
    RetryOutcome records (.error .unending, totals)

/-- From an attempt on, with all attempts before it refused, the retry loop ends so. -/
theorem retryLoop_outcome {records : List (TokenKeyPair × P)} {remaining attempt : Nat}
    {order : List (Fin records.length)} {totals : SetupTotals} (four : attempt + remaining = 4)
    (complete : order.Perm (List.finRange records.length))
    (figures : TotalsFigures records.length (Roomy env seed records.length) attempt attempt
      totals) :
    RetryOutcome env seed records (retryLoop env seed records remaining attempt order totals) := by
  induction remaining generalizing attempt order totals with
  | zero =>
    obtain rfl : attempt = 4 := four
    exact .exhausted figures
  | succ remaining ih =>
    have few : attempt < 4 := by omega
    rw [retryLoop]
    split
    · rename_i none
      exact .empty few none
    · have shuffled := (env.shuffle.perm
        (seed ^^^ (0x3c6ef372fe94f82b#64 + BitVec.ofNat 64 attempt)) order).trans complete
      dsimp only
      have outcome := @insertAll_fresh _ (attemptConfig env seed records.length attempt) _ _ _
        shuffled (env.engineOf (seed ^^^ (0xbb67ae8584caa73b#64 + BitVec.ofNat 64 attempt)))
      generalize insertAll _ _ _ _ = ended at outcome ⊢
      cases outcome with
      | inserted unpadded attemptFigures =>
        exact .completed few rfl unpadded (figures.add_inserted attemptFigures)
      | refused fewer attemptFigures rolledBack =>
        refine ih (by omega) shuffled (figures.add_refused attemptFigures fewer fun room => ?_)
        exact rolledBack (room attempt few)
      | unending inside never => exact .unending few inside never

end Retry

/-! ## Setup -/

section Setup

/-- The reasons for which Setup throws or never ends, and how it completes. `DirectEvaluate`,
`EncryptLabel` and the constructor of the filter return here; what they throw, Setup throws. -/
inductive SetupOutcome (env : Environment C T) (seed : Word) (keywords : List String)
    (run : SetupRun DMax C T) : Prop
  /-- The genuine records cannot be reserved. -/
  | tooLong (long : 2 ^ 63 - 1 < keywords.length * genuineRecordBytes DMax)
    (threw : run.result = .error .lengthError)
  /-- There are no keywords. -/
  | empty (none : keywords = [])
    (threw : run.result = .error (.invalidArgument "maximum_items must be positive"))
  /-- Four attempts were refused. -/
  | exhausted
    (threw : run.result =
      .error (.runtimeError "paired bounded Setup exhausted all retries"))
    (figures : TotalsFigures keywords.length (Roomy env seed keywords.length) 4 4 run.totals)
  /-- Setup never ends: a token rehashes for ever in the filter of an attempt. -/
  | unending {attempt : Nat} {token : Token128} (few : attempt < 4)
    (never : (attemptConfig env seed keywords.length attempt).metadata token = none)
    (endless : run.result = .error .unending)
  /-- The random source failed. -/
  | noRandomness {draw : Nat} (failed : env.oprfShape draw = none)
    (threw : run.result = .error (.runtimeError "RAND_bytes failed for dummy derivation seed"))
  /-- The index of the attempt after the refused ones is padded. -/
  | completed {index : Index (SealedRecord DMax C T)} {dummies failed : Nat}
    (returned : run.result = .ok (index, dummies)) (few : failed < 4)
    (chosen : index.config = attemptConfig env seed keywords.length failed)
    (figures : TotalsFigures keywords.length (Roomy env seed keywords.length) (failed + 1) failed
      run.totals)

/-- A record takes 32 bytes at least. -/
theorem le_genuineRecordBytes (DMax : Nat) : 32 ≤ genuineRecordBytes DMax := by
  unfold genuineRecordBytes
  omega

/-- The filter of an attempt is asked for no items only when there are no keywords. -/
theorem scheduledItems_eq_zero {keywordCount attempt : Nat} (few : attempt < 4)
    (bounded : keywordCount * genuineRecordBytes DMax ≤ 2 ^ 63 - 1)
    (none : scheduledItems keywordCount attempt = 0) : keywordCount = 0 := by
  have wide := Nat.mul_le_mul_left keywordCount (le_genuineRecordBytes DMax)
  have small : keywordCount * attempt ≤ keywordCount * 4 := Nat.mul_le_mul_left _ few.le
  have unwrapped : keywordCount * attempt % 2 ^ 64 = keywordCount * attempt :=
    Nat.mod_eq_of_lt (by omega)
  rw [scheduledItems, unwrapped, Nat.mod_eq_of_lt (by omega)] at none
  omega

/-- The dummy callbacks throw when the random source fails or a token rehashes for ever. -/
theorem dummySource_throws (env : Environment C T) (seed : Word) (config : Config indexBits) :
    (dummySource env DMax seed config).fingerprintGenerator.Throws fun fault =>
      (∃ draw, env.oprfShape draw = none ∧
        fault = .runtimeError "RAND_bytes failed for dummy derivation seed") ∨
      ∃ token, config.metadata token = none ∧ fault = .unending := by
  intro state fault after threw
  unfold dummySource at threw
  dsimp only at threw
  split at threw
  · rename_i failed
    cases threw
    exact .inl ⟨_, failed, rfl⟩
  · split at threw
    · rename_i never
      cases threw
      exact .inr ⟨_, never, rfl⟩
    · cases threw

variable [Inhabited C] [Inhabited T]

/-- The figures of a run are those of its attempts. -/
theorem setup_totals {env : Environment C T} {seed : Word} {keywords : List String} {limit : Nat}
    {run : SetupRun DMax C T} (ended : setup env DMax seed keywords limit = some run)
    (bounded : keywords.length * genuineRecordBytes DMax ≤ 2 ^ 63 - 1) :
    run.totals =
      (retryLoop env seed (genuineRecords env DMax seed keywords) 4 0 (List.finRange _) {}).2 := by
  unfold setup at ended
  rw [if_neg (not_lt.mpr bounded), makeGenuine_eq] at ended
  dsimp only at ended
  split at ended
  · obtain rfl := Option.some.inj ended
    rfl
  · obtain ⟨ending, -, rfl⟩ := Option.map_eq_some_iff.mp ended
    rfl

/-- A completed Setup has the filter of its last attempt. -/
theorem setup_config {env : Environment C T} {seed : Word} {keywords : List String} {limit : Nat}
    {run : SetupRun DMax C T} {index : Index (SealedRecord DMax C T)} {dummies : Nat}
    (ended : setup env DMax seed keywords limit = some run)
    (completed : run.result = .ok (index, dummies)) :
    index.config = attemptConfig env seed keywords.length (run.totals.setupAttempts - 1) := by
  obtain ⟨bounded, tried, reached, start, after, found, -, rfl⟩ := setup_ok ended completed
  have counted : (genuineRecords env DMax seed keywords).length = keywords.length := by
    rw [genuineRecords, List.length_map, List.length_zipIdx]
  have outcome := retryLoop_outcome env seed (Nat.zero_add 4)
    (List.Perm.refl (List.finRange (genuineRecords env DMax seed keywords).length))
    (totalsFigures_initial _ _)
  rw [setup_totals ended bounded]
  generalize retryLoop env seed (genuineRecords env DMax seed keywords) 4 0 _ {} = tries
    at outcome found ⊢
  cases outcome with
  | completed few chosen unpadded figures =>
    cases found
    rw [chosen, figures.made, counted]
    rfl
  | exhausted figures => contradiction
  | empty few none => contradiction
  | unending few inside never => contradiction

/-- A Setup that has ended did so in one of these ways. -/
theorem outcome_of_setup {env : Environment C T} {seed : Word} {keywords : List String}
    {limit : Nat} {run : SetupRun DMax C T}
    (ended : setup env DMax seed keywords limit = some run) :
    SetupOutcome env seed keywords run := by
  unfold setup at ended
  split at ended
  · rename_i long
    obtain rfl := Option.some.inj ended
    exact .tooLong long rfl
  · rename_i bounded
    rw [not_lt] at bounded
    rw [makeGenuine_eq] at ended
    dsimp only at ended
    have counted : (genuineRecords env DMax seed keywords).length = keywords.length := by
      rw [genuineRecords, List.length_map, List.length_zipIdx]
    have outcome := retryLoop_outcome env seed (Nat.zero_add 4)
      (List.Perm.refl (List.finRange (genuineRecords env DMax seed keywords).length))
      (totalsFigures_initial _ _)
    unfold genuineRecords at counted outcome
    generalize keywords.zipIdx.map _ = records at counted outcome ended
    generalize retryLoop env seed records 4 0 (List.finRange records.length) {} = tried
      at outcome ended
    cases outcome with
    | completed few chosen unpadded figures =>
      rename_i index failed totals
      rw [counted] at chosen figures
      dsimp only at ended
      obtain ⟨⟨⟨ending, reached⟩, after⟩, padded, rfl⟩ := Option.map_eq_some_iff.mp ended
      cases ending with
      | ok dummies => exact .completed rfl few chosen figures
      | error fault =>
        obtain ⟨exception, rfl, thrown⟩ := DummySource.fillEmptySlots_throws
          (dummySource_throws env seed index.config)
          (fun state exception after threw => by cases threw)
          (fun candidate => Callback.throws_pure true) unpadded padded
        rcases thrown with ⟨draw, failed, rfl⟩ | ⟨token, never, rfl⟩
        · exact .noRandomness failed rfl
        · rw [chosen] at never
          exact .unending few never rfl
    | exhausted figures =>
      obtain rfl := Option.some.inj ended
      rw [counted] at figures
      exact .exhausted rfl figures
    | empty few none =>
      obtain rfl := Option.some.inj ended
      rw [counted] at none
      have nothing := scheduledItems_eq_zero few bounded none
      exact .empty (List.length_eq_zero_iff.mp nothing) rfl
    | unending few inside never =>
      obtain rfl := Option.some.inj ended
      rw [counted] at never
      exact .unending few never rfl

/-- Setup ends where no token rehashes for ever in the filter of an attempt. -/
theorem setup_ne_unending {env : Environment C T} {seed : Word} {keywords : List String}
    {limit : Nat} {run : SetupRun DMax C T} (ended : setup env DMax seed keywords limit = some run)
    (rehashes : ∀ attempt < 4, ∀ token,
      (attemptConfig env seed keywords.length attempt).metadata token ≠ none) :
    run.result ≠ .error .unending := by
  intro endless
  cases outcome_of_setup ended with
  | tooLong long threw => exact absurd (threw.symm.trans endless) (by simp)
  | empty none threw => exact absurd (threw.symm.trans endless) (by simp)
  | exhausted threw figures => exact absurd (threw.symm.trans endless) (by simp)
  | unending few never endless => exact rehashes _ few _ never
  | noRandomness failed threw => exact absurd (threw.symm.trans endless) (by simp)
  | completed returned few chosen figures => exact absurd (returned.symm.trans endless) (by simp)

/-- A Setup that completes has made at most four attempts. -/
theorem setup_attempts_le {env : Environment C T} {seed : Word} {keywords : List String}
    {limit : Nat} {run : SetupRun DMax C T} {index : Index (SealedRecord DMax C T)} {dummies : Nat}
    (ended : setup env DMax seed keywords limit = some run)
    (completed : run.result = .ok (index, dummies)) : run.totals.setupAttempts ≤ 4 := by
  cases outcome_of_setup ended with
  | tooLong long threw => exact absurd (threw.symm.trans completed) (by simp)
  | empty none threw => exact absurd (threw.symm.trans completed) (by simp)
  | exhausted threw figures => exact absurd (threw.symm.trans completed) (by simp)
  | unending few never endless => exact absurd (endless.symm.trans completed) (by simp)
  | noRandomness failed threw => exact absurd (threw.symm.trans completed) (by simp)
  | completed returned few chosen figures =>
    rw [figures.made]
    omega

end Setup

/-! ## Keywords under one home -/

/-- The entries of records whose tokens fold alike have the home of one of them. -/
theorem le_card_recordEntries {P : Type*} {config : Config indexBits} (word : Word)
    {records : List (TokenKeyPair × P)}
    (known : ∀ record ∈ records, ∃ metadata, config.metadata record.1.token = some metadata)
    {metadata : KeyMetadata config.layout}
    (shared : ∀ record ∈ records, foldToken record.1.token = word →
      config.metadata record.1.token = some metadata) :
    records.countP (fun record => foldToken record.1.token = word) ≤
      ((records.map fun record => recordEntry config record).sum.filter fun item =>
        item.1 = metadata.home).card := by
  induction records with
  | nil => exact Nat.zero_le _
  | cons record records ih =>
    have rest := ih (fun other inside => known other (List.mem_cons_of_mem record inside))
      fun other inside => shared other (List.mem_cons_of_mem record inside)
    rw [List.map_cons, List.sum_cons, Multiset.filter_add, Multiset.card_add, List.countP_cons]
    split
    · rename_i alike
      have derived := shared record List.mem_cons_self (of_decide_eq_true alike)
      have own : (recordEntry config record).filter (fun item => item.1 = metadata.home) =
          {metadata.entry record.2} := by
        rw [recordEntry, acceptedEntry, derived]
        exact Multiset.filter_eq_self.mpr fun item inside => by
          rw [Multiset.mem_singleton.mp inside]
          rfl
      rw [own, Multiset.card_singleton]
      omega
    · omega

/-- A completed Setup holds at most eight keywords whose tokens fold alike: with nine of them it
does not complete, whatever the seeds, the orders and the number of attempts. -/
theorem setup_crowded [Inhabited C] [Inhabited T] {env : Environment C T} {seed : Word}
    {keywords : List String} {limit : Nat} {run : SetupRun DMax C T}
    {index : Index (SealedRecord DMax C T)} {dummies : Nat}
    (ended : setup env DMax seed keywords limit = some run)
    (completed : run.result = .ok (index, dummies)) (word : Word) :
    keywords.countP (fun keyword => foldToken (env.derive keyword).token = word) ≤ 8 := by
  obtain ⟨-, known, added, account, -⟩ := setup_accounts ended completed
  have counted : keywords.countP (fun keyword => foldToken (env.derive keyword).token = word) =
      (genuineRecords env DMax seed keywords).countP
        fun record => foldToken record.1.token = word := by
    rw [genuineRecords, List.countP_map]
    conv_lhs => rw [← List.zipIdx_map_fst 0 keywords, List.countP_map]
    rfl
  rw [counted]
  by_cases none : (genuineRecords env DMax seed keywords).countP
      (fun record => foldToken record.1.token = word) = 0
  · omega
  · obtain ⟨first, inside, alike⟩ := List.countP_pos_iff.mp (Nat.pos_of_ne_zero none)
    obtain ⟨metadata, derived⟩ := known first inside
    have shared : ∀ record ∈ genuineRecords env DMax seed keywords,
        foldToken record.1.token = word →
          index.config.metadata record.1.token = some metadata := by
      intro record _ same
      rw [← derived]
      exact metadata_eq_of_foldToken _ (same.trans (of_decide_eq_true alike).symm)
    have counted := le_card_recordEntries word known shared
    have bounded := card_under_le index.state.store metadata.home
    have room := roomFor_le metadata.home
    rw [account.contents, Multiset.filter_add, Multiset.card_add] at bounded
    omega

/-- Five keywords with one token. -/
def alikeKeywords : List String := ["one/7", "two/7", "three/7", "four/7", "five/7"]

/-- How many of the five fold like the first of them. -/
def alikeCount : Nat :=
  alikeKeywords.countP fun keyword =>
    foldToken (steadyEnvironment.derive keyword).token =
      foldToken (steadyEnvironment.derive "one/7").token

/-- Setup completes for them: they are five, and no more than eight. -/
theorem setup_crowded_alike : alikeCount = 5 ∧ ∃ run index dummies,
    setup steadyEnvironment 2 7 alikeKeywords 1 = some run ∧ run.result = .ok (index, dummies) ∧
      alikeCount ≤ 8 := by
  have completes : (setup steadyEnvironment 2 7 alikeKeywords 1).any
      (fun run => run.result.toOption.isSome) = true := by
    decide +kernel
  obtain ⟨run, index, dummies, ended, completed⟩ := exists_of_completes completes
  exact ⟨by decide +kernel, run, index, dummies, ended, completed, setup_crowded ended completed _⟩

end Vlse.Protocol
