import Vlse.Filter.Alternate
import Vlse.Filter.Canonical
/-!
# Insertion

`Insert` places a record in the emptier of its two candidate buckets or, when both are full,
starts an eviction chain: the record displaces a random resident, which moves on to its own
alternate bucket, and so on. A chain ends in a bucket with room, by moving one resident of the
current bucket to a bucket with room, or by rolling the journal back once the permitted number of
evictions is used up. Every write of a chain goes through the journal. The random engine is any
sequence of words.
-/

namespace Vlse.Filter

variable {F : FingerprintBits} {P : Type*}

/-- Why a call did not return. -/
inductive Fault where
  /-- The call threw `std::logic_error` with this message. -/
  | logicError (message : String)
  /-- The call threw `std::invalid_argument` with this message. -/
  | invalidArgument (message : String)
  /-- The call threw `std::runtime_error` with this message. -/
  | runtimeError (message : String)
  /-- The call threw `std::length_error`. -/
  | lengthError
  /-- The rehash loop of `Metadata` never ends. -/
  | unending
deriving DecidableEq

/-- `random_engine_`: the words it will produce. -/
structure RandomEngine where
  /-- The outputs still to come. -/
  outputs : Nat → Word

namespace RandomEngine

/-- The next output. -/
def word (engine : RandomEngine) : Word := engine.outputs 0

/-- The engine after one output. -/
def advance (engine : RandomEngine) : RandomEngine := ⟨fun index => engine.outputs (index + 1)⟩

/-- `random_engine_() % kSlotsPerBucket`. -/
def slot (engine : RandomEngine) : Fin 4 :=
  ⟨engine.word.toNat % 4, Nat.mod_lt _ (by decide)⟩

end RandomEngine

/-- `Statistics`. Its counters have 64 bits in the source and no bound here, so they agree up to
`2 ^ 64` counts. -/
structure Statistics where
  /-- Calls that returned true. -/
  successfulInserts : Nat := 0
  /-- Calls that returned false. -/
  failedInserts : Nat := 0
  /-- Evictions, over all calls. -/
  evictionSteps : Nat := 0
  /-- Chains rolled back. -/
  rollbackCount : Nat := 0
  /-- The longest chain. -/
  maximumEvictionChain : Nat := 0
deriving DecidableEq

/-- The mutable members of `PairedVacuumFilter`. -/
structure State (F : FingerprintBits) (bucketCount : Nat) (P : Type*) where
  /-- `random_engine_`. -/
  randomEngine : RandomEngine
  /-- `fingerprint_storage_` and `payloads_`. -/
  store : Store F bucketCount P
  /-- `filled_slots_`. -/
  filledSlots : Nat
  /-- `padded_`. -/
  padded : Bool
  /-- `statistics_`. -/
  statistics : Statistics

/-- The journal of a chain: buckets as they were before each write, oldest first. -/
abbrev Journal (F : FingerprintBits) (bucketCount : Nat) (P : Type*) :=
  List (Fin bucketCount × Bucket F P)

/-- A store with the journal kept for it. -/
abbrev Journalled (F : FingerprintBits) (bucketCount : Nat) (P : Type*) :=
  Store F bucketCount P × Journal F bucketCount P

/-- `JournalWrite`. -/
def journalWrite {bucketCount : Nat} (position : Fin bucketCount) (bucket : Bucket F P)
    (journalled : Journalled F bucketCount P) : Journalled F bucketCount P :=
  (bucketAccess F bucketCount P).journalWrite position bucket journalled

/-- The table of a journalled write is the one written to. -/
@[simp] theorem journalWrite_store {bucketCount : Nat} (position : Fin bucketCount)
    (bucket : Bucket F P) (journalled : Journalled F bucketCount P) :
    (journalWrite position bucket journalled).1 = writeBucket journalled.1 position bucket := rfl

/-- `RollBack`. -/
def rollBack {bucketCount : Nat} (journalled : Journalled F bucketCount P) :
    Store F bucketCount P :=
  (bucketAccess F bucketCount P).rollBack journalled.2 journalled.1

/-- `bucket[FirstEmpty(bucket)] = record`. -/
def placeFirstEmpty (bucket : Bucket F P) (record : Record F P) : Except Fault (Bucket F P) :=
  if room : occupied bucket < 4 then .ok (setRecord bucket (firstEmpty bucket room) record)
  else .error (.logicError "bucket is full")

/-- A bucket with room takes the record in an empty slot. -/
theorem placeFirstEmpty_of_room (bucket : Bucket F P) (record : Record F P)
    (room : occupied bucket < 4) :
    placeFirstEmpty bucket record = .ok (setRecord bucket (firstEmpty bucket room) record) :=
  dif_pos room

/-! ## Eviction chains -/

/-- The local variables of an eviction chain between two turns of its loop. -/
structure Chain (F : FingerprintBits) (bucketCount : Nat) (P : Type*) where
  /-- The table and `journal`. -/
  journalled : Journalled F bucketCount P
  /-- `carried`. -/
  carried : Record F P
  /-- `current_bucket`. -/
  currentBucket : Fin bucketCount
  /-- `random_engine_`. -/
  randomEngine : RandomEngine

/-- How the chain of a call ended. -/
inductive ChainEnd (F : FingerprintBits) (bucketCount : Nat) (P : Type*) where
  /-- Every record has a slot, after this many evictions. -/
  | placed (length : Nat) (journalled : Journalled F bucketCount P) (randomEngine : RandomEngine)
  /-- The permitted evictions are used up and a record is still carried. -/
  | exhausted (length : Nat) (chain : Chain F bucketCount P)
  /-- `FirstEmpty` threw. -/
  | threw (fault : Fault) (journalled : Journalled F bucketCount P) (randomEngine : RandomEngine)

/-- The one-step shortcut: move the first resident of the current bucket whose alternate bucket
has room there, and put the carried record in its slot. -/
def shortcut (layout : Layout F) (chain : Chain F layout.bucketCount P) (bucket : Bucket F P) :
    List (Fin 4) → Option (Except Fault (Journalled F layout.bucketCount P))
  | [] => none
  | slot :: slots =>
    let nextBucket := layout.alternate chain.currentBucket (recordAt bucket slot).fingerprint
    if nextBucket = chain.currentBucket then shortcut layout chain bucket slots
    else
      let next := readBucket chain.journalled.1 nextBucket
      if occupied next = 4 then shortcut layout chain bucket slots
      else
        match placeFirstEmpty next (recordAt bucket slot) with
        | .error fault => some (.error fault)
        | .ok next => some (.ok (journalWrite nextBucket next
            (journalWrite chain.currentBucket (setRecord bucket slot chain.carried)
              chain.journalled)))

/-- Exchange the carried record with one of a bucket and move on to the alternate bucket of the
record taken out. -/
def displace (layout : Layout F) (chain : Chain F layout.bucketCount P) (bucket : Bucket F P)
    (slot : Fin 4) (randomEngine : RandomEngine) : Chain F layout.bucketCount P where
  journalled :=
    journalWrite chain.currentBucket (setRecord bucket slot chain.carried) chain.journalled
  carried := recordAt bucket slot
  currentBucket := layout.alternate chain.currentBucket (recordAt bucket slot).fingerprint
  randomEngine

/-- The loop of a chain, with the evictions still permitted and those already made. -/
def evictLoop (layout : Layout F) (chain : Chain F layout.bucketCount P) (chainLength : Nat) :
    Nat → ChainEnd F layout.bucketCount P
  | 0 => .exhausted chainLength chain
  | remaining + 1 =>
    let bucket := readBucket chain.journalled.1 chain.currentBucket
    if occupied bucket < 4 then
      match placeFirstEmpty bucket chain.carried with
      | .error fault => .threw fault chain.journalled chain.randomEngine
      | .ok bucket => .placed (chainLength + 1)
          (journalWrite chain.currentBucket bucket chain.journalled) chain.randomEngine
    else
      match shortcut layout chain bucket allSlots with
      | some (.error fault) => .threw fault chain.journalled chain.randomEngine
      | some (.ok journalled) => .placed (chainLength + 1) journalled chain.randomEngine
      | none => evictLoop layout
          (displace layout chain bucket chain.randomEngine.slot chain.randomEngine.advance)
          (chainLength + 1) remaining

/-- The chain of a call, from the first random choice on. -/
def evict (config : Config F) (metadata : KeyMetadata config.layout) (incoming : Record F P)
    (store : Store F config.layout.bucketCount P) (randomEngine : RandomEngine) :
    ChainEnd F config.layout.bucketCount P :=
  let currentBucket :=
    if randomEngine.word &&& 1#64 ≠ 0#64 then metadata.firstBucket else metadata.secondBucket
  let start : Chain F config.layout.bucketCount P :=
    { journalled := (store, []), carried := incoming, currentBucket
      randomEngine := randomEngine.advance }
  evictLoop config.layout
    (displace config.layout start (readBucket store currentBucket) start.randomEngine.slot
      start.randomEngine.advance)
    0 config.maximumEvictions

/-! ## The call -/

/-- `use_first`. -/
def useFirst {layout : Layout F} (metadata : KeyMetadata layout) (firstCount secondCount : Nat) :
    Bool :=
  metadata.firstBucket = metadata.secondBucket ∨ firstCount ≤ secondCount

/-- The tail of a call that placed its record after a chain of the given length, zero for a
direct placement. -/
def succeed {bucketCount : Nat} (state : State F bucketCount P) (length : Nat)
    (store : Store F bucketCount P) (randomEngine : RandomEngine) : State F bucketCount P :=
  { state with
    randomEngine, store
    filledSlots := state.filledSlots + 1
    statistics := { state.statistics with
      successfulInserts := state.statistics.successfulInserts + 1
      evictionSteps := state.statistics.evictionSteps + length
      maximumEvictionChain := max state.statistics.maximumEvictionChain length } }

/-- The tail of a call whose chain was rolled back. -/
def giveUp {bucketCount : Nat} (state : State F bucketCount P) (length : Nat)
    (store : Store F bucketCount P) (randomEngine : RandomEngine) : State F bucketCount P :=
  { state with
    randomEngine, store
    statistics := { state.statistics with
      failedInserts := state.statistics.failedInserts + 1
      rollbackCount := state.statistics.rollbackCount + 1
      evictionSteps := state.statistics.evictionSteps + length
      maximumEvictionChain := max state.statistics.maximumEvictionChain length } }

/-- The body of `Insert` once the metadata of the token is known. -/
def insertRecord (config : Config F) (metadata : KeyMetadata config.layout) (payload : P)
    (state : State F config.layout.bucketCount P) :
    Except Fault Bool × State F config.layout.bucketCount P :=
  let first := readBucket state.store metadata.firstBucket
  let second := if metadata.secondBucket = metadata.firstBucket then first
    else readBucket state.store metadata.secondBucket
  let firstCount := occupied first
  let secondCount := occupied second
  let incoming : Record F P := ⟨metadata.fingerprint, payload⟩
  if firstCount < 4 ∨ secondCount < 4 then
    let destination := if useFirst metadata firstCount secondCount then metadata.firstBucket
      else metadata.secondBucket
    let bucket := if useFirst metadata firstCount secondCount then first else second
    match placeFirstEmpty bucket incoming with
    | .error fault => (.error fault, state)
    | .ok bucket => (.ok true,
        succeed state 0 (writeBucket state.store destination bucket) state.randomEngine)
  else
    match evict config metadata incoming state.store state.randomEngine with
    | .placed length journalled randomEngine =>
      (.ok true, succeed state length journalled.1 randomEngine)
    | .exhausted length chain =>
      (.ok false, giveUp state length (rollBack chain.journalled) chain.randomEngine)
    | .threw fault journalled randomEngine =>
      (.error fault, { state with store := journalled.1, randomEngine })

/-- `Insert`. -/
def insert (config : Config F) (token : Token128) (payload : P)
    (state : State F config.layout.bucketCount P) :
    Except Fault Bool × State F config.layout.bucketCount P :=
  if state.padded then
    (.error (.logicError "cannot insert genuine records after dummy padding"), state)
  else if config.layout.capacity ≤ state.filledSlots then
    (.ok false, { state with statistics :=
      { state.statistics with failedInserts := state.statistics.failedInserts + 1 } })
  else
    match config.metadata token with
    | none => (.error .unending, state)
    | some metadata => insertRecord config metadata payload state

end Vlse.Filter
