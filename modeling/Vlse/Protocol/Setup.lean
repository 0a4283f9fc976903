import Vlse.Filter.Runs
import Vlse.Protocol.Results
/-!
# Setup and query of the VLSE protocol

`RunPaired` derives a token and a key for every keyword, seals one record per keyword, inserts the
records in shuffled order into a filter, tries again with other seeds and more room when an
insertion is refused, and pads the filter with sealed dummies. A query looks a token up and
collects the authenticated results. Every call of `EncryptLabel` goes into a trace.
-/

namespace Vlse.Protocol

open Vlse.Filter Label Oprf

variable {C T : Type*} {DMax : Nat}

/-- `std::shuffle` with an engine seeded by a word: some reordering. -/
structure Shuffle where
  /-- The reordered items. -/
  apply : {α : Type} → Word → List α → List α
  /-- Nothing is lost or repeated. -/
  perm : ∀ {α : Type} (seed : Word) (items : List α), (apply seed items).Perm items

/-- What the protocol runs on: the OPRF, the primitives and the sources of randomness. -/
structure Environment (C T : Type*) where
  /-- `DirectEvaluate` under the Setup key. -/
  directEvaluate : String → OprfOutput
  /-- SHA-256. -/
  sha256 : Sha256
  /-- AES-128-GCM. -/
  gcm : Gcm C T
  /-- `HashUtil::MurmurHash64`. -/
  murmurHash64 : Word → Word
  /-- The shape `InitializeLayout` gives a filter for a number of items. -/
  layoutOf : Nat → Layout indexBits
  /-- `std::mt19937_64` for a seed. -/
  engineOf : Word → RandomEngine
  /-- `std::shuffle`. -/
  shuffle : Shuffle
  /-- The calls of `RandomOprfShape` in order; none when `RAND_bytes` fails. -/
  oprfShape : Nat → Option OprfOutput

/-- The token and the key of a keyword. -/
def Environment.derive (env : Environment C T) (keyword : String) : TokenKeyPair :=
  deriveTokenAndKey env.sha256 (env.directEvaluate keyword)

/-- A sealed record. -/
abbrev SealedRecord (DMax : Nat) (C T : Type*) := AeadRecord DMax (AeadLabel C T)

/-- The calls `MakeRecord` makes, one for each component. -/
def recordCalls (DMax : Nat) (derived : TokenKeyPair) (epoch documentBase : Word) (valid : Bool) :
    Vector EncryptCall DMax :=
  Vector.ofFn fun j =>
    { key := derived.key, epoch, token := derived.token, componentIndex := BitVec.ofNat 32 j, valid
      documentIdentifier := if valid then documentBase + BitVec.ofNat 64 j else 0 }

/-- `MakeRecord`, with the trace of `EncryptLabel` calls. -/
def makeRecord (gcm : Gcm C T) (derived : TokenKeyPair) (epoch documentBase : Word) (valid : Bool)
    (trace : List EncryptCall) : SealedRecord DMax C T × List EncryptCall :=
  let calls := recordCalls DMax derived epoch documentBase valid
  (calls.map (encryptLabel gcm), trace ++ calls.toList)

/-! ## Genuine records -/

/-- The loop that seals one record for each keyword, from keyword `i` on. -/
def makeGenuine (env : Environment C T) (DMax : Nat) (epoch : Word) :
    List String → Nat → List EncryptCall →
      List (TokenKeyPair × SealedRecord DMax C T) × List EncryptCall
  | [], _, trace => ([], trace)
  | keyword :: keywords, i, trace =>
    let derived := env.derive keyword
    let made := makeRecord env.gcm derived epoch (BitVec.ofNat 64 (i * DMax + 1)) true trace
    let rest := makeGenuine env DMax epoch keywords (i + 1) made.2
    ((derived, made.1) :: rest.1, rest.2)

/-- `sizeof(std::pair<TokenKeyPair, Record>)`: 16-byte aligned. -/
def genuineRecordBytes (DMax : Nat) : Nat := (32 + 44 * DMax + 15) / 16 * 16

/-! ## Layout attempts -/

/-- An index with the members its constructor fixed. -/
structure Index (P : Type*) where
  /-- The constant members and the layout. -/
  config : Config indexBits
  /-- The mutable members. -/
  state : State indexBits config.layout.bucketCount P

/-- The figures `RunPaired` adds up over its attempts. -/
structure SetupTotals where
  /-- `setup_attempts`. -/
  setupAttempts : Nat := 0
  /-- `failed_setup_attempts`. -/
  failedSetupAttempts : Nat := 0
  /-- `successful_inserts`. -/
  successfulInserts : Nat := 0
  /-- `failed_inserts`. -/
  failedInserts : Nat := 0
  /-- `eviction_steps`. -/
  evictionSteps : Nat := 0
  /-- `rollback_count`. -/
  rollbackCount : Nat := 0
  /-- `maximum_eviction_chain`. -/
  maximumEvictionChain : Nat := 0

/-- The figures after an attempt. -/
def SetupTotals.add (totals : SetupTotals) (statistics : Statistics) (success : Bool) :
    SetupTotals where
  setupAttempts := totals.setupAttempts + 1
  failedSetupAttempts := totals.failedSetupAttempts + if success then 0 else 1
  successfulInserts := totals.successfulInserts + statistics.successfulInserts
  failedInserts := totals.failedInserts + statistics.failedInserts
  evictionSteps := totals.evictionSteps + statistics.evictionSteps
  rollbackCount := totals.rollbackCount + statistics.rollbackCount
  maximumEvictionChain := max totals.maximumEvictionChain statistics.maximumEvictionChain

/-- `scheduled_items` of an attempt, in 64-bit arithmetic. -/
def scheduledItems (keywordCount attempt : Nat) : Nat :=
  (keywordCount + keywordCount * attempt % 2 ^ 64 / 20) % 2 ^ 64

/-- The filter of an attempt. -/
def attemptConfig (env : Environment C T) (seed : Word) (keywordCount attempt : Nat) :
    Config indexBits where
  layout := env.layoutOf (scheduledItems keywordCount attempt)
  murmurHash64 := env.murmurHash64
  hashSeed := seed ^^^ (0x6a09e667f3bcc909#64 + BitVec.ofNat 64 attempt)
  maximumEvictions := 500

/-- The insertion loop of an attempt; it stops at the first call that does not return true. -/
def insertAll {P : Type*} (config : Config indexBits) (records : List (TokenKeyPair × P)) :
    List (Fin records.length) → State indexBits config.layout.bucketCount P →
      Except Fault Bool × State indexBits config.layout.bucketCount P
  | [], state => (.ok true, state)
  | recordIndex :: order, state =>
    let entry := records.get recordIndex
    match insert config entry.1.token entry.2 state with
    | (.ok true, state) => insertAll config records order state
    | ended => ended

/-- The retry loop, from an attempt on; the order of one attempt is shuffled for the next. -/
def retryLoop {P : Type*} [Inhabited P] (env : Environment C T) (seed : Word)
    (records : List (TokenKeyPair × P)) :
    Nat → Nat → List (Fin records.length) → SetupTotals → Except Fault (Index P) × SetupTotals
  | 0, _, _, totals =>
    (.error (.runtimeError "paired bounded Setup exhausted all retries"), totals)
  | remaining + 1, attempt, order, totals =>
    if scheduledItems records.length attempt = 0 then
      (.error (.invalidArgument "maximum_items must be positive"), totals)
    else
      let config := attemptConfig env seed records.length attempt
      let randomEngine := env.engineOf (seed ^^^ (0xbb67ae8584caa73b#64 + BitVec.ofNat 64 attempt))
      let order := env.shuffle.apply
        (seed ^^^ (0x3c6ef372fe94f82b#64 + BitVec.ofNat 64 attempt)) order
      match insertAll config records order (construct config.layout randomEngine) with
      | (.error fault, _) => (.error fault, totals)
      | (.ok true, state) => (.ok ⟨config, state⟩, totals.add state.statistics true)
      | (.ok false, state) =>
        retryLoop env seed records remaining (attempt + 1) order
          (totals.add state.statistics false)

/-! ## Dummies -/

/-- What the padding callbacks share: how many shapes were drawn, the pending dummy with its
record, and the trace. -/
structure DummyState (DMax : Nat) (C T : Type*) where
  /-- Calls of `RandomOprfShape` so far. -/
  drawn : Nat
  /-- `pending_dummy`. -/
  pendingDummy : TokenKeyPair
  /-- `pending_record`. -/
  pendingRecord : SealedRecord DMax C T
  /-- All calls of `EncryptLabel` so far. -/
  trace : List EncryptCall

/-- The callbacks `RunPaired` pads with. -/
def dummySource (env : Environment C T) (DMax : Nat) (epoch : Word) (config : Config indexBits) :
    DummySource indexBits (SealedRecord DMax C T) (DummyState DMax C T) Fault where
  fingerprintGenerator state :=
    match env.oprfShape state.drawn with
    | none => some (.error (.runtimeError "RAND_bytes failed for dummy derivation seed"),
        { state with drawn := state.drawn + 1 })
    | some shape =>
      let pendingDummy := deriveTokenAndKey env.sha256 shape
      let made := makeRecord env.gcm pendingDummy epoch 0 false state.trace
      let state : DummyState DMax C T :=
        { drawn := state.drawn + 1, pendingDummy, pendingRecord := made.1, trace := made.2 }
      match config.metadata pendingDummy.token with
      | none => some (.error .unending, state)
      | some metadata => some (.ok (metadata.fingerprint.setWidth 64), state)
  payloadGenerator state := some (.ok state.pendingRecord, state)
  fingerprintAllowed _ := .pure true

/-! ## Setup and query -/

/-- How a run of Setup ended, with its trace. -/
structure SetupRun (DMax : Nat) (C T : Type*) where
  /-- The padded index with the number of dummies, or what was thrown. -/
  result : Except Fault (Index (SealedRecord DMax C T) × Nat)
  /-- The calls of `EncryptLabel`, in order. -/
  trace : List EncryptCall
  /-- The figures of the attempts. -/
  totals : SetupTotals
  /-- Calls of `RandomOprfShape`. -/
  drawn : Nat

/-- The Setup part of `RunPaired`, with at most `limit` draws for each dummy fingerprint. -/
def setup [Inhabited C] [Inhabited T] (env : Environment C T) (DMax : Nat) (seed : Word)
    (keywords : List String) (limit : Nat) : Option (SetupRun DMax C T) :=
  if 2 ^ 63 - 1 < keywords.length * genuineRecordBytes DMax then
    some { result := .error .lengthError, trace := [], totals := {}, drawn := 0 }
  else
    let genuine := makeGenuine env DMax seed keywords 0 []
    let tried := retryLoop env seed genuine.1 4 0 (List.finRange _) {}
    match tried.1 with
    | .error fault =>
      some { result := .error fault, trace := genuine.2, totals := tried.2, drawn := 0 }
    | .ok index =>
      (fillEmptySlots (dummySource env DMax seed index.config) limit index.state
        ⟨0, default, Vector.replicate DMax default, genuine.2⟩).map fun ended =>
        { result := match ended.1.1 with
            | .ok dummies => .ok (⟨index.config, ended.1.2⟩, dummies)
            | .error fault => .error (fault.elim id id)
          trace := ended.2.trace, totals := tried.2, drawn := ended.2.drawn }

/-- A query of `RunPaired` for a token and a key: `QueryAll`, then the authenticated results;
`none` when the lookup never returns. -/
def query [Inhabited C] [Inhabited T] (env : Environment C T) (epoch : Word)
    (index : Index (SealedRecord DMax C T)) (derived : TokenKeyPair) (componentAttempts : Nat) :
    Option (Except Fault (List Word) × Nat) :=
  (queryAll index.config derived.token index.state).map fun candidates =>
    collectAuthenticatedResults (decryptLabel env.gcm) 8 candidates derived epoch componentAttempts

end Vlse.Protocol
