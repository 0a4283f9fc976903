import Mathlib.Algebra.Order.BigOperators.Group.Finset
import Vlse.Filter.InsertSpec
import Vlse.Filter.Padding
import Vlse.Filter.Query
/-!
# Runs of the filter

The constructor leaves an empty canonical table. Every call keeps one account of the state: the
table is canonical, its contents are the entries of the calls that returned true with the dummies
of a completed padding, and `filled_slots_` counts them. What a lookup answers after a run and the
representation invariant of every reachable state are read off that account.
-/

namespace Vlse.Filter

variable {F : FingerprintBits} {P : Type*}

/-! ## The empty table -/

/-- The storage as the constructor leaves it: zero bytes and default payloads. -/
def blankStore [Inhabited P] (F : FingerprintBits) (bucketCount : Nat) : Store F bucketCount P where
  fingerprintStorage := Vector.replicate _ 0
  payloads := Vector.replicate _ default

/-- The state as the constructor leaves it. -/
def construct [Inhabited P] (layout : Layout F) (randomEngine : RandomEngine) :
    State F layout.bucketCount P where
  randomEngine
  store := blankStore F layout.bucketCount
  filledSlots := 0
  padded := false
  statistics := {}

section Blank

variable [Inhabited P] {bucketCount : Nat} (position : Fin bucketCount)

/-- Every bit of the blank storage is clear. -/
theorem bitAt_blankStore (bit : Nat) :
    ByteBits.bitAt (blankStore (P := P) F bucketCount).fingerprintStorage bit = false :=
  ByteBits.bitAt_replicate_zero _ bit

/-- The blank code is the first code of the table. -/
theorem storedCode_blankStore : storedCode (blankStore (P := P) F bucketCount) position = 0 := by
  apply Nat.eq_of_testBit_eq
  intro bit
  rw [storedCode, BitVec.testBit_toNat, getLsbD_readBits _ _ _ _ (by decide), bitAt_blankStore]
  simp

/-- The first code stands for four zero nibbles. -/
theorem decodeNibbles_zero : decodeNibbles 0 = 0 := by
  rw [decodeNibbles_getElem 0 (by rw [plainNibbles_length]; decide)]
  decide +kernel

/-- Every slot of the blank table is empty. -/
theorem readBucket_blankStore (slot : Fin 4) :
    (recordAt (readBucket (blankStore (P := P) F bucketCount) position) slot).fingerprint = 0 := by
  rw [recordAt_readBucket]
  refine fingerprint_ext (fun bit low => ?_) ?_
  · rw [getLsbD_readSlot _ _ _ _ low, bitAt_blankStore]
    simp
  · rw [highNibble_readSlot, storedCode_blankStore, decodeNibbles_zero, nibbleAt_eq, highNibble_eq]
    simp

/-- The blank table has no records. -/
theorem residentsAt_blankStore :
    residentsAt (blankStore (P := P) F bucketCount) position = 0 := by
  rw [residentsAt, residents, Multiset.filter_eq_nil]
  intro record inside
  obtain ⟨slot, rfl⟩ := (mem_toList_iff _ record).mp (Multiset.mem_coe.mp inside)
  exact not_not.mpr (readBucket_blankStore position slot)

/-- The blank table is canonical. -/
theorem canonical_blankStore : Canonical (blankStore (P := P) F bucketCount) where
  assigned position := by
    rw [storedCode_blankStore]
    decide
  sorted position := by
    refine List.pairwise_iff_getElem.mpr fun first second inFirst inSecond _ => ?_
    have early : first < 4 := lt_of_lt_of_eq inFirst Vector.length_toList
    have late : second < 4 := lt_of_lt_of_eq inSecond Vector.length_toList
    have left := readBucket_blankStore (P := P) (F := F) position ⟨first, early⟩
    have right := readBucket_blankStore (P := P) (F := F) position ⟨second, late⟩
    simp only [recordAt, Fin.getElem_fin] at left right
    simp only [Descending, Vector.getElem_toList, left, right, le_refl]

end Blank

/-! ## The account of a state -/

/-- The record an entry of the contents stands for. -/
def itemRecord {layout : Layout F} (item : Home layout × P) : Record F P := ⟨item.1.1, item.2⟩

/-- The records are read off the contents. -/
theorem records_eq (layout : Layout F) (store : Store F layout.bucketCount P) :
    records store = (contents layout store).map itemRecord := by
  rw [records, contents, spread_eq_map, spread_eq_map, Multiset.map_map]
  rfl

/-- The number of occupied slots is the number of entries. -/
theorem card_contents (layout : Layout F) (store : Store F layout.bucketCount P) :
    (contents layout store).card = ∑ position, occupied (readBucket store position) := by
  rw [contents, card_spread]
  exact Finset.sum_congr rfl fun position _ => card_residents _

/-- The account of a state: what the table holds, kept canonically and counted. -/
structure Accounts (layout : Layout F) (state : State F layout.bucketCount P)
    (held : Multiset (Home layout × P)) : Prop where
  /-- The storage is canonical. -/
  canonical : Canonical state.store
  /-- The table holds these entries. -/
  contents : contents layout state.store = held
  /-- `filled_slots_` counts them. -/
  counted : state.filledSlots = held.card

/-- The constructor leaves an empty account. -/
theorem accounts_construct [Inhabited P] (layout : Layout F) (randomEngine : RandomEngine) :
    Accounts layout (construct (P := P) layout randomEngine) 0 where
  canonical := canonical_blankStore
  contents := by
    have blank : residentsAt (blankStore (P := P) F layout.bucketCount) = fun _ => 0 :=
      funext residentsAt_blankStore
    rw [construct, Filter.contents, blank, spread]
    simp
  counted := rfl

/-- What a call of `Insert` adds to the account: its entry when it returns true. -/
def acceptedEntry (config : Config F) (token : Token128) (payload : P) :
    Except Fault Bool → Multiset (Home config.layout × P)
  | .ok true => ((config.metadata token).elim 0 fun metadata => {metadata.entry payload})
  | _ => 0

/-- `Insert` keeps the account, whichever way it ends. -/
theorem Accounts.insert {config : Config F} {state : State F config.layout.bucketCount P}
    {held : Multiset (Home config.layout × P)} (account : Accounts config.layout state held)
    (token : Token128) (payload : P) :
    Accounts config.layout (insert config token payload state).2
      (acceptedEntry config token payload (insert config token payload state).1 + held) := by
  have outcome := insert_outcome config token payload state account.canonical
  generalize Filter.insert config token payload state = ended at outcome ⊢
  cases outcome with
  | padded closed => simpa [acceptedEntry] using account
  | atCapacity unpadded taken =>
    exact ⟨account.canonical, by simpa [acceptedEntry] using account.contents,
      by simpa [acceptedEntry] using account.counted⟩
  | unending unpadded never => simpa [acceptedEntry] using account
  | stored unpadded below derived canonical gained =>
    refine ⟨canonical, ?_, ?_⟩
    · simp [acceptedEntry, derived, succeed, gained, account.contents]
    · simp [acceptedEntry, derived, succeed, account.counted, Nat.add_comm]
  | rolledBack unpadded below derived firstFull secondFull =>
    exact ⟨account.canonical, by simpa [acceptedEntry, giveUp] using account.contents,
      by simpa [acceptedEntry, giveUp] using account.counted⟩

variable {G E : Type*}

/-- The dummies of a call of `FillEmptySlots`: the records its callbacks produced when it
returns, none when it throws. -/
def completedDummies (source : DummySource F P G E) (limit : Nat) (callbackState : G) :
    Except (Fault ⊕ E) Nat → List (Record F P)
  | .ok generated => source.drawRecords limit generated callbackState
  | .error _ => []

/-- `FillEmptySlots` keeps the account, whichever way it ends. -/
theorem Accounts.fill {layout : Layout F} {state : State F layout.bucketCount P}
    {held : Multiset (Home layout × P)} (account : Accounts layout state held)
    {source : DummySource F P G E} {limit : Nat} {callbackState : G}
    {outcome : (Except (Fault ⊕ E) Nat × State F layout.bucketCount P) × G}
    (ended : fillEmptySlots source limit state callbackState = some outcome) :
    ∃ added : Multiset (Home layout × P), Accounts layout outcome.1.2 (added + held) ∧
      added.map itemRecord =
        (completedDummies source limit callbackState outcome.1.1 : Multiset (Record F P)) := by
  cases fillEmptySlots_outcome account.canonical ended with
  | padded closed => exact ⟨0, by simpa using account, rfl⟩
  | threw unpadded exception after => exact ⟨0, by simpa using account, rfl⟩
  | @completed unpadded store after drawn canonical padded =>
    obtain ⟨placed, rfl, gained⟩ := padded.gained
    refine ⟨(placed.map fun place => entry layout place.1 place.2 : List _),
      ⟨canonical, ?_, ?_⟩, ?_⟩
    · have total : Filter.contents layout store =
          (placed.map fun place => entry layout place.1 place.2 : List _) +
            Filter.contents layout state.store := by
        rw [Filter.contents, Filter.contents, spread_eq_map, gained, Multiset.map_add,
          ← spread_eq_map]
        rfl
      rw [← account.contents]
      exact total
    · simp [account.counted, Nat.add_comm]
    · rw [completedDummies, padded.draws.drawRecords_eq]
      simp only [Multiset.map_coe, List.map_map]
      rfl

/-- A padding that returns has drawn a dummy for every slot that was empty. -/
theorem Accounts.fill_total {layout : Layout F} {state reached : State F layout.bucketCount P}
    {held : Multiset (Home layout × P)} (account : Accounts layout state held)
    {source : DummySource F P G E} {limit generated : Nat} {callbackState after : G}
    (returned : fillEmptySlots source limit state callbackState =
      some ((.ok generated, reached), after)) :
    state.filledSlots + generated = layout.capacity := by
  obtain ⟨added, accountAfter, -⟩ := account.fill returned
  have sizeAfter : reached.filledSlots =
      ∑ position, occupied (readBucket reached.store position) := by
    rw [accountAfter.counted, ← accountAfter.contents, card_contents]
  cases fillEmptySlots_outcome account.canonical returned with
  | @completed unpadded store after drawn canonical padded =>
    simpa [padded.full_all, Layout.capacity] using sizeAfter

/-- A lookup answers with the payloads held under the home of its token, eight at most. -/
theorem Accounts.queryAll [Inhabited P] {config : Config F}
    {state : State F config.layout.bucketCount P} {held : Multiset (Home config.layout × P)}
    (account : Accounts config.layout state held) {token : Token128}
    {metadata : KeyMetadata config.layout} (derived : config.metadata token = some metadata) :
    ∃ answer, Filter.queryAll config token state = some answer ∧ answer.length ≤ 8 ∧
      ∀ payload, payload ∈ answer ↔ (metadata.home, payload) ∈ held := by
  refine ⟨tokenMatches metadata state.store, by rw [queryAll_eq, derived, Option.map_some],
    length_tokenMatches_le _ _, fun payload => ?_⟩
  rw [← Multiset.mem_coe, coe_tokenMatches derived, account.contents, Multiset.mem_map]
  constructor
  · rintro ⟨⟨place, other⟩, inside, rfl⟩
    obtain ⟨present, rfl⟩ := Multiset.mem_filter.mp inside
    exact present
  · intro inside
    exact ⟨_, Multiset.mem_filter.mpr ⟨inside, rfl⟩, rfl⟩

/-! ## The representation invariant -/

/-- The states reachable from the constructor by calls of `Insert` and `FillEmptySlots` that
return or throw, with the records of the calls that returned true and the dummies of completed
paddings. -/
inductive Reachable [Inhabited P] (config : Config F) (randomEngine : RandomEngine) :
    State F config.layout.bucketCount P → Multiset (Record F P) → Multiset (Record F P) → Prop
  /-- The constructor. -/
  | constructed : Reachable config randomEngine (construct config.layout randomEngine) 0 0
  /-- A call of `Insert`. -/
  | insert {state : State F config.layout.bucketCount P} {inserted dummies : Multiset (Record F P)}
    (token : Token128) (payload : P)
    (before : Reachable config randomEngine state inserted dummies) :
    Reachable config randomEngine (insert config token payload state).2
      ((acceptedEntry config token payload (Filter.insert config token payload state).1).map
        itemRecord + inserted) dummies
  /-- A call of `FillEmptySlots` that ends. -/
  | fill {G E : Type} {state : State F config.layout.bucketCount P}
    {inserted dummies : Multiset (Record F P)} (source : DummySource F P G E) (limit : Nat)
    (callbackState : G)
    {outcome : (Except (Fault ⊕ E) Nat × State F config.layout.bucketCount P) × G}
    (ended : fillEmptySlots source limit state callbackState = some outcome)
    (before : Reachable config randomEngine state inserted dummies) :
    Reachable config randomEngine outcome.1.2 inserted
      (completedDummies source limit callbackState outcome.1.1 + dummies)

/-- Every reachable state has an account of the records inserted and the dummies. -/
theorem Reachable.accounts [Inhabited P] {config : Config F} {randomEngine : RandomEngine}
    {state : State F config.layout.bucketCount P} {inserted dummies : Multiset (Record F P)}
    (reachable : Reachable config randomEngine state inserted dummies) :
    ∃ held, Accounts config.layout state held ∧ held.map itemRecord = inserted + dummies := by
  induction reachable with
  | constructed => exact ⟨0, accounts_construct _ _, by simp⟩
  | insert token payload before ih =>
    obtain ⟨held, account, split⟩ := ih
    exact ⟨_, account.insert token payload, by rw [Multiset.map_add, split, add_assoc]⟩
  | fill source limit callbackState ended before ih =>
    obtain ⟨held, account, split⟩ := ih
    obtain ⟨added, after, drawn⟩ := account.fill ended
    exact ⟨_, after, by rw [Multiset.map_add, split, drawn, add_left_comm]⟩

/-- A table has at most four records a bucket. -/
theorem card_contents_le (layout : Layout F) (store : Store F layout.bucketCount P) :
    (contents layout store).card ≤ layout.capacity := by
  rw [card_contents]
  have bounded := Finset.sum_le_card_nsmul Finset.univ
    (fun position => occupied (readBucket store position)) 4 fun _ _ => occupied_le _
  simpa [Layout.capacity] using bounded

/-- In a sorted bucket nothing stands behind an empty slot. -/
theorem SortedBucket.empty_last {bucket : Bucket F P} (sorted : SortedBucket bucket)
    {first second : Fin 4} (order : first ≤ second) (empty : ¬ Present (recordAt bucket first)) :
    ¬ Present (recordAt bucket second) := by
  have zero : (recordAt bucket first).fingerprint = 0 := not_not.mp empty
  have small := sorted.le order
  rw [zero] at small
  refine not_not.mpr (BitVec.eq_of_toNat_eq ?_)
  simpa using small

/-- The representation invariant of a state that holds the given records. -/
structure Represents {bucketCount : Nat} (state : State F bucketCount P)
    (held : Multiset (Record F P)) : Prop where
  /-- `size` counts the slots with a nonzero fingerprint. -/
  size : state.filledSlots = ∑ position, occupied (readBucket state.store position)
  /-- `size` is at most `capacity`. -/
  bounded : state.filledSlots ≤ bucketCount * 4
  /-- The occupied slots hold exactly these records. -/
  records : records state.store = held
  /-- Buckets read back in nonincreasing fingerprint order. -/
  sorted : ∀ position, SortedBucket (readBucket state.store position)
  /-- The empty slots of a bucket come last. -/
  emptyLast : ∀ position, ∀ first second : Fin 4, first ≤ second →
    ¬ Present (recordAt (readBucket state.store position) first) →
      ¬ Present (recordAt (readBucket state.store position) second)
  /-- Stored codes are ones the semi-sort table assigns. -/
  assigned : ∀ position, storedCode state.store position < 3876
  /-- Writing back a bucket just read changes no byte and no payload. -/
  canonical : ∀ position,
    writeBucket state.store position (readBucket state.store position) = state.store

/-- Every reachable state represents the records inserted and the dummies. -/
theorem reachable_represents [Inhabited P] {config : Config F} {randomEngine : RandomEngine}
    {state : State F config.layout.bucketCount P} {inserted dummies : Multiset (Record F P)}
    (reachable : Reachable config randomEngine state inserted dummies) :
    Represents state (inserted + dummies) := by
  obtain ⟨held, account, split⟩ := reachable.accounts
  have counted : state.filledSlots = (contents config.layout state.store).card := by
    rw [account.counted, account.contents]
  exact {
    size := counted.trans (card_contents _ _)
    bounded := counted.trans_le (card_contents_le _ _)
    records := by rw [records_eq, account.contents, split]
    sorted := account.canonical.sorted
    emptyLast := fun position _ _ order => (account.canonical.sorted position).empty_last order
    assigned := account.canonical.assigned
    canonical := writeBucket_readBucket account.canonical }

/-- `size` counts the records of a reachable state. -/
theorem Reachable.filledSlots_eq_card [Inhabited P] {config : Config F}
    {randomEngine : RandomEngine} {state : State F config.layout.bucketCount P}
    {inserted dummies : Multiset (Record F P)}
    (reachable : Reachable config randomEngine state inserted dummies) :
    state.filledSlots = (inserted + dummies).card := by
  obtain ⟨held, account, split⟩ := reachable.accounts
  rw [account.counted, ← split, Multiset.card_map]

/-- A random engine that produces the words 0, 1, 2, and so on. -/
def countingEngine : RandomEngine := ⟨fun index => BitVec.ofNat 64 index⟩

/-- A layout of two buckets in which every mask is zero. -/
def twinLayout (F : FingerprintBits) : Layout F where
  bucketCount := 2
  alternateMasks := Vector.replicate 4 0
  positive := Nat.two_pos
  closed position below fingerprint := by
    have zero : ∀ index : Fin 4, (Vector.replicate 4 0).get index = 0 := by decide
    rw [alternateIndex, zero, Nat.and_zero, Nat.xor_zero]
    exact below

/-- The shortest fingerprints. -/
def shortBits : FingerprintBits := ⟨5, by decide, by decide⟩

/-- A filter over it that gives up after one eviction. -/
def twinConfig : Config shortBits where
  layout := twinLayout shortBits
  murmurHash64 word := word
  hashSeed := 0x6a09e667f3bcc909#64
  maximumEvictions := 1

/-- The filter after so many insertions of one token. -/
def crowdedState : Nat → State shortBits twinConfig.layout.bucketCount Nat
  | 0 => construct twinConfig.layout countingEngine
  | count + 1 => (insert twinConfig 5 7 (crowdedState count)).2

/-- These states are reachable. -/
theorem reachable_crowdedState (count : Nat) :
    ∃ inserted, Reachable twinConfig countingEngine (crowdedState count) inserted 0 := by
  induction count with
  | zero => exact ⟨0, .constructed⟩
  | succ count ih =>
    have before := ih.choose_spec
    exact ⟨_, before.insert 5 7⟩

/-- Callbacks that count: they produce the words from 0 up to a last one, and throw then. The word 2
is not allowed. -/
def countingSource (F : FingerprintBits) (last : Nat) : DummySource F Nat Nat Unit where
  fingerprintGenerator calls :=
    some (if calls ≤ last then .ok (BitVec.ofNat 64 calls) else .error (), calls + 1)
  payloadGenerator calls := some (.ok calls, calls)
  fingerprintAllowed candidate := .pure (candidate ≠ 2)

/-- The filter after a fifth insertion that is refused. -/
def refusedState : State shortBits twinConfig.layout.bucketCount Nat :=
  (insert twinConfig 5 8 (crowdedState 4)).2

/-- It is reachable, too. -/
theorem reachable_refusedState :
    ∃ inserted, Reachable twinConfig countingEngine refusedState inserted 0 := by
  obtain ⟨inserted, before⟩ := reachable_crowdedState 4
  exact ⟨_, before.insert 5 8⟩

/-- The invariant after four insertions, one that is refused, and a padding with four dummies. -/
theorem reachable_represents_padded :
    ∃ reached inserted dummies,
      fillEmptySlots (countingSource shortBits 6) 2 refusedState 0 = some ((.ok 4, reached), 6) ∧
      inserted.card = 4 ∧ dummies.card = 4 ∧ Represents reached (inserted + dummies) := by
  have stored : refusedState.filledSlots = 4 := by decide +kernel
  obtain ⟨reached, ended⟩ := exists_reached (by decide +kernel :
    (fillEmptySlots (countingSource shortBits 6) 2 refusedState 0).map
      (fun ended => (ended.1.1, ended.2)) = some (.ok 4, 6))
  obtain ⟨inserted, before⟩ := reachable_refusedState
  have four : inserted.card = 4 := by
    rw [← add_zero inserted, ← before.filledSlots_eq_card, stored]
  have filled := before.fill (countingSource shortBits 6) 2 0 ended
  exact ⟨reached, inserted, _, ended, four, rfl, reachable_represents filled⟩

/-! ## Lookups after a run of insertions -/

/-- A run of `Insert` calls: the calls with what they returned, and the state reached. -/
def runInserts (config : Config F) : List (Token128 × P) → State F config.layout.bucketCount P →
    List ((Token128 × P) × Except Fault Bool) × State F config.layout.bucketCount P
  | [], state => ([], state)
  | call :: calls, state =>
    let ended := insert config call.1 call.2 state
    let rest := runInserts config calls ended.2
    ((call, ended.1) :: rest.1, rest.2)

/-- The calls of a run that returned true. -/
def acceptedCalls (log : List ((Token128 × P) × Except Fault Bool)) : List (Token128 × P) :=
  (log.filter fun call => call.2 = .ok true).map Prod.fst

/-- Two tokens have the same fingerprint and the same unordered pair of candidate buckets. -/
def sameCandidates (config : Config F) (left right : Token128) : Bool :=
  match config.metadata left, config.metadata right with
  | some left, some right => left.fingerprint = right.fingerprint ∧
      s(left.firstBucket, left.secondBucket) = s(right.firstBucket, right.secondBucket)
  | _, _ => false

/-- The payloads of the calls with the candidates of a token. -/
def payloadsFor (config : Config F) (token : Token128) (calls : Multiset (Token128 × P)) :
    Multiset P :=
  (calls.filter fun call => sameCandidates config token call.1).map Prod.snd

/-- The entries of the calls that returned true. -/
def acceptedEntries (config : Config F) (log : List ((Token128 × P) × Except Fault Bool)) :
    Multiset (Home config.layout × P) :=
  (log.map fun call => acceptedEntry config call.1.1 call.1.2 call.2).sum

/-- A run keeps the account: it adds the entries of the calls that returned true. -/
theorem accounts_runInserts {config : Config F} (calls : List (Token128 × P))
    {state : State F config.layout.bucketCount P} {held : Multiset (Home config.layout × P)}
    (account : Accounts config.layout state held) :
    Accounts config.layout (runInserts config calls state).2
      (acceptedEntries config (runInserts config calls state).1 + held) := by
  induction calls generalizing state held with
  | nil => simpa [runInserts, acceptedEntries] using account
  | cons call calls ih =>
    have after := ih (account.insert call.1 call.2)
    rw [← add_assoc, add_comm (acceptedEntries _ _)] at after
    simpa only [runInserts, acceptedEntries, List.map_cons, List.sum_cons] using after

/-- Two tokens have the same candidates when they have the same home. -/
theorem sameCandidates_iff {config : Config F} {left right : Token128}
    {metadata other : KeyMetadata config.layout} (derived : config.metadata left = some metadata)
    (derivedOther : config.metadata right = some other) :
    sameCandidates config left right = true ↔ other.home = metadata.home := by
  have first := Config.metadata_secondBucket derived
  have second := Config.metadata_secondBucket derivedOther
  simp only [sameCandidates, derived, derivedOther, decide_eq_true_eq]
  unfold KeyMetadata.home home
  rw [Prod.mk.injEq, ← first, ← second]
  constructor
  · exact fun same => ⟨same.1.symm, same.2.symm⟩
  · exact fun same => ⟨same.1.symm, same.2.symm⟩

/-- The entry of a token counts for another token when their homes agree. -/
theorem filter_entry {layout : Layout F} (metadata other : KeyMetadata layout) (payload : P) :
    (({other.entry payload} : Multiset (Home layout × P)).filter
      fun item => item.1 = metadata.home).map Prod.snd =
        if other.home = metadata.home then {payload} else 0 := by
  rw [show other.entry payload = (other.home, payload) from rfl, Multiset.filter_singleton]
  split
  · rfl
  · rfl

/-- The calls that returned true are those among the first and those among the others. -/
theorem acceptedCalls_cons (call : (Token128 × P) × Except Fault Bool)
    (log : List ((Token128 × P) × Except Fault Bool)) :
    acceptedCalls (call :: log) = acceptedCalls [call] ++ acceptedCalls log := by
  rw [← List.singleton_append, acceptedCalls, List.filter_append, List.map_append]
  rfl

/-- Payloads are read off two groups of calls separately. -/
theorem payloadsFor_add (config : Config F) (token : Token128)
    (first second : Multiset (Token128 × P)) :
    payloadsFor config token (first + second) =
      payloadsFor config token first + payloadsFor config token second := by
  rw [payloadsFor, Multiset.filter_add, Multiset.map_add]
  rfl

/-- The entry of one call counts for a token when the call returned true and has its candidates. -/
theorem filter_acceptedEntry {config : Config F} {token : Token128}
    {metadata : KeyMetadata config.layout} (derived : config.metadata token = some metadata)
    (other : Token128) (payload : P) (result : Except Fault Bool) :
    ((acceptedEntry config other payload result).filter
        fun item => item.1 = metadata.home).map Prod.snd =
      payloadsFor config token (acceptedCalls [((other, payload), result)]) := by
  by_cases accepted : result = .ok true
  · subst accepted
    have listed : acceptedCalls [((other, payload), .ok true)] = [(other, payload)] := by
      simp [acceptedCalls]
    rw [listed, payloadsFor]
    cases found : config.metadata other with
    | none =>
      have apart : sameCandidates config token other = false := by
        simp [sameCandidates, derived, found]
      simp [acceptedEntry, found, apart]
    | some candidate =>
      have added : acceptedEntry config other payload (.ok true) = {candidate.entry payload} := by
        simp [acceptedEntry, found]
      have matching := sameCandidates_iff derived found
      rw [added, filter_entry]
      by_cases same : candidate.home = metadata.home
      · have hit := matching.mpr same
        simp [same, hit, Multiset.filter_singleton]
      · have apart : sameCandidates config token other = false :=
          Bool.eq_false_iff.mpr fun hit => same (matching.mp hit)
        simp [same, apart, Multiset.filter_singleton]
  · have none : acceptedEntry config other payload result = 0 := by
      match result, accepted with
      | .ok false, _ => rfl
      | .error _, _ => rfl
    have unlisted : acceptedCalls [((other, payload), result)] = [] := by
      simp [acceptedCalls, accepted]
    rw [none, unlisted]
    rfl

/-- The entries with the home of a token are those of the calls with its candidates. -/
theorem filter_acceptedEntries {config : Config F} {token : Token128}
    {metadata : KeyMetadata config.layout} (derived : config.metadata token = some metadata)
    (log : List ((Token128 × P) × Except Fault Bool)) :
    ((acceptedEntries config log).filter fun item => item.1 = metadata.home).map Prod.snd =
      payloadsFor config token (acceptedCalls log) := by
  induction log with
  | nil => rfl
  | cons call log ih =>
    have split : acceptedEntries config (call :: log) =
        acceptedEntry config call.1.1 call.1.2 call.2 + acceptedEntries config log := by
      rw [acceptedEntries, List.map_cons, List.sum_cons, acceptedEntries]
    rw [split, Multiset.filter_add, Multiset.map_add, ih, filter_acceptedEntry derived,
      acceptedCalls_cons call log, ← Multiset.coe_add, payloadsFor_add]

/-- After any run of insertions, a lookup answers with the multiset of payloads of the calls that
returned true for a token with its candidates, whatever their order and the random choices; it
fails to return only when the rehash loop of the token never ends. -/
theorem queryAll_runInserts [Inhabited P] (config : Config F) (randomEngine : RandomEngine)
    (calls : List (Token128 × P)) (token : Token128) :
    (queryAll config token
        (runInserts config calls (construct config.layout randomEngine)).2).map Multiset.ofList =
      (config.metadata token).map fun _ => payloadsFor config token
        (acceptedCalls (runInserts config calls (construct config.layout randomEngine)).1) := by
  have account := accounts_runInserts calls (accounts_construct (P := P) config.layout randomEngine)
  rw [queryAll_eq, Option.map_map]
  cases derived : config.metadata token with
  | none => rfl
  | some metadata =>
    rw [Option.map_some, Option.map_some, Function.comp_apply, coe_tokenMatches derived,
      account.contents, add_zero, filter_acceptedEntries derived]

end Vlse.Filter
