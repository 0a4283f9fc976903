import Vlse.Filter.Capacity
import Vlse.Foundation.BoundedBag
/-!
# The filter refines a bounded bag

Seen through its public calls, in any order and with any interleaving of insertions, lookups and
paddings that return or throw, a filter is a bounded bag: its homes are a fingerprint with a pair of
buckets, its capacity that of the table. Every run of calls on a new filter is a run of the bag from
the empty one, with the same answers.
-/

namespace Vlse.Filter

variable {F : FingerprintBits} {P : Type*}

/-- The bag a filter stands for. -/
def bagShape (config : Config F) :
    BagShape Token128 (Home config.layout) (Fingerprint F) Fault where
  home token := (config.metadata token).map KeyMetadata.home
  tag home := home.1
  room := roomFor config.layout
  capacity := config.layout.capacity
  insertClosed := .logicError "cannot insert genuine records after dummy padding"
  fillClosed := .logicError "dummy padding was already applied"
  homeless := .unending

/-- The answer to a call of `Insert`. -/
def insertAnswer : Except Fault Bool → BagAnswer (Fingerprint F) P Fault
  | .ok accepted => .inserted accepted
  | .error fault => .threw fault

/-- The answer to a call of `QueryAll`. -/
def queryAnswer : Option (List P) → BagAnswer (Fingerprint F) P Fault
  | some answer => .payloads answer
  | none => .threw .unending

/-- The answer to a call of `Contains`. -/
def containsAnswer : Option Bool → BagAnswer (Fingerprint F) P Fault
  | some answer => .found answer
  | none => .threw .unending

/-- The answer to a call of `FillEmptySlots`, with what its callbacks produced. -/
def fillAnswer {G E : Type*} (source : DummySource F P G E) (limit : Nat) (callbackState : G) :
    Except (Fault ⊕ E) Nat → BagAnswer (Fingerprint F) P Fault
  | .ok generated => .filled ((source.drawRecords limit generated callbackState).map fun record =>
      (record.fingerprint, record.payload))
  | .error (.inl fault) => .threw fault
  | .error (.inr _) => .interrupted

/-- What a call of the filter does, under any callbacks. -/
inductive FilterStep [Inhabited P] (config : Config F) :
    State F config.layout.bucketCount P → BagCall Token128 P →
      BagAnswer (Fingerprint F) P Fault → State F config.layout.bucketCount P → Prop
  /-- `Insert`. -/
  | insert (state : State F config.layout.bucketCount P) (token : Token128) (payload : P) :
    FilterStep config state (.insert token payload)
      (insertAnswer (insert config token payload state).1) (insert config token payload state).2
  /-- `QueryAll`. -/
  | queryAll (state : State F config.layout.bucketCount P) (token : Token128) :
    FilterStep config state (.queryAll token) (queryAnswer (queryAll config token state)) state
  /-- `Contains`. -/
  | contains (state : State F config.layout.bucketCount P) (token : Token128) :
    FilterStep config state (.contains token) (containsAnswer (contains config token state)) state
  /-- `size`. -/
  | size (state : State F config.layout.bucketCount P) :
    FilterStep config state .size (.counted state.filledSlots) state
  /-- A call of `FillEmptySlots` that ends. -/
  | fill {G E : Type} {state : State F config.layout.bucketCount P} (source : DummySource F P G E)
    (limit : Nat) (callbackState : G)
    {outcome : (Except (Fault ⊕ E) Nat × State F config.layout.bucketCount P) × G}
    (ended : fillEmptySlots source limit state callbackState = some outcome) :
    FilterStep config state .fill (fillAnswer source limit callbackState outcome.1.1) outcome.1.2

/-- The filter as a component. -/
def filterComponent [Inhabited P] (config : Config F) :
    Component (State F config.layout.bucketCount P) (BagCall Token128 P)
      (BagAnswer (Fingerprint F) P Fault) where
  step := FilterStep config

/-- A filter stands for a bag: it holds what the bag holds and is padded when the bag is closed. -/
structure StandsFor (config : Config F) (state : State F config.layout.bucketCount P)
    (bag : Bag (Home config.layout) P) : Prop where
  /-- The account of the filter is the bag. -/
  account : Accounts config.layout state bag.held
  /-- A padded filter is a closed bag. -/
  closed : state.padded = bag.closed

section Calls

variable {config : Config F} {state : State F config.layout.bucketCount P}
  {bag : Bag (Home config.layout) P}

/-- The home of a token is that of its metadata. -/
theorem home_bagShape {token : Token128} {metadata : KeyMetadata config.layout}
    (derived : config.metadata token = some metadata) :
    (bagShape config).home token = some metadata.home :=
  congrArg (Option.map KeyMetadata.home) derived

/-- A token without metadata has no home. -/
theorem home_bagShape_none {token : Token128} (never : config.metadata token = none) :
    (bagShape config).home token = none :=
  congrArg (Option.map KeyMetadata.home) never

/-- The entries under a home are the contents with it. -/
theorem StandsFor.card_under_le (stands : StandsFor config state bag) (home : Home config.layout) :
    (bag.under home).card ≤ roomFor config.layout home := by
  rw [Bag.under, Multiset.card_map, ← stands.account.contents]
  exact Filter.card_under_le state.store home

/-- The answer for a token is what its home holds. -/
theorem StandsFor.coe_tokenMatches (stands : StandsFor config state bag) {token : Token128}
    {metadata : KeyMetadata config.layout} (derived : config.metadata token = some metadata) :
    (tokenMatches metadata state.store : Multiset P) = bag.under metadata.home := by
  rw [Filter.coe_tokenMatches derived, stands.account.contents, Bag.under]

/-- An insertion is one of the bag. -/
theorem StandsFor.insert (stands : StandsFor config state bag) (token : Token128) (payload : P) :
    ∃ next, (bagShape config).Step bag (.insert token payload)
        (insertAnswer (insert config token payload state).1) next ∧
      StandsFor config (insert config token payload state).2 next := by
  have outcome := insert_outcome config token payload state stands.account.canonical
  have kept := stands.account.insert token payload
  have unchanged : ∀ {after : State F config.layout.bucketCount P}, after.store = state.store →
      after.filledSlots = state.filledSlots → Accounts config.layout after bag.held :=
    fun sameStore sameSize => ⟨sameStore ▸ stands.account.canonical,
      sameStore ▸ stands.account.contents, sameSize ▸ stands.account.counted⟩
  generalize Filter.insert config token payload state = ended at outcome kept ⊢
  cases outcome with
  | padded closed =>
    exact ⟨bag, .insertClosed token payload (stands.closed.symm.trans closed), stands⟩
  | atCapacity unpadded taken =>
    rw [stands.account.counted] at taken
    exact ⟨bag, .full token payload (stands.closed.symm.trans unpadded) taken,
      unchanged rfl rfl, stands.closed⟩
  | unending unpadded never =>
    exact ⟨bag, .insertHomeless payload (stands.closed.symm.trans unpadded)
      (home_bagShape_none never), stands⟩
  | @stored metadata length store randomEngine unpadded below derived canonical gained =>
    have entry : acceptedEntry config token payload (.ok true) = {metadata.entry payload} := by
      rw [acceptedEntry, derived, Option.elim_some]
    rw [entry, Multiset.singleton_add] at kept
    have next : StandsFor config (succeed state length store randomEngine)
        (bag.insert metadata.home payload) := ⟨kept, stands.closed⟩
    have room := next.card_under_le metadata.home
    rw [Bag.under_insert_same, Multiset.card_cons] at room
    rw [stands.account.counted] at below
    exact ⟨_, .inserted payload (stands.closed.symm.trans unpadded) (home_bagShape derived)
      below room, next⟩
  | @rolledBack metadata length randomEngine unpadded below derived firstFull secondFull =>
    have taken := roomFor_le_card state.store metadata.fingerprint firstFull secondFull
    rw [stands.account.contents, Config.metadata_secondBucket derived] at taken
    exact ⟨bag, .crowded payload (stands.closed.symm.trans unpadded) (home_bagShape derived) taken,
      unchanged rfl rfl, stands.closed⟩

/-- A padding is a filling of the bag. -/
theorem StandsFor.fill {G E : Type*} (stands : StandsFor config state bag)
    {source : DummySource F P G E} {limit : Nat} {callbackState : G}
    {outcome : (Except (Fault ⊕ E) Nat × State F config.layout.bucketCount P) × G}
    (ended : fillEmptySlots source limit state callbackState = some outcome) :
    ∃ next, (bagShape config).Step bag .fill
        (fillAnswer source limit callbackState outcome.1.1) next ∧
      StandsFor config outcome.1.2 next := by
  obtain ⟨added, kept, drawn⟩ := stands.account.fill ended
  have ends := fillEmptySlots_outcome stands.account.canonical ended
  cases ends with
  | padded closed => exact ⟨bag, .fillClosed (stands.closed.symm.trans closed), stands⟩
  | threw unpadded exception after =>
    exact ⟨bag, .interrupted (stands.closed.symm.trans unpadded), stands⟩
  | completed unpadded canonical padded =>
    have next : StandsFor config _ (bag.fill added) := ⟨kept, rfl⟩
    have total := stands.account.fill_total ended
    refine ⟨_, .filled (stands.closed.symm.trans unpadded) ?_ ?_ next.card_under_le, next⟩
    · have tagged := congrArg (Multiset.map fun record : Record F P =>
        (record.fingerprint, record.payload)) drawn
      rw [Multiset.map_map, Multiset.map_coe] at tagged
      exact tagged
    · exact kept.counted.symm.trans total

end Calls

/-- `Contains` says whether there are matches. -/
theorem contains_eq (config : Config F) (token : Token128)
    (state : State F config.layout.bucketCount P) :
    contains config token state =
      (config.metadata token).map fun metadata =>
        decide (tokenMatches metadata state.store ≠ []) := by
  rw [contains, queryAllInto, Option.map_map]
  congr 1
  funext metadata
  rw [Function.comp_apply, queryRecords_eq]
  simp only [ne_eq, List.length_eq_zero_iff]

/-- Every call of a filter is a call of its bag. -/
theorem filter_refines_bag [Inhabited P] (config : Config F) :
    (filterComponent (P := P) config).Refines (bagShape config).component (StandsFor config) := by
  refine ⟨fun {state bag call answer after} stands stepped => ?_⟩
  cases stepped with
  | insert _ token payload => exact stands.insert token payload
  | queryAll _ token =>
    rw [queryAll_eq]
    cases derived : config.metadata token with
    | none => exact ⟨bag, .queryHomeless bag (home_bagShape_none derived), stands⟩
    | some metadata =>
      exact ⟨bag, .queried (home_bagShape derived) (stands.coe_tokenMatches derived), stands⟩
  | contains _ token =>
    rw [contains_eq]
    cases derived : config.metadata token with
    | none => exact ⟨bag, .containsHomeless bag (home_bagShape_none derived), stands⟩
    | some metadata =>
      have counted := congrArg Multiset.card (stands.coe_tokenMatches derived)
      rw [Multiset.coe_card] at counted
      have same : decide (tokenMatches metadata state.store ≠ []) =
          decide ((bag.under metadata.home).card ≠ 0) :=
        decide_eq_decide.mpr (by rw [← counted, Ne, Ne, List.length_eq_zero_iff])
      refine ⟨bag, ?_, stands⟩
      have contained : (bagShape config).Step bag (.contains token)
          (.found (decide ((bag.under metadata.home).card ≠ 0))) bag :=
        .contained bag (home_bagShape derived)
      rw [← same] at contained
      exact contained
  | size =>
    refine ⟨bag, ?_, stands⟩
    rw [stands.account.counted]
    exact .counted bag
  | fill source limit callbackState ended => exact stands.fill ended

/-- A new filter stands for the empty bag. -/
theorem standsFor_construct [Inhabited P] (config : Config F) (randomEngine : RandomEngine) :
    StandsFor config (construct (P := P) config.layout randomEngine) Bag.empty :=
  ⟨accounts_construct config.layout randomEngine, rfl⟩

section Runs

variable [Inhabited P] {config : Config F} {randomEngine : RandomEngine}
  {log : List (BagCall Token128 P × BagAnswer (Fingerprint F) P Fault)}
  {state after : State F config.layout.bucketCount P}

/-- After any calls on a new filter, a payload that was accepted is listed for every token with its
home beside all that was listed before, whatever calls follow. -/
theorem accepted_payload_stays {reached : State F config.layout.bucketCount P}
    {before between : List (BagCall Token128 P × BagAnswer (Fingerprint F) P Fault)}
    {token other : Token128} {payload : P}
    (first : (filterComponent config).Run (construct config.layout randomEngine) before state)
    (accepted : (insert config token payload state).1 = .ok true)
    (later : (filterComponent config).Run (insert config token payload state).2 between reached)
    (same : (bagShape config).home other = (bagShape config).home token) :
    ∃ old new, queryAll config other state = some old ∧ queryAll config other reached = some new ∧
      payload ::ₘ (old : Multiset P) ≤ (new : Multiset P) := by
  obtain ⟨bag, -, stands⟩ :=
    (filter_refines_bag config).run first (standsFor_construct config randomEngine)
  obtain ⟨next, stepped, standsNext⟩ := stands.insert token payload
  rw [accepted] at stepped
  obtain ⟨last, rest, standsLast⟩ := (filter_refines_bag config).run later standsNext
  cases stepped with
  | inserted _ opened found below room =>
    rw [found] at same
    obtain ⟨metadata, derived, rfl⟩ := Option.map_eq_some_iff.mp same
    have kept := BagShape.held_le_of_run rest
    have grown := Multiset.map_le_map (f := Prod.snd)
      (Multiset.filter_le_filter (fun item => item.1 = metadata.home) kept)
    refine ⟨tokenMatches metadata state.store, tokenMatches metadata reached.store,
      by rw [queryAll_eq, derived, Option.map_some], by rw [queryAll_eq, derived, Option.map_some],
      ?_⟩
    rw [stands.coe_tokenMatches derived, standsLast.coe_tokenMatches derived,
      ← Bag.under_insert_same]
    exact grown

end Runs

/-- The filter after four insertions, the last with another payload, and a fifth that is refused. -/
def laterState : State shortBits twinConfig.layout.bucketCount Nat :=
  (insert twinConfig 5 9 (insert twinConfig 5 8 (crowdedState 3)).2).2

/-- The other payload stays when an insertion is refused and a padding follows. -/
theorem accepted_payload_stays_padded :
    ∃ reached old new,
      fillEmptySlots (countingSource shortBits 6) 2 laterState 0 = some ((.ok 4, reached), 6) ∧
      queryAll twinConfig 5 (crowdedState 3) = some old ∧
      queryAll twinConfig 5 reached = some new ∧
      8 ::ₘ (old : Multiset Nat) ≤ (new : Multiset Nat) := by
  have accepted : (insert twinConfig 5 (8 : Nat) (crowdedState 3)).1 = .ok true := by
    decide +kernel
  obtain ⟨reached, ended⟩ := exists_reached (by decide +kernel :
    (fillEmptySlots (countingSource shortBits 6) 2 laterState 0).map
      (fun ended => (ended.1.1, ended.2)) = some (.ok 4, 6))
  have last := FilterStep.insert (crowdedState 2) 5 7
  have middle := FilterStep.insert (crowdedState 1) 5 7
  have start := FilterStep.insert (crowdedState 0) 5 7
  have first : (filterComponent twinConfig).Run (construct twinConfig.layout countingEngine) _
      (crowdedState 3) := .cons start (.cons middle (.cons last (.nil _)))
  have refused := FilterStep.insert (insert twinConfig 5 (8 : Nat) (crowdedState 3)).2 5 9
  have filled := FilterStep.fill (countingSource shortBits 6) 2 0 ended
  have later : (filterComponent twinConfig).Run (insert twinConfig 5 8 (crowdedState 3)).2 _
      reached := .cons refused (.cons filled (.nil reached))
  have home : (bagShape twinConfig).home 5 = (bagShape twinConfig).home 5 := rfl
  obtain ⟨old, new, before, now, kept⟩ := accepted_payload_stays first accepted later home
  exact ⟨reached, old, new, ended, before, now, kept⟩

end Vlse.Filter
