import Vlse.Filter.InsertSpec
/-!
# Lookup

`QueryAll` gathers the payloads that stand with the fingerprint of a token in its two candidate
buckets. `CollectMatches` writes them through a pointer with a running offset, up to a capacity;
the vector overload gives it an array of eight. Read as a multiset, the answer is exactly the
part of the contents with the home of the token, wherever those records stand.
-/

namespace Vlse.Filter

variable {F : FingerprintBits} {P : Type*}

/-- A pointer argument: null, or the memory it points to. -/
abbrev Output (P : Type*) := Option (Nat → P)

/-- One turn of the loop of `CollectMatches` over the records of a bucket. -/
def collectStep (fingerprint : Fingerprint F) (outputCapacity outputOffset : Nat)
    (progress : Nat × Output P) (record : Record F P) : Nat × Output P :=
  if record.fingerprint ≠ fingerprint then progress
  else
    (progress.1 + 1,
      if outputOffset + progress.1 < outputCapacity then
        progress.2.map fun memory =>
          Function.update memory (outputOffset + progress.1) record.payload
      else progress.2)

/-- `CollectMatches`: the number of matches in a bucket, and the memory written. -/
def collectMatches {bucketCount : Nat} (store : Store F bucketCount P)
    (position : Fin bucketCount) (fingerprint : Fingerprint F) (output : Output P)
    (outputCapacity outputOffset : Nat) : Nat × Output P :=
  (readBucket store position).toList.foldl (collectStep fingerprint outputCapacity outputOffset)
    (0, output)

/-- `QueryAll` into a buffer, once the metadata of the token is known. -/
def queryRecords {layout : Layout F} (metadata : KeyMetadata layout)
    (store : Store F layout.bucketCount P) (output : Output P) (outputCapacity : Nat) :
    Nat × Output P :=
  let first := collectMatches store metadata.firstBucket metadata.fingerprint output
    outputCapacity 0
  if metadata.secondBucket ≠ metadata.firstBucket then
    let second := collectMatches store metadata.secondBucket metadata.fingerprint first.2
      outputCapacity first.1
    (first.1 + second.1, second.2)
  else first

/-- `QueryAll` into a buffer; `none` when the rehash loop of the token never ends. -/
def queryAllInto (config : Config F) (token : Token128)
    (state : State F config.layout.bucketCount P) (output : Output P) (outputCapacity : Nat) :
    Option (Nat × Output P) :=
  (config.metadata token).map fun metadata =>
    queryRecords metadata state.store output outputCapacity

/-- The first elements of the memory behind a pointer. -/
def readOutput [Inhabited P] (output : Output P) (count : Nat) : List P :=
  (List.range count).map (output.getD fun _ => default)

/-- `QueryAll` into a vector, through an array of `2 * kSlotsPerBucket` payloads. -/
def queryAll [Inhabited P] (config : Config F) (token : Token128)
    (state : State F config.layout.bucketCount P) : Option (List P) :=
  (queryAllInto config token state (some fun _ => default) 8).map fun answer =>
    readOutput answer.2 answer.1

/-- `Contains`. -/
def contains (config : Config F) (token : Token128)
    (state : State F config.layout.bucketCount P) : Option Bool :=
  (queryAllInto config token state none 0).map fun answer => decide (answer.1 ≠ 0)

/-! ## The matches of a bucket -/

/-- The payloads of the records with a fingerprint, in slot order. -/
def matchesOf (fingerprint : Fingerprint F) (items : List (Record F P)) : List P :=
  (items.filter fun record => record.fingerprint = fingerprint).map Record.payload

/-- The payloads that match in a bucket of a table. -/
def bucketMatches {bucketCount : Nat} (store : Store F bucketCount P)
    (position : Fin bucketCount) (fingerprint : Fingerprint F) : List P :=
  matchesOf fingerprint (readBucket store position).toList

/-- The payloads `QueryAll` gathers for a token, first bucket first. -/
def tokenMatches {layout : Layout F} (metadata : KeyMetadata layout)
    (store : Store F layout.bucketCount P) : List P :=
  bucketMatches store metadata.firstBucket metadata.fingerprint ++
    if metadata.secondBucket ≠ metadata.firstBucket then
      bucketMatches store metadata.secondBucket metadata.fingerprint
    else []

/-- Memory after values are written from a start, up to a capacity. -/
def writtenFrom (memory : Nat → P) (start outputCapacity : Nat) (values : List P) (index : Nat) :
    P :=
  if start ≤ index ∧ index < outputCapacity then values[index - start]?.getD (memory index)
  else memory index

/-- Writing one value and then the rest is writing them all. -/
theorem writtenFrom_cons (memory : Nat → P) (start outputCapacity : Nat) (value : P)
    (values : List P) :
    writtenFrom (if start < outputCapacity then Function.update memory start value else memory)
      (start + 1) outputCapacity values =
        writtenFrom memory start outputCapacity (value :: values) := by
  funext index
  unfold writtenFrom
  have elsewhere : index ≠ start → (if start < outputCapacity then
      Function.update memory start value else memory) index = memory index := by
    intro apart
    split
    · rw [Function.update_of_ne apart]
    · rfl
  rcases Nat.lt_trichotomy index start with before | rfl | after
  · rw [elsewhere (by omega), if_neg (by omega), if_neg (by omega)]
  · rw [if_neg (by omega)]
    by_cases room : index < outputCapacity
    · simp [room]
    · simp [room]
  · have step : index - start = (index - (start + 1)) + 1 := by omega
    rw [elsewhere (by omega), step, List.getElem?_cons_succ]
    by_cases room : index < outputCapacity
    · rw [if_pos (by omega), if_pos (by omega)]
    · rw [if_neg (by omega), if_neg (by omega)]

/-- Writing two runs of values one after the other is writing them joined. -/
theorem writtenFrom_append (memory : Nat → P) (start outputCapacity : Nat) (first second : List P) :
    writtenFrom (writtenFrom memory start outputCapacity first) (start + first.length)
      outputCapacity second = writtenFrom memory start outputCapacity (first ++ second) := by
  induction first generalizing memory start with
  | nil =>
    have untouched : writtenFrom memory start outputCapacity [] = memory := by
      funext index
      simp [writtenFrom]
    rw [untouched]
    rfl
  | cons value first ih =>
    rw [← writtenFrom_cons, List.cons_append, ← writtenFrom_cons, ← ih, List.length_cons,
      show start + (first.length + 1) = start + 1 + first.length by omega]

/-- The loop of `CollectMatches` counts the matches and writes them in order. -/
theorem foldl_collectStep (fingerprint : Fingerprint F) (outputCapacity outputOffset : Nat)
    (items : List (Record F P)) (count : Nat) (output : Output P) :
    items.foldl (collectStep fingerprint outputCapacity outputOffset) (count, output) =
      (count + (matchesOf fingerprint items).length,
        output.map fun memory => writtenFrom memory (outputOffset + count) outputCapacity
          (matchesOf fingerprint items)) := by
  induction items generalizing count output with
  | nil =>
    have untouched : ∀ memory : Nat → P,
        writtenFrom memory (outputOffset + count) outputCapacity [] = memory := by
      intro memory
      funext index
      simp [writtenFrom]
    simp [matchesOf, untouched]
  | cons record items ih =>
    rw [List.foldl_cons]
    by_cases hit : record.fingerprint = fingerprint
    · have listed : matchesOf fingerprint (record :: items) =
          record.payload :: matchesOf fingerprint items := by
        simp [matchesOf, hit]
      rw [collectStep, if_neg (not_not.mpr hit), ih, listed, List.length_cons]
      refine Prod.ext (by dsimp only; omega) ?_
      cases output with
      | none => dsimp only; split <;> rfl
      | some memory =>
        simp only [Option.map_some, ← writtenFrom_cons, ← Nat.add_assoc]
        split <;> rfl
    · have listed : matchesOf fingerprint (record :: items) = matchesOf fingerprint items := by
        simp [matchesOf, hit]
      rw [collectStep, if_pos hit, ih, listed]

/-- `CollectMatches` counts and writes the matches of its bucket. -/
theorem collectMatches_eq {bucketCount : Nat} (store : Store F bucketCount P)
    (position : Fin bucketCount) (fingerprint : Fingerprint F) (output : Output P)
    (outputCapacity outputOffset : Nat) :
    collectMatches store position fingerprint output outputCapacity outputOffset =
      ((bucketMatches store position fingerprint).length,
        output.map fun memory => writtenFrom memory outputOffset outputCapacity
          (bucketMatches store position fingerprint)) := by
  rw [collectMatches, foldl_collectStep, Nat.zero_add, Nat.add_zero, bucketMatches]

/-- `QueryAll` counts and writes the matches of both candidate buckets. -/
theorem queryRecords_eq {layout : Layout F} (metadata : KeyMetadata layout)
    (store : Store F layout.bucketCount P) (output : Output P) (outputCapacity : Nat) :
    queryRecords metadata store output outputCapacity =
      ((tokenMatches metadata store).length,
        output.map fun memory => writtenFrom memory 0 outputCapacity
          (tokenMatches metadata store)) := by
  unfold queryRecords tokenMatches
  simp only [collectMatches_eq]
  split
  · have maps : ∀ memory : Nat → P,
        writtenFrom (writtenFrom memory 0 outputCapacity
          (bucketMatches store metadata.firstBucket metadata.fingerprint))
          (bucketMatches store metadata.firstBucket metadata.fingerprint).length outputCapacity
          (bucketMatches store metadata.secondBucket metadata.fingerprint) =
        writtenFrom memory 0 outputCapacity
          (bucketMatches store metadata.firstBucket metadata.fingerprint ++
            bucketMatches store metadata.secondBucket metadata.fingerprint) := by
      intro memory
      rw [← writtenFrom_append, Nat.zero_add]
    rw [List.length_append, Option.map_map]
    simp only [Function.comp_def, maps]
  · rw [List.append_nil]

/-- A bucket has at most four matches. -/
theorem length_bucketMatches_le {bucketCount : Nat} (store : Store F bucketCount P)
    (position : Fin bucketCount) (fingerprint : Fingerprint F) :
    (bucketMatches store position fingerprint).length ≤ 4 := by
  rw [bucketMatches, matchesOf, List.length_map]
  exact (List.length_filter_le _ _).trans_eq Vector.length_toList

/-- A token has at most eight matches. -/
theorem length_tokenMatches_le {layout : Layout F} (metadata : KeyMetadata layout)
    (store : Store F layout.bucketCount P) : (tokenMatches metadata store).length ≤ 8 := by
  have first := length_bucketMatches_le store metadata.firstBucket metadata.fingerprint
  have second := length_bucketMatches_le store metadata.secondBucket metadata.fingerprint
  unfold tokenMatches
  split
  · rw [List.length_append]
    omega
  · rw [List.append_nil]
    omega

/-- The vector overload returns all matches of the token. -/
theorem queryAll_eq [Inhabited P] (config : Config F) (token : Token128)
    (state : State F config.layout.bucketCount P) :
    queryAll config token state =
      (config.metadata token).map fun metadata => tokenMatches metadata state.store := by
  rw [queryAll, queryAllInto, Option.map_map]
  congr 1
  funext metadata
  have short := length_tokenMatches_le metadata state.store
  dsimp only [Function.comp_apply]
  rw [queryRecords_eq, readOutput]
  refine List.ext_getElem (by simp) fun index inside inside' => ?_
  simp [writtenFrom, show index < 8 by omega, inside']

/-! ## The answer as a part of the contents -/

/-- The home of a token. -/
def KeyMetadata.home {layout : Layout F} (metadata : KeyMetadata layout) : Home layout :=
  Filter.home layout metadata.firstBucket metadata.fingerprint

/-- The matches of a bucket as a multiset. -/
theorem coe_bucketMatches {layout : Layout F} (store : Store F layout.bucketCount P)
    (position : Fin layout.bucketCount) {fingerprint : Fingerprint F}
    (present : fingerprint ≠ 0) :
    (bucketMatches store position fingerprint : Multiset P) =
      ((residentsAt store position).filter fun record =>
        record.fingerprint = fingerprint).map Record.payload := by
  rw [bucketMatches, matchesOf, ← Multiset.map_coe, ← Multiset.filter_coe, residentsAt, residents,
    Multiset.filter_filter]
  congr 1
  refine Multiset.filter_congr fun record _ => ?_
  constructor
  · intro same
    exact ⟨same, by rw [Present, same]; exact present⟩
  · exact And.left

/-- The records of a bucket with the home of a token: those with its fingerprint when the bucket
is a candidate of the token, and none elsewhere. -/
theorem filter_home {config : Config F} {token : Token128}
    {metadata : KeyMetadata config.layout} (derived : config.metadata token = some metadata)
    (store : Store F config.layout.bucketCount P) (cell : Fin config.layout.bucketCount) :
    ((residentsAt store cell).filter fun record =>
      (entry config.layout cell record).1 = metadata.home).map Record.payload =
      if cell = metadata.firstBucket ∨ cell = metadata.secondBucket then
        (bucketMatches store cell metadata.fingerprint : Multiset P) else 0 := by
  have home : ∀ record : Record F P, (entry config.layout cell record).1 = metadata.home ↔
      record.fingerprint = metadata.fingerprint ∧
        (cell = metadata.firstBucket ∨ cell = metadata.secondBucket) := by
    intro record
    rw [Config.metadata_secondBucket derived]
    exact home_eq_home
  simp only [home]
  split
  · rename_i candidate
    rw [coe_bucketMatches store cell (Config.metadata_fingerprint derived)]
    simp only [candidate, and_true]
  · rename_i elsewhere
    simp only [elsewhere, and_false, Multiset.filter_false, Multiset.map_zero]

/-- The answer for a token is the part of the contents with its home. -/
theorem coe_tokenMatches {config : Config F} {token : Token128}
    {metadata : KeyMetadata config.layout} (derived : config.metadata token = some metadata)
    (store : Store F config.layout.bucketCount P) :
    (tokenMatches metadata store : Multiset P) =
      ((contents config.layout store).filter fun item => item.1 = metadata.home).map Prod.snd := by
  have additive := map_sum (Multiset.mapAddMonoidHom (Prod.snd : Home config.layout × P → P))
    (fun cell => ((residentsAt store cell).filter fun record =>
      (entry config.layout cell record).1 = metadata.home).map (entry config.layout cell))
    Finset.univ
  rw [contents, filter_spread]
  refine Eq.trans ?_ additive.symm
  have amount : ∀ cell : Fin config.layout.bucketCount,
      Multiset.mapAddMonoidHom (Prod.snd : Home config.layout × P → P)
        (((residentsAt store cell).filter fun record =>
          (entry config.layout cell record).1 = metadata.home).map (entry config.layout cell)) =
      if cell = metadata.firstBucket ∨ cell = metadata.secondBucket then
        (bucketMatches store cell metadata.fingerprint : Multiset P) else 0 := by
    intro cell
    rw [← filter_home derived store cell, Multiset.coe_mapAddMonoidHom, Multiset.map_map]
    rfl
  rw [sum_eq_pair _ metadata.firstBucket metadata.secondBucket
    fun cell first second => (amount cell).trans (if_neg (not_or.mpr ⟨first, second⟩))]
  rw [amount, amount, if_pos (Or.inl rfl), if_pos (Or.inr rfl), tokenMatches, ← Multiset.coe_add]
  by_cases same : metadata.secondBucket = metadata.firstBucket
  · rw [if_neg (not_not.mpr same), if_pos same, Multiset.coe_nil]
  · rw [if_pos same, if_neg same]

/-! ## The three interfaces -/

/-- Memory whose first places are overwritten by the values that fit a capacity. -/
theorem writtenFrom_zero (memory : Nat → P) (outputCapacity : Nat) (values : List P) :
    writtenFrom memory 0 outputCapacity values = fun index =>
      if index < min values.length outputCapacity then values[index]?.getD (memory index)
      else memory index := by
  funext index
  unfold writtenFrom
  by_cases fits : index < min values.length outputCapacity
  · rw [if_pos fits, if_pos (by omega), Nat.sub_zero]
  · rw [if_neg fits]
    by_cases room : index < outputCapacity
    · have beyond : values.length ≤ index := by omega
      rw [if_pos (by omega), Nat.sub_zero, List.getElem?_eq_none beyond]
      rfl
    · rw [if_neg (by omega)]

/-- A token whose candidate buckets coincide has at most four matches. -/
theorem length_tokenMatches_le_four {layout : Layout F} {metadata : KeyMetadata layout}
    (store : Store F layout.bucketCount P)
    (coincide : metadata.secondBucket = metadata.firstBucket) :
    (tokenMatches metadata store).length ≤ 4 := by
  have first := length_bucketMatches_le store metadata.firstBucket metadata.fingerprint
  rw [tokenMatches, if_neg (not_not.mpr coincide), List.append_nil]
  exact first

/-- The query interfaces agree in every state, padded or not, for every token. The pointer overload
counts the elements the vector overload returns, for any capacity and also without a buffer; into a
buffer it writes those elements in order while they fit, and nothing else. There are at most eight,
at most four when the candidate buckets coincide, so the array behind the vector is never read past
its end. `Contains` says whether there are any. None of the three returns where the rehash loop of
the token never ends. -/
theorem query_interfaces [Inhabited P] (config : Config F) (token : Token128)
    (state : State F config.layout.bucketCount P) :
    (∀ output outputCapacity, queryAllInto config token state output outputCapacity =
      (queryAll config token state).map fun answer => (answer.length, output.map fun memory index =>
        if index < min answer.length outputCapacity then answer[index]?.getD (memory index)
        else memory index)) ∧
    (∀ answer, queryAll config token state = some answer → answer.length ≤ 8 ∧
      ∀ metadata, config.metadata token = some metadata →
        metadata.secondBucket = metadata.firstBucket → answer.length ≤ 4) ∧
    contains config token state =
      (queryAll config token state).map fun answer => decide (answer ≠ []) := by
  rw [queryAll_eq]
  constructor
  · intro output outputCapacity
    rw [queryAllInto, Option.map_map]
    congr 1
    funext metadata
    rw [queryRecords_eq, Function.comp_apply]
    simp only [writtenFrom_zero]
  constructor
  · intro answer returned
    obtain ⟨metadata, derived, rfl⟩ := Option.map_eq_some_iff.mp returned
    refine ⟨length_tokenMatches_le metadata state.store, fun other again coincide => ?_⟩
    have same : other = metadata := Option.some.inj (again.symm.trans derived)
    rw [same] at coincide
    exact length_tokenMatches_le_four state.store coincide
  · rw [contains, queryAllInto, Option.map_map, Option.map_map]
    congr 1
    funext metadata
    rw [Function.comp_apply, Function.comp_apply, queryRecords_eq]
    simp only [ne_eq, List.length_eq_zero_iff]

end Vlse.Filter
