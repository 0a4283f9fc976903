import Vlse.Foundation.Guards
import Vlse.Lse.Run
/-!
# What a completed LSE Setup holds

The tokens in the table and the keys of the map stay the same set while keywords are inserted and
while free bins are filled, because the search tokens are distinct and a dummy token is drawn until
the map does not know it. So each token has one label list of full length, a keyword finds its own,
and the query loop never throws.
-/

namespace Vlse.Lse

open ByteBits Vlse.Filter Oprf Protocol

/-! ## The map -/

/-- What a map holds: records with distinct tokens and label lists of one length. -/
structure Catalogue (dmax : Nat) (map : LabelMap) (records : Multiset (OprfOutput × LabelList)) :
    Prop where
  /-- The tokens are distinct. -/
  distinct : (records.map Prod.fst).Nodup
  /-- The entries of the map are the records. -/
  entries : ∀ token labels, map token = some labels ↔ (token, labels) ∈ records
  /-- Every token has `dmax` labels. -/
  sized : ∀ record ∈ records, record.2.length = dmax

variable {dmax : Nat} {map : LabelMap} {records : Multiset (OprfOutput × LabelList)}
  {token : OprfOutput} {labels : LabelList}

/-- The empty map holds nothing. -/
theorem catalogue_empty (dmax : Nat) : Catalogue dmax (fun _ => none) 0 where
  distinct := Multiset.nodup_zero
  entries token labels := by simp
  sized record inside := absurd inside (Multiset.notMem_zero record)

/-- The tokens of the records are the keys of the map. -/
theorem Catalogue.mem_tokens (catalogue : Catalogue dmax map records) (token : OprfOutput) :
    token ∈ records.map Prod.fst ↔ ∃ labels, map token = some labels := by
  rw [Multiset.mem_map]
  constructor
  · rintro ⟨⟨other, labels⟩, inside, rfl⟩
    exact ⟨labels, (catalogue.entries _ _).mpr inside⟩
  · rintro ⟨labels, found⟩
    exact ⟨(token, labels), (catalogue.entries _ _).mp found, rfl⟩

/-- A token the map does not know enters it with its labels. -/
theorem Catalogue.emplace (catalogue : Catalogue dmax map records) (fresh : map token = none)
    (whole : labels.length = dmax) :
    Catalogue dmax (map.emplace token labels) ((token, labels) ::ₘ records) where
  distinct := by
    rw [Multiset.map_cons, Multiset.nodup_cons]
    refine ⟨fun known => ?_, catalogue.distinct⟩
    obtain ⟨other, found⟩ := (catalogue.mem_tokens token).mp known
    rw [fresh] at found
    contradiction
  entries other value := by
    rw [LabelMap.emplace, Multiset.mem_cons, ← catalogue.entries, Prod.mk.injEq]
    by_cases same : other = token
    · subst same
      rw [if_pos ⟨rfl, fresh⟩, fresh]
      simp [eq_comm]
    · rw [if_neg fun both => same both.1]
      simp [same]
  sized record inside := by
    rcases Multiset.mem_cons.mp inside with rfl | older
    · exact whole
    · exact catalogue.sized record older

namespace Environment

variable {env : Environment} {keywordCount : Nat}

/-! ## The keywords -/

/-- Keywords with different hashes have different search tokens. -/
theorem nodup_directToken {keywords : List (List Byte)}
    (hashes : (keywords.map (hashToGroup env.group.toPublicParameters env.shake256)).Nodup) :
    (keywords.map env.directToken).Nodup :=
  List.pairwise_map.mpr ((List.pairwise_map.mp hashes).imp fun differ same =>
    differ (directEvaluate_inj same))

/-- The record of a keyword with its number: its token with its labels. -/
def KeywordRecord (env : Environment) (dmax : Nat) (keyword : List Byte × Nat)
    (record : OprfOutput × LabelList) : Prop :=
  ∃ output, env.directToken keyword.1 = some (.ok record.1) ∧
    env.directKey keyword.1 = some (.ok output) ∧
    record.2 = env.keywordLabels dmax (lseAesKey output) keyword.2

/-- The labels of a keyword are as many as it has documents. -/
theorem KeywordRecord.sized {keyword : List Byte × Nat} {record : OprfOutput × LabelList}
    (owned : KeywordRecord env dmax keyword record) : record.2.length = dmax := by
  obtain ⟨output, -, -, labels⟩ := owned
  rw [labels, keywordLabels, List.length_map, List.length_range]

/-- A turn of the loop over the keywords that returns has stored the record of its keyword. -/
theorem insertKeyword_ok {i : Nat} {keyword : List Byte}
    {state after : SetupState (tableBins keywordCount)}
    (returned : env.insertKeyword dmax i keyword state = some (.ok (), after)) :
    ∃ record, KeywordRecord env dmax (keyword, i) record ∧
      after.encryptedData = state.encryptedData.emplace record.1 record.2 ∧
      insert (env.positions keywordCount) record.1 state.table = (true, after.table) := by
  obtain ⟨token, between, tokenRan, afterToken⟩ := Callback.bind_eq_ok returned
  obtain ⟨directed, rfl⟩ := Callback.lift_eq_ok tokenRan
  obtain ⟨output, between, keyRan, afterKey⟩ := Callback.bind_eq_ok afterToken
  obtain ⟨keyed, rfl⟩ := Callback.lift_eq_ok keyRan
  dsimp only at afterKey
  split at afterKey
  · simp at afterKey
  · split at afterKey
    · rename_i table inserted
      obtain ⟨-, rfl⟩ := Prod.mk.inj (Option.some.inj afterKey)
      exact ⟨(token, _), ⟨output, directed, keyed, rfl⟩, rfl, inserted⟩
    · simp at afterKey

/-- A turn for a keyword with a new token adds its record to the map and its token to the table. -/
theorem insertKeyword_grows {i : Nat} {keyword : List Byte}
    {state after : SetupState (tableBins keywordCount)}
    (catalogue : Catalogue dmax state.encryptedData records)
    (account : Accounts (env.positions keywordCount) state.table (records.map Prod.fst))
    (fresh : ∀ token ∈ records.map Prod.fst, env.directToken keyword ≠ some (.ok token))
    (returned : env.insertKeyword dmax i keyword state = some (.ok (), after)) :
    ∃ record, KeywordRecord env dmax (keyword, i) record ∧
      Catalogue dmax after.encryptedData (record ::ₘ records) ∧
      Accounts (env.positions keywordCount) after.table ((record ::ₘ records).map Prod.fst) := by
  obtain ⟨record, owned, emplaced, inserted⟩ := insertKeyword_ok returned
  have whole := owned.sized
  obtain ⟨output, directed, -⟩ := id owned
  have unknown : state.encryptedData record.1 = none := by
    by_contra known
    have listed := (catalogue.mem_tokens record.1).mpr (Option.ne_none_iff_exists'.mp known)
    exact fresh _ listed directed
  have stored := account.insert record.1
  rw [inserted, ← Multiset.map_cons] at stored
  refine ⟨record, owned, ?_, ?_⟩
  · rw [emplaced]
    exact catalogue.emplace unknown whole
  · cases stored with
    | stored placed => exact placed

/-- The tokens of later keywords are new to the map also after the first keyword has entered it. -/
theorem fresh_cons {keyword : List Byte} {keywords : List (List Byte)} {i : Nat}
    {record : OprfOutput × LabelList} (owned : KeywordRecord env dmax (keyword, i) record)
    (distinct : ((keyword :: keywords).map env.directToken).Nodup)
    (fresh : ∀ other ∈ keyword :: keywords, ∀ token ∈ records.map Prod.fst,
      env.directToken other ≠ some (.ok token)) :
    ∀ other ∈ keywords, ∀ token ∈ (record ::ₘ records).map Prod.fst,
      env.directToken other ≠ some (.ok token) := by
  intro other inside token known
  obtain ⟨output, directed, -⟩ := owned
  rw [List.map_cons, List.nodup_cons] at distinct
  rw [Multiset.map_cons, Multiset.mem_cons] at known
  cases known with
  | inl first =>
    subst first
    intro same
    exact distinct.1 (List.mem_map.mpr ⟨other, inside, same.trans directed.symm⟩)
  | inr older => exact fresh other (List.mem_cons_of_mem _ inside) token older

/-- The loop over keywords with new and distinct tokens stores a record for each. -/
theorem insertKeywords_ok {keywords : List (List Byte)} {i : Nat}
    {state after : SetupState (tableBins keywordCount)}
    (catalogue : Catalogue dmax state.encryptedData records)
    (account : Accounts (env.positions keywordCount) state.table (records.map Prod.fst))
    (distinct : (keywords.map env.directToken).Nodup)
    (fresh : ∀ keyword ∈ keywords, ∀ token ∈ records.map Prod.fst,
      env.directToken keyword ≠ some (.ok token))
    (returned : env.insertKeywords dmax keywords i state = some (.ok (), after)) :
    ∃ added : List (OprfOutput × LabelList),
      List.Forall₂ (KeywordRecord env dmax) (keywords.zipIdx i) added ∧
      Catalogue dmax after.encryptedData (added + records) ∧
      Accounts (env.positions keywordCount) after.table
        ((added + records : Multiset (OprfOutput × LabelList)).map Prod.fst) := by
  induction keywords generalizing i state records with
  | nil =>
    cases returned
    exact ⟨[], .nil, by simpa using catalogue, by simpa using account⟩
  | cons keyword keywords ih =>
    rw [insertKeywords] at returned
    obtain ⟨done, between, first, later⟩ := Callback.bind_eq_ok returned
    obtain ⟨record, owned, grown, placed⟩ :=
      insertKeyword_grows catalogue account (fresh keyword List.mem_cons_self) first
    obtain ⟨added, owners, catalogueAfter, accountAfter⟩ :=
      ih grown placed (List.nodup_cons.mp distinct).2 (fresh_cons owned distinct fresh) later
    have joined : (added : Multiset (OprfOutput × LabelList)) + (record ::ₘ records) =
        (record :: added : List (OprfOutput × LabelList)) + records := by
      rw [← Multiset.cons_coe, Multiset.cons_add, Multiset.add_cons]
    rw [joined] at catalogueAfter accountAfter
    exact ⟨record :: added, .cons owned owners, catalogueAfter, accountAfter⟩

/-! ## The dummies -/

/-- A token drawn is one the map does not know, and drawing leaves the map as it is. -/
theorem drawToken_ok {limit : Nat} {state after : DummyState}
    (returned : env.drawToken limit state = some (.ok token, after)) :
    after.encryptedData = state.encryptedData ∧ state.encryptedData token = none := by
  induction limit generalizing state with
  | zero => simp [drawToken] at returned
  | succ limit ih =>
    rw [drawToken] at returned
    dsimp only at returned
    split at returned
    · have later := ih returned
      exact later
    · rename_i unknown
      obtain ⟨same, rfl⟩ := Prod.mk.inj (Option.some.inj returned)
      rw [Except.ok.inj same, Option.not_isSome_iff_eq_none] at unknown
      exact ⟨rfl, unknown⟩

/-- A dummy enters the map as a record that was not there. -/
theorem dummyToken_ok {limit : Nat} {state after : DummyState}
    (catalogue : Catalogue dmax state.encryptedData records)
    (returned : env.dummyToken dmax limit state = some (.ok token, after)) :
    ∃ labels, Catalogue dmax after.encryptedData ((token, labels) ::ₘ records) := by
  obtain ⟨drawn, between, found, finished⟩ := Callback.bind_eq_ok returned
  dsimp only at finished
  split at finished
  · simp at finished
  · obtain ⟨same, rfl⟩ := Prod.mk.inj (Option.some.inj finished)
    obtain ⟨kept, unknown⟩ := drawToken_ok found
    rw [Except.ok.inj same, ← kept] at unknown
    rw [← kept] at catalogue
    rw [Except.ok.inj same]
    exact ⟨_, catalogue.emplace unknown (by rw [List.length_map, List.length_range])⟩

/-- What filling free bins keeps of a table: its occupied bins and their tokens. -/
def Keeps (before after : CuckooTable (tableBins keywordCount)) : Prop :=
  ∀ bin, before.occupied.get bin = true →
    after.occupied.get bin = true ∧ after.bins.get bin = before.bins.get bin

/-- Taking a free bin keeps the occupied ones. -/
theorem keeps_of_takes {table after : CuckooTable (tableBins keywordCount)}
    {bin : Fin (tableBins keywordCount)} (takes : Takes table bin token after)
    (free : table.occupied.get bin = false) : Keeps table after := by
  intro other occupied
  have apart : bin ≠ other := by
    intro same
    rw [← same, free] at occupied
    contradiction
  rw [takes.occupied, takes.stored, get_set, if_neg apart, occupied, Bool.or_true]
  exact ⟨rfl, rfl⟩

/-- What two stretches keep, both together keep. -/
theorem Keeps.trans {table between after : CuckooTable (tableBins keywordCount)}
    (earlier : Keeps table between) (later : Keeps between after) : Keeps table after := by
  intro bin occupied
  have first := earlier bin occupied
  have second := later bin first.1
  exact ⟨second.1, second.2.trans first.2⟩

/-- Filling bins makes them occupied, keeps those that were, and counts the tokens it adds. -/
theorem fillEmpty_fills {G E : Type*} {generator : Callback G E OprfOutput}
    {bins : List (Fin (tableBins keywordCount))}
    {table after : CuckooTable (tableBins keywordCount)} {filled total : Nat} {state ended : G}
    (returned : fillEmpty generator bins table filled state = some (.ok (after, total), ended)) :
    Keeps table after ∧ (∀ bin ∈ bins, after.occupied.get bin = true) ∧
      (storedTokens after).card + filled = (storedTokens table).card + total := by
  induction bins generalizing table filled state with
  | nil =>
    cases returned
    exact ⟨fun bin occupied => ⟨occupied, rfl⟩, by simp, rfl⟩
  | cons bin bins ih =>
    rw [fillEmpty] at returned
    split at returned
    · rename_i taken
      have rest := ih returned
      exact ⟨rest.1, List.forall_mem_cons.mpr ⟨(rest.1 bin taken).1, rest.2.1⟩, rest.2.2⟩
    · rename_i occupied
      have free := Bool.eq_false_iff.mpr occupied
      obtain ⟨token, between, generated, later⟩ := Callback.bind_eq_ok returned
      have takes : Takes table bin token (occupy (setBin table bin token) bin) :=
        takes_of_set rfl rfl
      have rest := ih later
      have here := rest.1 bin (by rw [takes.occupied, decide_eq_true rfl, Bool.true_or])
      have counted := rest.2.2
      rw [takes.storedTokens_of_free free, Multiset.card_cons] at counted
      exact ⟨(keeps_of_takes takes free).trans rest.1,
        List.forall_mem_cons.mpr ⟨here.1, rest.2.1⟩, by omega⟩

/-- Filling bins adds a record for each that was free. -/
theorem fillEmpty_ok {limit : Nat} {bins : List (Fin (tableBins keywordCount))}
    {table after : CuckooTable (tableBins keywordCount)} {filled total : Nat}
    {state ended : DummyState} (catalogue : Catalogue dmax state.encryptedData records)
    (stored : storedTokens table = records.map Prod.fst)
    (returned : fillEmpty (env.dummyToken dmax limit) bins table filled state =
      some (.ok (after, total), ended)) :
    ∃ added, Catalogue dmax ended.encryptedData (added + records) ∧
      storedTokens after = (added + records).map Prod.fst := by
  induction bins generalizing table filled state records with
  | nil =>
    cases returned
    exact ⟨0, by simpa using catalogue, by simpa using stored⟩
  | cons bin bins ih =>
    rw [fillEmpty] at returned
    split at returned
    · exact ih catalogue stored returned
    · rename_i occupied
      have free := Bool.eq_false_iff.mpr occupied
      obtain ⟨token, between, generated, later⟩ := Callback.bind_eq_ok returned
      obtain ⟨labels, grown⟩ := dummyToken_ok catalogue generated
      have takes : Takes table bin token (occupy (setBin table bin token) bin) :=
        takes_of_set rfl rfl
      have storedNow := takes.storedTokens_of_free free
      rw [stored, ← Multiset.map_cons Prod.fst (token, labels)] at storedNow
      obtain ⟨added, rest, held⟩ := ih grown storedNow later
      rw [Multiset.add_cons, ← Multiset.cons_add] at rest held
      exact ⟨_, rest, held⟩

/-! ## Setup -/

variable {keywords : List (List Byte)} {limit : Nat}

/-- What a completed Setup holds: every bin is occupied, the tokens stored are those of the map, and
every keyword has a record that is found under its token. -/
structure Complete (env : Environment) (dmax : Nat) (keywords : List (List Byte))
    (index : Index (tableBins keywords.length))
    (records : Multiset (OprfOutput × LabelList)) : Prop where
  /-- Every bin is occupied. -/
  full : ∀ bin, index.table.occupied.get bin = true
  /-- The map holds the records. -/
  catalogue : Catalogue dmax index.encryptedData records
  /-- The table stores their tokens. -/
  stored : storedTokens index.table = records.map Prod.fst
  /-- A keyword finds its record. -/
  found : ∀ (k : Nat) (inside : k < keywords.length), ∃ record,
    KeywordRecord env dmax (keywords[k], k) record ∧
    index.encryptedData record.1 = some record.2 ∧
    ∃ bin, find (env.positions keywords.length) record.1 index.table = some bin

/-- The keyword with a number has its record among those stored. -/
theorem exists_record {added : List (OprfOutput × LabelList)}
    (owners : List.Forall₂ (KeywordRecord env dmax) keywords.zipIdx added) {k : Nat}
    (inside : k < keywords.length) :
    ∃ record ∈ added, KeywordRecord env dmax (keywords[k], k) record := by
  obtain ⟨sameLength, owned⟩ := List.forall₂_iff_get.mp owners
  have numbered : k < keywords.zipIdx.length := by rwa [List.length_zipIdx]
  have recorded : k < added.length := sameLength ▸ numbered
  have here := owned k numbered recorded
  rw [List.get_eq_getElem, List.getElem_zipIdx, Nat.zero_add] at here
  exact ⟨added.get ⟨k, recorded⟩, List.get_mem _ _, here⟩

/-- A Setup that returns has gone through the keywords and filled the other bins. -/
theorem setup_ok {index : Index (tableBins keywords.length)}
    (returned : env.setup dmax keywords limit = some (.ok index)) :
    ∃ state ended, env.insertKeywords dmax keywords 0
        ⟨construct keywords.length env.random, fun _ => none⟩ = some (.ok (), state) ∧
      fillEmpty (env.dummyToken dmax limit) (List.finRange _) state.table 0
        ⟨state.encryptedData, 0, 0⟩ = some (.ok (index.table, index.dummies), ended) ∧
      index.encryptedData = ended.encryptedData := by
  unfold setup at returned
  split at returned
  · simp at returned
  · split at returned
    · contradiction
    · simp at returned
    · rename_i state inserted
      split at returned
      · contradiction
      · simp at returned
      · rename_i table dummies ended filled
        obtain rfl := Except.ok.inj (Option.some.inj returned)
        exact ⟨state, ended, inserted, filled, rfl⟩

/-- A Setup for keywords with distinct tokens that returns is complete. -/
theorem setup_complete {index : Index (tableBins keywords.length)}
    (distinct : (keywords.map env.directToken).Nodup)
    (returned : env.setup dmax keywords limit = some (.ok index)) :
    ∃ records, Complete env dmax keywords index records := by
  obtain ⟨state, ended, inserted, filled, same⟩ := setup_ok returned
  obtain ⟨added, owners, catalogue, account⟩ := insertKeywords_ok (catalogue_empty dmax)
    (accounts_construct _ _ _) distinct (fun _ _ _ nothing => absurd nothing (by simp)) inserted
  obtain ⟨keeps, walked, -⟩ := fillEmpty_fills filled
  obtain ⟨padding, catalogueAfter, storedAfter⟩ := fillEmpty_ok catalogue account.stored filled
  rw [← same] at catalogueAfter
  refine ⟨_, fun bin => walked bin (List.mem_finRange bin), catalogueAfter, storedAfter,
    fun k inside => ?_⟩
  obtain ⟨record, listed, here⟩ := exists_record owners inside
  have member : record ∈ (added + 0 : Multiset (OprfOutput × LabelList)) := by
    rw [add_zero]
    exact Multiset.mem_coe.mpr listed
  obtain ⟨bin, located⟩ := (account.find_iff _).mpr (Multiset.mem_map_of_mem Prod.fst member)
  have kept := keeps bin (find_some _ located).1
  exact ⟨record, here, (catalogueAfter.entries _ _).mpr (Multiset.mem_add.mpr (.inr member)),
    find_of_kept _ located kept.1 kept.2⟩

/-! ## Queries -/

/-- The documents of the keyword with number `i`, as 64-bit words. -/
def keywordDocuments (dmax i : Nat) : List Word :=
  (List.range dmax).map fun j => BitVec.ofNat 64 (i * dmax + j + 1)

/-- Decrypting a stretch of the labels of a keyword under its key gives their documents. -/
theorem decryptLabels_range (inverts : env.aes.Inverts) (key : Block) (i count j : Nat) :
    env.decryptLabels dmax key i
        ((List.range' j count).map fun j =>
          env.aes.encryptBlock key (encodeDocument (BitVec.ofNat 64 (i * dmax + j + 1)))) j =
      .ok ((List.range' j count).map fun j => BitVec.ofNat 64 (i * dmax + j + 1)) := by
  induction count generalizing j with
  | zero => rfl
  | succ count ih =>
    rw [List.range'_succ, List.map_cons, decryptLabels, inverts, decodeDocument_encodeDocument,
      if_neg (not_not.mpr rfl), ih]
    rfl

/-- Decrypting the labels of a keyword under its key gives its documents. -/
theorem decryptLabels_keywordLabels (inverts : env.aes.Inverts) (key : Block) (i : Nat) :
    env.decryptLabels dmax key i (env.keywordLabels dmax key i) 0 =
      .ok (keywordDocuments dmax i) := by
  rw [keywordLabels, keywordDocuments, List.range_eq_range']
  exact decryptLabels_range inverts key i dmax 0

/-- The query for a keyword on fresh blinds returns its documents. -/
theorem Complete.query {index : Index (tableBins keywords.length)}
    (complete : Complete env dmax keywords index records) (inverts : env.aes.Inverts) {k : Nat}
    (inside : k < keywords.length)
    (tokenScalar keyScalar : SecretKey env.group.toPublicParameters) :
    env.query dmax index k keywords[k]
        (prepareBlind env.group.toPublicParameters tokenScalar.scalar)
        (prepareBlind env.group.toPublicParameters keyScalar.scalar) =
      some (.ok (keywordDocuments dmax k)) := by
  obtain ⟨record, owned, entry, bin, located⟩ := complete.found k inside
  have whole := owned.sized
  obtain ⟨output, directed, keyed, labels⟩ := owned
  unfold directToken at directed
  unfold directKey at keyed
  have held := (find_some _ located).2
  unfold Environment.query
  rw [evaluatePrepared_fresh _ _ _ tokenScalar.positive tokenScalar.below, directed,
    evaluatePrepared_fresh _ _ _ keyScalar.positive keyScalar.below, keyed]
  dsimp only [Option.map_some]
  rw [search, located]
  dsimp only
  rw [held, entry]
  dsimp only
  rw [if_neg (not_not.mpr whole), labels, decryptLabels_keywordLabels inverts]

/-- The query loop over a stretch of the keywords returns, one success for each. -/
theorem Complete.queryLoop {index : Index (tableBins keywords.length)}
    (complete : Complete env dmax keywords index records) (inverts : env.aes.Inverts)
    (stretch : List (List Byte)) (i : Nat) (totals : QueryTotals)
    (within : ∀ (j : Nat) (short : j < stretch.length), keywords[i + j]? = some stretch[j]) :
    env.queryLoop dmax index stretch i totals =
      some (.ok ⟨totals.querySuccesses + stretch.length,
        totals.decryptComponentAttempts + stretch.length * dmax⟩) := by
  induction stretch generalizing i totals with
  | nil => simp [Environment.queryLoop]
  | cons keyword stretch ih =>
    have first := within 0 (Nat.succ_pos _)
    rw [Nat.add_zero, List.getElem_cons_zero] at first
    obtain ⟨inside, here⟩ := List.getElem?_eq_some_iff.mp first
    have answered := complete.query inverts inside (env.tokenScalars i) (env.keyScalars i)
    rw [here] at answered
    rw [Environment.queryLoop, answered]
    dsimp only
    have rest : ∀ (j : Nat) (short : j < stretch.length),
        keywords[i + 1 + j]? = some stretch[j] := by
      intro j short
      have later := within (j + 1) (Nat.succ_lt_succ short)
      rw [List.getElem_cons_succ] at later
      rw [← later]
      congr 1
      omega
    rw [ih _ _ rest, keywordDocuments, List.length_map, List.length_range, List.length_cons,
      Nat.succ_mul]
    congr 3
    · change totals.querySuccesses + 1 + stretch.length = _
      omega
    · change totals.decryptComponentAttempts + dmax + stretch.length * dmax = _
      omega

/-- After a Setup that completes for keywords with distinct search tokens every bin is occupied, the
bins hold distinct tokens, which are the keys of the map, each with `dmax` labels; every query
returns the documents of its keyword in order, and `Run` returns. -/
theorem run_end_to_end (inverts : env.aes.Inverts)
    (distinct : (keywords.map env.directToken).Nodup)
    {index : Index (tableBins keywords.length)}
    (returned : env.setup dmax keywords limit = some (.ok index)) :
    (∀ bin, index.table.occupied.get bin = true) ∧
    Function.Injective index.table.bins.get ∧
    (∀ token, (∃ bin, index.table.bins.get bin = token) ↔
      ∃ labels, index.encryptedData token = some labels) ∧
    (∀ token labels, index.encryptedData token = some labels → labels.length = dmax) ∧
    (∀ (k : Nat) (inside : k < keywords.length)
      (tokenScalar keyScalar : SecretKey env.group.toPublicParameters),
      env.query dmax index k keywords[k]
          (prepareBlind env.group.toPublicParameters tokenScalar.scalar)
          (prepareBlind env.group.toPublicParameters keyScalar.scalar) =
        some (.ok ((List.range dmax).map fun j => BitVec.ofNat 64 (k * dmax + j + 1)))) ∧
    ∀ queries ≤ keywords.length, env.run dmax keywords queries limit =
      some (.ok (index, ⟨queries, queries * dmax⟩)) := by
  obtain ⟨records, complete⟩ := setup_complete distinct returned
  have unique := complete.catalogue.distinct
  rw [← complete.stored] at unique
  refine ⟨complete.full, fun bin other same => ?_, fun token => ?_, fun token labels entry => ?_,
    fun k inside tokenScalar keyScalar => complete.query inverts inside tokenScalar keyScalar,
    fun queries few => ?_⟩
  · exact bin_unique unique (complete.full bin) (complete.full other) same
  · rw [← complete.catalogue.mem_tokens, ← complete.stored, mem_storedTokens]
    exact exists_congr fun bin => (and_iff_right (complete.full bin)).symm
  · exact complete.catalogue.sized _ ((complete.catalogue.entries token labels).mp entry)
  · have taken : (keywords.take queries).length = queries := by
      rw [List.length_take, Nat.min_eq_left few]
    have answered := complete.queryLoop inverts (keywords.take queries) 0 {} (by simp)
    rw [taken, Nat.zero_add, Nat.zero_add] at answered
    rw [run, returned]
    dsimp only
    rw [answered]
    rfl

/-! ## What a run counts -/

/-- A loop over keywords that returns has stored one token for each. -/
theorem insertKeywords_card {i : Nat} {state after : SetupState (tableBins keywordCount)}
    {held : Multiset OprfOutput} (account : Accounts (env.positions keywordCount) state.table held)
    (returned : env.insertKeywords dmax keywords i state = some (.ok (), after)) :
    (storedTokens after.table).card = held.card + keywords.length := by
  induction keywords generalizing i state held with
  | nil =>
    cases returned
    rw [account.stored]
    rfl
  | cons keyword keywords ih =>
    rw [insertKeywords] at returned
    obtain ⟨done, between, first, later⟩ := Callback.bind_eq_ok returned
    obtain ⟨record, -, -, inserted⟩ := insertKeyword_ok first
    have step := account.insert record.1
    rw [inserted] at step
    cases step with
    | stored placed =>
      rw [ih placed later, Multiset.card_cons, List.length_cons]
      omega

/-- A Setup that returns has a bin for every keyword and a dummy for every other bin. -/
theorem setup_total {index : Index (tableBins keywords.length)}
    (returned : env.setup dmax keywords limit = some (.ok index)) :
    keywords.length + index.dummies = tableBins keywords.length := by
  obtain ⟨state, ended, inserted, filled, -⟩ := setup_ok returned
  have stored := insertKeywords_card (accounts_construct _ _ _) inserted
  obtain ⟨-, walked, counted⟩ := fillEmpty_fills filled
  have full : (Finset.univ.filter fun bin => index.table.occupied.get bin = true) = Finset.univ :=
    Finset.filter_true_of_mem fun bin _ => walked bin (List.mem_finRange bin)
  have size := card_storedTokens index.table
  rw [full, Finset.card_univ, Fintype.card_fin] at size
  rw [Multiset.card_zero] at stored
  omega

/-- The query loop counts a success for every query when it returns. -/
theorem queryLoop_successes {index : Index (tableBins keywordCount)}
    {stretch : List (List Byte)} {i : Nat} {totals after : QueryTotals}
    (returned : env.queryLoop dmax index stretch i totals = some (.ok after)) :
    after.querySuccesses = totals.querySuccesses + stretch.length := by
  induction stretch generalizing i totals with
  | nil =>
    rw [Environment.queryLoop] at returned
    cases returned
    rfl
  | cons keyword stretch ih =>
    rw [Environment.queryLoop] at returned
    split at returned
    · contradiction
    · simp at returned
    · have later := ih returned
      dsimp only at later
      rw [later, List.length_cons]
      omega

/-- A run that returns has a bin for every keyword, a dummy for every other bin, and a success for
every query. -/
theorem run_counts {queries : Nat} {index : Index (tableBins keywords.length)}
    {totals : QueryTotals} (enough : queries ≤ keywords.length)
    (returned : env.run dmax keywords queries limit = some (.ok (index, totals))) :
    keywords.length + index.dummies = tableBins keywords.length ∧
      totals.querySuccesses = queries := by
  unfold run at returned
  split at returned
  · contradiction
  · simp at returned
  · rename_i built completed
    obtain ⟨ending, looped, same⟩ := Option.map_eq_some_iff.mp returned
    cases ending with
    | error fault => simp [Except.map] at same
    | ok counted =>
      cases same
      have successes := queryLoop_successes looped
      rw [List.length_take, Nat.min_eq_left enough] at successes
      exact ⟨setup_total completed, successes.trans (Nat.zero_add _)⟩

end Environment

/-! ## A small environment -/

/-- A block cipher that adds the key. -/
def xorAes : Aes where
  encryptBlock key block := Vector.zipWith (· ^^^ ·) key block
  decryptBlock key block := Vector.zipWith (· ^^^ ·) key block

/-- Adding the key twice changes nothing. -/
theorem xorAes_inverts : xorAes.Inverts := by
  intro key block
  apply Vector.ext
  intro i inside
  simp only [xorAes, Vector.getElem_zipWith]
  rw [← BitVec.xor_assoc, BitVec.xor_self, BitVec.zero_xor]

/-- An environment over the small group, with counters as sources of randomness. -/
def smallEnvironment : Environment where
  group := smallGroup
  shake256 := sumShake256
  tokenKey := ⟨1, by decide, by decide⟩
  keyKey := ⟨2, by decide, by decide⟩
  aes := xorAes
  sipHash key block := Vector.zipWith (· ^^^ ·) key block
  random := ⟨fun index => BitVec.ofNat 64 index⟩
  randomTokens index := Vector.replicate _ (BitVec.ofNat 8 index)
  randomBlocks index := Vector.replicate _ (BitVec.ofNat 8 index)
  tokenScalars _ := ⟨5, by decide, by decide⟩
  keyScalars _ := ⟨7, by decide, by decide⟩

/-- Two keywords that hash. -/
def smallKeywords : List (List Byte) := [literalBytes "keyword/1/0", literalBytes "keyword/1/1"]

/-- They have different tokens. -/
theorem smallKeywords_distinct : (smallKeywords.map smallEnvironment.directToken).Nodup :=
  Environment.nodup_directToken (by decide +kernel)

/-- The run for them, with two documents each. -/
theorem run_end_to_end_small :
    ∃ index : Environment.Index (tableBins smallKeywords.length),
      smallEnvironment.setup 2 smallKeywords 3 = some (.ok index) ∧
      (∀ bin, index.table.occupied.get bin = true) ∧
      Function.Injective index.table.bins.get ∧
      (∀ token, (∃ bin, index.table.bins.get bin = token) ↔
        ∃ labels, index.encryptedData token = some labels) ∧
      (∀ token labels, index.encryptedData token = some labels → labels.length = 2) ∧
      (∀ (k : Nat) (inside : k < smallKeywords.length)
        (tokenScalar keyScalar : SecretKey smallEnvironment.group.toPublicParameters),
        smallEnvironment.query 2 index k smallKeywords[k]
            (prepareBlind smallEnvironment.group.toPublicParameters tokenScalar.scalar)
            (prepareBlind smallEnvironment.group.toPublicParameters keyScalar.scalar) =
          some (.ok ((List.range 2).map fun j => BitVec.ofNat 64 (k * 2 + j + 1)))) ∧
      ∀ queries ≤ smallKeywords.length, smallEnvironment.run 2 smallKeywords queries 3 =
        some (.ok (index, ⟨queries, queries * 2⟩)) := by
  have completes : (smallEnvironment.setup 2 smallKeywords 3).any
      (fun ending => ending.toOption.any fun _ => true) = true := by
    decide +kernel
  obtain ⟨index, ended, -⟩ := exists_of_any completes
  exact ⟨index, ended, Environment.run_end_to_end xorAes_inverts smallKeywords_distinct ended⟩

end Vlse.Lse
