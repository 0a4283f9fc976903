import Vlse.Lse.RunSpec
/-!
# How a run of the LSE protocol ends

When the keywords hash, a run throws at a keyword that the table refuses or returns with one success
for each query, as long as the random tokens are diverse enough to find new ones. A table or a label
list longer than a vector can be ends it with `std::length_error` instead. A table takes a keyword
only in one of its bins, so keywords that share too few bins are refused whatever the random choices
are.
-/

namespace Vlse.Lse

open ByteBits Vlse.Filter Oprf Protocol

/-! ## Room in the table -/

section Room

variable {binCount : Nat} {position : OprfOutput → Fin 3 → Fin binCount}
  {table : CuckooTable binCount} {held : Multiset OprfOutput}

/-- Stored tokens whose positions are among some bins are at most as many as the bins. -/
theorem Accounts.card_filter_le (account : Accounts position table held)
    {bins : Finset (Fin binCount)} {tokens : Finset OprfOutput}
    (inside : ∀ token ∈ tokens, ∀ hash, position token hash ∈ bins) :
    (held.filter (· ∈ tokens)).card ≤ bins.card := by
  rw [← account.stored, storedTokens, ← Nat.one_mul bins.card]
  refine card_filter_spread_le _ _ _ (fun bin => ?_) fun bin token listed chosen => ?_
  · unfold cells
    split
    · exact (Multiset.card_singleton _).le
    · exact Nat.zero_le 1
  · unfold cells at listed
    split at listed
    · rename_i occupied
      obtain ⟨hash, own⟩ := account.placed bin occupied
      rw [← own, ← Multiset.mem_singleton.mp listed]
      exact inside token chosen hash
    · exact absurd listed (Multiset.notMem_zero token)

end Room

namespace Environment

variable {env : Environment} {dmax limit keywordCount : Nat} {keywords : List (List Byte)}

/-! ## The keywords -/

/-- The token of a keyword whose evaluation returns one. -/
def tokenOf (env : Environment) (keyword : List Byte) : OprfOutput :=
  match env.directToken keyword with
  | some (.ok token) => token
  | _ => Vector.replicate _ 0

/-- The table for some keywords or a list of `dmax` labels is longer than a vector can be. -/
def TooLong (keywordCount dmax : Nat) : Prop :=
  BeyondMaxSize (tableBins keywordCount) groupElementBytes ∨ BeyondMaxSize dmax 16

instance (keywordCount dmax : Nat) : Decidable (TooLong keywordCount dmax) :=
  instDecidableOr

/-- What the loop throws at a keyword that the table refuses. -/
def insertionFailed (i : Nat) : Fault :=
  .runtimeError ("LSE cuckoo insertion failed at item " ++ toString i)

/-- A loop over keywords that returns has stored their tokens. -/
theorem insertKeywords_account {i : Nat} {state after : SetupState (tableBins keywordCount)}
    {held : Multiset OprfOutput} (account : Accounts (env.positions keywordCount) state.table held)
    (returned : env.insertKeywords dmax keywords i state = some (.ok (), after)) :
    Accounts (env.positions keywordCount) after.table
      ((keywords.map env.tokenOf : List OprfOutput) + held) := by
  induction keywords generalizing i state held with
  | nil =>
    cases returned
    rw [List.map_nil, Multiset.coe_nil, zero_add]
    exact account
  | cons keyword keywords ih =>
    rw [insertKeywords] at returned
    obtain ⟨done, between, first, later⟩ := Callback.bind_eq_ok returned
    obtain ⟨record, ⟨output, directed, -⟩, -, inserted⟩ := insertKeyword_ok first
    have token : env.tokenOf keyword = record.1 := by rw [tokenOf, directed]
    have step := account.insert record.1
    rw [inserted] at step
    cases step with
    | stored placed =>
      have rest := ih placed later
      rw [← token, Multiset.add_cons, ← Multiset.cons_add] at rest
      exact rest

/-- A turn for a keyword whose evaluations return stores its record or throws. -/
theorem insertKeyword_eq (i : Nat) (short : ¬ BeyondMaxSize dmax 16) {keyword : List Byte}
    {token output : OprfOutput} (state : SetupState (tableBins keywordCount))
    (directed : env.directToken keyword = some (.ok token))
    (keyed : env.directKey keyword = some (.ok output)) :
    env.insertKeyword dmax i keyword state =
      some (if (insert (env.positions keywordCount) token state.table).1 then .ok ()
          else .error (insertionFailed i),
        { table := (insert (env.positions keywordCount) token state.table).2
          encryptedData := state.encryptedData.emplace token
            (env.keywordLabels dmax (lseAesKey output) i) }) := by
  unfold insertKeyword
  rw [directed, keyed]
  simp only [Callback.bind, Callback.lift, Option.map_some]
  rw [if_neg short]
  generalize insert (env.positions keywordCount) token state.table = ended
  obtain ⟨accepted, table⟩ := ended
  cases accepted with
  | true => rfl
  | false => rfl

/-- When the keywords hash, the loop returns or throws at one that is refused. -/
theorem insertKeywords_ends (short : ¬ BeyondMaxSize dmax 16)
    (hash : ∀ keyword ∈ keywords,
      (hashToGroup env.group.toPublicParameters env.shake256 keyword).isSome)
    (i : Nat) (state : SetupState (tableBins keywordCount)) :
    (∃ after, env.insertKeywords dmax keywords i state = some (.ok (), after)) ∨
      ∃ k after, k < i + keywords.length ∧
        env.insertKeywords dmax keywords i state = some (.error (insertionFailed k), after) := by
  induction keywords generalizing i state with
  | nil => exact .inl ⟨state, rfl⟩
  | cons keyword keywords ih =>
    obtain ⟨element, hashed⟩ := Option.isSome_iff_exists.mp (hash keyword List.mem_cons_self)
    obtain ⟨token, directed, -⟩ := directEvaluate_ok env.tokenKey hashed
    obtain ⟨output, keyed, -⟩ := directEvaluate_ok env.keyKey hashed
    have turn := insertKeyword_eq i short state directed keyed
    rw [insertKeywords]
    split at turn
    · rename_i after accepted
      have later := fun other inside => hash other (List.mem_cons_of_mem keyword inside)
      rcases ih later (i + 1) _ with ⟨ended, rest⟩ | ⟨k, ended, below, rest⟩
      · exact .inl ⟨ended, (Callback.bind_of_ok turn).trans rest⟩
      · refine .inr ⟨k, ended, ?_, (Callback.bind_of_ok turn).trans rest⟩
        rw [List.length_cons]
        omega
    · refine .inr ⟨i, _, ?_, Callback.bind_of_error turn⟩
      rw [List.length_cons]
      omega

/-- A turn for labels beyond `max_size` throws when it reserves them. -/
theorem insertKeyword_long (i : Nat) (long : BeyondMaxSize dmax 16) {keyword : List Byte}
    (hash : (hashToGroup env.group.toPublicParameters env.shake256 keyword).isSome)
    (state : SetupState (tableBins keywordCount)) :
    env.insertKeyword dmax i keyword state = some (.error .lengthError, state) := by
  obtain ⟨element, hashed⟩ := Option.isSome_iff_exists.mp hash
  obtain ⟨token, directed, -⟩ := directEvaluate_ok env.tokenKey hashed
  obtain ⟨output, keyed, -⟩ := directEvaluate_ok env.keyKey hashed
  unfold insertKeyword directToken directKey
  rw [directed, keyed]
  simp only [Callback.bind, Callback.lift, Option.map_some]
  rw [if_pos long]

/-! ## The dummies -/

/-- Draws in a row do not all fall among fewer tokens than there are bins. -/
def Diverse (env : Environment) (binCount limit : Nat) : Prop :=
  ∀ (start : Nat) (known : Finset OprfOutput), known.card < binCount →
    ∃ draw < limit, env.randomTokens (start + draw) ∉ known

/-- A token is drawn when one of the next draws is new to the map. -/
theorem drawToken_ends {state : DummyState}
    (fresh : ∃ draw < limit,
      state.encryptedData (env.randomTokens (state.tokensDrawn + draw)) = none) :
    ∃ token after, env.drawToken limit state = some (.ok token, after) := by
  induction limit generalizing state with
  | zero =>
    obtain ⟨draw, below, -⟩ := fresh
    omega
  | succ limit ih =>
    rw [drawToken]
    dsimp only
    split
    · rename_i known
      apply ih
      obtain ⟨draw, below, unknown⟩ := fresh
      cases draw with
      | zero =>
        rw [Nat.add_zero] at unknown
        rw [unknown] at known
        contradiction
      | succ draw =>
        refine ⟨draw, by omega, ?_⟩
        dsimp only
        rw [Nat.add_assoc, Nat.add_comm 1 draw]
        exact unknown
    · exact ⟨_, _, rfl⟩

/-- So is one while the map knows fewer tokens than there are bins. -/
theorem drawToken_returns {binCount : Nat} (diverse : env.Diverse binCount limit)
    {state : DummyState} {records : Multiset (OprfOutput × LabelList)}
    (catalogue : Catalogue dmax state.encryptedData records) (few : records.card < binCount) :
    ∃ token after, env.drawToken limit state = some (.ok token, after) := by
  have known : (records.map Prod.fst).toFinset.card < binCount := by
    have most := Multiset.toFinset_card_le (records.map Prod.fst)
    rw [Multiset.card_map] at most
    omega
  obtain ⟨draw, below, new⟩ := diverse state.tokensDrawn _ known
  have unknown : state.encryptedData (env.randomTokens (state.tokensDrawn + draw)) = none := by
    by_contra listed
    apply new
    rw [Multiset.mem_toFinset, catalogue.mem_tokens]
    exact Option.ne_none_iff_exists'.mp listed
  exact drawToken_ends ⟨draw, below, unknown⟩

/-- A dummy of short labels follows. -/
theorem dummyToken_ends (short : ¬ BeyondMaxSize dmax 16) {state after : DummyState}
    {token : OprfOutput} (drawn : env.drawToken limit state = some (.ok token, after)) :
    ∃ between, env.dummyToken dmax limit state = some (.ok token, between) :=
  ⟨_, (Callback.bind_of_ok drawn).trans (if_neg short)⟩

/-- A dummy of labels beyond `max_size` throws when it allocates them. -/
theorem dummyToken_long (long : BeyondMaxSize dmax 16) {state after : DummyState}
    {token : OprfOutput} (drawn : env.drawToken limit state = some (.ok token, after)) :
    env.dummyToken dmax limit state = some (.error .lengthError, after) :=
  (Callback.bind_of_ok drawn).trans (if_pos long)

/-- Filling the bins of a table ends. -/
theorem fillEmpty_ends {bins : List (Fin (tableBins keywordCount))}
    (short : ¬ BeyondMaxSize dmax 16) (diverse : env.Diverse (tableBins keywordCount) limit)
    {table : CuckooTable (tableBins keywordCount)} {filled : Nat} {state : DummyState}
    {records : Multiset (OprfOutput × LabelList)}
    (catalogue : Catalogue dmax state.encryptedData records)
    (stored : storedTokens table = records.map Prod.fst) :
    ∃ returned ended, fillEmpty (env.dummyToken dmax limit) bins table filled state =
      some (.ok returned, ended) := by
  induction bins generalizing table filled state records with
  | nil => exact ⟨_, _, rfl⟩
  | cons bin bins ih =>
    rw [fillEmpty]
    split
    · exact ih catalogue stored
    · rename_i occupied
      have free := Bool.eq_false_iff.mpr occupied
      have few : records.card < tableBins keywordCount := by
        have taken := card_storedTokens table
        rw [stored, Multiset.card_map] at taken
        have outside : bin ∉ Finset.univ.filter fun bin => table.occupied.get bin = true := by
          simp [free]
        have room := Finset.card_lt_univ_of_notMem outside
        rw [Fintype.card_fin] at room
        omega
      obtain ⟨token, after, drawn⟩ := drawToken_returns diverse catalogue few
      obtain ⟨between, generated⟩ := dummyToken_ends short drawn
      obtain ⟨labels, grown⟩ := dummyToken_ok catalogue generated
      have takes : Takes table bin token (occupy (setBin table bin token) bin) :=
        takes_of_set rfl rfl
      have storedNow := takes.storedTokens_of_free free
      rw [stored, ← Multiset.map_cons Prod.fst (token, labels)] at storedNow
      rw [Callback.bind_of_ok generated]
      exact ih grown storedNow

/-! ## The run -/

/-- Keywords that share few bins are few, when the loop over all keywords returns. -/
theorem insertKeywords_room {state after : SetupState (tableBins keywordCount)} {i : Nat}
    (account : Accounts (env.positions keywordCount) state.table 0)
    (returned : env.insertKeywords dmax keywords i state = some (.ok (), after))
    {chosen : List (List Byte)} (among : chosen.Sublist keywords)
    {bins : Finset (Fin (tableBins keywordCount))}
    (confined : ∀ keyword ∈ chosen, ∀ hash,
      env.positions keywordCount (env.tokenOf keyword) hash ∈ bins) :
    chosen.length ≤ bins.card := by
  have stored := insertKeywords_account account returned
  rw [add_zero] at stored
  have inside : ∀ token ∈ (chosen.map env.tokenOf).toFinset, ∀ hash,
      env.positions keywordCount token hash ∈ bins := by
    intro token listed
    obtain ⟨keyword, member, rfl⟩ := List.mem_map.mp (List.mem_toFinset.mp listed)
    exact confined keyword member
  calc chosen.length
      = ((chosen.map env.tokenOf).filter (· ∈ (chosen.map env.tokenOf).toFinset)).length := by
        rw [List.filter_eq_self.mpr fun token listed => by simpa using listed, List.length_map]
    _ ≤ ((keywords.map env.tokenOf).filter (· ∈ (chosen.map env.tokenOf).toFinset)).length :=
        ((among.map env.tokenOf).filter _).length_le
    _ ≤ bins.card := stored.card_filter_le inside

/-- A Setup for a keyword that hashes throws before it is inserted where a vector is too long. -/
theorem setup_long_cons {keyword : List Byte}
    (hash : (hashToGroup env.group.toPublicParameters env.shake256 keyword).isSome)
    (tooLong : TooLong (keyword :: keywords).length dmax) :
    env.setup dmax (keyword :: keywords) limit = some (.error .lengthError) := by
  unfold setup
  split
  · rfl
  · rename_i room
    have turn := insertKeyword_long 0 (tooLong.resolve_left room) hash
      ⟨construct (keyword :: keywords).length env.random, fun _ => none⟩
    rw [insertKeywords, Callback.bind_of_error turn]

/-- Without keywords it throws at the first dummy. -/
theorem setup_long_nil (diverse : env.Diverse (tableBins ([] : List (List Byte)).length) limit)
    (tooLong : TooLong ([] : List (List Byte)).length dmax) :
    env.setup dmax [] limit = some (.error .lengthError) := by
  have bins : List.finRange (tableBins ([] : List (List Byte)).length) = [⟨0, by decide⟩] := by
    decide
  have long : BeyondMaxSize dmax 16 := tooLong.resolve_left (by decide)
  have returns : ∃ token after, env.drawToken limit ⟨fun _ => none, 0, 0⟩ =
      some (.ok token, after) := drawToken_returns diverse (catalogue_empty dmax) (by decide)
  obtain ⟨token, after, drawn⟩ := returns
  have threw := dummyToken_long long drawn
  have filled : fillEmpty (env.dummyToken dmax limit)
      (List.finRange (tableBins ([] : List (List Byte)).length))
      (construct ([] : List (List Byte)).length env.random) 0 ⟨fun _ => none, 0, 0⟩ =
        some (.error .lengthError, after) := by
    rw [bins]
    exact Callback.bind_of_error threw
  have room : ¬ BeyondMaxSize (tableBins ([] : List (List Byte)).length) groupElementBytes := by
    decide
  rw [setup, if_neg room]
  dsimp only [insertKeywords, Callback.pure]
  rw [filled]

/-- Where a vector is too long, Setup throws before it has built anything. -/
theorem setup_long
    (hash : ∀ keyword ∈ keywords,
      (hashToGroup env.group.toPublicParameters env.shake256 keyword).isSome)
    (diverse : env.Diverse (tableBins keywords.length) limit)
    (tooLong : TooLong keywords.length dmax) :
    env.setup dmax keywords limit = some (.error .lengthError) := by
  cases keywords with
  | nil => exact setup_long_nil diverse tooLong
  | cons keyword keywords => exact setup_long_cons (hash keyword List.mem_cons_self) tooLong

/-- When the keywords hash to distinct tokens and random tokens are diverse, Setup of what fits
returns or throws at a keyword that the table refuses. -/
theorem setup_ends (fits : ¬ TooLong keywords.length dmax)
    (hash : ∀ keyword ∈ keywords,
      (hashToGroup env.group.toPublicParameters env.shake256 keyword).isSome)
    (distinct : (keywords.map env.directToken).Nodup)
    (diverse : env.Diverse (tableBins keywords.length) limit) :
    (∃ k < keywords.length,
      env.setup dmax keywords limit = some (.error (insertionFailed k))) ∨
      ∃ index, env.setup dmax keywords limit = some (.ok index) := by
  obtain ⟨room, short⟩ := not_or.mp fits
  unfold setup
  rw [if_neg room]
  rcases insertKeywords_ends short hash 0
      ⟨construct keywords.length env.random, fun _ => none⟩ with
    ⟨state, inserted⟩ | ⟨k, state, below, threw⟩
  · obtain ⟨added, -, catalogue, account⟩ := insertKeywords_ok (catalogue_empty dmax)
      (accounts_construct _ _ _) distinct (fun _ _ _ nothing => absurd nothing (by simp)) inserted
    obtain ⟨⟨table, dummies⟩, ended, filled⟩ :=
      @fillEmpty_ends env dmax limit _ (List.finRange _) short diverse _ 0
        ⟨state.encryptedData, 0, 0⟩ _ catalogue account.stored
    refine .inr ⟨⟨table, ended.encryptedData, dummies⟩, ?_⟩
    rw [inserted]
    dsimp only
    rw [filled]
  · rw [Nat.zero_add] at below
    refine .inl ⟨k, below, ?_⟩
    rw [threw]

/-- A run for keywords that hash to distinct tokens, with diverse random tokens, throws
`std::length_error` exactly where the table or a label list is longer than a vector can be.
Elsewhere it throws at a keyword that the table refuses or returns: with every bin filled, one
success for each query and one decryption for each of its components. -/
theorem run_ends (dmax : Nat) (inverts : env.aes.Inverts)
    (hash : ∀ keyword ∈ keywords,
      (hashToGroup env.group.toPublicParameters env.shake256 keyword).isSome)
    (distinct : (keywords.map env.directToken).Nodup)
    (diverse : env.Diverse (tableBins keywords.length) limit) {queries : Nat}
    (few : queries ≤ keywords.length) :
    (TooLong keywords.length dmax ∧
      env.run dmax keywords queries limit = some (.error .lengthError)) ∨
    ¬ TooLong keywords.length dmax ∧
    ((∃ k < keywords.length,
      env.run dmax keywords queries limit = some (.error (insertionFailed k))) ∨
      ∃ index : Index (tableBins keywords.length),
        env.run dmax keywords queries limit = some (.ok (index, ⟨queries, queries * dmax⟩)) ∧
        (∀ bin, index.table.occupied.get bin = true) ∧
        keywords.length + index.dummies = tableBins keywords.length) := by
  by_cases tooLong : TooLong keywords.length dmax
  · refine .inl ⟨tooLong, ?_⟩
    rw [run, setup_long hash diverse tooLong]
  · refine .inr ⟨tooLong, ?_⟩
    rcases setup_ends tooLong hash distinct diverse with ⟨k, below, threw⟩ | ⟨index, completed⟩
    · refine .inl ⟨k, below, ?_⟩
      rw [run, threw]
    · obtain ⟨records, complete⟩ := setup_complete distinct completed
      refine .inr ⟨index, ?_, complete.full, setup_total completed⟩
      have taken : (keywords.take queries).length = queries := by
        rw [List.length_take, Nat.min_eq_left few]
      have answered := complete.queryLoop inverts (keywords.take queries) 0 {} (by simp)
      rw [taken, Nat.zero_add, Nat.zero_add] at answered
      rw [run, completed]
      dsimp only
      rw [answered]
      rfl

/-- Keywords that share fewer bins than they are make every run throw, whatever the engine of the
table chooses: at a keyword, unless a vector is too long before. -/
theorem run_crowded (dmax limit queries : Nat)
    (hash : ∀ keyword ∈ keywords,
      (hashToGroup env.group.toPublicParameters env.shake256 keyword).isSome)
    {chosen : List (List Byte)} (among : chosen.Sublist keywords)
    {bins : Finset (Fin (tableBins keywords.length))}
    (confined : ∀ keyword ∈ chosen, ∀ hash,
      env.positions keywords.length (env.tokenOf keyword) hash ∈ bins)
    (crowded : bins.card < chosen.length) :
    (TooLong keywords.length dmax ∧
      env.run dmax keywords queries limit = some (.error .lengthError)) ∨
    ¬ TooLong keywords.length dmax ∧ ∃ k < keywords.length,
      env.run dmax keywords queries limit = some (.error (insertionFailed k)) := by
  by_cases tooLong : TooLong keywords.length dmax
  · refine .inl ⟨tooLong, ?_⟩
    cases keywords with
    | nil =>
      rw [List.sublist_nil.mp among] at crowded
      contradiction
    | cons keyword keywords =>
      rw [run, setup_long_cons (hash keyword List.mem_cons_self) tooLong]
  · obtain ⟨room, short⟩ := not_or.mp tooLong
    refine .inr ⟨tooLong, ?_⟩
    rcases insertKeywords_ends short hash 0
        ⟨construct keywords.length env.random, fun _ => none⟩ with
      ⟨state, inserted⟩ | ⟨k, state, below, threw⟩
    · have few := insertKeywords_room (accounts_construct _ _ _) inserted among confined
      omega
    · rw [Nat.zero_add] at below
      refine ⟨k, below, ?_⟩
      rw [run, setup, if_neg room, threw]

end Environment

/-! ## Small runs -/

/-- The counter of the small environment gives different tokens up to its period. -/
theorem smallEnvironment_diverse {binCount : Nat} (small : binCount ≤ 256) :
    smallEnvironment.Diverse binCount binCount := by
  intro start known few
  by_contra none
  push Not at none
  have separate : Set.InjOn (fun draw => smallEnvironment.randomTokens (start + draw))
      (Finset.range binCount) := by
    intro first inFirst second inSecond same
    have words := congrArg (fun token : OprfOutput => (token.get ⟨0, by decide⟩).toNat) same
    have read : ∀ index, ((smallEnvironment.randomTokens index).get ⟨0, by decide⟩).toNat =
        index % 256 := fun index => rfl
    dsimp only at words
    rw [read, read] at words
    have below := List.mem_range.mp inFirst
    have other := List.mem_range.mp inSecond
    omega
  have most := Finset.card_le_card_of_injOn _ (fun draw inside => none draw
    (Finset.mem_range.mp inside)) separate
  rw [Finset.card_range] at most
  omega

/-- The small keywords hash. -/
theorem smallKeywords_hash : ∀ keyword ∈ smallKeywords,
    (hashToGroup smallEnvironment.group.toPublicParameters smallEnvironment.shake256
      keyword).isSome := by
  decide +kernel

/-- The run for them, with two documents each and one query. -/
theorem run_ends_small :
    (∃ k < smallKeywords.length, smallEnvironment.run 2 smallKeywords 1 3 =
      some (.error (Environment.insertionFailed k))) ∨
      ∃ index : Environment.Index (tableBins smallKeywords.length),
        smallEnvironment.run 2 smallKeywords 1 3 = some (.ok (index, ⟨1, 1 * 2⟩)) ∧
        (∀ bin, index.table.occupied.get bin = true) ∧
        smallKeywords.length + index.dummies = tableBins smallKeywords.length := by
  have ended := Environment.run_ends 2 xorAes_inverts smallKeywords_hash smallKeywords_distinct
    (smallEnvironment_diverse (by decide)) (Nat.succ_le_succ (Nat.zero_le 1))
  exact (ended.resolve_left fun long => absurd long.1 (by decide)).2

/-- An environment in which every digest is zero. -/
def zeroEnvironment : Environment :=
  { smallEnvironment with sipHash := fun _ _ => Vector.replicate 16 0 }

/-- In it the two keywords share a bin. -/
theorem run_crowded_small :
    ∃ k < smallKeywords.length, zeroEnvironment.run 2 smallKeywords 1 3 =
      some (.error (Environment.insertionFailed k)) := by
  have crowded : ({⟨0, by decide⟩} : Finset (Fin (tableBins smallKeywords.length))).card <
      smallKeywords.length := by
    decide
  have digest : (load 64 (Vector.replicate 16 0 : Bytes 16) 0 8 : Word) = 0 := by
    decide
  have confined : ∀ keyword ∈ smallKeywords, ∀ hash,
      zeroEnvironment.positions smallKeywords.length (zeroEnvironment.tokenOf keyword) hash ∈
        ({⟨0, by decide⟩} : Finset (Fin (tableBins smallKeywords.length))) := by
    intro keyword _ hash
    refine Finset.mem_singleton.mpr (Fin.ext ?_)
    change (load 64 (Vector.replicate 16 0 : Bytes 16) 0 8 : Word).toNat % _ = 0
    rw [digest]
    rfl
  have ended := @Environment.run_crowded zeroEnvironment _ 2 3 1 smallKeywords_hash _
    (List.Sublist.refl smallKeywords) _ confined crowded
  exact (ended.resolve_left fun long => absurd long.1 (by decide)).2

end Vlse.Lse
