import Vlse.Filter.Insert
import Vlse.Foundation.Callback
import Vlse.Foundation.Placement
import Vlse.Oprf.Encoding
/-!
# The cuckoo table of LSE

`Insert` puts a token in a free bin among its three positions or takes the place of the token in
one of them, chosen at random, and goes on with the token displaced; after 1500 displacements it
gives up and drops the token it carries. `Find` looks at the three positions of a token. Whatever
the positions and the random choices, a call adds the token offered to those stored and drops
exactly one when it returns false.
-/

namespace Vlse.Lse

open ByteBits Vlse.Filter Oprf

/-! ## The table -/

/-- `CuckooTable::Statistics`. Its counters have 64 bits in the source and no bound here, so they
agree up to `2 ^ 64` counts. -/
structure Statistics where
  /-- `successful_inserts`. -/
  successfulInserts : Nat := 0
  /-- `failed_inserts`. -/
  failedInserts : Nat := 0
  /-- `relocation_steps`. -/
  relocationSteps : Nat := 0
  /-- `maximum_relocation_chain`. -/
  maximumRelocationChain : Nat := 0
deriving DecidableEq

/-- `CuckooTable`. -/
structure CuckooTable (binCount : Nat) where
  /-- `bins_`. -/
  bins : Vector OprfOutput binCount
  /-- `occupied_`. -/
  occupied : Vector Bool binCount
  /-- `random_`. -/
  random : RandomEngine
  /-- `statistics_`. -/
  statistics : Statistics

/-- The number of bins, computed in 64-bit arithmetic. -/
def tableBins (keywordCount : Nat) : Nat := max 1 ((keywordCount * 3 + 1) % 2 ^ 64 / 2)

/-- The constructor of `CuckooTable`, over `std::mt19937_64` for the seed. -/
def construct (keywordCount : Nat) (random : RandomEngine) :
    CuckooTable (tableBins keywordCount) where
  bins := Vector.replicate _ (Vector.replicate _ 0)
  occupied := Vector.replicate _ false
  random
  statistics := {}

/-- SipHash-2-4 with a 128-bit digest, under a key. -/
abbrev SipHash := Bytes 16 → Bytes 16 → Bytes 16

/-- `Low128LittleEndian`. -/
def low128LittleEndian (token : OprfOutput) : Bytes 16 :=
  Vector.ofFn fun i : Fin 16 => byteAt token (groupElementBytes - 1 - i.val)

/-- The key of `Position`: its literal with the terminating zero, and the hash index in place of
the second byte. -/
def positionKey (hashIndex : Nat) : Bytes 16 :=
  let literal := literalBytes "123456123456123" ++ [0]
  let key : Bytes 16 := Vector.ofFn fun i : Fin 16 => literal.getD i.val 0
  key.setIfInBounds 1 (BitVec.ofNat 8 ((hashIndex + 48) % 128))

/-- `Position`. -/
def position (sipHash : SipHash) {binCount : Nat} (positive : 0 < binCount) (token : OprfOutput)
    (hashIndex : Fin 3) : Fin binCount :=
  let digest := sipHash (positionKey hashIndex.val) (low128LittleEndian token)
  let value : Word := load 64 digest 0 8
  ⟨value.toNat % binCount, Nat.mod_lt _ positive⟩

variable {binCount : Nat} (position : OprfOutput → Fin 3 → Fin binCount)

/-- The first free bin among the positions of a token. -/
def freePosition (table : CuckooTable binCount) (token : OprfOutput) : Option (Fin binCount) :=
  ((List.finRange 3).map (position token)).find? fun bin => !table.occupied.get bin

/-- `bins_[bin] = token`. -/
def setBin (table : CuckooTable binCount) (bin : Fin binCount) (token : OprfOutput) :
    CuckooTable binCount :=
  { table with bins := table.bins.set bin.val token bin.isLt }

/-- `occupied_[bin] = true`. -/
def occupy (table : CuckooTable binCount) (bin : Fin binCount) : CuckooTable binCount :=
  { table with occupied := table.occupied.set bin.val true bin.isLt }

/-- The relocations `Insert` makes before it gives up. -/
def maximumRelocations : Nat := 1500

/-- The loop of `Insert`, with the relocations still permitted and those already made. -/
def insertLoop : Nat → Nat → OprfOutput → CuckooTable binCount → Bool × CuckooTable binCount
  | 0, _, _, table =>
    (false, { table with statistics :=
      { table.statistics with
        failedInserts := table.statistics.failedInserts + 1
        relocationSteps := table.statistics.relocationSteps + maximumRelocations
        maximumRelocationChain :=
          max table.statistics.maximumRelocationChain maximumRelocations } })
  | remaining + 1, relocation, token, table =>
    match freePosition position table token with
    | some bin =>
      (true, { setBin (occupy table bin) bin token with statistics :=
        { table.statistics with
          successfulInserts := table.statistics.successfulInserts + 1
          relocationSteps := table.statistics.relocationSteps + relocation
          maximumRelocationChain := max table.statistics.maximumRelocationChain relocation } })
    | none =>
      let hash : Fin 3 := ⟨table.random.word.toNat % 3, Nat.mod_lt _ (by decide)⟩
      let bin := position token hash
      insertLoop remaining (relocation + 1) (table.bins.get bin)
        { setBin table bin token with random := table.random.advance }

/-- `Insert`. -/
def insert (token : OprfOutput) (table : CuckooTable binCount) : Bool × CuckooTable binCount :=
  insertLoop position maximumRelocations 0 token table

/-- `Find`: the bin its pointer points to, or none for `nullptr`. -/
def find (token : OprfOutput) (table : CuckooTable binCount) : Option (Fin binCount) :=
  ((List.finRange 3).map (position token)).find? fun bin =>
    table.occupied.get bin && table.bins.get bin = token

/-- `FillEmpty`: every free bin takes a token from the generator; the table with their number. -/
def fillEmpty {G E : Type*} (generator : Callback G E OprfOutput) :
    List (Fin binCount) → CuckooTable binCount → Nat → Callback G E (CuckooTable binCount × Nat)
  | [], table, filled => .pure (table, filled)
  | bin :: bins, table, filled =>
    if table.occupied.get bin then fillEmpty generator bins table filled
    else generator.bind fun token =>
      fillEmpty generator bins (occupy (setBin table bin token) bin) (filled + 1)

/-! ## What a table stores -/

/-- The token in a bin, if it is occupied. -/
def cells (table : CuckooTable binCount) (bin : Fin binCount) : Multiset OprfOutput :=
  if table.occupied.get bin then {table.bins.get bin} else 0

/-- The tokens in occupied bins. -/
def storedTokens (table : CuckooTable binCount) : Multiset OprfOutput :=
  spread (fun _ token => token) (cells table)

/-- The tokens stored are those of the occupied bins. -/
theorem mem_storedTokens {table : CuckooTable binCount} {token : OprfOutput} :
    token ∈ storedTokens table ↔
      ∃ bin, table.occupied.get bin = true ∧ table.bins.get bin = token := by
  simp only [storedTokens, spread, Multiset.map_id', Multiset.mem_sum, Finset.mem_univ, true_and]
  refine exists_congr fun bin => ?_
  unfold cells
  split
  · rename_i taken
    simp [taken, eq_comm]
  · rename_i empty
    simp [empty]

/-- The number of tokens stored is the number of occupied bins. -/
theorem card_storedTokens (table : CuckooTable binCount) :
    (storedTokens table).card =
      (Finset.univ.filter fun bin => table.occupied.get bin = true).card := by
  rw [storedTokens, card_spread, Finset.card_filter]
  refine Finset.sum_congr rfl fun bin _ => ?_
  unfold cells
  split
  · rfl
  · rfl

/-- When no token is stored twice, different occupied bins hold different tokens. -/
theorem bin_unique {table : CuckooTable binCount} (distinct : (storedTokens table).Nodup)
    {bin other : Fin binCount} (occupied : table.occupied.get bin = true)
    (otherOccupied : table.occupied.get other = true)
    (same : table.bins.get bin = table.bins.get other) : bin = other := by
  by_contra apart
  have split := Finset.add_sum_erase Finset.univ (cells table) (Finset.mem_univ bin)
  have total : storedTokens table = ∑ bin, cells table bin := by
    simp only [storedTokens, spread, Multiset.map_id']
  rw [total, ← split, Multiset.nodup_add] at distinct
  have here : table.bins.get bin ∈ cells table bin := by
    rw [cells, if_pos occupied]
    exact Multiset.mem_singleton_self _
  have there : table.bins.get bin ∈ ∑ bin ∈ Finset.univ.erase bin, cells table bin := by
    rw [Multiset.mem_sum]
    refine ⟨other, Finset.mem_erase.mpr ⟨Ne.symm apart, Finset.mem_univ other⟩, ?_⟩
    rw [cells, if_pos otherOccupied, same]
    exact Multiset.mem_singleton_self _
  exact Multiset.disjoint_left.mp distinct.2.2 here there

/-- The account of a table: the tokens it stores, each in one of its own positions, and counted. -/
structure Accounts (table : CuckooTable binCount) (held : Multiset OprfOutput) : Prop where
  /-- The occupied bins hold these tokens. -/
  stored : storedTokens table = held
  /-- Every stored token sits in one of its own positions. -/
  placed : ∀ bin, table.occupied.get bin = true → ∃ hash, position (table.bins.get bin) hash = bin
  /-- `successful_inserts` counts them. -/
  counted : table.statistics.successfulInserts = held.card

section Take

variable {position} {table after : CuckooTable binCount} {bin : Fin binCount} {token : OprfOutput}

/-- A table in which a bin was taken by a token. -/
structure Takes (table : CuckooTable binCount) (bin : Fin binCount) (token : OprfOutput)
    (after : CuckooTable binCount) : Prop where
  /-- The bin holds the token. -/
  stored : after.bins = table.bins.set bin.val token bin.isLt
  /-- It is occupied, and the other bins are as before. -/
  occupied : ∀ other,
    after.occupied.get other = (decide (bin = other) || table.occupied.get other)

/-- Writing a token to a bin and marking it occupied takes it. -/
theorem takes_of_set (stored : after.bins = table.bins.set bin.val token bin.isLt)
    (marked : after.occupied = table.occupied.set bin.val true bin.isLt) :
    Takes table bin token after where
  stored
  occupied other := by
    have written := get_set table.occupied bin other true
    rw [marked, written]
    by_cases same : bin = other
    · simp [same]
    · simp [same]

/-- The bin taken holds the token alone, and the other bins hold what they held. -/
theorem Takes.cells_eq (takes : Takes table bin token after) :
    cells after = Function.update (cells table) bin {token} := by
  funext other
  rw [cells, takes.stored, get_set, takes.occupied]
  by_cases same : bin = other
  · subst same
    simp
  · rw [Function.update_of_ne (Ne.symm same), cells]
    simp [same]

/-- The bin taken trades its content for the token. -/
theorem Takes.storedTokens_eq (takes : Takes table bin token after) :
    cells table bin + storedTokens after = token ::ₘ storedTokens table := by
  have traded := spread_update (fun _ token => token) (cells table) bin {token}
  rw [← takes.cells_eq, Multiset.map_id', Multiset.map_id'] at traded
  rw [add_comm, storedTokens, traded, storedTokens, add_comm, Multiset.singleton_add]

/-- Taking a free bin adds the token to those stored. -/
theorem Takes.storedTokens_of_free (takes : Takes table bin token after)
    (free : table.occupied.get bin = false) :
    storedTokens after = token ::ₘ storedTokens table := by
  have traded := takes.storedTokens_eq
  rw [cells, free, if_neg Bool.false_ne_true, zero_add] at traded
  exact traded

/-- When a token takes a position of its own, every stored token sits in one of its own. -/
theorem Takes.placed (takes : Takes table bin token after) {hash : Fin 3}
    (own : position token hash = bin)
    (placed : ∀ bin, table.occupied.get bin = true →
      ∃ hash, position (table.bins.get bin) hash = bin) (other : Fin binCount)
    (occupied : after.occupied.get other = true) :
    ∃ hash, position (after.bins.get other) hash = other := by
  rw [takes.stored, get_set]
  by_cases same : bin = other
  · rw [if_pos same, ← same]
    exact ⟨hash, own⟩
  · rw [takes.occupied, decide_eq_false same, Bool.false_or] at occupied
    rw [if_neg same]
    exact placed other occupied

end Take

/-! ## Insertion -/

section Insertion

variable {position} {table : CuckooTable binCount} {held : Multiset OprfOutput}
  {token : OprfOutput}

/-- How a call can end, given the tokens stored before with the one it was offered: all have a bin,
or one of them is left over. -/
inductive Inserted (position : OprfOutput → Fin 3 → Fin binCount)
    (offered : Multiset OprfOutput) : Bool × CuckooTable binCount → Prop
  /-- All have a bin. -/
  | stored {after : CuckooTable binCount} (account : Accounts position after offered) :
    Inserted position offered (true, after)
  /-- One is left over. -/
  | dropped {after : CuckooTable binCount} {leftOver : OprfOutput} {kept : Multiset OprfOutput}
    (conserved : leftOver ::ₘ kept = offered) (account : Accounts position after kept) :
    Inserted position offered (false, after)

/-- A free position is a position of the token and not occupied. -/
theorem freePosition_spec {bin : Fin binCount}
    (found : freePosition position table token = some bin) :
    (∃ hash, position token hash = bin) ∧ table.occupied.get bin = false := by
  have free := List.find?_some found
  have listed := List.mem_of_find?_eq_some found
  rw [List.mem_map] at listed
  have own : ∃ hash, position token hash = bin := listed.imp fun _ inside => inside.2
  exact ⟨own, by simpa using free⟩

/-- When none is free, every position of the token is occupied. -/
theorem occupied_of_freePosition (none : freePosition position table token = none) (hash : Fin 3) :
    table.occupied.get (position token hash) = true := by
  have listed : position token hash ∈ (List.finRange 3).map (position token) :=
    List.mem_map_of_mem (List.mem_finRange hash)
  have taken := List.find?_eq_none.mp none _ listed
  simpa using taken

/-- Storing a token in a free position adds it to the account. -/
theorem Accounts.place (account : Accounts position table held) {bin : Fin binCount}
    (found : freePosition position table token = some bin) {statistics : Statistics}
    (counted : statistics.successfulInserts = table.statistics.successfulInserts + 1) :
    Accounts position { setBin (occupy table bin) bin token with statistics }
      (token ::ₘ held) := by
  obtain ⟨⟨hash, own⟩, free⟩ := freePosition_spec found
  have takes : Takes table bin token { setBin (occupy table bin) bin token with statistics } :=
    takes_of_set rfl rfl
  exact {
    stored := by rw [takes.storedTokens_of_free free, account.stored]
    placed := takes.placed own account.placed
    counted := by rw [Multiset.card_cons, ← account.counted, counted] }

/-- Taking the place of a stored token trades it for the new one. -/
theorem Accounts.displace (account : Accounts position table held) {hash : Fin 3}
    (full : table.occupied.get (position token hash) = true) (random : RandomEngine) :
    ∃ kept, table.bins.get (position token hash) ::ₘ kept = token ::ₘ held ∧
      Accounts position { setBin table (position token hash) token with random } kept := by
  have takes : Takes table (position token hash) token
      { setBin table (position token hash) token with random } := by
    refine ⟨rfl, fun other => ?_⟩
    by_cases same : position token hash = other
    · rw [decide_eq_true same, Bool.true_or, ← same]
      exact full
    · rw [decide_eq_false same, Bool.false_or]
      rfl
  have traded := takes.storedTokens_eq
  rw [cells, if_pos full, Multiset.singleton_add, account.stored] at traded
  refine ⟨_, traded, rfl, takes.placed rfl account.placed, ?_⟩
  have sizes := congrArg Multiset.card traded
  rw [Multiset.card_cons, Multiset.card_cons] at sizes
  exact account.counted.trans (Nat.add_right_cancel sizes).symm

/-- The loop of a call keeps the account, whichever way it ends. -/
theorem insertLoop_inserted (account : Accounts position table held) (token : OprfOutput)
    (remaining relocation : Nat) :
    Inserted position (token ::ₘ held)
      (insertLoop position remaining relocation token table) := by
  induction remaining generalizing table held token relocation with
  | zero => exact .dropped rfl ⟨account.stored, account.placed, account.counted⟩
  | succ remaining ih =>
    rw [insertLoop]
    split
    · rename_i bin found
      exact .stored (account.place found rfl)
    · rename_i none
      have full := occupied_of_freePosition none
        ⟨table.random.word.toNat % 3, Nat.mod_lt _ (by decide)⟩
      obtain ⟨kept, traded, between⟩ := account.displace full table.random.advance
      -- the token displaced is carried on, so both tables with the token carried hold the same
      rw [← traded]
      exact ih between _ _

/-- `Insert` keeps the account, whichever way it ends. -/
theorem Accounts.insert (account : Accounts position table held) (token : OprfOutput) :
    Inserted position (token ::ₘ held) (insert position token table) :=
  insertLoop_inserted account token maximumRelocations 0

end Insertion

/-! ## Lookup -/

/-- A bin that `Find` returns is occupied and holds the token. -/
theorem find_some {table : CuckooTable binCount} {token : OprfOutput} {bin : Fin binCount}
    (found : find position token table = some bin) :
    table.occupied.get bin = true ∧ table.bins.get bin = token := by
  have hit := List.find?_some found
  simpa using hit

/-- A token that `Find` finds is still found where its bin is kept. -/
theorem find_of_kept {table after : CuckooTable binCount} {token : OprfOutput}
    {bin : Fin binCount} (found : find position token table = some bin)
    (occupied : after.occupied.get bin = true)
    (same : after.bins.get bin = table.bins.get bin) :
    ∃ other, find position token after = some other := by
  have held := (find_some position found).2
  have listed := List.mem_of_find?_eq_some found
  rw [← Option.isSome_iff_exists, find, List.find?_isSome]
  exact ⟨bin, listed, by simp [occupied, same, held]⟩

/-- `Find` finds exactly the tokens stored. -/
theorem Accounts.find_iff {position : OprfOutput → Fin 3 → Fin binCount}
    {table : CuckooTable binCount} {held : Multiset OprfOutput}
    (account : Accounts position table held) (token : OprfOutput) :
    (∃ bin, find position token table = some bin) ↔ token ∈ held := by
  rw [← account.stored, mem_storedTokens]
  constructor
  · rintro ⟨bin, found⟩
    exact ⟨bin, find_some position found⟩
  · rintro ⟨bin, occupied, rfl⟩
    obtain ⟨hash, own⟩ := account.placed bin occupied
    have listed : bin ∈ (List.finRange 3).map (position (table.bins.get bin)) :=
      List.mem_map.mpr ⟨hash, List.mem_finRange hash, own⟩
    rw [← Option.isSome_iff_exists, find, List.find?_isSome]
    exact ⟨bin, listed, by simp [occupied]⟩

/-! ## Runs -/

/-- A run of `Insert` calls: what they returned, and the table reached. -/
def runInserts : List OprfOutput → CuckooTable binCount → List Bool × CuckooTable binCount
  | [], table => ([], table)
  | token :: tokens, table =>
    let ended := insert position token table
    let rest := runInserts tokens ended.2
    (ended.1 :: rest.1, rest.2)

/-- The constructor leaves every bin free. -/
theorem free_construct (keywordCount : Nat) (random : RandomEngine)
    (bin : Fin (tableBins keywordCount)) :
    (construct keywordCount random).occupied.get bin = false :=
  Vector.getElem_replicate bin.isLt

/-- The constructor leaves an empty account. -/
theorem accounts_construct (keywordCount : Nat) (random : RandomEngine)
    (position : OprfOutput → Fin 3 → Fin (tableBins keywordCount)) :
    Accounts position (construct keywordCount random) 0 where
  stored := by
    refine Multiset.eq_zero_of_forall_notMem fun token inside => ?_
    obtain ⟨bin, occupied, -⟩ := mem_storedTokens.mp inside
    rw [free_construct] at occupied
    contradiction
  placed := by
    intro bin occupied
    rw [free_construct] at occupied
    contradiction
  counted := rfl

/-- A run keeps the account: it adds the tokens offered and drops one for each call that returned
false. -/
theorem Accounts.runInserts {position : OprfOutput → Fin 3 → Fin binCount}
    {table : CuckooTable binCount} {held : Multiset OprfOutput}
    (account : Accounts position table held) (tokens : List OprfOutput) :
    ∃ dropped kept : Multiset OprfOutput,
      dropped.card = (runInserts position tokens table).1.count false ∧
      kept + dropped = tokens + held ∧
      Accounts position (runInserts position tokens table).2 kept := by
  induction tokens generalizing table held with
  | nil => exact ⟨0, held, rfl, by simp, account⟩
  | cons token tokens ih =>
    have step := account.insert token
    rw [Lse.runInserts]
    generalize Lse.insert position token table = ended at step ⊢
    cases step with
    | stored between =>
      obtain ⟨dropped, kept, counted, conserved, after⟩ := ih between
      refine ⟨dropped, kept, ?_, ?_, after⟩
      · rw [counted, List.count_cons_of_ne Bool.false_ne_true.symm]
      · rw [conserved, ← Multiset.cons_coe, Multiset.add_cons, Multiset.cons_add]
    | @dropped later leftOver keptHere conservedHere between =>
      obtain ⟨dropped, kept, counted, conserved, after⟩ := ih between
      refine ⟨leftOver ::ₘ dropped, kept, ?_, ?_, after⟩
      · rw [Multiset.card_cons, counted, List.count_cons_self]
      · rw [Multiset.add_cons, conserved, ← Multiset.add_cons, conservedHere, ← Multiset.cons_coe,
          Multiset.add_cons, Multiset.cons_add]

/-- After any run of `Insert` calls on a new table, the tokens in occupied bins are the tokens
offered less one for each call that returned false, each sits in a position of its own,
`successful_inserts` counts the occupied bins, and `Find` finds exactly the tokens stored; when
every call returned true it finds every token offered. -/
theorem runInserts_conserves (keywordCount : Nat) (random : RandomEngine)
    (position : OprfOutput → Fin 3 → Fin (tableBins keywordCount))
    (tokens : List OprfOutput) :
    let results := (runInserts position tokens (construct keywordCount random)).1
    let table := (runInserts position tokens (construct keywordCount random)).2
    (∃ dropped : Multiset OprfOutput, dropped.card = results.count false ∧
      storedTokens table + dropped = tokens) ∧
    (∀ bin, table.occupied.get bin = true →
      ∃ hash, position (table.bins.get bin) hash = bin) ∧
    (Finset.univ.filter fun bin => table.occupied.get bin = true).card =
      table.statistics.successfulInserts ∧
    (∀ token bin, find position token table = some bin →
      table.occupied.get bin = true ∧ table.bins.get bin = token) ∧
    (∀ token, (∃ bin, find position token table = some bin) ↔ token ∈ storedTokens table) ∧
    ((∀ result ∈ results, result = true) →
      ∀ token ∈ tokens, ∃ bin, find position token table = some bin) := by
  intro results table
  obtain ⟨dropped, kept, counted, conserved, account⟩ :=
    (accounts_construct keywordCount random position).runInserts tokens
  rw [add_zero] at conserved
  have stored : storedTokens table = kept := account.stored
  have found := account.find_iff
  refine ⟨⟨dropped, counted, by rw [stored, conserved]⟩, account.placed, ?_,
    fun token bin => find_some position, by rwa [stored], fun succeeded token offered => ?_⟩
  · rw [← card_storedTokens, stored]
    exact account.counted.symm
  · have none : results.count false = 0 :=
      List.count_eq_zero.mpr fun failed => absurd (succeeded false failed) (by decide)
    have nothing := Multiset.card_eq_zero.mp (counted.trans none)
    rw [nothing, add_zero] at conserved
    exact (found token).mpr (conserved ▸ Multiset.mem_coe.mpr offered)

end Vlse.Lse
