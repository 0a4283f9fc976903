import Vlse.Benchmark.Agreement
import Vlse.Oprf.Session
import Vlse.Protocol.Outcomes
import Vlse.Protocol.ResultArray
/-!
# The queries of the VLSE benchmark

After a completed Setup the query loop of `RunPaired` runs through: the token of a keyword finds its
own record among at most eight candidates, the documents are the expected ones, and every component
of every candidate is tried. This needs the interactive evaluation to return what the direct one
does, as it does on the blinds of a pool.
-/

namespace Vlse.Benchmark

open ByteBits Vlse.Filter Label Oprf Protocol

variable {C T : Type*} {DMax : Nat} [Inhabited C] [Inhabited T]

/-! ## One query -/

/-- A lookup that finds a keyword: between one and eight candidates, which yield its documents. -/
def Found (env : Environment C T) (epoch : Word) (index : Index (SealedRecord DMax C T)) (i : Nat)
    (keyword : String) : Prop :=
  ∃ candidates, queryAll index.config (env.derive keyword).token index.state = some candidates ∧
    1 ≤ candidates.length ∧ candidates.length ≤ 8 ∧
    ∀ componentAttempts, collectAuthenticatedResults (decryptLabel env.gcm) 8 candidates
        (env.derive keyword) epoch componentAttempts =
      (.ok (keywordDocuments DMax i), componentAttempts + candidates.length * DMax)

/-- The attempts counted are those made before and one for each component of a candidate. -/
theorem collectAuthenticatedResults_attempts {L : Type*} {decrypt : Decrypt L}
    {candidates : List (AeadRecord DMax L)} {derived : TokenKeyPair} {epoch : Word}
    {before attempts : Nat} {documents : List Word}
    (collected : collectAuthenticatedResults decrypt 8 candidates derived epoch before =
      (.ok documents, attempts)) :
    attempts = before + candidates.length * DMax := by
  unfold collectAuthenticatedResults at collected
  split at collected
  · cases collected
  · obtain ⟨-, counted⟩ := Prod.mk.inj collected
    rw [← counted, componentAttempts_collect]

/-- A completed Setup has every keyword found. -/
theorem found_of_setup {env : Environment C T} {seed : Word} {keywords : List String} {limit : Nat}
    {run : SetupRun DMax C T} {index : Index (SealedRecord DMax C T)} {dummies : Nat}
    (symbolic : env.gcm.Symbolic)
    (distinctKeys : (keywords.map fun keyword => (env.derive keyword).key).Nodup)
    (ended : setup env DMax seed keywords limit = some run)
    (completed : run.result = .ok (index, dummies)) {i : Nat} (inside : i < keywords.length) :
    Found env seed index i keywords[i] := by
  obtain ⟨bounded, genuineKnown, added, account, -⟩ := setup_accounts ended completed
  have own : (env.derive keywords[i],
      sealRecord env.gcm (genuineCalls env DMax seed keywords[i] i)) ∈
        genuineRecords env DMax seed keywords := mem_genuineRecords env seed inside
  obtain ⟨metadata, known⟩ := genuineKnown _ own
  obtain ⟨candidates, listed, few, members⟩ := account.queryAll known
  have first : sealRecord env.gcm (genuineCalls env DMax seed keywords[i] i) ∈ candidates := by
    rw [members, Multiset.mem_add, mem_sum_map]
    exact .inr ⟨_, own, (mem_recordEntry known _).mpr rfl⟩
  refine ⟨candidates, listed, List.length_pos_of_mem first, few, fun componentAttempts => ?_⟩
  obtain ⟨documents, attempts, answered, sorted, yielded⟩ :=
    query_ok symbolic ended completed known componentAttempts
  have collected : collectAuthenticatedResults (decryptLabel env.gcm) 8 candidates
      (env.derive keywords[i]) seed componentAttempts = (.ok documents, attempts) := by
    rw [query, listed, Option.map_some] at answered
    exact Option.some.inj answered
  have expected : documents = keywordDocuments DMax i := by
    refine eq_of_ascending sorted (keywordDocuments_ascending bounded inside) fun document => ?_
    rw [yielded]
    constructor
    · rintro ⟨record, genuine, -, j, yields⟩
      exact document_of_yields symbolic distinctKeys inside genuine yields
    · intro member
      obtain ⟨j, -, rfl⟩ := List.mem_map.mp member
      exact ⟨_, own, ⟨metadata, known, rfl⟩, j, (yields_own symbolic _ _ _ _ _).mpr rfl⟩
  rw [collected, expected, collectAuthenticatedResults_attempts collected]

/-! ## The query loop -/

/-- The counters after so many queries. -/
structure QueryFigures (DMax count : Nat) (totals : PairedQueryTotals) : Prop where
  /-- Every query succeeded. -/
  successes : totals.querySuccesses = count
  /-- Every component of every candidate was tried. -/
  attempts : totals.decryptComponentAttempts = totals.candidateRecordsTotal * DMax
  /-- Every query found its own record. -/
  own : count ≤ totals.candidateRecordsTotal
  /-- Two buckets hold eight records. -/
  most : totals.candidateRecordsMax ≤ 8
  /-- The largest answer is one of those added up. -/
  most_le_total : totals.candidateRecordsMax ≤ totals.candidateRecordsTotal
  /-- No answer is larger. -/
  total_le : totals.candidateRecordsTotal ≤ count * totals.candidateRecordsMax

/-- One query more, with its candidates. -/
theorem QueryFigures.add {count found : Nat} {totals : PairedQueryTotals}
    (figures : QueryFigures DMax count totals) (some_ : 1 ≤ found) (few : found ≤ 8)
    (fits : (count + 1) * 8 < 2 ^ 64) :
    QueryFigures DMax (count + 1) {
      querySuccesses := totals.querySuccesses + 1
      candidateRecordsTotal := (totals.candidateRecordsTotal + found) % 2 ^ 64
      candidateRecordsMax := max totals.candidateRecordsMax found
      decryptComponentAttempts := totals.decryptComponentAttempts + found * DMax } := by
  have own := figures.own
  have most := figures.most
  have most_le_total := figures.most_le_total
  have total_le := figures.total_le
  have eight := Nat.mul_le_mul_left count most
  have unwrapped : (totals.candidateRecordsTotal + found) % 2 ^ 64 =
      totals.candidateRecordsTotal + found := Nat.mod_eq_of_lt (by omega)
  rw [unwrapped]
  exact {
    successes := congrArg (· + 1) figures.successes
    attempts := by
      rw [figures.attempts]
      exact (Nat.add_mul _ _ _).symm
    own := by
      dsimp only
      omega
    most := max_le most few
    most_le_total := by
      dsimp only
      omega
    total_le := by
      have earlier := Nat.mul_le_mul_left count
        (Nat.le_max_left totals.candidateRecordsMax found)
      have here := Nat.le_max_right totals.candidateRecordsMax found
      dsimp only
      rw [Nat.succ_mul]
      omega }

/-- The query loop runs through keywords that are found. -/
theorem pairedQueryLoop_ok {env : PairedEnvironment C T} {epoch : Word}
    {index : Index (SealedRecord DMax C T)} {keywords : List String} {i : Nat}
    {totals : PairedQueryTotals}
    (agrees : ∀ (k : Nat) (inside : k < keywords.length),
      env.evaluatePrepared (i + k) keywords[k] = some (.ok (env.directEvaluate keywords[k])))
    (found : ∀ (k : Nat) (inside : k < keywords.length),
      Found env.toEnvironment epoch index (i + k) keywords[k])
    (fits : (i + keywords.length) * 8 < 2 ^ 64) (figures : QueryFigures DMax i totals) :
    ∃ after, pairedQueryLoop env epoch index keywords i totals = some (.ok after) ∧
      QueryFigures DMax (i + keywords.length) after := by
  induction keywords generalizing i totals with
  | nil => exact ⟨totals, rfl, figures⟩
  | cons keyword keywords ih =>
    have evaluated := agrees 0 (Nat.succ_pos _)
    obtain ⟨candidates, listed, some_, few, collected⟩ := found 0 (Nat.succ_pos _)
    have place : ∀ k, i + 1 + k = i + (k + 1) := fun k => by omega
    rw [List.length_cons] at fits
    have next := figures.add some_ few (by omega)
    obtain ⟨after, looped, reached⟩ := ih
      (fun k inside => place k ▸ agrees (k + 1) (Nat.succ_lt_succ inside))
      (fun k inside => place k ▸ found (k + 1) (Nat.succ_lt_succ inside)) (by omega) next
    refine ⟨after, ?_, ?_⟩
    · have derived : deriveTokenAndKey env.sha256 (env.directEvaluate keyword) =
          env.derive keyword := rfl
      rw [Nat.add_zero, List.getElem_cons_zero] at evaluated
      rw [List.getElem_cons_zero] at listed collected
      rw [Nat.add_zero] at collected
      rw [pairedQueryLoop, evaluated]
      dsimp only
      rw [derived, listed]
      dsimp only
      rw [collected]
      dsimp only
      rw [if_neg (not_not.mpr rfl)]
      exact looped
    · rw [List.length_cons, Nat.add_comm keywords.length, ← Nat.add_assoc]
      exact reached

/-- After a completed Setup, with evaluations that agree, a run of the benchmark ends with its
metrics: no answer is wrong and no component is left out. -/
theorem runPaired_completes {doubles : Doubles} {clock : SteadyClock}
    {env : PairedEnvironment C T} {options : Options} {limit : Nat} {run : SetupRun DMax C T}
    {index : Index (SealedRecord DMax C T)} {dummies : Nat} (symbolic : env.gcm.Symbolic)
    (enough : options.queries ≤ options.keywords)
    (distinctKeys : ((makeKeywords options.keywords options.seed).map fun keyword =>
      (env.derive keyword).key).Nodup)
    (agrees : ∀ (i : Nat) (inside : i < (makeKeywords options.keywords options.seed).length),
      i < options.queries →
      env.evaluatePrepared i (makeKeywords options.keywords options.seed)[i] =
        some (.ok (env.directEvaluate (makeKeywords options.keywords options.seed)[i])))
    (ended : setup env.toEnvironment DMax (BitVec.ofNat 64 options.seed)
      (makeKeywords options.keywords options.seed) limit = some run)
    (completed : run.result = .ok (index, dummies)) :
    ∃ metrics, runPaired doubles clock env DMax options limit = some (.ok (index, metrics)) ∧
      metrics.setup = run.totals ∧ metrics.dummyRecords = dummies ∧
      QueryFigures DMax options.queries metrics.queries := by
  obtain ⟨bounded, -⟩ := setup_accounts ended completed
  have wide := Nat.mul_le_mul_left (makeKeywords options.keywords options.seed).length
    (le_genuineRecordBytes DMax)
  have total : (makeKeywords options.keywords options.seed).length = options.keywords :=
    length_makeKeywords _ _
  have taken : ((makeKeywords options.keywords options.seed).take options.queries).length =
      options.queries := by
    rw [List.length_take, total, Nat.min_eq_left enough]
  have initial : QueryFigures DMax 0 {} := by
    constructor
    all_goals simp
  have looping := @pairedQueryLoop_ok C T DMax _ _ env (BitVec.ofNat 64 options.seed) index
    ((makeKeywords options.keywords options.seed).take options.queries) 0 {}
  obtain ⟨queries, looped, figures⟩ := looping
    (fun k inside => by
      rw [Nat.zero_add, List.getElem_take]
      exact agrees k (by omega) (by omega))
    (fun k inside => by
      rw [Nat.zero_add, List.getElem_take]
      exact found_of_setup symbolic distinctKeys ended completed (by omega))
    (by omega) initial
  rw [taken, Nat.zero_add] at figures
  refine ⟨pairedMetrics doubles clock options index dummies run.totals queries, ?_, rfl, rfl,
    figures⟩
  have complete : ¬ queries.decryptComponentAttempts % 2 ^ 64 ≠
      queries.candidateRecordsTotal * DMax % 2 ^ 64 := by
    rw [figures.attempts]
    exact not_not.mpr rfl
  unfold runPaired
  dsimp only
  rw [ended]
  dsimp only
  rw [completed]
  dsimp only
  rw [looped]
  exact if_neg complete

/-! ## The evaluations of the program -/

/-- The environment whose evaluations are those of the OPRF, the interactive ones on the blinds of a
pool. Where a direct evaluation has no result, the one named here is never used. -/
def oprfEnvironment (env : Environment C T) (parameters : PublicParameters) (shake256 : Shake256)
    (key : SecretKey parameters) (pool : List PreparedBlind) : PairedEnvironment C T where
  toEnvironment := { env with
    directEvaluate := fun keyword =>
      match Oprf.directEvaluate parameters shake256 key (literalBytes keyword) with
      | some (.ok output) => output
      | _ => Vector.replicate _ 0 }
  evaluatePrepared i keyword := pool[i]?.bind fun blind =>
    (Oprf.evaluatePrepared parameters shake256 key (literalBytes keyword) blind).map Prod.fst

omit [Inhabited C] [Inhabited T] in
/-- On the blinds of a prepared pool both evaluations of a keyword that hashes agree. -/
theorem oprfEnvironment_agrees {group : PrimeGroup} {shake256 : Shake256}
    {key : SecretKey group.toPublicParameters} {count : Nat}
    {blocks left : List (Bytes scalarBytes)} {pool : List PreparedBlind} (env : Environment C T)
    (prepared : prepareBlindPool group.toPublicParameters count blocks = some (pool, left))
    {i : Nat} (inside : i < count) {keyword : String}
    (hashes : (hashToGroup group.toPublicParameters shake256 (literalBytes keyword)).isSome) :
    (oprfEnvironment env group.toPublicParameters shake256 key pool).evaluatePrepared i keyword =
      some (.ok ((oprfEnvironment env group.toPublicParameters shake256 key pool).directEvaluate
        keyword)) := by
  obtain ⟨scalars, counted, admissible, rfl⟩ := prepareBlindPool_spec prepared
  obtain ⟨element, hashed⟩ := Option.isSome_iff_exists.mp hashes
  obtain ⟨output, direct, -⟩ := directEvaluate_ok key hashed
  have below : i < scalars.length := by omega
  have range := admissible scalars[i] (List.getElem_mem below)
  have fresh := evaluatePrepared_fresh shake256 key (literalBytes keyword) range.1 range.2
  simp only [oprfEnvironment, List.getElem?_map, List.getElem?_eq_getElem below, Option.map_some,
    Option.bind_some, fresh, direct]

/-- The whole VLSE benchmark over the OPRF of a prime group and AES-GCM in the symbolic model, with
a pool of blinds for the queries, keywords that hash and have distinct keys, and filters in which no
token rehashes for ever: it ends, it throws what Setup throws and nothing else, and after a Setup
that completes its metrics count every query, candidate and component. -/
theorem paired_benchmark_ends (doubles : Doubles) (clock : SteadyClock) (DMax draws : Nat)
    {group : PrimeGroup} {shake256 : Shake256} {key : SecretKey group.toPublicParameters}
    {env : Environment C T} {options : Options} {blocks left : List (Bytes scalarBytes)}
    {pool : List PreparedBlind} (symbolic : env.gcm.Symbolic)
    (enough : options.queries ≤ options.keywords)
    (prepared :
      prepareBlindPool group.toPublicParameters options.queries blocks = some (pool, left))
    (hash : ∀ keyword ∈ makeKeywords options.keywords options.seed,
      (hashToGroup group.toPublicParameters shake256 (literalBytes keyword)).isSome)
    (distinctKeys : ((makeKeywords options.keywords options.seed).map fun keyword =>
      ((oprfEnvironment env group.toPublicParameters shake256 key pool).derive keyword).key).Nodup)
    (rehashes : ∀ attempt < 4, ∀ token,
      (attemptConfig env (BitVec.ofNat 64 options.seed) options.keywords attempt).metadata token ≠
        none) :
    ∃ run, setup (oprfEnvironment env group.toPublicParameters shake256 key pool).toEnvironment
        DMax (BitVec.ofNat 64 options.seed) (makeKeywords options.keywords options.seed)
          (draws + 1) = some run ∧
      run.result ≠ .error .unending ∧
      (∀ fault, run.result = .error fault →
        runPaired doubles clock (oprfEnvironment env group.toPublicParameters shake256 key pool)
          DMax options (draws + 1) = some (.error fault)) ∧
      ∀ index dummies, run.result = .ok (index, dummies) → ∃ metrics,
        runPaired doubles clock (oprfEnvironment env group.toPublicParameters shake256 key pool)
            DMax options (draws + 1) = some (.ok (index, metrics)) ∧
          metrics.setup = run.totals ∧ metrics.dummyRecords = dummies ∧
          QueryFigures DMax options.queries metrics.queries := by
  obtain ⟨run, ended⟩ := setup_ends
    (oprfEnvironment env group.toPublicParameters shake256 key pool).toEnvironment DMax
    (BitVec.ofNat 64 options.seed) (makeKeywords options.keywords options.seed) draws
  refine ⟨run, ended, setup_ne_unending ended ?_, fun fault threw => ?_,
    fun index dummies completed => ?_⟩
  · rw [length_makeKeywords]
    exact rehashes
  · unfold runPaired
    dsimp only
    rw [ended]
    dsimp only
    rw [threw]
  · exact runPaired_completes symbolic enough distinctKeys
      (fun _ inside asked => oprfEnvironment_agrees env prepared asked
        (hash _ (List.getElem_mem inside))) ended completed

/-- The small environment over the small group, with a pool of two blinds. -/
def smallPaired : PairedEnvironment (AeadKey128 × Nonce × AssociatedData × Plaintext) Unit :=
  oprfEnvironment steadyEnvironment smallGroup.toPublicParameters sumShake256
    ⟨4, by decide, by decide⟩
    [prepareBlind smallGroup.toPublicParameters 7, prepareBlind smallGroup.toPublicParameters 5]

/-- The benchmark for two keywords over the small group. -/
theorem paired_benchmark_ends_small :
    ∃ run : SetupRun 1 _ _,
      setup smallPaired.toEnvironment 1 (BitVec.ofNat 64 pairOptions.seed)
        (makeKeywords pairOptions.keywords pairOptions.seed) (0 + 1) = some run ∧
      run.result ≠ .error .unending ∧
      (∀ fault, run.result = .error fault →
        runPaired exactDoubles countingClock smallPaired 1 pairOptions (0 + 1) =
          some (.error fault)) ∧
      ∀ index dummies, run.result = .ok (index, dummies) → ∃ metrics,
        runPaired exactDoubles countingClock smallPaired 1 pairOptions (0 + 1) =
            some (.ok (index, metrics)) ∧
          metrics.setup = run.totals ∧ metrics.dummyRecords = dummies ∧
          QueryFigures 1 pairOptions.queries metrics.queries := by
  have prepared : prepareBlindPool smallGroup.toPublicParameters pairOptions.queries
      [Vector.replicate 32 0, (storeBigEndian scalarBytes 7).1, (storeBigEndian scalarBytes 5).1] =
        some ([prepareBlind smallGroup.toPublicParameters 7,
          prepareBlind smallGroup.toPublicParameters 5], []) := by
    decide +kernel
  have hash : ∀ keyword ∈ makeKeywords pairOptions.keywords pairOptions.seed,
      (hashToGroup smallGroup.toPublicParameters sumShake256 (literalBytes keyword)).isSome := by
    decide +kernel
  have distinctKeys : ((makeKeywords pairOptions.keywords pairOptions.seed).map fun keyword =>
      (smallPaired.derive keyword).key).Nodup := by
    decide +kernel
  refine paired_benchmark_ends exactDoubles countingClock 1 0 transparentGcm_symbolic le_rfl
    prepared hash distinctKeys fun attempt _ token endless => ?_
  exact plainEnvironment_sound (fun _ => Option.some_ne_none _) _ _ attempt (.inr ⟨token, endless⟩)

end Vlse.Benchmark
