import Vlse.Lse.Cuckoo
import Vlse.Oprf.Evaluation
import Vlse.Protocol.Derivation
/-!
# A run of the LSE protocol

`Run` derives a search token and an AES key for every keyword under two OPRF keys, stores the
encrypted documents of a keyword in a map under its token and the token in a cuckoo table, and fills
the free bins with random tokens that the map does not know yet. A query evaluates the OPRFs on
prepared blinds, finds the token in the table and decrypts what the map has for it.
-/

namespace Vlse.Lse

open ByteBits Vlse.Filter Oprf Protocol

/-! ## Documents -/

/-- `Block`. -/
abbrev Block := Bytes 16

/-- `LabelList`. -/
abbrev LabelList := List Block

/-- `EncodeDocument`. -/
def encodeDocument (document : Word) : Block := store (Vector.replicate 16 0) 0 document 8

/-- `DecodeDocument`. -/
def decodeDocument (block : Block) : Word := load 64 block 0 8

/-- Decoding inverts encoding. -/
theorem decodeDocument_encodeDocument (document : Word) :
    decodeDocument (encodeDocument document) = document :=
  load_store_same _ 0 8 document rfl (by decide)

/-- AES-128 on one block, under a key. -/
structure Aes where
  /-- `AesEncrypt`. -/
  encryptBlock : Block → Block → Block
  /-- `AesDecrypt`. -/
  decryptBlock : Block → Block → Block

/-- Decryption inverts encryption. -/
def Aes.Inverts (aes : Aes) : Prop :=
  ∀ key block, aes.decryptBlock key (aes.encryptBlock key block) = block

/-- `encrypted_data`: a map from tokens to label lists. -/
abbrev LabelMap := OprfOutput → Option LabelList

/-- `std::map::emplace`, which keeps the value of a key that is present. -/
def LabelMap.emplace (map : LabelMap) (token : OprfOutput) (labels : LabelList) : LabelMap :=
  fun other => if other = token ∧ map token = none then some labels else map other

/-! ## Setup -/

/-- A vector of so many elements is longer than `max_size`, so that allocating it throws. -/
def BeyondMaxSize (count elementBytes : Nat) : Prop := 2 ^ 63 - 1 < count * elementBytes

instance (count elementBytes : Nat) : Decidable (BeyondMaxSize count elementBytes) :=
  Nat.decLt _ _

/-- What a run uses: the OPRF keys, the primitives and the sources of randomness. -/
structure Environment where
  /-- The group parameters. -/
  group : PrimeGroup
  /-- SHAKE256. -/
  shake256 : Shake256
  /-- The key of `token_oprf`. -/
  tokenKey : SecretKey group.toPublicParameters
  /-- The key of `key_oprf`. -/
  keyKey : SecretKey group.toPublicParameters
  /-- AES-128. -/
  aes : Aes
  /-- SipHash-2-4. -/
  sipHash : SipHash
  /-- The engine of the table, seeded by the options. -/
  random : RandomEngine
  /-- The outputs of `RandomToken`. -/
  randomTokens : Nat → OprfOutput
  /-- The outputs of `RandomBlock`. -/
  randomBlocks : Nat → Block
  /-- The scalars drawn for `token_blinds`. -/
  tokenScalars : Nat → SecretKey group.toPublicParameters
  /-- The scalars drawn for `key_blinds`. -/
  keyScalars : Nat → SecretKey group.toPublicParameters

namespace Environment

variable (env : Environment) (dmax : Nat)

/-- `token_oprf.DirectEvaluate`. -/
def directToken (keyword : List Byte) : Option (Except Fault OprfOutput) :=
  directEvaluate env.group.toPublicParameters env.shake256 env.tokenKey keyword

/-- `key_oprf.DirectEvaluate`. -/
def directKey (keyword : List Byte) : Option (Except Fault OprfOutput) :=
  directEvaluate env.group.toPublicParameters env.shake256 env.keyKey keyword

/-- The labels of the keyword with number `i`. -/
def keywordLabels (key : Block) (i : Nat) : LabelList :=
  (List.range dmax).map fun j =>
    env.aes.encryptBlock key (encodeDocument (BitVec.ofNat 64 (i * dmax + j + 1)))

/-- `table` and `encrypted_data` while keywords are inserted. -/
structure SetupState (binCount : Nat) where
  /-- `table`. -/
  table : CuckooTable binCount
  /-- `encrypted_data`. -/
  encryptedData : LabelMap

/-- The positions in a table for a number of keywords. -/
def positions (keywordCount : Nat) : OprfOutput → Fin 3 → Fin (tableBins keywordCount) :=
  position env.sipHash (Nat.lt_of_lt_of_le Nat.one_pos (Nat.le_max_left _ _))

/-- One turn of the loop over the keywords. -/
def insertKeyword {keywordCount : Nat} (i : Nat) (keyword : List Byte) :
    Callback (SetupState (tableBins keywordCount)) Fault Unit :=
  (Callback.lift (env.directToken keyword)).bind fun token =>
    (Callback.lift (env.directKey keyword)).bind fun output => fun state =>
      -- `labels.reserve(options.dmax)`
      if BeyondMaxSize dmax 16 then some (.error .lengthError, state)
      else
        let labels := env.keywordLabels dmax (lseAesKey output) i
        let encryptedData := state.encryptedData.emplace token labels
        match insert (env.positions keywordCount) token state.table with
        | (true, table) => some (.ok (), { table, encryptedData })
        | (false, table) => some (.error (.runtimeError
            ("LSE cuckoo insertion failed at item " ++ toString i)), { table, encryptedData })

/-- The loop over the keywords, from number `i` on. -/
def insertKeywords {keywordCount : Nat} :
    List (List Byte) → Nat → Callback (SetupState (tableBins keywordCount)) Fault Unit
  | [], _ => .pure ()
  | keyword :: keywords, i =>
    (env.insertKeyword dmax i keyword).bind fun _ => insertKeywords keywords (i + 1)

/-! ## Dummies -/

/-- What the dummy generator works on. -/
structure DummyState where
  /-- `encrypted_data`. -/
  encryptedData : LabelMap
  /-- Calls of `RandomToken` so far. -/
  tokensDrawn : Nat
  /-- Calls of `RandomBlock` so far. -/
  blocksDrawn : Nat

/-- The loop that draws a token the map does not know; `none` when it has not ended after `limit`
draws. -/
def drawToken : Nat → Callback DummyState Fault OprfOutput
  | 0 => fun _ => none
  | limit + 1 => fun state =>
    let token := env.randomTokens state.tokensDrawn
    let state := { state with tokensDrawn := state.tokensDrawn + 1 }
    if (state.encryptedData token).isSome then drawToken limit state
    else some (.ok token, state)

/-- The generator `Run` fills the table with. -/
def dummyToken (limit : Nat) : Callback DummyState Fault OprfOutput :=
  (env.drawToken limit).bind fun token => fun state =>
    -- `LabelList labels(options.dmax)`
    if BeyondMaxSize dmax 16 then some (.error .lengthError, state)
    else
      let labels := (List.range dmax).map fun j => env.randomBlocks (state.blocksDrawn + j)
      some (.ok token, { state with
        encryptedData := state.encryptedData.emplace token labels
        blocksDrawn := state.blocksDrawn + dmax })

/-- The filled table with the map, and the number of dummies. -/
structure Index (binCount : Nat) where
  /-- `table`. -/
  table : CuckooTable binCount
  /-- `encrypted_data`. -/
  encryptedData : LabelMap
  /-- `dummies`. -/
  dummies : Nat

/-- The Setup part of `Run`, with at most `limit` draws for each dummy token. -/
def setup (keywords : List (List Byte)) (limit : Nat) :
    Option (Except Fault (Index (tableBins keywords.length))) :=
  -- `CuckooTable table(options.keywords, options.seed)`
  if BeyondMaxSize (tableBins keywords.length) groupElementBytes then some (.error .lengthError)
  else
    match env.insertKeywords dmax keywords 0
        { table := construct keywords.length env.random, encryptedData := fun _ => none } with
    | none => none
    | some (.error fault, _) => some (.error fault)
    | some (.ok _, state) =>
      match fillEmpty (env.dummyToken dmax limit) (List.finRange _) state.table 0
          ⟨state.encryptedData, 0, 0⟩ with
      | none => none
      | some (.error fault, _) => some (.error fault)
      | some (.ok (table, dummies), filled) => some (.ok ⟨table, filled.encryptedData, dummies⟩)

/-! ## Queries -/

/-- The loop over the components of a query, from component `j` on: the documents decrypted. -/
def decryptLabels (key : Block) (i : Nat) : LabelList → Nat → Except Fault (List Word)
  | [], _ => .ok []
  | label :: labels, j =>
    let plaintext := env.aes.decryptBlock key label
    if decodeDocument plaintext ≠ BitVec.ofNat 64 (i * dmax + j + 1) then
      .error (.runtimeError "LSE AES decryption mismatch")
    else (decryptLabels key i labels (j + 1)).map fun documents =>
      decodeDocument plaintext :: documents

/-- The lookup of a query once its token and its key are evaluated. -/
def search {keywordCount : Nat} (index : Index (tableBins keywordCount)) (i : Nat)
    (token : OprfOutput) (key : Block) : Except Fault (List Word) :=
  match find (env.positions keywordCount) token index.table with
  | none => .error (.runtimeError "LSE cuckoo lookup failed")
  | some stored =>
    match index.encryptedData (index.table.bins.get stored) with
    | none => .error (.runtimeError "LSE payload lookup failed")
    | some labels =>
      if labels.length ≠ dmax then .error (.runtimeError "LSE payload lookup failed")
      else env.decryptLabels dmax key i labels 0

/-- The query for the keyword with number `i`, on the blinds prepared for it; `none` when an
evaluation never returns. -/
def query {keywordCount : Nat} (index : Index (tableBins keywordCount)) (i : Nat)
    (keyword : List Byte) (tokenBlind keyBlind : PreparedBlind) :
    Option (Except Fault (List Word)) :=
  match evaluatePrepared env.group.toPublicParameters env.shake256 env.tokenKey keyword
    tokenBlind with
  | none => none
  | some (.error fault, _) => some (.error fault)
  | some (.ok token, _) =>
    match evaluatePrepared env.group.toPublicParameters env.shake256 env.keyKey keyword
      keyBlind with
    | none => none
    | some (.error fault, _) => some (.error fault)
    | some (.ok output, _) => some (env.search dmax index i token (lseAesKey output))

/-- The counters of the query loop. -/
structure QueryTotals where
  /-- `query_successes`. -/
  querySuccesses : Nat := 0
  /-- `decrypt_component_attempts`. -/
  decryptComponentAttempts : Nat := 0

/-- The query loop, from the keyword with number `i` on. -/
def queryLoop {keywordCount : Nat} (index : Index (tableBins keywordCount)) :
    List (List Byte) → Nat → QueryTotals → Option (Except Fault QueryTotals)
  | [], _, totals => some (.ok totals)
  | keyword :: keywords, i, totals =>
    match env.query dmax index i keyword
        (prepareBlind env.group.toPublicParameters (env.tokenScalars i).scalar)
        (prepareBlind env.group.toPublicParameters (env.keyScalars i).scalar) with
    | none => none
    | some (.error fault) => some (.error fault)
    | some (.ok documents) => queryLoop index keywords (i + 1)
        { querySuccesses := totals.querySuccesses + 1
          decryptComponentAttempts := totals.decryptComponentAttempts + documents.length }

/-- `Run`, for the first `queries` keywords of the list. -/
def run (keywords : List (List Byte)) (queries limit : Nat) :
    Option (Except Fault (Index (tableBins keywords.length) × QueryTotals)) :=
  match env.setup dmax keywords limit with
  | none => none
  | some (.error fault) => some (.error fault)
  | some (.ok index) =>
    (env.queryLoop dmax index (keywords.take queries) 0 {}).map fun ended =>
      ended.map fun totals => (index, totals)

end Environment

end Vlse.Lse
