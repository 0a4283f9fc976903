import Vlse.Oprf.Hiding
/-!
# One-time blinds

Objects of `PreparedBlind` are prepared, moved and evaluated in any order. The defaulted moves
transfer the two scalars, leave zeros behind and copy the flag. Each object carries, beside its
members, the draw its scalar came from, which no call looks at. The draws already used in requests
and those held by unconsumed objects are kept apart: preparing adds a new one, evaluating passes one
from the second group to the first, and moves add none. An unconsumed object without a draw, one
moved away from, passes the check of the flag and evaluates with two zero scalars.
-/

namespace Vlse.Oprf

open ByteBits Vlse.Filter

/-- What the defaulted moves leave behind, when moving from an integer leaves zero. -/
def PreparedBlind.movedFrom (blind : PreparedBlind) : PreparedBlind :=
  { blind with scalar := 0, inverse := 0 }

/-- An object of `PreparedBlind` with the draw its scalar came from. -/
structure BlindObject where
  /-- Its members. -/
  blind : PreparedBlind
  /-- The number of the draw, none after its scalar was moved away. -/
  draw : Option Nat
deriving DecidableEq

/-- The object after its members were moved away. -/
def BlindObject.movedFrom (object : BlindObject) : BlindObject where
  blind := object.blind.movedFrom
  draw := none

/-- All objects, in the order of their construction, with the scalars drawn so far. -/
structure BlindState where
  /-- The objects. -/
  objects : List BlindObject
  /-- The scalars drawn. -/
  drawn : List Nat
deriving DecidableEq

/-- The calls on blinds. Objects are named by the order of their construction. -/
inductive BlindCall where
  /-- `PrepareBlind`, over the random blocks its scalar is drawn from. -/
  | prepareBlind (limit : Nat) (blocks : Nat → Bytes scalarBytes)
  /-- `PreparedBlind(PreparedBlind&&)`. -/
  | moveConstruct (source : Nat)
  /-- `operator=(PreparedBlind&&)`. -/
  | moveAssign (target source : Nat)
  /-- `EvaluatePrepared`. -/
  | evaluatePrepared (input : List Byte) (index : Nat)

/-- A call of `EvaluatePrepared` that ended. -/
structure Evaluation where
  /-- Its input. -/
  input : List Byte
  /-- Its blind before the call. -/
  object : BlindObject
  /-- How it ended. -/
  returned : Except Fault OprfOutput
  /-- All objects before the call. -/
  before : BlindState
  /-- All objects after the call. -/
  after : BlindState

/-- The draw used in the request of an evaluation, if it sent one with a drawn scalar. -/
def Evaluation.request (evaluation : Evaluation) : Option Nat :=
  if evaluation.object.blind.consumed then none else evaluation.object.draw

section Calls

variable (parameters : PublicParameters) (shake256 : Shake256) (key : SecretKey parameters)
  (keepsSelf : Bool)

/-- One call; `none` when it does not return or names no object. Moving an integer to itself keeps
it or leaves zero. -/
def blindStep (state : BlindState) : BlindCall → Option (Option Evaluation × BlindState)
  | .prepareBlind limit blocks =>
    (randomScalar parameters limit blocks).map fun scalar =>
      (none, {
        objects := state.objects ++ [⟨prepareBlind parameters scalar, some state.drawn.length⟩]
        drawn := state.drawn ++ [scalar] })
  | .moveConstruct source =>
    state.objects[source]?.map fun object =>
      (none, { state with objects := state.objects.set source object.movedFrom ++ [object] })
  | .moveAssign target source =>
    if target < state.objects.length then
      state.objects[source]?.map fun object =>
        (none,
          if target = source then
            if keepsSelf then state
            else { state with objects := state.objects.set source object.movedFrom }
          else { state with
            objects := (state.objects.set source object.movedFrom).set target object })
    else none
  | .evaluatePrepared input index =>
    state.objects[index]?.bind fun object =>
      (evaluatePrepared parameters shake256 key input object.blind).map fun ended =>
        let after : BlindState :=
          { state with objects := state.objects.set index { object with blind := ended.2 } }
        (some { input, object, returned := ended.1, before := state, after }, after)

/-- A sequence of calls: the evaluations in it, and the objects reached. -/
def runBlinds : List BlindCall → BlindState → Option (List Evaluation × BlindState)
  | [], state => some ([], state)
  | call :: calls, state =>
    (blindStep parameters shake256 key keepsSelf state call).bind fun first =>
      (runBlinds calls first.2).map fun rest => (first.1.toList ++ rest.1, rest.2)

end Calls

/-! ## The draws of objects -/

/-- The draw an unconsumed object can still use. -/
def BlindObject.unspent (object : BlindObject) : Multiset Nat :=
  if object.blind.consumed then 0 else (object.draw.toList : Multiset Nat)

/-- The draws that unconsumed objects can still use. -/
def unspent (objects : List BlindObject) : Multiset Nat := (objects.map BlindObject.unspent).sum

/-- Replacing an object trades its draw for that of the other. -/
theorem unspent_set {objects : List BlindObject} {index : Nat} {object : BlindObject}
    (placed : objects[index]? = some object) (other : BlindObject) :
    object.unspent + unspent (objects.set index other) = other.unspent + unspent objects := by
  obtain ⟨inside, here⟩ := List.getElem?_eq_some_iff.mp placed
  have traded := (cons_set_perm objects index other inside).map BlindObject.unspent
  have sums := traded.sum_eq
  rw [here] at sums
  rw [unspent, unspent]
  simpa only [List.map_cons, List.sum_cons] using sums

/-- A new object adds its draw. -/
theorem unspent_append (objects : List BlindObject) (object : BlindObject) :
    unspent (objects ++ [object]) = object.unspent + unspent objects := by
  simp [unspent, add_comm]

/-- An object moved away from has no draw. -/
@[simp] theorem unspent_movedFrom (object : BlindObject) : object.movedFrom.unspent = 0 := by
  unfold BlindObject.unspent BlindObject.movedFrom
  split <;> rfl

/-- An object holds the scalar of its draw with the inverse, or two zeros. -/
def BlindObject.Holds (parameters : PublicParameters) (drawn : List Nat) (object : BlindObject) :
    Prop :=
  match object.draw with
  | none => object.blind.scalar = 0 ∧ object.blind.inverse = 0
  | some draw => drawn[draw]? = some object.blind.scalar ∧ 0 < object.blind.scalar ∧
      object.blind.scalar < parameters.subgroupOrder ∧
      object.blind.inverse = invMod object.blind.scalar parameters.subgroupOrder

/-- What holds of the objects after any calls: with the draws used in requests so far. -/
structure BlindLedger (parameters : PublicParameters) (state : BlindState)
    (requests : Multiset Nat) : Prop where
  /-- No draw is used twice, or used and still usable, or usable in two objects. -/
  distinct : (requests + unspent state.objects).Nodup
  /-- All of these were drawn. -/
  known : ∀ draw ∈ requests + unspent state.objects, draw < state.drawn.length
  /-- Every object holds the scalar of its draw, or zeros. -/
  holds : ∀ object ∈ state.objects, object.Holds parameters state.drawn

namespace BlindLedger

variable {parameters : PublicParameters} {state : BlindState} {requests : Multiset Nat}

/-- Before any call there is nothing to account for. -/
theorem initial (parameters : PublicParameters) : BlindLedger parameters ⟨[], []⟩ 0 where
  distinct := Multiset.nodup_zero
  known := by simp [unspent]
  holds := by simp

/-- A call that adds no draw keeps the account. -/
theorem of_le (ledger : BlindLedger parameters state requests) {objects : List BlindObject}
    {others : Multiset Nat}
    (fewer : others + unspent objects ≤ requests + unspent state.objects)
    (holds : ∀ object ∈ objects, object.Holds parameters state.drawn) :
    BlindLedger parameters { state with objects } others where
  distinct := Multiset.nodup_of_le fewer ledger.distinct
  known draw inside := ledger.known draw (Multiset.mem_of_le fewer inside)
  holds := holds

/-- The object moved away from holds zeros. -/
theorem holds_movedFrom (drawn : List Nat) (object : BlindObject) :
    object.movedFrom.Holds parameters drawn := ⟨rfl, rfl⟩

/-- Replacing one object by one that holds its scalar or zeros leaves only such objects. -/
theorem holds_set {objects : List BlindObject} {drawn : List Nat}
    (holds : ∀ object ∈ objects, object.Holds parameters drawn) (index : Nat)
    {other : BlindObject} (here : other.Holds parameters drawn) :
    ∀ object ∈ objects.set index other, object.Holds parameters drawn := by
  intro object inside
  cases List.mem_or_eq_of_mem_set inside with
  | inl kept => exact holds object kept
  | inr new => exact new ▸ here

/-- A scalar drawn stays drawn. -/
theorem holds_append {object : BlindObject} {drawn : List Nat}
    (here : object.Holds parameters drawn) (scalar : Nat) :
    object.Holds parameters (drawn ++ [scalar]) := by
  unfold BlindObject.Holds at here ⊢
  cases drew : object.draw with
  | none => simpa only [drew] using here
  | some draw =>
    simp only [drew] at here ⊢
    have below : draw < drawn.length := (List.getElem?_eq_some_iff.mp here.1).1
    exact ⟨(List.getElem?_append_left below).trans here.1, here.2⟩

/-- `PrepareBlind` adds a new draw. -/
theorem prepareBlind (ledger : BlindLedger parameters state requests) {scalar : Nat}
    (positive : 0 < scalar) (below : scalar < parameters.subgroupOrder) :
    BlindLedger parameters {
      objects := state.objects ++ [⟨Oprf.prepareBlind parameters scalar, some state.drawn.length⟩]
      drawn := state.drawn ++ [scalar] } requests where
  distinct := by
    rw [unspent_append, add_left_comm]
    have fresh : state.drawn.length ∉ requests + unspent state.objects :=
      fun inside => (ledger.known _ inside).ne rfl
    exact Multiset.nodup_cons.mpr ⟨fresh, ledger.distinct⟩
  known draw inside := by
    rw [unspent_append, add_left_comm] at inside
    rw [List.length_append, List.length_singleton]
    cases Multiset.mem_cons.mp inside with
    | inl new => omega
    | inr old =>
      have := ledger.known draw old
      omega
  holds object inside := by
    cases List.mem_append.mp inside with
    | inl old => exact holds_append (ledger.holds object old) scalar
    | inr new =>
      rw [List.mem_singleton.mp new]
      exact ⟨by simp [Oprf.prepareBlind], positive, below, rfl⟩

/-- Move construction passes the draw on. -/
theorem moveConstruct (ledger : BlindLedger parameters state requests) {source : Nat}
    {object : BlindObject} (placed : state.objects[source]? = some object) :
    BlindLedger parameters
      { state with objects := state.objects.set source object.movedFrom ++ [object] } requests := by
  have traded := unspent_set placed object.movedFrom
  have member := List.mem_of_getElem? placed
  apply ledger.of_le
  · rw [unspent_append, traded, unspent_movedFrom, zero_add]
  · intro other inside
    cases List.mem_append.mp inside with
    | inl kept =>
      exact holds_set ledger.holds source (holds_movedFrom _ object) other kept
    | inr new =>
      rw [List.mem_singleton.mp new]
      exact ledger.holds object member

/-- Leaving zeros behind loses the draw. -/
theorem moveAway (ledger : BlindLedger parameters state requests) {source : Nat}
    {object : BlindObject} (placed : state.objects[source]? = some object) :
    BlindLedger parameters
      { state with objects := state.objects.set source object.movedFrom } requests := by
  have traded := unspent_set placed object.movedFrom
  rw [unspent_movedFrom, zero_add] at traded
  apply ledger.of_le
  · rw [← traded]
    exact add_le_add_right (Multiset.le_add_left _ _) _
  · exact holds_set ledger.holds source (holds_movedFrom _ object)

/-- Move assignment passes the draw on and loses that of the target. -/
theorem moveAssign (ledger : BlindLedger parameters state requests) {target source : Nat}
    {object : BlindObject} (placed : state.objects[source]? = some object)
    (inside : target < state.objects.length) (apart : target ≠ source) :
    BlindLedger parameters { state with
      objects := (state.objects.set source object.movedFrom).set target object } requests := by
  have traded := unspent_set placed object.movedFrom
  have overwritten : (state.objects.set source object.movedFrom)[target]? =
      some state.objects[target] := by
    rw [List.getElem?_set_ne apart.symm, List.getElem?_eq_getElem inside]
  have lost := unspent_set overwritten object
  rw [traded, unspent_movedFrom, zero_add] at lost
  apply ledger.of_le
  · rw [← lost]
    exact add_le_add_right (Multiset.le_add_left _ _) _
  · exact holds_set (holds_set ledger.holds source (holds_movedFrom _ object)) target
      (ledger.holds object (List.mem_of_getElem? placed))

end BlindLedger

/-! ## Evaluations -/

/-- Whatever `EvaluatePrepared` returns, it leaves its blind consumed and otherwise as it was. -/
theorem evaluatePrepared_blind {parameters : PublicParameters} {shake256 : Shake256}
    {key : SecretKey parameters} {input : List Byte} {prepared : PreparedBlind}
    {ended : Except Fault OprfOutput × PreparedBlind}
    (returned : evaluatePrepared parameters shake256 key input prepared = some ended) :
    ended.2 = { prepared with consumed := true } := by
  unfold evaluatePrepared at returned
  split at returned
  · rename_i consumed
    cases returned
    rw [← consumed]
  · obtain ⟨request, _, rfl⟩ := Option.map_eq_some_iff.mp returned
    rfl

/-- A consumed object has no draw left to use. -/
theorem unspent_consumed (object : BlindObject) :
    BlindObject.unspent { object with blind := { object.blind with consumed := true } } = 0 := rfl

/-- `EvaluatePrepared` uses up the draw of its blind. -/
theorem BlindLedger.evaluatePrepared {parameters : PublicParameters} {state : BlindState}
    {requests : Multiset Nat} (ledger : BlindLedger parameters state requests) {index : Nat}
    {object : BlindObject} (placed : state.objects[index]? = some object) :
    BlindLedger parameters { state with
      objects := state.objects.set index
        { object with blind := { object.blind with consumed := true } } }
      (requests + object.unspent) := by
  have traded := unspent_set placed
    { object with blind := { object.blind with consumed := true } }
  rw [unspent_consumed, zero_add] at traded
  apply ledger.of_le
  · rw [add_assoc, traded]
  · exact holds_set ledger.holds index (ledger.holds object (List.mem_of_getElem? placed))

section Sound

variable {group : PrimeGroup} {shake256 : Shake256} {key : SecretKey group.toPublicParameters}
  {input : List Byte}

/-- What an ended evaluation has done. -/
structure Evaluation.Sound (shake256 : Shake256) (key : SecretKey group.toPublicParameters)
    (evaluation : Evaluation) : Prop where
  /-- Its blind held the scalar of its draw with the inverse, or two zeros. -/
  holds : evaluation.object.Holds group.toPublicParameters evaluation.before.drawn
  /-- On a consumed blind it threw and changed nothing. -/
  reused : evaluation.object.blind.consumed = true →
    evaluation.returned = .error (.logicError "prepared OPRF blind was reused") ∧
      evaluation.after = evaluation.before
  /-- On an unconsumed blind with a scalar it returned what `DirectEvaluate` returns. -/
  direct : evaluation.object.blind.consumed = false → evaluation.object.blind.scalar ≠ 0 →
    directEvaluate group.toPublicParameters shake256 key evaluation.input =
      some evaluation.returned
  /-- On an unconsumed blind without a scalar it returned something else. -/
  foreign : evaluation.object.blind.consumed = false → evaluation.object.blind.scalar = 0 →
    ∃ output, evaluation.returned = .ok output ∧
      directEvaluate group.toPublicParameters shake256 key evaluation.input ≠ some (.ok output)

/-- A blind that holds the scalar of a draw is as it was prepared, but for the flag. -/
theorem BlindObject.Holds.prepared {parameters : PublicParameters} {object : BlindObject}
    {drawn : List Nat} (holds : object.Holds parameters drawn)
    (nonzero : object.blind.scalar ≠ 0) (unconsumed : object.blind.consumed = false) :
    0 < object.blind.scalar ∧ object.blind.scalar < parameters.subgroupOrder ∧
      object.blind = prepareBlind parameters object.blind.scalar := by
  unfold BlindObject.Holds at holds
  cases drew : object.draw with
  | none =>
    rw [drew] at holds
    exact absurd holds.1 nonzero
  | some draw =>
    rw [drew] at holds
    refine ⟨holds.2.1, holds.2.2.1, ?_⟩
    rw [prepareBlind, ← holds.2.2.2, ← unconsumed]

/-- A blind whose scalar is zero has a zero inverse. -/
theorem BlindObject.Holds.inverse {parameters : PublicParameters} {object : BlindObject}
    {drawn : List Nat} (holds : object.Holds parameters drawn)
    (zero : object.blind.scalar = 0) : object.blind.inverse = 0 := by
  unfold BlindObject.Holds at holds
  cases drew : object.draw with
  | none =>
    rw [drew] at holds
    exact holds.2
  | some draw =>
    rw [drew] at holds
    exact absurd zero holds.2.1.ne'

/-- With zero scalars the result encodes one, whatever the input and the key. -/
theorem evaluatePrepared_zeros {prepared : PreparedBlind} (unconsumed : prepared.consumed = false)
    (scalar : prepared.scalar = 0) (inverse : prepared.inverse = 0) :
    evaluatePrepared group.toPublicParameters shake256 key input prepared =
      (hashToGroup group.toPublicParameters shake256 input).map fun _ =>
        (toBigEndian group.toPublicParameters 1, { prepared with consumed := true }) := by
  have large : 1 % group.modulus = 1 := Nat.mod_eq_of_lt group.modulusPrime.one_lt
  have one : ∀ base, powerMod base 0 group.modulus = 1 := fun base => by
    rw [powerMod, pow_zero, large]
  unfold evaluatePrepared blindedRequest
  rw [unconsumed, if_neg Bool.false_ne_true, Option.map_map]
  simp only [Function.comp_def, scalar, inverse, one, Nat.cast_one]

/-- `DirectEvaluate` never returns the encoding of one. -/
theorem directEvaluate_ne_one {output : OprfOutput}
    (encoded : toBigEndian group.toPublicParameters 1 = .ok output) :
    directEvaluate group.toPublicParameters shake256 key input ≠ some (.ok output) := by
  intro direct
  obtain ⟨written, same, value⟩ := toBigEndian_ok group group.modulusPrime.one_lt
  rw [Nat.cast_one, encoded] at same
  cases hashed : hashToGroup group.toPublicParameters shake256 input with
  | none => simp [directEvaluate, hashed] at direct
  | some element =>
    obtain ⟨other, returned, member⟩ := directEvaluate_ok key hashed
    rw [direct] at returned
    cases returned
    cases same
    exact member.2.2 value

/-- Every evaluation is sound when its blind holds what its draw gave. -/
theorem evaluation_sound {state after : BlindState} {object : BlindObject} {index : Nat}
    (holds : object.Holds group.toPublicParameters state.drawn)
    (placed : state.objects[index]? = some object)
    {ended : Except Fault OprfOutput × PreparedBlind}
    (returned : evaluatePrepared group.toPublicParameters shake256 key input object.blind =
      some ended)
    (reached : after =
      { state with objects := state.objects.set index { object with blind := ended.2 } }) :
    Evaluation.Sound shake256 key
      { input, object, returned := ended.1, before := state, after } where
  holds := holds
  reused consumed := by
    have consumed' : object.blind.consumed = true := consumed
    rw [evaluatePrepared, consumed', if_pos rfl] at returned
    cases returned
    have same : state.objects.set index object = state.objects := by
      obtain ⟨inside, here⟩ := List.getElem?_eq_some_iff.mp placed
      rw [← here, List.set_getElem_self]
    exact ⟨rfl, by rw [reached, same]⟩
  direct unconsumed nonzero := by
    obtain ⟨positive, below, prepared⟩ := holds.prepared nonzero unconsumed
    rw [prepared, evaluatePrepared_fresh shake256 key input positive below] at returned
    obtain ⟨result, direct, rfl⟩ := Option.map_eq_some_iff.mp returned
    exact direct
  foreign unconsumed zero := by
    have unconsumed' : object.blind.consumed = false := unconsumed
    have zero' : object.blind.scalar = 0 := zero
    rw [evaluatePrepared_zeros unconsumed' zero' (holds.inverse zero')] at returned
    obtain ⟨output, encoded, -⟩ := toBigEndian_ok group group.modulusPrime.one_lt
    rw [Nat.cast_one] at encoded
    obtain ⟨element, -, rfl⟩ := Option.map_eq_some_iff.mp returned
    exact ⟨output, encoded, directEvaluate_ne_one encoded⟩

end Sound

/-! ## Runs -/

section Runs

variable {group : PrimeGroup} {shake256 : Shake256} {key : SecretKey group.toPublicParameters}
  {keepsSelf : Bool}

/-- The draws used in requests by some evaluations. -/
def requestsOf (log : List Evaluation) : Multiset Nat :=
  (log.filterMap Evaluation.request : List Nat)

/-- No evaluation uses no draw. -/
@[simp] theorem requestsOf_nil : requestsOf [] = 0 := rfl

/-- The draws used by two groups of evaluations add up. -/
theorem requestsOf_append (first second : List Evaluation) :
    requestsOf (first ++ second) = requestsOf first + requestsOf second := by
  rw [requestsOf, List.filterMap_append, ← Multiset.coe_add, requestsOf, requestsOf]

/-- An evaluation uses the draw its blind could still use. -/
theorem requestsOf_singleton (evaluation : Evaluation) :
    requestsOf [evaluation] = evaluation.object.unspent := by
  unfold requestsOf BlindObject.unspent
  rw [List.filterMap_cons, Evaluation.request]
  cases consumed : evaluation.object.blind.consumed with
  | true => rfl
  | false => cases evaluation.object.draw <;> rfl

/-- One call keeps the ledger, and its evaluation is sound. -/
theorem blindStep_ledger {state after : BlindState} {requests : Multiset Nat}
    (ledger : BlindLedger group.toPublicParameters state requests) {call : BlindCall}
    {logged : Option Evaluation}
    (stepped : blindStep group.toPublicParameters shake256 key keepsSelf state call =
      some (logged, after)) :
    BlindLedger group.toPublicParameters after (requests + requestsOf logged.toList) ∧
      ∀ evaluation ∈ logged, evaluation.Sound shake256 key := by
  cases call with
  | prepareBlind limit blocks =>
    obtain ⟨scalar, drawn, ended⟩ := Option.map_eq_some_iff.mp stepped
    cases ended
    have range := randomScalar_range drawn
    exact ⟨by simpa [requestsOf] using ledger.prepareBlind range.1 range.2, by simp⟩
  | moveConstruct source =>
    obtain ⟨object, placed, ended⟩ := Option.map_eq_some_iff.mp stepped
    cases ended
    exact ⟨by simpa [requestsOf] using ledger.moveConstruct placed, by simp⟩
  | moveAssign target source =>
    rw [blindStep] at stepped
    split at stepped
    · rename_i inside
      obtain ⟨object, placed, ended⟩ := Option.map_eq_some_iff.mp stepped
      cases ended
      refine ⟨?_, by simp⟩
      rw [show requests + requestsOf (none : Option Evaluation).toList = requests from
        add_zero requests]
      split
      · split
        · exact ledger
        · exact ledger.moveAway placed
      · rename_i apart
        exact ledger.moveAssign placed inside apart
    · contradiction
  | evaluatePrepared input index =>
    obtain ⟨object, placed, stepped⟩ := Option.bind_eq_some_iff.mp stepped
    obtain ⟨ended, returned, here⟩ := Option.map_eq_some_iff.mp stepped
    cases here
    have member := List.mem_of_getElem? placed
    have sound := evaluation_sound (ledger.holds object member) placed returned rfl
    have after := ledger.evaluatePrepared placed
    rw [← evaluatePrepared_blind returned] at after
    refine ⟨?_, fun evaluation here => ?_⟩
    · rw [Option.toList_some, requestsOf_singleton]
      exact after
    · cases Option.mem_def.mp here
      exact sound

/-- Any calls keep the ledger, and all their evaluations are sound. -/
theorem runBlinds_ledger {calls : List BlindCall} {state final : BlindState}
    {requests : Multiset Nat} {log : List Evaluation}
    (ledger : BlindLedger group.toPublicParameters state requests)
    (ran : runBlinds group.toPublicParameters shake256 key keepsSelf calls state =
      some (log, final)) :
    BlindLedger group.toPublicParameters final (requests + requestsOf log) ∧
      ∀ evaluation ∈ log, evaluation.Sound shake256 key := by
  induction calls generalizing state requests log with
  | nil =>
    cases ran
    exact ⟨by simpa using ledger, by simp⟩
  | cons call calls ih =>
    obtain ⟨⟨logged, between⟩, stepped, rest⟩ := Option.bind_eq_some_iff.mp ran
    obtain ⟨⟨later, reached⟩, ranLater, joined⟩ := Option.map_eq_some_iff.mp rest
    cases joined
    obtain ⟨ledgerBetween, soundFirst⟩ := blindStep_ledger ledger stepped
    obtain ⟨ledgerFinal, soundLater⟩ := ih ledgerBetween ranLater
    constructor
    · rw [requestsOf_append, ← add_assoc]
      exact ledgerFinal
    · intro evaluation inside
      cases List.mem_append.mp inside with
      | inl first => exact soundFirst evaluation (Option.mem_toList.mp first)
      | inr second => exact soundLater evaluation second

/-- After any calls on blinds no draw was used in two requests, and every call on a consumed blind
threw and changed nothing. All evaluations that returned gave what `DirectEvaluate` gives if and
only if none was made on an unconsumed blind whose scalar had been moved away. -/
theorem runBlinds_one_time {calls : List BlindCall} {final : BlindState} {log : List Evaluation}
    (ran : runBlinds group.toPublicParameters shake256 key keepsSelf calls ⟨[], []⟩ =
      some (log, final)) :
    (log.filterMap Evaluation.request).Nodup ∧
    (∀ evaluation ∈ log,
      evaluation.object.Holds group.toPublicParameters evaluation.before.drawn) ∧
    (∀ evaluation ∈ log, evaluation.object.blind.consumed = true →
      evaluation.returned = .error (.logicError "prepared OPRF blind was reused") ∧
        evaluation.after = evaluation.before) ∧
    ((∀ evaluation ∈ log, ∀ output, evaluation.returned = .ok output →
        directEvaluate group.toPublicParameters shake256 key evaluation.input =
          some (.ok output)) ↔
      ∀ evaluation ∈ log,
        evaluation.object.blind.consumed = true ∨ evaluation.object.blind.scalar ≠ 0) := by
  obtain ⟨ledger, sound⟩ := runBlinds_ledger (.initial _) ran
  rw [zero_add] at ledger
  have distinct := Multiset.nodup_of_le (Multiset.le_add_right _ _) ledger.distinct
  refine ⟨Multiset.coe_nodup.mp distinct, fun evaluation inside => (sound evaluation inside).holds,
    fun evaluation inside => (sound evaluation inside).reused, ?_⟩
  constructor
  · intro agree evaluation inside
    by_contra moved
    rw [not_or, not_not, Bool.not_eq_true] at moved
    obtain ⟨output, returned, different⟩ := (sound evaluation inside).foreign moved.1 moved.2
    exact different (agree evaluation inside output returned)
  · intro held evaluation inside output returned
    cases held evaluation inside with
    | inl consumed =>
      have threw := ((sound evaluation inside).reused consumed).1
      rw [returned] at threw
      contradiction
    | inr nonzero =>
      cases consumed : evaluation.object.blind.consumed with
      | true =>
        have threw := ((sound evaluation inside).reused consumed).1
        rw [returned] at threw
        contradiction
      | false =>
        rw [← returned]
        exact (sound evaluation inside).direct consumed nonzero

end Runs

/-! ## Runs in the small group -/

/-- A run in the small group under the key 3. -/
def smallRun (calls : List BlindCall) : Option (List Evaluation × BlindState) :=
  runBlinds smallGroup.toPublicParameters lengthShake256 ⟨3, by decide, by decide⟩ true calls
    ⟨[], []⟩

/-- The blocks that give the scalar 7. -/
def sevenBlocks : Nat → Bytes scalarBytes := fun _ => (storeBigEndian scalarBytes 7).1

/-- The flag and the scalar of the blind of an evaluation. -/
def Evaluation.flagAndScalar (evaluation : Evaluation) : Bool × Nat :=
  (evaluation.object.blind.consumed, evaluation.object.blind.scalar)

/-- The flags and scalars of the blinds evaluated in a run. -/
def blindsOf (ran : Option (List Evaluation × BlindState)) : Option (List (Bool × Nat)) :=
  ran.map fun ended => ended.1.map Evaluation.flagAndScalar

/-- A blind is prepared, evaluated, moved and evaluated again. -/
theorem runBlinds_one_time_small :
    ∃ log final, smallRun [.prepareBlind 1 sevenBlocks, .evaluatePrepared [] 0, .moveConstruct 0,
        .evaluatePrepared [] 1] = some (log, final) ∧
      (log.filterMap Evaluation.request).Nodup ∧
      ∀ evaluation ∈ log, ∀ output, evaluation.returned = .ok output →
        directEvaluate smallGroup.toPublicParameters lengthShake256 ⟨3, by decide, by decide⟩
          evaluation.input = some (.ok output) := by
  have blinds : blindsOf (smallRun [.prepareBlind 1 sevenBlocks, .evaluatePrepared [] 0,
      .moveConstruct 0, .evaluatePrepared [] 1]) = some [(false, 7), (true, 7)] := by
    decide +kernel
  obtain ⟨⟨log, final⟩, ran, listed⟩ := Option.map_eq_some_iff.mp blinds
  obtain ⟨distinct, -, -, agree⟩ := runBlinds_one_time ran
  refine ⟨log, final, ran, distinct, agree.mpr fun evaluation inside => ?_⟩
  have member : evaluation.flagAndScalar ∈ log.map Evaluation.flagAndScalar :=
    List.mem_map_of_mem inside
  rw [listed, List.mem_cons, List.mem_singleton] at member
  apply Or.inr
  cases member with
  | inl first =>
    rw [(Prod.mk.inj first).2]
    decide
  | inr second =>
    rw [(Prod.mk.inj second).2]
    decide

/-- A blind is prepared and moved, and the object moved away from is evaluated: it returns bytes
that `DirectEvaluate` does not return. -/
theorem moved_blind_evaluated :
    ∃ log final, smallRun [.prepareBlind 1 sevenBlocks, .moveConstruct 0,
        .evaluatePrepared [] 0] = some (log, final) ∧
      ∃ evaluation ∈ log, ∃ output, evaluation.returned = .ok output ∧
        directEvaluate smallGroup.toPublicParameters lengthShake256 ⟨3, by decide, by decide⟩
          evaluation.input ≠ some (.ok output) := by
  have blinds : blindsOf (smallRun [.prepareBlind 1 sevenBlocks, .moveConstruct 0,
      .evaluatePrepared [] 0]) = some [(false, 0)] := by
    decide +kernel
  obtain ⟨⟨log, final⟩, ran, listed⟩ := Option.map_eq_some_iff.mp blinds
  have sound := (runBlinds_ledger (.initial _) ran).2
  cases log with
  | nil => simp at listed
  | cons evaluation others =>
    have moved : evaluation.flagAndScalar = (false, 0) := (List.cons.inj listed).1
    obtain ⟨unconsumed, zero⟩ := Prod.mk.inj moved
    have here : evaluation ∈ evaluation :: others := List.mem_cons_self
    exact ⟨_, final, ran, evaluation, here, (sound evaluation here).foreign unconsumed zero⟩

end Vlse.Oprf
