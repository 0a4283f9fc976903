import Mathlib.Tactic.Common
/-!
# Callbacks

A computation over a shared state may return, throw or not end at all. The rules say how a
property of the state, and the fact that a computation ends, pass through a sequence.
-/

namespace Vlse

/-- A computation over a shared state, which may throw or not end. -/
abbrev Callback (G E : Type*) (α : Type*) := G → Option (Except E α × G)

namespace Callback

variable {G E α β : Type*}

/-- Go on with the result unless the callback throws or does not return. -/
def bind (callback : Callback G E α) (next : α → Callback G E β) : Callback G E β := fun state =>
  match callback state with
  | none => none
  | some (.error exception, state) => some (.error exception, state)
  | some (.ok result, state) => next result state

/-- Return without a change of state. -/
def pure (result : α) : Callback G E α := fun state => some (.ok result, state)

/-- A computation that does not look at the state. -/
def lift (ended : Option (Except E α)) : Callback G E α := fun state =>
  ended.map fun ending => (ending, state)

/-- Run a computation so many times, until it throws or does not return. -/
def times (callback : Callback G E α) : Nat → Callback G E Unit
  | 0 => pure ()
  | count + 1 => callback.bind fun _ => times callback count

/-- A sequence returns when both parts do. -/
theorem bind_eq_ok {callback : Callback G E α} {next : α → Callback G E β} {state after : G}
    {result : β} (returned : bind callback next state = some (.ok result, after)) :
    ∃ middle between, callback state = some (.ok middle, between) ∧
      next middle between = some (.ok result, after) := by
  unfold bind at returned
  split at returned
  · contradiction
  · simp at returned
  · rename_i middle between first
    exact ⟨middle, between, first, returned⟩

/-- A sequence goes on with what its first part returns. -/
theorem bind_of_ok {callback : Callback G E α} {next : α → Callback G E β} {state between : G}
    {middle : α} (returned : callback state = some (.ok middle, between)) :
    bind callback next state = next middle between := by
  simp only [bind, returned]

/-- It throws what its first part throws. -/
theorem bind_of_error {callback : Callback G E α} {next : α → Callback G E β} {state between : G}
    {exception : E} (threw : callback state = some (.error exception, between)) :
    bind callback next state = some (.error exception, between) := by
  simp only [bind, threw]

/-- A computation that does not look at the state leaves it as it is. -/
theorem lift_eq_ok {ended : Option (Except E α)} {state after : G} {result : α}
    (returned : lift ended state = some (.ok result, after)) :
    ended = some (.ok result) ∧ after = state := by
  obtain ⟨ending, here, same⟩ := Option.map_eq_some_iff.mp returned
  obtain ⟨rfl, rfl⟩ := Prod.mk.inj same
  exact ⟨here, rfl⟩

/-! ## Sequences -/

/-- Returning first adds nothing to a sequence. -/
theorem pure_bind (result : α) (next : α → Callback G E β) :
    bind (pure result) next = next result := rfl

/-- Sequences associate. -/
theorem bind_assoc {γ : Type*} (first : Callback G E α) (second : α → Callback G E β)
    (third : β → Callback G E γ) :
    bind (bind first second) third = bind first fun result => bind (second result) third := by
  funext state
  cases ended : first state with
  | none => simp only [bind, ended]
  | some ending =>
    rcases ending with ⟨exception | result, between⟩
    · simp only [bind, ended]
    · simp only [bind, ended]

/-- Repetitions add up. -/
theorem times_add (callback : Callback G E α) (first second : Nat) :
    callback.times (first + second) =
      (callback.times first).bind fun _ => callback.times second := by
  induction first with
  | zero => rw [Nat.zero_add, times, pure_bind]
  | succ first ih => rw [Nat.succ_add, times, times, bind_assoc, ih]

/-- A repetition throws exactly when, after some repetitions that returned, the next one throws. -/
theorem times_eq_error_iff {callback : Callback G E α} {count : Nat} {state after : G}
    {exception : E} :
    callback.times count state = some (.error exception, after) ↔
      ∃ done < count, ∃ middle, callback.times done state = some (.ok (), middle) ∧
        callback middle = some (.error exception, after) := by
  induction count generalizing state with
  | zero => simp [times, pure]
  | succ count ih =>
    constructor
    · intro threw
      cases first : callback state with
      | none => simp [times, bind, first] at threw
      | some ending =>
        rcases ending with ⟨early | result, between⟩
        · simp only [times, bind, first, Option.some.injEq, Prod.mk.injEq,
            Except.error.injEq] at threw
          exact ⟨0, Nat.succ_pos _, state, rfl, by rw [first, threw.1, threw.2]⟩
        · simp only [times, bind, first] at threw
          obtain ⟨done, fewer, middle, reached, thrown⟩ := ih.mp threw
          exact ⟨done + 1, Nat.succ_lt_succ fewer, middle, by simpa only [times, bind, first],
            thrown⟩
    · rintro ⟨done, fewer, middle, reached, thrown⟩
      cases done with
      | zero =>
        obtain ⟨-, rfl⟩ := Prod.mk.inj (Option.some.inj reached)
        simp only [times, bind, thrown]
      | succ done =>
        obtain ⟨result, between, first, rest⟩ := bind_eq_ok reached
        simp only [times, bind, first]
        exact ih.mpr ⟨done, Nat.lt_of_succ_lt_succ fewer, middle, rest, thrown⟩

/-! ## What computations keep -/

/-- A computation keeps a property of the shared state, however it ends. -/
def Keeps (invariant : G → Prop) (callback : Callback G E α) : Prop :=
  ∀ state ending after, callback state = some (ending, after) → invariant state → invariant after

/-- A computation ends in every state, with a result unless it may throw. -/
def Ends (mayThrow : Prop) (callback : Callback G E α) : Prop :=
  ∀ state, ∃ ending after, callback state = some (ending, after) ∧
    ((∃ result, ending = .ok result) ∨ mayThrow)

variable {invariant : G → Prop} {callback : Callback G E α} {next : α → Callback G E β}

/-- Returning keeps everything. -/
theorem keeps_pure (result : α) : Keeps (E := E) invariant (pure result) := by
  intro state ending after ended holds
  obtain ⟨-, rfl⟩ := Prod.mk.inj (Option.some.inj ended)
  exact holds

/-- A sequence keeps what both parts keep. -/
theorem Keeps.bind (first : Keeps invariant callback)
    (second : ∀ result, Keeps invariant (next result)) :
    Keeps invariant (callback.bind next) := by
  intro state ending after ended holds
  unfold Callback.bind at ended
  split at ended
  · contradiction
  · rename_i exception between threw
    obtain ⟨-, rfl⟩ := Prod.mk.inj (Option.some.inj ended)
    exact first _ _ _ threw holds
  · rename_i result between returned
    exact second result _ _ _ ended (first _ _ _ returned holds)

/-- Returning ends. -/
theorem ends_pure (mayThrow : Prop) (result : α) : Ends (G := G) (E := E) mayThrow (pure result) :=
  fun state => ⟨.ok result, state, rfl, .inl ⟨result, rfl⟩⟩

/-- A sequence of computations that end ends. -/
theorem Ends.bind {mayThrow : Prop} (first : Ends mayThrow callback)
    (second : ∀ result, Ends mayThrow (next result)) : Ends mayThrow (callback.bind next) := by
  intro state
  obtain ⟨ending, between, ended, kind⟩ := first state
  cases ending with
  | ok result =>
    obtain ⟨final, after, finished, kind⟩ := second result between
    exact ⟨final, after, by rw [Callback.bind, ended]; exact finished, kind⟩
  | error exception =>
    refine ⟨.error exception, between, by rw [Callback.bind, ended], .inr ?_⟩
    rcases kind with ⟨result, impossible⟩ | thrown
    · contradiction
    · exact thrown

/-! ## What computations throw -/

/-- Whatever a computation throws is as described. -/
def Throws (described : E → Prop) (callback : Callback G E α) : Prop :=
  ∀ state exception after, callback state = some (.error exception, after) → described exception

variable {described : E → Prop}

/-- Returning throws nothing. -/
theorem throws_pure (result : α) : Throws (G := G) described (pure result) := by
  intro state exception after threw
  cases threw

/-- A sequence throws what one of its parts throws. -/
theorem Throws.bind (first : Throws described callback)
    (second : ∀ result, Throws described (next result)) :
    Throws described (callback.bind next) := by
  intro state exception after threw
  unfold Callback.bind at threw
  split at threw
  · contradiction
  · rename_i early between here
    obtain ⟨same, rfl⟩ := Prod.mk.inj (Option.some.inj threw)
    exact Except.error.inj same ▸ first _ _ _ here
  · exact second _ _ _ _ threw

end Callback

end Vlse
