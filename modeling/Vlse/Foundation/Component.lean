import Mathlib.Tactic.Common
/-!
# Components and refinement

A component takes calls and answers them; one call may have several answers, and several effects
for one answer. A run is a list of calls with their answers. One component refines another when
every step of it is matched by a step of the other with the same call and the same answer, between
related states; then every run of the first is a run of the second.
-/

namespace Vlse

/-- A component: which answers a call can have, and what state each of them leaves. -/
structure Component (State Call Answer : Type*) where
  /-- The component may answer the call so, going from one state to the other. -/
  step : State → Call → Answer → State → Prop

namespace Component

variable {State Other Call Answer : Type*}

/-- A run: the calls with their answers, from the first state to the last. -/
inductive Run (component : Component State Call Answer) :
    State → List (Call × Answer) → State → Prop
  /-- No call. -/
  | nil (state : State) : Run component state [] state
  /-- One call, then the others. -/
  | cons {state between after : State} {call : Call} {answer : Answer}
    {log : List (Call × Answer)} (first : component.step state call answer between)
    (later : Run component between log after) :
    Run component state ((call, answer) :: log) after

variable {component : Component State Call Answer} {abstract : Component Other Call Answer}

/-- What every step keeps, every run keeps. -/
theorem Run.keeps {invariant : State → Prop}
    (step : ∀ {state call answer after}, invariant state →
      component.step state call answer after → invariant after)
    {state after : State} {log : List (Call × Answer)} (run : component.Run state log after)
    (holds : invariant state) : invariant after := by
  induction run with
  | nil state => exact holds
  | cons first later ih => exact ih (step holds first)

/-- Every step of a component is matched by one of another, between related states. -/
structure Refines (component : Component State Call Answer)
    (abstract : Component Other Call Answer) (related : State → Other → Prop) : Prop where
  /-- How a step is matched. -/
  step : ∀ {state other call answer after}, related state other →
    component.step state call answer after →
      ∃ next, abstract.step other call answer next ∧ related after next

/-- Every run of a component that refines another is a run of the other, and ends in a related
state. -/
theorem Refines.run {related : State → Other → Prop}
    (refines : Refines component abstract related) {state after : State}
    {log : List (Call × Answer)} (run : component.Run state log after) {other : Other}
    (start : related state other) : ∃ last, abstract.Run other log last ∧ related after last := by
  induction run generalizing other with
  | nil state => exact ⟨other, .nil other, start⟩
  | cons first later ih =>
    obtain ⟨next, matched, between⟩ := refines.step start first
    obtain ⟨last, rest, ended⟩ := ih between
    exact ⟨last, .cons matched rest, ended⟩

end Component

end Vlse
