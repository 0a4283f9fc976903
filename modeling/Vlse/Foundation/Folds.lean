import Mathlib.Tactic.Common
/-!
# Loops that may fail

A loop whose turns may fail runs to its end when no turn fails. It refines a loop that cannot fail
when each turn keeps a relation between the two states; the relation may depend on a budget that
every turn draws from, so that a bound on the whole loop is a bound on what its turns use.
-/

namespace Vlse

variable {α σ τ : Type*}

/-- A loop none of whose turns fails runs to its end. -/
theorem foldlM_eq_some {step : σ → α → Option σ} (next : σ → α → σ) (items : List α)
    (passes : ∀ state, ∀ item ∈ items, step state item = some (next state item)) (state : σ) :
    items.foldlM step state = some (items.foldl next state) := by
  induction items generalizing state with
  | nil => rfl
  | cons item items ih =>
    have first := passes state item List.mem_cons_self
    have later := ih (fun state other inside =>
      passes state other (List.mem_cons_of_mem _ inside)) (next state item)
    rw [List.foldlM_cons, first, List.foldl_cons, ← later]
    rfl

/-- A loop refines another when every turn does and the budget covers all turns. -/
theorem foldlM_refines {step : σ → α → Option σ} {spec : τ → α → τ}
    (related : Nat → σ → τ → Prop) (cost : Nat)
    (turn : ∀ budget state abstract item, related (budget + cost) state abstract →
      ∃ after, step state item = some after ∧ related budget after (spec abstract item))
    (items : List α) (budget : Nat) (state : σ) (abstract : τ)
    (start : related (budget + cost * items.length) state abstract) :
    ∃ after, items.foldlM step state = some after ∧
      related budget after (items.foldl spec abstract) := by
  induction items generalizing state abstract with
  | nil => exact ⟨state, rfl, start⟩
  | cons item items ih =>
    rw [List.length_cons, Nat.mul_succ, ← Nat.add_assoc] at start
    obtain ⟨between, first, kept⟩ := turn _ state abstract item start
    obtain ⟨after, later, reached⟩ := ih between (spec abstract item) kept
    refine ⟨after, ?_, reached⟩
    rw [List.foldlM_cons, first]
    exact later

end Vlse
