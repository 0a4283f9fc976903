import Mathlib.Data.Fintype.Card
import Mathlib.Data.Fintype.Pigeonhole
import Mathlib.Logic.Function.Iterate
/-!
# Searching along an iteration

A loop steps a deterministic state until a test on the state yields a result. When the states
are finitely many the loop visits all it ever will within as many steps as there are states, so
a bounded search decides the unbounded loop exactly: it finds nothing only when no number of
steps would.
-/

namespace Vlse

variable {σ α : Type*}

/-- Step a state until the test yields, at most `limit` tests. -/
def search (step : σ → σ) (test : σ → Option α) : Nat → σ → Option α
  | 0, _ => none
  | limit + 1, state =>
    match test state with
    | some result => some result
    | none => search step test limit (step state)

/-- A bounded search fails when every state it visits fails the test. -/
theorem search_eq_none (step : σ → σ) (test : σ → Option α) (limit : Nat) (state : σ) :
    search step test limit state = none ↔ ∀ count < limit, test (step^[count] state) = none := by
  induction limit generalizing state with
  | zero => simp [search]
  | succ limit ih =>
    rw [search]
    cases here : test state with
    | some result =>
      constructor
      · simp
      · intro failed
        have := failed 0 (Nat.succ_pos _)
        rw [Function.iterate_zero_apply, here] at this
        contradiction
    | none =>
      rw [ih]
      constructor
      · intro later count below
        cases count with
        | zero => exact here
        | succ count => exact later count (by omega)
      · intro failed count below
        exact failed (count + 1) (by omega)

/-- A search yields the test of the first state it visits that passes. -/
theorem search_eq_some_first {step : σ → σ} {test : σ → Option α} {limit : Nat} {state : σ}
    {result : α} (found : search step test limit state = some result) :
    ∃ count < limit, test (step^[count] state) = some result ∧
      ∀ earlier < count, test (step^[earlier] state) = none := by
  induction limit generalizing state with
  | zero => simp [search] at found
  | succ limit ih =>
    rw [search] at found
    cases here : test state with
    | some value =>
      rw [here] at found
      refine ⟨0, Nat.succ_pos _, ?_, fun earlier before => absurd before (Nat.not_lt_zero _)⟩
      rw [Function.iterate_zero_apply, here]
      exact found
    | none =>
      rw [here] at found
      obtain ⟨count, below, hit, failed⟩ := ih found
      refine ⟨count + 1, by omega, hit, fun earlier before => ?_⟩
      cases earlier with
      | zero => exact here
      | succ earlier => exact failed earlier (by omega)

/-- A search that yields yields the test of a state it visits. -/
theorem search_eq_some {step : σ → σ} {test : σ → Option α} {limit : Nat} {state : σ} {result : α}
    (found : search step test limit state = some result) :
    ∃ count < limit, test (step^[count] state) = some result := by
  obtain ⟨count, below, hit, -⟩ := search_eq_some_first found
  exact ⟨count, below, hit⟩

/-- Renaming the states stepped to, where a state that fails the test keeps its name, renames the
result. -/
theorem search_rename {step : σ → σ} {test : σ → Option α} {rename : σ → σ} {result : α → α}
    (tested : ∀ state, test (rename state) = (test state).map result)
    (fixed : ∀ state, test state = none → rename state = state) (limit : Nat) (state : σ) :
    search (fun state => rename (step state)) test limit (rename state) =
      (search step test limit state).map result := by
  induction limit generalizing state with
  | zero => rfl
  | succ limit ih =>
    rw [search, search, tested]
    cases here : test state with
    | some value => rfl
    | none => rw [Option.map_none, fixed state here, ih]

/-- Among finitely many states every iterate is already an early one. -/
theorem exists_early_iterate {size : Nat} (code : σ → Fin size)
    (injective : Function.Injective code) (step : σ → σ) (state : σ) (count : Nat) :
    ∃ early < size, step^[early] state = step^[count] state := by
  induction count using Nat.strong_induction_on with
  | _ count ih =>
    by_cases below : count < size
    · exact ⟨count, below, rfl⟩
    · obtain ⟨first, second, apart, same⟩ := Fintype.exists_ne_map_eq_of_card_lt
        (fun index : Fin (size + 1) => code (step^[index.val] state)) (by simp)
      -- two of the first iterates agree, so a later one moves back by their distance
      wlog order : first < second generalizing first second
      · exact this second first apart.symm same.symm (lt_of_le_of_ne (not_lt.mp order) apart.symm)
      have repeated : step^[second.val] state = step^[first.val] state := (injective same).symm
      have inside := second.isLt
      have before := Fin.lt_def.mp order
      obtain ⟨early, small, reached⟩ := ih (count - second.val + first.val) (by omega)
      refine ⟨early, small, reached.trans ?_⟩
      rw [Function.iterate_add_apply, ← repeated, ← Function.iterate_add_apply]
      congr 1
      omega

/-- Over finitely many states the bounded search fails only when the loop never ends. -/
theorem search_size_eq_none {size : Nat} (code : σ → Fin size)
    (injective : Function.Injective code) (step : σ → σ) (test : σ → Option α) (state : σ) :
    search step test size state = none ↔ ∀ count, test (step^[count] state) = none := by
  rw [search_eq_none]
  constructor
  · intro failed count
    obtain ⟨early, small, reached⟩ := exists_early_iterate code injective step state count
    rw [← reached]
    exact failed early small
  · exact fun failed count _ => failed count

end Vlse
