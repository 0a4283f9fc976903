import Mathlib.Tactic.TypeStar
/-!
# Guards in a checker

A checker raises at the first condition that holds and returns otherwise. It returns exactly when
none of its conditions holds. What follows a check, and a loop that collects results, return exactly
when each of their parts does.
-/

namespace Vlse

universe u

variable {E α : Type*} {β : Type u}

/-- `if fails: raise`. -/
def raiseIf (fails : Prop) [Decidable fails] (exception : E) : Except E Unit :=
  if fails then .error exception else .ok ()

/-- A guard returns exactly when its condition fails. -/
theorem raiseIf_eq_ok {fails : Prop} [Decidable fails] {exception : E} :
    raiseIf fails exception = .ok () ↔ ¬ fails := by
  unfold raiseIf
  by_cases raised : fails
  · simp [raised]
  · simp [raised]

/-- What follows a check returns exactly when the check does and it returns. -/
theorem check_bind_eq_ok {γ : Type} {check : Except E Unit} {next : Unit → Except E γ}
    {result : γ} :
    (check >>= next) = .ok result ↔ check = .ok () ∧ next () = .ok result := by
  cases check with
  | error exception => simp [bind, Except.bind]
  | ok done => simp [bind, Except.bind]

/-- A loop of checks returns exactly when every turn does. -/
theorem forM_eq_ok {items : List α} {check : α → Except E Unit} :
    items.forM check = .ok () ↔ ∀ item ∈ items, check item = .ok () := by
  induction items with
  | nil => simp [List.forM, pure, Except.pure]
  | cons item items ih =>
    change (check item >>= fun _ => items.forM check) = .ok () ↔ _
    rw [check_bind_eq_ok, ih, List.forall_mem_cons]

/-- A sequence returns exactly when its first part does, and the rest on what that returned. -/
theorem except_bind_eq_ok {γ : Type u} {first : Except E γ} {next : γ → Except E β}
    {result : β} :
    (first >>= next) = .ok result ↔ ∃ value, first = .ok value ∧ next value = .ok result := by
  cases first with
  | error exception => simp [bind, Except.bind]
  | ok value => simp [bind, Except.bind]

/-- Raising another exception leaves alone what returns. -/
theorem mapError_eq_ok {E' : Type*} {rename : E → E'} {check : Except E α} {result : α} :
    check.mapError rename = .ok result ↔ check = .ok result := by
  cases check with
  | error exception =>
    constructor
    · intro returned
      cases returned
    · intro returned
      cases returned
  | ok value =>
    constructor
    · intro returned
      cases returned
      rfl
    · intro returned
      cases returned
      rfl

/-- A loop that returned has the result of each of its turns. -/
theorem exists_mem_of_mapM {items : List α} {make : α → Except E β} {results : List β}
    (returned : items.mapM make = .ok results) {item : α} (member : item ∈ items) :
    ∃ result ∈ results, make item = .ok result := by
  induction items generalizing results with
  | nil => contradiction
  | cons first items ih =>
    rw [List.mapM_cons, except_bind_eq_ok] at returned
    obtain ⟨made, turn, returned⟩ := returned
    obtain ⟨rest, turns, returned⟩ := except_bind_eq_ok.mp returned
    cases returned
    rcases List.mem_cons.mp member with rfl | later
    · exact ⟨made, List.mem_cons_self, turn⟩
    · obtain ⟨result, kept, found⟩ := ih turns later
      exact ⟨result, List.mem_cons_of_mem _ kept, found⟩

/-- A loop returns when each of its turns does. -/
theorem exists_mapM_of_forall {items : List α} {make : α → Except E β}
    (turns : ∀ item ∈ items, ∃ result, make item = .ok result) :
    ∃ results, items.mapM make = .ok results := by
  induction items with
  | nil => exact ⟨[], rfl⟩
  | cons first items ih =>
    rw [List.forall_mem_cons] at turns
    obtain ⟨made, turn⟩ := turns.1
    obtain ⟨rest, returned⟩ := ih turns.2
    refine ⟨made :: rest, ?_⟩
    rw [List.mapM_cons, turn]
    change (items.mapM make >>= fun rest => pure (made :: rest)) = _
    rw [returned]
    rfl

/-- A computation whose result passed a test has that result. -/
theorem exists_of_any {ended : Option (Except E α)} {test : α → Bool}
    (passed : ended.any (fun ending => ending.toOption.any test) = true) :
    ∃ result, ended = some (.ok result) ∧ test result = true := by
  cases ended with
  | none => contradiction
  | some ending =>
    cases ending with
    | error exception => contradiction
    | ok result => exact ⟨result, rfl, passed⟩

end Vlse
