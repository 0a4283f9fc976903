import Mathlib.Data.List.Sort
/-!
# Ascending lists

Sorting a list and then dropping each item equal to the one before it leaves the strictly
ascending list of its members. A strictly ascending list is determined by its members, so the
result depends on them alone.
-/

namespace Vlse

variable {α : Type*} [LinearOrder α]

/-- Keep the first item of every run of equal items. -/
def unique : List α → List α
  | [] => []
  | [item] => [item]
  | item :: next :: items => if item = next then unique (next :: items)
    else item :: unique (next :: items)

/-- Dropping repetitions keeps the members. -/
@[simp] theorem mem_unique (items : List α) (item : α) : item ∈ unique items ↔ item ∈ items := by
  fun_induction unique items with
  | case1 => rfl
  | case2 => rfl
  | case3 next items ih =>
    rw [ih, List.mem_cons, List.mem_cons, List.mem_cons]
    tauto
  | case4 head next items apart ih => rw [List.mem_cons, ih, ← List.mem_cons]

/-- Dropping repetitions keeps the order. -/
theorem unique_sublist (items : List α) : (unique items).Sublist items := by
  fun_induction unique items with
  | case1 => exact .slnil
  | case2 => exact List.Sublist.refl _
  | case3 next items ih => exact ih.cons next
  | case4 head next items apart ih => exact ih.cons_cons head

/-- Dropping repetitions of a sorted list leaves a strictly ascending list. -/
theorem unique_ascending (items : List α) (sorted : items.Pairwise (· ≤ ·)) :
    (unique items).Pairwise (· < ·) := by
  fun_induction unique items with
  | case1 => exact .nil
  | case2 => exact List.pairwise_singleton _ _
  | case3 next items ih => exact ih sorted.of_cons
  | case4 head next items apart ih =>
    rw [List.pairwise_cons]
    refine ⟨fun later inside => ?_, ih sorted.of_cons⟩
    rw [mem_unique] at inside
    have below : head < next := lt_of_le_of_ne (List.rel_of_pairwise_cons sorted (by simp)) apart
    rcases List.mem_cons.mp inside with rfl | further
    · exact below
    · exact below.trans_le (List.rel_of_pairwise_cons sorted.of_cons further)

/-- The strictly ascending list of the members of a list. -/
def ascending (items : List α) : List α := unique (items.insertionSort (· ≤ ·))

/-- It has the members of the list. -/
@[simp] theorem mem_ascending (items : List α) (item : α) :
    item ∈ ascending items ↔ item ∈ items := by
  rw [ascending, mem_unique, List.mem_insertionSort]

/-- It is strictly ascending. -/
theorem ascending_pairwise (items : List α) : (ascending items).Pairwise (· < ·) :=
  unique_ascending _ (List.pairwise_insertionSort _ _)

/-- A strictly ascending list is determined by its members. -/
theorem eq_of_ascending {left right : List α} (first : left.Pairwise (· < ·))
    (second : right.Pairwise (· < ·)) (same : ∀ item, item ∈ left ↔ item ∈ right) :
    left = right := by
  have reordered : left.Perm right :=
    (List.perm_ext_iff_of_nodup (first.imp ne_of_lt) (second.imp ne_of_lt)).mpr same
  exact reordered.eq_of_pairwise (fun _ _ _ _ before after => absurd after (lt_asymm before))
    first second

end Vlse
