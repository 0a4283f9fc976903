import Mathlib.Algebra.BigOperators.Group.Finset.Piecewise
import Mathlib.Algebra.Order.BigOperators.Group.Finset
import Mathlib.Algebra.Order.Group.Multiset
import Mathlib.Data.Fintype.BigOperators
import Mathlib.Data.Sym.Sym2
/-!
# Items spread over cells

Finitely many cells hold items, and an item in a cell stands for an entry that depends on both.
What the cells hold together is the multiset of all entries. Replacing the content of one cell
trades its entries for new ones and touches nothing else, so a cell-by-cell account of a run adds
up to an account of the whole; and a selection of entries that can stand in two cells only is
read off those two.
-/

namespace Vlse

variable {ι α β : Type*} [Fintype ι]

/-- All entries of the items in the cells. -/
def spread (entry : ι → α → β) (cells : ι → Multiset α) : Multiset β :=
  ∑ cell, (cells cell).map (entry cell)

/-- Replacing the content of a cell trades its entries. -/
theorem spread_update [DecidableEq ι] (entry : ι → α → β) (cells : ι → Multiset α) (cell : ι)
    (content : Multiset α) :
    spread entry (Function.update cells cell content) + (cells cell).map (entry cell) =
      spread entry cells + content.map (entry cell) := by
  have outside : ∑ other ∈ Finset.univ.erase cell,
      (Function.update cells cell content other).map (entry other) =
        ∑ other ∈ Finset.univ.erase cell, (cells other).map (entry other) :=
    Finset.sum_congr rfl fun other inside => by
      rw [Function.update_of_ne (Finset.ne_of_mem_erase inside)]
  unfold spread
  rw [← Finset.add_sum_erase _ _ (Finset.mem_univ cell), outside, Function.update_self,
    ← Finset.add_sum_erase _ (fun other => (cells other).map (entry other)) (Finset.mem_univ cell)]
  ac_rfl

/-- All items with the cells that hold them. -/
def placements (cells : ι → Multiset α) : Multiset (ι × α) := spread Prod.mk cells

/-- Every account of the cells is read off the placements. -/
theorem spread_eq_map (entry : ι → α → β) (cells : ι → Multiset α) :
    spread entry cells = (placements cells).map fun place => entry place.1 place.2 := by
  have additive := map_sum (Multiset.mapAddMonoidHom fun place : ι × α => entry place.1 place.2)
    (fun cell => (cells cell).map (Prod.mk cell)) Finset.univ
  rw [Multiset.coe_mapAddMonoidHom] at additive
  refine Eq.trans (Finset.sum_congr rfl fun cell _ => ?_) additive.symm
  rw [Multiset.map_map]
  rfl

/-- The number of entries is the number of items. -/
theorem card_spread (entry : ι → α → β) (cells : ι → Multiset α) :
    (spread entry cells).card = ∑ cell, (cells cell).card := by
  rw [spread, Multiset.card_sum]
  simp only [Multiset.card_map]

/-- A selection of entries is the selection of the items that stand for them. -/
theorem filter_spread (entry : ι → α → β) (cells : ι → Multiset α) (selected : β → Prop)
    [DecidablePred selected] :
    (spread entry cells).filter selected =
      ∑ cell, ((cells cell).filter fun item => selected (entry cell item)).map (entry cell) := by
  have additive := map_sum (⟨⟨Multiset.filter selected, Multiset.filter_zero _⟩,
    Multiset.filter_add _⟩ : Multiset β →+ Multiset β)
      (fun cell => (cells cell).map (entry cell)) Finset.univ
  refine additive.trans (Finset.sum_congr rfl fun cell _ => ?_)
  exact Multiset.filter_map _ _ _

/-- Where cells hold at most so many items, the entries selected are few when they stand in few
cells. -/
theorem card_filter_spread_le (entry : ι → α → β) (cells : ι → Multiset α) (selected : β → Prop)
    [DecidablePred selected] {room : ℕ} {allowed : Finset ι}
    (small : ∀ cell, (cells cell).card ≤ room)
    (inside : ∀ cell, ∀ item ∈ cells cell, selected (entry cell item) → cell ∈ allowed) :
    ((spread entry cells).filter selected).card ≤ room * allowed.card := by
  rw [filter_spread, Multiset.card_sum]
  have outside : ∀ cell ∈ Finset.univ, cell ∉ allowed → (((cells cell).filter fun item =>
      selected (entry cell item)).map (entry cell)).card = 0 := by
    intro cell _ apart
    rw [Multiset.card_map, Multiset.card_eq_zero, Multiset.filter_eq_nil]
    exact fun item listed chosen => apart (inside cell item listed chosen)
  rw [← Finset.sum_subset (Finset.subset_univ allowed) outside, mul_comm, ← smul_eq_mul]
  refine Finset.sum_le_card_nsmul _ _ _ fun cell _ => ?_
  rw [Multiset.card_map]
  exact (Multiset.card_le_card (Multiset.filter_le _ _)).trans (small cell)

/-- A sum that vanishes outside two cells is the sum over the two. -/
theorem sum_eq_pair [DecidableEq ι] {γ : Type*} [AddCommMonoid γ] (amount : ι → γ)
    (first second : ι) (elsewhere : ∀ cell, cell ≠ first → cell ≠ second → amount cell = 0) :
    ∑ cell, amount cell =
      amount first + if second = first then 0 else amount second := by
  have inside : ∑ cell, amount cell = ∑ cell ∈ {first, second}, amount cell := by
    symm
    refine Finset.sum_subset (Finset.subset_univ _) fun cell _ outside => ?_
    rw [Finset.mem_insert, Finset.mem_singleton, not_or] at outside
    exact elsewhere cell outside.1 outside.2
  rw [inside]
  split
  · rename_i same
    simp [same]
  · rename_i apart
    exact Finset.sum_pair (Ne.symm apart)

/-- What a cell holds is read off the placements. -/
theorem cell_eq_map_placements [DecidableEq ι] (cells : ι → Multiset α) (cell : ι) :
    cells cell = ((placements cells).filter fun place => place.1 = cell).map Prod.snd := by
  have additive := map_sum (Multiset.mapAddMonoidHom (Prod.snd : ι × α → α))
    (fun other => ((cells other).filter fun _ => other = cell).map (Prod.mk other)) Finset.univ
  rw [placements, filter_spread]
  refine Eq.trans (Eq.symm ?_) additive.symm
  rw [Finset.sum_eq_single cell]
  · simp
  · intro other _ apart
    simp [apart]
  · intro outside
    exact absurd (Finset.mem_univ cell) outside

omit [Fintype ι] in
/-- A selection of placed items in two different cells is read off the two. -/
theorem filter_pair [DecidableEq ι] (places : Multiset (ι × α)) {first second : ι}
    (apart : second ≠ first) (selected : α → Prop) [DecidablePred selected] :
    places.filter (fun place => selected place.2 ∧ (place.1 = first ∨ place.1 = second)) =
      places.filter (fun place => selected place.2 ∧ place.1 = first) +
        places.filter fun place => selected place.2 ∧ place.1 = second := by
  rw [Multiset.filter_add_filter]
  have both : (places.filter fun place => (selected place.2 ∧ place.1 = first) ∧
      selected place.2 ∧ place.1 = second) = 0 :=
    Multiset.filter_eq_nil.mpr fun place _ there => apart (there.2.2.symm.trans there.1.2)
  rw [both, add_zero]
  apply Multiset.filter_congr
  intro place _
  rw [← and_or_left]

end Vlse
