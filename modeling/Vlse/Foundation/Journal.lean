import Mathlib.Tactic.Common
/-!
# Undo journals

A store has cells that are read and overwritten by address. A journal records, before every
overwrite, the cell that is about to be lost; replaying it backwards is the roll back. This
module owns the argument that the roll back gives back the very store the journal was started
on, for every number of writes and every repetition of addresses. It asks two laws of the
store: a second write to a cell hides the first, and in an admitted store writing back what was
just read changes nothing. A journal may also be kept in a vector whose room was reserved; the last
section is about when such a vector never has to grow.
-/

namespace Vlse

/-- Cells of type `Cell` at addresses of type `Address` in stores of type `Store`. -/
structure CellAccess (Store Address Cell : Type*) where
  /-- The cell at an address. -/
  read : Store → Address → Cell
  /-- Overwrite the cell at an address. -/
  write : Store → Address → Cell → Store

namespace CellAccess

variable {Store Address Cell : Type*}

/-- What an undo journal needs of a store: the admitted stores are closed under writing, a write
hides the previous one to its address, and an admitted store is unchanged by writing back. -/
structure Undoable (access : CellAccess Store Address Cell) (admitted : Store → Prop) : Prop where
  /-- Writing stays among the admitted stores. -/
  admitted_write : ∀ store address cell, admitted store → admitted (access.write store address cell)
  /-- The later of two writes to one address is the one that counts. -/
  write_write : ∀ store address first second,
    access.write (access.write store address first) address second =
      access.write store address second
  /-- Writing back the cell just read changes nothing. -/
  write_read : ∀ store address, admitted store →
    access.write store address (access.read store address) = store

/-- Record the cell at an address, then overwrite it. -/
def journalWrite (access : CellAccess Store Address Cell) (address : Address) (cell : Cell)
    (state : Store × List (Address × Cell)) : Store × List (Address × Cell) :=
  (access.write state.1 address cell, state.2 ++ [(address, access.read state.1 address)])

/-- Write the recorded cells back, the latest first. -/
def rollBack (access : CellAccess Store Address Cell) (journal : List (Address × Cell))
    (store : Store) : Store :=
  journal.reverse.foldl (fun current entry => access.write current entry.1 entry.2) store

/-- An empty journal rolls nothing back. -/
@[simp] theorem rollBack_nil (access : CellAccess Store Address Cell) (store : Store) :
    access.rollBack [] store = store := rfl

/-- The latest entry is written back first. -/
@[simp] theorem rollBack_append_singleton (access : CellAccess Store Address Cell)
    (journal : List (Address × Cell)) (entry : Address × Cell) (store : Store) :
    access.rollBack (journal ++ [entry]) store =
      access.rollBack journal (access.write store entry.1 entry.2) := by
  simp [rollBack]

/-- The journal of a store leads back to `origin`, through admitted stores only. -/
structure LeadsBack (access : CellAccess Store Address Cell) (admitted : Store → Prop)
    (origin : Store) (state : Store × List (Address × Cell)) : Prop where
  /-- The store reached is admitted. -/
  admitted : admitted state.1
  /-- Rolling its journal back gives the origin. -/
  back : access.rollBack state.2 state.1 = origin

variable {access : CellAccess Store Address Cell} {admitted : Store → Prop} {origin : Store}
  {state : Store × List (Address × Cell)}

/-- A journal starts empty on the store it leads back to. -/
theorem LeadsBack.start (legal : admitted origin) :
    access.LeadsBack admitted origin (origin, []) := ⟨legal, rfl⟩

/-- A journalled write keeps the way back. -/
theorem LeadsBack.journalWrite (laws : access.Undoable admitted)
    (before : access.LeadsBack admitted origin state) (address : Address) (cell : Cell) :
    access.LeadsBack admitted origin (access.journalWrite address cell state) where
  admitted := laws.admitted_write _ _ _ before.admitted
  back := by
    rw [CellAccess.journalWrite, rollBack_append_singleton, laws.write_write,
      laws.write_read _ _ before.admitted, before.back]

/-! ## Journals with reserved room -/

/-- A journalled write adds one entry. -/
theorem length_journalWrite (access : CellAccess Store Address Cell) (address : Address)
    (cell : Cell) (state : Store × List (Address × Cell)) :
    (access.journalWrite address cell state).2.length = state.2.length + 1 := by
  rw [CellAccess.journalWrite, List.length_append, List.length_singleton]

/-- A journalled write where the journal is a vector with room for so many entries; there is no
result where the vector would have to grow. -/
def journalWriteWithin (access : CellAccess Store Address Cell) (room : Nat) (address : Address)
    (cell : Cell) (state : Store × List (Address × Cell)) :
    Option (Store × List (Address × Cell)) :=
  if state.2.length < room then some (access.journalWrite address cell state) else none

/-- With room for one entry more the vector does not grow. -/
theorem journalWriteWithin_of_lt (access : CellAccess Store Address Cell) {room : Nat}
    {state : Store × List (Address × Cell)} (fits : state.2.length < room) (address : Address)
    (cell : Cell) :
    access.journalWriteWithin room address cell state =
      some (access.journalWrite address cell state) := if_pos fits

end CellAccess

end Vlse
