import Mathlib.Algebra.Ring.Nat
import Mathlib.Data.List.Induction
import Mathlib.Data.List.Nodup
import Mathlib.Tactic.Common
/-!
# Rows grouped by a key

A dictionary of lists, filled row by row, holds the rows of each key in their order, under the keys
in the order of their first rows. No list is empty, so a group is kept as its first row and the
later ones. The keys are those of the rows, and the group of a key is the part of the rows with it.
A dictionary of counters numbers the rows of each key. In a dictionary of single values a key that
is set again keeps its place.
-/

namespace Vlse

/-- An entry of the dictionary. -/
structure Group (Key Row : Type*) where
  /-- The key. -/
  key : Key
  /-- The row that made the entry. -/
  first : Row
  /-- The rows that were appended to it. -/
  others : List Row

/-- The list of the entry. -/
def Group.rows {Key Row : Type*} (group : Group Key Row) : List Row := group.first :: group.others

variable {Key Row : Type*} [DecidableEq Key] (key : Row → Key)

/-- `groups.setdefault(key, []).append(row)`. -/
def addRow (row : Row) : List (Group Key Row) → List (Group Key Row)
  | [] => [⟨key row, row, []⟩]
  | group :: groups =>
    if group.key = key row then { group with others := group.others ++ [row] } :: groups
    else group :: addRow row groups

/-- The groups of all rows, added one after the other. -/
def groupRows (rows : List Row) : List (Group Key Row) :=
  rows.foldl (fun groups row => addRow key row groups) []

/-- What the dictionary holds after some rows. -/
structure Grouped (rows : List Row) (groups : List (Group Key Row)) : Prop where
  /-- No key occurs twice. -/
  distinct : (groups.map Group.key).Nodup
  /-- The keys are those of the rows. -/
  keys : ∀ name, name ∈ groups.map Group.key ↔ ∃ row ∈ rows, key row = name
  /-- Under a key are the rows with that key, in order. -/
  members : ∀ group ∈ groups, group.rows = rows.filter fun row => key row = group.key

variable {key}

/-- Adding a row leaves the keys alone when its key is one of them. -/
theorem map_key_addRow_of_mem {row : Row} {groups : List (Group Key Row)}
    (known : key row ∈ groups.map Group.key) :
    (addRow key row groups).map Group.key = groups.map Group.key := by
  induction groups with
  | nil => simp at known
  | cons group groups ih =>
    rw [addRow]
    split
    · rfl
    · rename_i apart
      rw [List.map_cons, List.mem_cons] at known
      rw [List.map_cons, List.map_cons, ih (known.resolve_left (Ne.symm apart))]

/-- Adding a row with a new key adds a group at the end, with the row alone. -/
theorem addRow_of_not_mem {row : Row} {groups : List (Group Key Row)}
    (new : key row ∉ groups.map Group.key) :
    addRow key row groups = groups ++ [⟨key row, row, []⟩] := by
  induction groups with
  | nil => rfl
  | cons group groups ih =>
    rw [List.map_cons, List.mem_cons, not_or] at new
    rw [addRow, if_neg (Ne.symm new.1), ih new.2, List.cons_append]

/-- The groups after a row was added to a known one: that one has the row at its end, the others
are as before. -/
theorem mem_addRow_of_mem {row : Row} {groups : List (Group Key Row)} {group : Group Key Row}
    (distinct : (groups.map Group.key).Nodup) (known : key row ∈ groups.map Group.key)
    (inside : group ∈ addRow key row groups) :
    (∃ old ∈ groups, old.key = key row ∧ group = { old with others := old.others ++ [row] }) ∨
      (group.key ≠ key row ∧ group ∈ groups) := by
  induction groups with
  | nil => simp at known
  | cons first groups ih =>
    rw [List.map_cons, List.nodup_cons] at distinct
    rw [addRow] at inside
    split at inside
    · rename_i here
      rcases List.mem_cons.mp inside with rfl | later
      · exact .inl ⟨first, List.mem_cons_self, here, rfl⟩
      · refine .inr ⟨fun same => distinct.1 ?_, List.mem_cons_of_mem _ later⟩
        rw [here, ← same]
        exact List.mem_map_of_mem later
    · rename_i apart
      rw [List.map_cons, List.mem_cons] at known
      rcases List.mem_cons.mp inside with rfl | later
      · exact .inr ⟨apart, List.mem_cons_self⟩
      · refine (ih distinct.2 (known.resolve_left (Ne.symm apart)) later).imp ?_ ?_
        · rintro ⟨old, member, appended⟩
          exact ⟨old, List.mem_cons_of_mem _ member, appended⟩
        · rintro ⟨other, member⟩
          exact ⟨other, List.mem_cons_of_mem _ member⟩

/-- A row joins a group that exists. -/
theorem Grouped.add_known {rows : List Row} {groups : List (Group Key Row)}
    (grouped : Grouped key rows groups) {row : Row} (known : key row ∈ groups.map Group.key) :
    Grouped key (rows ++ [row]) (addRow key row groups) := by
  have kept := map_key_addRow_of_mem known
  refine ⟨kept ▸ grouped.distinct, fun name => ?_, fun group inside => ?_⟩
  · rw [kept, grouped.keys]
    constructor
    · rintro ⟨other, member, named⟩
      exact ⟨other, List.mem_append_left _ member, named⟩
    · rintro ⟨other, member, named⟩
      rcases List.mem_append.mp member with earlier | last
      · exact ⟨other, earlier, named⟩
      · rw [List.mem_singleton.mp last] at named
        exact (grouped.keys name).mp (named ▸ known)
  · rcases mem_addRow_of_mem grouped.distinct known inside with mine | other
    · obtain ⟨old, member, same, rfl⟩ := mine
      have before := grouped.members old member
      change (old.first :: old.others) ++ [row] = _
      rw [← Group.rows, before, List.filter_append]
      simp [same]
    · rw [grouped.members _ other.2, List.filter_append]
      simp [Ne.symm other.1]

/-- A row with a new key has a group of its own. -/
theorem Grouped.add_new {rows : List Row} {groups : List (Group Key Row)}
    (grouped : Grouped key rows groups) {row : Row} (new : key row ∉ groups.map Group.key) :
    Grouped key (rows ++ [row]) (addRow key row groups) := by
  have fresh : ∀ other ∈ rows, key other ≠ key row := fun other member same =>
    new ((grouped.keys _).mpr ⟨other, member, same⟩)
  rw [addRow_of_not_mem new]
  refine ⟨?_, fun name => ?_, fun group inside => ?_⟩
  · rw [List.map_append, List.nodup_append]
    refine ⟨grouped.distinct, List.nodup_singleton _, fun name member other last same => ?_⟩
    rw [List.map_singleton, List.mem_singleton] at last
    rw [same, last] at member
    exact new member
  · rw [List.map_append, List.mem_append, grouped.keys]
    simp [or_and_right, exists_or, eq_comm]
  · rcases List.mem_append.mp inside with earlier | last
    · have apart : key row ≠ group.key := fun same => new (same ▸ List.mem_map_of_mem earlier)
      rw [grouped.members _ earlier, List.filter_append]
      simp [apart]
    · have nothing : (rows.filter fun other => key other = key row) = [] :=
        List.filter_eq_nil_iff.mpr fun other member => by simpa using fresh other member
      rw [List.mem_singleton.mp last, List.filter_append]
      simp [nothing, Group.rows]

/-- The dictionary of all rows. -/
theorem grouped_groupRows (rows : List Row) : Grouped key rows (groupRows key rows) := by
  induction rows using List.reverseRecOn with
  | nil => exact ⟨List.nodup_nil, by simp [groupRows], by simp [groupRows]⟩
  | append_singleton rows row ih =>
    rw [groupRows, List.foldl_append, List.foldl_cons, List.foldl_nil, ← groupRows]
    by_cases known : key row ∈ (groupRows key rows).map Group.key
    · exact ih.add_known known
    · exact ih.add_new known

/-- A row is in the group of its key. -/
theorem Grouped.mem_rows {rows : List Row} {groups : List (Group Key Row)}
    (grouped : Grouped key rows groups) {group : Group Key Row} (member : group ∈ groups)
    {row : Row} : row ∈ group.rows ↔ row ∈ rows ∧ key row = group.key := by
  rw [grouped.members group member, List.mem_filter, decide_eq_true_eq]

/-- A row adds one to the rows of all groups. -/
theorem sum_length_addRow (row : Row) (groups : List (Group Key Row)) :
    ((addRow key row groups).map fun group => group.rows.length).sum =
      (groups.map fun group => group.rows.length).sum + 1 := by
  induction groups with
  | nil => rfl
  | cons group groups ih =>
    rw [addRow]
    split
    · have appended : (group.first :: (group.others ++ [row])).length = group.rows.length + 1 := by
        rw [List.length_cons, List.length_append]
        rfl
      have first : Group.rows { group with others := group.others ++ [row] } =
          group.first :: (group.others ++ [row]) := rfl
      rw [List.map_cons, List.map_cons, List.sum_cons, List.sum_cons, first, appended]
      omega
    · rw [List.map_cons, List.map_cons, List.sum_cons, List.sum_cons, ih]
      omega

/-- Every row is in one group. -/
theorem sum_length_groupRows (rows : List Row) :
    ((groupRows key rows).map fun group => group.rows.length).sum = rows.length := by
  induction rows using List.reverseRecOn with
  | nil => rfl
  | append_singleton rows row ih =>
    rw [groupRows, List.foldl_append, List.foldl_cons, List.foldl_nil, ← groupRows,
      sum_length_addRow, ih, List.length_append, List.length_singleton]

/-! ## Counters -/

section Counters

variable (key)

/-- `counters[key] = counters.get(key, 0) + 1` for one row after the other, with the number that
each row is given. -/
def numberRows (counters : Key → Nat) : List Row → List (Row × Nat)
  | [] => []
  | row :: rows =>
    let number := counters (key row) + 1
    (row, number) :: numberRows (Function.update counters (key row) number) rows

/-- The counters after some rows. -/
def countRows (counters : Key → Nat) (rows : List Row) : Key → Nat := fun name =>
  counters name + rows.countP fun row => key row = name

variable {key}

/-- One row counts for its key. -/
theorem countRows_cons (counters : Key → Nat) (row : Row) (rows : List Row) :
    countRows key counters (row :: rows) =
      countRows key (Function.update counters (key row) (counters (key row) + 1)) rows := by
  funext name
  rw [countRows, countRows, List.countP_cons]
  by_cases same : key row = name
  · subst same
    simp only [Function.update_self, decide_true, if_true]
    omega
  · rw [Function.update_of_ne (Ne.symm same)]
    simp only [same, decide_false, Bool.false_eq_true, if_false]
    omega

/-- Later rows count on. -/
theorem countRows_append (counters : Key → Nat) (rows others : List Row) :
    countRows key counters (rows ++ others) =
      countRows key (countRows key counters rows) others := by
  funext name
  rw [countRows, countRows, countRows, List.countP_append, Nat.add_assoc]

/-- Later rows are numbered with the counters after the earlier ones. -/
theorem numberRows_append (counters : Key → Nat) (rows others : List Row) :
    numberRows key counters (rows ++ others) =
      numberRows key counters rows ++ numberRows key (countRows key counters rows) others := by
  induction rows generalizing counters with
  | nil => rfl
  | cons row rows ih =>
    rw [List.cons_append, numberRows, numberRows, ih, countRows_cons]
    rfl

/-- The numbers depend on the keys alone. -/
theorem numbers_eq_of_keys {Other : Type*} {otherKey : Other → Key} {counters : Key → Nat}
    {rows : List Row} {others : List Other} (same : rows.map key = others.map otherKey) :
    (numberRows key counters rows).map Prod.snd =
      (numberRows otherKey counters others).map Prod.snd := by
  induction rows generalizing counters others with
  | nil =>
    have none : others = [] := List.map_eq_nil_iff.mp same.symm
    rw [none]
    rfl
  | cons row rows ih =>
    cases others with
    | nil => contradiction
    | cons other others =>
      rw [List.map_cons, List.map_cons, List.cons.injEq] at same
      rw [numberRows, numberRows]
      simp only [List.map_cons, same.1]
      rw [ih same.2]

end Counters

/-! ## Dictionaries -/

section Dictionary

variable {Value : Type*}

/-- `entries[key] = value`, in the order of insertion. -/
def setKey (key : Key) (value : Value) : List (Key × Value) → List (Key × Value)
  | [] => [(key, value)]
  | entry :: entries =>
    if entry.1 = key then (key, value) :: entries else entry :: setKey key value entries

variable {key : Key} {value : Value} {entries : List (Key × Value)}

/-- A new key is appended. -/
theorem setKey_append (new : key ∉ entries.map Prod.fst) :
    setKey key value entries = entries ++ [(key, value)] := by
  induction entries with
  | nil => rfl
  | cons entry entries ih =>
    rw [List.map_cons, List.mem_cons, not_or] at new
    rw [setKey, if_neg (Ne.symm new.1), ih new.2, List.cons_append]

/-- The entries afterwards are the new one and some of those before. -/
theorem eq_or_mem_of_mem_setKey {entry : Key × Value} (listed : entry ∈ setKey key value entries) :
    entry = (key, value) ∨ entry ∈ entries := by
  induction entries with
  | nil => exact .inl (List.mem_singleton.mp listed)
  | cons first entries ih =>
    rw [setKey] at listed
    split at listed
    · exact (List.mem_cons.mp listed).imp_right (List.mem_cons_of_mem first)
    · rcases List.mem_cons.mp listed with rfl | later
      · exact .inr List.mem_cons_self
      · exact (ih later).imp_right (List.mem_cons_of_mem first)

/-- The keys afterwards are the new one and those before. -/
theorem mem_keys_setKey {name : Key} :
    name ∈ (setKey key value entries).map Prod.fst ↔ name = key ∨ name ∈ entries.map Prod.fst := by
  induction entries with
  | nil => simp [setKey]
  | cons entry entries ih =>
    rw [setKey]
    split
    · rename_i same
      rw [List.map_cons, List.map_cons, List.mem_cons, List.mem_cons, same]
      tauto
    · rw [List.map_cons, List.map_cons, List.mem_cons, List.mem_cons, ih]
      tauto

/-- `entries[key] = value` for some keys, one after the other. -/
def setKeys (entries new : List (Key × Value)) : List (Key × Value) :=
  new.foldl (fun entries entry => setKey entry.1 entry.2 entries) entries

/-- The entries afterwards are some of the new ones and of those before. -/
theorem mem_or_mem_of_mem_setKeys {new : List (Key × Value)} {entry : Key × Value}
    (listed : entry ∈ setKeys entries new) : entry ∈ new ∨ entry ∈ entries := by
  induction new generalizing entries with
  | nil => exact .inr listed
  | cons first new ih =>
    rcases ih listed with later | earlier
    · exact .inl (List.mem_cons_of_mem first later)
    · rcases eq_or_mem_of_mem_setKey earlier with rfl | before
      · exact .inl List.mem_cons_self
      · exact .inr before

/-- The keys afterwards are the new ones and those before. -/
theorem mem_keys_setKeys {new : List (Key × Value)} {name : Key} :
    name ∈ (setKeys entries new).map Prod.fst ↔
      name ∈ new.map Prod.fst ∨ name ∈ entries.map Prod.fst := by
  induction new generalizing entries with
  | nil => simp [setKeys]
  | cons first new ih =>
    rw [setKeys, List.foldl_cons, ← setKeys, ih, mem_keys_setKey, List.map_cons, List.mem_cons]
    tauto

end Dictionary

end Vlse
