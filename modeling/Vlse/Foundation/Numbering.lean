import Mathlib.Data.List.Nodup
import Mathlib.Logic.Function.Basic
/-!
# Numbering the items of a list

Two lookup tables are filled while a list is walked: the number of each item and the item of
each number. When no item repeats the tables are inverse to each other on the items walked and
on the numbers handed out; everywhere else they keep what they held before the walk.
-/

namespace Vlse

/-- Two tables under construction and the next number to hand out. -/
structure Numbering (α : Type*) where
  /-- The number of an item. -/
  encode : α → Nat
  /-- The item of a number. -/
  decode : Nat → α
  /-- The next number. -/
  next : Nat

namespace Numbering

variable {α : Type*} [DecidableEq α]

/-- Hand the next number to an item. -/
def assign (tables : Numbering α) (item : α) : Numbering α where
  encode := Function.update tables.encode item tables.next
  decode := Function.update tables.decode tables.next item
  next := tables.next + 1

/-- Number the items of a list in order. -/
def assignAll (tables : Numbering α) (items : List α) : Numbering α :=
  items.foldl assign tables

/-- Handing out a number moves on to the following one. -/
@[simp] theorem assign_next (tables : Numbering α) (item : α) :
    (tables.assign item).next = tables.next + 1 := rfl

/-- The first item is numbered first. -/
@[simp] theorem assignAll_cons (tables : Numbering α) (item : α) (items : List α) :
    tables.assignAll (item :: items) = (tables.assign item).assignAll items := rfl

/-- Numbers handed out before the walk, or never, keep their item. -/
theorem assignAll_decode_outside (items : List α) (tables : Numbering α) (number : Nat)
    (outside : number < tables.next ∨ tables.next + items.length ≤ number) :
    (tables.assignAll items).decode number = tables.decode number := by
  induction items generalizing tables with
  | nil => rfl
  | cons item items ih =>
    rw [List.length_cons] at outside
    rw [assignAll_cons, ih (tables.assign item) (by rw [assign_next]; omega), assign]
    exact Function.update_of_ne (by omega) _ _

/-- The numbers handed out decode to the items in order. -/
theorem assignAll_decode (items : List α) (tables : Numbering α) (index : Nat)
    (inside : index < items.length) :
    (tables.assignAll items).decode (tables.next + index) = items[index] := by
  induction items generalizing tables index with
  | nil => simp at inside
  | cons item items ih =>
    rw [assignAll_cons]
    cases index with
    | zero =>
      rw [assignAll_decode_outside _ _ _ (.inl (by simp))]
      simp [assign]
    | succ index =>
      have later := ih (tables.assign item) index (by simpa using inside)
      rw [show tables.next + (index + 1) = (tables.assign item).next + index by
        rw [assign_next]; omega, later, List.getElem_cons_succ]

/-- Items that are not walked keep their number. -/
theorem assignAll_encode_outside (items : List α) (tables : Numbering α) (item : α)
    (absent : item ∉ items) :
    (tables.assignAll items).encode item = tables.encode item := by
  induction items generalizing tables with
  | nil => rfl
  | cons head items ih =>
    rw [List.mem_cons, not_or] at absent
    rw [assignAll_cons, ih _ absent.2, assign]
    exact Function.update_of_ne absent.1 _ _

/-- Without repetition, every item has the number of its place. -/
theorem assignAll_encode (items : List α) (tables : Numbering α) (fresh : items.Nodup)
    (index : Nat) (inside : index < items.length) :
    (tables.assignAll items).encode items[index] = tables.next + index := by
  induction items generalizing tables index with
  | nil => simp at inside
  | cons item items ih =>
    rw [List.nodup_cons] at fresh
    rw [assignAll_cons]
    cases index with
    | zero =>
      rw [List.getElem_cons_zero, assignAll_encode_outside _ _ _ fresh.1]
      simp [assign]
    | succ index =>
      rw [List.getElem_cons_succ, ih _ fresh.2 index (by simpa using inside), assign_next]
      omega

end Numbering

/-- Lists joined along a list do not repeat an item when none of them does and every item tells
which list it came from. -/
theorem nodup_flatMap_of_key {α β : Type*} {sources : List α} {branch : α → List β} (key : β → α)
    (fresh : sources.Nodup) (each : ∀ source ∈ sources, (branch source).Nodup)
    (told : ∀ source ∈ sources, ∀ item ∈ branch source, key item = source) :
    (sources.flatMap branch).Nodup := by
  rw [List.nodup_flatMap]
  refine ⟨each, fresh.imp_of_mem fun {left right} hl hr apart item inLeft inRight => apart ?_⟩
  rw [← told left hl item inLeft, told right hr item inRight]

end Vlse
