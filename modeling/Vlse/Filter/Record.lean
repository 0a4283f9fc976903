import Mathlib.Data.List.Sort
import Mathlib.Data.Multiset.Filter
import Mathlib.Tactic.Common
/-!
# Records and decoded buckets

A bucket holds four records, each a fingerprint with the payload stored beside it; the zero
fingerprint marks an empty slot. This module owns the operations of the filter on a decoded
bucket and what they do to the records it holds: placing in an empty slot adds one, exchanging
with an occupied slot trades one for another, and the stable sort of `WriteBucket` only
reorders them.
-/

namespace Vlse.Filter

/-- `FingerprintBits` with the two static assertions on it. -/
structure FingerprintBits where
  /-- The width of a fingerprint. -/
  bits : Nat
  /-- Semi-sort encoding needs at least five fingerprint bits. -/
  lower : 5 ≤ bits
  /-- Fingerprints longer than 64 bits need a wider type. -/
  upper : bits ≤ 64

/-- The 43-bit fingerprints of the VLSE index. -/
def indexBits : FingerprintBits := ⟨43, by decide, by decide⟩

/-- A masked fingerprint: the words below `2 ^ FingerprintBits`. -/
abbrev Fingerprint (F : FingerprintBits) := BitVec F.bits

/-- `Record`. -/
@[ext] structure Record (F : FingerprintBits) (P : Type*) where
  /-- Zero in an empty slot. -/
  fingerprint : Fingerprint F
  /-- The payload sorted, evicted and rolled back with the fingerprint. -/
  payload : P
deriving DecidableEq

/-- `Bucket`: an array of `kSlotsPerBucket` = 4 records. -/
abbrev Bucket (F : FingerprintBits) (P : Type*) := Vector (Record F P) 4

variable {F : FingerprintBits} {P : Type*}

/-- A record occupies its slot when its fingerprint is not the empty-slot sentinel. -/
def Present (record : Record F P) : Prop := record.fingerprint ≠ 0

instance : DecidablePred (Present (F := F) (P := P)) :=
  fun record => inferInstanceAs (Decidable (record.fingerprint ≠ 0))

/-- The slots of a bucket in the order its loops walk them. -/
def allSlots : List (Fin 4) := [0, 1, 2, 3]

/-- The loops reach every slot. -/
theorem mem_allSlots (slot : Fin 4) : slot ∈ allSlots := by
  revert slot
  decide

/-- The record in a slot. -/
def recordAt (bucket : Bucket F P) (slot : Fin 4) : Record F P := bucket[slot]

/-- The bucket with another record in a slot. -/
def setRecord (bucket : Bucket F P) (slot : Fin 4) (record : Record F P) : Bucket F P :=
  bucket.set slot record

/-- The slot written holds the record written. -/
@[simp] theorem recordAt_setRecord_self (bucket : Bucket F P) (slot : Fin 4)
    (record : Record F P) : recordAt (setRecord bucket slot record) slot = record :=
  Vector.getElem_set_self _

/-- The other slots hold what they held. -/
theorem recordAt_setRecord_of_ne (bucket : Bucket F P) {slot other : Fin 4} (record : Record F P)
    (apart : slot ≠ other) :
    recordAt (setRecord bucket slot record) other = recordAt bucket other :=
  Vector.getElem_set_ne _ _ fun same => apart (Fin.ext same)

/-- The records of a bucket are those in its slots. -/
theorem mem_toList_iff (bucket : Bucket F P) (record : Record F P) :
    record ∈ bucket.toList ↔ ∃ slot, recordAt bucket slot = record := by
  rw [Vector.mem_toList_iff, Vector.mem_iff_getElem]
  constructor
  · rintro ⟨index, inside, placed⟩
    exact ⟨⟨index, inside⟩, placed⟩
  · rintro ⟨slot, placed⟩
    exact ⟨slot, slot.isLt, placed⟩

/-- `Occupied`: the number of nonzero fingerprints. -/
def occupied (bucket : Bucket F P) : Nat := bucket.toList.countP (Present ·)

/-- A bucket that is not full has an empty slot. -/
theorem findIdx_lt_of_room (bucket : Bucket F P) (room : occupied bucket < 4) :
    bucket.toList.findIdx (fun record => ¬ Present record) < 4 := by
  have long : bucket.toList.length = 4 := Vector.length_toList
  refine lt_of_lt_of_eq (List.findIdx_lt_length.mpr ?_) long
  by_contra none
  push Not at none
  have full : occupied bucket = bucket.toList.length :=
    List.countP_eq_length.mpr fun record inside => by simpa using none record inside
  omega

/-- `FirstEmpty`: the first slot with a zero fingerprint. Every caller has checked that the
bucket is not full, which is what keeps the source from its "bucket is full" exception. -/
def firstEmpty (bucket : Bucket F P) (room : occupied bucket < 4) :
    Fin 4 :=
  ⟨bucket.toList.findIdx fun record => ¬ Present record, findIdx_lt_of_room bucket room⟩

/-- The slot found is empty. -/
theorem firstEmpty_empty (bucket : Bucket F P) (room : occupied bucket < 4) :
    ¬ Present (recordAt bucket (firstEmpty bucket room)) := by
  have found := List.findIdx_getElem (p := fun record : Record F P => ¬ Present record)
    (w := lt_of_lt_of_eq (findIdx_lt_of_room bucket room) Vector.length_toList.symm)
  simpa [firstEmpty, recordAt] using found

/-- The records that occupy a bucket. -/
def residents (bucket : Bucket F P) : Multiset (Record F P) :=
  (bucket.toList : Multiset (Record F P)).filter Present

/-- The residents are as many as the occupied slots. -/
theorem card_residents (bucket : Bucket F P) : (residents bucket).card = occupied bucket := by
  rw [residents, Multiset.filter_coe, Multiset.coe_card, occupied, List.countP_eq_length_filter]

/-- A bucket has at most four residents. -/
theorem occupied_le (bucket : Bucket F P) : occupied bucket ≤ 4 := by
  have counted := List.countP_le_length (p := fun record : Record F P => Present record)
    (l := bucket.toList)
  rwa [Vector.length_toList] at counted

/-- The slots of a bucket that is not short of four residents are all occupied. -/
theorem present_of_full (bucket : Bucket F P) (full : ¬ occupied bucket < 4)
    (slot : Fin 4) : Present (recordAt bucket slot) := by
  have long : bucket.toList.length = 4 := Vector.length_toList
  have all : occupied bucket = bucket.toList.length := by
    have := occupied_le bucket
    omega
  have each := List.countP_eq_length.mp all _ ((mem_toList_iff bucket _).mpr ⟨slot, rfl⟩)
  simpa using each

/-- Overwriting a list entry trades the old entry for the new one. -/
theorem cons_set_perm {α : Type*} (items : List α) (index : Nat) (item : α)
    (inside : index < items.length) :
    (items[index] :: items.set index item).Perm (item :: items) := by
  rw [List.set_eq_take_append_cons_drop, if_pos inside]
  conv_rhs => rw [← List.take_append_drop index items, List.drop_eq_getElem_cons inside]
  exact (List.Perm.cons _ List.perm_middle).trans
    ((List.Perm.swap _ _ _).trans (List.Perm.cons _ List.perm_middle.symm))

/-- Overwriting a slot trades the old record for the new one. -/
theorem cons_coe_set (bucket : Bucket F P) (slot : Fin 4) (record : Record F P) :
    recordAt bucket slot ::ₘ ((setRecord bucket slot record).toList : Multiset (Record F P)) =
      record ::ₘ (bucket.toList : Multiset (Record F P)) := by
  have traded := cons_set_perm bucket.toList slot record (by simp)
  rw [setRecord, recordAt, Vector.toList_set]
  exact Multiset.coe_eq_coe.mpr (by simpa using traded)

/-- Placing a record in an empty slot adds it to the residents. -/
theorem residents_place (bucket : Bucket F P) (slot : Fin 4) (record : Record F P)
    (empty : ¬ Present (recordAt bucket slot)) (genuine : Present record) :
    residents (setRecord bucket slot record) = record ::ₘ residents bucket := by
  have traded := congrArg (Multiset.filter Present) (cons_coe_set bucket slot record)
  rwa [Multiset.filter_cons_of_neg _ empty, Multiset.filter_cons_of_pos _ genuine] at traded

/-- Exchanging a record with an occupied slot trades one resident for the other. -/
theorem residents_exchange (bucket : Bucket F P) (slot : Fin 4)
    (record : Record F P) (taken : Present (recordAt bucket slot)) (genuine : Present record) :
    recordAt bucket slot ::ₘ residents (setRecord bucket slot record) =
      record ::ₘ residents bucket := by
  have traded := congrArg (Multiset.filter Present) (cons_coe_set bucket slot record)
  rwa [Multiset.filter_cons_of_pos _ taken, Multiset.filter_cons_of_pos _ genuine] at traded

/-- The comparison of the stable sort: no earlier record has a smaller fingerprint. -/
def Descending (left right : Record F P) : Prop := right.fingerprint.toNat ≤ left.fingerprint.toNat

instance : DecidableRel (Descending (F := F) (P := P)) :=
  fun left right => inferInstanceAs (Decidable (right.fingerprint.toNat ≤ left.fingerprint.toNat))

instance : Std.Total (Descending (F := F) (P := P)) :=
  ⟨fun left right => Nat.le_total right.fingerprint.toNat left.fingerprint.toNat⟩

instance : IsTrans (Record F P) Descending := ⟨fun _ _ _ first second => Nat.le_trans second first⟩

/-- `std::stable_sort` by decreasing fingerprint. -/
def sortBucket (bucket : Bucket F P) : Bucket F P :=
  ⟨(bucket.toList.insertionSort Descending).toArray, by simp⟩

/-- The records of a sorted bucket. -/
theorem toList_sortBucket (bucket : Bucket F P) :
    (sortBucket bucket).toList = bucket.toList.insertionSort Descending := rfl

/-- A bucket in nonincreasing fingerprint order. -/
def SortedBucket (bucket : Bucket F P) : Prop := bucket.toList.Pairwise Descending

/-- Sorting sorts. -/
theorem sortedBucket_sortBucket (bucket : Bucket F P) : SortedBucket (sortBucket bucket) :=
  List.pairwise_insertionSort _ _

/-- Sorting leaves a sorted bucket as it is. -/
theorem sortBucket_eq_self {bucket : Bucket F P} (sorted : SortedBucket bucket) :
    sortBucket bucket = bucket := by
  apply Vector.toList_inj.mp
  rw [toList_sortBucket, List.Pairwise.insertionSort_eq sorted]

/-- Sorting keeps the residents. -/
@[simp] theorem residents_sortBucket (bucket : Bucket F P) :
    residents (sortBucket bucket) = residents bucket := by
  rw [residents, toList_sortBucket, residents]
  exact congrArg _ (Multiset.coe_eq_coe.mpr (List.perm_insertionSort _ _))

/-- In a sorted bucket an earlier slot has the larger fingerprint. -/
theorem SortedBucket.le {bucket : Bucket F P} (sorted : SortedBucket bucket)
    {first second : Fin 4} (order : first ≤ second) :
    (recordAt bucket second).fingerprint.toNat ≤ (recordAt bucket first).fingerprint.toNat := by
  rcases Nat.eq_or_lt_of_le (Fin.le_def.mp order) with same | earlier
  · rw [Fin.ext same]
  · have pair := List.pairwise_iff_getElem.mp sorted first second (by simp) (by simp) earlier
    simpa [Descending, recordAt] using pair

end Vlse.Filter
