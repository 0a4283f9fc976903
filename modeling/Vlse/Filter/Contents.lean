import Vlse.Filter.Insert
import Vlse.Foundation.Placement
/-!
# What a table holds

A stored record may stand in either of two buckets, and moving it to the other changes neither
its fingerprint nor the unordered pair of buckets; that pair with the fingerprint is the home of
the record. The contents of a table are the homes and payloads of all its records. Every write
of an insertion is described by what it does to the contents: a placement adds the entry of one
record, an exchange trades two entries, and where the records stand no longer matters.
-/

namespace Vlse.Filter

variable {F : FingerprintBits} {P : Type*}

/-- A fingerprint with the unordered pair of buckets it may stand in. -/
abbrev Home (layout : Layout F) := Fingerprint F × Sym2 (Fin layout.bucketCount)

/-- The home of a fingerprint that stands in a bucket. -/
def home (layout : Layout F) (position : Fin layout.bucketCount) (fingerprint : Fingerprint F) :
    Home layout :=
  (fingerprint, s(position, layout.alternate position fingerprint))

/-- Moving to the alternate bucket keeps the home. -/
@[simp] theorem home_alternate (layout : Layout F) (position : Fin layout.bucketCount)
    (fingerprint : Fingerprint F) :
    home layout (layout.alternate position fingerprint) fingerprint =
      home layout position fingerprint := by
  unfold home
  rw [Layout.alternate_alternate, Sym2.eq_swap]

/-- Two places give one home when the fingerprints agree and the buckets agree up to a move. -/
theorem home_eq_home {layout : Layout F} {left right : Fin layout.bucketCount}
    {fingerprint other : Fingerprint F} :
    home layout left fingerprint = home layout right other ↔
      fingerprint = other ∧ (left = right ∨ left = layout.alternate right other) := by
  unfold home
  rw [Prod.mk.injEq, Sym2.eq_iff]
  constructor
  · rintro ⟨rfl, ⟨rfl, -⟩ | ⟨rfl, -⟩⟩
    · exact ⟨rfl, .inl rfl⟩
    · exact ⟨rfl, .inr rfl⟩
  · rintro ⟨rfl, rfl | rfl⟩
    · exact ⟨rfl, .inl ⟨rfl, rfl⟩⟩
    · exact ⟨rfl, .inr ⟨rfl, layout.alternate_alternate _ _⟩⟩

/-- What a record in a bucket contributes to the contents. -/
def entry (layout : Layout F) (position : Fin layout.bucketCount) (record : Record F P) :
    Home layout × P :=
  (home layout position record.fingerprint, record.payload)

/-- A record contributes the same from its alternate bucket. -/
@[simp] theorem entry_alternate (layout : Layout F) (position : Fin layout.bucketCount)
    (record : Record F P) :
    entry layout (layout.alternate position record.fingerprint) record =
      entry layout position record := by
  rw [entry, home_alternate, entry]

/-- The records of a bucket of a table. -/
def residentsAt {bucketCount : Nat} (store : Store F bucketCount P) (position : Fin bucketCount) :
    Multiset (Record F P) :=
  residents (readBucket store position)

/-- The homes and payloads of all records of a table. -/
def contents (layout : Layout F) (store : Store F layout.bucketCount P) :
    Multiset (Home layout × P) :=
  spread (entry layout) (residentsAt store)

/-- The fingerprints and payloads of all records of a table. -/
def records {bucketCount : Nat} (store : Store F bucketCount P) : Multiset (Record F P) :=
  spread (fun _ record => record) (residentsAt store)

/-- A write replaces the records of one bucket. -/
theorem residentsAt_writeBucket {bucketCount : Nat} (store : Store F bucketCount P)
    (position : Fin bucketCount) (bucket : Bucket F P) :
    residentsAt (writeBucket store position bucket) =
      Function.update (residentsAt store) position (residents bucket) := by
  funext other
  by_cases same : other = position
  · subst same
    rw [residentsAt, readBucket_writeBucket_same, residents_sortBucket, Function.update_self]
  · rw [residentsAt, readBucket_writeBucket_other _ _ (Ne.symm same), Function.update_of_ne same,
      residentsAt]

section Account

variable {bucketCount : Nat} {β : Type*} (account : Fin bucketCount → Record F P → β)
  (store : Store F bucketCount P) (position : Fin bucketCount) (slot : Fin 4) (record : Record F P)

/-- In every account of the table by place and record, a placement adds one entry. -/
theorem spread_place (empty : ¬ Present (recordAt (readBucket store position) slot))
    (present : Present record) :
    spread account (residentsAt
        (writeBucket store position (setRecord (readBucket store position) slot record))) =
      account position record ::ₘ spread account (residentsAt store) := by
  have traded := spread_update account (residentsAt store) position
    (residents (setRecord (readBucket store position) slot record))
  rw [residents_place _ _ _ empty present, Multiset.map_cons, ← Multiset.singleton_add,
    ← Multiset.singleton_add, ← add_assoc, ← residentsAt] at traded
  rw [residentsAt_writeBucket, residents_place _ _ _ empty present, ← residentsAt,
    ← Multiset.singleton_add, ← Multiset.singleton_add, add_comm {account position record}]
  exact add_right_cancel traded

/-- In every account of the table by place and record, an exchange trades two entries. -/
theorem spread_exchange (taken : Present (recordAt (readBucket store position) slot))
    (present : Present record) :
    account position (recordAt (readBucket store position) slot) ::ₘ spread account (residentsAt
        (writeBucket store position (setRecord (readBucket store position) slot record))) =
      account position record ::ₘ spread account (residentsAt store) := by
  have traded := spread_update account (residentsAt store) position
    (residents (setRecord (readBucket store position) slot record))
  have bucket := congrArg (Multiset.map (account position))
    (residents_exchange (readBucket store position) slot record taken present)
  rw [Multiset.map_cons, Multiset.map_cons, ← residentsAt] at bucket
  rw [residentsAt_writeBucket]
  refine add_right_cancel (b := (residentsAt store position).map (account position)) ?_
  rw [Multiset.cons_add, traded, ← Multiset.add_cons, bucket, Multiset.add_cons, Multiset.cons_add]

end Account

end Vlse.Filter
