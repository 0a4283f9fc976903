import Vlse.Filter.Runs
/-!
# Room under a home

The records with one home stand in the two buckets of the home, so there are eight of them at most,
four when the buckets coincide. An insertion for a home with no room left is refused however empty
the rest of the table is, and it is refused under every hash seed for tokens that `HashToken128`
does not tell apart. Where both buckets are full, as many records are stored as the home has room
for.
-/

namespace Vlse.Filter

variable {F : FingerprintBits} {P : Type*} {layout : Layout F}

/-- The records there is room for under a home: four for each of its buckets. -/
def roomFor (layout : Layout F) (home : Home layout) : Nat := if home.2.IsDiag then 4 else 8

/-- A home whose buckets coincide has room for four. -/
theorem roomFor_same {first second : Fin layout.bucketCount} (same : first = second)
    (fingerprint : Fingerprint F) : roomFor layout (fingerprint, s(first, second)) = 4 :=
  if_pos (Sym2.mk_isDiag_iff.mpr same)

/-- Any other home has room for eight. -/
theorem roomFor_apart {first second : Fin layout.bucketCount} (apart : first ≠ second)
    (fingerprint : Fingerprint F) : roomFor layout (fingerprint, s(first, second)) = 8 :=
  if_neg fun same => apart (Sym2.mk_isDiag_iff.mp same)

/-- No home has room for more than eight. -/
theorem roomFor_le (home : Home layout) : roomFor layout home ≤ 8 := by
  unfold roomFor
  split
  · decide
  · exact le_refl 8

/-- The records of a bucket with some home. -/
theorem card_filter_residentsAt_le (store : Store F layout.bucketCount P) (home : Home layout)
    (cell : Fin layout.bucketCount) :
    (((residentsAt store cell).filter fun record =>
      (entry layout cell record).1 = home).map (entry layout cell)).card ≤ 4 := by
  rw [Multiset.card_map]
  calc
    _ ≤ (residentsAt store cell).card := Multiset.card_le_card (Multiset.filter_le _ _)
    _ = occupied (readBucket store cell) := card_residents _
    _ ≤ 4 := occupied_le _

/-- A bucket outside the pair of a home has no record with it. -/
theorem filter_residentsAt_outside (store : Store F layout.bucketCount P) {home : Home layout}
    {cell : Fin layout.bucketCount} (outside : cell ∉ home.2) :
    (residentsAt store cell).filter (fun record => (entry layout cell record).1 = home) = 0 := by
  refine Multiset.filter_eq_nil.mpr fun record _ same => outside ?_
  rw [← same]
  exact Sym2.mem_mk_left _ _

/-- A table has room for the records under a home. -/
theorem card_under_le (store : Store F layout.bucketCount P) (home : Home layout) :
    ((contents layout store).filter fun item => item.1 = home).card ≤ roomFor layout home := by
  have bounded := card_filter_residentsAt_le store home
  rw [contents, filter_spread, Multiset.card_sum]
  obtain ⟨fingerprint, pair⟩ := home
  induction pair using Sym2.ind with
  | _ first second =>
    rw [sum_eq_pair _ first second]
    · have here := bounded first
      have there := bounded second
      by_cases same : second = first
      · rw [if_pos same, roomFor_same same.symm]
        exact here
      · rw [if_neg same, roomFor_apart (Ne.symm same)]
        omega
    · intro cell notFirst notSecond
      have outside : cell ∉ s(first, second) := by
        rw [Sym2.mem_iff]
        exact not_or.mpr ⟨notFirst, notSecond⟩
      have none : (residentsAt store cell).filter (fun record =>
          (entry layout cell record).1 = (fingerprint, s(first, second))) = 0 :=
        filter_residentsAt_outside store outside
      rw [none]
      rfl

/-- Where both buckets of a home are full, as many records are stored as it has room for. -/
theorem roomFor_le_card (store : Store F layout.bucketCount P)
    {first second : Fin layout.bucketCount} (fingerprint : Fingerprint F)
    (firstFull : occupied (readBucket store first) = 4)
    (secondFull : occupied (readBucket store second) = 4) :
    roomFor layout (fingerprint, s(first, second)) ≤ (contents layout store).card := by
  rw [card_contents]
  by_cases same : first = second
  · rw [roomFor_same same, ← firstFull]
    exact Finset.single_le_sum (f := fun position => occupied (readBucket store position))
      (fun _ _ => Nat.zero_le _) (Finset.mem_univ first)
  · rw [roomFor_apart same]
    have pair := Finset.sum_le_sum_of_subset (M := Nat) (Finset.subset_univ {first, second})
      (f := fun position => occupied (readBucket store position))
    rw [Finset.sum_pair same, firstFull, secondFull] at pair
    exact pair

/-! ## Tokens that are not told apart -/

/-- What `HashToken128` reads of a token: its halves, folded into one word. -/
def foldToken (token : Token128) : Word :=
  (token >>> 64).setWidth 64 ^^^ rotateLeft64 (token.setWidth 64) 29

/-- Tokens that fold alike have the same metadata under every seed and in every layout. -/
theorem metadata_eq_of_foldToken (config : Config F) {left right : Token128}
    (same : foldToken left = foldToken right) : config.metadata left = config.metadata right := by
  have hashed : hashToken128 config.murmurHash64 left config.hashSeed =
      hashToken128 config.murmurHash64 right config.hashSeed :=
    congrArg (fun word => config.murmurHash64 (word ^^^ config.murmurHash64 config.hashSeed)) same
  simp only [Config.metadata, hashed]

/-- An insertion for a home without room does not return true. -/
theorem insert_crowded {config : Config F} {state : State F config.layout.bucketCount P}
    {held : Multiset (Home config.layout × P)} (account : Accounts config.layout state held)
    {token : Token128} {metadata : KeyMetadata config.layout}
    (derived : config.metadata token = some metadata)
    (crowded : roomFor config.layout metadata.home ≤
      (held.filter fun item => item.1 = metadata.home).card) (payload : P) :
    (insert config token payload state).1 ≠ .ok true := by
  intro accepted
  have after := account.insert token payload
  have bounded := card_under_le (insert config token payload state).2.store metadata.home
  rw [after.contents, accepted, acceptedEntry, derived, Multiset.filter_add, Multiset.card_add]
    at bounded
  have own : (({metadata.entry payload} : Multiset (Home config.layout × P)).filter
      fun item => item.1 = metadata.home) = {metadata.entry payload} :=
    Multiset.filter_eq_self.mpr fun item inside => by rw [Multiset.mem_singleton.mp inside]; rfl
  rw [Option.elim_some, own, Multiset.card_singleton] at bounded
  omega

end Vlse.Filter
