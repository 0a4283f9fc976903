import Mathlib.Data.Int.CardIntervalMod
import Mathlib.GroupTheory.SpecificGroups.Cyclic
import Mathlib.Probability.Distributions.Uniform
import Mathlib.Tactic.Ring
import Vlse.Foundation.Search
/-!
# Counting uniform draws

The law of a reading of a uniform draw counts the draws that are read as a value. Counts multiply
over independent draws. A loop that draws until a reading yields a value yields the values in the
proportions of one reading. Where each value is read from few draws, so are several values, and
readings one after the other. A residue is read from nearly as many numbers below a bound as any
other, and in a finite cyclic group all values of a power have the same number of roots.
-/

namespace Vlse

open Finset

section Counts

variable {Ω Ω' β : Type*} [Fintype Ω] [Fintype Ω']

open Classical in
/-- How many draws are read as a value. -/
noncomputable def drawsReadAs (f : Ω → β) (value : β) : Nat := #{draw | f draw = value}

/-- However it is decided. -/
theorem card_filter_eq_drawsReadAs (f : Ω → β) (value : β)
    [DecidablePred fun draw => f draw = value] :
    #{draw | f draw = value} = drawsReadAs f value := by
  unfold drawsReadAs
  congr

/-- The law of a reading of a uniform draw. -/
theorem map_uniform_eq_div [Nonempty Ω] (f : Ω → β) (value : β) :
    (PMF.uniformOfFintype Ω).map f value = drawsReadAs f value / Fintype.card Ω := by
  classical
  have outer := PMF.toOuterMeasure_map_apply f (PMF.uniformOfFintype Ω) {value}
  rw [PMF.toOuterMeasure_apply_singleton, PMF.toOuterMeasure_uniformOfFintype_apply] at outer
  rw [outer, drawsReadAs, Fintype.card_subtype]
  rfl

/-- A one-to-one change of the draws keeps the counts. -/
theorem drawsReadAs_comp (e : Ω ≃ Ω') (f : Ω' → β) (value : β) :
    drawsReadAs (f ∘ e) value = drawsReadAs f value := by
  classical
  refine card_bij (fun draw _ => e draw) ?_ (fun _ _ _ _ same => e.injective same) ?_
  · intro draw read
    simpa using read
  · intro draw read
    exact ⟨e.symm draw, by simpa using read, e.apply_symm_apply draw⟩

/-- Two draws are counted one after the other. -/
theorem drawsReadAs_prod (f : Ω × Ω' → β) (value : β) :
    drawsReadAs f value = ∑ first, drawsReadAs (fun second => f (first, second)) value := by
  classical
  simp only [drawsReadAs, card_filter]
  exact Fintype.sum_prod_type _

/-- Independent draws read apart multiply. -/
theorem drawsReadAs_pi {ι : Type*} [Fintype ι] [DecidableEq ι] (f : Ω → β) (values : ι → β) :
    drawsReadAs (fun (draws : ι → Ω) place => f (draws place)) values =
      ∏ place, drawsReadAs f (values place) := by
  classical
  have family : (univ.filter fun draws : ι → Ω => (fun place => f (draws place)) = values) =
      Fintype.piFinset fun place => univ.filter fun draw => f draw = values place := by
    ext draws
    rw [mem_filter, Fintype.mem_piFinset, funext_iff]
    simp
  rw [← card_filter_eq_drawsReadAs, family, Fintype.card_piFinset]
  exact prod_congr rfl fun place _ => card_filter_eq_drawsReadAs f (values place)

/-- One of several independent draws is a uniform draw. -/
theorem drawsReadAs_place {ι : Type*} [Fintype ι] [DecidableEq ι] (f : Ω → β) (place : ι)
    (value : β) :
    drawsReadAs (fun draws : ι → Ω => f (draws place)) value =
      drawsReadAs f value * Fintype.card ({other // other ≠ place} → Ω) := by
  classical
  have split := drawsReadAs_comp (Equiv.funSplitAt place Ω) (fun draws => f draws.1) value
  have turn : ∀ first,
      drawsReadAs (fun _ : {other // other ≠ place} → Ω => f first) value =
        if f first = value then Fintype.card ({other // other ≠ place} → Ω) else 0 := by
    intro first
    by_cases hit : f first = value
    · simp [drawsReadAs, hit]
    · simp [drawsReadAs, hit]
  have first : drawsReadAs (fun draws : ι → Ω => f (draws place)) value =
      drawsReadAs (fun draws : Ω × ({other // other ≠ place} → Ω) => f draws.1) value := split
  rw [first, drawsReadAs_prod, sum_congr rfl fun draw _ => turn draw, ← sum_filter, sum_const,
    smul_eq_mul, card_filter_eq_drawsReadAs]

/-- So it has the law of one. -/
theorem map_uniform_place [Nonempty Ω] {ι : Type*} [Fintype ι] [DecidableEq ι] (f : Ω → β)
    (place : ι) :
    (PMF.uniformOfFintype (ι → Ω)).map (fun draws => f (draws place)) =
      (PMF.uniformOfFintype Ω).map f := by
  ext value
  have sizes : Fintype.card (ι → Ω) =
      Fintype.card Ω * Fintype.card ({other // other ≠ place} → Ω) := by
    rw [Fintype.card_congr (Equiv.funSplitAt place Ω), Fintype.card_prod]
  rw [map_uniform_eq_div, map_uniform_eq_div, drawsReadAs_place, sizes, Nat.cast_mul, Nat.cast_mul]
  exact ENNReal.mul_div_mul_right _ _ (Nat.cast_ne_zero.mpr Fintype.card_ne_zero)
    (ENNReal.natCast_ne_top _)

/-- A count within a factor of another, in extended reals. -/
theorem natCast_le_near {scale : Nat} (positive : scale ≠ 0) {left right : Nat}
    (near : left * scale ≤ right * (scale + 1)) :
    (left : ENNReal) ≤ (1 + (scale : ENNReal)⁻¹) * right := by
  have nonzero : (scale : ENNReal) ≠ 0 := Nat.cast_ne_zero.mpr positive
  have finite : (scale : ENNReal) ≠ ⊤ := ENNReal.natCast_ne_top scale
  have cast : (left : ENNReal) * scale ≤ right * (scale + 1) := by exact_mod_cast near
  have whole : (1 + (scale : ENNReal)⁻¹) * scale = scale + 1 := by
    rw [add_mul, one_mul, ENNReal.inv_mul_cancel nonzero finite]
  refine (ENNReal.mul_le_mul_iff_left nonzero finite).mp ?_
  calc (left : ENNReal) * scale ≤ right * (scale + 1) := cast
    _ = (1 + (scale : ENNReal)⁻¹) * right * scale := by
        rw [mul_right_comm, whole, mul_comm]

end Counts

/-! ## The first draw that yields -/

section FirstHit

variable {Ω β σ : Type*}

/-- What the first draw with a reading is read as. -/
def firstHit (read : Ω → Option β) : (limit : Nat) → (Fin limit → Ω) → Option β
  | 0, _ => none
  | limit + 1, draws =>
    match read (draws 0) with
    | some value => some value
    | none => firstHit read limit fun place => draws place.succ

/-- A search whose tests read independent draws finds the first hit. -/
theorem search_eq_firstHit {step : σ → σ} {test : σ → Option β} {read : Ω → Option β}
    {limit : Nat} {draws : Fin limit → Ω} {state : σ}
    (same : ∀ place : Fin limit, test (step^[place] state) = read (draws place)) :
    search step test limit state = firstHit read limit draws := by
  induction limit generalizing state with
  | zero => rfl
  | succ limit ih =>
    have first : test state = read (draws 0) := same 0
    have later : search step test limit (step state) =
        firstHit read limit fun place => draws place.succ := ih fun place => same place.succ
    rw [search, firstHit, first]
    cases read (draws 0) with
    | none => exact later
    | some value => rfl

variable [Fintype Ω] (read : Ω → Option β)

/-- In how many ways the draws around the hit can fall. -/
noncomputable def hitWeight : Nat → Nat
  | 0 => 0
  | limit + 1 => Fintype.card Ω ^ limit + drawsReadAs read none * hitWeight limit

/-- A sequence of draws is a first draw and the others. -/
theorem drawsReadAs_cons {limit : Nat} (f : (Fin (limit + 1) → Ω) → β) (value : β) :
    drawsReadAs f value =
      ∑ draw, drawsReadAs (fun draws => f (Fin.cons draw draws)) value := by
  have split := drawsReadAs_comp (Fin.consEquiv fun _ : Fin (limit + 1) => Ω) f value
  rw [← split, drawsReadAs_prod]
  rfl

/-- The values come in the proportions of one reading. -/
theorem drawsReadAs_firstHit (limit : Nat) (value : β) :
    drawsReadAs (firstHit read limit) (some value) =
      drawsReadAs read (some value) * hitWeight read limit := by
  classical
  induction limit with
  | zero => simp [drawsReadAs, firstHit, hitWeight]
  | succ limit ih =>
    have turn : ∀ draw,
        drawsReadAs (fun draws => firstHit read (limit + 1) (Fin.cons draw draws)) (some value) =
          (if read draw = some value then Fintype.card Ω ^ limit else 0) +
            if read draw = none then drawsReadAs (firstHit read limit) (some value) else 0 := by
      intro draw
      cases hit : read draw with
      | none => simp [firstHit, hit]
      | some other =>
        by_cases same : other = value
        · simp [drawsReadAs, firstHit, hit, same]
        · simp [drawsReadAs, firstHit, hit, same]
    rw [drawsReadAs_cons, sum_congr rfl fun draw _ => turn draw, sum_add_distrib, ← sum_filter,
      ← sum_filter, sum_const, sum_const, card_filter_eq_drawsReadAs, card_filter_eq_drawsReadAs,
      ih, hitWeight, smul_eq_mul, smul_eq_mul]
    ring

/-- No draw has a reading when none has. -/
theorem drawsReadAs_firstHit_none (limit : Nat) :
    drawsReadAs (firstHit read limit) none = drawsReadAs read none ^ limit := by
  classical
  induction limit with
  | zero => simp [drawsReadAs, firstHit]
  | succ limit ih =>
    have turn : ∀ draw,
        drawsReadAs (fun draws => firstHit read (limit + 1) (Fin.cons draw draws)) none =
          if read draw = none then drawsReadAs (firstHit read limit) none else 0 := by
      intro draw
      cases hit : read draw with
      | none => simp [firstHit, hit]
      | some other => simp [drawsReadAs, firstHit, hit]
    rw [drawsReadAs_cons, sum_congr rfl fun draw _ => turn draw, ← sum_filter, sum_const, ih,
      card_filter_eq_drawsReadAs, pow_succ', smul_eq_mul]

end FirstHit

/-! ## Few draws for a value -/

section FewToOne

variable {Ω Ω' β : Type*} [Fintype Ω] [DecidableEq Ω'] [DecidableEq β] {bound other : Nat}
  {f : Ω → Ω'}

/-- No value is read from more draws than a bound. -/
def FewToOne (bound : Nat) (f : Ω → β) : Prop := ∀ value, #{draw | f draw = value} ≤ bound

/-- A one-to-one reading reads no value from more than one draw. -/
theorem FewToOne.of_injective (injective : Function.Injective f) : FewToOne 1 f := by
  intro value
  refine card_le_one.mpr fun first left second right => injective ?_
  exact (mem_filter.mp left).2.trans (mem_filter.mp right).2.symm

/-- Draws on which another reading tells apart those read alike are few when it has few values. -/
theorem FewToOne.of_injOn {γ : Type*} [Fintype γ] {f : Ω → β} (g : Ω → γ)
    (apart : ∀ first second, f first = f second → g first = g second → first = second) :
    FewToOne (Fintype.card γ) f := by
  intro value
  refine card_le_card_of_injOn g (fun _ _ => mem_univ _) fun first left second right same => ?_
  exact apart first second ((mem_filter.mp left).2.trans (mem_filter.mp right).2.symm) same

/-- Draws read as one of some values are as many as the bound for each of them, at most. -/
theorem FewToOne.card_mem_le (few : FewToOne bound f) (values : Finset Ω') :
    #{draw | f draw ∈ values} ≤ bound * values.card := by
  have counted := card_le_mul_card_image (f := f) {draw | f draw ∈ values} bound fun value _ =>
    (card_le_card (filter_subset_filter _ (subset_univ _))).trans (few value)
  refine counted.trans (Nat.mul_le_mul_left bound (card_le_card fun value listed => ?_))
  obtain ⟨draw, member, rfl⟩ := mem_image.mp listed
  exact (mem_filter.mp member).2

/-- The bounds of two readings one after the other multiply. -/
theorem FewToOne.comp [Fintype Ω'] {g : Ω' → β} (outer : FewToOne other g)
    (inner : FewToOne bound f) :
    FewToOne (bound * other) (g ∘ f) := by
  intro value
  have read := inner.card_mem_le {draw | g draw = value}
  simp only [mem_filter, mem_univ, true_and] at read
  exact read.trans (Nat.mul_le_mul_left bound (outer value))

end FewToOne

/-! ## Residues -/

/-- Every set of residues is read from its share of the numbers below a bound, give or take one
number for each residue. -/
theorem card_residues (total : Nat) {modulus : Nat} (positive : 0 < modulus)
    (residues : Finset Nat) (inside : ∀ residue ∈ residues, residue < modulus) :
    total / modulus * residues.card ≤ #{value ∈ range total | value % modulus ∈ residues} ∧
      #{value ∈ range total | value % modulus ∈ residues} ≤
        (total / modulus + 1) * residues.card := by
  have fibers := card_eq_sum_card_fiberwise (f := fun value => value % modulus)
    (s := {value ∈ range total | value % modulus ∈ residues}) (t := residues)
    fun value listed => (mem_filter.mp listed).2
  have fiber : ∀ residue ∈ residues,
      #{value ∈ {value ∈ range total | value % modulus ∈ residues} | value % modulus = residue} =
        total / modulus + if residue < total % modulus then 1 else 0 := by
    intro residue listed
    have counted := Nat.count_modEq_card total positive residue
    rw [Nat.count_eq_card_filter_range, Nat.mod_eq_of_lt (inside residue listed)] at counted
    rw [← counted, filter_filter]
    refine congrArg card (filter_congr fun value _ => ?_)
    rw [Nat.ModEq, Nat.mod_eq_of_lt (inside residue listed)]
    exact and_iff_right_of_imp fun same => same ▸ listed
  rw [fibers, sum_congr rfl fiber]
  constructor
  · rw [mul_comm, ← smul_eq_mul]
    exact card_nsmul_le_sum _ _ _ fun residue _ => Nat.le_add_right _ _
  · rw [mul_comm, ← smul_eq_mul]
    refine sum_le_card_nsmul _ _ _ fun residue _ => ?_
    split <;> omega

/-! ## Roots in a cyclic group -/

section Cyclic

variable {G : Type*} [CommGroup G] [Fintype G] [IsCyclic G] [DecidableEq G] {degree order : Nat}
  {value : G}

/-- In a cyclic group with as many elements as the product of two numbers, what one power takes to
the unit is a power of the other exponent. -/
theorem exists_root (size : Fintype.card G = degree * order) (power : value ^ order = 1) :
    ∃ root : G, root ^ degree = value := by
  have nonempty : 0 < degree * order := size ▸ Fintype.card_pos
  have few : #{other : G | other ^ order = 1} ≤ order :=
    IsCyclic.card_pow_eq_one_le (Nat.pos_of_mul_pos_left nonempty)
  have contained : univ.image (powMonoidHom degree : G →* G) ⊆
      univ.filter fun other => other ^ order = 1 := by
    intro image listed
    obtain ⟨root, -, rfl⟩ := mem_image.mp listed
    rw [mem_filter, powMonoidHom_apply, ← pow_mul, ← size]
    exact ⟨mem_univ _, pow_card_eq_one⟩
  have many : #(univ.image (powMonoidHom degree : G →* G)) = order := by
    have images := IsCyclic.card_powMonoidHom_range G degree
    rw [Nat.card_eq_fintype_card, Nat.card_eq_fintype_card, size, Nat.gcd_mul_right_left,
      Nat.mul_div_cancel_left _ (Nat.pos_of_mul_pos_right nonempty), ← Nat.card_eq_fintype_card,
      ← SetLike.coe_sort_coe, MonoidHom.coe_range, Nat.card_coe_set_eq, ← Set.image_univ,
      ← coe_univ, ← coe_image, Set.ncard_coe_finset] at images
    exact images
  have all := eq_of_subset_of_card_le contained (few.trans many.ge)
  have member : value ∈ univ.image (powMonoidHom degree : G →* G) := by
    rw [all, mem_filter]
    exact ⟨mem_univ _, power⟩
  obtain ⟨root, -, same⟩ := mem_image.mp member
  exact ⟨root, same⟩

/-- It has as many roots as that exponent. -/
theorem card_roots (size : Fintype.card G = degree * order) (power : value ^ order = 1) :
    #{root : G | root ^ degree = value} = degree := by
  have kernel : #{root : G | root ^ degree = 1} = degree := by
    have counted := IsCyclic.card_powMonoidHom_ker G degree
    rw [Nat.card_eq_fintype_card, Nat.card_eq_fintype_card, size, Nat.gcd_mul_right_left,
      Fintype.card_subtype] at counted
    simpa only [MonoidHom.mem_ker, powMonoidHom_apply] using counted
  have fibers := MonoidHom.card_fiber_eq_of_mem_range (powMonoidHom degree : G →* G)
    (exists_root size power) ⟨1, map_one _⟩
  simp only [powMonoidHom_apply] at fibers
  rw [fibers, kernel]

end Cyclic

end Vlse
