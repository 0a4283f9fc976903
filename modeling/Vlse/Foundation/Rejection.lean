import Mathlib.Data.Fintype.Vector
import Mathlib.Probability.Distributions.Uniform
/-!
# Rejection sampling

A sampler takes the first accepted draws from a finite stream of independent uniform ones, and fails
when the stream runs out. Renaming the accepted draws one position at a time, each by a permutation
that keeps acceptance, is a one-to-one map of the streams; so two readings of the draws that differ
by such renamings have the same law, failure included. In particular all lists of accepted draws are
equally likely.
-/

namespace Vlse

section Uniform

variable {Ω β γ : Type*} [Fintype Ω] [Nonempty Ω]

open Classical in
/-- Outcomes that a one-to-one map of a uniform sample space exchanges are equally likely. -/
theorem map_uniformOfFintype_apply_eq (rename : Ω ≃ Ω) {f : Ω → β} {g : Ω → γ} {a : β} {b : γ}
    (exchanged : ∀ sample, f (rename sample) = a ↔ g sample = b) :
    (PMF.uniformOfFintype Ω).map f a = (PMF.uniformOfFintype Ω).map g b := by
  rw [PMF.map_apply, PMF.map_apply, ← rename.tsum_eq]
  refine tsum_congr fun sample => ?_
  rw [PMF.uniformOfFintype_apply, PMF.uniformOfFintype_apply]
  refine if_congr ?_ rfl rfl
  rw [eq_comm, exchanged, eq_comm]

/-- Readings that a one-to-one map of a uniform sample space exchanges have the same law. -/
theorem map_uniformOfFintype_eq (rename : Ω ≃ Ω) {f g : Ω → β}
    (exchanged : ∀ sample, f (rename sample) = g sample) :
    (PMF.uniformOfFintype Ω).map f = (PMF.uniformOfFintype Ω).map g := by
  ext value
  exact map_uniformOfFintype_apply_eq rename fun sample => by rw [exchanged]

end Uniform

variable {α β : Type*} (accept : α → Bool)

/-- The first so many accepted draws of a stream, if it has them. -/
def acceptedDraws : Nat → List α → Option (List α)
  | 0, _ => some []
  | _ + 1, [] => none
  | count + 1, draw :: draws =>
    if accept draw then (acceptedDraws count draws).map (draw :: ·)
    else acceptedDraws (count + 1) draws

/-- Rename the accepted draws of a stream, each by its own permutation. -/
def renameAccepted : List (Equiv.Perm α) → List α → List α
  | [], draws => draws
  | _ :: _, [] => []
  | rename :: renames, draw :: draws =>
    if accept draw then rename draw :: renameAccepted renames draws
    else draw :: renameAccepted (rename :: renames) draws

variable {accept}

/-- The draws taken are as many as asked for, and accepted. -/
theorem acceptedDraws_spec {count : Nat} {draws drawn : List α}
    (taken : acceptedDraws accept count draws = some drawn) :
    drawn.length = count ∧ ∀ draw ∈ drawn, accept draw = true := by
  induction draws generalizing count drawn with
  | nil =>
    cases count with
    | zero => simp [← Option.some.inj taken]
    | succ count => contradiction
  | cons draw draws ih =>
    cases count with
    | zero => simp [← Option.some.inj taken]
    | succ count =>
      rw [acceptedDraws] at taken
      split at taken
      · rename_i hit
        obtain ⟨rest, tail, rfl⟩ := Option.map_eq_some_iff.mp taken
        have kept := ih tail
        refine ⟨by rw [List.length_cons, kept.1], fun other inside => ?_⟩
        rcases List.mem_cons.mp inside with rfl | later
        · exact hit
        · exact kept.2 other later
      · exact ih taken

/-- Renaming keeps the length of a stream. -/
theorem length_renameAccepted (renames : List (Equiv.Perm α)) (draws : List α) :
    (renameAccepted accept renames draws).length = draws.length := by
  induction draws generalizing renames with
  | nil => cases renames <;> rfl
  | cons draw draws ih =>
    cases renames with
    | nil => rfl
    | cons rename renames =>
      rw [renameAccepted]
      split
      · rw [List.length_cons, ih, List.length_cons]
      · rw [List.length_cons, ih, List.length_cons]

/-- The permutations keep acceptance. -/
def KeepAccepted (accept : α → Bool) (renames : List (Equiv.Perm α)) : Prop :=
  ∀ rename ∈ renames, ∀ draw, accept (rename draw) = accept draw

/-- So do their inverses. -/
theorem KeepAccepted.symm {renames : List (Equiv.Perm α)} (keep : KeepAccepted accept renames) :
    KeepAccepted accept (renames.map Equiv.symm) := by
  intro inverse inside draw
  obtain ⟨rename, member, rfl⟩ := List.mem_map.mp inside
  rw [← keep rename member, Equiv.apply_symm_apply]

/-- Renaming back gives the stream back. -/
theorem renameAccepted_symm {renames : List (Equiv.Perm α)} (keep : KeepAccepted accept renames)
    (draws : List α) :
    renameAccepted accept (renames.map Equiv.symm) (renameAccepted accept renames draws) =
      draws := by
  induction draws generalizing renames with
  | nil => cases renames <;> rfl
  | cons draw draws ih =>
    cases renames with
    | nil => rfl
    | cons rename renames =>
      have first := keep rename List.mem_cons_self draw
      have others : KeepAccepted accept renames :=
        fun other member => keep other (List.mem_cons_of_mem rename member)
      rw [renameAccepted]
      split
      · rename_i hit
        rw [List.map_cons, renameAccepted, first, if_pos hit, Equiv.symm_apply_apply, ih others]
      · rename_i missed
        rw [List.map_cons, renameAccepted, if_neg missed, ← List.map_cons, ih keep]

/-- The draws taken from a renamed stream are the renamed draws. -/
theorem acceptedDraws_renameAccepted {renames : List (Equiv.Perm α)}
    (keep : KeepAccepted accept renames) (draws : List α) :
    acceptedDraws accept renames.length (renameAccepted accept renames draws) =
      (acceptedDraws accept renames.length draws).map
        (List.zipWith (fun rename draw => rename draw) renames) := by
  induction draws generalizing renames with
  | nil => cases renames <;> rfl
  | cons draw draws ih =>
    cases renames with
    | nil => rfl
    | cons rename renames =>
      have first := keep rename List.mem_cons_self draw
      have others : KeepAccepted accept renames :=
        fun other member => keep other (List.mem_cons_of_mem rename member)
      rw [renameAccepted, List.length_cons, acceptedDraws]
      split
      · rename_i hit
        rw [acceptedDraws, first, if_pos hit, ih others, Option.map_map, Option.map_map]
        rfl
      · rename_i missed
        rw [acceptedDraws, if_neg missed, ← List.length_cons, ih keep]

/-- Renaming as a one-to-one map of the streams of a length. -/
def renameStreams (length : Nat) {renames : List (Equiv.Perm α)}
    (keep : KeepAccepted accept renames) : List.Vector α length ≃ List.Vector α length where
  toFun draws := ⟨renameAccepted accept renames draws.1,
    (length_renameAccepted _ _).trans draws.2⟩
  invFun draws := ⟨renameAccepted accept (renames.map Equiv.symm) draws.1,
    (length_renameAccepted _ _).trans draws.2⟩
  left_inv draws := Subtype.ext (renameAccepted_symm keep draws.1)
  right_inv draws := by
    have back := renameAccepted_symm keep.symm draws.1
    have twice : (renames.map Equiv.symm).map Equiv.symm = renames := by
      rw [List.map_map]
      exact List.map_id'' (fun rename => Equiv.symm_symm rename) renames
    rw [twice] at back
    exact Subtype.ext back

/-! ## Renamings -/

open Classical in
/-- Two one-to-one readings of the accepted draws with the same values differ by a renaming. -/
theorem exists_rename {f g : α → β} {image : Set β}
    (left : Set.BijOn f {draw | accept draw = true} image)
    (right : Set.BijOn g {draw | accept draw = true} image) :
    ∃ rename : Equiv.Perm α, (∀ draw, accept (rename draw) = accept draw) ∧
      ∀ draw, accept draw = true → f (rename draw) = g draw := by
  let inner : Equiv.Perm {draw // accept draw = true} :=
    (right.equiv g).trans (left.equiv f).symm
  refine ⟨Equiv.Perm.ofSubtype inner, fun draw => ?_, fun draw hit => ?_⟩
  · exact Bool.eq_iff_iff.mpr (Equiv.Perm.ofSubtype_apply_mem_iff_mem inner draw)
  · rw [Equiv.Perm.ofSubtype_apply_of_mem inner hit]
    have applied := (left.equiv f).apply_symm_apply (right.equiv g ⟨draw, hit⟩)
    exact congrArg Subtype.val applied

/-- Position by position, such readings of lists of accepted draws differ by renamings. -/
theorem exists_renames {readings others : List (α → β)}
    (alike : List.Forall₂ (fun f g => ∃ image : Set β,
      Set.BijOn f {draw | accept draw = true} image ∧
        Set.BijOn g {draw | accept draw = true} image) readings others) :
    ∃ renames : List (Equiv.Perm α), KeepAccepted accept renames ∧
      renames.length = readings.length ∧
      ∀ drawn : List α, (∀ draw ∈ drawn, accept draw = true) →
        List.zipWith (fun f draw => f draw) readings
            (List.zipWith (fun rename draw => rename draw) renames drawn) =
          List.zipWith (fun g draw => g draw) others drawn := by
  induction alike with
  | nil => exact ⟨[], fun rename inside => by contradiction, rfl, fun drawn _ => rfl⟩
  | cons first _ ih =>
    obtain ⟨image, left, right⟩ := first
    obtain ⟨rename, keeps, same⟩ := exists_rename left right
    obtain ⟨renames, keepOthers, counted, later⟩ := ih
    refine ⟨rename :: renames, fun other inside => ?_, by simp [counted], fun drawn hits => ?_⟩
    · rcases List.mem_cons.mp inside with rfl | member
      · exact keeps
      · exact keepOthers other member
    · cases drawn with
      | nil => rfl
      | cons draw drawn =>
        have here := same draw (hits draw List.mem_cons_self)
        have rest := later drawn fun other inside => hits other (List.mem_cons_of_mem draw inside)
        simp only [List.zipWith_cons_cons, here, rest]

/-- Readings that are one to one on the accepted draws tell lists of such draws apart. -/
theorem zipWith_readings_inj {readings : List (α → β)}
    (oneToOne : ∀ f ∈ readings, Set.InjOn f {draw | accept draw = true}) {first second : List α}
    (firstCounted : first.length = readings.length)
    (secondCounted : second.length = readings.length)
    (firstAccepted : ∀ draw ∈ first, accept draw = true)
    (secondAccepted : ∀ draw ∈ second, accept draw = true)
    (same : List.zipWith (fun f draw => f draw) readings first =
      List.zipWith (fun f draw => f draw) readings second) : first = second := by
  induction readings generalizing first second with
  | nil => rw [List.length_eq_zero_iff.mp firstCounted, List.length_eq_zero_iff.mp secondCounted]
  | cons f readings ih =>
    cases first with
    | nil => contradiction
    | cons left first =>
      cases second with
      | nil => contradiction
      | cons right second =>
        rw [List.zipWith_cons_cons, List.zipWith_cons_cons] at same
        obtain ⟨here, rest⟩ := List.cons.inj same
        have heads := oneToOne f List.mem_cons_self (firstAccepted left List.mem_cons_self)
          (secondAccepted right List.mem_cons_self) here
        have tails := ih (fun g inside => oneToOne g (List.mem_cons_of_mem f inside))
          (Nat.succ.inj firstCounted) (Nat.succ.inj secondCounted)
          (fun draw inside => firstAccepted draw (List.mem_cons_of_mem left inside))
          (fun draw inside => secondAccepted draw (List.mem_cons_of_mem right inside)) rest
        rw [heads, tails]

open Classical in
/-- Exchanging the draws of two lists position by position takes one list to the other. -/
theorem zipWith_swap_eq_iff {first second drawn : List α} (same : first.length = second.length)
    (counted : drawn.length = first.length) :
    List.zipWith (fun rename draw => rename draw) (List.zipWith Equiv.swap first second) drawn =
      second ↔ drawn = first := by
  induction first generalizing second drawn with
  | nil =>
    rw [List.length_eq_zero_iff.mp counted, List.length_eq_zero_iff.mp same.symm]
    simp
  | cons left first ih =>
    cases second with
    | nil => contradiction
    | cons right second =>
      cases drawn with
      | nil => contradiction
      | cons draw drawn =>
        have rest := ih (Nat.succ.inj same) (Nat.succ.inj counted)
        have here : Equiv.swap left right draw = right ↔ draw = left := by
          rw [Equiv.swap_apply_eq_iff, Equiv.swap_apply_right]
        simp only [List.zipWith_cons_cons, List.cons.injEq, here, rest]

open Classical in
/-- Exchanging accepted draws keeps acceptance. -/
theorem keepAccepted_swap {first second : List α}
    (firstAccepted : ∀ draw ∈ first, accept draw = true)
    (secondAccepted : ∀ draw ∈ second, accept draw = true) :
    KeepAccepted accept (List.zipWith Equiv.swap first second) := by
  intro rename inside draw
  obtain ⟨place, below, rfl⟩ := List.getElem_of_mem inside
  rw [List.length_zipWith] at below
  have firstBelow : place < first.length := by omega
  have secondBelow : place < second.length := by omega
  have left := firstAccepted first[place] (List.getElem_mem _)
  have right := secondAccepted second[place] (List.getElem_mem _)
  rw [List.getElem_zipWith, Equiv.swap_apply_def]
  split
  · rename_i here
    rw [here, left, right]
  · split
    · rename_i here
      rw [here, left, right]
    · rfl

/-! ## Laws -/

section Laws

variable [Fintype α] [Nonempty α] (length : Nat)

/-- There are streams of every length. -/
instance streamsNonempty : Nonempty (List.Vector α length) :=
  ⟨List.Vector.replicate length (Classical.arbitrary α)⟩

open Classical in
/-- Two lists of accepted draws are equally likely to be the first ones of a uniform stream. -/
theorem acceptedDraws_uniform {first second : List α} (same : first.length = second.length)
    (firstAccepted : ∀ draw ∈ first, accept draw = true)
    (secondAccepted : ∀ draw ∈ second, accept draw = true) :
    (PMF.uniformOfFintype (List.Vector α length)).map
        (fun draws => acceptedDraws accept first.length draws.1) (some second) =
      (PMF.uniformOfFintype (List.Vector α length)).map
        (fun draws => acceptedDraws accept first.length draws.1) (some first) := by
  have keep := keepAccepted_swap firstAccepted secondAccepted
  have counted : (List.zipWith Equiv.swap first second).length = first.length := by
    rw [List.length_zipWith, ← same, Nat.min_self]
  refine map_uniformOfFintype_apply_eq (renameStreams length keep) fun draws => ?_
  have renamed := acceptedDraws_renameAccepted keep draws.1
  rw [counted] at renamed
  have image : acceptedDraws accept first.length (renameStreams length keep draws).1 =
      _ := renamed
  rw [image]
  cases taken : acceptedDraws accept first.length draws.1 with
  | none => simp
  | some drawn =>
    have size := (acceptedDraws_spec taken).1
    rw [Option.map_some, Option.some.injEq, Option.some.injEq, zipWith_swap_eq_iff same size]

/-- One-to-one readings of the first accepted draws of a uniform stream, with the same values at
each position, have the same law. -/
theorem acceptedDraws_readings {readings others : List (α → β)}
    (alike : List.Forall₂ (fun f g => ∃ image : Set β,
      Set.BijOn f {draw | accept draw = true} image ∧
        Set.BijOn g {draw | accept draw = true} image) readings others) :
    (PMF.uniformOfFintype (List.Vector α length)).map (fun draws =>
        (acceptedDraws accept readings.length draws.1).map
          (List.zipWith (fun f draw => f draw) readings)) =
      (PMF.uniformOfFintype (List.Vector α length)).map (fun draws =>
        (acceptedDraws accept others.length draws.1).map
          (List.zipWith (fun g draw => g draw) others)) := by
  obtain ⟨renames, keep, counted, same⟩ := exists_renames alike
  refine map_uniformOfFintype_eq (renameStreams length keep) fun draws => ?_
  have renamed := acceptedDraws_renameAccepted keep draws.1
  rw [counted] at renamed
  have image : acceptedDraws accept readings.length (renameStreams length keep draws).1 =
      _ := renamed
  rw [image, ← alike.length_eq, Option.map_map]
  cases taken : acceptedDraws accept readings.length draws.1 with
  | none => rfl
  | some drawn => exact congrArg some (same drawn (acceptedDraws_spec taken).2)

end Laws

end Vlse
