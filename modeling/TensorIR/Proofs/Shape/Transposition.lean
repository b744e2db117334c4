import TensorIR.Proofs.Shape.Axes

/-!
# TensorIR.Proofs.Shape.Transposition

Which transpositions there are. `Proofs.Shape.Axes` tells what marking the axes one after the other
accepts; here acceptance is counted axis by axis, and the look-ups are followed.

* `Permutes`, `permutes_iff_perm`: an order of axes in which each axis of the rank occurs once. Where
  there are as many places as axes, none can be out of range.
* `marksInBounds`, `transposeInBounds`: the rule with each look-up as one that must succeed. Behind
  the range check it always does, since marking keeps the number of marks (`marksInBounds_eq`,
  `transposeInBounds_eq`).
* `transposeDims_exact`: what the rule answers, and what it refuses.
-/

namespace TensorIR
namespace Shape

variable {dims shuffle out : List Nat} {rank : Nat}

/-! ## Each axis once -/

/-- There are as many places as axes, and each axis of the rank stands in one of them. -/
structure Permutes (rank : Nat) (shuffle : List Nat) : Prop where
  length_eq : shuffle.length = rank
  once : ∀ axis < rank, shuffle.count axis = 1

theorem permutes_iff_perm : Permutes rank shuffle ↔ shuffle.Perm (List.range rank) := by
  constructor
  · rintro ⟨hlength, honce⟩
    have hsub : List.range rank ⊆ shuffle := by
      intro axis haxis
      rw [← List.count_pos_iff, honce axis (List.mem_range.1 haxis)]
      exact Nat.one_pos
    -- All axes take up all places, so there is no place left for anything else.
    have hle : shuffle.length ≤ (List.range rank).length := by simp [hlength]
    exact ((List.nodup_range.subperm hsub).perm_of_length_le hle).symm
  · intro h
    refine ⟨by simpa using h.length_eq, fun axis haxis => ?_⟩
    rw [h.count_eq]
    exact List.count_eq_one_of_mem List.nodup_range (List.mem_range.2 haxis)

theorem Permutes.lt (h : Permutes rank shuffle) {axis : Nat} (haxis : axis ∈ shuffle) :
    axis < rank :=
  List.mem_range.1 ((permutes_iff_perm.1 h).mem_iff.1 haxis)

/-! ## Look-ups -/

/-- Marks the axes one after the other. An axis is checked to be in range, and then its mark is
relied on to be there: without it there would be no answer. -/
def marksInBounds (rank : Nat) (seen : List Bool) : List Nat → Option Bool
  | [] => some true
  | axis :: rest =>
    if axis < rank then do
      let marked ← seen[axis]?
      if marked then return false else marksInBounds rank (seen.set axis true) rest
    else some false

/-- Whether an order of axes is accepted, by marks that are relied on. -/
def acceptsInBounds (rank : Nat) (shuffle : List Nat) : Option Bool :=
  if shuffle.length = rank then marksInBounds rank (List.replicate rank false) shuffle
  else some false

/-- Transposes the dimensions by an accepted order of axes. Each extent is relied on to be there. -/
def transposeInBounds (dims shuffle : List Nat) : Option (Except ShapeError (List Nat)) := do
  if ← acceptsInBounds dims.length shuffle then return .ok (← shuffle.mapM (dims[·]?))
  else return .error (.invalidPermutation shuffle dims.length)

/-- There are always as many marks as axes, so an axis in range has a mark. -/
theorem marksInBounds_eq (axes : List Nat) {seen : List Bool} (hseen : seen.length = rank) :
    marksInBounds rank seen axes = some (marksEachOnce seen axes) := by
  induction axes generalizing seen with
  | nil => rfl
  | cons axis rest ih =>
    rw [marksInBounds, marksEachOnce]
    by_cases hlt : axis < rank
    · have hmark : seen[axis]? = some seen[axis] := List.getElem?_eq_getElem (hseen ▸ hlt)
      rw [if_pos hlt, hmark, Option.bind_eq_bind, Option.bind_some]
      cases seen[axis] with
      | true => rfl
      | false => exact ih (List.length_set.trans hseen)
    · rw [if_neg hlt, List.getElem?_eq_none (by omega)]

theorem acceptsInBounds_eq (rank : Nat) (shuffle : List Nat) :
    acceptsInBounds rank shuffle = some (isPermutation rank shuffle) := by
  rw [acceptsInBounds, isPermutation, marksInBounds_eq shuffle List.length_replicate]
  by_cases hlength : shuffle.length = rank
  · rw [if_pos hlength, decide_eq_true hlength, Bool.true_and]
  · rw [if_neg hlength, decide_eq_false hlength, Bool.false_and]

theorem mapM_getElem?_eq {axes : List Nat} (h : ∀ axis ∈ axes, axis < dims.length) :
    axes.mapM (dims[·]?) = some (axes.filterMap (dims[·]?)) := by
  induction axes with
  | nil => rfl
  | cons axis rest ih =>
    obtain ⟨haxis, hrest⟩ := List.forall_mem_cons.1 h
    have hextent : dims[axis]? = some dims[axis] := List.getElem?_eq_getElem haxis
    rw [List.mapM_cons, hextent, ih hrest, List.filterMap_cons_some hextent]
    rfl

/-- No look-up of the rule is out of bounds. -/
theorem transposeInBounds_eq (dims shuffle : List Nat) :
    transposeInBounds dims shuffle = some (transposeDims dims shuffle) := by
  rw [transposeInBounds, acceptsInBounds_eq, transposeDims, Option.bind_eq_bind, Option.bind_some]
  by_cases hperm : isPermutation dims.length shuffle = true
  · have hpermutes := permutes_iff_perm.2 (isPermutation_iff.1 hperm)
    rw [if_pos hperm, if_pos hperm, mapM_getElem?_eq fun axis => hpermutes.lt]
    rfl
  · rw [if_neg hperm, if_neg hperm]
    rfl

/-! ## Answers and refusals -/

theorem transposeDims_eq_error_iff {cause : ShapeError} :
    transposeDims dims shuffle = .error cause ↔
      ¬ Permutes dims.length shuffle ∧ cause = .invalidPermutation shuffle dims.length := by
  rw [permutes_iff_perm, ← isPermutation_iff, transposeDims]
  split
  · case isTrue hperm => exact iff_of_false nofun fun h => h.1 hperm
  · case isFalse hperm =>
    rw [Except.error.injEq, eq_comm]
    exact (and_iff_right hperm).symm

/-- A transposition is made exactly for an order in which each axis of the rank occurs once. It has
at each place the extent of the axis there, and so it is a rearrangement of the dimensions. All other
orders are refused as no permutation, and no look-up on the way is out of bounds. -/
theorem transposeDims_exact (dims shuffle : List Nat) :
    ((∃ out, transposeDims dims shuffle = .ok out) ↔ Permutes dims.length shuffle) ∧
    (∀ out, transposeDims dims shuffle = .ok out →
      out.length = dims.length ∧ out.Perm dims ∧
        ∀ place axis : Nat, shuffle[place]? = some axis →
          ∃ extent, dims[axis]? = some extent ∧ out[place]? = some extent) ∧
    (∀ cause, transposeDims dims shuffle = .error cause ↔
      ¬ Permutes dims.length shuffle ∧ cause = .invalidPermutation shuffle dims.length) ∧
    transposeInBounds dims shuffle = some (transposeDims dims shuffle) := by
  refine ⟨?_, fun out h => ?_, fun cause => transposeDims_eq_error_iff,
    transposeInBounds_eq dims shuffle⟩
  · rw [permutes_iff_perm]
    simp only [transposeDims_eq_ok_iff, exists_and_left]
    exact and_iff_left_of_imp exists_places
  · obtain ⟨hperm, hplaces⟩ := transposeDims_eq_ok_iff.1 h
    have hrearranged := perm_of_places hperm hplaces
    refine ⟨hrearranged.length_eq, hrearranged, fun place axis haxis => ?_⟩
    have hlt : axis < dims.length :=
      (permutes_iff_perm.2 hperm).lt (List.mem_of_getElem? haxis)
    refine ⟨_, List.getElem?_eq_getElem hlt, ?_⟩
    rw [hplaces, haxis, Option.bind_some, List.getElem?_eq_getElem hlt]

/-- Channels brought to the front. -/
theorem transposeDims_exact_channelsFirst :
    let out := [1, 4, 2, 3]
    transposeDims [1, 2, 3, 4] [0, 3, 1, 2] = .ok out ∧ out.Perm [1, 2, 3, 4] ∧
      ∃ extent, [1, 2, 3, 4][3]? = some extent ∧ out[1]? = some extent := by
  intro out
  have hout : transposeDims [1, 2, 3, 4] [0, 3, 1, 2] = .ok out := by decide
  obtain ⟨-, hperm, hplaces⟩ := (transposeDims_exact [1, 2, 3, 4] [0, 3, 1, 2]).2.1 out hout
  exact ⟨hout, hperm, hplaces 1 3 rfl⟩

end Shape
end TensorIR
