import Mathlib.Data.List.Nodup
import Mathlib.Data.List.Perm.Subperm
import TensorIR.Shape.Axes

/-!
# TensorIR.Proofs.Shape.Axes

When the rules on single axes answer.

* `isPermutation_iff`: marking the axes one after the other accepts exactly the rearrangements of
  all axes.
* `transposeDims_eq_ok_iff`, `concatDims_eq_ok_iff`, `channelCount_eq_ok_iff`: the answers of the
  rules in terms of single extents.
* `concatDims_overflow_iff`: which of them may meet a size beyond the limit, and when.
* `perm_of_places`: a transposition rearranges the extents and changes none.
* `Shape.Inverse`, `eq_of_inverse`: the permutation that takes a transposition back.
* `Shape.Composed`, `Composed.places_iff`: two transpositions one after the other are one.
-/

namespace TensorIR
namespace Shape

/-! ## Permutations -/

theorem marksEachOnce_iff (axes : List Nat) : ∀ seen : List Bool,
    marksEachOnce seen axes = true ↔ axes.Nodup ∧ ∀ axis ∈ axes, seen[axis]? = some false := by
  induction axes with
  | nil => intro seen; simp [marksEachOnce]
  | cons axis rest ih =>
    intro seen
    rw [marksEachOnce, List.nodup_cons, List.forall_mem_cons]
    cases haxis : seen[axis]? with
    | none => simp
    | some marked =>
      cases marked with
      | true => simp
      | false =>
        have hlt : axis < seen.length := (List.getElem?_eq_some_iff.1 haxis).1
        have hset (other : Nat) : (seen.set axis true)[other]? = some false ↔
            other ≠ axis ∧ seen[other]? = some false := by
          rw [List.getElem?_set]
          by_cases h : axis = other
          · subst h; simp [hlt]
          · simp [h, Ne.symm h]
        simp only [ih, hset]
        constructor
        · rintro ⟨hnodup, hall⟩
          exact ⟨⟨fun hmem => (hall axis hmem).1 rfl, hnodup⟩, trivial, fun a ha => (hall a ha).2⟩
        · rintro ⟨⟨hfresh, hnodup⟩, -, hall⟩
          exact ⟨hnodup, fun a ha => ⟨fun h => hfresh (h ▸ ha), hall a ha⟩⟩

/-- As many different axes below the rank as there are axes leave none out. -/
theorem perm_range_of_nodup {rank : Nat} {shuffle : List Nat} (hlen : shuffle.length = rank)
    (hnodup : shuffle.Nodup) (hlt : ∀ axis ∈ shuffle, axis < rank) :
    shuffle.Perm (List.range rank) := by
  have hsub : shuffle ⊆ List.range rank := fun axis haxis => List.mem_range.2 (hlt axis haxis)
  exact (hnodup.subperm hsub).perm_of_length_le (by simp [hlen])

theorem isPermutation_iff {rank : Nat} {shuffle : List Nat} :
    isPermutation rank shuffle = true ↔ shuffle.Perm (List.range rank) := by
  have hseen (axis : Nat) : (List.replicate rank false)[axis]? = some false ↔ axis < rank := by
    simp [List.getElem?_replicate]
  simp only [isPermutation, Bool.and_eq_true, decide_eq_true_eq, marksEachOnce_iff, hseen]
  constructor
  · rintro ⟨hlen, hnodup, hlt⟩
    exact perm_range_of_nodup hlen hnodup hlt
  · intro h
    refine ⟨by simpa using h.length_eq, h.nodup_iff.2 List.nodup_range, fun axis haxis => ?_⟩
    exact List.mem_range.1 (h.mem_iff.1 haxis)

theorem getElem?_filterMap_getElem? (dims shuffle : List Nat)
    (h : ∀ axis ∈ shuffle, axis < dims.length) (place : Nat) :
    (shuffle.filterMap (dims[·]?))[place]? = shuffle[place]?.bind (dims[·]?) := by
  induction shuffle generalizing place with
  | nil => simp
  | cons axis rest ih =>
    have hlt : axis < dims.length := h axis List.mem_cons_self
    have haxis : dims[axis]? = some dims[axis] := List.getElem?_eq_getElem hlt
    rw [List.filterMap_cons_some haxis]
    cases place with
    | zero => simp [haxis]
    | succ place => exact ih (fun a ha => h a (List.mem_cons_of_mem _ ha)) place

theorem places_filterMap {dims shuffle : List Nat}
    (hshuffle : shuffle.Perm (List.range dims.length)) (place : Nat) :
    (shuffle.filterMap (dims[·]?))[place]? = shuffle[place]?.bind (dims[·]?) :=
  getElem?_filterMap_getElem? dims shuffle
    (fun _ haxis => List.mem_range.1 (hshuffle.mem_iff.1 haxis)) place

theorem exists_places {dims shuffle : List Nat}
    (hshuffle : shuffle.Perm (List.range dims.length)) :
    ∃ out : List Nat, ∀ place : Nat, out[place]? = shuffle[place]?.bind (dims[·]?) :=
  ⟨_, places_filterMap hshuffle⟩

/-- The places of a transposition determine it. -/
theorem eq_filterMap_of_places {dims shuffle out : List Nat}
    (hshuffle : shuffle.Perm (List.range dims.length))
    (hplaces : ∀ place : Nat, out[place]? = shuffle[place]?.bind (dims[·]?)) :
    out = shuffle.filterMap (dims[·]?) := by
  refine List.ext_getElem? fun place => ?_
  rw [hplaces, places_filterMap hshuffle]

/-- A transposition only rearranges the extents. -/
theorem perm_of_places {dims shuffle out : List Nat}
    (hshuffle : shuffle.Perm (List.range dims.length))
    (hplaces : ∀ place : Nat, out[place]? = shuffle[place]?.bind (dims[·]?)) : out.Perm dims := by
  have hall : dims = (List.range dims.length).filterMap (dims[·]?) := by
    refine eq_filterMap_of_places (List.Perm.refl _) fun place => ?_
    rcases Nat.lt_or_ge place dims.length with h | h
    · rw [List.getElem?_range h, Option.bind_some]
    · rw [List.getElem?_eq_none h, List.getElem?_eq_none (by simpa using h), Option.bind_none]
  have hperm := hshuffle.filterMap (dims[·]?)
  rwa [← hall, ← eq_filterMap_of_places hshuffle hplaces] at hperm

theorem transposeDims_eq_ok_iff {dims shuffle out : List Nat} :
    transposeDims dims shuffle = .ok out ↔
      shuffle.Perm (List.range dims.length) ∧
        ∀ place : Nat, out[place]? = shuffle[place]?.bind (dims[·]?) := by
  unfold transposeDims
  by_cases hperm : shuffle.Perm (List.range dims.length)
  · rw [if_pos (isPermutation_iff.2 hperm)]
    constructor
    · intro h
      cases h
      exact ⟨hperm, places_filterMap hperm⟩
    · rintro ⟨-, hout⟩
      rw [eq_filterMap_of_places hperm hout]
  · rw [if_neg (mt isPermutation_iff.1 hperm)]
    exact iff_of_false nofun fun h => hperm h.1

/-! ## Permutations one after the other -/

/-- One permutation has an axis at a place exactly if the other has the place at the axis. -/
def Inverse (shuffle back : List Nat) : Prop :=
  ∀ place axis : Nat, shuffle[place]? = some axis ↔ back[axis]? = some place

theorem exists_inverse {rank : Nat} {shuffle : List Nat} (h : shuffle.Perm (List.range rank)) :
    ∃ back, Inverse shuffle back := by
  refine ⟨(List.range rank).map shuffle.idxOf, fun place axis => ?_⟩
  have hmem : axis ∈ shuffle ↔ axis < rank := h.mem_iff.trans List.mem_range
  rw [List.getElem?_map, Option.map_eq_some_iff]
  constructor
  · intro hplace
    have haxis : axis < rank := hmem.1 (List.mem_of_getElem? hplace)
    obtain ⟨hlt, rfl⟩ := List.getElem?_eq_some_iff.1 hplace
    exact ⟨_, List.getElem?_range haxis, (h.nodup_iff.2 List.nodup_range).idxOf_getElem place hlt⟩
  · rintro ⟨axis', haxis', rfl⟩
    obtain ⟨hlt, rfl⟩ : axis < rank ∧ axis = axis' := by
      simpa [List.getElem?_eq_some_iff] using haxis'
    exact List.getElem?_idxOf (hmem.2 hlt)

theorem Inverse.perm {rank : Nat} {shuffle back : List Nat} (h : Inverse shuffle back)
    (hshuffle : shuffle.Perm (List.range rank)) : back.Perm (List.range rank) := by
  have hlen : shuffle.length = rank := by simpa using hshuffle.length_eq
  have hnodup : back.Nodup := by
    rw [List.nodup_iff_getElem?_ne_getElem?]
    intro a b hab hb heq
    have hplace : back[b]? = some back[b] := List.getElem?_eq_getElem hb
    have ha := (h _ _).2 (heq.trans hplace)
    rw [(h _ _).2 hplace] at ha
    cases ha
    exact Nat.lt_irrefl _ hab
  rw [List.perm_ext_iff_of_nodup hnodup List.nodup_range]
  intro place
  rw [List.mem_iff_getElem?, List.mem_range, ← hlen]
  constructor
  · rintro ⟨axis, haxis⟩
    exact (List.getElem?_eq_some_iff.1 ((h place axis).2 haxis)).1
  · intro hlt
    exact ⟨shuffle[place], (h place _).1 (List.getElem?_eq_getElem hlt)⟩

/-- A transposition and the one by the inverse permutation cancel out. -/
theorem eq_of_inverse {dims shuffle back target out : List Nat} (h : Inverse shuffle back)
    (hshuffle : shuffle.Perm (List.range dims.length))
    (htarget : ∀ place : Nat, target[place]? = shuffle[place]?.bind (dims[·]?))
    (hout : ∀ place : Nat, out[place]? = back[place]?.bind (target[·]?)) : out = dims := by
  have hlen : back.length = dims.length := by simpa using (h.perm hshuffle).length_eq
  refine List.ext_getElem? fun axis => ?_
  rw [hout]
  rcases Nat.lt_or_ge axis dims.length with haxis | haxis
  · have hlt : axis < back.length := by rwa [hlen]
    have hplace : back[axis]? = some back[axis] := List.getElem?_eq_getElem hlt
    rw [hplace, Option.bind_some, htarget, (h _ _).2 hplace, Option.bind_some]
  · rw [List.getElem?_eq_none haxis, List.getElem?_eq_none (hlen ▸ haxis), Option.bind_none]

/-- Place `i` of the composed permutation is place `second[i]` of the first. -/
def Composed (first second both : List Nat) : Prop :=
  ∀ place : Nat, both[place]? = second[place]?.bind (first[·]?)

theorem Composed.perm {rank : Nat} {first second both : List Nat} (h : Composed first second both)
    (hfirst : first.Perm (List.range rank)) (hsecond : second.Perm (List.range rank)) :
    both.Perm (List.range rank) := by
  have hlen : first.length = rank := by simpa using hfirst.length_eq
  rw [← hlen] at hsecond
  exact (perm_of_places hsecond h).trans hfirst

/-- Two transpositions are one by the composed permutation. -/
theorem Composed.places_iff {dims first second both target out : List Nat}
    (h : Composed first second both)
    (htarget : ∀ place : Nat, target[place]? = first[place]?.bind (dims[·]?)) :
    (∀ place : Nat, out[place]? = second[place]?.bind (target[·]?)) ↔
      ∀ place : Nat, out[place]? = both[place]?.bind (dims[·]?) := by
  refine forall_congr' fun place => ?_
  simp only [h place, htarget, Option.bind_assoc]

/-! ## Stacking and channels -/

/-- No input is found to differ exactly if all are equal to the first. -/
theorem find?_differs_eq_none_iff {first : List Nat} {rest : List (List Nat)} (start : Nat) :
    (rest.zipIdx start).find? (fun (dims, _) => dims ≠ first) = none ↔
      ∀ dims ∈ rest, dims = first := by
  rw [List.find?_eq_none]
  constructor
  · intro h dims hmem
    obtain ⟨n, hn⟩ := List.mem_iff_getElem?.1 hmem
    have hpair : (dims, start + n) ∈ rest.zipIdx start :=
      List.mem_zipIdx_iff_le_and_getElem?_sub.2 ⟨Nat.le_add_right _ _, by simpa using hn⟩
    simpa using h _ hpair
  · rintro h ⟨dims, n⟩ hpair
    have hmem : dims ∈ rest :=
      List.mem_of_getElem? (List.mem_zipIdx_iff_le_and_getElem?_sub.1 hpair).2
    simpa using h dims hmem

/-- The rule for equal inputs, along an axis that they have. -/
theorem concatDims_of_same {inputs : List (List Nat)} {first : List Nat} {axis extent : Nat}
    (hne : inputs ≠ []) (hall : ∀ dims ∈ inputs, dims = first) (haxis : first[axis]? = some extent) :
    concatDims inputs axis =
      if extent * inputs.length < Size.limit then .ok (first.set axis (extent * inputs.length))
      else .error (.overflow Opcode.concat.name) := by
  cases inputs with
  | nil => exact absurd rfl hne
  | cons dims rest =>
    obtain ⟨rfl, hrest⟩ := List.forall_mem_cons.1 hall
    simp only [concatDims, (find?_differs_eq_none_iff 1).2 hrest, haxis]
    by_cases hfits : extent * (dims :: rest).length < Size.limit
    · rw [Size.mul?_eq_some_iff.2 ⟨rfl, hfits⟩, if_pos hfits]
    · have hstacked : Size.mul? extent (dims :: rest).length = none := if_neg hfits
      rw [hstacked, if_neg hfits]

/-- The rule refuses other inputs, and for other causes than their size. -/
theorem same_of_concatDims {inputs : List (List Nat)} {axis : Nat}
    (h : ∀ cause, concatDims inputs axis = .error cause → ∃ name, cause = .overflow name) :
    ∃ first extent, inputs ≠ [] ∧ (∀ dims ∈ inputs, dims = first) ∧ first[axis]? = some extent := by
  cases inputs with
  | nil => cases (h _ rfl).choose_spec
  | cons first rest =>
    simp only [concatDims] at h
    cases hfind : (rest.zipIdx 1).find? (fun (dims, _) => dims ≠ first) with
    | some mismatch =>
      simp only [hfind] at h
      cases (h _ rfl).choose_spec
    | none =>
      have hrest := (find?_differs_eq_none_iff 1).1 hfind
      simp only [hfind] at h
      cases hextent : first[axis]? with
      | none =>
        simp only [hextent] at h
        cases (h _ rfl).choose_spec
      | some extent =>
        exact ⟨first, extent, List.cons_ne_nil _ _, List.forall_mem_cons.2 ⟨rfl, hrest⟩, hextent⟩

/-- Stacking is defined for equal inputs, at least one, along an axis that they have. -/
theorem concatDims_eq_ok_iff {inputs : List (List Nat)} {axis : Nat} {out : List Nat} :
    concatDims inputs axis = .ok out ↔
      ∃ first extent, inputs ≠ [] ∧ (∀ dims ∈ inputs, dims = first) ∧
        first[axis]? = some extent ∧ extent * inputs.length < Size.limit ∧
        out = first.set axis (extent * inputs.length) := by
  constructor
  · intro h
    obtain ⟨first, extent, hne, hall, haxis⟩ :=
      same_of_concatDims fun cause hcause => nomatch h.symm.trans hcause
    rw [concatDims_of_same hne hall haxis] at h
    split at h
    · case isTrue hfits => exact ⟨first, extent, hne, hall, haxis, hfits, (Except.ok.inj h).symm⟩
    · cases h
  · rintro ⟨first, extent, hne, hall, haxis, hfits, rfl⟩
    rw [concatDims_of_same hne hall haxis, if_pos hfits]

/-- Stacking overflows for equal inputs if their extents along the axis add up to no machine
size. -/
theorem concatDims_overflow_iff {inputs : List (List Nat)} {axis : Nat} {name : String} :
    concatDims inputs axis = .error (.overflow name) ↔
      name = Opcode.concat.name ∧ ∃ first extent, inputs ≠ [] ∧ (∀ dims ∈ inputs, dims = first) ∧
        first[axis]? = some extent ∧ Size.limit ≤ extent * inputs.length := by
  constructor
  · intro h
    obtain ⟨first, extent, hne, hall, haxis⟩ :=
      same_of_concatDims fun cause hcause => ⟨name, Except.error.inj (hcause.symm.trans h)⟩
    rw [concatDims_of_same hne hall haxis] at h
    split at h
    · cases h
    · case isFalse hfits =>
      cases h
      exact ⟨rfl, first, extent, hne, hall, haxis, Nat.not_lt.1 hfits⟩
  · rintro ⟨rfl, first, extent, hne, hall, haxis, hover⟩
    rw [concatDims_of_same hne hall haxis, if_neg (Nat.not_lt.2 hover)]

theorem transposeDims_ne_overflow {dims shuffle : List Nat} {name : String} :
    transposeDims dims shuffle ≠ .error (.overflow name) := by
  unfold transposeDims
  split <;> nofun

theorem channelCount_ne_overflow {dims : List Nat} {channel : Nat} {name : String} :
    channelCount dims channel ≠ .error (.overflow name) := by
  unfold channelCount
  split <;> nofun

theorem channelCount_eq_ok_iff {dims : List Nat} {channel count : Nat} :
    channelCount dims channel = .ok count ↔ dims[channel]? = some count := by
  unfold channelCount
  cases dims[channel]? <;> simp

end Shape
end TensorIR
