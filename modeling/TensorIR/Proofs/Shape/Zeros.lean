import Mathlib.Algebra.BigOperators.Group.List.Lemmas
import Mathlib.Algebra.BigOperators.Ring.List
import Mathlib.Algebra.GroupWithZero.Nat
import Mathlib.Data.List.TakeWhile
import TensorIR.Proofs.Shape.Count

/-!
# TensorIR.Proofs.Shape.Zeros

Counting the elements of tensors with an axis of extent zero. Such a tensor has no elements, but its
other dimensions may have a product beyond the machine limit, and the rules multiply from the left.

* `Shape.exactCount?`: the number of elements, if it is a machine size.
* `Shape.leading`, `overflows_iff`: the dimensions before the first zero are those that decide
  whether the rules have an answer.
* `Shape.HidesOverflow`: a zero that comes too late.
* `elementCount?_eq_exactCount?_iff`: without such a zero the rules count exactly.
* `exists_perm_hidesOverflow_iff`: which dimensions have an order with such a zero.
* `counts_exactly_unless_hidden`: what this makes of counts and of the verdict on a reshape.
-/

namespace TensorIR
namespace Shape

variable {dims dims' source target : List Nat}

/-- The number of elements, if it is a machine size. -/
def exactCount? (dims : List Nat) : Option Nat :=
  if dims.prod < Size.limit then some dims.prod else none

/-- The dimensions before the first zero. -/
def leading (dims : List Nat) : List Nat := dims.takeWhile (· ≠ 0)

def nonzero (dims : List Nat) : List Nat := dims.filter (· ≠ 0)

/-- There are no elements, but the product passes the machine limit before it meets the zero. -/
def HidesOverflow (dims : List Nat) : Prop := 0 ∈ dims ∧ Size.limit ≤ (leading dims).prod

instance (dims : List Nat) : Decidable (HidesOverflow dims) :=
  inferInstanceAs (Decidable (_ ∧ _))

theorem zero_notMem_leading (dims : List Nat) : 0 ∉ leading dims := by
  intro h
  simpa using List.mem_takeWhile_imp h

theorem prod_leading_pos (dims : List Nat) : 0 < (leading dims).prod :=
  Nat.pos_of_ne_zero (List.prod_ne_zero (zero_notMem_leading dims))

theorem leading_of_notMem (h : 0 ∉ dims) : leading dims = dims := by
  refine List.takeWhile_eq_self_iff.2 fun dim hdim => ?_
  simpa using fun hzero : dim = 0 => h (hzero ▸ hdim)

/-! ## The product from the left -/

/-- No product of the first few dimensions is larger than that of the dimensions before the first
zero: up to there the products grow, and from there on they are zero. -/
theorem prod_take_le_leading (dims : List Nat) : ∀ n, (dims.take n).prod ≤ (leading dims).prod := by
  induction dims with
  | nil => intro n; rw [List.take_nil]; exact Nat.le_refl _
  | cons dim dims ih =>
    intro n
    cases n with
    | zero => exact prod_leading_pos _
    | succ n =>
      rw [List.take_succ_cons, List.prod_cons]
      by_cases hdim : dim = 0
      · rw [hdim, Nat.zero_mul]
        exact Nat.zero_le _
      · have hleading : leading (dim :: dims) = dim :: leading dims :=
          List.takeWhile_cons_of_pos (by simpa using hdim)
        rw [hleading, List.prod_cons]
        exact Nat.mul_le_mul_left dim (ih n)

theorem overflows_iff : Overflows dims ↔ Size.limit ≤ (leading dims).prod := by
  constructor
  · rintro ⟨n, hn⟩
    exact Nat.le_trans hn (prod_take_le_leading dims n)
  · intro h
    have hprefix : leading dims = dims.take (leading dims).length :=
      List.prefix_iff_eq_take.1 (List.takeWhile_prefix _)
    exact ⟨(leading dims).length, hprefix ▸ h⟩

theorem elementCount?_eq (dims : List Nat) :
    elementCount? dims = if (leading dims).prod < Size.limit then some dims.prod else none := by
  by_cases h : (leading dims).prod < Size.limit
  · rw [if_pos h, elementCount?_eq_some_iff]
    exact ⟨rfl, fun n => Nat.lt_of_le_of_lt (prod_take_le_leading dims n) h⟩
  · rw [if_neg h, elementCount?_eq_none_iff, overflows_iff]
    exact Nat.not_lt.1 h

theorem HidesOverflow.counts (h : HidesOverflow dims) :
    elementCount? dims = none ∧ exactCount? dims = some 0 := by
  obtain ⟨hzero, hover⟩ := h
  have hprod : dims.prod = 0 := List.prod_eq_zero hzero
  rw [elementCount?_eq, if_neg (Nat.not_lt.2 hover), exactCount?, hprod]
  exact ⟨rfl, rfl⟩

/-- The product from the left is exact, unless a zero hides that it passes the limit. -/
theorem elementCount?_eq_exactCount?_iff :
    elementCount? dims = exactCount? dims ↔ ¬ HidesOverflow dims := by
  constructor
  · intro h hhides
    obtain ⟨hnone, hsome⟩ := hhides.counts
    rw [hnone, hsome] at h
    cases h
  · intro h
    rw [elementCount?_eq, exactCount?]
    by_cases hzero : 0 ∈ dims
    · have hlt : (leading dims).prod < Size.limit := Nat.not_le.1 fun hover => h ⟨hzero, hover⟩
      have hprod : dims.prod < Size.limit := by
        rw [List.prod_eq_zero hzero]
        decide
      rw [if_pos hlt, if_pos hprod]
    · rw [leading_of_notMem hzero]

/-! ## The order of the dimensions -/

theorem exactCount?_of_perm (h : dims'.Perm dims) : exactCount? dims' = exactCount? dims := by
  rw [exactCount?, exactCount?, h.prod_eq]

theorem prod_leading_le_nonzero (dims : List Nat) :
    (leading dims).prod ≤ (nonzero dims).prod := by
  have hkept : (leading dims).filter (· ≠ 0) = leading dims :=
    List.filter_eq_self.2 fun _ => List.mem_takeWhile_imp
  have hsub : (leading dims).Sublist (nonzero dims) :=
    hkept ▸ (List.takeWhile_sublist _).filter _
  have hpos : 0 < (nonzero dims).prod :=
    Nat.pos_of_ne_zero (List.prod_ne_zero (by simp [nonzero]))
  exact Nat.le_of_dvd hpos hsub.prod_dvd_prod

/-- Of all orders, the one with the zeros at the end multiplies most dimensions before the first. -/
theorem exists_perm_leading_eq (dims : List Nat) :
    ∃ dims', dims'.Perm dims ∧ leading dims' = nonzero dims := by
  refine ⟨_, List.filter_append_perm (· ≠ 0) dims, ?_⟩
  have hzeros : leading (dims.filter fun dim => !decide (dim ≠ 0)) = [] := by
    cases hrest : dims.filter fun dim => !decide (dim ≠ 0) with
    | nil => rfl
    | cons dim rest =>
      have hdim : dim ∈ dims.filter fun dim => !decide (dim ≠ 0) := hrest ▸ List.mem_cons_self
      have hzero : dim = 0 := by simpa using (List.mem_filter.1 hdim).2
      rw [hzero]
      rfl
  rw [leading, List.takeWhile_append_of_pos fun _ hdim => (List.mem_filter.1 hdim).2]
  exact (congrArg (nonzero dims ++ ·) hzeros).trans (List.append_nil _)

/-- Dimensions can be put into an order in which a zero hides an overflow exactly if there is a zero
and the product of the others passes the limit. -/
theorem exists_perm_hidesOverflow_iff :
    (∃ dims', dims'.Perm dims ∧ HidesOverflow dims') ↔
      0 ∈ dims ∧ Size.limit ≤ (nonzero dims).prod := by
  constructor
  · rintro ⟨dims', hperm, hzero, hover⟩
    have hsame : (nonzero dims').prod = (nonzero dims).prod := (hperm.filter _).prod_eq
    exact ⟨hperm.mem_iff.1 hzero,
      hsame ▸ Nat.le_trans hover (prod_leading_le_nonzero dims')⟩
  · rintro ⟨hzero, hover⟩
    obtain ⟨dims', hperm, hleading⟩ := exists_perm_leading_eq dims
    exact ⟨dims', hperm, hperm.mem_iff.2 hzero, hleading ▸ hover⟩

/-! ## Reshapes -/

theorem elementCount?_eq_some_iff_exact {count : Nat} :
    elementCount? dims = some count ↔ exactCount? dims = some count ∧ ¬ HidesOverflow dims := by
  by_cases h : HidesOverflow dims
  · rw [h.counts.1]
    exact iff_of_false nofun fun hcount => hcount.2 h
  · rw [elementCount?_eq_exactCount?_iff.2 h]
    exact (and_iff_left h).symm

theorem elementCount?_of_perm (h : dims'.Perm dims)
    (hhides : HidesOverflow dims' ↔ HidesOverflow dims) :
    elementCount? dims' = elementCount? dims := by
  refine Option.ext fun count => ?_
  rw [elementCount?_eq_some_iff_exact, elementCount?_eq_some_iff_exact, exactCount?_of_perm h,
    hhides]

theorem checkReshape_eq_ok_iff_exact :
    checkReshape source target = .ok () ↔
      (∃ count, exactCount? source = some count ∧ exactCount? target = some count) ∧
        ¬ HidesOverflow source ∧ ¬ HidesOverflow target := by
  simp only [checkReshape_eq_ok_iff, ← elementCount?_eq_some_iff, elementCount?_eq_some_iff_exact]
  constructor
  · rintro ⟨count, ⟨hsource, hshown⟩, htarget, hshown'⟩
    exact ⟨⟨count, hsource, htarget⟩, hshown, hshown'⟩
  · rintro ⟨⟨count, hsource, htarget⟩, hshown, hshown'⟩
    exact ⟨count, ⟨hsource, hshown⟩, htarget, hshown'⟩

/-- The verdict on a reshape depends on the dimensions through their counts only. -/
theorem verdict_of_counts {source' target' : List Nat}
    (hsource : elementCount? source' = elementCount? source)
    (htarget : elementCount? target' = elementCount? target) :
    (checkReshape source' target' = .ok () ↔ checkReshape source target = .ok ()) ∧
      ∀ name, checkReshape source' target' = .error (.overflow name) ↔
        checkReshape source target = .error (.overflow name) := by
  constructor
  · simp only [checkReshape_eq_ok_iff, ← elementCount?_eq_some_iff, hsource, htarget]
  · intro name
    simp only [checkReshape_overflow_iff, ← elementCount?_eq_none_iff, hsource, htarget]

/-- The product from the left is the number of elements, or nothing if this is no machine size, for
exactly those dimensions in which no zero hides an overflow; the others have no elements and are not
counted. A reshape is accepted exactly between dimensions of one count that is a machine size, if no
zero hides an overflow in either. The order of the dimensions matters for the verdict only where it
lets a zero hide an overflow, and it can do so exactly where there is a zero and the product of the
other dimensions passes the limit. -/
theorem counts_exactly_unless_hidden (dims source target : List Nat) :
    (elementCount? dims = exactCount? dims ↔ ¬ HidesOverflow dims) ∧
    (HidesOverflow dims → elementCount? dims = none ∧ exactCount? dims = some 0) ∧
    (checkReshape source target = .ok () ↔
      (∃ count, exactCount? source = some count ∧ exactCount? target = some count) ∧
        ¬ HidesOverflow source ∧ ¬ HidesOverflow target) ∧
    (∀ source' target', source'.Perm source → target'.Perm target →
      (HidesOverflow source' ↔ HidesOverflow source) →
      (HidesOverflow target' ↔ HidesOverflow target) →
      (checkReshape source' target' = .ok () ↔ checkReshape source target = .ok ()) ∧
        ∀ name, checkReshape source' target' = .error (.overflow name) ↔
          checkReshape source target = .error (.overflow name)) ∧
    ((∃ dims', dims'.Perm dims ∧ HidesOverflow dims') ↔
      0 ∈ dims ∧ Size.limit ≤ (nonzero dims).prod) := by
  refine ⟨elementCount?_eq_exactCount?_iff, HidesOverflow.counts, checkReshape_eq_ok_iff_exact, ?_,
    exists_perm_hidesOverflow_iff⟩
  intro source' target' hsource htarget hshown hshown'
  exact verdict_of_counts (elementCount?_of_perm hsource hshown)
    (elementCount?_of_perm htarget hshown')

/-- A zero in front of a product beyond the limit, and a reshape between tensors without elements in
two orders. -/
theorem counts_exactly_zeroFirst :
    elementCount? [0, 2 ^ 63, 2] = exactCount? [0, 2 ^ 63, 2] ∧
      elementCount? [2 ^ 63, 2, 0] = none ∧
      (checkReshape [2, 0, 3] [0, 5] = .ok () ↔ checkReshape [3, 2, 0] [5, 0] = .ok ()) ∧
      checkReshape [2, 0, 3] [0, 5] = .ok () := by
  obtain ⟨hexact, -, -, horder, -⟩ := counts_exactly_unless_hidden [0, 2 ^ 63, 2] [3, 2, 0] [5, 0]
  obtain ⟨-, hhides, hreshape, -⟩ := counts_exactly_unless_hidden [2 ^ 63, 2, 0] [2, 0, 3] [0, 5]
  have hverdict := horder [2, 0, 3] [0, 5] (by decide) (by decide) (by decide) (by decide)
  exact ⟨hexact.2 (by decide), (hhides (by decide)).1, hverdict.1,
    hreshape.2 ⟨⟨0, by decide, by decide⟩, by decide, by decide⟩⟩

/-- The same dimensions in two orders. Neither has an element, but only one can be reshaped. -/
theorem overflow_hidden_by_zero :
    elementCount? [2 ^ 63, 2, 0] ≠ exactCount? [2 ^ 63, 2, 0] ∧
      [0, 2 ^ 63, 2].Perm [2 ^ 63, 2, 0] ∧
      checkReshape [0, 2 ^ 63, 2] [0] = .ok () ∧
      checkReshape [2 ^ 63, 2, 0] [0] = .error (.overflow Opcode.reshape.name) := by
  decide

end Shape
end TensorIR
