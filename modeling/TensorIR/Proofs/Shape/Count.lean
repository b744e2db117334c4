import Mathlib.Algebra.BigOperators.Group.List.Basic
import TensorIR.Proofs.Attempt
import TensorIR.Shape.Count
import TensorIR.TensorType

/-!
# TensorIR.Proofs.Shape.Count

What the rules on element counts compute, over unbounded numbers.

* `Shape.Counts`: a number is the product of the dimensions, and no product of the first few
  dimensions passes the machine limit.
* `elementCount?_eq_some_iff`, `flattenTail_eq_ok_iff`, `checkReshape_eq_ok_iff`: when the rules
  answer, and with what.
* `Shape.Overflows`, `flattenTail_overflow_iff`, `checkReshape_overflow_iff`: when they are refused
  for a size beyond the limit.
* `numElements_eq_ok_iff`: types count their elements in the same order, and meet a fault where the
  rules have no answer.
* `prod_set_mul`: an axis taken several times takes the whole tensor as often.
-/

namespace TensorIR
namespace Shape

/-- The number of elements, where the dimensions are multiplied from the left and every partial
product is a machine size. -/
structure Counts (dims : List Nat) (count : Nat) : Prop where
  product : dims.prod = count
  fits : ∀ n, (dims.take n).prod < Size.limit

theorem Counts.lt_limit {dims : List Nat} {count : Nat} (h : Counts dims count) :
    count < Size.limit := by
  have hfits := h.fits dims.length
  rwa [List.take_length, h.product] at hfits

/-- The product from the left, begun at any machine size. -/
theorem foldlM_mul?_eq_some_iff (dims : List Nat) {count : Nat} :
    ∀ {start : Nat}, start < Size.limit →
      (dims.foldlM Size.mul? start = some count ↔
        start * dims.prod = count ∧ ∀ n, start * (dims.take n).prod < Size.limit) := by
  induction dims with
  | nil =>
    intro start hstart
    simp [hstart]
  | cons dim dims ih =>
    intro start hstart
    rw [List.foldlM_cons]
    by_cases hfirst : start * dim < Size.limit
    · have hmul : Size.mul? start dim = some (start * dim) := Size.mul?_eq_some_iff.2 ⟨rfl, hfirst⟩
      rw [hmul, Option.bind_eq_bind, Option.bind_some, ih hfirst, List.prod_cons, Nat.mul_assoc]
      refine and_congr_right fun _ => ⟨fun h n => ?_, fun h n => ?_⟩
      · cases n with
        | zero => simpa using hstart
        | succ n =>
          rw [List.take_succ_cons, List.prod_cons, ← Nat.mul_assoc]
          exact h n
      · have hnext := h (n + 1)
        rwa [List.take_succ_cons, List.prod_cons, ← Nat.mul_assoc] at hnext
    · have hmul : Size.mul? start dim = none := by simp [Size.mul?, hfirst]
      rw [hmul]
      refine iff_of_false (by simp) fun ⟨_, h⟩ => hfirst ?_
      simpa using h 1

theorem elementCount?_eq_some_iff {dims : List Nat} {count : Nat} :
    elementCount? dims = some count ↔ Counts dims count := by
  have hone : 1 < Size.limit := by decide
  rw [elementCount?, foldlM_mul?_eq_some_iff dims hone]
  simp only [Nat.one_mul]
  exact ⟨fun h => ⟨h.1, h.2⟩, fun h => ⟨h.product, h.fits⟩⟩

theorem flattenTail_eq_ok_iff {op : String} {dims : List Nat} {batch inner : Nat} :
    flattenTail op dims = .ok (batch, inner) ↔ ∃ rest, dims = batch :: rest ∧ Counts rest inner := by
  cases dims with
  | nil => simp [flattenTail]
  | cons first rest =>
    simp only [flattenTail, List.cons.injEq]
    cases hcount : elementCount? rest with
    | none =>
      refine iff_of_false nofun ?_
      rintro ⟨_, ⟨-, rfl⟩, h⟩
      rw [elementCount?_eq_some_iff.2 h] at hcount
      cases hcount
    | some count =>
      constructor
      · intro h
        cases h
        exact ⟨rest, ⟨rfl, rfl⟩, elementCount?_eq_some_iff.1 hcount⟩
      · rintro ⟨_, ⟨rfl, rfl⟩, h⟩
        rw [elementCount?_eq_some_iff.2 h] at hcount
        cases hcount
        rfl

/-- A product of the first few dimensions is no machine size. -/
def Overflows (dims : List Nat) : Prop := ∃ n, Size.limit ≤ (dims.take n).prod

theorem elementCount?_eq_none_iff {dims : List Nat} :
    elementCount? dims = none ↔ Overflows dims := by
  constructor
  · intro h
    by_contra hfits
    have hcounts : Counts dims dims.prod := ⟨rfl, fun n => by
      by_contra hlt
      exact hfits ⟨n, Nat.not_lt.1 hlt⟩⟩
    rw [elementCount?_eq_some_iff.2 hcounts] at h
    cases h
  · rintro ⟨n, hn⟩
    cases h : elementCount? dims with
    | none => rfl
    | some count => exact absurd ((elementCount?_eq_some_iff.1 h).fits n) (Nat.not_lt.2 hn)

theorem flattenTail_overflow_iff {op name : String} {dims : List Nat} :
    flattenTail op dims = .error (.overflow name) ↔
      name = op ∧ ∃ first rest, dims = first :: rest ∧ Overflows rest := by
  cases dims with
  | nil => simp [flattenTail]
  | cons first rest =>
    simp only [flattenTail, List.cons.injEq, ← elementCount?_eq_none_iff]
    cases hcount : elementCount? rest with
    | none =>
      constructor
      · intro h
        cases h
        exact ⟨rfl, first, rest, ⟨rfl, rfl⟩, hcount⟩
      · rintro ⟨rfl, -⟩
        rfl
    | some count =>
      refine iff_of_false nofun ?_
      rintro ⟨-, _, _, ⟨-, rfl⟩, h⟩
      rw [hcount] at h
      cases h

theorem checkReshape_overflow_iff {source target : List Nat} {name : String} :
    checkReshape source target = .error (.overflow name) ↔
      name = Opcode.reshape.name ∧ (Overflows source ∨ Overflows target) := by
  simp only [← elementCount?_eq_none_iff, checkReshape]
  cases elementCount? source with
  | none => simp [eq_comm]
  | some sourceCount =>
    cases elementCount? target with
    | none => simp [eq_comm]
    | some targetCount => by_cases h : sourceCount = targetCount <;> simp [h]

theorem checkReshape_eq_ok_iff {source target : List Nat} :
    checkReshape source target = .ok () ↔ ∃ count, Counts source count ∧ Counts target count := by
  simp only [← elementCount?_eq_some_iff, checkReshape]
  cases elementCount? source with
  | none => simp
  | some sourceCount =>
    cases elementCount? target with
    | none => simp
    | some targetCount =>
      by_cases h : sourceCount = targetCount
      · simp [h]
      · simp [h, Ne.symm h]

theorem prod_set_mul (dims : List Nat) (n : Nat) : ∀ {axis extent : Nat},
    dims[axis]? = some extent → (dims.set axis (extent * n)).prod = dims.prod * n := by
  induction dims with
  | nil => intro axis extent h; simp at h
  | cons dim dims ih =>
    intro axis extent h
    cases axis with
    | zero =>
      cases h
      rw [List.set_cons_zero, List.prod_cons, List.prod_cons, Nat.mul_right_comm]
    | succ axis => rw [List.set_cons_succ, List.prod_cons, List.prod_cons, ih h, Nat.mul_assoc]

end Shape

/-! ## The count of a type -/

theorem Size.mul_eq_ok_iff_mul? {a b c : Nat} : Size.mul a b = .ok c ↔ Size.mul? a b = some c := by
  rw [mul_eq_ok_iff, mul?_eq_some_iff]

theorem foldlM_mul_eq_ok_iff (dims : List Nat) {count : Nat} : ∀ {start : Nat},
    dims.foldlM Size.mul start = .ok count ↔ dims.foldlM Size.mul? start = some count := by
  induction dims with
  | nil =>
    intro start
    exact ⟨fun h => by cases h; rfl, fun h => by cases h; rfl⟩
  | cons dim dims ih =>
    intro start
    rw [List.foldlM_cons, List.foldlM_cons, bind_eq_ok, Option.bind_eq_bind,
      Option.bind_eq_some_iff]
    simp only [Size.mul_eq_ok_iff_mul?, ih]

theorem numElements_eq_ok_iff {t : TensorType} {count : Nat} :
    t.numElements = .ok count ↔ Shape.Counts t.dims count := by
  rw [← Shape.elementCount?_eq_some_iff]
  exact foldlM_mul_eq_ok_iff t.dims

end TensorIR
