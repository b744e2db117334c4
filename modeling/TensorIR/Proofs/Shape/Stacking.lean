import TensorIR.Proofs.Attempt
import TensorIR.Proofs.Shape.Axes

/-!
# TensorIR.Proofs.Shape.Stacking

Equal tensors behind one another, exactly.

* `find?_differs_eq_some_iff`: the search for an input that differs finds the first one.
* `stackingObjections`: the objections to stacking in the order in which they are raised, those to
  single inputs in the order of the inputs.
* `concatDims_eq_error_iff`: stacking is refused for the first of them that applies.
* `concatDims_mismatch_iff`: the input named in a mismatch is the first that differs.
* `concatDims_replicate_bind`: a stack of stacks is one stack of all, also where it overflows.
* `concatDims_exact`: all of these, with the dimensions of a stack.
-/

namespace TensorIR
namespace Shape

variable {inputs rest : List (List Nat)} {first dims : List Nat} {axis extent : Nat}
  {cause : ShapeError}

/-! ## The first input that differs -/

theorem find?_differs_eq_some_iff {index : Nat} (start : Nat) :
    (rest.zipIdx start).find? (fun (dims, _) => dims ≠ first) = some (dims, index) ↔
      ∃ n, index = start + n ∧ rest[n]? = some dims ∧ dims ≠ first ∧
        ∀ k < n, rest[k]? = some first := by
  induction rest generalizing start with
  | nil => simp
  | cons other rest ih =>
    rw [List.zipIdx_cons]
    by_cases hother : other = first
    · rw [List.find?_cons_of_neg (by simp [hother]), ih]
      constructor
      · rintro ⟨n, rfl, hdims, hne, hbefore⟩
        refine ⟨n + 1, by omega, hdims, hne, fun k hk => ?_⟩
        cases k with
        | zero => rw [hother]; rfl
        | succ k => exact hbefore k (Nat.lt_of_succ_lt_succ hk)
      · rintro ⟨n, rfl, hdims, hne, hbefore⟩
        cases n with
        | zero => exact absurd (Option.some.inj hdims.symm |>.trans hother) hne
        | succ n =>
          exact ⟨n, by omega, hdims, hne, fun k hk => hbefore (k + 1) (Nat.succ_lt_succ hk)⟩
    · rw [List.find?_cons_of_pos (by simpa using hother)]
      constructor
      · intro h
        cases h
        exact ⟨0, rfl, rfl, hother, fun k hk => absurd hk (Nat.not_lt_zero k)⟩
      · rintro ⟨n, rfl, hdims, hne, hbefore⟩
        cases n with
        | zero => cases hdims; rfl
        | succ n => exact absurd (Option.some.inj (hbefore 0 n.succ_pos)) hother

/-! ## Objections -/

/-- The objections to stacking, in the order in which they are raised, each with the condition for
it. Every input is compared with the first. -/
def stackingObjections (inputs : List (List Nat)) (axis : Nat) : List (Prop × ShapeError) :=
  let first := inputs.headD []
  (inputs = [], .emptyConcat) ::
    (inputs.zipIdx.map fun (dims, index) =>
      (dims ≠ first, .concatInputMismatch index first dims)) ++
    [(first.length ≤ axis, .axisOutOfRange Opcode.concat.name axis first.length),
      (∃ extent, first[axis]? = some extent ∧ Size.limit ≤ extent * inputs.length,
        .overflow Opcode.concat.name)]

theorem exists_cons_of_same (hne : inputs ≠ []) (hall : ∀ dims ∈ inputs, dims = first) :
    ∃ rest, inputs = first :: rest := by
  cases inputs with
  | nil => exact absurd rfl hne
  | cons dims rest => exact ⟨rest, by rw [hall dims List.mem_cons_self]⟩

/-- What is left to object to equal inputs. -/
theorem firstOf_stackingObjections_of_same (hall : ∀ dims ∈ first :: rest, dims = first)
    (h : FirstOf [(first.length ≤ axis, .axisOutOfRange Opcode.concat.name axis first.length),
      (∃ extent, first[axis]? = some extent ∧ Size.limit ≤ extent * (first :: rest).length,
        .overflow Opcode.concat.name)] cause) :
    FirstOf (stackingObjections (first :: rest) axis) cause := by
  refine firstOf_append_of_forall (fun other hother => ?_) h
  rcases List.mem_cons.1 hother with rfl | hother
  · exact List.cons_ne_nil first rest
  · obtain ⟨⟨dims, index⟩, hmem, rfl⟩ := List.mem_map.1 hother
    exact not_not_intro (hall dims (List.fst_mem_of_mem_zipIdx hmem))

theorem firstOf_stackingObjections_of_error (h : concatDims inputs axis = .error cause) :
    FirstOf (stackingObjections inputs axis) cause := by
  cases inputs with
  | nil =>
    cases h
    exact .here rfl
  | cons first rest =>
    simp only [concatDims] at h
    split at h
    · case h_1 dims index hfind =>
      cases h
      -- The first input is compared with itself, without objection.
      refine .later (List.cons_ne_nil first rest) (.later (not_not_intro rfl) ?_)
      exact (firstOf_map_of_find? hfind).append
    · case h_2 hfind =>
      have hall : ∀ dims ∈ first :: rest, dims = first :=
        List.forall_mem_cons.2 ⟨rfl, (find?_differs_eq_none_iff 1).1 hfind⟩
      refine firstOf_stackingObjections_of_same hall ?_
      split at h
      · case h_1 haxis =>
        cases h
        exact .here (List.getElem?_eq_none_iff.1 haxis)
      · case h_2 extent haxis =>
        split at h
        · case h_1 hstacked =>
          cases h
          have hover : Size.limit ≤ extent * (first :: rest).length := by
            refine Nat.not_lt.1 fun hfits => ?_
            rw [Size.mul?_eq_some_iff.2 ⟨rfl, hfits⟩] at hstacked
            cases hstacked
          have hlt := (List.getElem?_eq_some_iff.1 haxis).1
          exact .later (Nat.not_le.2 hlt) (.here ⟨extent, haxis, hover⟩)
        · cases h

theorem not_firstOf_stackingObjections_of_ok {out : List Nat}
    (h : concatDims inputs axis = .ok out) : ¬ FirstOf (stackingObjections inputs axis) cause := by
  obtain ⟨first, extent, hne, hall, haxis, hfits, -⟩ := concatDims_eq_ok_iff.1 h
  obtain ⟨rest, rfl⟩ := exists_cons_of_same hne hall
  refine not_firstOf_of_forall fun other hother => ?_
  rcases List.mem_append.1 hother with hother | hother
  · rcases List.mem_cons.1 hother with rfl | hother
    · exact hne
    · obtain ⟨⟨dims, index⟩, hmem, rfl⟩ := List.mem_map.1 hother
      exact not_not_intro (hall dims (List.fst_mem_of_mem_zipIdx hmem))
  · rcases List.mem_cons.1 hother with rfl | hother
    · exact Nat.not_le.2 (List.getElem?_eq_some_iff.1 haxis).1
    · obtain rfl := List.mem_singleton.1 hother
      rintro ⟨extent', haxis', hover⟩
      cases haxis.symm.trans haxis'
      exact Nat.not_lt.2 hover hfits

/-- Stacking is refused for the first objection that applies. -/
theorem concatDims_eq_error_iff :
    concatDims inputs axis = .error cause ↔ FirstOf (stackingObjections inputs axis) cause := by
  refine ⟨firstOf_stackingObjections_of_error, fun h => ?_⟩
  cases hstack : concatDims inputs axis with
  | ok out => exact absurd h (not_firstOf_stackingObjections_of_ok hstack)
  | error other => rw [(firstOf_stackingObjections_of_error hstack).unique h]

/-- An input is reported exactly if it is the first that differs from input 0. -/
theorem concatDims_mismatch_iff {index : Nat} {expected actual : List Nat} :
    concatDims inputs axis = .error (.concatInputMismatch index expected actual) ↔
      0 < index ∧ inputs[index]? = some actual ∧ actual ≠ expected ∧
        ∀ k < index, inputs[k]? = some expected := by
  cases inputs with
  | nil => exact iff_of_false nofun fun h => nomatch h.2.1
  | cons first rest =>
    simp only [concatDims]
    constructor
    · intro h
      split at h
      · case h_1 dims index hfind =>
        cases h
        obtain ⟨n, rfl, hdims, hne, hbefore⟩ := (find?_differs_eq_some_iff 1).1 hfind
        rw [Nat.add_comm]
        refine ⟨n.succ_pos, hdims, hne, fun k hk => ?_⟩
        cases k with
        | zero => rfl
        | succ k => exact hbefore k (Nat.lt_of_succ_lt_succ hk)
      · split at h
        · cases h
        · split at h <;> cases h
    · rintro ⟨hpos, hactual, hne, hbefore⟩
      obtain ⟨n, rfl⟩ : ∃ n, index = n + 1 := ⟨index - 1, by omega⟩
      obtain rfl : first = expected := Option.some.inj (hbefore 0 hpos)
      have hfind : (rest.zipIdx 1).find? (fun (dims, _) => dims ≠ first) = some (actual, n + 1) :=
        (find?_differs_eq_some_iff 1).2 ⟨n, Nat.add_comm _ _, hactual, hne,
          fun k hk => hbefore (k + 1) (Nat.succ_lt_succ hk)⟩
      rw [hfind]

/-! ## Stacks of stacks -/

/-- The dimensions of copies of one tensor behind one another. -/
theorem concatDims_replicate {n : Nat} (hn : 1 ≤ n) (dims : List Nat) (axis : Nat) :
    concatDims (List.replicate n dims) axis =
      match dims[axis]? with
      | none => .error (.axisOutOfRange Opcode.concat.name axis dims.length)
      | some extent =>
        if extent * n < Size.limit then .ok (dims.set axis (extent * n))
        else .error (.overflow Opcode.concat.name) := by
  have hne : List.replicate n dims ≠ [] := by
    rw [Ne, List.replicate_eq_nil_iff]
    omega
  have hall : ∀ other ∈ List.replicate n dims, other = dims :=
    fun other => List.eq_of_mem_replicate
  split
  · case h_1 haxis =>
    obtain ⟨rest, hinputs⟩ := exists_cons_of_same hne hall
    rw [concatDims_eq_error_iff, hinputs]
    exact firstOf_stackingObjections_of_same (hinputs ▸ hall)
      (.here (List.getElem?_eq_none_iff.1 haxis))
  · case h_2 extent haxis => rw [concatDims_of_same hne hall haxis, List.length_replicate]

/-- Copies of a stack of copies are a stack of all of them. If the first stack overflows then so does
the second, since it is no smaller. -/
theorem concatDims_replicate_bind {n m : Nat} (hn : 1 ≤ n) (hm : 1 ≤ m) (dims : List Nat)
    (axis : Nat) :
    (concatDims (List.replicate n dims) axis >>= fun out =>
      concatDims (List.replicate m out) axis) = concatDims (List.replicate (n * m) dims) axis := by
  rw [concatDims_replicate hn, concatDims_replicate (Nat.mul_pos hn hm)]
  cases haxis : dims[axis]? with
  | none => rfl
  | some extent =>
    simp only
    by_cases hfits : extent * n < Size.limit
    · have hstacked : (dims.set axis (extent * n))[axis]? = some (extent * n) :=
        List.getElem?_set_self (List.getElem?_eq_some_iff.1 haxis).1
      rw [if_pos hfits, ok_bind, concatDims_replicate hm, hstacked]
      simp only [List.set_set, Nat.mul_assoc]
    · have hover : ¬ extent * (n * m) < Size.limit := by
        rw [← Nat.mul_assoc]
        exact fun hlt => hfits (Nat.lt_of_le_of_lt (Nat.le_mul_of_pos_right _ hm) hlt)
      rw [if_neg hfits, if_neg hover, error_bind]

/-! ## Exactness -/

/-- Inputs are stacked exactly if there is one, all are equal to the first, which has the axis, and
the extents along the axis add up to a machine size; the stack has this extent along the axis and the
others as the inputs have them. Otherwise the first objection that applies is the reason given, where
an input that differs is named by its place, the first such place. Stacking stacks is stacking all of
them at once. -/
theorem concatDims_exact (inputs : List (List Nat)) (axis : Nat) :
    ((∃ out, concatDims inputs axis = .ok out) ↔
      ∃ first extent, inputs[0]? = some first ∧ (∀ dims ∈ inputs, dims = first) ∧
        first[axis]? = some extent ∧ extent * inputs.length < Size.limit) ∧
    (∀ out first, concatDims inputs axis = .ok out → inputs[0]? = some first →
      out.length = first.length ∧ out[axis]? = first[axis]?.map (· * inputs.length) ∧
        ∀ other, other ≠ axis → out[other]? = first[other]?) ∧
    (∀ cause, concatDims inputs axis = .error cause ↔
      FirstOf (stackingObjections inputs axis) cause) ∧
    (∀ index expected actual,
      concatDims inputs axis = .error (.concatInputMismatch index expected actual) ↔
        0 < index ∧ inputs[index]? = some actual ∧ actual ≠ expected ∧
          ∀ k < index, inputs[k]? = some expected) ∧
    ∀ dims n m, 1 ≤ n → 1 ≤ m →
      (concatDims (List.replicate n dims) axis >>= fun out =>
        concatDims (List.replicate m out) axis) =
          concatDims (List.replicate (n * m) dims) axis := by
  refine ⟨⟨?_, ?_⟩, fun out first h hfirst => ?_, fun cause => concatDims_eq_error_iff,
    fun index expected actual => concatDims_mismatch_iff,
    fun dims n m hn hm => concatDims_replicate_bind hn hm dims axis⟩
  · rintro ⟨out, h⟩
    obtain ⟨first, extent, hne, hall, haxis, hfits, -⟩ := concatDims_eq_ok_iff.1 h
    obtain ⟨rest, rfl⟩ := exists_cons_of_same hne hall
    exact ⟨first, extent, rfl, hall, haxis, hfits⟩
  · rintro ⟨first, extent, hfirst, hall, haxis, hfits⟩
    have hne : inputs ≠ [] := by
      rintro rfl
      cases hfirst
    exact ⟨_, concatDims_eq_ok_iff.2 ⟨first, extent, hne, hall, haxis, hfits, rfl⟩⟩
  · obtain ⟨first', extent, hne, hall, haxis, -, rfl⟩ := concatDims_eq_ok_iff.1 h
    obtain ⟨rest, rfl⟩ := exists_cons_of_same hne hall
    cases hfirst
    refine ⟨List.length_set, ?_, fun other hother => List.getElem?_set_ne hother.symm⟩
    rw [haxis, List.getElem?_set_self (List.getElem?_eq_some_iff.1 haxis).1, Option.map_some]

/-- Three inputs stacked along their second axis, a second input that differs, and two stacks of
three. -/
theorem concatDims_exact_threeInputs :
    concatDims [[2, 3], [2, 3], [2, 3]] 1 = .ok [2, 9] ∧
      ([2, 9] : List Nat)[0]? = ([2, 3] : List Nat)[0]? ∧
      concatDims [[2, 3], [2, 3], [2, 4], [5]] 7 =
        .error (.concatInputMismatch 2 [2, 3] [2, 4]) ∧
      (concatDims [[2, 3], [2, 3], [2, 3]] 1 >>= fun out => concatDims [out, out] 1) =
        concatDims (List.replicate 6 [2, 3]) 1 := by
  have hout : concatDims [[2, 3], [2, 3], [2, 3]] 1 = .ok [2, 9] := by decide
  obtain ⟨-, hdims, -, -, hcompose⟩ := concatDims_exact [[2, 3], [2, 3], [2, 3]] 1
  have hmismatch := (concatDims_exact [[2, 3], [2, 3], [2, 4], [5]] 7).2.2.2.1 2 [2, 3] [2, 4]
  refine ⟨hout, (hdims _ _ hout rfl).2.2 0 (by decide), hmismatch.2 ?_,
    hcompose [2, 3] 3 2 (by decide) (by decide)⟩
  exact ⟨by decide, rfl, by decide, by decide⟩

end Shape
end TensorIR
