import TensorIR.Proofs.Builder.Acceptance

/-!
# TensorIR.Proofs.Builder.Oversize

Verification and sizes beyond the machine limit.

* `OfSize`: what can come of such a size. `OfSize.slide_iff` and the others say of each rule of
  shape that it refuses the size by name and meets no fault.
* `Instruction.Oversized`: the instructions that have such a size in their shape.
* `checkOperands_eq_error_iff`: verification refuses exactly these for their size, one lemma for each
  kind with such a rule.
* `verifyAs_ne_fault`, `verify_ne_fault`: it meets no fault, on any program.
-/

namespace TensorIR

/-- What can come of a size beyond the machine limit: a fault, or a refusal for an overflow. -/
inductive OfSize : Abort ShapeError → Prop
  | fault (e : Fault) : OfSize (.fault e)
  | overflow (op : String) : OfSize (.refused (.overflow op))

/-! ## Rules of shape -/

namespace OfSize

variable {α : Type} {e : Abort ShapeError} {op : String} {Over : Prop}

/-- A rule without faults that refuses sizes in the name of `op`. -/
theorem eq_iff (he : OfSize e) {rule : Attempt ShapeError α}
    (hfault : ∀ f, rule ≠ .error (.fault f))
    (hover : ∀ name, rule = .error (.refused (.overflow name)) ↔ name = op ∧ Over) :
    rule = .error e ↔ e = .refused (.overflow op) ∧ Over := by
  cases he with
  | fault f => exact iff_of_false (hfault f) nofun
  | overflow name => simpa using hover name

theorem ofExcept_iff (he : OfSize e) {rule : Except ShapeError α}
    (hover : ∀ name, rule = .error (.overflow name) ↔ name = op ∧ Over) :
    Attempt.ofExcept rule = .error e ↔ e = .refused (.overflow op) ∧ Over :=
  he.eq_iff (fun _ => Attempt.ofExcept_ne_fault) fun name =>
    Attempt.ofExcept_eq_refused.trans (hover name)

theorem ofExcept_ne (he : OfSize e) {rule : Except ShapeError α}
    (hover : ∀ name, rule ≠ .error (.overflow name)) : Attempt.ofExcept rule ≠ .error e := by
  cases he with
  | fault f => exact Attempt.ofExcept_ne_fault
  | overflow name => exact fun h => hover name (Attempt.ofExcept_eq_refused.1 h)

theorem slide_iff (he : OfSize e) {window : Window} {dims : List Nat} :
    window.slide op dims = .error e ↔ e = .refused (.overflow op) ∧
      ∃ n h w c, dims = [n, h, w, c] ∧ window.Overflows h w :=
  he.eq_iff (fun _ => Window.slide_ne_fault) fun _ => Window.slide_overflow_iff

theorem flattenTail_iff (he : OfSize e) {dims : List Nat} :
    Attempt.ofExcept (Shape.flattenTail op dims) = .error e ↔ e = .refused (.overflow op) ∧
      ∃ first rest, dims = first :: rest ∧ Shape.Overflows rest :=
  he.ofExcept_iff fun _ => Shape.flattenTail_overflow_iff

theorem checkReshape_iff (he : OfSize e) {source target : List Nat} :
    Attempt.ofExcept (Shape.checkReshape source target) = .error e ↔
      e = .refused (.overflow Opcode.reshape.name) ∧
        (Shape.Overflows source ∨ Shape.Overflows target) :=
  he.ofExcept_iff fun _ => Shape.checkReshape_overflow_iff

theorem concatDims_iff (he : OfSize e) {inputs : List (List Nat)} {axis : Nat} :
    Attempt.ofExcept (Shape.concatDims inputs axis) = .error e ↔
      e = .refused (.overflow Opcode.concat.name) ∧ ∃ first extent, inputs ≠ [] ∧
        (∀ dims ∈ inputs, dims = first) ∧ first[axis]? = some extent ∧
        Size.limit ≤ extent * inputs.length :=
  he.ofExcept_iff fun _ => Shape.concatDims_overflow_iff

theorem transposeDims_ne (he : OfSize e) {dims shuffle : List Nat} :
    Attempt.ofExcept (Shape.transposeDims dims shuffle) ≠ .error e :=
  he.ofExcept_ne fun _ => Shape.transposeDims_ne_overflow

theorem channelCount_ne (he : OfSize e) {dims : List Nat} {channel : Nat} :
    Attempt.ofExcept (Shape.channelCount dims channel) ≠ .error e :=
  he.ofExcept_ne fun _ => Shape.channelCount_ne_overflow

end OfSize

/-! ## Oversized instructions -/

/-- The instruction has a size in its shape that is no machine size: a padded extent, a count of
elements, or the extent of what is stacked. -/
inductive Instruction.Oversized (env : TypeEnv) : Instruction → Prop
  | convolution {dest src filter bias : ValueId} {window : Window} {depth n h w c : Nat}
    (hsrc : env.HasDims src [n, h, w, c]) (hover : window.Overflows h w) :
    Oversized env ⟨.convolution window depth,
      [.output dest, .input src, .input filter, .input bias]⟩
  | pool {dest src cache : ValueId} {kind : PoolKind} {window : Window} {n h w c : Nat}
    (hsrc : env.HasDims src [n, h, w, c]) (hover : window.Overflows h w) :
    Oversized env ⟨.pool kind window, [.output dest, .input src, .inout cache]⟩
  | fullyConnected {dest src weights bias : ValueId} {depth batch : Nat} {rest : List Nat}
    (hsrc : env.HasDims src (batch :: rest)) (hover : Shape.Overflows rest) :
    Oversized env ⟨.fullyConnected depth,
      [.output dest, .input src, .input weights, .input bias]⟩
  | reshape {dest src : ValueId} {parameter source target : List Nat}
    (hsrc : env.HasDims src source) (hdest : env.HasDims dest target)
    (hover : Shape.Overflows source ∨ Shape.Overflows target) :
    Oversized env ⟨.reshape parameter, [.output dest, .input src]⟩
  | concat {dest : ValueId} {srcs : List ValueId} {axis extent : Nat} {source : List Nat}
    (hne : srcs ≠ []) (hsrcs : ∀ src ∈ srcs, env.HasDims src source)
    (haxis : source[axis]? = some extent) (hover : Size.limit ≤ extent * srcs.length) :
    Oversized env ⟨.concat axis, .output dest :: srcs.map .input⟩

theorem Instruction.Oversized.acceptsRoles {env : TypeEnv} {i : Instruction}
    (h : i.Oversized env) : i.kind.AcceptsRoles i.roles := by
  cases h with
  | @concat dest srcs axis _ _ hne =>
    refine Request.acceptsRoles (.concat dest srcs axis) fun _ _ heq => ?_
    exact hne (Request.concat.inj heq).2.1
  | _ => rfl

theorem Instruction.Oversized.concat_inv {env : TypeEnv} {dest : ValueId} {srcs : List ValueId}
    {axis : Nat} (h : (Request.concat dest srcs axis).instruction.Oversized env) :
    ∃ source extent, srcs ≠ [] ∧ (∀ src ∈ srcs, env.HasDims src source) ∧
      source[axis]? = some extent ∧ Size.limit ≤ extent * srcs.length := by
  generalize hi : (Request.concat dest srcs axis).instruction = i at h
  cases h with
  | concat hne hsrcs haxis hover =>
    obtain ⟨hkind, hoperands⟩ := Instruction.mk.inj hi
    obtain ⟨-, hinputs⟩ := List.cons.inj hoperands
    obtain rfl := InstrKind.concat.inj hkind
    obtain rfl := List.map_injective_iff.2 (fun a b h => (Operand.mk.inj h).2) hinputs
    exact ⟨_, _, hne, hsrcs, haxis, hover⟩
  | _ => cases hi

namespace Program

variable {p : Program} {i : Instruction} {e : Abort ShapeError} {dest src : ValueId}

/-! ## Rules on operands -/

section Refusals

variable {index a b : Nat}

theorem operandType_ne_shape : p.operandType i index ≠ .error (e.map .shape) := by
  intro h
  unfold operandType operandValue at h
  cases ho : i.operand? index with
  | none => rw [ho] at h; cases e <;> cases h
  | some o =>
    rw [ho, ok_bind] at h
    cases href : p.typeRef? o.value <;> rw [href] at h <;> cases e <;> cases h

theorem operandDims_ne_shape : p.operandDims i index ≠ .error (e.map .shape) := by
  intro h
  unfold operandDims operandValue at h
  cases ho : i.operand? index with
  | none => rw [ho] at h; cases e <;> cases h
  | some o =>
    rw [ho, ok_bind] at h
    cases hdims : p.dims? o.value <;> rw [hdims] at h <;> cases e <;> cases h

theorem requireSameType_ne_shape : p.requireSameType i a b ≠ .error (e.map .shape) := by
  refine bind_ne_error operandType_ne_shape fun _ => bind_ne_error operandType_ne_shape fun _ => ?_
  split
  · exact nofun
  · cases e <;> nofun

theorem requireDims_ne_shape {expected : List Nat} {operand : String} :
    p.requireDims i index expected operand ≠ .error (e.map .shape) := by
  refine bind_ne_error operandDims_ne_shape fun _ => ?_
  split
  · exact nofun
  · cases e <;> nofun

end Refusals

theorem operandDims_eq_ok_iff {index : Nat} {o : Operand} {dims : List Nat}
    (ho : i.operand? index = some o) :
    p.operandDims i index = .ok dims ↔ p.typeEnv.HasDims o.value dims :=
  ⟨hasDims_of_operandDims ho, fun h => operandDims_eq ho (dims?_of_hasDims h)⟩

theorem shapeRule_eq_error_iff {α : Type} {rule : Attempt ShapeError α} :
    shapeRule rule = .error (e.map .shape) ↔ rule = .error e :=
  Attempt.mapRefusal_eq_error_map fun _ _ => Violation.shape.inj

/-- A rule on the dimensions of the source fails exactly if the source has dimensions for which it
does. -/
theorem sourceRule_eq_error_iff {α : Type} {o : Operand} {rule : List Nat → Attempt ShapeError α}
    {g : α → Attempt Violation Unit} (ho : i.operand? 1 = some o)
    (hg : ∀ a, g a ≠ .error (e.map .shape)) :
    (do
      let source ← p.operandDims i 1
      let a ← shapeRule (rule source)
      g a) = .error (e.map .shape) ↔
      ∃ dims, p.typeEnv.HasDims o.value dims ∧ rule dims = .error e := by
  rw [bind_eq_error_iff_right operandDims_ne_shape]
  refine exists_congr fun dims => ?_
  rw [operandDims_eq_ok_iff ho, bind_eq_error_iff_left hg, shapeRule_eq_error_iff]

/-! ## The rules of the kinds -/

/-- Verification of the request fails for a size exactly if there is one in its shape, and then in
the name of the operation. -/
abbrev RefusedForSize (p : Program) (r : Request) (e : Abort ShapeError) : Prop :=
  p.checkOperands r.instruction = .error (e.map .shape) ↔
    e = .refused (.overflow r.instruction.opcode.name) ∧ r.instruction.Oversized p.typeEnv

theorem convolution_refusedForSize (he : OfSize e) {filter bias : ValueId} {window : Window}
    {depth : Nat} : p.RefusedForSize (.convolution dest src filter bias window depth) e := by
  refine (sourceRule_eq_error_iff (o := .input src) rfl fun _ => ?_).trans ?_
  · exact bind_ne_error requireDims_ne_shape fun _ =>
      bind_ne_error requireDims_ne_shape fun _ => requireDims_ne_shape
  · constructor
    · rintro ⟨dims, hsrc, h⟩
      obtain ⟨rfl, n, h, w, c, rfl, hover⟩ := he.slide_iff.1 h
      exact ⟨rfl, .convolution hsrc hover⟩
    · rintro ⟨rfl, h⟩
      cases h with
      | convolution hsrc hover =>
        exact ⟨_, hsrc, he.slide_iff.2 ⟨rfl, _, _, _, _, rfl, hover⟩⟩

theorem pool_refusedForSize (he : OfSize e) {cache : ValueId} {kind : PoolKind} {window : Window} :
    p.RefusedForSize (.pool dest src cache kind window) e := by
  refine (sourceRule_eq_error_iff (o := .input src) rfl fun _ => ?_).trans ?_
  · exact bind_ne_error requireDims_ne_shape fun _ => requireDims_ne_shape
  · constructor
    · rintro ⟨dims, hsrc, h⟩
      obtain ⟨rfl, n, h, w, c, rfl, hover⟩ := he.slide_iff.1 h
      exact ⟨rfl, .pool hsrc hover⟩
    · rintro ⟨rfl, h⟩
      cases h with
      | pool hsrc hover => exact ⟨_, hsrc, he.slide_iff.2 ⟨rfl, _, _, _, _, rfl, hover⟩⟩

theorem fullyConnected_refusedForSize (he : OfSize e) {weights bias : ValueId} {depth : Nat} :
    p.RefusedForSize (.fullyConnected dest src weights bias depth) e := by
  refine (sourceRule_eq_error_iff (o := .input src) rfl fun _ => ?_).trans ?_
  · exact bind_ne_error requireDims_ne_shape fun _ =>
      bind_ne_error requireDims_ne_shape fun _ => requireDims_ne_shape
  · constructor
    · rintro ⟨dims, hsrc, h⟩
      obtain ⟨rfl, batch, rest, rfl, hover⟩ := he.flattenTail_iff.1 h
      exact ⟨rfl, .fullyConnected hsrc hover⟩
    · rintro ⟨rfl, h⟩
      cases h with
      | fullyConnected hsrc hover =>
        exact ⟨_, hsrc, he.flattenTail_iff.2 ⟨rfl, _, _, rfl, hover⟩⟩

theorem reshape_refusedForSize (he : OfSize e) {parameter : List Nat} :
    p.RefusedForSize (.reshape dest src parameter) e := by
  refine (bind_eq_error_iff_right operandDims_ne_shape).trans ?_
  constructor
  · rintro ⟨source, hsrc, h⟩
    obtain ⟨target, hdest, h⟩ := (bind_eq_error_iff_right operandDims_ne_shape).1 h
    obtain ⟨rfl, hover⟩ := he.checkReshape_iff.1 (shapeRule_eq_error_iff.1 h)
    exact ⟨rfl, .reshape (hasDims_of_operandDims (o := .input src) rfl hsrc)
      (hasDims_of_operandDims (o := .output dest) rfl hdest) hover⟩
  · rintro ⟨rfl, h⟩
    cases h with
    | reshape hsrc hdest hover =>
      refine ⟨_, (operandDims_eq_ok_iff (o := .input src) rfl).2 hsrc, ?_⟩
      rw [(operandDims_eq_ok_iff (o := .output dest) rfl).2 hdest, ok_bind]
      exact shapeRule_eq_error_iff.2 (he.checkReshape_iff.2 ⟨rfl, hover⟩)

theorem concat_refusedForSize (he : OfSize e) {srcs : List ValueId} {axis : Nat} :
    p.RefusedForSize (.concat dest srcs axis) e := by
  constructor
  · intro h
    obtain ⟨sources, hsources, h⟩ :=
      (bind_eq_error_iff_right (mapM_ne_error (fun _ => operandDims_ne_shape) _)).1 h
    have hrule := shapeRule_eq_error_iff.1
      ((bind_eq_error_iff_left fun _ => requireDims_ne_shape).1 h)
    obtain ⟨rfl, source, extent, hne, hsame, haxis, hover⟩ := he.concatDims_iff.1 hrule
    obtain ⟨hlen, hsrcs⟩ := hasDims_of_concatSources hsources hsame
    rw [hlen] at hover
    refine ⟨rfl, .concat ?_ hsrcs haxis hover⟩
    rintro rfl
    exact hne (List.length_eq_zero_iff.1 hlen)
  · rintro ⟨rfl, h⟩
    obtain ⟨source, extent, hne, hsrcs, haxis, hover⟩ := h.concat_inv
    rw [checkOperands_concat_of_same hne hsrcs haxis, if_neg (Nat.not_lt.2 hover)]
    rfl

theorem refusedForSize (he : OfSize e) (r : Request) : p.RefusedForSize r e := by
  cases r with
  | convolution dest src filter bias window depth => exact convolution_refusedForSize he
  | pool dest src cache kind window => exact pool_refusedForSize he
  | fullyConnected dest src weights bias depth => exact fullyConnected_refusedForSize he
  | reshape dest src dims => exact reshape_refusedForSize he
  | concat dest srcs axis => exact concat_refusedForSize he
  | transpose dest src shuffle =>
    refine iff_of_false (fun h => ?_) nofun
    obtain ⟨dims, -, h⟩ := (sourceRule_eq_error_iff (o := .input src) rfl
      fun _ => requireDims_ne_shape).1 h
    exact he.transposeDims_ne h
  | batchNormalization dest src scale bias mean variance channel epsilon momentum =>
    refine iff_of_false (fun h => ?_) nofun
    obtain ⟨_, -, h⟩ := (bind_eq_error_iff_right requireSameType_ne_shape).1 h
    obtain ⟨dims, -, h⟩ := (sourceRule_eq_error_iff (o := .input src) rfl fun _ =>
      bind_ne_error requireDims_ne_shape fun _ => bind_ne_error requireDims_ne_shape fun _ =>
        bind_ne_error requireDims_ne_shape fun _ => requireDims_ne_shape).1 h
    exact he.channelCount_ne h
  | arithmetic dest lhs rhs kind =>
    exact iff_of_false (bind_ne_error requireSameType_ne_shape fun _ => requireSameType_ne_shape)
      nofun
  -- The rules of the other kinds do not look at dimensions.
  | _ => exact iff_of_false requireSameType_ne_shape nofun

/-! ## Verification -/

theorem check_eq_error_iff (he : OfSize e) :
    p.check i = .error (e.map .shape) ↔
      e = .refused (.overflow i.opcode.name) ∧ i.Oversized p.typeEnv := by
  unfold check
  by_cases hroles : i.kind.AcceptsRoles i.roles
  · rw [if_pos hroles]
    obtain ⟨r, rfl, -⟩ := Request.exists_of_acceptsRoles hroles
    exact refusedForSize he r
  · rw [if_neg hroles]
    refine iff_of_false ?_ fun h => hroles h.2.acceptsRoles
    cases e <;> nofun

theorem verifyAs_overflow_iff {id : InstrId} {name : String} :
    p.verifyAs id i = .error (.refused ⟨id, i.opcode, .shape (.overflow name)⟩) ↔
      name = i.opcode.name ∧ i.Oversized p.typeEnv := by
  have hcheck := check_eq_error_iff (p := p) (i := i) (.overflow name)
  rw [Abort.refused.injEq, ShapeError.overflow.injEq] at hcheck
  rw [← hcheck, verifyAs, blaming]
  exact Attempt.mapRefusal_eq_error_map (e := .refused (.shape (.overflow name)))
    fun _ _ h => (VerifyError.mk.inj h).2.2

theorem check_ne_fault {f : Fault} : p.check i ≠ .error (.fault f) := by
  intro h
  cases ((check_eq_error_iff (.fault f)).1 h).1

theorem verifyAs_ne_fault {id : InstrId} {f : Fault} : p.verifyAs id i ≠ .error (.fault f) :=
  fun h => check_ne_fault (Attempt.mapRefusal_eq_fault.1 h)

theorem blaming_ofExcept_ne_fault {α : Type} {id : InstrId} {rule : Except Violation α} {f : Fault} :
    blaming id i (Attempt.ofExcept rule) ≠ .error (.fault f) :=
  fun h => Attempt.ofExcept_ne_fault (Attempt.mapRefusal_eq_fault.1 h)

/-- Verification from any position on, with any writers before it, meets no fault. -/
theorem verifyFrom_ne_fault {f : Fault} (placed : List Placed) : ∀ {writers : Writers} {index : Nat},
    p.verifyFrom writers index placed ≠ .error (.fault f) := by
  induction placed with
  | nil => exact nofun
  | cons placed rest ih =>
    intro writers index
    exact bind_ne_error verifyAs_ne_fault fun _ =>
      bind_ne_error blaming_ofExcept_ne_fault fun writers => ih

theorem verify_ne_fault {f : Fault} : p.verify ≠ .error (.fault f) := verifyFrom_ne_fault p.instrs

theorem verifyInstr_ne_fault {id : InstrId} {f : Fault} : p.verifyInstr id ≠ .error (.fault f) := by
  unfold verifyInstr
  cases p.instr? id with
  | none => exact nofun
  | some placed => exact fun h => verifyAs_ne_fault (Attempt.mapRefusal_eq_fault.1 h)

/-- Verification on the way meets no fault either. -/
theorem permit_ne_fault {config : Config} {f : Fault} : p.permit config i ≠ .error (.fault f) := by
  have hadmits : p.admits i ≠ .error (.fault f) :=
    bind_ne_error verifyAs_ne_fault fun _ => Attempt.ofExcept_ne_fault
  unfold permit
  split
  · exact nofun
  · split
    · exact fun h => hadmits (Attempt.mapRefusal_eq_fault.1 h)
    · exact nofun

end Program
end TensorIR
