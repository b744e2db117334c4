import TensorIR.Proofs.Builder.Allocation
import TensorIR.Proofs.Builder.Oversize

/-!
# TensorIR.Proofs.Builder.Limits

Runs and sizes beyond the machine limit.

* `Operator.Exceeds`: the operators that compute such a size, and how they end. The sizes of a shape
  are refused; the fan-in of a convolution is no part of a shape and is met by a fault.
* `Operator.plan_eq_error_iff`: operators end like this, one lemma for each kind with such a size.
* `perform_fault_iff`: no other call meets a fault.
* `size_limit_iff`: all that calls and verification say of sizes.
-/

namespace TensorIR

/-- The operator computes a size that is no machine size, and how it ends. -/
inductive Operator.Exceeds (env : TypeEnv) : Operator → Abort ShapeError → Prop
  | convolution {input : ValueId} {depth n h w c : Nat} {window : Window}
    (hinput : env.HasDims input [n, h, w, c]) (hover : window.Overflows h w) :
    Exceeds env (.convolution input depth window) (.refused (.overflow Opcode.convolution.name))
  /-- The number of inputs of one output, computed after the shape and without a check. -/
  | fanIn {input : ValueId} {depth n h w c : Nat} {window : Window}
    (hinput : env.HasDims input [n, h, w, c])
    (hheight : window.Applies h) (hwidth : window.Applies w)
    (hover : Size.limit ≤ window.kernel * window.kernel ∨
      Size.limit ≤ window.kernel * window.kernel * c) :
    Exceeds env (.convolution input depth window) (.fault .multiplyOverflow)
  | pool {input : ValueId} {kind : PoolKind} {n h w c : Nat} {window : Window}
    (hinput : env.HasDims input [n, h, w, c]) (hover : window.Overflows h w) :
    Exceeds env (.pool input kind window) (.refused (.overflow Opcode.pool.name))
  | fullyConnected {input : ValueId} {depth batch : Nat} {rest : List Nat}
    (hinput : env.HasDims input (batch :: rest)) (hover : Shape.Overflows rest) :
    Exceeds env (.fullyConnected input depth) (.refused (.overflow Opcode.fullyConnected.name))
  | reshape {input : ValueId} {source dims : List Nat} (hinput : env.HasDims input source)
    (hover : Shape.Overflows source ∨ Shape.Overflows dims) :
    Exceeds env (.reshape input dims) (.refused (.overflow Opcode.reshape.name))
  | concat {inputs : List ValueId} {axis extent : Nat} {source : List Nat} (hne : inputs ≠ [])
    (hinputs : ∀ input ∈ inputs, env.HasDims input source) (haxis : source[axis]? = some extent)
    (hover : Size.limit ≤ extent * inputs.length) :
    Exceeds env (.concat inputs axis) (.refused (.overflow Opcode.concat.name))

namespace Operator

variable {p : Program} {config : Config} {input : ValueId} {e : Abort ShapeError}

/-! ## Rules of shape in plans -/

theorem typeOf_ne_shape {id : ValueId} : typeOf p id ≠ .error (e.map .shape) := by
  unfold typeOf
  cases p.typeOf? id with
  | none => cases e <;> nofun
  | some t => exact nofun

/-- A rule on the type of the input fails exactly if the input has a type for which it does. -/
theorem inputRule_eq_error_iff {α β : Type} {rule : TensorType → Attempt ShapeError α}
    {f : TensorType → α → Attempt ProgramError β} (hf : ∀ t a, f t a ≠ .error (e.map .shape)) :
    (do
      let t ← typeOf p input
      let a ← (rule t).mapRefusal .shape
      f t a) = .error (e.map .shape) ↔
      ∃ t, p.typeEnv input = some t ∧ rule t = .error e := by
  rw [bind_eq_error_iff_right typeOf_ne_shape]
  refine exists_congr fun t => ?_
  rw [typeOf_eq_ok, bind_eq_error_iff_left (hf t), mapRefusal_shape_eq_error_iff]
  rfl

/-- The fan-in of a convolution is multiplied in two steps, and each may pass the limit. -/
theorem fanIn_eq_error_iff {kernel channels : Nat} :
    (Attempt.ofFault do Size.mul (← Size.mul kernel kernel) channels) =
        .error (e.map ProgramError.shape) ↔
      e = .fault .multiplyOverflow ∧
        (Size.limit ≤ kernel * kernel ∨ Size.limit ≤ kernel * kernel * channels) := by
  have hfault : Attempt.ofFault (ε := ProgramError) (α := Nat) (.error .multiplyOverflow) =
      .error (e.map ProgramError.shape) ↔ e = .fault .multiplyOverflow := by
    cases e <;> simp [Attempt.ofFault, Abort.map, eq_comm]
  by_cases hsquare : kernel * kernel < Size.limit
  · rw [Size.mul_eq_ok_iff.2 ⟨rfl, hsquare⟩, ok_bind]
    by_cases hfanIn : kernel * kernel * channels < Size.limit
    · rw [Size.mul_eq_ok_iff.2 ⟨rfl, hfanIn⟩]
      exact iff_of_false (fun h => by cases h) fun h => by omega
    · rw [Size.mul, if_neg hfanIn, hfault]
      exact (and_iff_left (.inr (Nat.not_lt.1 hfanIn))).symm
  · have hmul : Size.mul kernel kernel = .error .multiplyOverflow := if_neg hsquare
    rw [hmul, error_bind, hfault]
    exact (and_iff_left (.inl (Nat.not_lt.1 hsquare))).symm

/-! ## The operators -/

theorem convolution_eq_error_iff (he : OfSize e) {depth : Nat} {window : Window} :
    (convolution input depth window).plan config p = .error (e.map .shape) ↔
      (convolution input depth window).Exceeds p.typeEnv e := by
  constructor
  · intro h
    obtain ⟨t, ht, h⟩ := (bind_eq_error_iff_right typeOf_ne_shape).1 h
    have hinput := hasDims_of_typeOf ht
    by_cases hslide : window.slide Opcode.convolution.name t.dims = .error e
    · obtain ⟨rfl, n, h, w, c, hdims, hover⟩ := he.slide_iff.1 hslide
      exact .convolution (hdims ▸ hinput) hover
    · obtain ⟨⟨image, out⟩, hslide, h⟩ :=
        (bind_eq_error_iff_right (mt mapRefusal_shape_eq_error_iff.1 hslide)).1 h
      obtain ⟨hdims, hheight, hwidth, -⟩ :=
        Window.slide_eq_ok_iff.1 (Attempt.mapRefusal_eq_ok.1 hslide)
      obtain ⟨rfl, hover⟩ := fanIn_eq_error_iff.1
        ((bind_eq_error_iff_left fun _ h => by cases h).1 h)
      exact .fanIn (hdims ▸ hinput) hheight hwidth hover
  · intro h
    cases h with
    | @convolution _ _ n h w c _ hinput hover =>
      obtain ⟨kind, hinput⟩ := hinput
      have hslide : window.slide Opcode.convolution.name [n, h, w, c] = .error _ :=
        he.slide_iff.2 ⟨rfl, _, _, _, _, rfl, hover⟩
      simp only [plan, typeOf_eq_ok.2 hinput, ok_bind, hslide]
      rfl
    | @fanIn _ _ n h w c _ hinput hheight hwidth hover =>
      obtain ⟨kind, hinput⟩ := hinput
      have hslide : window.slide Opcode.convolution.name [n, h, w, c] = _ :=
        Window.slide_of_applies hheight hwidth
      simp only [plan, typeOf_eq_ok.2 hinput, ok_bind, hslide, Attempt.mapRefusal_ok]
      rw [bind_eq_error_iff_left fun _ h => by cases h]
      exact fanIn_eq_error_iff.2 ⟨rfl, hover⟩

theorem pool_eq_error_iff (he : OfSize e) {kind : PoolKind} {window : Window} :
    (pool input kind window).plan config p = .error (e.map .shape) ↔
      (pool input kind window).Exceeds p.typeEnv e := by
  refine (inputRule_eq_error_iff (by nofun)).trans ?_
  constructor
  · rintro ⟨⟨kind, dims⟩, hinput, h⟩
    obtain ⟨rfl, n, h, w, c, rfl, hover⟩ := he.slide_iff.1 h
    exact .pool ⟨kind, hinput⟩ hover
  · intro h
    cases h with
    | pool hinput hover =>
      obtain ⟨kind, hinput⟩ := hinput
      exact ⟨_, hinput, he.slide_iff.2 ⟨rfl, _, _, _, _, rfl, hover⟩⟩

theorem fullyConnected_eq_error_iff (he : OfSize e) {depth : Nat} :
    (fullyConnected input depth).plan config p = .error (e.map .shape) ↔
      (fullyConnected input depth).Exceeds p.typeEnv e := by
  refine (inputRule_eq_error_iff (by nofun)).trans ?_
  constructor
  · rintro ⟨⟨kind, dims⟩, hinput, h⟩
    obtain ⟨rfl, batch, rest, rfl, hover⟩ := he.flattenTail_iff.1 h
    exact .fullyConnected ⟨kind, hinput⟩ hover
  · intro h
    cases h with
    | fullyConnected hinput hover =>
      obtain ⟨kind, hinput⟩ := hinput
      exact ⟨_, hinput, he.flattenTail_iff.2 ⟨rfl, _, _, rfl, hover⟩⟩

theorem reshape_eq_error_iff (he : OfSize e) {dims : List Nat} :
    (reshape input dims).plan config p = .error (e.map .shape) ↔
      (reshape input dims).Exceeds p.typeEnv e := by
  refine (inputRule_eq_error_iff (by nofun)).trans ?_
  constructor
  · rintro ⟨⟨kind, source⟩, hinput, h⟩
    obtain ⟨rfl, hover⟩ := he.checkReshape_iff.1 h
    exact .reshape ⟨kind, hinput⟩ hover
  · intro h
    cases h with
    | reshape hinput hover =>
      obtain ⟨kind, hinput⟩ := hinput
      exact ⟨_, hinput, he.checkReshape_iff.2 ⟨rfl, hover⟩⟩

theorem concat_eq_error_iff (he : OfSize e) {inputs : List ValueId} {axis : Nat} :
    (concat inputs axis).plan config p = .error (e.map .shape) ↔
      (concat inputs axis).Exceeds p.typeEnv e := by
  cases inputs with
  | nil =>
    refine iff_of_false ?_ fun h => ?_
    · cases he <;> nofun
    · cases h with
      | concat hne => exact hne rfl
  | cons first rest =>
    constructor
    · intro h
      obtain ⟨t, -, h⟩ := (bind_eq_error_iff_right typeOf_ne_shape).1 h
      obtain ⟨sources, hsources, h⟩ :=
        (bind_eq_error_iff_right (mapM_ne_error (fun _ => typeOf_ne_shape) _)).1 h
      have hrule := mapRefusal_shape_eq_error_iff.1 ((bind_eq_error_iff_left (by nofun)).1 h)
      obtain ⟨rfl, source, extent, -, hsame, haxis, hover⟩ := he.concatDims_iff.1 hrule
      obtain ⟨hlen, hinputs⟩ := hasDims_of_mapM hsources hsame
      rw [List.length_map, hlen] at hover
      exact .concat (List.cons_ne_nil _ _) hinputs haxis hover
    · intro h
      cases h with
      | concat hne hinputs haxis hover =>
        obtain ⟨kind, hfirst⟩ := hinputs first List.mem_cons_self
        obtain ⟨sources, hsources, hdims⟩ := exists_mapM_of_hasDims hinputs
        have hrule : Shape.concatDims (sources.map (·.dims)) axis =
            .error (.overflow Opcode.concat.name) := by
          rw [hdims, Shape.concatDims_of_same (by simp) (fun _ => List.eq_of_mem_replicate) haxis,
            List.length_replicate, if_neg (Nat.not_lt.2 hover)]
        simp only [plan, typeOf_eq_ok.2 hfirst, hsources, ok_bind, hrule]
        rfl

/-- An operator with a size beyond the limit ends in the way of its kind, and no other operator does
so. -/
theorem plan_eq_error_iff (he : OfSize e) (op : Operator) :
    op.plan config p = .error (e.map .shape) ↔ op.Exceeds p.typeEnv e := by
  have into_ne {id : ValueId} {f : TensorType → Plan} :
      (do return f (← typeOf p id)) ≠ .error (e.map .shape) :=
    bind_ne_error typeOf_ne_shape (by nofun)
  cases op with
  | convolution input depth window => exact convolution_eq_error_iff he
  | pool input kind window => exact pool_eq_error_iff he
  | fullyConnected input depth => exact fullyConnected_eq_error_iff he
  | reshape input dims => exact reshape_eq_error_iff he
  | concat inputs axis => exact concat_eq_error_iff he
  | relu input => exact iff_of_false into_ne nofun
  | sigmoid input => exact iff_of_false into_ne nofun
  | tanh input => exact iff_of_false into_ne nofun
  | softmax input selected =>
    exact iff_of_false (bind_ne_error typeOf_ne_shape fun _ => into_ne) nofun
  | regression input expected =>
    exact iff_of_false (bind_ne_error typeOf_ne_shape fun _ => into_ne) nofun
  | transpose input shuffle =>
    refine iff_of_false (fun h => ?_) nofun
    obtain ⟨t, -, h⟩ := (inputRule_eq_error_iff (by nofun)).1 h
    exact he.transposeDims_ne h
  | batchNormalization input channel epsilon momentum =>
    refine iff_of_false (fun h => ?_) nofun
    obtain ⟨t, -, h⟩ := (inputRule_eq_error_iff (by nofun)).1 h
    exact he.channelCount_ne h
  | arithmetic lhs rhs kind =>
    refine iff_of_false (bind_ne_error typeOf_ne_shape fun _ =>
      bind_ne_error typeOf_ne_shape fun _ => ?_) nofun
    split
    · exact nofun
    · cases he <;> nofun

end Operator

/-! ## Runs -/

namespace Program

variable {p : Program}

theorem perform_operator_eq_error_iff (hp : p.WellFormed) {config : Config} {op : Operator}
    {e : Abort ProgramError} :
    (p.perform ⟨config, .operator op⟩).1 = .error e ↔ op.plan config p = .error e := by
  rw [perform_operator hp]
  cases op.plan config p <;> simp

/-- No other call meets a fault than an operator with a fan-in beyond the limit. -/
theorem perform_fault_iff (hp : p.WellFormed) (c : Call) (f : Fault) :
    (p.perform c).1 = .error (.fault f) ↔
      ∃ op, c.step = .operator op ∧ op.Exceeds p.typeEnv (.fault f) := by
  obtain ⟨config, step⟩ := c
  cases step with
  | internType t => exact iff_of_false nofun nofun
  | declare t var name => exact iff_of_false nofun nofun
  | declareOf ref var name =>
    refine iff_of_false ?_ nofun
    rw [perform_declareOf]
    split <;> nofun
  | request r =>
    refine iff_of_false ?_ nofun
    rw [perform_request]
    cases hpermit : p.permit config r.instruction with
    | ok _ => exact nofun
    | error e =>
      rintro ⟨⟩
      exact permit_ne_fault hpermit
  | operator op =>
    rw [perform_operator_eq_error_iff hp]
    refine (Operator.plan_eq_error_iff (.fault f) op).trans ?_
    simp

/-- Of the sizes that a program may ask for

* a call meets a fault exactly if it is a convolution whose fan-in is no machine size, although the
  window can be moved over the image;
* an operator is refused for an overflow exactly if another of its sizes is no machine size, and then
  in the name of its operation;
* verification meets no fault, whether of a program, of an instruction in it or of any other;
* verification refuses an instruction for an overflow exactly if it has a size in its shape that is
  no machine size, and then in the name of its operation. -/
theorem size_limit_iff (hp : p.Reachable) :
    (∀ c f, (p.perform c).1 = .error (.fault f) ↔
      ∃ op, c.step = .operator op ∧ op.Exceeds p.typeEnv (.fault f)) ∧
    (∀ config op name,
      (p.perform ⟨config, .operator op⟩).1 = .error (.refused (.shape (.overflow name))) ↔
        op.Exceeds p.typeEnv (.refused (.overflow name))) ∧
    (∀ f, p.verify ≠ .error (.fault f)) ∧
    (∀ id f, p.verifyInstr id ≠ .error (.fault f)) ∧
    (∀ id i f, p.verifyAs id i ≠ .error (.fault f)) ∧
    ∀ id i name, p.verifyAs id i = .error (.refused ⟨id, i.opcode, .shape (.overflow name)⟩) ↔
      name = i.opcode.name ∧ i.Oversized p.typeEnv := by
  refine ⟨perform_fault_iff hp.wellFormed, fun config op name => ?_, fun f => verify_ne_fault,
    fun id f => verifyInstr_ne_fault, fun id i f => verifyAs_ne_fault,
    fun id i name => verifyAs_overflow_iff⟩
  rw [perform_operator_eq_error_iff hp.wellFormed]
  exact Operator.plan_eq_error_iff (.overflow name) op

/-- A padding beyond the limit is refused, by the operator and by verification. -/
theorem size_limit_iff_padding :
    let p := ({} : Program).after [⟨{}, .declare ⟨.float32, [1, 4, 4, 1]⟩ {} "x"⟩]
    let window : Window := ⟨3, 1, 2 ^ 63⟩
    let i := (Request.convolution ⟨0⟩ ⟨0⟩ ⟨0⟩ ⟨0⟩ window 1).instruction
    p.Reachable ∧ Operator.Exceeds p.typeEnv (.convolution ⟨0⟩ 1 window)
      (.refused (.overflow "convolution")) ∧ i.Oversized p.typeEnv ∧
    (p.perform ⟨{}, .operator (.convolution ⟨0⟩ 1 window)⟩).1 =
      .error (.refused (.shape (.overflow "convolution"))) ∧
    p.verifyAs ⟨0⟩ i = .error (.refused ⟨⟨0⟩, .convolution, .shape (.overflow "convolution")⟩) := by
  intro p window i
  have hp : p.Reachable := ⟨_, rfl⟩
  have hinput : p.typeEnv.HasDims ⟨0⟩ [1, 4, 4, 1] := ⟨.float32, by decide⟩
  have hover : window.Overflows 4 4 := ⟨by decide, by decide, by decide, .inl (by decide)⟩
  have hexceeds : Operator.Exceeds p.typeEnv (.convolution ⟨0⟩ 1 window)
      (.refused (.overflow "convolution")) := .convolution hinput hover
  have hoversized : i.Oversized p.typeEnv := .convolution hinput hover
  obtain ⟨-, hoperator, -, -, -, hverify⟩ := size_limit_iff hp
  exact ⟨hp, hexceeds, hoversized, (hoperator _ _ _).2 hexceeds,
    (hverify ⟨0⟩ i _).2 ⟨rfl, hoversized⟩⟩

/-- A window that fits its image, with a fan-in beyond the limit. -/
theorem fanIn_fault :
    let p := ({} : Program).after [⟨{}, .declare ⟨.float32, [1, 2 ^ 32, 2 ^ 32, 1]⟩ {} "x"⟩]
    p.Reachable ∧ (p.perform ⟨{}, .operator (.convolution ⟨0⟩ 1 ⟨2 ^ 32, 1, 0⟩)⟩).1 =
      .error (.fault .multiplyOverflow) := by
  intro p
  exact ⟨⟨_, rfl⟩, by decide⟩

end Program
end TensorIR
