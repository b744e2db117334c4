import TensorIR.Proofs.Builder.Reading
import TensorIR.Proofs.Builder.Sizing

/-!
# TensorIR.Proofs.Builder.Execution

Operators do what they plan.

* `build_run`: an operator whose plan fails is abandoned for the same reason and changes nothing;
  any other declares the variables of its plan and appends the instruction of it.
* `plan_verifyOnBuild`: whether programs are verified has no part in the plan.
* `plan_noVerdict`: no plan is refused by a verdict of verification.
-/

namespace TensorIR
namespace Build

open Program Operator

variable {p : Program} {config : Config} {input : ValueId}

theorem convolution_follows (hp : p.WellFormed) (depth : Nat) (window : Window) :
    Follows config p (convolution config input depth window)
      ((Operator.convolution input depth window).plan config p) := by
  refine .dimsOf hp fun t _ => ?_
  refine .attempt _ fun (image, out) => ?_
  refine .attempt _ fun fanIn => ?_
  refine .request ?_
  simp only [randomised, filled, scratch, declare_bind_run, fresh_declareAs, Nat.reduceAdd]
  rfl

theorem pool_follows (hp : p.WellFormed) (kind : PoolKind) (window : Window) :
    Follows config p (pool config input kind window)
      ((Operator.pool input kind window).plan config p) := by
  refine .dimsOf hp fun t _ => ?_
  refine .attempt _ fun (_, out) => ?_
  refine .request ?_
  simp only [scratch, declare_bind_run, fresh_declareAs, Nat.reduceAdd]
  rfl

theorem fullyConnected_follows (hp : p.WellFormed) (depth : Nat) :
    Follows config p (fullyConnected config input depth)
      ((Operator.fullyConnected input depth).plan config p) := by
  refine .kindOf hp fun t ht => ?_
  refine .step (dimsOf_run ht) ?_
  refine .attempt _ fun (batch, inner) => ?_
  refine .request ?_
  simp only [randomised, filled, scratch, declare_bind_run, fresh_declareAs, Nat.reduceAdd]
  rfl

theorem elementwise_follows (hp : p.WellFormed) (make : ValueId → ValueId → Request) :
    Follows config p (elementwise config make input)
      (do return into p (← typeOf p input) (make · input)) := by
  refine .like hp fun t ht => ?_
  exact .request (like_bind_run ht _ _)

theorem softmax_follows (hp : p.WellFormed) (selected : ValueId) :
    Follows config p (softmax config input selected)
      ((Operator.softmax input selected).plan config p) := by
  refine .read (reads_typeRefOf hp selected) fun _ _ _ _ => ?_
  refine .like hp fun t ht => ?_
  refine .request ?_
  rw [like_bind_run ht, like_bind_run ((extends_declareAs p _).typeOf? ht), fresh_declareAs]
  rfl

theorem regression_follows (hp : p.WellFormed) (expected : ValueId) :
    Follows config p (regression config input expected)
      ((Operator.regression input expected).plan config p) := by
  refine .read (reads_typeRefOf hp expected) fun _ _ _ _ => ?_
  refine .like hp fun t ht => ?_
  exact .request (like_bind_run ht _ _)

theorem reshape_follows (hp : p.WellFormed) (dims : List Nat) :
    Follows config p (reshape config input dims)
      ((Operator.reshape input dims).plan config p) := by
  refine .kindOf hp fun t ht => ?_
  refine .step (dimsOf_run ht) ?_
  refine .attempt _ fun _ => ?_
  exact .request (declare_bind_run _ _ _ _)

theorem transpose_follows (hp : p.WellFormed) (shuffle : List Nat) :
    Follows config p (transpose config input shuffle)
      ((Operator.transpose input shuffle).plan config p) := by
  refine .kindOf hp fun t ht => ?_
  refine .step (dimsOf_run ht) ?_
  refine .attempt _ fun dims => ?_
  exact .request (declare_bind_run _ _ _ _)

theorem concat_follows (hp : p.WellFormed) (inputs : List ValueId) (axis : Nat) :
    Follows config p (concat config inputs axis)
      ((Operator.concat inputs axis).plan config p) := by
  cases inputs with
  | nil => intro _; rfl
  | cons first rest =>
    refine .kindOf hp fun t _ => ?_
    refine .read (.mapM (reads_dimsOf hp) _) fun sources ts _ hsources => ?_
    subst hsources
    refine .attempt _ fun dims => ?_
    exact .request (declare_bind_run _ _ _ _)

theorem batchNormalization_follows (hp : p.WellFormed) (channel : Nat)
    (epsilon momentum : Binary32) :
    Follows config p (batchNormalization config input channel epsilon momentum)
      ((Operator.batchNormalization input channel epsilon momentum).plan config p) := by
  refine .dimsOf hp fun t ht => ?_
  refine .attempt _ fun channels => ?_
  refine .request ?_
  -- The input keeps its type while the parameters are declared.
  simp only [filled, scratch, declare_bind_run, fresh_declareAs, Nat.reduceAdd]
  rw [like_bind_run (t := t)]
  · simp only [fresh_declareAs, Nat.reduceAdd]
    rfl
  · exact (extends_declareAll [_, _, _, _] p).typeOf? ht

/-- Two values have one handle exactly if they have one type, and the handle shows the type. -/
theorem arithmetic_follows (hp : p.WellFormed) (lhs rhs : ValueId) (kind : ArithmeticKind) :
    Follows config p (arithmetic config lhs rhs kind)
      ((Operator.arithmetic lhs rhs kind).plan config p) := by
  refine .read (reads_typeRefOf hp lhs) fun a t _ ⟨_, ha⟩ => ?_
  refine .read (reads_typeRefOf hp rhs) fun b u _ ⟨_, hb⟩ => ?_
  refine .step (EStateM.run_get ..) ?_
  by_cases hab : a = b
  · have htu : t = u := Option.some.inj (by rw [← ha, hab, hb])
    rw [if_pos hab, if_pos htu]
    exact .request (declareOf_bind_run ha _ _ _)
  · have htu : t ≠ u := by
      rintro rfl
      exact hab (TypeTable.get?_inj ha hb)
    rw [if_neg hab, if_neg htu]
    simp only [typeText, ha, hb]
    intro _
    rfl

/-- An operator does what it plans, and a plan that fails changes nothing. -/
theorem build_run (hp : p.WellFormed) (config : Config) (op : Operator) :
    (op.build config).run p = foretold p (op.plan config p) := by
  have hfollows : Follows config p (op.build config) (op.plan config p) := by
    cases op with
    | convolution input depth window => exact convolution_follows hp depth window
    | pool input kind window => exact pool_follows hp kind window
    | fullyConnected input depth => exact fullyConnected_follows hp depth
    | relu input => exact elementwise_follows hp _
    | sigmoid input => exact elementwise_follows hp _
    | tanh input => exact elementwise_follows hp _
    | softmax input selected => exact softmax_follows hp selected
    | regression input expected => exact regression_follows hp expected
    | reshape input dims => exact reshape_follows hp dims
    | transpose input shuffle => exact transpose_follows hp shuffle
    | concat inputs axis => exact concat_follows hp inputs axis
    | batchNormalization input channel epsilon momentum =>
      exact batchNormalization_follows hp channel epsilon momentum
    | arithmetic lhs rhs kind => exact arithmetic_follows hp lhs rhs kind
  exact hfollows fun plan h => permit_plan hp h config

end Build

/-! ## Verification and plans -/

/-- A computation that is not refused by a verdict. -/
def NoVerdict {α : Type} (x : Attempt ProgramError α) : Prop :=
  ∀ e, x ≠ .error (.refused (.verification e))

namespace NoVerdict

variable {α β : Type}

theorem pure (a : α) : NoVerdict (Pure.pure a) := by
  intro e h
  cases h

theorem refuse (cause : ShapeError) : NoVerdict (Attempt.refuse (α := α) (.shape cause)) := by
  intro e h
  cases h

theorem bind {x : Attempt ProgramError α} {f : α → Attempt ProgramError β} (hx : NoVerdict x)
    (hf : ∀ a, NoVerdict (f a)) : NoVerdict (x >>= f) :=
  fun e => bind_ne_error (hx e) fun a => hf a e

theorem shape (rule : Attempt ShapeError α) : NoVerdict (rule.mapRefusal .shape) := by
  intro e h
  cases rule with
  | ok a => cases h
  | error cause => cases cause <;> cases h

theorem ofFault (x : Except Fault α) : NoVerdict (Attempt.ofFault x) := by
  intro e h
  cases x <;> cases h

theorem typeOf (p : Program) (id : ValueId) : NoVerdict (Operator.typeOf p id) := by
  intro e h
  unfold Operator.typeOf at h
  cases ht : p.typeOf? id with
  | none => rw [ht] at h; cases h
  | some t => rw [ht] at h; cases h

theorem mapM {f : α → Attempt ProgramError β} (h : ∀ a, NoVerdict (f a)) (as : List α) :
    NoVerdict (as.mapM f) :=
  fun e => mapM_ne_error (fun a => h a e) as

end NoVerdict

namespace Operator

theorem plan_noVerdict (config : Config) (p : Program) (op : Operator) :
    NoVerdict (op.plan config p) := by
  cases op with
  | convolution input depth window =>
    exact (NoVerdict.typeOf p input).bind fun t => (NoVerdict.shape _).bind fun (image, out) =>
      (NoVerdict.ofFault _).bind fun fanIn => .pure _
  | pool input kind window =>
    exact (NoVerdict.typeOf p input).bind fun t => (NoVerdict.shape _).bind fun (_, out) => .pure _
  | fullyConnected input depth =>
    exact (NoVerdict.typeOf p input).bind fun t =>
      (NoVerdict.shape _).bind fun (batch, inner) => .pure _
  | relu input => exact (NoVerdict.typeOf p input).bind fun t => .pure _
  | sigmoid input => exact (NoVerdict.typeOf p input).bind fun t => .pure _
  | tanh input => exact (NoVerdict.typeOf p input).bind fun t => .pure _
  | softmax input selected =>
    exact (NoVerdict.typeOf p selected).bind fun _ =>
      (NoVerdict.typeOf p input).bind fun t => .pure _
  | regression input expected =>
    exact (NoVerdict.typeOf p expected).bind fun _ =>
      (NoVerdict.typeOf p input).bind fun t => .pure _
  | reshape input dims =>
    exact (NoVerdict.typeOf p input).bind fun t => (NoVerdict.shape _).bind fun _ => .pure _
  | transpose input shuffle =>
    exact (NoVerdict.typeOf p input).bind fun t => (NoVerdict.shape _).bind fun dims => .pure _
  | concat inputs axis =>
    cases inputs with
    | nil => exact .refuse .emptyConcat
    | cons first rest =>
      exact (NoVerdict.typeOf p first).bind fun t => (NoVerdict.mapM (.typeOf p) _).bind
        fun sources => (NoVerdict.shape _).bind fun dims => .pure _
  | batchNormalization input channel epsilon momentum =>
    exact (NoVerdict.typeOf p input).bind fun t => (NoVerdict.shape _).bind fun channels => .pure _
  | arithmetic lhs rhs kind =>
    refine (NoVerdict.typeOf p lhs).bind fun t => (NoVerdict.typeOf p rhs).bind fun u => ?_
    split
    · exact .pure _
    · exact .refuse _

theorem plan_verifyOnBuild (config : Config) (on : Bool) (p : Program) (op : Operator) :
    op.plan { config with verifyOnBuild := on } p = op.plan config p := by
  cases op with
  | concat inputs axis => cases inputs <;> rfl
  | _ => rfl

end Operator
end TensorIR
