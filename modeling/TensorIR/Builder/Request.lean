import TensorIR.Builder.Basic

/-!
# TensorIR.Builder.Request

Requests for one instruction on values that exist already, with a name for every operand.

* `Request.instruction`: the instruction asked for, with the operands in their roles.
* `Request.acceptsRoles`: those are the roles that its kind accepts, but for a `concat` without a
  source.
-/

namespace TensorIR

inductive Request where
  | copy (dest src : ValueId)
  | convolution (dest src filter bias : ValueId) (window : Window) (depth : Nat)
  | pool (dest src cache : ValueId) (kind : PoolKind) (window : Window)
  | fullyConnected (dest src weights bias : ValueId) (depth : Nat)
  | relu (dest src : ValueId)
  | sigmoid (dest src : ValueId)
  | tanh (dest src : ValueId)
  /-- `expected` is filled for the backward pass; `selected` holds the index of the right class. -/
  | softmax (dest src expected selected : ValueId)
  | regression (dest src expected : ValueId)
  | reshape (dest src : ValueId) (dims : List Nat)
  | transpose (dest src : ValueId) (shuffle : List Nat)
  | concat (dest : ValueId) (srcs : List ValueId) (axis : Nat)
  | batchNormalization (dest src scale bias mean variance : ValueId) (channel : Nat)
      (epsilon momentum : Binary32)
  | arithmetic (dest lhs rhs : ValueId) (kind : ArithmeticKind)
  deriving DecidableEq

namespace Request

/-- One destination, then one source. -/
def unary (kind : InstrKind) (dest src : ValueId) : Instruction :=
  ⟨kind, [.output dest, .input src]⟩

def instruction : Request → Instruction
  | copy dest src => unary .copy dest src
  | convolution dest src filter bias window depth =>
    ⟨.convolution window depth, [.output dest, .input src, .input filter, .input bias]⟩
  | pool dest src cache kind window =>
    ⟨.pool kind window, [.output dest, .input src, .inout cache]⟩
  | fullyConnected dest src weights bias depth =>
    ⟨.fullyConnected depth, [.output dest, .input src, .input weights, .input bias]⟩
  | relu dest src => unary .relu dest src
  | sigmoid dest src => unary .sigmoid dest src
  | tanh dest src => unary .tanh dest src
  | softmax dest src expected selected =>
    ⟨.softmax, [.output dest, .input src, .inout expected, .input selected]⟩
  | regression dest src expected =>
    ⟨.regression, [.output dest, .input src, .input expected]⟩
  | reshape dest src dims => unary (.reshape dims) dest src
  | transpose dest src shuffle => unary (.transpose shuffle) dest src
  | concat dest srcs axis => ⟨.concat axis, .output dest :: srcs.map .input⟩
  | batchNormalization dest src scale bias mean variance channel epsilon momentum =>
    ⟨.batchNormalization channel epsilon momentum,
      [.output dest, .input src, .input scale, .input bias, .inout mean, .inout variance]⟩
  | arithmetic dest lhs rhs kind => ⟨.arithmetic kind, [.output dest, .input lhs, .input rhs]⟩

theorem acceptsRoles (r : Request) (h : ∀ dest axis, r ≠ concat dest [] axis) :
    r.instruction.kind.AcceptsRoles r.instruction.roles := by
  cases r with
  | concat dest srcs axis =>
    cases srcs with
    | nil => exact absurd rfl (h dest axis)
    | cons src srcs =>
      refine ⟨by simp, fun role hrole => ?_⟩
      obtain ⟨operand, ho, rfl⟩ := List.mem_map.1 hrole
      obtain ⟨v, _, rfl⟩ := List.mem_map.1 ho
      rfl
  | _ => rfl

end Request
end TensorIR
