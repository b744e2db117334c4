import TensorIR.Opcode
import TensorIR.Text.Listing

/-!
# TensorIR.Shape.Error

Why a request has no well-formed shape. Most causes carry the name of the operation for which the
rule was asked.
-/

namespace TensorIR

inductive ShapeError where
  | rankMismatch (op : String) (expected : Nat) (actual : List Nat)
  | scalarInput (op : String)
  | kernelTooLarge (op : String) (kernel height width : Nat)
  | zeroStride (op : String)
  | zeroKernel (op : String)
  | overflow (op : String)
  /-- Two operands that should have one type; `lhs` and `rhs` are the texts of their types. -/
  | operandMismatch (op lhs rhs : String)
  | emptyConcat
  | concatInputMismatch (index : Nat) (expected actual : List Nat)
  | axisOutOfRange (op : String) (axis rank : Nat)
  | invalidPermutation (shuffle : List Nat) (rank : Nat)
  | reshapeSizeMismatch (source : List Nat) (sourceCount : Nat) (target : List Nat)
      (targetCount : Nat)
  deriving DecidableEq

namespace ShapeError

def message : ShapeError → String
  | rankMismatch op expected actual =>
    s!"{op} expects a rank {expected} input, got dims {Text.sizes actual}"
  | scalarInput op => s!"{op} input must have at least one dimension"
  | kernelTooLarge op kernel height width =>
    s!"{op} kernel {kernel} is larger than the {height}x{width} input"
  | zeroStride op => s!"{op} stride must be non-zero"
  | zeroKernel op => s!"{op} kernel must be non-zero"
  | overflow op => s!"{op} shape does not fit in usize"
  | operandMismatch op lhs rhs => s!"{op} operands differ: {lhs} vs {rhs}"
  | emptyConcat => "concat needs at least one input"
  | concatInputMismatch index expected actual =>
    s!"concat input {index} has dims {Text.sizes actual}, expected {Text.sizes expected}"
  | axisOutOfRange op axis rank => s!"{op} axis {axis} out of range for rank {rank}"
  | invalidPermutation shuffle rank =>
    s!"{Text.sizes shuffle} is not a permutation of {rank} axes"
  | reshapeSizeMismatch source sourceCount target targetCount =>
    s!"cannot reshape {Text.sizes source} ({sourceCount} elements) " ++
      s!"into {Text.sizes target} ({targetCount} elements)"

end ShapeError
end TensorIR
