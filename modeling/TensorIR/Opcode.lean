/-!
# TensorIR.Opcode

The operations of the instruction set and the names by which the textual form and all messages
call them.

* `name_injective`: different operations have different names.
-/

namespace TensorIR

inductive Opcode where
  | copy
  | convolution
  | pool
  | fullyConnected
  | relu
  | sigmoid
  | tanh
  | softmax
  | regression
  | reshape
  | transpose
  | concat
  | batchNormalization
  | arithmetic
  deriving DecidableEq

namespace Opcode

def name : Opcode → String
  | copy => "copy"
  | convolution => "convolution"
  | pool => "pool"
  | fullyConnected => "fullyconnected"
  | relu => "relu"
  | sigmoid => "sigmoid"
  | tanh => "tanh"
  | softmax => "softmax"
  | regression => "regression"
  | reshape => "reshape"
  | transpose => "transpose"
  | concat => "concat"
  | batchNormalization => "batchnormalization"
  | arithmetic => "arithmetic"

theorem name_injective {a b : Opcode} (h : a.name = b.name) : a = b := by
  revert h; cases a <;> cases b <;> decide

end Opcode
end TensorIR
