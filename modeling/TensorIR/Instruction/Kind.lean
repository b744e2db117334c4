import TensorIR.Binary32.Decimal
import TensorIR.Instruction.Operand
import TensorIR.Shape.Window

/-!
# TensorIR.Instruction.Kind

The kinds of instruction: an operation with its fixed parameters.

* `InstrKind.opcode`: the operation.
* `InstrKind.layout?`: the roles of the operands, for every kind but `concat`, which takes any
  number of inputs after its destination.
* `InstrKind.AcceptsRoles`: a list of roles fits a kind.
* `InstrKind.parameters`: the parameters as the textual form shows them; empty if there are none.
-/

namespace TensorIR

inductive PoolKind where
  | max
  | avg
  deriving DecidableEq

def PoolKind.name : PoolKind → String
  | max => "max"
  | avg => "avg"

inductive ArithmeticKind where
  | add
  | mul
  deriving DecidableEq

def ArithmeticKind.name : ArithmeticKind → String
  | add => "add"
  | mul => "mul"

inductive InstrKind where
  | copy
  | convolution (window : Window) (depth : Nat)
  | pool (kind : PoolKind) (window : Window)
  | fullyConnected (depth : Nat)
  | relu
  | sigmoid
  | tanh
  | softmax
  | regression
  | reshape (dims : List Nat)
  | transpose (shuffle : List Nat)
  | concat (axis : Nat)
  | batchNormalization (channel : Nat) (epsilon momentum : Binary32)
  | arithmetic (kind : ArithmeticKind)
  deriving DecidableEq

namespace InstrKind

def opcode : InstrKind → Opcode
  | copy => .copy
  | convolution .. => .convolution
  | pool .. => .pool
  | fullyConnected _ => .fullyConnected
  | relu => .relu
  | sigmoid => .sigmoid
  | tanh => .tanh
  | softmax => .softmax
  | regression => .regression
  | reshape _ => .reshape
  | transpose _ => .transpose
  | concat _ => .concat
  | batchNormalization .. => .batchNormalization
  | arithmetic _ => .arithmetic

/-- The roles of the operands; `none` where their number is open. -/
def layout? : InstrKind → Option (List Role)
  | copy | relu | sigmoid | tanh | reshape _ | transpose _ => some [.output, .input]
  | regression | arithmetic _ => some [.output, .input, .input]
  | convolution .. | fullyConnected _ => some [.output, .input, .input, .input]
  | pool .. => some [.output, .input, .inout]
  | softmax => some [.output, .input, .inout, .input]
  | batchNormalization .. => some [.output, .input, .input, .input, .inout, .inout]
  | concat _ => none

/-- The roles fit the kind: they are its layout or, where their number is open, a destination and
then one or more inputs. -/
def AcceptsRoles (kind : InstrKind) (roles : List Role) : Prop :=
  match kind.layout? with
  | some layout => roles = layout
  | none =>
    match roles with
    | .output :: inputs => inputs ≠ [] ∧ ∀ role ∈ inputs, role = .input
    | _ => False

instance (kind : InstrKind) (roles : List Role) : Decidable (kind.AcceptsRoles roles) := by
  unfold AcceptsRoles
  split
  · infer_instance
  · split <;> infer_instance

def parameters : InstrKind → String
  | convolution w depth => Text.bracketed " " [w.kernel, w.stride, w.pad, depth]
  | pool kind w => kind.name ++ " " ++ Text.bracketed " " [w.kernel, w.stride, w.pad]
  | fullyConnected depth => Text.bracketed " " [depth]
  | reshape dims => Text.sizes dims
  | transpose shuffle => Text.sizes shuffle
  | concat axis => "\x7b " ++ toString axis ++ " \x7d"
  | batchNormalization channel epsilon momentum =>
    "[" ++ Text.joined " " [toString channel, epsilon.text, momentum.text] ++ "]"
  | arithmetic kind => kind.name
  | copy | relu | sigmoid | tanh | softmax | regression => ""

end InstrKind
end TensorIR
