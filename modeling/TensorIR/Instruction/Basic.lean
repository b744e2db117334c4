import TensorIR.Instruction.Kind

/-!
# TensorIR.Instruction.Basic

Instructions: a kind and a list of operands. Any list of operands makes an instruction; whether it
fits the kind is for verification to say.

* `Instruction.dest?`: the destination, which is the first operand if it is an output.
* `Instruction.outputs`, `Instruction.inputs`: the values written in the role `output`, and the
  values read.
-/

namespace TensorIR

structure Instruction where
  kind : InstrKind
  operands : List Operand
  deriving DecidableEq

namespace Instruction

def opcode (i : Instruction) : Opcode := i.kind.opcode

def parameters (i : Instruction) : String := i.kind.parameters

def roles (i : Instruction) : List Role := i.operands.map (·.role)

def operand? (i : Instruction) (index : Nat) : Option Operand := i.operands[index]?

def dest? (i : Instruction) : Option ValueId :=
  match i.operands with
  | ⟨.output, v⟩ :: _ => some v
  | _ => none

/-- The values written in the role `output`, in operand order. -/
def outputs (i : Instruction) : List ValueId :=
  (i.operands.filter (·.role = .output)).map (·.value)

/-- The values read, in operand order. -/
def inputs (i : Instruction) : List ValueId := (i.operands.filter (·.role.reads)).map (·.value)

end Instruction
end TensorIR
