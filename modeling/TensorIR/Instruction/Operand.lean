import TensorIR.Value

/-!
# TensorIR.Instruction.Operand

The operands of instructions, each with the role in which the instruction uses the value.
-/

namespace TensorIR

/-- How an instruction uses an operand. -/
inductive Role where
  | input
  | output
  /-- A cache that the instruction both reads and updates. -/
  | inout
  deriving DecidableEq

namespace Role

def name : Role → String
  | input => "in"
  | output => "out"
  | inout => "inout"

/-- The role as messages list it. -/
def tag : Role → String
  | input => "In"
  | output => "Out"
  | inout => "InOut"

def reads : Role → Bool
  | input | inout => true
  | output => false

def writes : Role → Bool
  | output | inout => true
  | input => false

end Role

structure Operand where
  role : Role
  value : ValueId
  deriving DecidableEq

namespace Operand

def input (v : ValueId) : Operand := ⟨.input, v⟩

def output (v : ValueId) : Operand := ⟨.output, v⟩

def inout (v : ValueId) : Operand := ⟨.inout, v⟩

end Operand
end TensorIR
