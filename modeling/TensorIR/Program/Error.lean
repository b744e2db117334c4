import TensorIR.Program.Verify

/-!
# TensorIR.Program.Error

Why a request on a program is refused, and the requests that only look a program up.

* `ProgramError`: the causes.
* `Program.destOf`: the destination of an instruction, which is the usual input of the next one.
* `Program.verifyInstr`: the check of one instruction of the program.
-/

namespace TensorIR

inductive ProgramError where
  | shape (cause : ShapeError)
  | verification (cause : VerifyError)
  | unknownValue (id : ValueId)
  | unknownType (ref : TypeRef)
  | unknownInstr (id : InstrId)
  deriving DecidableEq

namespace ProgramError

def message : ProgramError → String
  | shape cause => s!"shape error: {cause.message}"
  | verification cause => s!"verification failed: {cause.message}"
  | unknownValue id => s!"value {id.label} does not exist in this module"
  | unknownType ref => s!"type {ref.text} does not exist in this module"
  | unknownInstr id => s!"instruction {id.label} does not exist in this module"

end ProgramError

namespace Program

def destOf (p : Program) (id : InstrId) : Except ProgramError ValueId :=
  match (p.instr? id).bind (·.instr.dest?) with
  | some dest => .ok dest
  | none => .error (.unknownInstr id)

def verifyInstr (p : Program) (id : InstrId) : Attempt ProgramError Unit :=
  match p.instr? id with
  | some placed => (p.verifyAs id placed.instr).mapRefusal .verification
  | none => Attempt.refuse (.unknownInstr id)

end Program
end TensorIR
