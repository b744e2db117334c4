import TensorIR.Builder.Config
import TensorIR.Program.Error

/-!
# TensorIR.Builder.Basic

Construction of programs. A construction answers or is abandoned, and in both cases leaves a
program behind; that an abandoned one leaves the program it began with is not built into the type.

* `Build`: constructions.
* `Build.typeRefOf`, `Build.dimsOf`, `Build.kindOf`: the type of a value, which must exist.
* `Build.declare`, `Build.declareOf`: a new static variable, by its type or by the handle of it.
* `Build.append`: a new instruction. Its operands must exist; where verification is on, it must also
  fit its kind and write no value that is written already (`Program.admits`).
-/

namespace TensorIR

/-- Constructions that answer with an `α`. -/
abbrev Build := EStateM (Abort ProgramError) Program

namespace Program

/-- The next instruction of the program may be `i`. -/
def admits (p : Program) (i : Instruction) : Attempt VerifyError Unit := do
  let next : InstrId := ⟨p.instrs.length⟩
  p.verifyAs next i
  Attempt.ofExcept (p.checkSingleWriter next i)

end Program

namespace Build

variable {α : Type}

def refuse (cause : ProgramError) : Build α := throw (.refused cause)

def ofAttempt : Attempt ProgramError α → Build α
  | .ok a => pure a
  | .error e => throw e

/-- The rule of a shape as a step of a construction. -/
def shape (rule : Attempt ShapeError α) : Build α := ofAttempt (rule.mapRefusal .shape)

/-- The answer of a look-up of a value, which must exist. -/
def known (id : ValueId) (look : Program → Option α) : Build α := do
  match look (← get) with
  | some a => return a
  | none => refuse (.unknownValue id)

def typeRefOf (id : ValueId) : Build TypeRef := known id (·.typeRef? id)

def dimsOf (id : ValueId) : Build (List Nat) := known id (·.dims? id)

def kindOf (id : ValueId) : Build ElemKind := known id (·.kind? id)

def internType (t : TensorType) : Build TypeRef := modifyGet (·.internType t)

def declare (t : TensorType) (var : StaticVariable) (name : String) : Build ValueId := do
  let ref ← internType t
  modifyGet (·.declare ref var name)

/-- Declares a variable by the handle of its type, which must have a meaning. -/
def declareOf (ref : TypeRef) (var : StaticVariable) (name : String) : Build ValueId := do
  match (← get).type? ref with
  | some _ => modifyGet (·.declare ref var name)
  | none => refuse (.unknownType ref)

/-- A scratch variable: external, and an activation. -/
def scratch (t : TensorType) (name : String) : Build ValueId := declare t {} name

/-- A scratch variable of the type of another value. -/
def like (id : ValueId) (name : String) : Build ValueId := do
  declareOf (← typeRefOf id) {} name

/-- All operands exist; otherwise the first that does not is refused. -/
def requireOperands (i : Instruction) : Build Unit := do
  let p ← get
  match i.operands.find? (fun operand => (p.value? operand.value).isNone) with
  | some operand => refuse (.unknownValue operand.value)
  | none => return ()

def append (config : Config) (i : Instruction) : Build InstrId := do
  requireOperands i
  let p ← get
  if config.verifyOnBuild then
    ofAttempt ((p.admits i).mapRefusal .verification)
  modifyGet (·.append i)

end Build
end TensorIR
