import TensorIR.Program.Basic
import TensorIR.Shape.Axes
import TensorIR.Shape.Count

/-!
# TensorIR.Program.Verify

Verification: whether an instruction fits its kind, and whether a program is one in which every
instruction fits, has a result of its own, and writes values that no other instruction writes.

* `Violation`: what is wrong with an instruction. `VerifyError` adds which instruction it is.
* `Program.check`: the rule of one kind, on the operands an instruction has.
* `Program.verifyAs`: the same, with a violation reported under a position in the program.
* `Program.checkSingleWriter`: an instruction not yet in the program writes no value that the
  program writes.
* `Program.verify`: the whole program in order, up to the first violation.
-/

namespace TensorIR

/-- What is wrong with an instruction. -/
inductive Violation where
  | layout (roles : List Role)
  | missingOperand (index : Nat)
  | missingValue (index : Nat) (value : ValueId)
  | shape (cause : ShapeError)
  | typesDiffer (a b : Nat)
  | wrongDims (operand : String) (actual expected : List Nat)
  | alreadyWritten (value : ValueId) (writer : InstrId)
  | missingResult (result : ValueId)
  | foreignResult (result : ValueId)
  | resultTypeDiffers (result : ValueId)
  deriving DecidableEq

namespace Violation

def message : Violation → String
  | layout roles => "invalid operand layout [" ++ Text.joined ", " (roles.map Role.tag) ++ "]"
  | missingOperand index => s!"missing operand {index}"
  | missingValue index value => s!"operand {index} refers to missing value {value.label}"
  | shape cause => cause.message
  | typesDiffer a b => s!"operand {a} and operand {b} have different types"
  | wrongDims operand actual expected =>
    s!"invalid {operand} dims {Text.sizes actual}, expected {Text.sizes expected}"
  | alreadyWritten value writer =>
    s!"{value.label} is already written by instruction {writer.label}"
  | missingResult result => s!"result {result.label} does not exist"
  | foreignResult result => s!"result {result.label} is not produced by this instruction"
  | resultTypeDiffers result =>
    s!"result {result.label} does not have the destination's type"

end Violation

/-- A violation, and the instruction that commits it. -/
structure VerifyError where
  instr : InstrId
  opcode : Opcode
  cause : Violation
  deriving DecidableEq

def VerifyError.message (e : VerifyError) : String :=
  s!"instruction {e.instr.label} ({e.opcode.name}): {e.cause.message}"

/-- The dimensions of the cache of a pool with the given result: two coordinates for every element
that a maximum selects, and a scalar placeholder for an average. -/
def PoolKind.cacheDims (kind : PoolKind) (out : Nhwc) : List Nat :=
  match kind with
  | .max => out.dims ++ [2]
  | .avg => []

/-- The dimensions of the filter of a convolution: one window of all channels per output channel. -/
def Window.filterDims (window : Window) (depth channels : Nat) : List Nat :=
  [depth, window.kernel, window.kernel, channels]

namespace Program

def operandValue (i : Instruction) (index : Nat) : Attempt Violation ValueId :=
  match i.operand? index with
  | some operand => .ok operand.value
  | none => Attempt.refuse (.missingOperand index)

def operandType (p : Program) (i : Instruction) (index : Nat) : Attempt Violation TypeRef := do
  let value ← operandValue i index
  match p.typeRef? value with
  | some ref => return ref
  | none => Attempt.refuse (.missingValue index value)

def operandDims (p : Program) (i : Instruction) (index : Nat) : Attempt Violation (List Nat) := do
  let value ← operandValue i index
  match p.dims? value with
  | some dims => return dims
  | none => Attempt.refuse (.missingValue index value)

/-- Two operands have one type. Types are stored once, so it is enough to compare handles. -/
def requireSameType (p : Program) (i : Instruction) (a b : Nat) : Attempt Violation Unit := do
  let refA ← p.operandType i a
  let refB ← p.operandType i b
  if refA = refB then return () else Attempt.refuse (.typesDiffer a b)

def requireDims (p : Program) (i : Instruction) (index : Nat) (expected : List Nat)
    (operand : String) : Attempt Violation Unit := do
  let actual ← p.operandDims i index
  if actual = expected then return ()
  else Attempt.refuse (.wrongDims operand actual expected)

/-- The rule of a shape as a rule of verification. -/
def shapeRule {α : Type} (rule : Attempt ShapeError α) : Attempt Violation α :=
  rule.mapRefusal .shape

/-- The rule on types and dimensions of each kind, for operands in the right roles. -/
def checkOperands (p : Program) (i : Instruction) : Attempt Violation Unit :=
  match i.kind with
  | .copy | .relu | .sigmoid | .tanh | .softmax | .regression => p.requireSameType i 0 1
  | .convolution window depth => do
    let source ← p.operandDims i 1
    let (image, out) ← shapeRule (window.slide Opcode.convolution.name source)
    p.requireDims i 0 { out with channels := depth }.dims "output"
    p.requireDims i 2 (window.filterDims depth image.channels) "filter"
    p.requireDims i 3 [depth] "bias"
  | .pool kind window => do
    let source ← p.operandDims i 1
    let (_, out) ← shapeRule (window.slide Opcode.pool.name source)
    p.requireDims i 0 out.dims "output"
    p.requireDims i 2 (kind.cacheDims out) "srcXY"
  | .fullyConnected depth => do
    let source ← p.operandDims i 1
    let (batch, inner) ←
      shapeRule (Attempt.ofExcept (Shape.flattenTail Opcode.fullyConnected.name source))
    p.requireDims i 0 [batch, depth] "output"
    p.requireDims i 2 [depth, inner] "weights"
    p.requireDims i 3 [depth] "bias"
  | .reshape _ => do
    let source ← p.operandDims i 1
    let target ← p.operandDims i 0
    shapeRule (Attempt.ofExcept (Shape.checkReshape source target))
  | .transpose shuffle => do
    let source ← p.operandDims i 1
    let expected ← shapeRule (Attempt.ofExcept (Shape.transposeDims source shuffle))
    p.requireDims i 0 expected "output"
  | .concat axis => do
    let sources ← (List.range' 1 (i.operands.length - 1)).mapM (p.operandDims i)
    let expected ← shapeRule (Attempt.ofExcept (Shape.concatDims sources axis))
    p.requireDims i 0 expected "output"
  | .batchNormalization channel _ _ => do
    p.requireSameType i 0 1
    let source ← p.operandDims i 1
    let channels ← shapeRule (Attempt.ofExcept (Shape.channelCount source channel))
    p.requireDims i 2 [channels] "scale"
    p.requireDims i 3 [channels] "bias"
    p.requireDims i 4 [channels] "mean"
    p.requireDims i 5 [channels] "variance"
  | .arithmetic _ => do
    p.requireSameType i 0 1
    p.requireSameType i 0 2

/-- An instruction fits its kind: its operands have the right roles, types and dimensions. -/
def check (p : Program) (i : Instruction) : Attempt Violation Unit :=
  if i.kind.AcceptsRoles i.roles then p.checkOperands i else Attempt.refuse (.layout i.roles)

/-- A rule on an instruction, its violation reported under the given position. -/
def blaming {α : Type} (id : InstrId) (i : Instruction) (rule : Attempt Violation α) :
    Attempt VerifyError α :=
  rule.mapRefusal (⟨id, i.opcode, ·⟩)

def verifyAs (p : Program) (id : InstrId) (i : Instruction) : Attempt VerifyError Unit :=
  blaming id i (p.check i)

/-- The first instruction that writes a value in the role `output`. -/
def firstWriter? (p : Program) (v : ValueId) : Option InstrId :=
  (p.instrs.findIdx? (fun placed => v ∈ placed.instr.outputs)).map InstrId.mk

/-- An instruction that is not in the program writes no value that the program writes. -/
def checkSingleWriter (p : Program) (id : InstrId) (i : Instruction) : Except VerifyError Unit :=
  match i.outputs.findSome? (fun v => (p.firstWriter? v).map (v, ·)) with
  | some (v, writer) => .error ⟨id, i.opcode, .alreadyWritten v writer⟩
  | none => .ok ()

/-- A placed instruction has a result of its own, of the type of its destination. -/
def checkResult (p : Program) (id : InstrId) (placed : Placed) : Except Violation Unit :=
  match p.value? placed.result with
  | none => .error (.missingResult placed.result)
  | some v =>
    if v.producer? ≠ some id then .error (.foreignResult placed.result)
    else if placed.instr.dest?.bind p.typeRef? ≠ some v.type then
      .error (.resultTypeDiffers placed.result)
    else .ok ()

/-- Which instruction wrote a value, for the values written so far. -/
abbrev Writers := List (ValueId × InstrId)

/-- Adds the values that an instruction writes, unless one has a writer already. -/
def recordWriters (writers : Writers) (id : InstrId) : List ValueId → Except Violation Writers
  | [] => .ok writers
  | v :: rest =>
    match writers.lookup v with
    | some previous => .error (.alreadyWritten v previous)
    | none => recordWriters ((v, id) :: writers) id rest

/-- The rules that look beyond the operands of one instruction, and the writers after it. -/
def checkPlaced (p : Program) (writers : Writers) (id : InstrId) (placed : Placed) :
    Except Violation Writers := do
  p.checkResult id placed
  recordWriters writers id placed.instr.outputs

/-- Verifies instructions that stand from position `index` on, given the writers before them. -/
def verifyFrom (p : Program) (writers : Writers) (index : Nat) :
    List Placed → Attempt VerifyError Unit
  | [] => .ok ()
  | placed :: rest => do
    p.verifyAs ⟨index⟩ placed.instr
    let writers ←
      blaming ⟨index⟩ placed.instr (Attempt.ofExcept (p.checkPlaced writers ⟨index⟩ placed))
    verifyFrom p writers (index + 1) rest

/-- Verifies the whole program in order and reports the first violation. -/
def verify (p : Program) : Attempt VerifyError Unit := p.verifyFrom [] 0 p.instrs

end Program
end TensorIR
