import TensorIR.Program.Basic

/-!
# TensorIR.Program.Listing

The textual form of a program: one line per static variable under `declare`, then one line per
instruction under `program`.

* `Program.label`: how a line calls a value. Names may repeat, so the `n`-th repeat of a name has
  `.n` after it.
* `Program.valueLine?`, `Program.instrLine?`: the line of one value and of one instruction.
* `Program.listing`: the whole text.
-/

namespace TensorIR
namespace Program

/-- How many values before the given one have its name. -/
def repeats (p : Program) (v : Value) (name : String) : Nat :=
  (p.values.take v.id.index).countP (·.name = some name)

def label (p : Program) (v : Value) : String :=
  match v.name with
  | none => v.label
  | some name =>
    match p.repeats v name with
    | 0 => v.label
    | n => v.label ++ "." ++ toString n

/-- A label for a position, marked if there is no value there. -/
def labelAt (p : Program) (id : ValueId) : String :=
  match p.value? id with
  | some v => p.label v
  | none => id.label ++ "?"

def valueLine? (p : Program) (id : ValueId) : Option String := do
  let v ← p.value? id
  let t ← p.type? v.type
  return match v.declared? with
    | some var => p.label v ++ " = static " ++ var.describe t
    | none => p.label v ++ " = result " ++ t.text

def operandText (p : Program) (o : Operand) : String :=
  "@" ++ o.role.name ++ " " ++ p.labelAt o.value

def instrLine? (p : Program) (id : InstrId) : Option String := do
  let placed ← p.instr? id
  let result := ((p.value? placed.result).map p.label).getD id.label
  let operands := Text.joined ", " (placed.instr.operands.map p.operandText)
  let parts := [placed.instr.opcode.name, placed.instr.parameters, operands]
  return result ++ " = " ++ Text.joined " " (parts.filter (· ≠ ""))

/-- A heading and its lines, indented, in braces. -/
def block (heading : String) (lines : List String) : String :=
  heading ++ " \x7b\n" ++ String.join (lines.map fun line => "  " ++ line ++ "\n") ++ "\x7d\n"

def declarationLines (p : Program) : List String :=
  p.declarations.filterMap fun (v, _) => p.valueLine? v.id

def instructionLines (p : Program) : List String :=
  (List.range p.instrs.length).filterMap fun index => p.instrLine? ⟨index⟩

def listing (p : Program) : String :=
  block "declare" p.declarationLines ++ "\n" ++ block "program" p.instructionLines

end Program
end TensorIR
