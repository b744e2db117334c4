import TensorIR.Instruction.Basic
import TensorIR.TypeTable

/-!
# TensorIR.Program.Basic

A program: instructions in execution order, the values they read and write, and the types of those
values. The three lists only grow, and a handle is a position in one of them.

* `Program.value?`, `Program.typeOf?`, `Program.dims?`, `Program.instr?`: what a handle stands for.
* `Program.find?`, `Program.declarations`, `Program.weights`, `Program.parameterCount`: the declared
  values.
* `Program.internType`, `Program.declare`, `Program.append`: the three ways to grow.
-/

namespace TensorIR

/-- An instruction in a program, with the value that stands for its result. -/
structure Placed where
  instr : Instruction
  result : ValueId
  deriving DecidableEq

structure Program where
  instrs : List Placed := []
  values : List Value := []
  types : TypeTable := {}
  deriving DecidableEq

namespace Program

def value? (p : Program) (id : ValueId) : Option Value := p.values[id.index]?

def type? (p : Program) (ref : TypeRef) : Option TensorType := p.types.get? ref

def instr? (p : Program) (id : InstrId) : Option Placed := p.instrs[id.index]?

/-- The type handle of a value. -/
def typeRef? (p : Program) (id : ValueId) : Option TypeRef := (p.value? id).map (·.type)

def typeOf? (p : Program) (id : ValueId) : Option TensorType := (p.typeRef? id).bind p.type?

def dims? (p : Program) (id : ValueId) : Option (List Nat) := (p.typeOf? id).map (·.dims)

def kind? (p : Program) (id : ValueId) : Option ElemKind := (p.typeOf? id).map (·.kind)

/-- The first value of the given name. -/
def find? (p : Program) (name : String) : Option ValueId :=
  (p.values.find? (·.name = some name)).map (·.id)

/-- The static variables in the order of their declaration. -/
def declarations (p : Program) : List (Value × StaticVariable) :=
  p.values.filterMap fun v => v.declared?.map (v, ·)

/-- The learnable parameters in the order of their declaration. -/
def weights (p : Program) : List Value :=
  (p.declarations.filter (·.2.isWeight)).map (·.1)

/-- The number of elements in all weights. -/
def parameterCount (p : Program) : Except Fault Nat :=
  (p.weights.filterMap (fun v => p.type? v.type)).foldlM
    (fun total t => do Size.add total (← t.numElements)) 0

/-- The type of a handle in messages; a handle without a type shows itself. -/
def typeText (p : Program) (ref : TypeRef) : String :=
  match p.type? ref with
  | some t => t.text
  | none => ref.text

/-- The handle of a type, and the program that knows it. -/
def internType (p : Program) (t : TensorType) : TypeRef × Program :=
  let (ref, types) := p.types.intern t
  (ref, { p with types })

/-- The program with one more static variable at the end of its values. -/
def declare (p : Program) (type : TypeRef) (var : StaticVariable) (name : String) :
    ValueId × Program :=
  let id : ValueId := ⟨p.values.length⟩
  let value : Value := { id, type, origin := .declared var }
  (id, { p with values := p.values ++ [value.rename name] })

/-- The program with one more instruction at its end, and a value for the result of it. The result
has the type of the destination, and that of a scalar if there is no destination. -/
def append (p : Program) (i : Instruction) : InstrId × Program :=
  let id : InstrId := ⟨p.instrs.length⟩
  let result : ValueId := ⟨p.values.length⟩
  let (type, types) :=
    match i.dest?.bind p.typeRef? with
    | some type => (type, p.types)
    | none => p.types.intern ⟨.float32, []⟩
  (id, {
    instrs := p.instrs ++ [⟨i, result⟩]
    values := p.values ++ [{ id := result, type, origin := .result id }]
    types })

end Program
end TensorIR
