import TensorIR.Binary32.Decimal
import TensorIR.TensorType

/-!
# TensorIR.Value

What instructions read and write. A value is either a static variable, declared with a policy for
its storage, or the result of one instruction.

* `ValueId`, `InstrId`: the positions of a value and of an instruction in their program.
* `InitPolicy`, `Sharing`, `StaticVariable`: how a variable is filled before its first use, and
  whether it outlives an invocation.
* `Value.rename`, `Value.label`: names are optional and need not be unique; a value without one is
  labelled by its position.
-/

namespace TensorIR

/-- The position of a value in its program. -/
structure ValueId where
  index : Nat
  deriving DecidableEq

def ValueId.label (id : ValueId) : String := "%" ++ toString id.index

/-- The position of an instruction in its program. -/
structure InstrId where
  index : Nat
  deriving DecidableEq

def InstrId.label (id : InstrId) : String := "#" ++ toString id.index

/-- How a static variable is filled before its first use. -/
inductive InitPolicy where
  /-- The owner of the storage fills it. -/
  | external
  /-- Every element is the fill value. -/
  | broadcast
  /-- Random elements, scaled by the fill value as the fan-in. -/
  | xavier
  deriving DecidableEq

def InitPolicy.name : InitPolicy → String
  | external => "extern"
  | broadcast => "broadcast"
  | xavier => "xavier"

/-- Weights live on from one invocation to the next; activations are scratch of one invocation. -/
inductive Sharing where
  | weight
  | activation
  deriving DecidableEq

def Sharing.name : Sharing → String
  | weight => "weight"
  | activation => "activation"

structure StaticVariable where
  init : InitPolicy := .external
  sharing : Sharing := .activation
  fill : Binary32 := .zero false
  deriving DecidableEq

namespace StaticVariable

def isWeight (var : StaticVariable) : Bool := decide (var.sharing = .weight)

/-- A variable of type `t` as a declaration shows it; an external one does not show its fill. -/
def describe (var : StaticVariable) (t : TensorType) : String :=
  let base := t.text ++ ", " ++ var.sharing.name
  match var.init with
  | .external => base
  | policy => base ++ ", " ++ policy.name ++ ", " ++ var.fill.text

end StaticVariable

/-- Where a value comes from. -/
inductive Origin where
  | declared (var : StaticVariable)
  | result (instr : InstrId)
  deriving DecidableEq

structure Value where
  id : ValueId
  type : TypeRef
  name : Option String := none
  origin : Origin
  deriving DecidableEq

namespace Value

/-- The value under another name; the empty name takes the name away. -/
def rename (v : Value) (name : String) : Value :=
  { v with name := if name = "" then none else some name }

def declared? (v : Value) : Option StaticVariable :=
  match v.origin with
  | .declared var => some var
  | .result _ => none

/-- The instruction whose result this value is. -/
def producer? (v : Value) : Option InstrId :=
  match v.origin with
  | .declared _ => none
  | .result instr => some instr

def label (v : Value) : String :=
  match v.name with
  | some name => "%" ++ name
  | none => v.id.label

end Value
end TensorIR
