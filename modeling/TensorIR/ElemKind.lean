/-!
# TensorIR.ElemKind

The kinds of scalar that a tensor stores. They are ordered by their place in the declaration.

* `ElemKind.name`, `ElemKind.width`: the name in the textual form and the size of one element in
  bytes.
* `name_injective`: the name tells the kind.
-/

namespace TensorIR

inductive ElemKind where
  | float32
  | float64
  | int8
  | int32
  | index
  deriving DecidableEq

namespace ElemKind

def name : ElemKind → String
  | float32 => "float"
  | float64 => "double"
  | int8 => "i8"
  | int32 => "i32"
  | index => "index"

/-- The size of one element in bytes. -/
def width : ElemKind → Nat
  | float32 => 4
  | float64 => 8
  | int8 => 1
  | int32 => 4
  | index => 8

def isFloat : ElemKind → Bool
  | float32 | float64 => true
  | int8 | int32 | index => false

/-- The place of a kind in the order of kinds. -/
def rank : ElemKind → Nat
  | float32 => 0
  | float64 => 1
  | int8 => 2
  | int32 => 3
  | index => 4

def lt (a b : ElemKind) : Bool := decide (a.rank < b.rank)

theorem name_injective {a b : ElemKind} (h : a.name = b.name) : a = b := by
  revert h; cases a <;> cases b <;> decide

end ElemKind
end TensorIR
