import TensorIR.ElemKind
import TensorIR.Size
import TensorIR.Text.Listing

/-!
# TensorIR.TensorType

The type of a tensor: what it stores, and its dimensions. No dimensions is a scalar, which holds one
element.

* `TensorType.text`: the type as written in programs, such as `float<1 x 32 x 32 x 3>`.
* `TensorType.numElements`, `TensorType.sizeInBytes`: counts that meet a fault when a product passes
  the machine limit. The dimensions are multiplied from the left, so `[2 ^ 63, 2, 0]` meets one and
  `[0, 2 ^ 63, 2]` does not.
* `TypeRef`: the handle by which a program refers to one of its types.
-/

namespace TensorIR

structure TensorType where
  kind : ElemKind
  dims : List Nat
  deriving DecidableEq

namespace TensorType

def rank (t : TensorType) : Nat := t.dims.length

def text (t : TensorType) : String :=
  t.kind.name ++ "<" ++ Text.joined " x " (t.dims.map toString) ++ ">"

/-- The product of the dimensions, from the left. -/
def numElements (t : TensorType) : Except Fault Nat := t.dims.foldlM Size.mul 1

def sizeInBytes (t : TensorType) : Except Fault Nat := do
  Size.mul (← t.numElements) t.kind.width

end TensorType

/-- The handle of a type: its position in the type table of a program. -/
structure TypeRef where
  index : Nat
  deriving DecidableEq

namespace TypeRef

def text (ref : TypeRef) : String := "TypeRef(" ++ toString ref.index ++ ")"

end TypeRef
end TensorIR
