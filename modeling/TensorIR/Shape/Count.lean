import TensorIR.Shape.Error
import TensorIR.Size

/-!
# TensorIR.Shape.Count

Rules on the number of elements.

* `Shape.elementCount?`: the product of the dimensions from the left, as long as every partial
  product is a machine size.
* `Shape.flattenTail`: a tensor seen as a matrix, with all dimensions after the first as one.
* `Shape.checkReshape`: two lists of dimensions with the same count.
-/

namespace TensorIR
namespace Shape

def elementCount? (dims : List Nat) : Option Nat := dims.foldlM Size.mul? 1

/-- The first dimension, and the product of the others. -/
def flattenTail (op : String) : List Nat → Except ShapeError (Nat × Nat)
  | [] => .error (.scalarInput op)
  | first :: rest =>
    match elementCount? rest with
    | some inner => .ok (first, inner)
    | none => .error (.overflow op)

def checkReshape (source target : List Nat) : Except ShapeError Unit :=
  match elementCount? source, elementCount? target with
  | some sourceCount, some targetCount =>
    if sourceCount = targetCount then .ok ()
    else .error (.reshapeSizeMismatch source sourceCount target targetCount)
  | _, _ => .error (.overflow Opcode.reshape.name)

end Shape
end TensorIR
