import TensorIR.Shape.Error
import TensorIR.Size

/-!
# TensorIR.Shape.Axes

Rules on single axes.

* `Shape.isPermutation`: whether a list of axes names each axis of a rank once, told by marking the
  axes met so far.
* `Shape.transposeDims`: dimensions in the order of a permutation.
* `Shape.concatDims`: equal tensors put behind one another along an axis.
* `Shape.channelCount`: the extent of the axis that a normalisation runs over.
-/

namespace TensorIR
namespace Shape

/-- Marks the axes one after the other; stops at an axis out of range or already marked. -/
def marksEachOnce (seen : List Bool) : List Nat → Bool
  | [] => true
  | axis :: rest =>
    match seen[axis]? with
    | some false => marksEachOnce (seen.set axis true) rest
    | _ => false

def isPermutation (rank : Nat) (shuffle : List Nat) : Bool :=
  decide (shuffle.length = rank) && marksEachOnce (List.replicate rank false) shuffle

/-- Place `i` of the result has the extent of axis `shuffle[i]`. -/
def transposeDims (dims shuffle : List Nat) : Except ShapeError (List Nat) :=
  if isPermutation dims.length shuffle then .ok (shuffle.filterMap (dims[·]?))
  else .error (.invalidPermutation shuffle dims.length)

/-- The dimensions of the inputs put behind one another: those of the first, with the extent of the
axis taken as often as there are inputs. -/
def concatDims (inputs : List (List Nat)) (axis : Nat) : Except ShapeError (List Nat) :=
  match inputs with
  | [] => .error .emptyConcat
  | first :: rest =>
    match (rest.zipIdx 1).find? (fun (dims, _) => dims ≠ first) with
    | some (dims, index) => .error (.concatInputMismatch index first dims)
    | none =>
      match first[axis]? with
      | none => .error (.axisOutOfRange Opcode.concat.name axis first.length)
      | some extent =>
        match Size.mul? extent inputs.length with
        | none => .error (.overflow Opcode.concat.name)
        | some stacked => .ok (first.set axis stacked)

def channelCount (dims : List Nat) (channel : Nat) : Except ShapeError Nat :=
  match dims[channel]? with
  | some extent => .ok extent
  | none => .error (.axisOutOfRange Opcode.batchNormalization.name channel dims.length)

end Shape
end TensorIR
