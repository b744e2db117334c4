import TensorIR.Shape.Error
import TensorIR.Size

/-!
# TensorIR.Shape.Window

Images and the windows that slide over them.

* `Nhwc`: the dimensions of a batch of images, in the order batch, height, width, channels.
* `Window`: a square window of side `kernel` that moves by `stride` over an image with `pad` extra
  rows and columns on every side.
* `Window.positions`: how many places the window takes along one axis.
* `Window.outputDims`: the height and width of what the window produces.
* `Window.slide`: the image that a window makes of an image; convolutions and pools share it.
-/

namespace TensorIR

structure Nhwc where
  batch : Nat
  height : Nat
  width : Nat
  channels : Nat
  deriving DecidableEq

namespace Nhwc

def ofDims (op : String) : List Nat → Except ShapeError Nhwc
  | [n, h, w, c] => .ok ⟨n, h, w, c⟩
  | dims => .error (.rankMismatch op 4 dims)

def dims (image : Nhwc) : List Nat := [image.batch, image.height, image.width, image.channels]

end Nhwc

structure Window where
  kernel : Nat
  stride : Nat
  pad : Nat
  deriving DecidableEq

namespace Window

/-- The extent of an axis with padding on both sides, if it is a machine size. -/
def padded? (window : Window) (extent : Nat) : Option Nat := do
  Size.add? extent (← Size.mul? window.pad 2)

/-- The number of places the window takes along an axis of the given extent. -/
def positions (window : Window) (op : String) (extent : Nat) : Attempt ShapeError Nat :=
  match window.padded? extent with
  | none => Attempt.refuse (.overflow op)
  | some padded => Attempt.ofFault do
    let room ← Size.sub padded window.kernel
    let steps ← Size.div room window.stride
    Size.add steps 1

/-- The height and width of what the window produces. A window must not be empty, must fit the image
without its padding, and must move. -/
def outputDims (window : Window) (op : String) (height width : Nat) :
    Attempt ShapeError (Nat × Nat) :=
  if window.kernel = 0 then Attempt.refuse (.zeroKernel op)
  else if height < window.kernel ∨ width < window.kernel then
    Attempt.refuse (.kernelTooLarge op window.kernel height width)
  else if window.stride = 0 then Attempt.refuse (.zeroStride op)
  else do
    let outHeight ← window.positions op height
    let outWidth ← window.positions op width
    return (outHeight, outWidth)

/-- The image a window is moved over, and the image of its places with the same channels. -/
def slide (window : Window) (op : String) (dims : List Nat) :
    Attempt ShapeError (Nhwc × Nhwc) := do
  let image ← Attempt.ofExcept (Nhwc.ofDims op dims)
  let (height, width) ← window.outputDims op image.height image.width
  return (image, ⟨image.batch, height, width, image.channels⟩)

end Window
end TensorIR
