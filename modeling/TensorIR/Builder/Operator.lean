import TensorIR.Binary32.Rounding
import TensorIR.Builder.Request

/-!
# TensorIR.Builder.Operator

Whole operators: an instruction together with the parameters, caches and destination that it needs.
An operator computes every shape before it declares anything.

* `Operator`: the operators with their inputs and parameters.
* `Operator.build`: declares the fresh values of an operator and appends its instruction.
-/

namespace TensorIR

inductive Operator where
  | convolution (input : ValueId) (depth : Nat) (window : Window)
  | pool (input : ValueId) (kind : PoolKind) (window : Window)
  | fullyConnected (input : ValueId) (depth : Nat)
  | relu (input : ValueId)
  | sigmoid (input : ValueId)
  | tanh (input : ValueId)
  | softmax (input selected : ValueId)
  | regression (input expected : ValueId)
  | reshape (input : ValueId) (dims : List Nat)
  | transpose (input : ValueId) (shuffle : List Nat)
  | concat (inputs : List ValueId) (axis : Nat)
  | batchNormalization (input : ValueId) (channel : Nat) (epsilon momentum : Binary32)
  | arithmetic (lhs rhs : ValueId) (kind : ArithmeticKind)
  deriving DecidableEq

namespace Build

variable (config : Config)

def request (r : Request) : Build InstrId := append config r.instruction

/-- Declares a learnable parameter that is filled with one value. -/
def filled (t : TensorType) (fill : Binary32) (name : String) : Build ValueId :=
  declare t ⟨.broadcast, .weight, fill⟩ name

/-- Declares a learnable parameter with random elements for the given fan-in. -/
def randomised (t : TensorType) (fanIn : Nat) (name : String) : Build ValueId :=
  declare t ⟨.xavier, .weight, .ofNat fanIn⟩ name

def convolution (input : ValueId) (depth : Nat) (window : Window) : Build InstrId := do
  let source ← dimsOf input
  let (image, out) ← shape (window.slide Opcode.convolution.name source)
  let fanIn ← ofAttempt (.ofFault do
    Size.mul (← Size.mul window.kernel window.kernel) image.channels)
  let filter ← randomised ⟨.float32, window.filterDims depth image.channels⟩ fanIn "filter"
  let bias ← filled ⟨.float32, [depth]⟩ config.biasFill "bias"
  let dest ← scratch ⟨.float32, { out with channels := depth }.dims⟩ ""
  request config (.convolution dest input filter bias window depth)

def pool (input : ValueId) (kind : PoolKind) (window : Window) : Build InstrId := do
  let source ← dimsOf input
  let (_, out) ← shape (window.slide Opcode.pool.name source)
  let cache ← scratch ⟨.index, kind.cacheDims out⟩ "srcXY"
  let dest ← scratch ⟨.float32, out.dims⟩ ""
  request config (.pool dest input cache kind window)

def fullyConnected (input : ValueId) (depth : Nat) : Build InstrId := do
  let kind ← kindOf input
  let source ← dimsOf input
  let (batch, inner) ←
    shape (.ofExcept (Shape.flattenTail Opcode.fullyConnected.name source))
  let weights ← randomised ⟨kind, [depth, inner]⟩ inner "weights"
  let bias ← filled ⟨kind, [depth]⟩ config.biasFill "bias"
  let dest ← scratch ⟨kind, [batch, depth]⟩ ""
  request config (.fullyConnected dest input weights bias depth)

/-- An operator with one input and a destination like it. -/
def elementwise (make : ValueId → ValueId → Request) (input : ValueId) : Build InstrId := do
  let dest ← like input ""
  request config (make dest input)

def softmax (input selected : ValueId) : Build InstrId := do
  let _ ← typeRefOf selected
  let dest ← like input ""
  let expected ← like input "expected"
  request config (.softmax dest input expected selected)

def regression (input expected : ValueId) : Build InstrId := do
  let _ ← typeRefOf expected
  let dest ← like input ""
  request config (.regression dest input expected)

def reshape (input : ValueId) (dims : List Nat) : Build InstrId := do
  let kind ← kindOf input
  let source ← dimsOf input
  shape (.ofExcept (Shape.checkReshape source dims))
  let dest ← scratch ⟨kind, dims⟩ ""
  request config (.reshape dest input dims)

def transpose (input : ValueId) (shuffle : List Nat) : Build InstrId := do
  let kind ← kindOf input
  let source ← dimsOf input
  let dims ← shape (.ofExcept (Shape.transposeDims source shuffle))
  let dest ← scratch ⟨kind, dims⟩ ""
  request config (.transpose dest input shuffle)

def concat (inputs : List ValueId) (axis : Nat) : Build InstrId := do
  match inputs with
  | [] => refuse (.shape .emptyConcat)
  | first :: _ =>
    let kind ← kindOf first
    let sources ← inputs.mapM dimsOf
    let dims ← shape (.ofExcept (Shape.concatDims sources axis))
    let dest ← scratch ⟨kind, dims⟩ ""
    request config (.concat dest inputs axis)

/-- The parameters are declared shift first and used scale first. -/
def batchNormalization (input : ValueId) (channel : Nat) (epsilon momentum : Binary32) :
    Build InstrId := do
  let source ← dimsOf input
  let channels ← shape (.ofExcept (Shape.channelCount source channel))
  let t : TensorType := ⟨.float32, [channels]⟩
  let beta ← filled t config.betaFill "beta"
  let gamma ← filled t config.gammaFill "gamma"
  let mean ← scratch t "mean"
  let variance ← scratch t "variance"
  let dest ← like input ""
  request config
    (.batchNormalization dest input gamma beta mean variance channel epsilon momentum)

def arithmetic (lhs rhs : ValueId) (kind : ArithmeticKind) : Build InstrId := do
  let lhsType ← typeRefOf lhs
  let rhsType ← typeRefOf rhs
  let p ← get
  if lhsType = rhsType then
    let dest ← declareOf lhsType {} ""
    request config (.arithmetic dest lhs rhs kind)
  else
    refuse (.shape (.operandMismatch kind.name (p.typeText lhsType) (p.typeText rhsType)))

end Build

/-- Declares what an operator needs and appends its instruction. -/
def Operator.build (config : Config) : Operator → Build InstrId
  | convolution input depth window => Build.convolution config input depth window
  | pool input kind window => Build.pool config input kind window
  | fullyConnected input depth => Build.fullyConnected config input depth
  | relu input => Build.elementwise config .relu input
  | sigmoid input => Build.elementwise config .sigmoid input
  | tanh input => Build.elementwise config .tanh input
  | softmax input selected => Build.softmax config input selected
  | regression input expected => Build.regression config input expected
  | reshape input dims => Build.reshape config input dims
  | transpose input shuffle => Build.transpose config input shuffle
  | concat inputs axis => Build.concat config inputs axis
  | batchNormalization input channel epsilon momentum =>
    Build.batchNormalization config input channel epsilon momentum
  | arithmetic lhs rhs kind => Build.arithmetic config lhs rhs kind

end TensorIR
