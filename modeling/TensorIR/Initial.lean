import TensorIR.Binary32.Arithmetic
import TensorIR.Size
import TensorIR.Value

/-!
# TensorIR.Initial

The contents of a static variable before its first use. Random elements come from a library of random
numbers, which is a parameter; `TensorIR.Uniform` is one.

* `RangeSampler`: what such a library offers, distributions over ranges and samples from them.
* `xavierLimit`: the bound `sqrt (3 / fanIn)` of the random elements.
* `StaticVariable.initialValues`: the elements, drawn between the bound and its negative where the
  policy is `xavier`.
-/

namespace TensorIR

/-- A library of random numbers: how the uniform distribution on the numbers from `low` to `high` is
made, in `δ`, and how a sample of it is drawn by a generator with states in `σ`. -/
structure RangeSampler (δ σ : Type) where
  closed (low high : Binary32) : Except Fault δ
  draw : δ → σ → Binary32 × σ

/-- The bound of the random elements for the given fan-in. -/
def xavierLimit (fanIn : Binary32) : Binary32 := ((Binary32.ofNat 3).div fanIn).sqrt

/-- A fan-in that is no finite positive number. -/
structure InvalidFanIn where
  fanIn : Binary32
  deriving DecidableEq

def InvalidFanIn.message (e : InvalidFanIn) : String :=
  "cannot initialize value: xavier fan-in must be positive, got " ++ e.fanIn.text

variable {δ σ : Type}

/-- As many samples as asked for, one after the other, and the state of the generator after them. -/
def RangeSampler.samples (sampler : RangeSampler δ σ) (dist : δ) : Nat → σ → List Binary32 × σ
  | 0, s => ([], s)
  | n + 1, s =>
    let (x, s) := sampler.draw dist s
    let (rest, s) := sampler.samples dist n s
    (x :: rest, s)

/-- Room for `n` elements of four bytes each. -/
def allocateElements {ε : Type} (n : Nat) : Attempt ε Unit := Attempt.ofFault (Size.allocate n 4)

/-- The first `n` elements of a variable, or nothing if its owner fills it, and the state of the
generator after them. -/
def StaticVariable.initialValues (sampler : RangeSampler δ σ) (var : StaticVariable) (n : Nat)
    (s : σ) : Attempt InvalidFanIn (Option (List Binary32) × σ) :=
  match var.init with
  | .external => .ok (none, s)
  | .broadcast => do
    allocateElements n
    return (some (List.replicate n var.fill), s)
  | .xavier =>
    if var.fill.le (.zero false) || !var.fill.isFinite then Attempt.refuse ⟨var.fill⟩
    else do
      let limit := xavierLimit var.fill
      let dist ← Attempt.ofFault (sampler.closed limit.neg limit)
      allocateElements n
      let (values, s) := sampler.samples dist n s
      return (some values, s)

end TensorIR
