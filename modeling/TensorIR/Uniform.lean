import TensorIR.Initial

/-!
# TensorIR.Uniform

A library of random numbers that makes a sample from one 32-bit word.

* `WordSource`: a supply of 32-bit words, as a state and a function to draw the next one.
* `WordSource.replay`: the supply that repeats a given list of words and counts what it hands out.
* `Uniform.closed`: the uniform distribution on the numbers from `low` to `high`; its step is adjusted
  downwards until no sample passes the upper end.
* `Uniform.sampler`: the library.
-/

namespace TensorIR

/-- A supply of 32-bit words with states in `σ`. -/
structure WordSource (σ : Type) where
  next : σ → UInt32 × σ

/-- The number of words handed out so far is the state; the words are repeated in order, and an
empty list gives zeros. -/
def WordSource.replay (words : List UInt32) : WordSource Nat where
  next drawn := (words.getD (drawn % words.length) 0, drawn + 1)

/-- Samples `fraction * scale + low` for fractions below one. -/
structure Uniform where
  low : Binary32
  scale : Binary32
  deriving DecidableEq

namespace Uniform

/-- The largest fraction that is drawn, `1 - 2 ^ -23`. -/
def maxFraction : Binary32 := Binary32.ofQuotient false (0x7fffff <<< 126) 1

/-- The sample for a fraction; product and sum are rounded one after the other. -/
def scaled (dist : Uniform) (fraction : Binary32) : Binary32 :=
  (fraction.mul dist.scale).add dist.low

/-- The first of the given bits and their predecessors with which the largest sample does not pass
`high`. -/
def tighten (low high : Binary32) : Nat → Binary32
  | 0 => .zero false
  | bits + 1 =>
    let scale : Binary32 := ⟨.ofNat (bits + 1)⟩
    if high.lt (scaled ⟨low, scale⟩ maxFraction) then tighten low high bits else scale

/-- The uniform distribution on the numbers from `low` to `high`. There is none if the ends are out of
order or too far apart for a finite step. -/
def closed (low high : Binary32) : Except Fault Uniform :=
  let scale := (high.sub low).div maxFraction
  if low.le high && scale.isFinite then .ok ⟨low, tighten low high scale.bits.toNat⟩
  else .error .unboundedRange

/-- The sample for a random word, of which the upper 23 bits are the fraction. -/
def sample (dist : Uniform) (word : UInt32) : Binary32 :=
  dist.scaled (Binary32.ofQuotient false ((word >>> 9).toNat <<< 126) 1)

/-- Samples from a supply of words, one word each. -/
def sampler {σ : Type} (source : WordSource σ) : RangeSampler Uniform σ where
  closed := closed
  draw dist s :=
    let (word, s) := source.next s
    (dist.sample word, s)

end Uniform
end TensorIR
