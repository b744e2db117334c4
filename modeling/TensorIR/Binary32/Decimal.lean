import TensorIR.Binary32.Basic

/-!
# TensorIR.Binary32.Decimal

The text of a binary32 number: the fewest decimal digits that read back as the same number, always
in positional notation.

A decimal reads back as the number with pattern `p` if it lies between the midpoints to the
neighbouring numbers, a midpoint counting if `p` is even. The decimals are tried grid by grid,
coarse ones first; on a grid only the two points next to the number can be the nearest ones inside.

* `ReadsBack p c j`: the decimal `c * 10 ^ (j - 45)` reads back as `p`.
* `gridPoint? p j`: the point of the grid `10 ^ (j - 45)` that reads back and is nearest.
* `shortest p`: the point on the coarsest grid that has one.
* `Binary32.text`: the text, with sign, and the texts of NaN and the infinities.
-/

namespace TensorIR
namespace Binary32

/-- The decimal point stands this many places to the left of the last place of the finest grid. -/
def places : Nat := 45

/-- Half a unit of `2 ^ -149`, on the scale on which `10 ^ -45` is a whole number too. -/
def halfUnit : Nat := Nat.pow 10 places

/-- The step of the grid `10 ^ (j - 45)` on the same scale. -/
def gridStep (j : Nat) : Nat := Nat.pow 10 j <<< 150

/-- The decimal `c * 10 ^ (j - 45)` lies between the midpoints around the number with pattern `p`. -/
def ReadsBack (p c j : Nat) : Prop :=
  let low := (unitsOf (p - 1) + unitsOf p) * halfUnit
  let high := (unitsOf p + unitsOf (p + 1)) * halfUnit
  if p % 2 = 0 then low ≤ c * gridStep j ∧ c * gridStep j ≤ high
  else low < c * gridStep j ∧ c * gridStep j < high

instance (p c j : Nat) : Decidable (ReadsBack p c j) := by
  unfold ReadsBack; infer_instance

/-- The point of a grid that reads back as `p`; of two, the nearer, and the upper one on a tie. -/
def gridPoint? (p j : Nat) : Option Nat :=
  let value := 2 * unitsOf p * halfUnit
  let below := value / gridStep j
  let fromBelow := value % gridStep j
  if ReadsBack p below j then
    if ReadsBack p (below + 1) j ∧ gridStep j ≤ 2 * fromBelow then some (below + 1) else some below
  else if ReadsBack p (below + 1) j then some (below + 1)
  else none

/-- The decimal `c * 10 ^ (j - 45)` on the coarsest grid, up to the given one, with a point that
reads back as `p`. The finest grid is narrower than a unit, so its lower point serves as the last
resort of a search that never needs it. -/
def shortestFrom (p : Nat) : Nat → Nat × Nat
  | 0 => ((gridPoint? p 0).getD (2 * unitsOf p * halfUnit / gridStep 0), 0)
  | j + 1 =>
    match gridPoint? p (j + 1) with
    | some c => (c, j + 1)
    | none => shortestFrom p j

/-- No finite number reaches `10 ^ 39`, so the search starts at the grid `10 ^ 38`. -/
def shortest (p : Nat) : Nat × Nat := shortestFrom p (places + 38)

/-- The digits of `n`, led by zeros up to the given width. -/
def padded (width n : Nat) : String :=
  let digits := (toString n).toList
  String.ofList (List.replicate (width - digits.length) '0' ++ digits)

/-- The decimal `c * 10 ^ (j - 45)` in positional notation. -/
def positional (c j : Nat) : String :=
  if places ≤ j then toString (c * Nat.pow 10 (j - places))
  else
    let scale := Nat.pow 10 (places - j)
    toString (c / scale) ++ "." ++ padded (places - j) (c % scale)

/-- The text of a number: the fewest digits that read back, without an exponent. -/
def text (x : Binary32) : String :=
  if x.isNaN then "NaN"
  else
    let sign := if x.signBit then "-" else ""
    if x.isInfinite then sign ++ "inf"
    else if x.isZero then sign ++ "0"
    else
      let (c, j) := shortest x.pattern
      sign ++ positional c j

end Binary32
end TensorIR
