import TensorIR.Fault

/-!
# TensorIR.Size

Sizes, dimensions and counts are natural numbers, and a machine size is one below
`limit = 2 ^ 64`. Two families of operations tell what happens at the limit:

* `mul?` and `add?` answer `none` for a result that is no machine size;
* `mul`, `add`, `sub` and `div` meet a `Fault` there, and where a difference would be negative or
  a divisor is zero.

The items of one sequence take less than `allocationLimit = 2 ^ 63` bytes; `allocate` meets a `Fault`
where they would take more.
-/

namespace TensorIR
namespace Size

/-- Machine sizes are the natural numbers below `2 ^ 64`. -/
def limit : Nat := 0x10000000000000000

/-- One sequence takes fewer bytes than this. -/
def allocationLimit : Nat := 0x8000000000000000

def mul? (a b : Nat) : Option Nat := if a * b < limit then some (a * b) else none

def add? (a b : Nat) : Option Nat := if a + b < limit then some (a + b) else none

def mul (a b : Nat) : Except Fault Nat :=
  if a * b < limit then .ok (a * b) else .error .multiplyOverflow

def add (a b : Nat) : Except Fault Nat :=
  if a + b < limit then .ok (a + b) else .error .addOverflow

def sub (a b : Nat) : Except Fault Nat :=
  if b ≤ a then .ok (a - b) else .error .subtractOverflow

def div (a b : Nat) : Except Fault Nat :=
  if b = 0 then .error .divideByZero else .ok (a / b)

/-- Room for a sequence of `count` items, each of `width` bytes. -/
def allocate (count width : Nat) : Except Fault Unit :=
  if count * width < allocationLimit then .ok () else .error .capacityOverflow

theorem mul?_eq_some_iff {a b c : Nat} : mul? a b = some c ↔ a * b = c ∧ c < limit := by
  unfold mul?; split <;> grind

theorem add?_eq_some_iff {a b c : Nat} : add? a b = some c ↔ a + b = c ∧ c < limit := by
  unfold add?; split <;> grind

theorem mul_eq_ok_iff {a b c : Nat} : mul a b = .ok c ↔ a * b = c ∧ c < limit := by
  unfold mul; split <;> grind

theorem add_eq_ok_iff {a b c : Nat} : add a b = .ok c ↔ a + b = c ∧ c < limit := by
  unfold add; split <;> grind

end Size
end TensorIR
