/-!
# TensorIR.Binary32.Basic

Numbers of the IEEE 754 format binary32, given by their 32 bits.

Every finite number of the format is a whole number of units of `2 ^ -149`, so a magnitude is read
as a natural number of units. `unitsOf` is that reading for the 31 bits below the sign. It is
strictly increasing, and at the pattern of infinity it gives `2 ^ 277`, the number that follows the
largest finite one; comparison therefore treats finite numbers and infinities alike.

* `Binary32.signedUnits`: the value in units, with its sign.
* `Binary32.lt`, `Binary32.le`: the order of values; no comparison with a NaN holds.
* `unitsOf_subnormal`, `unitsOf_normal`: a small magnitude is its own pattern, and a larger one is a
  24-bit number times a power of two.
* `unitsOf_lt_unitsOf_succ`: neighbouring patterns are in order.
-/

namespace TensorIR

structure Binary32 where
  bits : UInt32
  deriving DecidableEq

namespace Binary32

/-- The 31 bits below the sign, for an infinite number. -/
def infinityPattern : Nat := 0x7f800000

/-- The number of units of `2 ^ -149` in the magnitude with the given 31 bits: a fraction of 23 bits,
and above it the exponent. A number with exponent zero has no leading bit. -/
def unitsOf (pattern : Nat) : Nat :=
  let exponent := pattern / 0x800000
  let fraction := pattern % 0x800000
  if exponent = 0 then fraction else (0x800000 + fraction) <<< (exponent - 1)

theorem unitsOf_subnormal {pattern : Nat} (h : pattern < 0x800000) :
    unitsOf pattern = pattern := by
  unfold unitsOf
  rw [if_pos (Nat.div_eq_of_lt h), Nat.mod_eq_of_lt h]

theorem unitsOf_normal {pattern e : Nat} (h : pattern / 0x800000 = e + 1) :
    unitsOf pattern = (0x800000 + pattern % 0x800000) <<< e := by
  unfold unitsOf
  rw [h, if_neg (Nat.succ_ne_zero e), Nat.add_sub_cancel]

theorem unitsOf_lt_unitsOf_succ (pattern : Nat) : unitsOf pattern < unitsOf (pattern + 1) := by
  by_cases hsmall : pattern < 0x800000
  · rw [unitsOf_subnormal hsmall]
    by_cases hnext : pattern + 1 < 0x800000
    · rw [unitsOf_subnormal hnext]
      omega
    · have h : (pattern + 1) / 0x800000 = 0 + 1 := by omega
      rw [unitsOf_normal h, Nat.shiftLeft_zero]
      omega
  · obtain ⟨e, he⟩ : ∃ e, pattern / 0x800000 = e + 1 := ⟨pattern / 0x800000 - 1, by omega⟩
    rw [unitsOf_normal he, Nat.shiftLeft_eq]
    by_cases hcarry : pattern % 0x800000 + 1 < 0x800000
    · have h : (pattern + 1) / 0x800000 = e + 1 := by omega
      rw [unitsOf_normal h, Nat.shiftLeft_eq]
      exact Nat.mul_lt_mul_of_pos_right (by omega) (Nat.two_pow_pos e)
    · have h : (pattern + 1) / 0x800000 = e + 1 + 1 := by omega
      rw [unitsOf_normal h, Nat.shiftLeft_succ, Nat.shiftLeft_eq, ← Nat.mul_assoc]
      exact Nat.mul_lt_mul_of_pos_right (by omega) (Nat.two_pow_pos e)

/-- The bits of a sign and a 31-bit pattern put together. -/
def ofPattern (negative : Bool) (pattern : Nat) : Binary32 :=
  ⟨.ofNat (pattern + if negative then 0x80000000 else 0)⟩

/-- The 31 bits below the sign. -/
def pattern (x : Binary32) : Nat := x.bits.toNat % 0x80000000

/-- Whether the sign bit is set; it may be set on a zero. -/
def signBit (x : Binary32) : Bool := decide (0x80000000 ≤ x.bits.toNat)

def isNaN (x : Binary32) : Bool := decide (infinityPattern < x.pattern)

def isInfinite (x : Binary32) : Bool := decide (x.pattern = infinityPattern)

def isFinite (x : Binary32) : Bool := decide (x.pattern < infinityPattern)

def isZero (x : Binary32) : Bool := decide (x.pattern = 0)

/-- The magnitude as a number of units. -/
def units (x : Binary32) : Nat := unitsOf x.pattern

/-- The value as a number of units. -/
def signedUnits (x : Binary32) : Int := if x.signBit then -(x.units : Int) else x.units

def zero (negative : Bool) : Binary32 := ofPattern negative 0

def infinity (negative : Bool) : Binary32 := ofPattern negative infinityPattern

/-- The NaN that stands for the result of an invalid operation. -/
def nan : Binary32 := ofPattern false 0x7fc00000

def lt (x y : Binary32) : Bool :=
  !x.isNaN && !y.isNaN && decide (x.signedUnits < y.signedUnits)

def le (x y : Binary32) : Bool :=
  !x.isNaN && !y.isNaN && decide (x.signedUnits ≤ y.signedUnits)

/-- The number with the other sign. -/
def neg (x : Binary32) : Binary32 := ⟨x.bits ^^^ 0x80000000⟩

end Binary32
end TensorIR
