/-!
# TensorIR.Fault

How a computation may fail to answer.

* `Fault`: a precondition of an operation did not hold. No rule of the library handles a fault; the
  request that meets one is abandoned.
* `Abort ε`: a computation was refused for a stated cause `ε`, or it met a fault.
* `Attempt ε α`: a computation that ends in an `α` or in an `Abort ε`.

Rules that cannot meet a fault keep the plain type `Except ε α`; `Attempt.ofExcept` and
`Attempt.ofFault` bring both kinds of failure together where a request needs them.
-/

namespace TensorIR

/-- A precondition of an operation that did not hold. -/
inductive Fault where
  | multiplyOverflow
  | addOverflow
  | subtractOverflow
  | divideByZero
  /-- A uniform distribution was asked for over a range with an infinite end. -/
  | unboundedRange
  /-- A sequence was asked for that takes more bytes than any sequence may. -/
  | capacityOverflow
  deriving DecidableEq

namespace Fault

def message : Fault → String
  | multiplyOverflow => "attempt to multiply with overflow"
  | addOverflow => "attempt to add with overflow"
  | subtractOverflow => "attempt to subtract with overflow"
  | divideByZero => "attempt to divide by zero"
  | unboundedRange => "Uniform::new_inclusive called with `low` non-finite."
  | capacityOverflow => "capacity overflow"

end Fault

/-- Why a computation gave no answer: it was refused for a cause, or it met a fault. -/
inductive Abort (ε : Type) where
  | refused (cause : ε)
  | fault (fault : Fault)
  deriving DecidableEq

namespace Abort

/-- Rewords the cause of a refusal; a fault stays as it is. -/
def map {ε δ : Type} (f : ε → δ) : Abort ε → Abort δ
  | refused cause => refused (f cause)
  | fault e => fault e

end Abort

instance instDecidableEqExcept {ε α : Type} [DecidableEq ε] [DecidableEq α] :
    DecidableEq (Except ε α)
  | .ok a, .ok b =>
    if h : a = b then isTrue (h ▸ rfl) else isFalse fun e => h (Except.ok.inj e)
  | .error a, .error b =>
    if h : a = b then isTrue (h ▸ rfl) else isFalse fun e => h (Except.error.inj e)
  | .ok _, .error _ => isFalse nofun
  | .error _, .ok _ => isFalse nofun

/-- A computation that answers, is refused, or meets a fault. -/
abbrev Attempt (ε α : Type) := Except (Abort ε) α

namespace Attempt

variable {ε δ α : Type}

def refuse (cause : ε) : Attempt ε α := .error (.refused cause)

def ofExcept : Except ε α → Attempt ε α
  | .ok a => .ok a
  | .error cause => refuse cause

def ofFault : Except Fault α → Attempt ε α
  | .ok a => .ok a
  | .error e => .error (.fault e)

/-- Rewords the cause of a refusal; answers and faults stay as they are. -/
def mapRefusal (f : ε → δ) : Attempt ε α → Attempt δ α
  | .ok a => .ok a
  | .error e => .error (e.map f)

@[simp] theorem ofExcept_ok (a : α) : ofExcept (ε := ε) (.ok a) = .ok a := rfl

@[simp] theorem ofExcept_error (cause : ε) :
    ofExcept (α := α) (.error cause) = .error (.refused cause) := rfl

@[simp] theorem ofFault_ok (a : α) : ofFault (ε := ε) (.ok a) = .ok a := rfl

@[simp] theorem mapRefusal_ok (f : ε → δ) (a : α) : mapRefusal f (.ok a) = .ok a := rfl

@[simp] theorem mapRefusal_refused (f : ε → δ) (cause : ε) :
    mapRefusal (α := α) f (.error (.refused cause)) = .error (.refused (f cause)) := rfl

@[simp] theorem mapRefusal_fault (f : ε → δ) (e : Fault) :
    mapRefusal (α := α) f (.error (.fault e)) = .error (.fault e) := rfl

end Attempt

end TensorIR
