import TensorIR.Builder.Operator
import TensorIR.Proofs.Program.Verdict

/-!
# TensorIR.Proofs.Builder.Plan

What an operator is going to do, told without doing it. A plan lists the variables to declare and
the instruction to request on them, and it is a function of the types of the values and of their
number only; handles of types play no part.

* `Declaration`, `Program.declareAll`: variables by their type, declared one after the other. The
  new positions follow the old ones (`typeOf?_fresh`, `value?_fresh`), and nothing else changes.
* `Operator.plan`: the plan of an operator, or why there is none.
* `Plan.carryOut`: the program after a plan.
-/

namespace TensorIR

/-- A static variable to be declared. -/
structure Declaration where
  type : TensorType
  var : StaticVariable := {}
  name : String := ""

structure Plan where
  declarations : List Declaration
  request : Request

namespace Program

variable {p : Program}

/-! ## Declaring several variables -/

/-- The position of the `n`-th value that is added to the program. -/
def fresh (p : Program) (n : Nat) : ValueId := ⟨p.values.length + n⟩

def declareAs (p : Program) (d : Declaration) : Program :=
  ((p.internType d.type).2.declare (p.internType d.type).1 d.var d.name).2

def declareAll (p : Program) (ds : List Declaration) : Program := ds.foldl declareAs p

@[simp] theorem declareAll_cons (p : Program) (d : Declaration) (ds : List Declaration) :
    p.declareAll (d :: ds) = (p.declareAs d).declareAll ds := rfl

theorem type?_internType (p : Program) (t : TensorType) :
    (p.internType t).2.type? (p.internType t).1 = some t :=
  p.types.get?_intern t

theorem extends_declareAs (p : Program) (d : Declaration) : p.Extends (p.declareAs d) :=
  (extends_internType p d.type).trans (extends_declare _ _ _ _)

theorem WellFormed.declareAs (hp : p.WellFormed) (d : Declaration) : (p.declareAs d).WellFormed :=
  (hp.internType d.type).declare (type?_internType p d.type) d.var d.name

@[simp] theorem length_values_declareAs (p : Program) (d : Declaration) :
    (p.declareAs d).values.length = p.values.length + 1 := by
  simp [declareAs, declare, internType]

theorem fresh_declareAs (p : Program) (d : Declaration) (n : Nat) :
    (p.declareAs d).fresh n = p.fresh (n + 1) := by
  simp [fresh, Nat.add_assoc, Nat.add_comm 1 n]

theorem typeOf?_declareAs (p : Program) (d : Declaration) :
    (p.declareAs d).typeOf? (p.fresh 0) = some d.type := by
  have href : (p.declareAs d).typeRef? (p.fresh 0) = some (p.internType d.type).1 := by
    simp [declareAs, declare, internType, fresh, typeRef?, value?, Value.rename]
  simp only [typeOf?, href, Option.bind_some]
  exact type?_internType p d.type

theorem extends_declareAll (ds : List Declaration) :
    ∀ p : Program, p.Extends (p.declareAll ds) := by
  induction ds with
  | nil => intro p; exact .refl p
  | cons d ds ih => intro p; exact (extends_declareAs p d).trans (ih _)

theorem WellFormed.declareAll (ds : List Declaration) :
    ∀ {p : Program}, p.WellFormed → (p.declareAll ds).WellFormed := by
  induction ds with
  | nil => intro p hp; exact hp
  | cons d ds ih => intro p hp; exact ih (hp.declareAs d)

@[simp] theorem instrs_declareAll (ds : List Declaration) :
    ∀ p : Program, (p.declareAll ds).instrs = p.instrs := by
  induction ds with
  | nil => intro p; rfl
  | cons d ds ih => intro p; exact ih _

/-- The declared variables stand in order behind the old values. -/
theorem typeOf?_fresh (ds : List Declaration) :
    ∀ (p : Program) (n : Nat) (d : Declaration), ds[n]? = some d →
      (p.declareAll ds).typeOf? (p.fresh n) = some d.type := by
  induction ds with
  | nil => intro p n d h; simp at h
  | cons d ds ih =>
    intro p n d' h
    cases n with
    | zero =>
      cases h
      exact (extends_declareAll ds _).typeOf? (typeOf?_declareAs p d)
    | succ n =>
      rw [← fresh_declareAs p d]
      exact ih (p.declareAs d) n d' h

@[simp] theorem length_values_declareAll (ds : List Declaration) :
    ∀ p : Program, (p.declareAll ds).values.length = p.values.length + ds.length := by
  induction ds with
  | nil => intro p; rfl
  | cons d ds ih =>
    intro p
    rw [declareAll_cons, ih, length_values_declareAs, List.length_cons]
    omega

theorem value?_declareAs (p : Program) (d : Declaration) :
    ∃ v, (p.declareAs d).value? (p.fresh 0) = some v ∧ v.origin = .declared d.var ∧
      v.name = if d.name = "" then none else some d.name := by
  simp [declareAs, declare, internType, fresh, value?, Value.rename]

/-- The declared variables are stored as they were declared. -/
theorem value?_fresh (ds : List Declaration) :
    ∀ (p : Program) (n : Nat) (d : Declaration), ds[n]? = some d →
      ∃ v, (p.declareAll ds).value? (p.fresh n) = some v ∧ v.origin = .declared d.var ∧
        v.name = if d.name = "" then none else some d.name := by
  induction ds with
  | nil => intro p n d h; simp at h
  | cons d ds ih =>
    intro p n d' h
    cases n with
    | zero =>
      cases h
      obtain ⟨v, hv, hdeclared⟩ := value?_declareAs p d
      exact ⟨v, (extends_declareAll ds _).value? hv, hdeclared⟩
    | succ n =>
      rw [← fresh_declareAs p d]
      exact ih (p.declareAs d) n d' h

end Program

/-! ## Plans -/

/-- The program after a plan: its variables are declared and its instruction is the last one. -/
def Plan.carryOut (plan : Plan) (p : Program) : Program :=
  ((p.declareAll plan.declarations).append plan.request.instruction).2

namespace Operator

/-- The type of a value that must exist. -/
def typeOf (p : Program) (id : ValueId) : Attempt ProgramError TensorType :=
  match p.typeOf? id with
  | some t => .ok t
  | none => Attempt.refuse (.unknownValue id)

theorem typeOf_eq_ok {p : Program} {id : ValueId} {t : TensorType} :
    typeOf p id = .ok t ↔ p.typeOf? id = some t := by
  unfold typeOf
  cases p.typeOf? id <;> simp [Attempt.refuse]

theorem mapRefusal_shape_eq_error_iff {α : Type} {rule : Attempt ShapeError α}
    {e : Abort ShapeError} :
    rule.mapRefusal ProgramError.shape = .error (e.map .shape) ↔ rule = .error e :=
  Attempt.mapRefusal_eq_error_map fun _ _ => ProgramError.shape.inj

/-- An operator that declares nothing but a destination. -/
def into (p : Program) (t : TensorType) (request : ValueId → Request) : Plan where
  declarations := [{ type := t }]
  request := request (p.fresh 0)

def plan (config : Config) (p : Program) : Operator → Attempt ProgramError Plan
  | convolution input depth window => do
    let t ← typeOf p input
    let (image, out) ← (window.slide Opcode.convolution.name t.dims).mapRefusal .shape
    let fanIn ← Attempt.ofFault do
      Size.mul (← Size.mul window.kernel window.kernel) image.channels
    return {
      declarations := [
        ⟨⟨.float32, window.filterDims depth image.channels⟩,
          ⟨.xavier, .weight, .ofNat fanIn⟩, "filter"⟩,
        ⟨⟨.float32, [depth]⟩, ⟨.broadcast, .weight, config.biasFill⟩, "bias"⟩,
        { type := ⟨.float32, { out with channels := depth }.dims⟩ }]
      request := .convolution (p.fresh 2) input (p.fresh 0) (p.fresh 1) window depth }
  | pool input kind window => do
    let t ← typeOf p input
    let (_, out) ← (window.slide Opcode.pool.name t.dims).mapRefusal .shape
    return {
      declarations := [{ type := ⟨.index, kind.cacheDims out⟩, name := "srcXY" },
        { type := ⟨.float32, out.dims⟩ }]
      request := .pool (p.fresh 1) input (p.fresh 0) kind window }
  | fullyConnected input depth => do
    let t ← typeOf p input
    let (batch, inner) ← (Attempt.ofExcept
      (Shape.flattenTail Opcode.fullyConnected.name t.dims)).mapRefusal .shape
    return {
      declarations := [
        ⟨⟨t.kind, [depth, inner]⟩, ⟨.xavier, .weight, .ofNat inner⟩, "weights"⟩,
        ⟨⟨t.kind, [depth]⟩, ⟨.broadcast, .weight, config.biasFill⟩, "bias"⟩,
        { type := ⟨t.kind, [batch, depth]⟩ }]
      request := .fullyConnected (p.fresh 2) input (p.fresh 0) (p.fresh 1) depth }
  | relu input => return into p (← typeOf p input) (.relu · input)
  | sigmoid input => return into p (← typeOf p input) (.sigmoid · input)
  | tanh input => return into p (← typeOf p input) (.tanh · input)
  | softmax input selected => do
    let _ ← typeOf p selected
    let t ← typeOf p input
    return {
      declarations := [{ type := t }, { type := t, name := "expected" }]
      request := .softmax (p.fresh 0) input (p.fresh 1) selected }
  | regression input expected => do
    let _ ← typeOf p expected
    return into p (← typeOf p input) (.regression · input expected)
  | reshape input dims => do
    let t ← typeOf p input
    (Attempt.ofExcept (Shape.checkReshape t.dims dims)).mapRefusal .shape
    return into p ⟨t.kind, dims⟩ (.reshape · input dims)
  | transpose input shuffle => do
    let t ← typeOf p input
    let dims ← (Attempt.ofExcept (Shape.transposeDims t.dims shuffle)).mapRefusal .shape
    return into p ⟨t.kind, dims⟩ (.transpose · input shuffle)
  | concat [] _ => Attempt.refuse (.shape .emptyConcat)
  | concat (first :: rest) axis => do
    let t ← typeOf p first
    let sources ← (first :: rest).mapM (typeOf p)
    let dims ← (Attempt.ofExcept
      (Shape.concatDims (sources.map (·.dims)) axis)).mapRefusal .shape
    return into p ⟨t.kind, dims⟩ (.concat · (first :: rest) axis)
  | batchNormalization input channel epsilon momentum => do
    let t ← typeOf p input
    let channels ← (Attempt.ofExcept (Shape.channelCount t.dims channel)).mapRefusal .shape
    let perChannel : TensorType := ⟨.float32, [channels]⟩
    return {
      declarations := [
        ⟨perChannel, ⟨.broadcast, .weight, config.betaFill⟩, "beta"⟩,
        ⟨perChannel, ⟨.broadcast, .weight, config.gammaFill⟩, "gamma"⟩,
        { type := perChannel, name := "mean" }, { type := perChannel, name := "variance" },
        { type := t }]
      request := .batchNormalization (p.fresh 4) input (p.fresh 1) (p.fresh 0) (p.fresh 2)
        (p.fresh 3) channel epsilon momentum }
  | arithmetic lhs rhs kind => do
    let lhsType ← typeOf p lhs
    let rhsType ← typeOf p rhs
    if lhsType = rhsType then return into p lhsType (.arithmetic · lhs rhs kind)
    else Attempt.refuse (.shape (.operandMismatch kind.name lhsType.text rhsType.text))

end Operator
end TensorIR
