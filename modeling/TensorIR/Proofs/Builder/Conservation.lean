import Mathlib.Algebra.GroupWithZero.Nat
import TensorIR.Proofs.Builder.Run
import TensorIR.Proofs.Program.Typing

/-!
# TensorIR.Proofs.Builder.Conservation

Verified instructions that move elements, or compute them one by one, lose none and make up none.

* `TypeEnv.elements?`: the number of elements of a value, over unbounded numbers.
* `Conserves`: what is kept, by the operation of an instruction.
* `conserves_of_wellTyped`: the typing rules have it so, one lemma for each thing kept.
* `verified_conserves`: it holds of all instructions of a verified program, however they got there.
-/

namespace TensorIR

/-- The number of elements of a value: the product of its dimensions, which is no machine size in
general. -/
def TypeEnv.elements? (env : TypeEnv) (v : ValueId) : Option Nat := (env v).map (·.dims.prod)

/-- The operations whose destination has as many elements as their source. -/
def Opcode.conserving : List Opcode :=
  [.copy, .relu, .sigmoid, .tanh, .softmax, .regression, .reshape, .transpose, .batchNormalization,
    .arithmetic]

/-- The destination of an instruction, operand 0, has as many elements as its source, operand 1. -/
def KeepsCount (env : TypeEnv) (i : Instruction) : Prop :=
  ∃ (dest src : ValueId) (count : Nat), i.operand? 0 = some (.output dest) ∧
    i.operand? 1 = some (.input src) ∧ env.elements? dest = some count ∧
    env.elements? src = some count

/-- The destination of an instruction has as many elements as all other operands together. -/
def AddsCounts (env : TypeEnv) (i : Instruction) : Prop :=
  ∃ (dest : ValueId) (srcs : List ValueId) (counts : List Nat),
    i.operands = .output dest :: srcs.map .input ∧ srcs.map env.elements? = counts.map some ∧
    env.elements? dest = some counts.sum

/-- The number of elements of a value is a machine size, and to count them meets no fault. -/
def TypeEnv.Countable (env : TypeEnv) (v : ValueId) : Prop :=
  ∃ t, env v = some t ∧ t.dims.prod < Size.limit ∧ t.numElements = .ok t.dims.prod

/-- What an instruction keeps, by its operation. -/
structure Conserves (env : TypeEnv) (i : Instruction) : Prop where
  count : i.opcode ∈ Opcode.conserving → KeepsCount env i
  concat : i.opcode = .concat → AddsCounts env i
  reshape : i.opcode = .reshape → ∀ o ∈ i.operands, env.Countable o.value

variable {env : TypeEnv} {i : Instruction}

theorem TypeEnv.HasDims.elements? {v : ValueId} {dims : List Nat} (h : env.HasDims v dims) :
    env.elements? v = some dims.prod := by
  obtain ⟨kind, h⟩ := h
  rw [TypeEnv.elements?, h]
  rfl

/-- Values of one type have as many elements. -/
theorem TypeEnv.SameType.elements? {a b : ValueId} (h : env.SameType a b) :
    ∃ count, env.elements? a = some count ∧ env.elements? b = some count := by
  obtain ⟨t, ha, hb⟩ := h
  exact ⟨t.dims.prod, by rw [TypeEnv.elements?, ha]; rfl, by rw [TypeEnv.elements?, hb]; rfl⟩

theorem opcode_of_elementwise {kind : InstrKind} {op : Opcode}
    (h : kind ∈ [.copy, .relu, .sigmoid, .tanh]) (hop : kind.opcode = op) :
    op ∈ [Opcode.copy, .relu, .sigmoid, .tanh] :=
  hop ▸ List.mem_map_of_mem (f := InstrKind.opcode) h

theorem WellTyped.keepsCount (h : WellTyped env i) (hop : i.opcode ∈ Opcode.conserving) :
    KeepsCount env i := by
  cases h with
  | elementwise _ hsame | softmax hsame | regression hsame =>
    obtain ⟨count, hdest, hsrc⟩ := hsame.elements?
    exact ⟨_, _, count, rfl, rfl, hdest, hsrc⟩
  | reshape hsrc hdest hsource htarget =>
    exact ⟨_, _, _, rfl, rfl, htarget.product ▸ hdest.elements?, hsource.product ▸ hsrc.elements?⟩
  | transpose hsrc hdest hshuffle hplaces =>
    have hprod := (Shape.perm_of_places hshuffle hplaces).prod_eq
    exact ⟨_, _, _, rfl, rfl, hprod ▸ hdest.elements?, hsrc.elements?⟩
  | batchNormalization hdest hsrc =>
    obtain ⟨count, hdest, hsrc⟩ := TypeEnv.SameType.elements? ⟨_, hdest, hsrc⟩
    exact ⟨_, _, count, rfl, rfl, hdest, hsrc⟩
  | arithmetic hdest hlhs =>
    obtain ⟨count, hdest, hsrc⟩ := TypeEnv.SameType.elements? ⟨_, hdest, hlhs⟩
    exact ⟨_, _, count, rfl, rfl, hdest, hsrc⟩
  | convolution | maxPool | avgPool | fullyConnected | concat =>
    simp [Instruction.opcode, InstrKind.opcode, Opcode.conserving] at hop

/-- Equal sources put behind one another along an axis: their counts add up. -/
theorem WellTyped.addsCounts (h : WellTyped env i) (hop : i.opcode = .concat) :
    AddsCounts env i := by
  cases h with
  | @concat dest srcs axis extent source _ hsrcs haxis _ hdest =>
    refine ⟨dest, srcs, List.replicate srcs.length source.prod, rfl, ?_, ?_⟩
    · rw [List.map_replicate, ← List.map_const']
      exact List.map_congr_left fun src hsrc => (hsrcs src hsrc).elements?
    · rw [List.sum_replicate_nat, Nat.mul_comm, ← Shape.prod_set_mul source _ haxis]
      exact hdest.elements?
  | elementwise hkind => exact absurd (opcode_of_elementwise hkind hop) (by decide)
  | _ => cases hop

theorem TypeEnv.HasDims.countable {v : ValueId} {dims : List Nat} {count : Nat}
    (h : env.HasDims v dims) (hcount : Shape.Counts dims count) : env.Countable v := by
  obtain ⟨kind, ht⟩ := h
  obtain rfl := hcount.product
  exact ⟨_, ht, hcount.lt_limit, numElements_eq_ok_iff.2 hcount⟩

theorem WellTyped.countable (h : WellTyped env i) (hop : i.opcode = .reshape) :
    ∀ o ∈ i.operands, env.Countable o.value := by
  cases h with
  | reshape hsrc hdest hsource htarget =>
    simp only [List.forall_mem_cons, List.not_mem_nil, false_imp_iff, implies_true, and_true]
    exact ⟨hdest.countable htarget, hsrc.countable hsource⟩
  | elementwise hkind => exact absurd (opcode_of_elementwise hkind hop) (by decide)
  | _ => cases hop

theorem conserves_of_wellTyped (h : WellTyped env i) : Conserves env i :=
  ⟨h.keepsCount, h.addsCounts, h.countable⟩

namespace Program

variable {p : Program}

/-- In a verified program every instruction keeps the number of elements, whether it was verified
when it was placed or not. -/
theorem verified_conserves (hp : p.Reachable) (hv : p.verify = .ok ()) {id : InstrId}
    {placed : Placed} (h : p.instr? id = some placed) : Conserves p.typeEnv placed.instr := by
  have hcheck := check_of_verify hp.wellFormed hv h
  exact conserves_of_wellTyped (wellTyped_of_check hp.wellFormed hcheck)

/-- Empty tensors, where the later dimensions may be large, and a `concat` of one of them with
itself. -/
theorem verified_conserves_empty :
    let p := ({} : Program).after [⟨{}, .declare ⟨.float32, [2, 0, 3]⟩ {} "src"⟩,
      ⟨{}, .declare ⟨.float32, [0, 0x8000000000000000, 2]⟩ {} "dest"⟩,
      ⟨{ verifyOnBuild := false }, .request (.reshape ⟨1⟩ ⟨0⟩ [])⟩,
      ⟨{}, .operator (.concat [⟨0⟩, ⟨0⟩] 2)⟩]
    let reshape := (Request.reshape ⟨1⟩ ⟨0⟩ []).instruction
    let concat := (Request.concat ⟨3⟩ [⟨0⟩, ⟨0⟩] 2).instruction
    p.Reachable ∧ p.verify = .ok () ∧ p.instr? ⟨0⟩ = some ⟨reshape, ⟨2⟩⟩ ∧
      p.instr? ⟨1⟩ = some ⟨concat, ⟨4⟩⟩ ∧ Conserves p.typeEnv reshape ∧
      Conserves p.typeEnv concat := by
  intro p reshape concat
  have hp : p.Reachable := ⟨_, rfl⟩
  have hv : p.verify = .ok () := by decide
  have hreshape : p.instr? ⟨0⟩ = some ⟨reshape, ⟨2⟩⟩ := by decide
  have hconcat : p.instr? ⟨1⟩ = some ⟨concat, ⟨4⟩⟩ := by decide
  exact ⟨hp, hv, hreshape, hconcat, verified_conserves hp hv hreshape,
    verified_conserves hp hv hconcat⟩

end Program
end TensorIR
