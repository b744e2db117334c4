import TensorIR.Builder.Basic
import TensorIR.Proofs.Attempt
import TensorIR.Proofs.Program.WellFormed

/-!
# TensorIR.Proofs.Program.Verdict

Verification as a sequence of verdicts. The verdict on an instruction asks whether it fits its kind
and writes no value that an instruction before it writes; it depends on what stood in the program
when the instruction was placed, and on nothing that came later.

* `Program.verdict`: the verdict on an instruction at a position, which for the next position is
  the rule for admission (`admits_eq_verdict`).
* `check_of_extends`, `verdict_of_extends`: verdicts are final.
* `verify_eq_verdicts`: the pass with a table of writers reports the first verdict that is not
  favourable, and never complains about a result.
* `verdict_of_verify`, `check_of_verify`: what holds of each instruction of a verified program.
* `verify_of_extends`, `verify_append`: to verify a larger program is to verify the smaller one and
  then to judge what was added.
-/

namespace TensorIR
namespace Program

variable {p q : Program} {i : Instruction}

/-! ## Stability of one check -/

theorem WellFormed.typeOf?_of_lt (hp : p.WellFormed) {id : ValueId}
    (h : id.index < p.values.length) : ∃ t, p.typeOf? id = some t := by
  obtain ⟨ref, t, href, ht⟩ := hp.type?_of_lt h
  exact ⟨t, by simp [typeOf?, href, ht]⟩

theorem operandType_eq {index : Nat} {o : Operand} {ref : TypeRef}
    (h : i.operand? index = some o) (href : p.typeRef? o.value = some ref) :
    p.operandType i index = .ok ref := by
  simp [operandType, operandValue, h, href]
  rfl

theorem operandType_of_missingOperand {index : Nat} (h : i.operand? index = none) :
    p.operandType i index = .error (.refused (.missingOperand index)) := by
  simp [operandType, operandValue, h, Attempt.refuse]

theorem operandType_of_missingValue {index : Nat} {o : Operand} (h : i.operand? index = some o)
    (hv : p.value? o.value = none) :
    p.operandType i index = .error (.refused (.missingValue index o.value)) := by
  simp [operandType, operandValue, h, typeRef?, hv, Attempt.refuse]

theorem operandDims_eq {index : Nat} {o : Operand} {dims : List Nat}
    (h : i.operand? index = some o) (hdims : p.dims? o.value = some dims) :
    p.operandDims i index = .ok dims := by
  simp [operandDims, operandValue, h, hdims]
  rfl

theorem operandType_of_extends (hp : p.WellFormed) (hq : p.Extends q) (ho : p.HasOperands i)
    (index : Nat) : q.operandType i index = p.operandType i index := by
  cases h : i.operand? index with
  | none => rw [operandType_of_missingOperand h, operandType_of_missingOperand h]
  | some o =>
    obtain ⟨ref, t, href, -⟩ := hp.type?_of_lt (ho o (List.mem_of_getElem? h))
    rw [operandType_eq h href, operandType_eq h (hq.typeRef? href)]

theorem operandDims_of_extends (hp : p.WellFormed) (hq : p.Extends q) (ho : p.HasOperands i)
    (index : Nat) : q.operandDims i index = p.operandDims i index := by
  cases h : i.operand? index with
  | none => simp only [operandDims, operandValue, h]; rfl
  | some o =>
    obtain ⟨t, ht⟩ := hp.typeOf?_of_lt (ho o (List.mem_of_getElem? h))
    have hdims : p.dims? o.value = some t.dims := by simp [dims?, ht]
    rw [operandDims_eq h hdims, operandDims_eq h (hq.dims? hdims)]

/-- What is added later does not change whether an instruction fits its kind. -/
theorem check_of_extends (hp : p.WellFormed) (hq : p.Extends q) (ho : p.HasOperands i) :
    q.check i = p.check i := by
  have ht : q.operandType i = p.operandType i := funext (operandType_of_extends hp hq ho)
  have hd : q.operandDims i = p.operandDims i := funext (operandDims_of_extends hp hq ho)
  simp only [check, checkOperands, requireSameType, requireDims, ht, hd]

/-! ## Verdicts -/

/-- The program with its first `n` instructions only. -/
def upTo (p : Program) (n : Nat) : Program := { p with instrs := p.instrs.take n }

theorem mem_upTo_iff {n : Nat} {placed : Placed} :
    placed ∈ (p.upTo n).instrs ↔ ∃ j : InstrId, j.index < n ∧ p.instr? j = some placed := by
  rw [upTo, List.mem_iff_getElem?]
  constructor
  · rintro ⟨index, h⟩
    rw [List.getElem?_take, Option.ite_none_right_eq_some] at h
    exact ⟨⟨index⟩, h⟩
  · rintro ⟨j, hj⟩
    refine ⟨j.index, ?_⟩
    rw [List.getElem?_take, Option.ite_none_right_eq_some]
    exact hj

/-- An instruction at a position fits its kind, and no instruction before it writes what it
writes. -/
def verdict (p : Program) (id : InstrId) (i : Instruction) : Attempt VerifyError Unit := do
  p.verifyAs id i
  Attempt.ofExcept ((p.upTo id.index).checkSingleWriter id i)

/-- The verdicts on instructions that stand from position `index` on, up to the first that is not
favourable. -/
def verdicts (p : Program) (instrs : List Placed) (index : Nat) : Attempt VerifyError Unit :=
  forM (instrs.zipIdx index) fun (placed, index) => p.verdict ⟨index⟩ placed.instr

theorem checkSingleWriter_congr (h : p.instrs = q.instrs) (id : InstrId) (i : Instruction) :
    p.checkSingleWriter id i = q.checkSingleWriter id i := by
  simp only [checkSingleWriter, firstWriter?, h]

/-- No value that the instruction writes is written in the program. -/
theorem checkSingleWriter_eq_ok_iff {id : InstrId} : p.checkSingleWriter id i = .ok () ↔
    ∀ v ∈ i.outputs, ∀ placed ∈ p.instrs, v ∉ placed.instr.outputs := by
  have hnone : (∀ v ∈ i.outputs, ∀ placed ∈ p.instrs, v ∉ placed.instr.outputs) ↔
      i.outputs.findSome? (fun v => (p.firstWriter? v).map (v, ·)) = none := by
    simp [firstWriter?]
  rw [hnone, checkSingleWriter]
  cases i.outputs.findSome? (fun v => (p.firstWriter? v).map (v, ·)) with
  | none => exact iff_of_true rfl rfl
  | some found => exact iff_of_false nofun nofun

theorem admits_eq_verdict (p : Program) (i : Instruction) :
    p.admits i = p.verdict ⟨p.instrs.length⟩ i := by
  simp [admits, verdict, upTo]

/-- What is added later does not change the verdict on an instruction. -/
theorem verdict_of_extends (hp : p.WellFormed) (hq : p.Extends q) (ho : p.HasOperands i)
    {id : InstrId} (hid : id.index ≤ p.instrs.length) : q.verdict id i = p.verdict id i := by
  have hinstrs : (q.upTo id.index).instrs = (p.upTo id.index).instrs := by
    obtain ⟨added, h⟩ := hq.instrs
    simp only [upTo, ← h]
    exact List.take_append_of_le_length hid
  simp only [verdict, verifyAs, check_of_extends hp hq ho, checkSingleWriter_congr hinstrs]

@[simp] theorem verdicts_nil (p : Program) (index : Nat) : p.verdicts [] index = pure () := rfl

theorem verdicts_cons (p : Program) (placed : Placed) (rest : List Placed) (index : Nat) :
    p.verdicts (placed :: rest) index =
      (do p.verdict ⟨index⟩ placed.instr; p.verdicts rest (index + 1)) := rfl

theorem verdicts_append (p : Program) (first last : List Placed) (index : Nat) :
    p.verdicts (first ++ last) index =
      (do p.verdicts first index; p.verdicts last (index + first.length)) := by
  simp [verdicts, List.zipIdx_append]

theorem verdicts_of_extends (hp : p.WellFormed) (hq : p.Extends q) :
    q.verdicts p.instrs 0 = p.verdicts p.instrs 0 := by
  refine forM_congr fun (placed, index) hmem => ?_
  have h : p.instr? ⟨index⟩ = some placed := List.mem_zipIdx_iff_getElem?.1 hmem
  have hlt : index < p.instrs.length := lt_of_instr? h
  exact verdict_of_extends hp hq (hp.hasOperands h) (Nat.le_of_lt hlt)

/-! ## The whole program -/

theorem WellFormed.checkResult_eq (hp : p.WellFormed) {id : InstrId} {placed : Placed}
    (h : p.instr? id = some placed) : p.checkResult id placed = .ok () := by
  obtain ⟨dest, type, hdest, href, hresult⟩ := (hp.placed id placed h).result
  simp [checkResult, hresult, Value.producer?, hdest.dest?_eq, href]

theorem upTo_succ {index : Nat} {placed : Placed} (h : p.instr? ⟨index⟩ = some placed) :
    (p.upTo (index + 1)).instrs = (p.upTo index).instrs ++ [placed] := by
  simp only [upTo, List.take_add_one]
  rw [show p.instrs[index]? = some placed from h]
  rfl

theorem firstWriter?_upTo_succ {index : Nat} {placed : Placed} {dest : ValueId}
    (h : p.instr? ⟨index⟩ = some placed) (hdest : placed.instr.SingleOutput dest) (v : ValueId) :
    (p.upTo (index + 1)).firstWriter? v =
      ((p.upTo index).firstWriter? v).or (if v = dest then some ⟨index⟩ else none) := by
  have hlt : index < p.instrs.length := lt_of_instr? h
  have hlen : (p.upTo index).instrs.length = index := by simp [upTo]; omega
  simp only [firstWriter?, upTo_succ h, List.findIdx?_append, hlen, Option.map_or]
  congr 1
  by_cases hv : v = dest <;> simp [hdest.outputs_eq, hv]

/-- The pass with a table of writers reports the first unfavourable verdict. The table holds the
first writer of every value that an instruction before position `index` writes. -/
theorem verifyFrom_eq_verdicts (hp : p.WellFormed) (rest : List Placed) :
    ∀ (index : Nat) (writers : Writers), p.instrs.drop index = rest →
      (∀ v, writers.lookup v = (p.upTo index).firstWriter? v) →
      p.verifyFrom writers index rest = p.verdicts rest index := by
  induction rest with
  | nil => intro index writers _ _; rfl
  | cons placed rest ih =>
    intro index writers hrest hwriters
    have h : p.instr? ⟨index⟩ = some placed := by
      show p.instrs[index]? = some placed
      rw [← List.head?_drop, hrest]
      rfl
    have htail : p.instrs.drop (index + 1) = rest := by
      rw [← List.tail_drop, hrest]
      rfl
    obtain ⟨dest, -, hdest, -, -⟩ := (hp.placed _ placed h).result
    rw [verdicts_cons]
    simp only [verifyFrom, verdict, checkPlaced, hp.checkResult_eq h, checkSingleWriter,
      hdest.outputs_eq, List.findSome?_singleton, recordWriters]
    cases hfit : p.verifyAs ⟨index⟩ placed.instr with
    | error e => rfl
    | ok _ =>
      cases hw : writers.lookup dest with
      | some writer =>
        rw [← hwriters dest, hw]
        rfl
      | none =>
        rw [← hwriters dest, hw]
        refine ih (index + 1) ((dest, ⟨index⟩) :: writers) htail fun v => ?_
        rw [firstWriter?_upTo_succ h hdest, ← hwriters v, List.lookup_cons]
        by_cases hv : v = dest
        · subst hv; simp [hw]
        · simp [hv, beq_false_of_ne hv]

theorem verify_eq_verdicts (hp : p.WellFormed) : p.verify = p.verdicts p.instrs 0 :=
  verifyFrom_eq_verdicts hp p.instrs 0 [] rfl fun v => by simp [upTo, firstWriter?]

/-- In a verified program every verdict is favourable. -/
theorem verdict_of_verify (hp : p.WellFormed) (hv : p.verify = .ok ()) {id : InstrId}
    {placed : Placed} (h : p.instr? id = some placed) : p.verdict id placed.instr = .ok () := by
  rw [verify_eq_verdicts hp] at hv
  have hmem : (placed, id.index) ∈ p.instrs.zipIdx := List.mk_mem_zipIdx_iff_getElem?.2 h
  exact forM_eq_ok_iff.1 hv _ hmem

theorem check_of_verify (hp : p.WellFormed) (hv : p.verify = .ok ()) {id : InstrId}
    {placed : Placed} (h : p.instr? id = some placed) : p.check placed.instr = .ok () := by
  obtain ⟨_, hfits, -⟩ := bind_eq_ok.1 (verdict_of_verify hp hv h)
  exact Attempt.mapRefusal_eq_ok.1 hfits

/-- To verify a larger program is to verify the smaller one and then to judge what was added. -/
theorem verify_of_extends (hp : p.WellFormed) (hq : q.WellFormed) (h : p.Extends q) :
    q.verify =
      (do p.verify; q.verdicts (q.instrs.drop p.instrs.length) p.instrs.length) := by
  have hinstrs : q.instrs = p.instrs ++ q.instrs.drop p.instrs.length := by
    obtain ⟨added, heq⟩ := h.instrs
    rw [← heq, List.drop_left]
  rw [verify_eq_verdicts hq, verify_eq_verdicts hp]
  conv => lhs; rw [hinstrs]
  rw [verdicts_append, verdicts_of_extends hp h, Nat.zero_add]

/-- A new instruction adds the verdict that its admission asks for. -/
theorem verify_append {dest : ValueId} (hp : p.WellFormed) (hi : i.SingleOutput dest)
    (ho : p.HasOperands i) : (p.append i).2.verify = (do p.verify; p.admits i) := by
  have hlast : (p.append i).2.instrs.drop p.instrs.length = [⟨i, ⟨p.values.length⟩⟩] := by
    simp [append]
  rw [verify_of_extends hp (hp.append hi ho) (extends_append p i), hlast, verdicts_cons,
    verdict_of_extends hp (extends_append p i) ho (Nat.le_refl _), admits_eq_verdict]
  simp

/-- New types and variables change nothing. -/
theorem verify_of_instrs_eq (hp : p.WellFormed) (hq : q.WellFormed) (h : p.Extends q)
    (hinstrs : q.instrs = p.instrs) : q.verify = p.verify := by
  rw [verify_of_extends hp hq h, hinstrs, List.drop_length]
  simp

end Program
end TensorIR
