import TensorIR.Proofs.Builder.Run

/-!
# TensorIR.Proofs.Builder.Permanence

What later calls cannot change. A program keeps its values, instructions and types at their
positions, and what verification has found out about it stays true.

* `verifyInstr_of_extends`: the report on one instruction, with its text, is the same in every
  larger program.
* `verify_error_of_extends`: a violation stays the first one.
* `verdicts_permanent`: both along every run.
-/

namespace TensorIR
namespace Program

variable {p q : Program}

theorem verifyInstr_of_extends (hp : p.WellFormed) (hq : p.Extends q) {id : InstrId}
    (hid : id.index < p.instrs.length) : q.verifyInstr id = p.verifyInstr id := by
  have hplaced := instr?_of_lt hid
  have hcheck : q.check p.instrs[id.index].instr = p.check p.instrs[id.index].instr :=
    check_of_extends hp hq (hp.hasOperands hplaced)
  simp only [verifyInstr, hplaced, hq.instr? hplaced, verifyAs, hcheck]

/-- Whatever is added stands behind the first violation. -/
theorem verify_error_of_extends (hp : p.WellFormed) (hq : q.WellFormed) (h : p.Extends q)
    {e : Abort VerifyError} (he : p.verify = .error e) : q.verify = .error e := by
  rw [verify_of_extends hp hq h, he, error_bind]

/-- After any further calls the values, instructions and types stand where they stood, the report on
every instruction is the same, and verification fails as it failed before. -/
theorem verdicts_permanent (hp : p.Reachable) (calls : List Call) :
    let q := p.after calls
    (p.values <+: q.values ∧ p.instrs <+: q.instrs ∧ p.types.types <+: q.types.types) ∧
    (∀ id : InstrId, id.index < p.instrs.length → q.verifyInstr id = p.verifyInstr id) ∧
    ∀ e, p.verify = .error e → q.verify = .error e := by
  intro q
  have hp := hp.wellFormed
  have hlarger : p.Extends q := extends_after calls hp
  refine ⟨⟨hlarger.values, hlarger.instrs, hlarger.types⟩, fun id hid => ?_, fun e he => ?_⟩
  · exact verifyInstr_of_extends hp hlarger hid
  · exact verify_error_of_extends hp (hp.after calls) hlarger he

/-- A value is written twice, and then a value of another type is declared, an operator fails and
another one succeeds. -/
theorem verdicts_permanent_secondWriter :
    let p := ({} : Program).after [⟨{}, .declare ⟨.float32, [2]⟩ {} "a"⟩,
      ⟨{}, .operator (.tanh ⟨0⟩)⟩, ⟨{ verifyOnBuild := false }, .request (.relu ⟨1⟩ ⟨0⟩)⟩]
    let calls : List Call := [⟨{}, .declare ⟨.int8, [3, 4]⟩ {} "a"⟩,
      ⟨{}, .operator (.concat [] 0)⟩, ⟨{}, .operator (.sigmoid ⟨1⟩)⟩]
    let e : Abort VerifyError := .refused ⟨⟨1⟩, .relu, .alreadyWritten ⟨1⟩ ⟨0⟩⟩
    p.Reachable ∧ p.verify = .error e ∧ (p.after calls).verify = .error e ∧
      (p.after calls).verifyInstr ⟨1⟩ = p.verifyInstr ⟨1⟩ := by
  intro p calls e
  have hp : p.Reachable := ⟨_, rfl⟩
  have he : p.verify = .error e := by decide
  obtain ⟨-, hinstr, hverify⟩ := verdicts_permanent hp calls
  exact ⟨hp, he, hverify e he, hinstr ⟨1⟩ (by decide)⟩

end Program
end TensorIR
