import TensorIR.Builder.Request
import TensorIR.Proofs.Program.Verdict

/-!
# TensorIR.Proofs.Builder.Admission

When a requested instruction becomes part of a program.

* `Request.dest`, `Request.singleOutput`: every request writes its destination and nothing else in
  the role `output`.
* `Program.permit`: what is asked of an instruction before it is appended. The operands must exist;
  verification, where it is on, comes after that.
* `append_run`: an instruction is appended exactly if it is permitted, and a refusal leaves the
  program as it was.
* `checkSingleWriter_of_unwritten`, `checkSingleWriter_fresh`: a value that no instruction writes
  yet may be written, and so may one that no instruction knows yet.
-/

namespace TensorIR

/-! ## Requests -/

def Request.dest : Request → ValueId
  | copy dest _ | convolution dest .. | pool dest .. | fullyConnected dest .. | relu dest _
  | sigmoid dest _ | tanh dest _ | softmax dest .. | regression dest .. | reshape dest ..
  | transpose dest .. | concat dest .. | batchNormalization dest .. | arithmetic dest .. => dest

theorem Request.singleOutput (r : Request) : r.instruction.SingleOutput r.dest := by
  cases r with
  | concat dest srcs axis =>
    refine ⟨srcs.map .input, rfl, fun o ho => ?_⟩
    obtain ⟨v, -, rfl⟩ := List.mem_map.1 ho
    simp [Operand.input]
  | _ => exact ⟨_, rfl, by simp [Operand.input, Operand.inout]⟩

theorem Request.dest_eq {r : Request} {dest : ValueId} {rest : List Operand}
    (h : r.instruction.operands = .output dest :: rest) : r.dest = dest := by
  obtain ⟨inputs, hops, -⟩ := r.singleOutput
  rw [hops] at h
  cases h
  rfl

namespace Program

variable {p : Program} {i : Instruction}

/-! ## Permission -/

/-- What is asked of an instruction before it is appended: the operands exist and, if programs are
verified on the way, the program admits the instruction. -/
def permit (p : Program) (config : Config) (i : Instruction) : Attempt ProgramError Unit :=
  match i.operands.find? (fun operand => (p.value? operand.value).isNone) with
  | some operand => Attempt.refuse (.unknownValue operand.value)
  | none =>
    if config.verifyOnBuild then (p.admits i).mapRefusal .verification else .ok ()

theorem hasOperands_iff : p.HasOperands i ↔
    i.operands.find? (fun operand => (p.value? operand.value).isNone) = none := by
  simp [HasOperands, value?]

theorem permit_of_hasOperands (config : Config) (ho : p.HasOperands i) :
    p.permit config i =
      if config.verifyOnBuild then (p.admits i).mapRefusal .verification else .ok () := by
  rw [permit, hasOperands_iff.1 ho]

theorem hasOperands_of_permit {config : Config} (h : p.permit config i = .ok ()) :
    p.HasOperands i := by
  rw [hasOperands_iff]
  cases hfind : i.operands.find? (fun operand => (p.value? operand.value).isNone) with
  | none => rfl
  | some o => rw [permit, hfind] at h; cases h

theorem admits_of_permit {config : Config} (hon : config.verifyOnBuild = true)
    (h : p.permit config i = .ok ()) : p.admits i = .ok () := by
  rw [permit_of_hasOperands config (hasOperands_of_permit h), if_pos hon] at h
  exact Attempt.mapRefusal_eq_ok.1 h

/-- An instruction that is not admitted is named by the position it would have had. -/
theorem instr_of_admits {e : VerifyError} (h : p.admits i = .error (.refused e)) :
    e.instr = ⟨p.instrs.length⟩ := by
  simp only [admits, verifyAs, blaming, checkSingleWriter] at h
  cases hcheck : p.check i with
  | error cause =>
    rw [hcheck] at h
    cases cause <;> cases h
    rfl
  | ok _ =>
    rw [hcheck, Attempt.mapRefusal_ok, ok_bind] at h
    split at h <;> cases h
    rfl

end Program

namespace Build

theorem append_run (config : Config) (p : Program) (i : Instruction) :
    (append config i).run p =
      match p.permit config i with
      | .ok _ => .ok ⟨p.instrs.length⟩ (p.append i).2
      | .error e => .error e p := by
  unfold append requireOperands Program.permit
  cases hfind : i.operands.find? (fun operand => (p.value? operand.value).isNone) with
  | some o => simp [hfind, refuse, Attempt.refuse]
  | none =>
    cases hverify : config.verifyOnBuild with
    | false => simp [hfind]; rfl
    | true =>
      cases h : (p.admits i).mapRefusal ProgramError.verification with
      | ok _ => simp [hfind, h, ofAttempt]; rfl
      | error e => simp [hfind, h, ofAttempt]

end Build

namespace Program

variable {p q : Program}

/-! ## Unwritten destinations -/

theorem checkSingleWriter_of_unwritten (r : Request)
    (h : ∀ placed ∈ p.instrs, r.dest ∉ placed.instr.outputs) (id : InstrId) :
    p.checkSingleWriter id r.instruction = .ok () := by
  rw [checkSingleWriter_eq_ok_iff, r.singleOutput.outputs_eq]
  simpa using h

/-- A destination that is newer than all instructions has no writer. -/
theorem checkSingleWriter_fresh (hp : p.WellFormed) (hinstrs : q.instrs = p.instrs) (r : Request)
    (hdest : p.values.length ≤ r.dest.index) (id : InstrId) :
    q.checkSingleWriter id r.instruction = .ok () := by
  refine checkSingleWriter_of_unwritten r (fun placed hplaced hwrites => ?_) id
  rw [hinstrs] at hplaced
  obtain ⟨index, h⟩ := List.mem_iff_getElem?.1 hplaced
  have h : p.instr? ⟨index⟩ = some placed := h
  obtain ⟨dest, -, hout, -, -⟩ := (hp.placed _ placed h).result
  have hlt : dest.index < p.values.length := hp.hasOperands h _ hout.mem_operands
  rw [hout.outputs_eq, List.mem_singleton] at hwrites
  rw [hwrites] at hdest
  omega

end Program
end TensorIR
