import TensorIR.Proofs.Builder.Run

/-!
# TensorIR.Proofs.Builder.Blame

Who is to blame if verification fails at the end of a run. Verdicts are final, and the instructions
of operators and verified requests get favourable ones, so that every other verdict is on an
instruction that was requested while programs were not verified.

* `verify_of_grows`: what one call adds to the outcome of verification.
* `verify_after_eq_error`: the same for a run.
* `verify_blames_unverified`: verification blames unverified requests only.
-/

namespace TensorIR

/-- Among the calls of a run is a request for `i` without verification, which appended it as the
instruction `id`. -/
def AppendedUnverified (entries : List (Call × Outcome)) (id : InstrId) (i : Instruction) : Prop :=
  ∃ config r, config.verifyOnBuild = false ∧ r.instruction = i ∧
    (⟨config, .request r⟩, .ok (.instr id)) ∈ entries

namespace Program

variable {p q : Program} {c : Call} {created : Created} {e : Abort VerifyError}

/-- The instruction of an operator does not change the outcome of verification. -/
theorem verify_carryOut (hp : p.WellFormed) {config : Config} {op : Operator} {plan : Plan}
    (h : op.plan config p = .ok plan) : (plan.carryOut p).verify = p.verify := by
  have hpermit := Operator.permit_plan hp h {}
  have hdeclared : (p.declareAll plan.declarations).WellFormed := .declareAll _ hp
  rw [Plan.carryOut, verify_append hdeclared plan.request.singleOutput
    (hasOperands_of_permit hpermit), admits_of_permit rfl hpermit,
    verify_of_instrs_eq hp hdeclared (extends_declareAll _ p) (instrs_declareAll _ p)]
  cases p.verify <;> rfl

/-- A call keeps the outcome of verification, unless it is a request without verification. -/
theorem verify_of_grows (hp : p.WellFormed) (h : p.Grows c created q) :
    q.verify = p.verify ∨ ∃ config r, c = ⟨config, .request r⟩ ∧ config.verifyOnBuild = false ∧
      created = .instr ⟨p.instrs.length⟩ ∧ q = (p.append r.instruction).2 ∧
      q.verify = (do p.verify; p.admits r.instruction) := by
  have hq := h.wellFormed hp
  have hlarger := h.larger
  cases h with
  | internType config t => exact .inl (verify_of_instrs_eq hp hq hlarger rfl)
  | declare config d => exact .inl (verify_of_instrs_eq hp hq hlarger rfl)
  | declareOf config ref d h => exact .inl (verify_of_instrs_eq hp hq hlarger rfl)
  | request config r h =>
    have hverify := verify_append hp r.singleOutput (hasOperands_of_permit h)
    cases hon : config.verifyOnBuild with
    | true =>
      rw [hverify, admits_of_permit hon h]
      cases p.verify <;> exact .inl rfl
    | false => exact .inr ⟨config, r, rfl, hon, rfl, rfl, hverify⟩
  | operator config op plan h => exact .inl (verify_carryOut hp h)

theorem verify_perform_eq_error (hp : p.WellFormed) (h : (p.perform c).2.verify = .error e) :
    p.verify = .error e ∨ ∃ config r, c = ⟨config, .request r⟩ ∧ config.verifyOnBuild = false ∧
      (p.perform c).1 = .ok (.instr ⟨p.instrs.length⟩) ∧
      (p.perform c).2 = (p.append r.instruction).2 ∧ p.admits r.instruction = .error e := by
  rcases perform_cases hp c with ⟨cause, hc⟩ | ⟨created, q, hc, hgrows⟩
  · rw [hc] at h
    exact .inl h
  · rw [hc] at h ⊢
    rcases verify_of_grows hp hgrows with hsame | ⟨config, r, hstep, hoff, hid, hq, hverify⟩
    · exact .inl (hsame ▸ h)
    · dsimp only at h
      rw [hverify] at h
      cases hp' : p.verify with
      | error cause =>
        rw [hp'] at h
        exact .inl h
      | ok _ =>
        rw [hp', ok_bind] at h
        exact .inr ⟨config, r, hstep, hoff, by rw [hid], hq, h⟩

/-- Verification at the end of a run fails as it did at the beginning, or because of a request
without verification. -/
theorem verify_after_eq_error (calls : List Call) :
    ∀ {p : Program}, p.WellFormed → (p.after calls).verify = .error e →
      p.verify = .error e ∨ ∃ id placed, (p.after calls).instr? id = some placed ∧
        AppendedUnverified (p.trace calls) id placed.instr ∧
        ∀ cause, e = .refused cause → cause.instr = id := by
  intro p hp h
  rcases exists_call_of_after (P := fun q => q.verify = .error e) calls hp h with
    h | ⟨q, c, hq, hmem, hbefore, hfail, hlarger⟩
  · exact .inl h
  · obtain ⟨config, r, rfl, hoff, hid, hnext, hadmits⟩ :=
      (verify_perform_eq_error hq hfail).resolve_left hbefore
    have hlast : (q.append r.instruction).2.instr? ⟨q.instrs.length⟩ =
        some ⟨r.instruction, ⟨q.values.length⟩⟩ := by
      simp [append, instr?]
    refine .inr ⟨_, _, hlarger.instr? (hnext ▸ hlast), ?_, ?_⟩
    · exact ⟨config, r, hoff, rfl, hid ▸ hmem⟩
    · intro cause he
      exact instr_of_admits (he ▸ hadmits)

/-- If verification fails at the end of a run, it names an instruction that was requested without
verification; a run without such requests ends in a program that is verified. -/
theorem verify_blames_unverified (calls : List Call) :
    (∀ e, (({} : Program).after calls).verify = .error (.refused e) →
      ∃ placed, (({} : Program).after calls).instr? e.instr = some placed ∧
        AppendedUnverified (({} : Program).trace calls) e.instr placed.instr) ∧
    ((∀ id i, ¬ AppendedUnverified (({} : Program).trace calls) id i) →
      (({} : Program).after calls).verify = .ok ()) := by
  have hblame {e} := verify_after_eq_error (e := e) calls WellFormed.empty
  constructor
  · intro e h
    rcases hblame h with h | ⟨id, placed, hinstr, hreq, hcause⟩
    · cases h
    · rw [hcause e rfl]
      exact ⟨placed, hinstr, hreq⟩
  · intro hnone
    cases h : (({} : Program).after calls).verify with
    | ok _ => rfl
    | error e =>
      rcases hblame h with h | ⟨id, placed, -, hreq, -⟩
      · cases h
      · exact absurd hreq (hnone id placed.instr)

/-- A copy between values of different types, requested without verification. -/
def mismatchedCopy : List Call := [
  ⟨{}, .declare ⟨.float32, [1]⟩ {} "a"⟩,
  ⟨{}, .declare ⟨.float32, [2]⟩ {} "b"⟩,
  ⟨{ verifyOnBuild := false }, .request (.copy ⟨0⟩ ⟨1⟩)⟩]

theorem verify_blames_mismatchedCopy :
    (({} : Program).after mismatchedCopy).verify =
        .error (.refused ⟨⟨0⟩, .copy, .typesDiffer 0 1⟩) ∧
      ∃ placed, (({} : Program).after mismatchedCopy).instr? ⟨0⟩ = some placed ∧
        AppendedUnverified (({} : Program).trace mismatchedCopy) ⟨0⟩ placed.instr := by
  have h : (({} : Program).after mismatchedCopy).verify =
      .error (.refused ⟨⟨0⟩, .copy, .typesDiffer 0 1⟩) := by decide
  exact ⟨h, (verify_blames_unverified mismatchedCopy).1 _ h⟩

end Program
end TensorIR
