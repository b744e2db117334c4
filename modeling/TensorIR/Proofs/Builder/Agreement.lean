import TensorIR.Proofs.Builder.Run

/-!
# TensorIR.Proofs.Builder.Agreement

What the setting `verifyOnBuild` changes. For a request it brings verification forward: the outcome
is the one that verification of the longer program would have. For an operator it changes nothing.

* `perform_request_cases`: a request on a verified program with and without verification.
* `verified_request_iff`: when a verified request is refused, faults, succeeds, or lacks an operand.
* `operator_ignores_verification`: operators never meet a verdict, verified or not.
-/

namespace TensorIR
namespace Program

variable {p : Program}

/-! ## Requests -/

/-- The first operand of an instruction that does not exist. -/
def missing? (p : Program) (i : Instruction) : Option ValueId :=
  (i.operands.find? fun operand => (p.value? operand.value).isNone).map (·.value)

theorem permit_of_missing? {i : Instruction} {v : ValueId} (h : p.missing? i = some v)
    (config : Config) : p.permit config i = .error (.refused (.unknownValue v)) := by
  obtain ⟨operand, hfind, rfl⟩ := Option.map_eq_some_iff.1 h
  rw [permit, hfind]
  rfl

theorem hasOperands_of_missing? {i : Instruction} (h : p.missing? i = none) : p.HasOperands i := by
  rw [hasOperands_iff]
  exact Option.map_eq_none_iff.1 h

/-- A request on a verified program lacks an operand, or it leads to a verified program with and
without verification, or verification refuses beforehand what it would refuse afterwards. -/
theorem perform_request_cases (hp : p.WellFormed) (hv : p.verify = .ok ()) (config : Config)
    (r : Request) :
    let checked := p.perform ⟨{ config with verifyOnBuild := true }, .request r⟩
    let unchecked := p.perform ⟨{ config with verifyOnBuild := false }, .request r⟩
    let id : InstrId := ⟨p.instrs.length⟩
    let q := (p.append r.instruction).2
    (∃ v, p.missing? r.instruction = some v ∧
      checked = (.error (.refused (.unknownValue v)), p) ∧
      unchecked = (.error (.refused (.unknownValue v)), p)) ∨
    (p.missing? r.instruction = none ∧ unchecked = (.ok (.instr id), q) ∧
      (q.verify = .ok () ∧ checked = (.ok (.instr id), q) ∨
        ∃ e, q.verify = .error e ∧ checked = (.error (e.map .verification), p))) := by
  intro checked unchecked id q
  have hon : checked = _ := perform_request p _ r
  have hoff : unchecked = _ := perform_request p _ r
  rw [hon, hoff]
  cases hmissing : p.missing? r.instruction with
  | some v =>
    rw [permit_of_missing? hmissing, permit_of_missing? hmissing]
    exact .inl ⟨v, rfl, rfl, rfl⟩
  | none =>
    -- Verification of the longer program comes down to the admission of the new instruction.
    have ho := hasOperands_of_missing? hmissing
    have hverify : q.verify = _ := verify_append hp r.singleOutput ho
    rw [hv, ok_bind] at hverify
    rw [permit_of_hasOperands _ ho, permit_of_hasOperands _ ho, hverify]
    refine .inr ⟨rfl, rfl, ?_⟩
    cases p.admits r.instruction with
    | ok _ => exact .inl ⟨rfl, rfl⟩
    | error e => exact .inr ⟨e, rfl, rfl⟩

/-- On a verified program, a verified request meets the verdict that verification finds after the
same request without verification; it faults where verification faults; it succeeds if the program
without verification is verified, and then leads to that program; and with or without verification
the first missing operand is refused. -/
theorem verified_request_iff (hp : p.Reachable) (hv : p.verify = .ok ()) (config : Config)
    (r : Request) :
    let checked := p.perform ⟨{ config with verifyOnBuild := true }, .request r⟩
    let unchecked := p.perform ⟨{ config with verifyOnBuild := false }, .request r⟩
    (∀ e, checked.1 = .error (.refused (.verification e)) ↔
      (∃ id, unchecked = (.ok (.instr id), (p.append r.instruction).2)) ∧
        unchecked.2.verify = .error (.refused e)) ∧
    (∀ f, checked.1 = .error (.fault f) ↔
      (∃ id, unchecked = (.ok (.instr id), (p.append r.instruction).2)) ∧
        unchecked.2.verify = .error (.fault f)) ∧
    (∀ created q, checked = (.ok created, q) ↔ unchecked = (.ok created, q) ∧ q.verify = .ok ()) ∧
    (∀ v, (checked = (.error (.refused (.unknownValue v)), p) ↔
        p.missing? r.instruction = some v) ∧
      (unchecked = (.error (.refused (.unknownValue v)), p) ↔
        p.missing? r.instruction = some v)) := by
  intro checked unchecked
  rcases perform_request_cases hp.wellFormed hv config r with
    ⟨v, hmissing, hon, hoff⟩ | ⟨hmissing, hoff, ⟨hverify, hon⟩ | ⟨e, hverify, hon⟩⟩
  · simp [checked, unchecked, hon, hoff, hmissing]
  · simp only [checked, unchecked, hon, hoff, hmissing, hverify]
    refine ⟨by simp, by simp, fun created q => ?_, by simp⟩
    constructor
    · intro h
      cases h
      exact ⟨rfl, hverify⟩
    · exact fun h => h.1
  · simp only [checked, unchecked, hon, hoff, hmissing, hverify]
    refine ⟨?_, ?_, fun created q => ?_, ?_⟩
    · cases e <;> simp [Abort.map]
    · cases e <;> simp [Abort.map]
    · constructor
      · intro h
        cases h
      · rintro ⟨h, hq⟩
        cases h
        rw [hverify] at hq
        cases hq
    · cases e <;> simp [Abort.map]

theorem verified_request_iff_mismatch :
    let p := ({} : Program).after [⟨{}, .declare ⟨.float32, [1]⟩ {} "a"⟩,
      ⟨{}, .declare ⟨.float32, [2]⟩ {} "b"⟩]
    let e : VerifyError := ⟨⟨0⟩, .copy, .typesDiffer 0 1⟩
    p.Reachable ∧ p.verify = .ok () ∧
      (p.append (Request.copy ⟨0⟩ ⟨1⟩).instruction).2.verify = .error (.refused e) ∧
      (p.perform ⟨{ verifyOnBuild := true }, .request (.copy ⟨0⟩ ⟨1⟩)⟩).1 =
        .error (.refused (.verification e)) := by
  intro p e
  have hp : p.Reachable := ⟨_, rfl⟩
  have hv : p.verify = .ok () := by decide
  have hmismatch : (p.append (Request.copy ⟨0⟩ ⟨1⟩).instruction).2.verify =
      .error (.refused e) := by decide
  exact ⟨hp, hv, hmismatch, ((verified_request_iff hp hv {} _).1 e).2 ⟨⟨⟨0⟩, rfl⟩, hmismatch⟩⟩

/-! ## Operators -/

/-- No operator meets a verdict, also in a program that is not verified, and all operators do the
same with and without verification. -/
theorem operator_ignores_verification (hp : p.Reachable) (config : Config) (op : Operator) :
    (∀ e, (p.perform ⟨config, .operator op⟩).1 ≠ .error (.refused (.verification e))) ∧
    p.perform ⟨{ config with verifyOnBuild := true }, .operator op⟩ =
      p.perform ⟨{ config with verifyOnBuild := false }, .operator op⟩ := by
  constructor
  · intro e
    rw [perform_operator hp.wellFormed]
    cases h : op.plan config p with
    | ok plan =>
      intro hcause
      cases hcause
    | error cause =>
      intro hcause
      cases hcause
      exact op.plan_noVerdict config p e h
  · rw [perform_operator hp.wellFormed, perform_operator hp.wellFormed,
      Operator.plan_verifyOnBuild config true, Operator.plan_verifyOnBuild config false]

theorem operator_ignores_mismatch :
    let p := ({} : Program).after [⟨{}, .declare ⟨.float32, [1]⟩ {} "a"⟩,
      ⟨{}, .declare ⟨.float32, [2]⟩ {} "b"⟩,
      ⟨{ verifyOnBuild := false }, .request (.copy ⟨0⟩ ⟨1⟩)⟩]
    p.Reachable ∧ p.verify ≠ .ok () ∧
      (∀ e, (p.perform ⟨{}, .operator (.tanh ⟨0⟩)⟩).1 ≠ .error (.refused (.verification e))) ∧
      p.perform ⟨{ verifyOnBuild := true }, .operator (.tanh ⟨0⟩)⟩ =
        p.perform ⟨{ verifyOnBuild := false }, .operator (.tanh ⟨0⟩)⟩ := by
  intro p
  have hp : p.Reachable := ⟨_, rfl⟩
  exact ⟨hp, by decide, operator_ignores_verification hp {} (.tanh ⟨0⟩)⟩

end Program
end TensorIR
