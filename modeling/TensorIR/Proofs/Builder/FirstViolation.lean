import TensorIR.Proofs.Builder.Definitions
import TensorIR.Proofs.Builder.Oversize

/-!
# TensorIR.Proofs.Builder.FirstViolation

What verification reports. The pass keeps a table of writers and asks three things of every
instruction; its report can be told from the instructions alone.

* `Program.Faulty`, `Program.FirstFaulty`: an instruction that does not fit its kind or has the
  output of an earlier one, and the first such instruction.
* `Program.Reports`: the report on a faulty instruction.
* `verdict_eq_ok_iff`, `verdict_eq_error_iff`: the verdict on one instruction.
* `verify_eq_ok_iff`, `verify_eq_error_iff`: the pass over all of them.
* `first_violation_reported`: verification reports the first faulty instruction, if there is one.
-/

namespace TensorIR
namespace Program

variable {p : Program} {i : Instruction} {j k : InstrId} {v : ValueId} {placed : Placed}
  {cause : VerifyError}

/-- The instruction does not fit its kind, or an earlier one has the same output. -/
def Faulty (p : Program) (k : InstrId) : Prop :=
  p.verifyInstr k ≠ .ok () ∨ ∃ v j, p.Outputs k v ∧ p.Outputs j v ∧ j.index < k.index

structure FirstFaulty (p : Program) (k : InstrId) : Prop where
  placed : k.index < p.instrs.length
  faulty : p.Faulty k
  first : ∀ j : InstrId, j.index < k.index → ¬ p.Faulty j

/-- What is reported of a faulty instruction: why it does not fit its kind or, if it does, its
output and the one earlier instruction with that output. -/
inductive Reports (p : Program) : VerifyError → Prop
  | unfit {cause : VerifyError}
    (h : p.verifyInstr cause.instr = .error (.refused (.verification cause))) : Reports p cause
  | rewritten {j k : InstrId} {v : ValueId} {placed : Placed} (hk : p.instr? k = some placed)
    (hfits : p.verifyInstr k = .ok ()) (hv : p.Outputs k v) (hj : p.Outputs j v)
    (hearlier : j.index < k.index)
    (hunique : ∀ i : InstrId, p.Outputs i v → i.index < k.index → i = j) :
    Reports p ⟨k, placed.instr.opcode, .alreadyWritten v j⟩

/-! ## One instruction -/

theorem verifyInstr_eq (hk : p.instr? k = some placed) :
    p.verifyInstr k = (p.verifyAs k placed.instr).mapRefusal .verification := by
  rw [verifyInstr, hk]

theorem verifyInstr_eq_ok_iff (hk : p.instr? k = some placed) :
    p.verifyInstr k = .ok () ↔ p.verifyAs k placed.instr = .ok () := by
  rw [verifyInstr_eq hk, Attempt.mapRefusal_eq_ok]

theorem verifyInstr_eq_refused_iff (hk : p.instr? k = some placed) :
    p.verifyInstr k = .error (.refused (.verification cause)) ↔
      p.verifyAs k placed.instr = .error (.refused cause) := by
  rw [verifyInstr_eq hk]
  exact Attempt.mapRefusal_eq_error_map (e := .refused cause) fun _ _ =>
    ProgramError.verification.inj

/-- A violation is reported under the position asked about. -/
theorem instr_of_verifyAs (h : p.verifyAs k i = .error (.refused cause)) : cause.instr = k := by
  unfold verifyAs blaming at h
  cases hcheck : p.check i with
  | ok _ => rw [hcheck] at h; cases h
  | error e =>
    rw [hcheck] at h
    cases e <;> cases h
    rfl

theorem outputs_of_firstWriter? {n : Nat} (h : (p.upTo n).firstWriter? v = some j) :
    p.Outputs j v ∧ j.index < n := by
  obtain ⟨index, hindex, rfl⟩ := Option.map_eq_some_iff.1 h
  obtain ⟨hlt, hmem, -⟩ := List.findIdx?_eq_some_iff_getElem.1 hindex
  have hwriter : (p.instrs.take n)[index]? = some (p.upTo n).instrs[index] :=
    List.getElem?_eq_getElem hlt
  rw [List.getElem?_take, Option.ite_none_right_eq_some] at hwriter
  exact ⟨⟨_, hwriter.2, of_decide_eq_true hmem⟩, hwriter.1⟩

theorem exists_firstWriter? {n : Nat} (hj : p.Outputs j v) (hlt : j.index < n) :
    ∃ i, (p.upTo n).firstWriter? v = some i := by
  obtain ⟨writer, hj, hv⟩ := hj
  have hmem : ∃ placed ∈ (p.upTo n).instrs, v ∈ placed.instr.outputs :=
    ⟨writer, mem_upTo_iff.2 ⟨j, hlt, hj⟩, hv⟩
  rw [← Option.isSome_iff_exists, firstWriter?, Option.isSome_map, List.findIdx?_isSome,
    List.any_eq_true]
  simpa using hmem

/-! ## The verdict on one instruction -/

theorem checkSingleWriter_upTo_eq_ok_iff (hk : p.instr? k = some placed) :
    (p.upTo k.index).checkSingleWriter k placed.instr = .ok () ↔
      ∀ v j, p.Outputs k v → p.Outputs j v → ¬ j.index < k.index := by
  rw [checkSingleWriter_eq_ok_iff]
  constructor
  · rintro h v j ⟨placed', hk', hv⟩ ⟨earlier, hj, hmem⟩ hlt
    cases hk.symm.trans hk'
    exact h v hv earlier (mem_upTo_iff.2 ⟨j, hlt, hj⟩) hmem
  · intro h v hv earlier hearlier hmem
    obtain ⟨j, hlt, hj⟩ := mem_upTo_iff.1 hearlier
    exact h v j ⟨placed, hk, hv⟩ ⟨earlier, hj, hmem⟩ hlt

theorem checkSingleWriter_upTo_eq_error_iff (hp : p.WellFormed) (hk : p.instr? k = some placed) :
    (p.upTo k.index).checkSingleWriter k placed.instr = .error cause ↔
      ∃ v j, p.Outputs k v ∧ (p.upTo k.index).firstWriter? v = some j ∧
        cause = ⟨k, placed.instr.opcode, .alreadyWritten v j⟩ := by
  obtain ⟨dest, -, hdest, -, -⟩ := (hp.placed k placed hk).result
  have houtputs (v : ValueId) : p.Outputs k v ↔ v = dest := by
    constructor
    · rintro ⟨placed', hk', hv⟩
      cases hk.symm.trans hk'
      simpa [hdest.outputs_eq] using hv
    · rintro rfl
      exact ⟨placed, hk, by simp [hdest.outputs_eq]⟩
  simp only [houtputs, exists_eq_left, exists_and_left]
  rw [checkSingleWriter, hdest.outputs_eq, List.findSome?_singleton]
  cases (p.upTo k.index).firstWriter? dest with
  | none =>
    constructor
    · intro h
      cases h
    · rintro ⟨_, hwriter, -⟩
      cases hwriter
  | some j =>
    constructor
    · intro h
      cases h
      exact ⟨j, rfl, rfl⟩
    · rintro ⟨j', hwriter, rfl⟩
      cases hwriter
      rfl

theorem verdict_eq_ok_iff (hk : p.instr? k = some placed) :
    p.verdict k placed.instr = .ok () ↔ ¬ p.Faulty k := by
  rw [verdict, bind_eq_ok, Faulty, not_or, not_not, verifyInstr_eq_ok_iff hk]
  simp only [Attempt.ofExcept_eq_ok, checkSingleWriter_upTo_eq_ok_iff hk, not_exists, not_and]
  constructor
  · rintro ⟨_, hfits, hwriter⟩
    exact ⟨hfits, hwriter⟩
  · rintro ⟨hfits, hwriter⟩
    exact ⟨_, hfits, hwriter⟩

/-- Where no instruction before `k` is faulty, a value has at most one writer before `k`. -/
theorem eq_of_outputs {i : InstrId} (h : ∀ j : InstrId, j.index < k.index → ¬ p.Faulty j)
    (hi : p.Outputs i v) (hj : p.Outputs j v) (hik : i.index < k.index) (hjk : j.index < k.index) :
    i = j := by
  rcases Nat.lt_trichotomy i.index j.index with hlt | heq | hlt
  · exact absurd (.inr ⟨v, i, hj, hi, hlt⟩) (h j hjk)
  · cases i; cases j
    exact congrArg InstrId.mk heq
  · exact absurd (.inr ⟨v, j, hi, hj, hlt⟩) (h i hik)

/-- The first verdict that is not favourable is what is reported. -/
theorem verdict_eq_error_iff (hp : p.WellFormed) (hk : p.instr? k = some placed)
    (hfirst : ∀ j : InstrId, j.index < k.index → ¬ p.Faulty j) {e : Abort VerifyError} :
    p.verdict k placed.instr = .error e ↔
      ∃ cause, e = .refused cause ∧ cause.instr = k ∧ p.Reports cause := by
  unfold verdict
  constructor
  · intro h
    cases hfits : p.verifyAs k placed.instr with
    | error abort =>
      rw [hfits] at h
      cases h
      cases e with
      | fault f => exact absurd hfits verifyAs_ne_fault
      | refused cause =>
        obtain rfl := instr_of_verifyAs hfits
        exact ⟨cause, rfl, rfl, .unfit ((verifyInstr_eq_refused_iff hk).2 hfits)⟩
    | ok _ =>
      rw [hfits, ok_bind] at h
      cases e with
      | fault f => exact absurd h Attempt.ofExcept_ne_fault
      | refused cause =>
        obtain ⟨v, j, hv, hwriter, rfl⟩ :=
          (checkSingleWriter_upTo_eq_error_iff hp hk).1 (Attempt.ofExcept_eq_refused.1 h)
        obtain ⟨hj, hlt⟩ := outputs_of_firstWriter? hwriter
        exact ⟨_, rfl, rfl, .rewritten hk ((verifyInstr_eq_ok_iff hk).2 hfits) hv hj hlt
          fun i hi hik => eq_of_outputs hfirst hi hj hik hlt⟩
  · rintro ⟨cause, rfl, rfl, hreports⟩
    cases hreports with
    | unfit h => rw [(verifyInstr_eq_refused_iff hk).1 h, error_bind]
    | rewritten hk' hfits hv hj hlt hunique =>
      cases hk.symm.trans hk'
      obtain ⟨writer, hwriter⟩ := exists_firstWriter? hj hlt
      obtain ⟨hout, hbefore⟩ := outputs_of_firstWriter? hwriter
      obtain rfl := hunique writer hout hbefore
      rw [(verifyInstr_eq_ok_iff hk).1 hfits, ok_bind, Attempt.ofExcept_eq_refused,
        checkSingleWriter_upTo_eq_error_iff hp hk]
      exact ⟨_, _, hv, hwriter, rfl⟩

/-! ## The whole program -/

theorem verify_eq_ok_iff (hp : p.WellFormed) :
    p.verify = .ok () ↔ ∀ k : InstrId, k.index < p.instrs.length → ¬ p.Faulty k := by
  rw [verify_eq_verdicts hp, verdicts, forM_eq_ok_iff]
  constructor
  · intro h k hk
    have hplaced := instr?_of_lt hk
    exact (verdict_eq_ok_iff hplaced).1 (h (_, k.index) (List.mk_mem_zipIdx_iff_getElem?.2 hplaced))
  · rintro h ⟨placed, index⟩ hmem
    have hplaced : p.instr? ⟨index⟩ = some placed := List.mk_mem_zipIdx_iff_getElem?.1 hmem
    exact (verdict_eq_ok_iff hplaced).2 (h ⟨index⟩ (lt_of_instr? hplaced))

theorem verify_eq_error_iff (hp : p.WellFormed) :
    p.verify = .error (.refused cause) ↔ p.FirstFaulty cause.instr ∧ p.Reports cause := by
  have hplace {n index : Nat} {placed : Placed} :
      p.instrs.zipIdx[n]? = some (placed, index) ↔ p.instr? ⟨n⟩ = some placed ∧ n = index := by
    rw [List.getElem?_zipIdx, Option.map_eq_some_iff, Nat.zero_add]
    constructor
    · rintro ⟨_, hn, heq⟩
      cases heq
      exact ⟨hn, rfl⟩
    · rintro ⟨hn, rfl⟩
      exact ⟨placed, hn, rfl⟩
  rw [verify_eq_verdicts hp, verdicts, forM_eq_error_iff]
  constructor
  · rintro ⟨n, ⟨placed, index⟩, hn, hfail, hbefore⟩
    obtain ⟨hk, rfl⟩ := hplace.1 hn
    have hlt : n < p.instrs.length := lt_of_instr? hk
    have hfirst (j : InstrId) (hj : j.index < n) : ¬ p.Faulty j := by
      have hplaced := instr?_of_lt (Nat.lt_trans hj hlt)
      exact (verdict_eq_ok_iff hplaced).1 (hbefore _ (_, _) hj (hplace.2 ⟨hplaced, rfl⟩))
    obtain ⟨_, heq, hinstr, hreports⟩ := (verdict_eq_error_iff hp hk hfirst).1 hfail
    cases heq
    rw [hinstr]
    refine ⟨⟨hlt, not_not.1 fun hsound => ?_, hfirst⟩, hreports⟩
    cases hfail.symm.trans ((verdict_eq_ok_iff hk).2 hsound)
  · rintro ⟨⟨hlt, hfaulty, hfirst⟩, hreports⟩
    have hk := instr?_of_lt hlt
    refine ⟨cause.instr.index, (_, _), hplace.2 ⟨hk, rfl⟩,
      (verdict_eq_error_iff hp hk hfirst).2 ⟨cause, rfl, rfl, hreports⟩, ?_⟩
    rintro m ⟨placed, index⟩ hlt hm
    obtain ⟨hplaced, rfl⟩ := hplace.1 hm
    exact (verdict_eq_ok_iff hplaced).2 (hfirst ⟨m⟩ hlt)

/-- Verification of a program that was built step by step

* passes exactly if every instruction fits its kind and no two have the same output;
* otherwise fails with a violation and nothing else. That is of the first instruction that does not
  fit its kind or has the output of an earlier one, and is the violation that the check of this
  instruction alone reports or, if it passes, the output and the one earlier instruction with that
  output;
* never finds fault with a result. -/
theorem first_violation_reported (hp : p.Reachable) :
    (p.verify = .ok () ↔
      (∀ k : InstrId, k.index < p.instrs.length → p.verifyInstr k = .ok ()) ∧
        ∀ v j k, p.Outputs j v → p.Outputs k v → j = k) ∧
    (p.verify ≠ .ok () → ∃ cause, p.verify = .error (.refused cause)) ∧
    (∀ cause, p.verify = .error (.refused cause) ↔
      p.FirstFaulty cause.instr ∧ p.Reports cause) ∧
    ∀ k placed, p.instr? k = some placed → p.checkResult k placed = .ok () := by
  have hp := hp.wellFormed
  refine ⟨?_, fun h => ?_, fun cause => verify_eq_error_iff hp, fun k placed => hp.checkResult_eq⟩
  · constructor
    · intro h
      refine ⟨fun k hk => ?_, fun v j k => outputs_unique hp h⟩
      exact not_not.1 (not_or.1 ((verify_eq_ok_iff hp).1 h k hk)).1
    · rintro ⟨hfits, hunique⟩
      refine (verify_eq_ok_iff hp).2 fun k hk hfaulty => ?_
      rcases hfaulty with h | ⟨v, j, hv, hj, hlt⟩
      · exact h (hfits k hk)
      · rw [hunique v j k hj hv] at hlt
        exact Nat.lt_irrefl _ hlt
  · cases hverify : p.verify with
    | ok _ => exact absurd hverify h
    | error e =>
      cases e with
      | refused cause => exact ⟨cause, rfl⟩
      | fault f => exact absurd hverify verify_ne_fault

/-- The third instruction rewrites the output of the second one, and the fourth does not fit its
kind. -/
theorem first_violation_secondWriter :
    let unverified : Config := { verifyOnBuild := false }
    let p := ({} : Program).after [⟨{}, .declare ⟨.float32, [2]⟩ {} "a"⟩,
      ⟨{}, .declare ⟨.int8, [3]⟩ {} "b"⟩, ⟨{}, .operator (.tanh ⟨0⟩)⟩,
      ⟨{}, .operator (.tanh ⟨0⟩)⟩, ⟨unverified, .request (.relu ⟨4⟩ ⟨0⟩)⟩,
      ⟨unverified, .request (.copy ⟨1⟩ ⟨0⟩)⟩]
    let cause : VerifyError := ⟨⟨2⟩, .relu, .alreadyWritten ⟨4⟩ ⟨1⟩⟩
    p.Reachable ∧ p.verify = .error (.refused cause) ∧ p.FirstFaulty ⟨2⟩ ∧ p.Reports cause ∧
      p.verifyInstr ⟨2⟩ = .ok () ∧ p.verifyInstr ⟨3⟩ ≠ .ok () := by
  intro unverified p cause
  have hp : p.Reachable := ⟨_, rfl⟩
  have hverify : p.verify = .error (.refused cause) := by decide
  obtain ⟨hfirst, hreports⟩ := ((first_violation_reported hp).2.2.1 cause).1 hverify
  exact ⟨hp, hverify, hfirst, hreports, by decide, by decide⟩

end Program
end TensorIR
