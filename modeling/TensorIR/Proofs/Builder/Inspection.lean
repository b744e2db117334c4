import TensorIR.Proofs.Builder.Acceptance

/-!
# TensorIR.Proofs.Builder.Inspection

At which operands verification looks. No rule asks whether an operand exists; that a value does not
exist is found out where the rule of the kind asks for its type.

* `InstrKind.Inspects`: the operands that the rule of a kind mentions. Only `softmax` and
  `regression` have others.
* `WellTyped.known`: an inspected operand of a well-typed instruction has a type, one case for each
  rule.
* `verifyAs_redirect`: what stands at any other operand has no influence on verification.
* `verified_operands_exist`: the operands of which verification makes sure that they exist.
-/

namespace TensorIR

/-- The rule of the kind mentions the operand at this position. Those of `softmax` and `regression`
mention the destination and the source, and no operand after them. -/
def InstrKind.Inspects (kind : InstrKind) (n : Nat) : Prop :=
  match kind with
  | softmax | regression => n < 2
  | _ => True

theorem InstrKind.inspects_of_ne {kind : InstrKind} (hsoftmax : kind ≠ .softmax)
    (hregression : kind ≠ .regression) (n : Nat) : kind.Inspects n := by
  cases kind with
  | softmax => exact absurd rfl hsoftmax
  | regression => exact absurd rfl hregression
  | _ => trivial

/-! ## Inspected operands -/

theorem TypeEnv.HasDims.known {env : TypeEnv} {v : ValueId} {dims : List Nat}
    (h : env.HasDims v dims) : ∃ t, env v = some t := by
  obtain ⟨kind, h⟩ := h
  exact ⟨_, h⟩

namespace WellTyped

variable {env : TypeEnv} {i : Instruction} {n : Nat} {o : Operand}

theorem known_of_lt {kind : InstrKind} {dest src : ValueId} {rest : List Operand}
    (hsame : env.SameType dest src) (hn : n < 2)
    (ho : (⟨kind, .output dest :: .input src :: rest⟩ : Instruction).operand? n = some o) :
    ∃ t, env o.value = some t := by
  obtain ⟨t, hdest, hsrc⟩ := hsame
  match n with
  | 0 => cases ho; exact ⟨t, hdest⟩
  | 1 => cases ho; exact ⟨t, hsrc⟩

/-- The operands that a rule inspects have types. -/
theorem known (h : WellTyped env i) (hn : i.kind.Inspects n) (ho : i.operand? n = some o) :
    ∃ t, env o.value = some t := by
  -- Where a rule inspects all operands, their positions do not matter.
  have of_all (hall : ∀ o ∈ i.operands, ∃ t, env o.value = some t) : ∃ t, env o.value = some t :=
    hall o (List.mem_of_getElem? ho)
  cases h with
  | softmax hsame => exact known_of_lt hsame hn ho
  | regression hsame => exact known_of_lt hsame hn ho
  | elementwise hkind hsame =>
    obtain ⟨t, hdest, hsrc⟩ := hsame
    exact of_all (by simpa using ⟨⟨t, hdest⟩, t, hsrc⟩)
  | convolution hsrc hheight hwidth hdest hfilter hbias =>
    exact of_all (by simpa using ⟨hdest.known, hsrc.known, hfilter.known, hbias.known⟩)
  | maxPool hsrc hheight hwidth hdest hcache =>
    exact of_all (by simpa using ⟨hdest.known, hsrc.known, hcache.known⟩)
  | avgPool hsrc hheight hwidth hdest hcache =>
    exact of_all (by simpa using ⟨hdest.known, hsrc.known, hcache.known⟩)
  | fullyConnected hsrc hinner hdest hweights hbias =>
    exact of_all (by simpa using ⟨hdest.known, hsrc.known, hweights.known, hbias.known⟩)
  | reshape hsrc hdest hsource htarget => exact of_all (by simpa using ⟨hdest.known, hsrc.known⟩)
  | transpose hsrc hdest hshuffle hplaces => exact of_all (by simpa using ⟨hdest.known, hsrc.known⟩)
  | concat hne hsrcs haxis hfits hdest =>
    exact of_all (by simpa using ⟨hdest.known, fun src hsrc => (hsrcs src hsrc).known⟩)
  | batchNormalization hdest hsrc hchannels hscale hbias hmean hvariance =>
    exact of_all (by simpa using ⟨⟨_, hdest⟩, ⟨_, hsrc⟩, hscale.known, hbias.known, hmean.known,
      hvariance.known⟩)
  | arithmetic hdest hlhs hrhs => exact of_all (by simpa using ⟨⟨_, hdest⟩, ⟨_, hlhs⟩, _, hrhs⟩)

end WellTyped

/-! ## The other operands -/

namespace Instruction

variable {i : Instruction} {n : Nat}

/-- The instruction with another value at operand `n`. -/
def redirect (i : Instruction) (n : Nat) (v : ValueId) : Instruction :=
  { i with operands := i.operands.modify n fun o => { o with value := v } }

theorem operand?_redirect_self {o : Operand} (ho : i.operand? n = some o) (v : ValueId) :
    (i.redirect n v).operand? n = some ⟨o.role, v⟩ := by
  have ho : i.operands[n]? = some o := ho
  simp [operand?, redirect, ho]

theorem operand?_redirect_of_ne {m : Nat} (h : m ≠ n) (v : ValueId) :
    (i.redirect n v).operand? m = i.operand? m := by
  simp [operand?, redirect, h.symm]

theorem roles_redirect (i : Instruction) (n : Nat) (v : ValueId) :
    (i.redirect n v).roles = i.roles := by
  refine List.ext_getElem? fun m => ?_
  simp only [roles, redirect, List.getElem?_map, List.getElem?_modify]
  cases i.operands[m]? with
  | none => rfl
  | some o => by_cases h : n = m <;> simp [h]

end Instruction

namespace Program

variable {p : Program} {i : Instruction} {n : Nat}

theorem requireSameType_congr {j : Instruction} {a b : Nat} (ha : j.operand? a = i.operand? a)
    (hb : j.operand? b = i.operand? b) : p.requireSameType j a b = p.requireSameType i a b := by
  simp only [requireSameType, operandType, operandValue, ha, hb]

theorem checkOperands_redirect (hn : ¬ i.kind.Inspects n) (v : ValueId) :
    p.checkOperands (i.redirect n v) = p.checkOperands i := by
  obtain ⟨kind, operands⟩ := i
  have hsame (h : ¬ n < 2) :
      p.requireSameType (Instruction.redirect ⟨kind, operands⟩ n v) 0 1 =
        p.requireSameType ⟨kind, operands⟩ 0 1 :=
    requireSameType_congr (Instruction.operand?_redirect_of_ne (by omega) v)
      (Instruction.operand?_redirect_of_ne (by omega) v)
  cases kind with
  | softmax => exact hsame hn
  | regression => exact hsame hn
  | _ => exact absurd trivial hn

/-- Verification does not depend on the values of operands that it does not inspect. -/
theorem verifyAs_redirect (hn : ¬ i.kind.Inspects n) (id : InstrId) (v : ValueId) :
    p.verifyAs id (i.redirect n v) = p.verifyAs id i := by
  have hkind : (i.redirect n v).kind = i.kind := rfl
  simp only [verifyAs, blaming, check, Instruction.opcode, hkind, i.roles_redirect,
    checkOperands_redirect hn]

/-- Verification makes sure that the operands exist which it inspects, whether the instruction stands
in the program or not; but for `softmax` and `regression` these are all operands. The verdict on
those two is the same whatever the value of an operand after the source is, and so it says nothing
about this value. -/
theorem verified_operands_exist (hp : p.Reachable) (id : InstrId) (i : Instruction) :
    (p.verifyAs id i = .ok () →
      (∀ n o, i.operand? n = some o → i.kind.Inspects n → ∃ v, p.value? o.value = some v) ∧
      (i.kind ≠ .softmax → i.kind ≠ .regression →
        ∀ o ∈ i.operands, ∃ v, p.value? o.value = some v)) ∧
    ∀ n o v, i.operand? n = some o → ¬ i.kind.Inspects n →
      (i.redirect n v).operand? n = some ⟨o.role, v⟩ ∧
        p.verifyAs id (i.redirect n v) = p.verifyAs id i := by
  constructor
  · intro h
    have htyped : WellTyped p.typeEnv i :=
      wellTyped_of_check hp.wellFormed (Attempt.mapRefusal_eq_ok.1 h)
    have hinspected {n : Nat} {o : Operand} (ho : i.operand? n = some o)
        (hn : i.kind.Inspects n) : ∃ v, p.value? o.value = some v := by
      obtain ⟨t, ht⟩ := htyped.known hn ho
      exact ⟨_, List.getElem?_eq_getElem (lt_of_typeOf? ht)⟩
    refine ⟨fun n o => hinspected, fun hsoftmax hregression o hmem => ?_⟩
    obtain ⟨n, ho⟩ := List.mem_iff_getElem?.1 hmem
    exact hinspected ho (InstrKind.inspects_of_ne hsoftmax hregression n)
  · intro n o v ho hn
    exact ⟨Instruction.operand?_redirect_self ho v, verifyAs_redirect hn id v⟩

/-- A concatenation, and a `softmax` of which the selected class does not exist. -/
theorem verified_operands_exist_softmax :
    let p := ({} : Program).after [⟨{}, .declare ⟨.float32, [2]⟩ {} "src"⟩,
      ⟨{}, .declare ⟨.float32, [4]⟩ {} "dest"⟩]
    let concat := (Request.concat ⟨1⟩ [⟨0⟩, ⟨0⟩] 0).instruction
    let softmax := (Request.softmax ⟨0⟩ ⟨0⟩ ⟨1⟩ ⟨7⟩).instruction
    p.Reachable ∧ p.verifyAs ⟨0⟩ concat = .ok () ∧
      (∀ o ∈ concat.operands, ∃ v, p.value? o.value = some v) ∧
      p.verifyAs ⟨0⟩ softmax = .ok () ∧ p.verifyAs ⟨0⟩ (softmax.redirect 2 ⟨8⟩) = .ok () := by
  intro p concat softmax
  have hp : p.Reachable := ⟨_, rfl⟩
  have hconcat : p.verifyAs ⟨0⟩ concat = .ok () := by decide
  have hsoftmax : p.verifyAs ⟨0⟩ softmax = .ok () := by decide
  have hredirect := (verified_operands_exist hp ⟨0⟩ softmax).2 2 (.inout ⟨1⟩) ⟨8⟩ rfl
    (by simp [softmax, Request.instruction, InstrKind.Inspects])
  exact ⟨hp, hconcat, ((verified_operands_exist hp ⟨0⟩ concat).1 hconcat).2 (by decide) (by decide),
    hsoftmax, hredirect.2.trans hsoftmax⟩

/-- A `regression` against a value that does not exist passes verification. -/
theorem regression_against_missing_value :
    let p := ({} : Program).after [⟨{}, .declare ⟨.float32, [2]⟩ {} "x"⟩]
    let i := (Request.regression ⟨0⟩ ⟨0⟩ ⟨9⟩).instruction
    p.Reachable ∧ p.verifyAs ⟨0⟩ i = .ok () ∧ ∃ o ∈ i.operands, p.value? o.value = none := by
  intro p i
  exact ⟨⟨_, rfl⟩, by decide, .input ⟨9⟩, by decide, by decide⟩

end Program
end TensorIR
