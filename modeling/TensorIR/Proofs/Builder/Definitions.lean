import TensorIR.Proofs.Builder.Allocation
import TensorIR.Proofs.Builder.Representation
import TensorIR.Proofs.Builder.StraightLine

/-!
# TensorIR.Proofs.Builder.Definitions

Where a value gets its contents from. A result is defined by the instruction that produces it, and
any value is defined by an instruction that has it as its output.

* `Program.Produces`, `Program.Outputs`, `Program.Defines`: the two ways to define a value.
* `outputs_unique`: verification makes sure that no value is the output of two instructions.
* `Produces.lt_of_outputs`: who writes a result comes after the instruction that produces it.
* `defines_unique_iff`: single definitions are a matter of outputs that are variables.
* `outputs_after`: where the outputs of a run come from. An operator writes a variable of its own;
  all other outputs have been requested.
* `single_definition_iff`: all definitions are single exactly if no result was requested as an
  output.
-/

namespace TensorIR
namespace Program

variable {p q : Program} {i : Instruction} {j k : InstrId} {v : ValueId}

/-- The value is the result of the instruction. -/
def Produces (p : Program) (k : InstrId) (v : ValueId) : Prop :=
  ∃ value, p.value? v = some value ∧ value.origin = .result k

/-- The value is an output of the instruction. -/
def Outputs (p : Program) (k : InstrId) (v : ValueId) : Prop :=
  ∃ placed, p.instr? k = some placed ∧ v ∈ placed.instr.outputs

def Defines (p : Program) (k : InstrId) (v : ValueId) : Prop := p.Produces k v ∨ p.Outputs k v

/-- The value is a static variable. -/
def IsVariable (p : Program) (v : ValueId) : Prop :=
  ∃ value var, p.value? v = some value ∧ value.origin = .declared var

theorem IsVariable.mono (h : p.IsVariable v) (hq : p.Extends q) : q.IsVariable v := by
  obtain ⟨value, var, hv, hvar⟩ := h
  exact ⟨value, var, hq.value? hv, hvar⟩

theorem Outputs.mono (h : p.Outputs k v) (hq : p.Extends q) : q.Outputs k v := by
  obtain ⟨placed, hk, hv⟩ := h
  exact ⟨placed, hq.instr? hk, hv⟩

theorem Outputs.of_instrs_eq (h : q.Outputs k v) (hinstrs : q.instrs = p.instrs) :
    p.Outputs k v := by
  obtain ⟨placed, hk, hv⟩ := h
  exact ⟨placed, by rwa [instr?, ← hinstrs], hv⟩

/-! ## Definitions in one program -/

theorem Produces.unique (hj : p.Produces j v) (hk : p.Produces k v) : j = k := by
  obtain ⟨value, hv, hj⟩ := hj
  obtain ⟨value', hv', hk⟩ := hk
  cases hv.symm.trans hv'
  exact Origin.result.inj (hj.symm.trans hk)

theorem IsVariable.not_produces (h : p.IsVariable v) : ¬ p.Produces k v := by
  rintro ⟨value, hv, hresult⟩
  obtain ⟨value', var, hv', hvar⟩ := h
  cases hv.symm.trans hv'
  cases hvar.symm.trans hresult

/-- What an instruction writes is a variable or a result. -/
theorem Outputs.variable_or_result (hp : p.WellFormed) (h : p.Outputs k v) :
    p.IsVariable v ∨ ∃ j, p.Produces j v := by
  obtain ⟨placed, hk, hmem⟩ := h
  obtain ⟨dest, type, hdest, href, -⟩ := (hp.placed k placed hk).result
  obtain rfl : v = dest := by simpa [hdest.outputs_eq] using hmem
  obtain ⟨value, hv, -⟩ := Option.map_eq_some_iff.1 href
  cases horigin : value.origin with
  | declared var => exact .inl ⟨value, var, hv, horigin⟩
  | result j => exact .inr ⟨j, value, hv, horigin⟩

/-- A result is younger than all values that its own instruction and earlier ones write. -/
theorem Produces.lt_of_outputs (hp : p.WellFormed) (hj : p.Produces j v) (hk : p.Outputs k v) :
    j.index < k.index := by
  obtain ⟨value, hv, horigin⟩ := hj
  obtain ⟨producer, hj, rfl⟩ := hp.results v value j hv horigin
  obtain ⟨writer, hk, hmem⟩ := hk
  have hlt : producer.result.index < writer.result.index := by
    obtain ⟨o, ho, hv⟩ := List.mem_map.1 hmem
    rw [← hv]
    exact (hp.placed k writer hk).operands o (List.mem_filter.1 ho).1
  rcases Nat.lt_trichotomy j.index k.index with h | h | h
  · exact h
  · cases j; cases k; cases h
    cases hj.symm.trans hk
    exact absurd hlt (Nat.lt_irrefl _)
  · exact absurd (hp.result_lt hk hj h) (Nat.lt_asymm hlt)

/-- No two instructions of a verified program write the same value: the verdict on the later one
would not be favourable. -/
theorem outputs_unique (hp : p.WellFormed) (hverify : p.verify = .ok ()) (hj : p.Outputs j v)
    (hk : p.Outputs k v) : j = k := by
  have hle {j k : InstrId} (hj : p.Outputs j v) (hk : p.Outputs k v) : ¬ j.index < k.index := by
    intro hlt
    obtain ⟨earlier, hj, hmem⟩ := hj
    obtain ⟨later, hk, hmem'⟩ := hk
    obtain ⟨_, -, hwriter⟩ := bind_eq_ok.1 (verdict_of_verify hp hverify hk)
    have hbefore : earlier ∈ (p.upTo k.index).instrs := mem_upTo_iff.2 ⟨j, hlt, hj⟩
    exact checkSingleWriter_eq_ok_iff.1 (Attempt.ofExcept_eq_ok.1 hwriter) v hmem' earlier hbefore
      hmem
  have heq : j.index = k.index := Nat.le_antisymm (Nat.not_lt.1 (hle hk hj))
    (Nat.not_lt.1 (hle hj hk))
  cases j; cases k
  exact congrArg InstrId.mk heq

/-- In a verified program all definitions are single exactly if instructions write variables
only. -/
theorem defines_unique_iff (hp : p.WellFormed) (hverify : p.verify = .ok ()) :
    (∀ v j k, p.Defines j v → p.Defines k v → j = k) ↔ ∀ k v, p.Outputs k v → p.IsVariable v := by
  constructor
  · intro hunique k v hk
    rcases hk.variable_or_result hp with hvar | ⟨j, hj⟩
    · exact hvar
    · have hlt := hj.lt_of_outputs hp hk
      rw [hunique v j k (.inl hj) (.inr hk)] at hlt
      exact absurd hlt (Nat.lt_irrefl _)
  · intro hvar v j k hj hk
    rcases hj with hj | hj
    · rcases hk with hk | hk
      · exact hj.unique hk
      · exact absurd hj (hvar k v hk).not_produces
    · rcases hk with hk | hk
      · exact absurd hk (hvar j v hj).not_produces
      · exact outputs_unique hp hverify hj hk

/-! ## Outputs of a run -/

/-- Among the calls of a run is a request that succeeded as instruction `k`, with `v` as its
output. -/
def Requested (entries : List (Call × Outcome)) (k : InstrId) (v : ValueId) : Prop :=
  ∃ config r, r.dest = v ∧ (⟨config, .request r⟩, .ok (.instr k)) ∈ entries

theorem outputs_append (h : (p.append i).2.Outputs k v) :
    p.Outputs k v ∨ k = ⟨p.instrs.length⟩ ∧ v ∈ i.outputs := by
  obtain ⟨placed, hplaced, hv⟩ := h
  rcases getElem?_concat hplaced with hplaced | ⟨hindex, rfl⟩
  · exact .inl ⟨placed, hplaced, hv⟩
  · exact .inr ⟨congrArg InstrId.mk hindex, hv⟩

theorem outputs_appended (p : Program) (r : Request) :
    (p.append r.instruction).2.Outputs ⟨p.instrs.length⟩ r.dest := by
  refine ⟨⟨r.instruction, ⟨p.values.length⟩⟩, by simp [append, instr?], ?_⟩
  simp [r.singleOutput.outputs_eq]

/-- The output of an operator is a variable that it declares. -/
theorem isVariable_carryOut {plan : Plan} (h : plan.WritesOwn p) :
    (plan.carryOut p).IsVariable plan.request.dest := by
  obtain ⟨n, d, hd, -, hv⟩ := h.own _ plan.request.singleOutput.mem_operands rfl
  obtain ⟨-, value, hvalue, hvar, -⟩ := (gains_carryOut p plan).declared n d hd
  have hv : plan.request.dest = p.fresh n := hv
  rw [hv]
  exact ⟨value, d.var, hvalue, hvar⟩

/-- A call adds no output but a requested one and one that is a variable. -/
theorem outputs_perform (hp : p.WellFormed) {c : Call} (h : (p.perform c).2.Outputs k v) :
    p.Outputs k v ∨ (∃ config r, r.dest = v ∧ c = ⟨config, .request r⟩ ∧
      (p.perform c).1 = .ok (.instr k)) ∨ (p.perform c).2.IsVariable v := by
  rcases perform_cases hp c with ⟨e, hc⟩ | ⟨created, q, hc, hgrows⟩
  · rw [hc] at h
    exact .inl h
  · rw [hc] at h ⊢
    cases hgrows with
    | internType config t => exact .inl (h.of_instrs_eq rfl)
    | declare config d => exact .inl (h.of_instrs_eq rfl)
    | declareOf config ref d _ => exact .inl (h.of_instrs_eq rfl)
    | request config r _ =>
      rcases outputs_append h with h | ⟨rfl, hv⟩
      · exact .inl h
      · obtain rfl : v = r.dest := by simpa [r.singleOutput.outputs_eq] using hv
        exact .inr (.inl ⟨config, r, rfl, rfl, rfl⟩)
    | operator config op plan hplan =>
      rcases outputs_append h with h | ⟨-, hv⟩
      · exact .inl (h.of_instrs_eq (instrs_declareAll _ p))
      · obtain rfl : v = plan.request.dest := by
          simpa [plan.request.singleOutput.outputs_eq] using hv
        exact .inr (.inr (isVariable_carryOut (Operator.plan_writesOwn hplan)))

/-- The destination of a request that succeeds is an output of the new instruction. -/
theorem outputs_perform_request (hp : p.WellFormed) {config : Config} {r : Request}
    (h : (p.perform ⟨config, .request r⟩).1 = .ok (.instr k)) :
    (p.perform ⟨config, .request r⟩).2.Outputs k r.dest := by
  rcases perform_cases hp ⟨config, .request r⟩ with ⟨e, hc⟩ | ⟨created, q, hc, hgrows⟩
  · rw [hc] at h
    cases h
  · rw [hc] at h ⊢
    cases h
    cases hgrows
    exact outputs_appended p r

/-- An output after a run was there before it, or it was requested, or it is a variable. -/
theorem outputs_after (hp : p.WellFormed) (calls : List Call) (h : (p.after calls).Outputs k v) :
    p.Outputs k v ∨ Requested (p.trace calls) k v ∨ (p.after calls).IsVariable v := by
  rcases exists_call_of_after (P := fun q => q.Outputs k v) calls hp h with
    h | ⟨q, c, hq, hmem, hbefore, hout, hlarger⟩
  · exact .inl h
  · rcases (outputs_perform hq hout).resolve_left hbefore with ⟨config, r, hdest, rfl, hid⟩ | hvar
    · exact .inr (.inl ⟨config, r, hdest, hid ▸ hmem⟩)
    · exact .inr (.inr (hvar.mono hlarger))

/-- What is requested as an output is one from then on. -/
theorem outputs_of_requested (hp : p.WellFormed) (calls : List Call)
    (h : Requested (p.trace calls) k v) : (p.after calls).Outputs k v := by
  obtain ⟨config, r, rfl, hmem⟩ := h
  obtain ⟨q, hq, hid, hlarger⟩ := exists_of_mem_trace calls hp hmem
  exact (outputs_perform_request hq hid).mono hlarger

/-- In a verified program that was built by a run

* no value is the output of two instructions;
* an instruction that writes a result comes after the one that produces it;
* so a value has at most two definitions, its producer first. No result is written, and all
  definitions are single, exactly if all requests of the run that succeeded had a variable as their
  output; operators write variables only. -/
theorem single_definition_iff (calls : List Call)
    (hverify : (({} : Program).after calls).verify = .ok ()) :
    let p := ({} : Program).after calls
    (∀ v j k, p.Outputs j v → p.Outputs k v → j = k) ∧
    (∀ v j k, p.Produces j v → p.Outputs k v → j.index < k.index) ∧
    ((∀ v j k, p.Produces j v → ¬ p.Outputs k v) ↔
      ∀ v k, Requested (({} : Program).trace calls) k v → p.IsVariable v) ∧
    ((∀ v j k, p.Defines j v → p.Defines k v → j = k) ↔
      ∀ v k, Requested (({} : Program).trace calls) k v → p.IsVariable v) := by
  intro p
  have hp : p.WellFormed := WellFormed.empty.after calls
  have hrequested : (∀ k v, p.Outputs k v → p.IsVariable v) ↔
      ∀ v k, Requested (({} : Program).trace calls) k v → p.IsVariable v := by
    constructor
    · intro h v k hk
      exact h k v (outputs_of_requested .empty calls hk)
    · intro h k v hk
      rcases outputs_after .empty calls hk with ⟨placed, hk, -⟩ | hk | hvar
      · cases hk
      · exact h v k hk
      · exact hvar
  refine ⟨fun v j k => outputs_unique hp hverify, fun v j k => Produces.lt_of_outputs hp, ?_, ?_⟩
  · rw [← hrequested]
    constructor
    · intro h k v hk
      exact (hk.variable_or_result hp).resolve_right fun ⟨j, hj⟩ => h v j k hj hk
    · intro h v j k hj hk
      exact (h k v hk).not_produces hj
  · rw [← hrequested]
    exact defines_unique_iff hp hverify

/-- An operator, and then a copy of its output into a variable. -/
theorem single_definition_of_copied_relu :
    let calls : List Call := [⟨{}, .declare ⟨.float32, [2]⟩ {} "x"⟩,
      ⟨{}, .declare ⟨.float32, [2]⟩ {} "y"⟩, ⟨{}, .operator (.relu ⟨0⟩)⟩,
      ⟨{}, .request (.copy ⟨1⟩ ⟨2⟩)⟩]
    let p := ({} : Program).after calls
    p.verify = .ok () ∧ p.Produces ⟨0⟩ ⟨3⟩ ∧ p.Outputs ⟨1⟩ ⟨1⟩ ∧
      ∀ v j k, p.Defines j v → p.Defines k v → j = k := by
  intro calls p
  have hverify : p.verify = .ok () := by decide
  have htrace : ({} : Program).trace calls = [(calls[0], .ok (.value ⟨0⟩)),
      (calls[1], .ok (.value ⟨1⟩)), (calls[2], .ok (.instr ⟨0⟩)),
      (calls[3], .ok (.instr ⟨1⟩))] := by decide
  refine ⟨hverify, ⟨_, rfl, by decide⟩, ⟨_, rfl, by decide⟩, ?_⟩
  refine (single_definition_iff calls hverify).2.2.2.2 fun v k hk => ?_
  obtain ⟨config, r, rfl, hmem⟩ := hk
  rw [htrace] at hmem
  obtain ⟨⟨rfl, rfl⟩, rfl⟩ : (config = {} ∧ r = .copy ⟨1⟩ ⟨2⟩) ∧ k = ⟨1⟩ := by
    simpa [calls] using hmem
  exact ⟨_, {}, rfl, by decide⟩

/-- Two copies, the second one into the result of the first. The program is verified, and the result
has two definitions. -/
theorem copied_result_defined_twice :
    let p := ({} : Program).after [⟨{}, .declare ⟨.float32, [2]⟩ {} "a"⟩,
      ⟨{}, .declare ⟨.float32, [2]⟩ {} "b"⟩, ⟨{}, .request (.copy ⟨1⟩ ⟨0⟩)⟩,
      ⟨{}, .request (.copy ⟨2⟩ ⟨0⟩)⟩]
    p.Reachable ∧ p.verify = .ok () ∧ p.Produces ⟨0⟩ ⟨2⟩ ∧ p.Outputs ⟨1⟩ ⟨2⟩ := by
  intro p
  exact ⟨⟨_, rfl⟩, by decide, ⟨_, rfl, by decide⟩, _, rfl, by decide⟩

end Program
end TensorIR
