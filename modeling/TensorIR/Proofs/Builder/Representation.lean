import TensorIR.Proofs.Builder.Run

/-!
# TensorIR.Proofs.Builder.Representation

How the three lists of a program that was built step by step hang together.

* `producers_eq`: the results among the values name the instructions in program order, each one
  once.
* `WellFormed.append_typed`: an appended instruction has a typed destination, so that the type which
  is set aside for instructions without a destination is never needed.
* `reachable_representation`: values know their position and have a type; instructions and results
  correspond; operands are older than results; every look-up of what exists succeeds.
-/

namespace TensorIR

namespace Instruction.SingleOutput

variable {i : Instruction} {dest : ValueId}

theorem operand?_zero (h : i.SingleOutput dest) : i.operand? 0 = some (.output dest) := by
  obtain ⟨rest, hi, -⟩ := h
  simp [Instruction.operand?, hi]

theorem role_iff (h : i.SingleOutput dest) {n : Nat} {o : Operand} (ho : i.operand? n = some o) :
    o.role = .output ↔ n = 0 := by
  obtain ⟨rest, hi, hrest⟩ := h
  rw [Instruction.operand?, hi] at ho
  cases n with
  | zero => cases ho; simp [Operand.output]
  | succ n => exact iff_of_false (hrest o (List.mem_of_getElem? ho)) (Nat.succ_ne_zero n)

end Instruction.SingleOutput

namespace Program

variable {p q : Program} {i : Instruction} {dest : ValueId}

/-! ## Producers -/

/-- The instructions that the values of the program name as their producers. -/
def producers (p : Program) : List InstrId := p.values.filterMap (·.producer?)

theorem producers_declareAs (p : Program) (d : Declaration) :
    (p.declareAs d).producers = p.producers := by
  simp [producers, declareAs, declare, internType, Value.rename, Value.producer?]

theorem producers_declareAll (ds : List Declaration) :
    ∀ p : Program, (p.declareAll ds).producers = p.producers := by
  induction ds with
  | nil => intro p; rfl
  | cons d ds ih =>
    intro p
    rw [declareAll_cons, ih, producers_declareAs]

theorem producers_append (p : Program) (i : Instruction) :
    (p.append i).2.producers = p.producers ++ [⟨p.instrs.length⟩] := by
  simp [producers, append, Value.producer?]

@[simp] theorem length_instrs_append (p : Program) (i : Instruction) :
    (p.append i).2.instrs.length = p.instrs.length + 1 := by
  simp [append]

/-- The positions of all instructions. -/
def instrIds (p : Program) : List InstrId := (List.range p.instrs.length).map InstrId.mk

theorem instrIds_append (p : Program) (i : Instruction) :
    (p.append i).2.instrIds = p.instrIds ++ [⟨p.instrs.length⟩] := by
  simp [instrIds, List.range_succ]

theorem producers_of_grows {c : Call} {created : Created} (h : p.Grows c created q)
    (hp : p.producers = p.instrIds) : q.producers = q.instrIds := by
  cases h with
  | internType config t => exact hp
  | declare config d => rw [producers_declareAs, hp]; rfl
  | declareOf config ref d h => rw [producers_declareAs, hp]; rfl
  | request config r h => rw [producers_append, instrIds_append, hp]
  | operator config op plan h =>
    have hdeclared : (p.declareAll plan.declarations).producers =
        (p.declareAll plan.declarations).instrIds := by
      rw [producers_declareAll, hp, instrIds, instrIds, instrs_declareAll]
    rw [Plan.carryOut, producers_append, instrIds_append, hdeclared]

/-- The results among the values name the instructions in program order, each one once. -/
theorem Reachable.producers_eq (hp : p.Reachable) : p.producers = p.instrIds := by
  obtain ⟨calls, rfl⟩ := hp
  exact after_induction (fun _ h hq => producers_of_grows hq h) calls .empty rfl

/-! ## Destinations -/

/-- The destination of an appended instruction has a type by then, and no type is added. -/
theorem WellFormed.append_typed (hp : p.WellFormed) (hi : i.SingleOutput dest)
    (ho : p.HasOperands i) :
    ∃ type, i.dest?.bind p.typeRef? = some type ∧ (p.append i).2.types = p.types := by
  obtain ⟨type, t, href, -⟩ := hp.type?_of_lt (ho _ hi.mem_operands)
  have href : p.typeRef? dest = some type := href
  exact ⟨type, by rw [hi.dest?_eq, Option.bind_some, href], by rw [append_eq hi href]⟩

/-- A call that appends an instruction declares variables first, and the destination of the
instruction has a type by then. -/
theorem appended_typed (hp : p.WellFormed) {c : Call} {k : InstrId}
    (h : p.perform c = (.ok (.instr k), q)) :
    ∃ ds i type, i.dest?.bind (p.declareAll ds).typeRef? = some type ∧
      q = ((p.declareAll ds).append i).2 ∧ q.types = (p.declareAll ds).types := by
  rcases perform_cases hp c with ⟨e, hc⟩ | ⟨created, r, hc, hgrows⟩
  · rw [hc] at h
    cases h
  · rw [hc] at h
    cases h
    cases hgrows with
    | request config r hpermit =>
      obtain ⟨type, hdest, htypes⟩ :=
        hp.append_typed r.singleOutput (hasOperands_of_permit hpermit)
      exact ⟨[], r.instruction, type, hdest, rfl, htypes⟩
    | operator config op plan hplan =>
      have hpermit := Operator.permit_plan hp hplan config
      obtain ⟨type, hdest, htypes⟩ := (WellFormed.declareAll plan.declarations hp).append_typed
        plan.request.singleOutput (hasOperands_of_permit hpermit)
      exact ⟨plan.declarations, plan.request.instruction, type, hdest, rfl, htypes⟩

/-! ## Instructions and their results -/

theorem destOf_eq {k : InstrId} {placed : Placed} (hk : p.instr? k = some placed)
    (hi : placed.instr.SingleOutput dest) : p.destOf k = .ok dest := by
  simp [destOf, hk, hi.dest?_eq]

/-- Results are in the order of their instructions. -/
theorem WellFormed.result_lt (hp : p.WellFormed) {j k : InstrId} {a b : Placed}
    (ha : p.instr? j = some a) (hb : p.instr? k = some b) (hjk : j.index < k.index) :
    a.result.index < b.result.index := by
  obtain ⟨hj, rfl⟩ := List.getElem?_eq_some_iff.1 ha
  obtain ⟨hk, rfl⟩ := List.getElem?_eq_some_iff.1 hb
  exact List.pairwise_iff_getElem.1 hp.ordered _ _ hj hk hjk

/-- The result of an instruction has no name, and the type of the first operand, which is the
destination. -/
theorem WellFormed.result_eq (hp : p.WellFormed) {k : InstrId} {placed : Placed}
    (hk : p.instr? k = some placed) :
    ∃ v o, p.value? placed.result = some v ∧ v.origin = .result k ∧ v.name = none ∧
      placed.instr.operand? 0 = some o ∧ p.typeRef? o.value = some v.type ∧
      p.destOf k = .ok o.value := by
  obtain ⟨dest, type, hdest, href, hresult⟩ := (hp.placed k placed hk).result
  exact ⟨_, .output dest, hresult, rfl, rfl, hdest.operand?_zero, href, destOf_eq hk hdest⟩

/-- In a program that was built step by step

* a value knows its position, and its type handle stands for a type;
* the result of an instruction names the instruction, has no name of its own and has the type handle
  of the first operand; a value that names an instruction is the result of it; the results name the
  instructions in program order, each one once, and stand in that order;
* the first operand of an instruction is its destination and its only output, and all operands are
  older than the result;
* so the destination of an instruction and the type of a value are always found, and no appended
  instruction is without a typed destination. -/
theorem reachable_representation (hp : p.Reachable) :
    (∀ id v, p.value? id = some v → v.id = id ∧ ∃ t, p.type? v.type = some t) ∧
    (∀ k placed, p.instr? k = some placed →
      ∃ v o, p.value? placed.result = some v ∧ v.origin = .result k ∧ v.name = none ∧
        placed.instr.operand? 0 = some o ∧ p.typeRef? o.value = some v.type ∧
        p.destOf k = .ok o.value) ∧
    (∀ id v k, p.value? id = some v → v.origin = .result k →
      ∃ placed, p.instr? k = some placed ∧ placed.result = id) ∧
    p.producers = p.instrIds ∧
    (∀ j k a b, p.instr? j = some a → p.instr? k = some b → j.index < k.index →
      a.result.index < b.result.index) ∧
    (∀ k placed n o, p.instr? k = some placed → placed.instr.operand? n = some o →
      (o.role = .output ↔ n = 0) ∧ o.value.index < placed.result.index) ∧
    (∀ id : ValueId, id.index < p.values.length → ∃ t, p.typeOf? id = some t) ∧
    ∀ c k q, p.perform c = (.ok (.instr k), q) →
      ∃ ds i type, i.dest?.bind (p.declareAll ds).typeRef? = some type ∧
        q = ((p.declareAll ds).append i).2 ∧ q.types = (p.declareAll ds).types := by
  have hw := hp.wellFormed
  refine ⟨fun id v hv => ⟨hw.ids id v hv, hw.typed id v hv⟩, fun k placed => hw.result_eq,
    hw.results, hp.producers_eq, fun j k a b => hw.result_lt, fun k placed n o hk ho => ?_,
    fun id => hw.typeOf?_of_lt, fun c k q => appended_typed hw⟩
  obtain ⟨dest, type, hdest, -, -⟩ := (hw.placed k placed hk).result
  exact ⟨hdest.role_iff ho, (hw.placed k placed hk).operands o (List.mem_of_getElem? ho)⟩

/-- A pool between two malformed instructions, of which one has no source. -/
theorem reachable_representation_malformed :
    let p := ({} : Program).after [⟨{}, .declare ⟨.float32, [1, 4, 4, 2]⟩ {} "x"⟩,
      ⟨{ verifyOnBuild := false }, .request (.concat ⟨0⟩ [] 7)⟩,
      ⟨{}, .operator (.pool ⟨1⟩ .max ⟨2, 2, 0⟩)⟩,
      ⟨{ verifyOnBuild := false }, .request (.copy ⟨4⟩ ⟨3⟩)⟩]
    p.Reachable ∧ p.producers = [⟨0⟩, ⟨1⟩, ⟨2⟩] ∧ p.instrs.map (·.result) = [⟨1⟩, ⟨4⟩, ⟨5⟩] ∧
      ∀ k placed, p.instr? k = some placed →
        ∃ v, p.value? placed.result = some v ∧ v.origin = .result k ∧ v.name = none := by
  intro p
  have hp : p.Reachable := ⟨_, rfl⟩
  obtain ⟨-, hresult, -, hproducers, -⟩ := reachable_representation hp
  refine ⟨hp, hproducers, by decide, fun k placed hk => ?_⟩
  obtain ⟨v, -, hv, horigin, hname, -⟩ := hresult k placed hk
  exact ⟨v, hv, horigin, hname⟩

end Program
end TensorIR
