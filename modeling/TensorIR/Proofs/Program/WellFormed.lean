import TensorIR.Proofs.Program.Extends

/-!
# TensorIR.Proofs.Program.WellFormed

What always holds of a program that was built step by step. Verification is no part of it: a
well-formed program may hold instructions that do not fit their kind.

* `Instruction.SingleOutput`: an instruction writes its destination, which is its first operand,
  and has no other output.
* `Placed.WellFormed`: a placed instruction has a single output, reads and writes only values older
  than its result, and its result is a value of the type of the destination that names it.
* `Program.WellFormed`: values carry their position and a known type, and results and instructions
  correspond to each other.
* `WellFormed.empty`, `WellFormed.internType`, `WellFormed.declare`, `WellFormed.append`: the
  empty program is well-formed, and the three ways to grow keep it so.
-/

namespace TensorIR

/-- The first operand is the output `dest`, and there is no other output. -/
def Instruction.SingleOutput (i : Instruction) (dest : ValueId) : Prop :=
  ∃ rest, i.operands = .output dest :: rest ∧ ∀ o ∈ rest, o.role ≠ .output

namespace Instruction.SingleOutput

variable {i : Instruction} {dest : ValueId}

theorem dest?_eq (h : i.SingleOutput dest) : i.dest? = some dest := by
  obtain ⟨rest, hi, -⟩ := h
  simp [dest?, hi, Operand.output]

theorem outputs_eq (h : i.SingleOutput dest) : i.outputs = [dest] := by
  obtain ⟨rest, hi, hrest⟩ := h
  have hnone : rest.filter (·.role = .output) = [] := by simpa using hrest
  simp [outputs, hi, Operand.output, hnone]

theorem mem_operands (h : i.SingleOutput dest) : .output dest ∈ i.operands := by
  obtain ⟨rest, hi, -⟩ := h
  simp [hi]

end Instruction.SingleOutput

/-- The instruction at position `id` of a program, with a result of its own. -/
structure Placed.WellFormed (p : Program) (id : InstrId) (placed : Placed) : Prop where
  operands : ∀ o ∈ placed.instr.operands, o.value.index < placed.result.index
  result : ∃ dest type, placed.instr.SingleOutput dest ∧ p.typeRef? dest = some type ∧
    p.value? placed.result = some { id := placed.result, type, origin := .result id }

theorem Placed.WellFormed.mono {p q : Program} {id : InstrId} {placed : Placed}
    (h : placed.WellFormed p id) (hq : p.Extends q) : placed.WellFormed q id := by
  obtain ⟨dest, type, hdest, href, hresult⟩ := h.result
  exact ⟨h.operands, dest, type, hdest, hq.typeRef? href, hq.value? hresult⟩

namespace Program

variable {p q : Program} {i : Instruction}

structure WellFormed (p : Program) : Prop where
  ids : ∀ id v, p.value? id = some v → v.id = id
  typed : ∀ id v, p.value? id = some v → ∃ t, p.type? v.type = some t
  placed : ∀ id placed, p.instr? id = some placed → placed.WellFormed p id
  /-- Every result belongs to the instruction it names. -/
  results : ∀ id v instr, p.value? id = some v → v.origin = .result instr →
    ∃ placed, p.instr? instr = some placed ∧ placed.result = id
  ordered : p.instrs.Pairwise fun a b => a.result.index < b.result.index

/-- All operands of an instruction exist. -/
def HasOperands (p : Program) (i : Instruction) : Prop :=
  ∀ o ∈ i.operands, o.value.index < p.values.length

theorem lt_of_value? {id : ValueId} {v : Value} (h : p.value? id = some v) :
    id.index < p.values.length :=
  (List.getElem?_eq_some_iff.1 h).1

theorem lt_of_instr? {id : InstrId} {placed : Placed} (h : p.instr? id = some placed) :
    id.index < p.instrs.length :=
  (List.getElem?_eq_some_iff.1 h).1

theorem value?_of_lt {id : ValueId} (h : id.index < p.values.length) :
    p.value? id = some p.values[id.index] :=
  List.getElem?_eq_getElem h

theorem instr?_of_lt {id : InstrId} (h : id.index < p.instrs.length) :
    p.instr? id = some p.instrs[id.index] :=
  List.getElem?_eq_getElem h

theorem getElem?_concat {α : Type} {xs : List α} {a b : α} {index : Nat}
    (h : (xs ++ [a])[index]? = some b) : xs[index]? = some b ∨ index = xs.length ∧ b = a := by
  rcases Nat.lt_or_ge index xs.length with hlt | hge
  · rw [List.getElem?_append_left hlt] at h
    exact .inl h
  · rw [List.getElem?_append_right hge] at h
    obtain ⟨hidx, rfl⟩ := List.getElem?_eq_some_iff.1 h
    simp at hidx
    exact .inr ⟨by omega, by simp⟩

namespace WellFormed

theorem type?_of_lt (hp : p.WellFormed) {id : ValueId} (h : id.index < p.values.length) :
    ∃ ref t, p.typeRef? id = some ref ∧ p.type? ref = some t := by
  have hv := value?_of_lt h
  obtain ⟨t, ht⟩ := hp.typed id _ hv
  exact ⟨_, t, by simp [typeRef?, hv], ht⟩

/-- The operands of placed instructions exist. -/
theorem hasOperands (hp : p.WellFormed) {id : InstrId} {placed : Placed}
    (h : p.instr? id = some placed) : p.HasOperands placed.instr := by
  intro o ho
  obtain ⟨dest, type, -, -, hresult⟩ := (hp.placed id placed h).result
  exact Nat.lt_trans ((hp.placed id placed h).operands o ho) (lt_of_value? hresult)

theorem empty : WellFormed {} where
  ids := by simp [value?]
  typed := by simp [value?]
  placed := by simp [instr?]
  results := by simp [value?]
  ordered := .nil

theorem internType (hp : p.WellFormed) (t : TensorType) : (p.internType t).2.WellFormed where
  ids := hp.ids
  typed := by
    intro id v hv
    obtain ⟨u, hu⟩ := hp.typed id v hv
    exact ⟨u, (extends_internType p t).type? hu⟩
  placed := fun id placed h => (hp.placed id placed h).mono (extends_internType p t)
  results := hp.results
  ordered := hp.ordered

theorem declare (hp : p.WellFormed) {type : TypeRef} {t : TensorType}
    (ht : p.type? type = some t) (var : StaticVariable) (name : String) :
    (p.declare type var name).2.WellFormed where
  ids := by
    intro id v hv
    rcases getElem?_concat hv with hv | ⟨hid, rfl⟩
    · exact hp.ids id v hv
    · cases id; cases hid; rfl
  typed := by
    intro id v hv
    rcases getElem?_concat hv with hv | ⟨-, rfl⟩
    · exact hp.typed id v hv
    · exact ⟨t, ht⟩
  placed := fun id placed h => (hp.placed id placed h).mono (extends_declare p type var name)
  results := by
    intro id v instr hv horigin
    rcases getElem?_concat hv with hv | ⟨-, rfl⟩
    · exact hp.results id v instr hv horigin
    · cases horigin
  ordered := hp.ordered

end WellFormed

/-- The result of an instruction takes the type handle of the destination. -/
theorem append_eq {dest : ValueId} {type : TypeRef} (hi : i.SingleOutput dest)
    (hd : p.typeRef? dest = some type) :
    p.append i = (⟨p.instrs.length⟩, {
      instrs := p.instrs ++ [⟨i, ⟨p.values.length⟩⟩]
      values := p.values ++
        [{ id := ⟨p.values.length⟩, type, origin := .result ⟨p.instrs.length⟩ }]
      types := p.types }) := by
  simp [append, hi.dest?_eq, hd]

theorem WellFormed.append {dest : ValueId} (hp : p.WellFormed) (hi : i.SingleOutput dest)
    (ho : p.HasOperands i) : (p.append i).2.WellFormed := by
  obtain ⟨type, t, href, ht⟩ := hp.type?_of_lt (ho _ hi.mem_operands)
  have hq := extends_append p i
  rw [append_eq hi href] at hq ⊢
  refine ⟨?_, ?_, ?_, ?_, ?_⟩
  · intro id v hv
    rcases getElem?_concat hv with hv | ⟨hid, rfl⟩
    · exact hp.ids id v hv
    · cases id; cases hid; rfl
  · intro id v hv
    rcases getElem?_concat hv with hv | ⟨-, rfl⟩
    · exact hp.typed id v hv
    · exact ⟨t, ht⟩
  · intro id placed h
    rcases getElem?_concat h with h | ⟨hid, rfl⟩
    · exact (hp.placed id placed h).mono hq
    · cases id; cases hid
      exact ⟨ho, dest, type, hi, hq.typeRef? href, by simp [value?]⟩
  · intro id v instr hv horigin
    rcases getElem?_concat hv with hv | ⟨hid, rfl⟩
    · obtain ⟨placed, h, hresult⟩ := hp.results id v instr hv horigin
      exact ⟨placed, hq.instr? h, hresult⟩
    · cases id; cases hid; cases horigin
      exact ⟨⟨i, ⟨p.values.length⟩⟩, by simp [instr?], rfl⟩
  · rw [List.pairwise_append]
    refine ⟨hp.ordered, List.pairwise_singleton _ _, ?_⟩
    intro a ha b hb
    obtain ⟨index, h⟩ := List.mem_iff_getElem?.1 ha
    obtain ⟨dest, type, -, -, hresult⟩ := (hp.placed ⟨index⟩ a h).result
    rw [List.mem_singleton.1 hb]
    exact lt_of_value? hresult

end Program
end TensorIR
