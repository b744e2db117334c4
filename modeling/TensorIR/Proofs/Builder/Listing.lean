import TensorIR.Proofs.Builder.Representation
import TensorIR.Proofs.Program.Lines

/-!
# TensorIR.Proofs.Builder.Listing

The listing of a program that was built step by step. It leaves nothing out, and further calls only
add lines.

* `map_some_filterMap`: where a line can be written for every position, none is skipped.
* `WellFormed.resultLine`: the line of an instruction begins with the position of its result.
* `instructionLines_isPrefix`: the lines of the instructions stay in front.
* `listing_complete_and_permanent`: the text has two sections in which every variable and every
  instruction has its line, now and after any further calls.
-/

namespace TensorIR
namespace Program

variable {p q : Program}

/-- Where there is an answer for every element of a list, none is skipped. -/
theorem map_some_filterMap {α β : Type} {f : α → Option β} {xs : List α}
    (h : ∀ x ∈ xs, ∃ y, f x = some y) : (xs.filterMap f).map some = xs.map f := by
  induction xs with
  | nil => rfl
  | cons x xs ih =>
    obtain ⟨y, hy⟩ := h x List.mem_cons_self
    rw [List.filterMap_cons_some hy, List.map_cons, List.map_cons, hy,
      ih fun z hz => h z (List.mem_cons_of_mem x hz)]

/-! ## Lines of instructions -/

/-- The result of an instruction has no name, so that it is called by its position. -/
theorem WellFormed.resultLine (hp : p.WellFormed) {k : InstrId} {placed : Placed}
    (hk : p.instr? k = some placed) :
    p.instrLine? k = some (placed.result.label ++ " = " ++ p.bodyText placed.instr) := by
  obtain ⟨dest, type, -, -, hresult⟩ := (hp.placed k placed hk).result
  rw [instrLine?_eq hk hresult]
  rfl

theorem instructionLines_eq (p : Program) :
    p.instructionLines = p.instrIds.filterMap p.instrLine? := by
  rw [instrIds, List.filterMap_map]
  rfl

theorem lt_of_mem_instrIds {k : InstrId} (h : k ∈ p.instrIds) : k.index < p.instrs.length := by
  obtain ⟨index, hindex, rfl⟩ := List.mem_map.1 h
  exact List.mem_range.1 hindex

theorem instrIds_isPrefix (h : p.Extends q) : p.instrIds <+: q.instrIds := by
  obtain ⟨more, hmore⟩ := Nat.exists_eq_add_of_le h.instrs.length_le
  rw [instrIds, instrIds, hmore, List.range_add]
  exact (List.prefix_append _ _).map _

theorem instructionLines_isPrefix (hp : p.WellFormed) (h : p.Extends q) :
    p.instructionLines <+: q.instructionLines := by
  rw [instructionLines_eq, instructionLines_eq]
  exact filterMap_isPrefix (instrIds_isPrefix h) fun k hk =>
    instrLine?_of_extends hp h (lt_of_mem_instrIds hk)

/-! ## The whole listing -/

/-- The listing of a program that was built step by step

* consists of two sections: `declare` with one line for each static variable, in the order of
  declaration, and `program` with one for each instruction, in program order;
* skips nothing: every value and every instruction has a line. That of a value begins with its label
  and tells what it is. That of an instruction begins with the position of its result and calls each
  operand by the label of a value;
* keeps all lines at their places whatever calls follow, so that lines are added at the end of the
  two sections only.

A value that is found by its name is found by it from then on, and the name is its label. -/
theorem listing_complete_and_permanent (hp : p.Reachable) (calls : List Call) :
    let q := p.after calls
    (p.listing = "declare \x7b\n" ++
        String.join (p.declarationLines.map fun line => "  " ++ line ++ "\n") ++
        "\x7d\n\nprogram \x7b\n" ++
        String.join (p.instructionLines.map fun line => "  " ++ line ++ "\n") ++ "\x7d\n" ∧
      p.declarationLines.map some = p.variableIds.map p.valueLine? ∧
      p.instructionLines.map some = p.instrIds.map p.instrLine?) ∧
    (∀ id : ValueId, id.index < p.values.length →
      ∃ v t, p.value? id = some v ∧ p.type? v.type = some t ∧
        p.valueLine? id = some (p.label v ++ definitionText v t) ∧
        q.valueLine? id = some (p.label v ++ definitionText v t)) ∧
    (∀ k placed, p.instr? k = some placed →
      (∀ o ∈ placed.instr.operands, ∃ v, p.value? o.value = some v ∧
        p.operandText o = "@" ++ o.role.name ++ " " ++ p.label v) ∧
      ∃ line, line = "%" ++ toString placed.result.index ++ " = " ++ p.bodyText placed.instr ∧
        p.instrLine? k = some line ∧ q.instrLine? k = some line) ∧
    (p.declarationLines <+: q.declarationLines ∧ p.instructionLines <+: q.instructionLines) ∧
    ∀ name id, p.find? name = some id →
      q.find? name = some id ∧ ∃ v, q.value? id = some v ∧ v.label = "%" ++ name ∧
        q.label v = "%" ++ name := by
  intro q
  have hp := hp.wellFormed
  have hlarger : p.Extends q := extends_after calls hp
  have hq : q.WellFormed := hp.after calls
  refine ⟨⟨listing_eq p, ?_, ?_⟩, fun id hid => ?_, fun k placed hk => ⟨fun o ho => ?_, ?_⟩,
    ⟨declarationLines_isPrefix hp hq hlarger, instructionLines_isPrefix hp hlarger⟩,
    fun name id h => ?_⟩
  · rw [hp.declarationLines_eq]
    exact map_some_filterMap fun id => hp.valueLine?_of_mem_variableIds
  · rw [instructionLines_eq]
    exact map_some_filterMap fun k hk => ⟨_, hp.resultLine (instr?_of_lt (lt_of_mem_instrIds hk))⟩
  · have hv := value?_of_lt hid
    obtain ⟨t, ht⟩ := hp.typed id _ hv
    rw [valueLine?_of_extends hp hlarger hid]
    exact ⟨_, t, hv, ht, valueLine?_eq hv ht, valueLine?_eq hv ht⟩
  · have hv := value?_of_lt (hp.hasOperands hk o ho)
    exact ⟨_, hv, by rw [operandText, labelAt_eq hv]⟩
  · rw [instrLine?_of_extends hp hlarger (lt_of_instr? hk)]
    exact ⟨_, rfl, hp.resultLine hk, hp.resultLine hk⟩
  · have hfound := find?_of_extends hlarger h
    obtain ⟨v, hv, hfirst⟩ := hq.firstNamed_of_find? hfound
    exact ⟨hfound, v, hv, by rw [Value.label, hfirst.1], hfirst.label_eq⟩

/-- A name that is repeated later, with an operator that fails in between. -/
theorem listing_permanent_repeatedName :
    let p := ({} : Program).after [⟨{}, .declare ⟨.float32, [2]⟩ {} "x"⟩,
      ⟨{}, .operator (.tanh ⟨0⟩)⟩]
    let calls : List Call := [⟨{}, .operator (.concat [] 0)⟩,
      ⟨{}, .declare ⟨.int8, [3, 4]⟩ {} "x"⟩, ⟨{}, .operator (.sigmoid ⟨2⟩)⟩]
    let q := p.after calls
    p.Reachable ∧
      p.listing = "declare \x7b\n  %x = static float<2>, activation\n" ++
        "  %1 = static float<2>, activation\n\x7d\n\nprogram \x7b\n" ++
        "  %2 = tanh @out %1, @in %x\n\x7d\n" ∧
      p.instructionLines <+: q.instructionLines ∧ p.declarationLines <+: q.declarationLines ∧
      q.find? "x" = some ⟨0⟩ ∧ ∃ v, q.value? ⟨0⟩ = some v ∧ q.label v = "%x" := by
  intro p calls q
  have hp : p.Reachable := ⟨_, rfl⟩
  have hdeclared : p.declarationLines =
      ["%x = static float<2>, activation", "%1 = static float<2>, activation"] := by decide
  have hprogram : p.instructionLines = ["%2 = tanh @out %1, @in %x"] := by decide
  obtain ⟨⟨hlisting, -⟩, -, -, ⟨hdeclarations, hinstructions⟩, hfind⟩ :=
    listing_complete_and_permanent hp calls
  obtain ⟨hfound, v, hv, -, hlabel⟩ := hfind "x" ⟨0⟩ (by decide)
  refine ⟨hp, ?_, hinstructions, hdeclarations, hfound, v, hv, hlabel⟩
  rw [hlisting, hdeclared, hprogram]
  rfl

end Program
end TensorIR
