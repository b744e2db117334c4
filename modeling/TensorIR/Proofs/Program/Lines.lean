import Mathlib.Data.List.Basic
import TensorIR.Proofs.Program.Labels

/-!
# TensorIR.Proofs.Program.Lines

The lines of a program. Labels are made up anew whenever a line is written; since they count earlier
values only, a line that could be written once stays as it is.

* `valueLine?_eq`, `instrLine?_eq`: the parts of a line. Every value and every instruction of a
  well-formed program has one.
* `label_of_extends`, `valueLine?_of_extends`, `instrLine?_of_extends`: larger programs have the
  same labels and lines at the old positions.
* `Program.variableIds`, `WellFormed.declarationLines_eq`: the listing has the lines of the static
  variables in the order of their declaration.
* `listing_eq`: the text of the listing, its lines between the braces of two sections.
* `find?_of_extends`, `WellFormed.firstNamed_of_find?`: what is found by a name is found by it from
  then on, and is the first of that name.
-/

namespace TensorIR
namespace Program

variable {p q : Program} {id : ValueId} {v : Value} {name : String}

/-! ## Every line can be written -/

/-- What stands behind the label in the line of a value of type `t`. -/
def definitionText (v : Value) (t : TensorType) : String :=
  match v.declared? with
  | some var => " = static " ++ var.describe t
  | none => " = result " ++ t.text

/-- What stands behind the result in the line of an instruction. -/
def bodyText (p : Program) (i : Instruction) : String :=
  let operands := Text.joined ", " (i.operands.map p.operandText)
  Text.joined " " ([i.opcode.name, i.parameters, operands].filter (· ≠ ""))

theorem valueLine?_eq {t : TensorType} (hv : p.value? id = some v) (ht : p.type? v.type = some t) :
    p.valueLine? id = some (p.label v ++ definitionText v t) := by
  rw [valueLine?, hv, Option.bind_eq_bind, Option.bind_some, ht, Option.bind_eq_bind,
    Option.bind_some, definitionText]
  cases v.declared? <;> simp [String.append_assoc]

theorem instrLine?_eq {k : InstrId} {placed : Placed} (hk : p.instr? k = some placed)
    (hv : p.value? placed.result = some v) :
    p.instrLine? k = some (p.label v ++ " = " ++ p.bodyText placed.instr) := by
  simp [instrLine?, hk, hv, bodyText]

theorem labelAt_eq (hv : p.value? id = some v) : p.labelAt id = p.label v := by
  simp [labelAt, hv]

/-! ## Lines of larger programs -/

theorem repeats_of_extends (hq : p.Extends q) (hv : v.id.index ≤ p.values.length) (name : String) :
    q.repeats v name = p.repeats v name := by
  obtain ⟨added, h⟩ := hq.values
  rw [repeats, repeats, ← h, List.take_append_of_le_length hv]

theorem label_of_extends (hp : p.WellFormed) (hq : p.Extends q) (hv : p.value? id = some v) :
    q.label v = p.label v := by
  have hid : v.id.index ≤ p.values.length := by
    rw [hp.ids id v hv]
    exact Nat.le_of_lt (lt_of_value? hv)
  simp only [label, repeats_of_extends hq hid]

theorem labelAt_of_extends (hp : p.WellFormed) (hq : p.Extends q)
    (hid : id.index < p.values.length) : q.labelAt id = p.labelAt id := by
  have hv := value?_of_lt hid
  rw [labelAt_eq hv, labelAt_eq (hq.value? hv), label_of_extends hp hq hv]

theorem valueLine?_of_extends (hp : p.WellFormed) (hq : p.Extends q)
    (hid : id.index < p.values.length) : q.valueLine? id = p.valueLine? id := by
  have hv := value?_of_lt hid
  obtain ⟨t, ht⟩ := hp.typed id _ hv
  rw [valueLine?_eq hv ht, valueLine?_eq (hq.value? hv) (hq.type? ht), label_of_extends hp hq hv]

theorem instrLine?_of_extends (hp : p.WellFormed) (hq : p.Extends q) {k : InstrId}
    (hk : k.index < p.instrs.length) : q.instrLine? k = p.instrLine? k := by
  have hplaced := instr?_of_lt hk
  obtain ⟨dest, type, -, -, hresult⟩ := (hp.placed k _ hplaced).result
  have hoperands : p.instrs[k.index].instr.operands.map q.operandText =
      p.instrs[k.index].instr.operands.map p.operandText := by
    refine List.map_congr_left fun o ho => ?_
    rw [operandText, operandText, labelAt_of_extends hp hq (hp.hasOperands hplaced o ho)]
  rw [instrLine?_eq hplaced hresult, instrLine?_eq (hq.instr? hplaced) (hq.value? hresult),
    label_of_extends hp hq hresult, bodyText, bodyText, hoperands]

/-! ## One line for each static variable -/

/-- The positions of the static variables, in order. -/
def variableIds (p : Program) : List ValueId :=
  ((List.range p.values.length).map ValueId.mk).filter fun id =>
    (p.value? id).any (·.declared?.isSome)

/-- A value that knows its position is found by the positions of a list and by its own. -/
theorem WellFormed.variableIds_eq (hp : p.WellFormed) :
    p.variableIds = (p.values.filter (·.declared?.isSome)).map (·.id) := by
  have hids : (List.range p.values.length).map ValueId.mk = p.values.map (·.id) := by
    refine List.ext_getElem (by simp) fun n hn hn' => ?_
    have hlt : n < p.values.length := by simpa using hn
    simp [hp.ids ⟨n⟩ _ (value?_of_lt hlt)]
  rw [variableIds, hids, List.filter_map]
  congr 1
  refine List.filter_congr fun v hv => ?_
  obtain ⟨n, hn⟩ := List.mem_iff_getElem?.1 hv
  have hvalue : p.value? ⟨n⟩ = some v := hn
  simp [hp.ids _ _ hvalue, hvalue]

theorem map_fst_declarations (p : Program) :
    p.declarations.map (·.1) = p.values.filter (·.declared?.isSome) := by
  unfold declarations
  induction p.values with
  | nil => rfl
  | cons v values ih => cases hv : v.declared? <;> simp [hv, ih]

/-- The listing has the lines of the static variables in the order of their declaration. -/
theorem WellFormed.declarationLines_eq (hp : p.WellFormed) :
    p.declarationLines = p.variableIds.filterMap p.valueLine? := by
  rw [hp.variableIds_eq, ← map_fst_declarations, List.map_map, List.filterMap_map]
  rfl

theorem WellFormed.valueLine?_of_mem_variableIds (hp : p.WellFormed) (hid : id ∈ p.variableIds) :
    ∃ line, p.valueLine? id = some line := by
  obtain ⟨v, hv, -⟩ := (Option.any_eq_true _ _).1 (List.mem_filter.1 hid).2
  obtain ⟨t, ht⟩ := hp.typed id v hv
  exact ⟨_, valueLine?_eq hv ht⟩

theorem variableIds_isPrefix (hp : p.WellFormed) (hq : q.WellFormed) (h : p.Extends q) :
    p.variableIds <+: q.variableIds := by
  rw [hp.variableIds_eq, hq.variableIds_eq]
  exact (h.values.filter _).map _

/-- What is written for the first elements of a list comes first. -/
theorem filterMap_isPrefix {α β : Type} {f g : α → Option β} {xs ys : List α} (h : xs <+: ys)
    (hfg : ∀ x ∈ xs, g x = f x) : xs.filterMap f <+: ys.filterMap g := by
  obtain ⟨more, rfl⟩ := h
  rw [List.filterMap_append, List.filterMap_congr hfg]
  exact List.prefix_append _ _

theorem declarationLines_isPrefix (hp : p.WellFormed) (hq : q.WellFormed) (h : p.Extends q) :
    p.declarationLines <+: q.declarationLines := by
  rw [hp.declarationLines_eq, hq.declarationLines_eq]
  refine filterMap_isPrefix (variableIds_isPrefix hp hq h) fun id hid => ?_
  obtain ⟨v, hv, -⟩ := (Option.any_eq_true _ _).1 (List.mem_filter.1 hid).2
  exact valueLine?_of_extends hp h (lt_of_value? hv)

/-- The two sections, one line for each entry. -/
theorem listing_eq (p : Program) :
    p.listing = "declare \x7b\n" ++
      String.join (p.declarationLines.map fun line => "  " ++ line ++ "\n") ++
      "\x7d\n\nprogram \x7b\n" ++
      String.join (p.instructionLines.map fun line => "  " ++ line ++ "\n") ++ "\x7d\n" := by
  have hopening : "declare" ++ " \x7b\n" = "declare \x7b\n" := rfl
  have hbetween : "\x7d\n" ++ "\n" ++ ("program" ++ " \x7b\n") = "\x7d\n\nprogram \x7b\n" := rfl
  rw [listing, block, block, hopening, ← hbetween]
  simp only [String.append_assoc]

/-! ## Values by their names -/

theorem WellFormed.firstNamed_of_find? (hp : p.WellFormed) (h : p.find? name = some id) :
    ∃ v, p.value? id = some v ∧ p.FirstNamed v name := by
  obtain ⟨v, hfind, rfl⟩ := Option.map_eq_some_iff.1 h
  obtain ⟨hname, before, after, hvalues, hbefore⟩ := List.find?_eq_some_iff_append.1 hfind
  have hv : p.value? ⟨before.length⟩ = some v := by simp [value?, hvalues]
  have hid : v.id = ⟨before.length⟩ := hp.ids _ v hv
  refine ⟨v, hid ▸ hv, of_decide_eq_true hname, ?_⟩
  rw [repeats, hid, hvalues, List.take_left, List.countP_eq_zero]
  exact fun w hw => by simpa using hbefore w hw

theorem find?_of_extends (hq : p.Extends q) (h : p.find? name = some id) :
    q.find? name = some id := by
  obtain ⟨v, hfind, rfl⟩ := Option.map_eq_some_iff.1 h
  obtain ⟨added, hvalues⟩ := hq.values
  rw [find?, ← hvalues, List.find?_append, hfind]
  rfl

end Program
end TensorIR
