import TensorIR.Proofs.Builder.Listing
import TensorIR.Proofs.Builder.Uniquing

/-!
# TensorIR.Proofs.Builder.Alike

Programs that differ in the handles of their types only. Such programs agree in whatever can be
asked of them without passing a handle.

* `Program.descriptions`: the values of a program, told by their types.
* `Program.Alike`: two programs with the same instructions and the same descriptions.
* `Alike.typeOf?`, `Alike.plan`, `Alike.permit`: they agree in the types of values, in the plans of
  operators and in what is permitted. A comparison of handles comes out alike, since each program
  stores a type once.
* `Alike.verify`, `Alike.verifyInstr`: they agree in all verdicts.
* `Alike.label`, `Alike.listing`: they agree in their textual forms.
* `descriptions_declareAs`, `descriptions_append`: what growing adds can be told without handles, so
  that alike programs stay alike (`Alike.declareAll`, `Alike.append`).
-/

namespace TensorIR

/-- A value as it can be told without the handle of its type. -/
structure Description where
  id : ValueId
  type : Option TensorType
  name : Option String
  origin : Origin

namespace Program

variable {p q : Program} {i : Instruction} {id : ValueId} {v w : Value}

def describe (p : Program) (v : Value) : Description :=
  ⟨v.id, p.type? v.type, v.name, v.origin⟩

def descriptions (p : Program) : List Description := p.values.map p.describe

/-- How many values before the given one have its name can be read off the descriptions. -/
theorem repeats_eq (p : Program) (v : Value) (name : String) :
    p.repeats v name = (p.descriptions.take v.id.index).countP (·.name = some name) := by
  rw [descriptions, ← List.map_take, List.countP_map]
  rfl

/-- The programs have the same instructions and the same values but for the handles of types, and
the second one knows the types of the first one. -/
structure Alike (p q : Program) : Prop where
  left : p.WellFormed
  right : q.WellFormed
  instrs : q.instrs = p.instrs
  values : q.descriptions = p.descriptions
  types : p.types.types ⊆ q.types.types

theorem WellFormed.alike (hp : p.WellFormed) : p.Alike p :=
  ⟨hp, hp, rfl, rfl, List.Subset.refl _⟩

namespace Alike

/-! ## Values -/

theorem length (h : p.Alike q) : q.values.length = p.values.length := by
  simpa [descriptions] using congrArg List.length h.values

theorem map_value? (h : p.Alike q) (id : ValueId) :
    (q.value? id).map q.describe = (p.value? id).map p.describe := by
  have hat := congrArg (·[id.index]?) h.values
  simpa [descriptions, value?] using hat

theorem exists_value? (h : p.Alike q) (hv : p.value? id = some v) :
    ∃ w, q.value? id = some w ∧ q.describe w = p.describe v := by
  have hmap := h.map_value? id
  rw [hv, Option.map_some] at hmap
  exact Option.map_eq_some_iff.1 hmap

theorem value?_eq_none (h : p.Alike q) (hv : p.value? id = none) : q.value? id = none := by
  have hmap := h.map_value? id
  rwa [hv, Option.map_none, Option.map_eq_none_iff] at hmap

theorem typeOf? (h : p.Alike q) (id : ValueId) : q.typeOf? id = p.typeOf? id := by
  cases hv : p.value? id with
  | none => simp [Program.typeOf?, typeRef?, hv, h.value?_eq_none hv]
  | some v =>
    obtain ⟨w, hw, hsame⟩ := h.exists_value? hv
    have htype : q.type? w.type = p.type? v.type := congrArg Description.type hsame
    simp only [Program.typeOf?, typeRef?, hv, hw, Option.map_some, Option.bind_some, htype]

theorem fresh (h : p.Alike q) : q.fresh = p.fresh := by
  funext n
  rw [Program.fresh, Program.fresh, h.length]

/-- A plan is a function of the types of values and of their number. -/
theorem plan (h : p.Alike q) (config : Config) (op : Operator) :
    op.plan config q = op.plan config p := by
  have htypes : Operator.typeOf q = Operator.typeOf p := by
    funext id
    rw [Operator.typeOf, Operator.typeOf, h.typeOf?]
  cases op with
  | concat inputs axis =>
    cases inputs <;> simp only [Operator.plan, Operator.into, htypes, h.fresh]
  | _ => simp only [Operator.plan, Operator.into, htypes, h.fresh]

/-! ## Verification -/

/-- The handle of an operand is found in both programs or in neither, and it stands for one type. -/
theorem operandType (h : p.Alike q) (i : Instruction) (index : Nat) :
    (∃ e, p.operandType i index = .error e ∧ q.operandType i index = .error e) ∨
      ∃ id a b, p.operandType i index = .ok a ∧ q.operandType i index = .ok b ∧
        p.typeRef? id = some a ∧ q.typeRef? id = some b := by
  cases ho : i.operand? index with
  | none => exact .inl ⟨_, operandType_of_missingOperand ho, operandType_of_missingOperand ho⟩
  | some o =>
    cases hv : p.value? o.value with
    | none =>
      exact .inl ⟨_, operandType_of_missingValue ho hv,
        operandType_of_missingValue ho (h.value?_eq_none hv)⟩
    | some v =>
      obtain ⟨w, hw, -⟩ := h.exists_value? hv
      have hp : p.typeRef? o.value = some v.type := by rw [typeRef?, hv, Option.map_some]
      have hq : q.typeRef? o.value = some w.type := by rw [typeRef?, hw, Option.map_some]
      exact .inr ⟨o.value, _, _, operandType_eq ho hp, operandType_eq ho hq, hp, hq⟩

/-- To compare handles is to compare types, in either program. -/
theorem requireSameType (h : p.Alike q) (i : Instruction) (m n : Nat) :
    q.requireSameType i m n = p.requireSameType i m n := by
  unfold Program.requireSameType
  rcases h.operandType i m with ⟨e, hp, hq⟩ | ⟨id, a, a', hp, hq, ha, ha'⟩
  · rw [hp, hq]
    rfl
  rcases h.operandType i n with ⟨e, hp', hq'⟩ | ⟨id', b, b', hp', hq', hb, hb'⟩
  · rw [hp, hq, hp', hq']
    rfl
  have hiff : a' = b' ↔ a = b := by
    rw [h.right.typeRef?_inj_iff ha' hb', h.left.typeRef?_inj_iff ha hb, h.typeOf?, h.typeOf?]
  rw [hp, hq, hp', hq', ok_bind, ok_bind, ok_bind, ok_bind]
  simp only [hiff]

theorem check (h : p.Alike q) (i : Instruction) : q.check i = p.check i := by
  have hdims : q.operandDims = p.operandDims := by
    funext i index
    simp only [Program.operandDims, Program.dims?, h.typeOf?]
  simp only [Program.check, checkOperands, requireDims, h.requireSameType, hdims]

theorem verifyAs (h : p.Alike q) (k : InstrId) (i : Instruction) :
    q.verifyAs k i = p.verifyAs k i := by
  rw [Program.verifyAs, Program.verifyAs, h.check]

theorem verifyInstr (h : p.Alike q) (k : InstrId) : q.verifyInstr k = p.verifyInstr k := by
  simp only [Program.verifyInstr, instr?, h.instrs, h.verifyAs]

theorem verdict (h : p.Alike q) (k : InstrId) (i : Instruction) :
    q.verdict k i = p.verdict k i := by
  have hinstrs : (q.upTo k.index).instrs = (p.upTo k.index).instrs := by
    simp only [upTo, h.instrs]
  rw [Program.verdict, Program.verdict, h.verifyAs, checkSingleWriter_congr hinstrs]

theorem verify (h : p.Alike q) : q.verify = p.verify := by
  rw [verify_eq_verdicts h.right, verify_eq_verdicts h.left, h.instrs]
  exact forM_congr fun (placed, index) _ => h.verdict ⟨index⟩ placed.instr

theorem permit (h : p.Alike q) (config : Config) (i : Instruction) :
    q.permit config i = p.permit config i := by
  have hknown (id : ValueId) : (q.value? id).isNone = (p.value? id).isNone := by
    simpa using congrArg Option.isNone (h.map_value? id)
  simp only [Program.permit, hknown, admits_eq_verdict, h.verdict, h.instrs]

/-! ## Textual forms -/

theorem label (h : p.Alike q) (hsame : q.describe w = p.describe v) : q.label w = p.label v := by
  have hid : w.id = v.id := congrArg Description.id hsame
  have hname : w.name = v.name := congrArg Description.name hsame
  have hrepeats (name : String) : q.repeats w name = p.repeats v name := by
    rw [repeats_eq, repeats_eq, h.values, hid]
  simp only [Program.label, Value.label, hid, hname, hrepeats]

theorem labelAt (h : p.Alike q) (id : ValueId) : q.labelAt id = p.labelAt id := by
  cases hv : p.value? id with
  | none => rw [Program.labelAt, Program.labelAt, hv, h.value?_eq_none hv]
  | some v =>
    obtain ⟨w, hw, hsame⟩ := h.exists_value? hv
    rw [labelAt_eq hv, labelAt_eq hw, h.label hsame]

theorem valueLine? (h : p.Alike q) (id : ValueId) : q.valueLine? id = p.valueLine? id := by
  cases hv : p.value? id with
  | none => simp [Program.valueLine?, hv, h.value?_eq_none hv]
  | some v =>
    obtain ⟨w, hw, hsame⟩ := h.exists_value? hv
    obtain ⟨t, ht⟩ := h.left.typed id v hv
    have ht' : q.type? w.type = some t := (congrArg Description.type hsame).trans ht
    have horigin : w.origin = v.origin := congrArg Description.origin hsame
    rw [valueLine?_eq hv ht, valueLine?_eq hw ht', h.label hsame]
    simp only [definitionText, Value.declared?, horigin]

theorem instrLine? (h : p.Alike q) (k : InstrId) : q.instrLine? k = p.instrLine? k := by
  have hplaced : q.instr? k = p.instr? k := by rw [instr?, instr?, h.instrs]
  cases hk : p.instr? k with
  | none => simp [Program.instrLine?, hplaced, hk]
  | some placed =>
    have hoperands : q.operandText = p.operandText := by
      funext o
      rw [operandText, operandText, h.labelAt]
    rw [h.left.resultLine hk, h.right.resultLine (hplaced.trans hk), bodyText, bodyText, hoperands]

theorem listing (h : p.Alike q) : q.listing = p.listing := by
  have hlines : q.valueLine? = p.valueLine? := funext h.valueLine?
  have hinstrs : q.instrLine? = p.instrLine? := funext h.instrLine?
  have hids : q.variableIds = p.variableIds := by
    rw [variableIds, variableIds, h.length]
    refine List.filter_congr fun id _ => ?_
    cases hv : p.value? id with
    | none => rw [h.value?_eq_none hv]
    | some v =>
      obtain ⟨w, hw, hsame⟩ := h.exists_value? hv
      have horigin : w.origin = v.origin := congrArg Description.origin hsame
      simp only [hw, Option.any_some, Value.declared?, horigin]
  have hpositions : q.instrIds = p.instrIds := by rw [instrIds, instrIds, h.instrs]
  rw [Program.listing, Program.listing, h.right.declarationLines_eq, h.left.declarationLines_eq,
    instructionLines_eq, instructionLines_eq, hlines, hinstrs, hids, hpositions]

end Alike

/-! ## Growing -/

theorem descriptions_of_extends (hp : p.WellFormed) (hq : p.Extends q) {added : List Value}
    (hvalues : q.values = p.values ++ added) :
    q.descriptions = p.descriptions ++ added.map q.describe := by
  have hold : p.values.map q.describe = p.values.map p.describe := by
    refine List.map_congr_left fun v hv => ?_
    obtain ⟨index, hindex⟩ := List.mem_iff_getElem?.1 hv
    obtain ⟨t, ht⟩ := hp.typed ⟨index⟩ v hindex
    rw [describe, describe, ht, hq.type? ht]
  rw [descriptions, hvalues, List.map_append, hold, descriptions]

theorem descriptions_internType (hp : p.WellFormed) (t : TensorType) :
    (p.internType t).2.descriptions = p.descriptions := by
  have hvalues : (p.internType t).2.values = p.values ++ [] := (List.append_nil _).symm
  rw [descriptions_of_extends hp (extends_internType p t) hvalues, List.map_nil, List.append_nil]

theorem descriptions_declareAs (hp : p.WellFormed) (d : Declaration) :
    (p.declareAs d).descriptions = p.descriptions ++
      [⟨p.fresh 0, some d.type, if d.name = "" then none else some d.name, .declared d.var⟩] := by
  rw [descriptions_of_extends hp (extends_declareAs p d) rfl, List.map_singleton]
  have htype : (p.declareAs d).type? (p.internType d.type).1 = some d.type :=
    type?_internType p d.type
  simp only [describe, Value.rename, htype]
  rfl

theorem descriptions_append {dest : ValueId} (hp : p.WellFormed) (hi : i.SingleOutput dest)
    (ho : p.HasOperands i) :
    (p.append i).2.descriptions = p.descriptions ++
      [⟨p.fresh 0, p.typeOf? dest, none, .result ⟨p.instrs.length⟩⟩] := by
  obtain ⟨type, t, href, ht⟩ := hp.type?_of_lt (ho _ hi.mem_operands)
  have href : p.typeRef? dest = some type := href
  have hlarger := extends_append p i
  have happend := append_eq hi href
  rw [happend] at hlarger ⊢
  rw [descriptions_of_extends hp hlarger rfl, List.map_singleton, typeOf?, href, Option.bind_some]
  rfl

namespace Alike

/-- A type that is asked for in the second program only is not seen. -/
theorem internType_right (h : p.Alike q) (t : TensorType) : p.Alike (q.internType t).2 where
  left := h.left
  right := h.right.internType t
  instrs := h.instrs
  values := (descriptions_internType h.right t).trans h.values
  types := fun _ hu => (extends_internType q t).types.subset (h.types hu)

theorem internType (h : p.Alike q) (t : TensorType) :
    (p.internType t).2.Alike (q.internType t).2 where
  left := h.left.internType t
  right := h.right.internType t
  instrs := h.instrs
  values := by rw [descriptions_internType h.right, descriptions_internType h.left, h.values]
  types := by
    intro u hu
    rcases TypeTable.mem_types_intern.1 hu with hu | hu
    · exact TypeTable.mem_types_intern.2 (.inl (h.types hu))
    · exact TypeTable.mem_types_intern.2 (.inr hu)

theorem declareAs (h : p.Alike q) (d : Declaration) : (p.declareAs d).Alike (q.declareAs d) where
  left := h.left.declareAs d
  right := h.right.declareAs d
  instrs := h.instrs
  values := by rw [descriptions_declareAs h.right, descriptions_declareAs h.left, h.values, h.fresh]
  types := (h.internType d.type).types

theorem declareAll (ds : List Declaration) :
    ∀ {p q : Program}, p.Alike q → (p.declareAll ds).Alike (q.declareAll ds) := by
  induction ds with
  | nil => intro p q h; exact h
  | cons d ds ih => intro p q h; exact ih (h.declareAs d)

theorem append {dest : ValueId} (h : p.Alike q) (hi : i.SingleOutput dest)
    (ho : p.HasOperands i) : (p.append i).2.Alike (q.append i).2 := by
  have ho' : q.HasOperands i := by
    intro o hmem
    rw [h.length]
    exact ho o hmem
  refine ⟨h.left.append hi ho, h.right.append hi ho', ?_, ?_, ?_⟩
  · show q.instrs ++ [⟨i, ⟨q.values.length⟩⟩] = p.instrs ++ [⟨i, ⟨p.values.length⟩⟩]
    rw [h.instrs, h.length]
  · rw [descriptions_append h.right hi ho', descriptions_append h.left hi ho, h.values, h.fresh,
      h.typeOf?, h.instrs]
  · rw [types_append h.left hi ho, types_append h.right hi ho']
    exact h.types

end Alike

end Program
end TensorIR
