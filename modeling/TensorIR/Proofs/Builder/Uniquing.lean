import TensorIR.Proofs.Builder.Run
import TensorIR.Proofs.TypeTable

/-!
# TensorIR.Proofs.Builder.Uniquing

The types of a program, over all runs.

* `Program.requestedBy`, `Program.requests`: the types that a call asks for, and those of a run.
* `types_perform`, `types_after`: the type table is the one after these requests and nothing else.
* `interned_of_mem_trace`: a handle that a call returned stands for the type asked for until the end
  of the run.
* `types_are_unique`: handles tell types apart, in tables and in programs.
-/

namespace TensorIR
namespace Program

variable {p : Program} {config : Config} {t : TensorType}

/-! ## What is asked for -/

/-- The types that a call asks for: the one to be interned, or those of the variables to be declared.
A variable that is declared by the handle of its type asks for none. -/
def requestedBy (p : Program) (c : Call) : List TensorType :=
  match c.step with
  | .internType t => [t]
  | .declare t _ _ => [t]
  | .declareOf _ _ _ => []
  | .request _ => []
  | .operator op =>
    match op.plan c.config p with
    | .ok plan => plan.declarations.map (·.type)
    | .error _ => []

/-- The types that the calls of a run ask for, in order. -/
def requests : Program → List Call → List TensorType
  | _, [] => []
  | p, c :: calls => p.requestedBy c ++ (p.perform c).2.requests calls

theorem types_declareAll (ds : List Declaration) : ∀ p : Program,
    (p.declareAll ds).types = (p.types.internAll (ds.map (·.type))).2 := by
  induction ds with
  | nil => intro p; rfl
  | cons d ds ih => intro p; exact ih (p.declareAs d)

/-- The result of an instruction asks for no type. -/
theorem types_append {i : Instruction} {dest : ValueId} (hp : p.WellFormed)
    (hi : i.SingleOutput dest) (ho : p.HasOperands i) : (p.append i).2.types = p.types := by
  obtain ⟨type, -, href, -⟩ := hp.type?_of_lt (ho _ hi.mem_operands)
  rw [append_eq hi href]

theorem types_perform (hp : p.WellFormed) (c : Call) :
    (p.perform c).2.types = (p.types.internAll (p.requestedBy c)).2 := by
  obtain ⟨config, step⟩ := c
  cases step with
  | internType t => rfl
  | declare t var name => rfl
  | declareOf ref var name =>
    rcases perform_cases hp ⟨config, .declareOf ref var name⟩ with ⟨e, h⟩ | ⟨created, q, h, hq⟩
    · rw [h]
      rfl
    · rw [h]
      cases hq with
      | declareOf config ref d href =>
        show (p.types.intern d.type).2 = p.types
        rw [TypeTable.intern_of_get? href]
  | request r =>
    rw [perform_request]
    cases h : p.permit config r.instruction with
    | error e => rfl
    | ok _ => exact types_append hp r.singleOutput (hasOperands_of_permit h)
  | operator op =>
    rw [perform_operator hp]
    cases h : op.plan config p with
    | error e =>
      simp only [requestedBy, h]
      rfl
    | ok plan =>
      simp only [requestedBy, h]
      have ho := hasOperands_of_permit (Operator.permit_plan hp h config)
      have happend := types_append (.declareAll plan.declarations hp) plan.request.singleOutput ho
      exact happend.trans (types_declareAll plan.declarations p)

/-- The types of a program after a run are those after the requests of the run. -/
theorem types_after (calls : List Call) : ∀ {p : Program}, p.WellFormed →
    (p.after calls).types = (p.types.internAll (p.requests calls)).2 := by
  induction calls with
  | nil => intro p _; rfl
  | cons c calls ih =>
    intro p hp
    rw [after_cons, ih (hp.perform c), types_perform hp, requests, TypeTable.internAll_append]

/-! ## What is answered -/

/-- To ask for a type never fails, and the answer keeps its meaning. -/
theorem interned_of_mem_trace {outcome : Outcome} (calls : List Call) :
    ∀ {p : Program}, p.WellFormed → (⟨config, .internType t⟩, outcome) ∈ p.trace calls →
      ∃ ref, outcome = .ok (.type ref) ∧ (p.after calls).type? ref = some t := by
  intro p hp h
  obtain ⟨q, -, rfl, hlarger⟩ := exists_of_mem_trace calls hp h
  exact ⟨_, rfl, hlarger.type? (type?_internType q t)⟩

theorem WellFormed.typeRef?_inj_iff (hp : p.WellFormed) {a b : ValueId} {ra rb : TypeRef}
    (ha : p.typeRef? a = some ra) (hb : p.typeRef? b = some rb) :
    ra = rb ↔ p.typeOf? a = p.typeOf? b := by
  obtain ⟨v, hv, rfl⟩ := Option.map_eq_some_iff.1 ha
  obtain ⟨t, ht⟩ := hp.typed a v hv
  rw [typeOf?, typeOf?, ha, hb, Option.bind_some, Option.bind_some, ht]
  constructor
  · rintro rfl
    exact ht.symm
  · intro h
    exact TypeTable.get?_inj ht h.symm

/-- Types are stored once. A table answers equal requests with equal handles and different requests
with different ones; the handles keep their meaning, and the table has as many types as were asked
for. All this rests on the two sides of the table: by type, each type that is stored has one entry,
with the position where it stands by handle. The table of a program is that after the requests of its
run, so that to compare the handles of two values is to compare their types. -/
theorem types_are_unique (requested more : List TensorType) (calls : List Call) :
    (let refs := (({} : TypeTable).internAll requested).1
      let table := (({} : TypeTable).internAll requested).2
      TypeTable.Uniques requested refs table ∧
        refs.map (table.internAll more).2.get? = requested.map some) ∧
    let q := ({} : Program).after calls
    let trace := ({} : Program).trace calls
    q.types = (({} : TypeTable).internAll (({} : Program).requests calls)).2 ∧
    (q.types.Indexed ∧ ∀ t ref, q.types.handle? t = some ref ↔ q.type? ref = some t) ∧
    (∀ config t outcome, (⟨config, .internType t⟩, outcome) ∈ trace →
      ∃ ref, outcome = .ok (.type ref) ∧ q.type? ref = some t) ∧
    (∀ config config' t u outcome outcome', (⟨config, .internType t⟩, outcome) ∈ trace →
      (⟨config', .internType u⟩, outcome') ∈ trace → (outcome = outcome' ↔ t = u)) ∧
    ∀ a b ra rb, q.typeRef? a = some ra → q.typeRef? b = some rb →
      (ra = rb ↔ q.typeOf? a = q.typeOf? b) := by
  have hempty : ({} : Program).WellFormed := .empty
  have huniques := TypeTable.uniques_internAll requested
  have htypes := types_after calls hempty
  have hindexed : (({} : Program).after calls).types.Indexed := htypes ▸ .internAll _ .nil
  refine ⟨⟨huniques, TypeTable.map_get?_of_internAll huniques.resolve more⟩, htypes,
    ⟨hindexed, fun t ref => TypeTable.handle?_eq_some_iff⟩,
    fun config t outcome h => interned_of_mem_trace calls hempty h,
    fun config config' t u outcome outcome' ht hu => ?_,
    fun a b ra rb ha hb => (hempty.after calls).typeRef?_inj_iff ha hb⟩
  obtain ⟨ref, rfl, href⟩ := interned_of_mem_trace calls hempty ht
  obtain ⟨ref', rfl, href'⟩ := interned_of_mem_trace calls hempty hu
  constructor
  · intro h
    cases h
    exact Option.some.inj (href.symm.trans href')
  · rintro rfl
    rw [TypeTable.get?_inj href href']

/-- A type is asked for by its name, by an operator and by its name again. -/
theorem types_are_unique_relu :
    let t : TensorType := ⟨.float32, [4, 4]⟩
    let calls : List Call := [⟨{}, .internType t⟩, ⟨{}, .declare ⟨.index, [4, 4]⟩ {} "i"⟩,
      ⟨{}, .declare t {} "x"⟩, ⟨{}, .operator (.relu ⟨1⟩)⟩, ⟨{}, .internType t⟩]
    let q := ({} : Program).after calls
    q.types.size = 2 ∧ q.types.size = (({} : Program).requests calls).dedup.length ∧
      q.type? ⟨0⟩ = some t ∧ q.types.handle? t = some ⟨0⟩ ∧
      q.typeOf? ⟨2⟩ = q.typeOf? ⟨1⟩ ∧ q.typeOf? ⟨2⟩ ≠ q.typeOf? ⟨0⟩ := by
  intro t calls q
  obtain ⟨⟨huniques, -⟩, htypes, ⟨-, hcoherent⟩, hinterned, -, hrefs⟩ :=
    types_are_unique (({} : Program).requests calls) [] calls
  obtain ⟨ref, houtcome, href⟩ := hinterned {} t (.ok (.type ⟨0⟩)) (by decide)
  cases houtcome
  have hsame := hrefs ⟨2⟩ ⟨1⟩ ⟨0⟩ ⟨0⟩ (by decide) (by decide)
  have hdiffer := hrefs ⟨2⟩ ⟨0⟩ ⟨0⟩ ⟨1⟩ (by decide) (by decide)
  refine ⟨by decide, htypes ▸ huniques.size, href, (hcoherent _ _).2 href, hsame.1 rfl, ?_⟩
  exact fun h => nomatch hdiffer.2 h

end Program
end TensorIR
